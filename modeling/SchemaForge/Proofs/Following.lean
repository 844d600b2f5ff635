import Mathlib.Data.List.Nodup
import Mathlib.Data.List.Perm.Subperm
import SchemaForge.Proofs.Refusals
import SchemaForge.Proofs.Types

/-!
Following references and items from a schema. The way stops at an object, at a schema without parts
or at a reference that leads nowhere, or it goes on for ever. The references that a document can
lead to stand in it as texts, so there are finitely many of them; hence a search that remembers what
it has met ends, and it meets a reference again exactly if the way never stops.
-/
namespace SchemaForge

namespace Json

mutual

/-- The texts that stand as values in a tree. -/
def texts : Json → List String
  | .str text => [text]
  | .arr items => itemTexts items
  | .obj members => memberTexts members
  | _ => []

def itemTexts : List Json → List String
  | [] => []
  | v :: rest => texts v ++ itemTexts rest

def memberTexts : List (String × Json) → List String
  | [] => []
  | (_, v) :: rest => texts v ++ memberTexts rest

end

theorem texts_of_item {items : List Json} {v : Json} (member : v ∈ items) :
    v.texts ⊆ (Json.arr items).texts := by
  rw [texts]
  induction items with
  | nil => simp at member
  | cons head rest ih =>
    rw [itemTexts]
    rcases List.mem_cons.mp member with rfl | later
    · exact List.subset_append_left _ _
    · exact List.subset_append_of_subset_right _ (ih later)

theorem texts_of_member {members : List (String × Json)} {m : String × Json}
    (member : m ∈ members) : m.2.texts ⊆ (Json.obj members).texts := by
  rw [texts]
  induction members with
  | nil => simp at member
  | cons head rest ih =>
    obtain ⟨key, v⟩ := head
    rw [memberTexts]
    rcases List.mem_cons.mp member with rfl | later
    · exact List.subset_append_left _ _
    · exact List.subset_append_of_subset_right _ (ih later)

mutual

theorem texts_length (v : Json) : v.texts.length ≤ v.size := by
  cases v with
  | arr items =>
    have inner := itemTexts_length items
    rw [texts, size]
    omega
  | obj members =>
    have inner := memberTexts_length members
    rw [texts, size]
    omega
  | _ => simp [texts, size]

theorem itemTexts_length (items : List Json) : (itemTexts items).length ≤ sizeItems items := by
  match items with
  | [] => simp [itemTexts]
  | v :: rest =>
    have first := texts_length v
    have others := itemTexts_length rest
    rw [itemTexts, sizeItems, List.length_append]
    omega

theorem memberTexts_length (members : List (String × Json)) :
    (memberTexts members).length ≤ sizeMembers members := by
  match members with
  | [] => simp [memberTexts]
  | (_, v) :: rest =>
    have first := texts_length v
    have others := memberTexts_length rest
    rw [memberTexts, sizeMembers, List.length_append]
    omega

end

end Json

namespace Document

theorem child_texts {segment : String} {v w : Json} (found : child? segment v = some w) :
    w.texts ⊆ v.texts := by
  cases v with
  | obj members => exact Json.texts_of_member (Members.mem_of_get found)
  | arr items =>
    obtain ⟨i, -, inside⟩ := Option.bind_eq_some_iff.mp found
    split at inside
    · cases inside
    · exact Json.texts_of_item (List.mem_of_getElem? inside)
  | _ => cases found

theorem lookup_texts {segments : List String} {v w : Json} (found : lookup segments v = some w) :
    w.texts ⊆ v.texts := by
  induction segments generalizing v with
  | nil =>
    obtain rfl := Option.some.inj found
    exact fun _ member => member
  | cons segment rest ih =>
    obtain ⟨u, first, later⟩ := Option.bind_eq_some_iff.mp found
    exact fun _ member => child_texts first (ih later member)

/-- What a reference leads to is decoded from a value of the document. -/
theorem resolve_ok {d : Document} {path : String} {target : Schema}
    (resolved : d.resolve path = .ok target) :
    ∃ v, lookup (Pointer.split path) d.root = some v ∧ Schema.decodeTree v = .ok target := by
  rw [resolve] at resolved
  split at resolved
  · cases resolved
  · next segments split =>
    split at resolved
    · cases resolved
    · cases resolved
    · next v _ found =>
      rw [Schema.decodeAt] at resolved
      split at resolved
      · next s decoded =>
        obtain rfl := Except.ok.inj resolved
        exact ⟨v, found, decoded⟩
      · cases resolved

end Document

namespace Schema

/-- The reference at the end of nested items. -/
def lastRef? : Schema → Option String
  | .array items _ _ => lastRef? items
  | .ref path => some path
  | _ => none

/-- A reference is decoded from its own text. -/
theorem ref_decoded {v : Json} {path : String} (decoded : decodeTree v = .ok (.ref path)) :
    ∃ members, v = .obj members ∧ Members.get? "$ref" members = some (.str path) := by
  obtain ⟨members, rfl, -⟩ := decoded_cases decoded
  refine ⟨members, rfl, ?_⟩
  rw [decodeTree] at decoded
  split at decoded
  · next text given =>
    rw [given, ref.inj (Except.ok.inj decoded)]
  · cases decoded
  · -- without the keyword a schema of one of the types comes out, or none
    exfalso
    split at decoded
    · cases decoded
    · split at decoded
      · obtain ⟨properties, -, rest⟩ := bind_ok_iff.mp decoded
        obtain ⟨required, -, rest⟩ := bind_ok_iff.mp rest
        obtain ⟨additional, -, same⟩ := bind_ok_iff.mp rest
        cases same
      split at decoded
      · obtain ⟨items, -, rest⟩ := bind_ok_iff.mp decoded
        obtain ⟨lo, -, rest⟩ := bind_ok_iff.mp rest
        obtain ⟨hi, -, same⟩ := bind_ok_iff.mp rest
        cases same
      split at decoded
      · obtain ⟨lo, -, rest⟩ := bind_ok_iff.mp decoded
        obtain ⟨hi, -, rest⟩ := bind_ok_iff.mp rest
        obtain ⟨enum, -, rest⟩ := bind_ok_iff.mp rest
        obtain ⟨format, -, same⟩ := bind_ok_iff.mp rest
        cases same
      split at decoded
      · obtain ⟨pair, -, same⟩ := map_ok_iff.mp decoded
        cases same
      split at decoded
      · obtain ⟨pair, -, same⟩ := map_ok_iff.mp decoded
        cases same
      split at decoded <;> cases decoded
    · cases decoded

theorem lastRef_texts {v : Json} {s : Schema} {path : String} (decoded : decodeTree v = .ok s)
    (last : s.lastRef? = some path) : path ∈ v.texts := by
  fun_induction lastRef? s generalizing v with
  | case1 items lo hi ih =>
    obtain ⟨members, rfl, from_⟩ := decoded_cases decoded
    cases from_ with
    | array lo hi inner =>
      obtain ⟨w, given, tree⟩ := items_decoded inner
      exact Json.texts_of_member (Members.mem_of_get given) (ih tree last)
    | primitive kind => simp [isPrimitive] at kind
  | case2 target =>
    obtain rfl := Option.some.inj last
    obtain ⟨members, rfl, given⟩ := ref_decoded decoded
    exact Json.texts_of_member (Members.mem_of_get given) (by simp [Json.texts])
  | case3 => cases last

/-- A broken rule is never about references that go round in a circle. -/
theorem Refused.group {v : Json} {segments : List String} {fault : Fault}
    (refused : Refused v segments fault) : fault.group ≠ .cyclicReference := by
  induction refused with
  | keyword _ _ _ bad => cases bad <;> simp [Fault.group]
  | property _ _ _ _ ih => exact ih
  | additional _ _ _ _ ih => exact ih
  | items _ _ _ ih => exact ih
  | _ => simp [Fault.group]

end Schema

theorem Document.resolve_error_group {d : Document} {path : String} {e : SchemaError}
    (failed : d.resolve path = .error e) : e.fault.group ≠ .cyclicReference := by
  rw [resolve] at failed
  split at failed
  · obtain rfl := Except.error.inj failed
    simp [SchemaError.located, Fault.group]
  · split at failed
    · obtain rfl := Except.error.inj failed
      simp [SchemaError.located, Fault.group]
    · obtain rfl := Except.error.inj failed
      simp [SchemaError.located, Fault.group]
    · rw [Schema.decodeAt] at failed
      split at failed
      · cases failed
      · next refused =>
        obtain rfl := Except.error.inj failed
        exact (Schema.decode_refused refused).group

theorem SchemaError.within_fault (name : String) (e : SchemaError) :
    (e.within name).fault = e.fault := by
  unfold within
  split <;> rfl

namespace Compile
open Code (Ty)

/-- One step along items or a reference. Objects and schemas without parts stop the way, and so
    does a reference without a target. -/
def follow? (d : Document) : Schema → Option Schema
  | .array items _ _ => some items
  | .ref path => (d.resolve path).toOption
  | _ => none

def followed (d : Document) : Nat → Schema → Option Schema
  | 0, s => some s
  | n + 1, s => (follow? d s).bind (followed d n)

/-- The way from a schema never stops. -/
def Unending (d : Document) (s : Schema) : Prop := ∀ n, (followed d n s).isSome

/-- Where the way from a schema stops, with the type there or the error met. -/
inductive StopsWith (d : Document) : String → Schema → Except SchemaError Ty → Prop
  | object (name : String) (properties : Option (List (String × Schema))) (required : List String)
      (additional : Option Schema) :
      StopsWith d name (.object properties required additional)
        (.ok (.record (Ident.typeName name)))
  | primitive (name : String) {s : Schema} (kind : s.isPrimitive = true) :
      StopsWith d name s (.ok (primitiveType s))
  | array {name : String} {items : Schema} {lo hi : Option Nat} {r : Except SchemaError Ty}
      (item : StopsWith d (Ident.itemOf name) items r) :
      StopsWith d name (.array items lo hi) (r.map .slice)
  | unresolved {name path : String} {e : SchemaError} (failed : d.resolve path = .error e) :
      StopsWith d name (.ref path) (.error (e.within name))
  | ref {name path : String} {target : Schema} {r : Except SchemaError Ty}
      (resolved : d.resolve path = .ok target) (rest : StopsWith d (Pointer.name path) target r) :
      StopsWith d name (.ref path) r

/-- The search for a type, without a limit: it remembers the references it has met, and counts those
    it resolves. -/
inductive Searched (d : Document) :
    List String → String → Schema → Nat → Except SchemaError Ty → Prop
  | object (met : List String) (name : String) (properties : Option (List (String × Schema)))
      (required : List String) (additional : Option Schema) :
      Searched d met name (.object properties required additional) 0
        (.ok (.record (Ident.typeName name)))
  | primitive (met : List String) (name : String) {s : Schema} (kind : s.isPrimitive = true) :
      Searched d met name s 0 (.ok (primitiveType s))
  | array {met : List String} {name : String} {items : Schema} {lo hi : Option Nat} {calls : Nat}
      {r : Except SchemaError Ty} (item : Searched d met (Ident.itemOf name) items calls r) :
      Searched d met name (.array items lo hi) calls (r.map .slice)
  | again {met : List String} {name path : String} (known : path ∈ met) :
      Searched d met name (.ref path) 0 (.error (cycleError met name path))
  | unresolved {met : List String} {name path : String} {e : SchemaError} (fresh : path ∉ met)
      (failed : d.resolve path = .error e) :
      Searched d met name (.ref path) 1 (.error (e.within name))
  | ref {met : List String} {name path : String} {target : Schema} {calls : Nat}
      {r : Except SchemaError Ty} (fresh : path ∉ met) (resolved : d.resolve path = .ok target)
      (rest : Searched d (met ++ [path]) (Pointer.name path) target calls r) :
      Searched d met name (.ref path) (calls + 1) r

def IsCyclic (r : Except SchemaError Ty) : Prop :=
  ∃ e, r = .error e ∧ e.fault.group = .cyclicReference

section Ways
variable {d : Document} {s : Schema}

theorem followed_add (m n : Nat) (s : Schema) :
    followed d (m + n) s = (followed d m s).bind (followed d n) := by
  induction m generalizing s with
  | zero => simp [followed]
  | succ m ih =>
    rw [Nat.succ_add, followed, followed]
    cases follow? d s with
    | none => rfl
    | some next => exact ih next

theorem followed_shorter {m n : Nat} (shorter : m ≤ n) (reached : (followed d n s).isSome) :
    (followed d m s).isSome := by
  obtain ⟨k, rfl⟩ := Nat.exists_eq_add_of_le shorter
  rw [followed_add] at reached
  cases first : followed d m s with
  | none => simp [first] at reached
  | some next => rfl

/-- A way that comes back to where it started never stops. -/
theorem unending_of_return {n : Nat} (back : followed d (n + 1) s = some s) : Unending d s := by
  have rounds : ∀ k, followed d (k * (n + 1)) s = some s := by
    intro k
    induction k with
    | zero => simp [followed]
    | succ k ih => rw [Nat.succ_mul, followed_add, ih, Option.bind_some, back]
  intro m
  have enough : m ≤ m * (n + 1) := Nat.le_mul_of_pos_right m (Nat.succ_pos n)
  exact followed_shorter enough (by rw [rounds]; rfl)

theorem unending_step {next : Schema} (step : follow? d s = some next) :
    Unending d s ↔ Unending d next := by
  constructor
  · intro unending n
    have further := unending (n + 1)
    rwa [followed, step, Option.bind_some] at further
  · intro unending n
    cases n with
    | zero => rfl
    | succ n =>
      rw [followed, step, Option.bind_some]
      exact unending n

theorem follow_ref {path : String} {target : Schema} (resolved : d.resolve path = .ok target) :
    follow? d (.ref path) = some target := by
  rw [follow?, resolved]
  rfl

theorem not_unending_of_stop (stop : follow? d s = none) : ¬ Unending d s := by
  intro unending
  have further := unending 1
  rw [followed, stop] at further
  simp at further

/-- A way that stops is not unending, and the error met on it is not about a circle. -/
theorem StopsWith.stops {name : String} {r : Except SchemaError Ty} (ends : StopsWith d name s r) :
    ¬ Unending d s ∧ ¬ IsCyclic r := by
  induction ends with
  | object => exact ⟨not_unending_of_stop rfl, by simp [IsCyclic]⟩
  | @primitive name s kind =>
    refine ⟨not_unending_of_stop ?_, by simp [IsCyclic]⟩
    cases s <;> simp [Schema.isPrimitive] at kind <;> rfl
  | @array name items lo hi r _ ih =>
    rw [unending_step (show follow? d (.array items lo hi) = some items from rfl)]
    refine ⟨ih.1, ?_⟩
    rintro ⟨e, failed, group⟩
    exact ih.2 ⟨e, Schema.map_error_iff.mp failed, group⟩
  | @unresolved name path e failed =>
    refine ⟨not_unending_of_stop (by rw [follow?, failed]; rfl), ?_⟩
    rintro ⟨e', same, group⟩
    obtain rfl := Except.error.inj same
    rw [SchemaError.within_fault] at group
    exact Document.resolve_error_group failed group
  | ref resolved _ ih =>
    rw [unending_step (follow_ref resolved)]
    exact ih

theorem StopsWith.unique {name : String} {r r' : Except SchemaError Ty}
    (first : StopsWith d name s r) (second : StopsWith d name s r') : r = r' := by
  induction first generalizing r' with
  | object =>
    cases second with
    | object => rfl
    | primitive _ kind => simp [Schema.isPrimitive] at kind
  | primitive _ kind =>
    cases second with
    | primitive => rfl
    | _ => simp [Schema.isPrimitive] at kind
  | array _ ih =>
    cases second with
    | array item => rw [ih item]
    | primitive _ kind => simp [Schema.isPrimitive] at kind
  | unresolved failed =>
    cases second with
    | unresolved failed' => rw [Except.error.inj (failed.symm.trans failed')]
    | ref resolved => cases failed.symm.trans resolved
    | primitive _ kind => simp [Schema.isPrimitive] at kind
  | ref resolved _ ih =>
    cases second with
    | unresolved failed => cases failed.symm.trans resolved
    | ref resolved' rest =>
      obtain rfl := Except.ok.inj (resolved.symm.trans resolved')
      exact ih rest
    | primitive _ kind => simp [Schema.isPrimitive] at kind

/-- A search ends where the way stops, or it has come back to a reference and the way never
    stops. -/
theorem Searched.decides {met : List String} {name : String} {calls : Nat}
    {r : Except SchemaError Ty} (searched : Searched d met name s calls r)
    (passed : ∀ path ∈ met, ∃ n, followed d (n + 1) (.ref path) = some s) :
    StopsWith d name s r ∨ (IsCyclic r ∧ Unending d s) := by
  induction searched with
  | object => exact .inl (.object ..)
  | primitive met name kind => exact .inl (.primitive name kind)
  | @array met name items lo hi calls r _ ih =>
    rw [unending_step (show follow? d (.array items lo hi) = some items from rfl)]
    refine (ih fun path member => ?_).imp .array fun ⟨⟨e, failed, group⟩, unending⟩ => ?_
    · obtain ⟨n, reached⟩ := passed path member
      exact ⟨n + 1, by rw [followed_add, reached]; rfl⟩
    · exact ⟨⟨e, Schema.map_error_iff.mpr failed, group⟩, unending⟩
  | again known =>
    obtain ⟨n, back⟩ := passed _ known
    exact .inr ⟨⟨_, rfl, rfl⟩, unending_of_return back⟩
  | unresolved _ failed => exact .inl (.unresolved failed)
  | @ref met name path target calls r fresh resolved _ ih =>
    rw [unending_step (follow_ref resolved)]
    refine (ih fun earlier member => ?_).imp_left (.ref resolved)
    rcases List.mem_append.mp member with before | this
    · obtain ⟨n, reached⟩ := passed earlier before
      refine ⟨n + 1, ?_⟩
      rw [followed_add, reached, Option.bind_some, followed, follow_ref resolved]
      rfl
    · obtain rfl := List.mem_singleton.mp this
      exact ⟨0, by rw [followed, follow_ref resolved]; rfl⟩

end Ways

/-- Everything that references can lead on to is known. -/
def Known (d : Document) (known : List String) : Prop :=
  ∀ path target, d.resolve path = .ok target → ∀ next ∈ target.lastRef?, next ∈ known

/-- References met that are distinct and known leave fuel for those that are not met, so the limit
    is never what ends a search. -/
theorem typeVia_searched {d : Document} {known : List String} (closed : Known d known) {fuel : Nat}
    {met : List String} (name : String) {s : Schema} (own : ∀ path ∈ s.lastRef?, path ∈ known)
    (distinct : met.Nodup) (inside : met ⊆ known) (enough : known.length ≤ fuel + met.length) :
    ∃ calls, calls + met.length ≤ known.length ∧
      Searched d met name s calls (typeVia d fuel met name s) := by
  have room := (List.subperm_of_subset distinct inside).length_le
  induction fuel using Nat.strongRecOn generalizing met name s with
  | ind fuel shorter =>
    induction name, s using Schema.children_induction with
    | step name s ih =>
      cases s with
      | array items lo hi =>
        rw [typeVia_array]
        obtain ⟨calls, few, searched⟩ := ih _ _ Schema.item_mem_children own
        exact ⟨calls, few, .array searched⟩
      | object properties required additional =>
        rw [typeVia_object]
        exact ⟨0, by omega, .object ..⟩
      | ref path =>
        by_cases seen : path ∈ met
        · have answer :
              typeVia d fuel met name (.ref path) = .error (cycleError met name path) := by
            cases fuel <;> simp [typeVia, typeWith, seen]
          rw [answer]
          exact ⟨0, by omega, .again seen⟩
        have longer : (met ++ [path]).Nodup := by
          rw [← List.concat_eq_append]
          exact distinct.concat seen
        have also : met ++ [path] ⊆ known :=
          List.append_subset.mpr ⟨inside, List.cons_subset.mpr ⟨own path rfl, List.nil_subset _⟩⟩
        have more := (List.subperm_of_subset longer also).length_le
        rw [List.length_append, List.length_singleton] at more
        obtain ⟨k, rfl⟩ : ∃ k, fuel = k + 1 := ⟨fuel - 1, by omega⟩
        cases resolved : d.resolve path with
        | error e =>
          have answer : typeVia d (k + 1) met name (.ref path) = .error (e.within name) := by
            simp [typeVia, typeWith, seen, resolved]
          rw [answer]
          exact ⟨1, by omega, .unresolved seen resolved⟩
        | ok target =>
          rw [typeVia_ref seen resolved]
          obtain ⟨calls, few, searched⟩ := shorter k (by omega)
            (Pointer.name path) (closed path target resolved) longer also
            (by rw [List.length_append, List.length_singleton]; omega)
            (by rw [List.length_append, List.length_singleton]; omega)
          rw [List.length_append, List.length_singleton] at few
          exact ⟨calls + 1, by omega, .ref seen resolved searched⟩
      | _ =>
        rw [typeVia_primitive rfl]
        exact ⟨0, by omega, .primitive met name rfl⟩

/-- The texts of a document are enough to know what references lead on to. -/
theorem texts_known (d : Document) : Known d d.root.texts := by
  intro path target resolved next last
  obtain ⟨v, found, decoded⟩ := Document.resolve_ok resolved
  exact Document.lookup_texts found (Schema.lastRef_texts decoded last)

theorem typeOf_searched (d : Document) (name : String) (s : Schema) :
    ∃ calls ≤ d.root.size + 1, Searched d [] name s calls (typeOf d name s) := by
  have few := d.root.texts_length
  have one : s.lastRef?.toList.length ≤ 1 := by cases s.lastRef? <;> simp
  have closed : Known d (s.lastRef?.toList ++ d.root.texts) :=
    fun path target resolved next last =>
      List.mem_append_right _ (texts_known d path target resolved next last)
  obtain ⟨calls, bound, searched⟩ := typeVia_searched closed name
    (fun path own => List.mem_append_left _ (by simpa using own)) List.nodup_nil
    (List.nil_subset _)
    (show _ ≤ referenceBound d + 0 by rw [List.length_append, referenceBound]; omega)
  rw [List.length_append, List.length_nil] at bound
  exact ⟨calls, by omega, searched⟩

theorem typeOf_decides (d : Document) (name : String) (s : Schema) :
    StopsWith d name s (typeOf d name s) ∨ (IsCyclic (typeOf d name s) ∧ Unending d s) := by
  obtain ⟨calls, -, searched⟩ := typeOf_searched d name s
  exact searched.decides (by simp)

theorem typeOf_cyclic_iff (d : Document) (name : String) (s : Schema) :
    IsCyclic (typeOf d name s) ↔ Unending d s := by
  rcases typeOf_decides d name s with ends | ⟨cyclic, unending⟩
  · exact iff_of_false ends.stops.2 ends.stops.1
  · exact iff_of_true cyclic unending

theorem StopsWith.typeOf_eq {d : Document} {name : String} {s : Schema} {r : Except SchemaError Ty}
    (ends : StopsWith d name s r) : typeOf d name s = r := by
  rcases typeOf_decides d name s with found | ⟨-, unending⟩
  · exact found.unique ends
  · exact absurd unending ends.stops.1

/-- The search for the type of a schema resolves no more references than the document has values,
    and one more. It reports a cycle exactly if the way along references and items never stops;
    otherwise it gives the type or the error where the way stops. A reference and its target, under
    the name that the reference ends in, have the same answer; only a cycle is spelled out from
    where each of them enters it. -/
theorem types_found_unless_endless (d : Document) (name : String) (s : Schema) :
    (∃ calls ≤ d.root.size + 1, Searched d [] name s calls (typeOf d name s)) ∧
      (IsCyclic (typeOf d name s) ↔ Unending d s) ∧
      (Unending d s ∨ StopsWith d name s (typeOf d name s)) ∧
      ∀ path target, s = .ref path → d.resolve path = .ok target →
        (Unending d s ∧ IsCyclic (typeOf d (Pointer.name path) target)) ∨
          typeOf d name s = typeOf d (Pointer.name path) target := by
  refine ⟨typeOf_searched d name s, typeOf_cyclic_iff d name s, ?_, ?_⟩
  · exact (typeOf_decides d name s).symm.imp_left And.right
  · rintro path target rfl resolved
    rcases typeOf_decides d (Pointer.name path) target with ends | ⟨cyclic, unending⟩
    · exact .inr (StopsWith.ref resolved ends).typeOf_eq
    · exact .inl ⟨(unending_step (follow_ref resolved)).mpr unending, cyclic⟩

namespace Sample

def toward (path : String) : Json := .obj [("$ref", .str path)]

/-- An alias of a list, and two references that lead to each other under different spellings. -/
def aliases : Document :=
  ⟨.obj [("A", toward "#/B"), ("B", .obj [("type", .str "array"), ("items", toward "#/C")]),
    ("C", .obj [("type", .str "boolean")]), ("P", toward "#/Q"), ("Q", toward "P")]⟩

end Sample

theorem aliases_typed :
    (Sample.aliases.resolve "#/A" = .ok (.ref "#/B") ∧
      typeOf Sample.aliases "X" (.ref "#/A") = typeOf Sample.aliases "A" (.ref "#/B") ∧
      typeOf Sample.aliases "X" (.ref "#/A") = .ok (.slice .bool)) ∧
    Sample.aliases.resolve "#/P" = .ok (.ref "#/Q") ∧ Unending Sample.aliases (.ref "#/P") ∧
      IsCyclic (typeOf Sample.aliases "P" (.ref "#/Q")) := by
  have list : typeOf Sample.aliases "X" (.ref "#/A") = .ok (.slice .bool) := by rfl
  have circle : typeOf Sample.aliases "X" (.ref "#/P") =
      .error ⟨"P", "#/Q", .referenceCycle ["#/P", "#/Q", "P", "#/Q"]⟩ := by rfl
  have first : Sample.aliases.resolve "#/A" = .ok (.ref "#/B") := by rfl
  have second : Sample.aliases.resolve "#/P" = .ok (.ref "#/Q") := by rfl
  obtain ⟨-, typed, -, target⟩ := types_found_unless_endless Sample.aliases "X" (.ref "#/A")
  obtain ⟨-, untyped, -, target'⟩ := types_found_unless_endless Sample.aliases "X" (.ref "#/P")
  have unending : Unending Sample.aliases (.ref "#/P") := untyped.mp ⟨_, circle, rfl⟩
  refine ⟨⟨first, ?_, list⟩, second, unending, ?_⟩
  · rcases target "#/A" (.ref "#/B") rfl first with ⟨endless, -⟩ | same
    · obtain ⟨e, failed, -⟩ := typed.mpr endless
      cases list.symm.trans failed
    · exact same
  · rcases target' "#/P" (.ref "#/Q") rfl second with ⟨-, cyclic⟩ | same
    · exact cyclic
    · exact same ▸ untyped.mpr unending

end Compile

end SchemaForge
