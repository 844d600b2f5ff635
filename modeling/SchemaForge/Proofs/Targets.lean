import SchemaForge.Proofs.Construction
import SchemaForge.Proofs.Following

/-!
Objects at the end of references. Two searches go along references: the one for a type remembers
what it has met, the one for an object counts. They agree on every row of references that the count
allows. A longer row has a type, but the object at its end is not found, and the record that needs
it is refused as if the references went round in a circle.
-/
namespace SchemaForge.Compile
open Code (Ty Init)
open Relation (ReflTransGen)

/-- A number of references, one leading to the next, with the names their targets have. -/
inductive Links (d : Document) : Nat → String × Schema → String × Schema → Prop
  | none (x : String × Schema) : Links d 0 x x
  | ref {hops : Nat} {name path : String} {target : Schema} {x : String × Schema}
      (resolved : d.resolve path = .ok target)
      (rest : Links d hops (Pointer.name path, target) x) :
      Links d (hops + 1) (name, .ref path) x

/-- More references in a row than are followed. -/
def TooLong (d : Document) (x : String × Schema) : Prop :=
  ∃ name path, Links d maxHops x (name, .ref path)

/-- The schemas directly inside an object, under the names they are compiled with. -/
def ObjectParts.parts (owner : String) (o : ObjectParts) : List (String × Schema) :=
  (o.properties.map fun p => (Ident.propertyOf owner p.1, p.2))
    ++ o.additional.toList.map fun s => (Ident.additionalOf owner, s)

section
variable {d : Document}

theorem target_links {hops : Nat} {x y : String × Schema} (links : Links d hops x y) (more : Nat) :
    objectTarget d (hops + more) x.1 x.2 = objectTarget d more y.1 y.2 := by
  induction links with
  | none x => rw [Nat.zero_add]
  | @ref hops name path target x resolved rest ih =>
    rw [Nat.add_right_comm, objectTarget, resolved]
    exact ih

theorem links_split {m n : Nat} {x y : String × Schema} (links : Links d (m + n) x y) :
    ∃ z, Links d m x z ∧ Links d n z y := by
  induction m generalizing x with
  | zero => exact ⟨x, .none x, by rwa [Nat.zero_add] at links⟩
  | succ m ih =>
    rw [Nat.add_right_comm] at links
    cases links with
    | ref resolved rest =>
      obtain ⟨z, first, second⟩ := ih rest
      exact ⟨z, .ref resolved first, second⟩

theorem too_long_of_links {hops : Nat} {x y : String × Schema} (links : Links d hops x y)
    (long : maxHops < hops) : TooLong d x := by
  obtain ⟨k, rfl⟩ : ∃ k, hops = maxHops + (k + 1) := ⟨hops - maxHops - 1, by omega⟩
  obtain ⟨⟨name, s⟩, first, second⟩ := links_split links
  cases second with
  | ref resolved rest => exact ⟨name, _, first⟩

theorem target_too_long {x : String × Schema} (long : TooLong d x) :
    ∃ e, objectTarget d maxHops x.1 x.2 = .error e ∧ e.fault = .chainTooLong := by
  obtain ⟨name, path, links⟩ := long
  have stuck := target_links links 0
  exact ⟨_, stuck, rfl⟩

/-- A schema with a type has references up to one that is none. -/
theorem links_of_typed {name : String} {s : Schema} {t : Ty} (typed : Typed d name s t) :
    ∃ hops target end_, Links d hops (name, s) (target, end_) ∧ ∀ path, end_ ≠ .ref path := by
  induction typed with
  | ref resolved _ ih =>
    obtain ⟨hops, target, end_, links, direct⟩ := ih
    exact ⟨hops + 1, target, end_, .ref resolved links, direct⟩
  | @primitive name s kind =>
    refine ⟨0, name, s, .none _, ?_⟩
    rintro path rfl
    simp [Schema.isPrimitive] at kind
  | array => exact ⟨0, _, _, .none _, by simp⟩
  | object => exact ⟨0, _, _, .none _, by simp⟩

/-! ### Where cycles are reported -/

theorem target_cyclic {hops : Nat} {name : String} {s : Schema} {e : SchemaError}
    (failed : objectTarget d hops name s = .error e) (cyclic : e.fault.group = .cyclicReference) :
    ∃ last path, Links d hops (name, s) (last, .ref path) := by
  induction hops generalizing name s with
  | zero =>
    by_cases direct : ∀ path, s ≠ .ref path
    · rw [target_direct direct] at failed
      cases failed
    · obtain ⟨path, rfl⟩ : ∃ path, s = .ref path := by simpa using direct
      exact ⟨name, path, .none _⟩
  | succ hops ih =>
    by_cases direct : ∀ path, s ≠ .ref path
    · rw [target_direct direct] at failed
      cases failed
    · obtain ⟨path, rfl⟩ : ∃ path, s = .ref path := by simpa using direct
      rw [objectTarget] at failed
      split at failed
      · next e' unresolved =>
        obtain rfl := Except.error.inj failed
        rw [SchemaError.within_fault] at cyclic
        exact absurd cyclic (Document.resolve_error_group unresolved)
      · next target resolved =>
        obtain ⟨last, path', links⟩ := ih failed
        exact ⟨last, path', .ref resolved links⟩

theorem required_objects_error {name : String} {required : List String}
    {test : String → ObjectParts → Except SchemaError Bool} {properties : List (String × Schema)}
    {e : SchemaError} (failed : requiredObjects d name required test properties = .error e) :
    ∃ property ∈ properties, required.contains property.1 = true ∧
      (objectTarget d maxHops (Ident.propertyOf name property.1) property.2 = .error e ∨
        ∃ y, objectTarget d maxHops (Ident.propertyOf name property.1) property.2 = .ok (some y) ∧
          test y.1 y.2 = .error e) := by
  induction properties with
  | nil => cases failed
  | cons head rest ih =>
    have later : requiredObjects d name required test rest = .error e →
        ∃ property ∈ head :: rest, required.contains property.1 = true ∧
          (objectTarget d maxHops (Ident.propertyOf name property.1) property.2 = .error e ∨
            ∃ y, objectTarget d maxHops (Ident.propertyOf name property.1) property.2 =
                .ok (some y) ∧ test y.1 y.2 = .error e) := by
      intro rest_failed
      obtain ⟨property, member, facts⟩ := ih rest_failed
      exact ⟨property, List.mem_cons_of_mem _ member, facts⟩
    rw [requiredObjects] at failed
    split at failed
    · next needed =>
      split at failed
      · next untargeted =>
        obtain rfl := Except.error.inj failed
        exact ⟨head, List.mem_cons_self, needed, .inl untargeted⟩
      · exact later failed
      · next target child found =>
        split at failed
        · next tested =>
          obtain rfl := Except.error.inj failed
          exact ⟨head, List.mem_cons_self, needed, .inr ⟨(target, child), found, tested⟩⟩
        · cases failed
        · exact later failed
    · exact later failed

/-- Construction fails only over a required property of an object that it leads to. -/
theorem finite_error {fuel : Nat} {active : List String} {x : String × ObjectParts}
    {e : SchemaError} (failed : finiteWithin d fuel active x.1 x.2 = .error e) :
    ∃ y, ReflTransGen (Leads d) x y ∧ ∃ property ∈ y.2.properties,
      objectTarget d maxHops (Ident.propertyOf y.1 property.1) property.2 = .error e := by
  induction fuel generalizing active x with
  | zero => cases failed
  | succ fuel ih =>
    rw [finiteWithin] at failed
    split at failed
    · cases failed
    · obtain ⟨property, member, needed, untargeted | ⟨y, found, deeper⟩⟩ :=
        required_objects_error failed
      · exact ⟨x, .refl, property, member, untargeted⟩
      · obtain ⟨z, reached, facts⟩ := ih deeper
        exact ⟨z, .head ⟨property, member, needed, found⟩ reached, facts⟩

/-- A record is refused for a cycle only if the way from a schema inside it never stops, or if one
    of the rows of references that construction follows is too long. -/
inductive Circular (d : Document) (x : String × ObjectParts) : Prop
  | unending {part : String × Schema} (inside : part ∈ x.2.parts x.1) (way : Unending d part.2)
  | long {y : String × ObjectParts} {part : String × Schema} (reached : ReflTransGen (Leads d) x y)
      (inside : part ∈ y.2.parts y.1) (row : TooLong d part)

theorem property_mem_parts {x : String × ObjectParts} {property : String × Schema}
    (member : property ∈ x.2.properties) :
    (Ident.propertyOf x.1 property.1, property.2) ∈ x.2.parts x.1 :=
  List.mem_append_left _ (List.mem_map.mpr ⟨property, member, rfl⟩)

theorem typeOf_circular {x : String × ObjectParts} {part : String × Schema} {e : SchemaError}
    (inside : part ∈ x.2.parts x.1) (failed : typeOf d part.1 part.2 = .error e)
    (cyclic : e.fault.group = .cyclicReference) : Circular d x :=
  .unending inside ((typeOf_cyclic_iff d part.1 part.2).mp ⟨e, failed, cyclic⟩)

theorem required_init_circular {x : String × ObjectParts} {property : String × Schema} {t : Ty}
    {e : SchemaError} (member : property ∈ x.2.properties)
    (needed : x.2.required.contains property.1 = true)
    (failed : requiredInit d (Ident.propertyOf x.1 property.1) property.2 t = .error e)
    (cyclic : e.fault.group = .cyclicReference) : Circular d x := by
  rw [requiredInit] at failed
  split at failed
  · next untargeted =>
    obtain rfl := Except.error.inj failed
    exact .long .refl (property_mem_parts member) (target_cyclic untargeted cyclic)
  · cases failed
  · next target o found =>
    split at failed
    · next unfinished =>
      obtain rfl := Except.error.inj failed
      obtain ⟨y, reached, other, inside, untargeted⟩ := finite_error (x := (target, o)) unfinished
      exact .long (.head ⟨property, member, needed, found⟩ reached) (property_mem_parts inside)
        (target_cyclic untargeted cyclic)
    · cases failed

theorem field_circular {x : String × ObjectParts} {taken : List (String × String)}
    {property : String × Schema} {e : SchemaError} (member : property ∈ x.2.properties)
    (failed : field d x.1 x.2.required taken property.1 property.2 = .error e)
    (cyclic : e.fault.group = .cyclicReference) : Circular d x := by
  rw [field] at failed
  split at failed
  · next untyped =>
    obtain rfl := Except.error.inj failed
    rw [SchemaError.within_fault] at cyclic
    exact typeOf_circular (property_mem_parts member) untyped cyclic
  · split at failed
    · obtain rfl := Except.error.inj failed
      cases cyclic
    · split at failed
      · next needed =>
        split at failed
        · next unready =>
          obtain rfl := Except.error.inj failed
          rw [SchemaError.within_fault] at cyclic
          exact required_init_circular member needed unready cyclic
        · cases failed
      · cases failed

theorem fields_circular {x : String × ObjectParts} {taken : List (String × String)}
    {properties : List (String × Schema)} {e : SchemaError} (inside : properties ⊆ x.2.properties)
    (failed : fields d x.1 x.2.required taken properties = .error e)
    (cyclic : e.fault.group = .cyclicReference) : Circular d x := by
  induction properties generalizing taken with
  | nil => cases failed
  | cons head rest ih =>
    obtain ⟨first, others⟩ := List.cons_subset.mp inside
    rw [fields] at failed
    split at failed
    · next unmade =>
      obtain rfl := Except.error.inj failed
      exact field_circular first unmade cyclic
    · exact ih others (Schema.map_error_iff.mp failed)

theorem record_circular {x : String × ObjectParts} {e : SchemaError}
    (failed : record d x.1 x.2 = .error e) (cyclic : e.fault.group = .cyclicReference) :
    Circular d x := by
  rw [record] at failed
  split at failed
  · exact fields_circular (List.Subset.refl _) (Schema.map_error_iff.mp failed) cyclic
  · next s present =>
    split at failed
    · next unmade =>
      obtain rfl := Except.error.inj failed
      exact fields_circular (List.Subset.refl _) unmade cyclic
    · split at failed
      · next untyped =>
        obtain rfl := Except.error.inj failed
        rw [SchemaError.within_fault] at cyclic
        have inside : (Ident.additionalOf x.1, s) ∈ x.2.parts x.1 :=
          List.mem_append_right _ (by simp [present])
        exact typeOf_circular inside untyped cyclic
      · cases failed

end

/-- A schema with a type has a row of references that ends. If no more of them stand in a row than
    are followed, the search for an object ends as well: it finds one exactly if the row ends at
    one, and the type is the record of that object. In a longer row it fails. So a record whose
    references end in time is never refused for a cycle. -/
theorem targets_agree_in_short_rows (d : Document) :
    (∀ name s t, typeOf d name s = .ok t →
      ∃ hops target end_, Links d hops (name, s) (target, end_) ∧ (∀ path, end_ ≠ .ref path) ∧
        (hops ≤ maxHops → objectTarget d maxHops name s =
            .ok ((ObjectParts.ofSchema? end_).map fun o => (target, o)) ∧
          ((ObjectParts.ofSchema? end_).isSome ↔ t = .record (Ident.typeName target))) ∧
        (maxHops < hops → ∃ e, objectTarget d maxHops name s = .error e ∧
          e.fault = .chainTooLong)) ∧
      ∀ owner o e, record d owner o = .error e → e.fault.group = .cyclicReference →
        Circular d (owner, o) := by
  refine ⟨?_, fun owner o e failed cyclic => record_circular failed cyclic⟩
  intro name s t typed
  have typed := typeVia_typed typed
  obtain ⟨hops, target, end_, links, direct⟩ := links_of_typed typed
  refine ⟨hops, target, end_, links, direct, fun short => ?_, fun long => ?_⟩
  · have found : objectTarget d maxHops name s =
        .ok ((ObjectParts.ofSchema? end_).map fun o => (target, o)) := by
      obtain ⟨more, enough⟩ := Nat.exists_eq_add_of_le short
      rw [enough]
      exact (target_links links more).trans (target_direct direct)
    refine ⟨found, ?_⟩
    obtain ⟨object, other⟩ := target_typed found typed
    cases parts : ObjectParts.ofSchema? end_ with
    | none =>
      rw [parts] at other
      simpa using other rfl _
    | some o =>
      rw [parts] at object
      simpa using object target o rfl
  · exact target_too_long (too_long_of_links links long)

/-- A record fails over the object of a required property that is not found. -/
theorem record_lost {d : Document} {owner key : String} {s : Schema} {t : Ty} {e : SchemaError}
    (typed : typeOf d (Ident.propertyOf owner key) s = .ok t)
    (lost : objectTarget d maxHops (Ident.propertyOf owner key) s = .error e) :
    record d owner ⟨[(key, s)], [key], none⟩ = .error (e.within owner) := by
  simp [record, fields, field, typed, requiredInit, lost, Members.get?, Except.map]

namespace Sample

def link (i : Nat) : String := "L" ++ Number.renderNat i

def path (i : Nat) : String := Pointer.render [link i]

/-- Aliases in a row, and an object at its end. -/
def rowEntry (n i : Nat) : Json :=
  if i < n then toward (path (i + 1)) else .obj [("type", .str "object")]

def row (n : Nat) : Document :=
  ⟨.obj ((List.range (n + 1)).map fun i => (link i, rowEntry n i))⟩

/-- An object that requires what the row leads to. -/
def holder : ObjectParts := ⟨[("p", .ref (path 0))], ["p"], none⟩

theorem link_injective {m n : Nat} (same : link m = link n) : m = n := by
  have chars := congrArg String.toList same
  have digits : (Number.renderNat m).toList = (Number.renderNat n).toList := by
    simpa [link] using chars
  exact Number.renderNat_injective (String.toList_injective digits)

theorem split_path (i : Nat) : Pointer.split (path i) = [] ++ [link i] := by
  refine Pointer.split_render ?_
  intro empty
  have chars := congrArg String.toList (List.cons.inj empty).1
  simp [link] at chars

theorem row_resolve {n i : Nat} {s : Schema} (inside : i ≤ n)
    (decoded : Schema.decodeTree (rowEntry n i) = .ok s) : (row n).resolve (path i) = .ok s := by
  refine Document.resolve_member (split_path i) rfl ?_ decoded
  refine Members.get_of_mem ?_ (List.mem_map.mpr ⟨i, by simpa using Nat.lt_succ_of_le inside, rfl⟩)
  have keys : Members.keys ((List.range (n + 1)).map fun i => (link i, rowEntry n i)) =
      (List.range (n + 1)).map link := by
    simp [Members.keys]
  rw [keys]
  exact List.nodup_range.map fun _ _ => link_injective

/-- From each alias the row goes on to the object at its end. -/
theorem row_links (n : Nat) {i : Nat} (inside : i ≤ n) (name : String) :
    Links (row n) (n - i + 1) (name, .ref (path i)) (link n, .object none [] none) := by
  induction rest : n - i generalizing i name with
  | zero =>
    obtain rfl : i = n := by omega
    have last : (row i).resolve (path i) = .ok (.object none [] none) := by
      refine row_resolve (Nat.le_refl i) ?_
      rw [rowEntry, if_neg (Nat.lt_irrefl i)]
      rfl
    refine .ref last ?_
    rw [Pointer.name_of_split (split_path i)]
    exact .none _
  | succ k ih =>
    have next : (row n).resolve (path i) = .ok (.ref (path (i + 1))) := by
      refine row_resolve inside ?_
      rw [rowEntry, if_pos (by omega)]
      rfl
    exact .ref next (ih (by omega) _ (by omega))

theorem row_typed (n : Nat) (name : String) :
    typeOf (row n) name (.ref (path 0)) = .ok (.record (Ident.typeName (link n))) := by
  have along : ∀ {hops : Nat} {x y : String × Schema}, Links (row n) hops x y →
      StopsWith (row n) y.1 y.2 (.ok (.record (Ident.typeName (link n)))) →
        StopsWith (row n) x.1 x.2 (.ok (.record (Ident.typeName (link n)))) := by
    intro hops x y links stop
    induction links with
    | none => exact stop
    | ref resolved _ ih => exact .ref resolved (ih stop)
  exact (along (row_links n (Nat.zero_le n) name) (.object ..)).typeOf_eq

end Sample

/-- Sixty-six references in a row that lead to an object: they have a type, and there is no cycle,
    but the object is not found and a record that requires it is refused for one. -/
theorem long_row_refused :
    typeOf (Sample.row 65) "X_p" (.ref (Sample.path 0)) = .ok (.record "L65") ∧
      ¬ Unending (Sample.row 65) (.ref (Sample.path 0)) ∧
      (∃ e, objectTarget (Sample.row 65) maxHops "X_p" (.ref (Sample.path 0)) = .error e ∧
        e.fault.group = .cyclicReference) ∧
      ∃ e, record (Sample.row 65) "X" Sample.holder = .error e ∧
        e.fault.group = .cyclicReference := by
  have named : Ident.typeName (Sample.link 65) = "L65" := by decide +kernel
  have typed := Sample.row_typed 65 "X_p"
  rw [named] at typed
  have long : TooLong (Sample.row 65) ("X_p", .ref (Sample.path 0)) :=
    too_long_of_links (Sample.row_links 65 (Nat.zero_le _) "X_p") (by decide)
  obtain ⟨e, lost, fault⟩ := target_too_long long
  have refused : record (Sample.row 65) "X" Sample.holder = .error (e.within "X") :=
    record_lost typed lost
  refine ⟨typed, ?_, ⟨e, lost, by rw [fault]; rfl⟩, _, refused, ?_⟩
  · rw [← typeOf_cyclic_iff _ "X_p", typed]
    simp [IsCyclic]
  · rw [SchemaError.within_fault, fault]
    rfl

theorem short_row_found :
    (∃ target o, objectTarget (Sample.row 64) maxHops "X_p" (.ref (Sample.path 0)) =
        .ok (some (target, o)) ∧
      typeOf (Sample.row 64) "X_p" (.ref (Sample.path 0)) =
        .ok (.record (Ident.typeName target))) ∧
    Circular (Sample.row 65) ("X", Sample.holder) := by
  have links := Sample.row_links 64 (Nat.zero_le _) "X_p"
  have found : objectTarget (Sample.row 64) maxHops "X_p" (.ref (Sample.path 0)) =
      .ok (some ("L64", ⟨[], [], none⟩)) := target_links links 0
  have typed := Sample.row_typed 65 "X_p"
  obtain ⟨e, lost, fault⟩ := target_too_long
    (too_long_of_links (Sample.row_links 65 (Nat.zero_le _) "X_p") (by decide))
  refine ⟨⟨"L64", _, found, ?_⟩, ?_⟩
  · obtain ⟨hops, target, stop, -, -, short, long⟩ :=
      (targets_agree_in_short_rows (Sample.row 64)).1 _ _ _ (Sample.row_typed 64 "X_p")
    by_cases few : hops ≤ maxHops
    · obtain ⟨found', object⟩ := short few
      obtain ⟨o, parts, same⟩ := Option.map_eq_some_iff.mp
        (Except.ok.inj (found'.symm.trans found))
      obtain ⟨rfl, -⟩ := Prod.mk.inj same
      rw [Sample.row_typed, object.mp (by simp [parts])]
    · obtain ⟨e, lost, -⟩ := long (by omega)
      cases found.symm.trans lost
  · exact (targets_agree_in_short_rows (Sample.row 65)).2 _ _ _ (record_lost typed lost)
      (by rw [SchemaError.within_fault, fault]; rfl)

end SchemaForge.Compile
