import Mathlib.Data.List.Forall2
import SchemaForge.Proofs.Nodes

/-!
What a decoded schema owes to its tree: the schemas inside it are decoded from values inside the
tree, no value is used twice, and every numeric bound that was kept reads as a number.
-/
namespace SchemaForge

section Steps
variable {ε α β : Type} {x : Except ε α}

theorem bind_ok_iff {f : α → Except ε β} {b : β} :
    (x >>= f) = .ok b ↔ ∃ a, x = .ok a ∧ f a = .ok b := by
  cases x with
  | error e => simp [bind, Except.bind]
  | ok a => simp [bind, Except.bind]

theorem map_ok_iff {f : α → β} {b : β} : x.map f = .ok b ↔ ∃ a, x = .ok a ∧ f a = b := by
  cases x with
  | error e => simp [Except.map]
  | ok a => simp [Except.map]

theorem mapError_ok_iff {φ : Type} {f : ε → φ} {a : α} : x.mapError f = .ok a ↔ x = .ok a := by
  cases x with
  | error e => simp [Except.mapError]
  | ok b => simp [Except.mapError]

theorem toOption_any_iff {P : α → Bool} :
    x.toOption.any P = true ↔ ∃ a, x = .ok a ∧ P a = true := by
  cases x with
  | error e => simp [Except.toOption]
  | ok a => simp [Except.toOption]

end Steps

section Related
variable {α β : Type} {R : α → β → Prop} {as : List α} {bs : List β}

theorem related_of_mem_left (each : List.Forall₂ R as bs) {a : α} (member : a ∈ as) :
    ∃ b ∈ bs, R a b := by
  induction each with
  | nil => simp at member
  | cons head _ ih =>
    rcases List.mem_cons.mp member with rfl | later
    · exact ⟨_, List.mem_cons_self, head⟩
    · obtain ⟨b, inside, related⟩ := ih later
      exact ⟨b, List.mem_cons_of_mem _ inside, related⟩

theorem related_of_mem_right (each : List.Forall₂ R as bs) {b : β} (member : b ∈ bs) :
    ∃ a ∈ as, R a b := by
  induction each with
  | nil => simp at member
  | cons head _ ih =>
    rcases List.mem_cons.mp member with rfl | later
    · exact ⟨_, List.mem_cons_self, head⟩
    · obtain ⟨a, inside, related⟩ := ih later
      exact ⟨a, List.mem_cons_of_mem _ inside, related⟩

theorem related_flatMap {γ δ : Type} {P : γ → δ → Prop} {f : α → List γ} {g : β → List δ}
    (each : List.Forall₂ R as bs)
    (step : ∀ a ∈ as, ∀ b, R a b → List.Forall₂ P (f a) (g b)) :
    List.Forall₂ P (as.flatMap f) (bs.flatMap g) := by
  induction each with
  | nil => exact List.Forall₂.nil
  | cons head _ ih =>
    rw [List.flatMap_cons, List.flatMap_cons]
    exact List.rel_append (step _ List.mem_cons_self _ head)
      (ih fun a later => step a (List.mem_cons_of_mem _ later))

theorem related_through {γ : Type} {S : β → γ → Prop} {T : α → γ → Prop} {cs : List γ}
    (first : List.Forall₂ R as bs) (second : List.Forall₂ S bs cs)
    (both : ∀ a, ∀ b ∈ bs, ∀ c, R a b → S b c → T a c) : List.Forall₂ T as cs := by
  induction first generalizing cs with
  | nil =>
    cases second
    exact .nil
  | cons head _ ih =>
    cases second with
    | cons head' tail' =>
      exact .cons (both _ _ List.mem_cons_self _ head head')
        (ih tail' fun a b inside => both a b (List.mem_cons_of_mem _ inside))

theorem related_map {γ : Type} {f : α → γ} {g : β → γ} (each : List.Forall₂ R as bs)
    (same : ∀ a b, R a b → f a = g b) : as.map f = bs.map g := by
  induction each with
  | nil => rfl
  | cons head _ ih => rw [List.map_cons, List.map_cons, same _ _ head, ih]

end Related

theorem Members.get_none_iff {α : Type} {key : String} {members : List (String × α)} :
    Members.get? key members = none ↔ key ∉ members.map (·.1) := by
  induction members with
  | nil => simp [Members.get?]
  | cons head rest ih =>
    obtain ⟨k, v⟩ := head
    rw [Members.get?]
    by_cases same : k = key
    · simp [same]
    · rw [if_neg same, ih]
      simp [Ne.symm same]

theorem Members.mem_of_get {α : Type} {key : String} {members : List (String × α)} {v : α}
    (found : Members.get? key members = some v) : (key, v) ∈ members := by
  induction members with
  | nil => simp [Members.get?] at found
  | cons head rest ih =>
    obtain ⟨k, w⟩ := head
    rw [Members.get?] at found
    split at found
    · rename_i same
      rw [same, Option.some.inj found]
      exact List.mem_cons_self
    · exact List.mem_cons_of_mem _ (ih found)

/-- Where names are distinct, each member is the one that is found under its name. -/
theorem Members.get_of_mem {α : Type} {members : List (String × α)}
    (once : (Members.keys members).Nodup) {key : String} {v : α} (member : (key, v) ∈ members) :
    Members.get? key members = some v := by
  induction members with
  | nil => cases member
  | cons m rest ih =>
    obtain ⟨fresh, once⟩ := List.nodup_cons.mp once
    rw [Members.get?]
    rcases List.mem_cons.mp member with rfl | later
    · rw [if_pos rfl]
    · have apart : m.1 ≠ key := by
        rintro rfl
        exact fresh (List.mem_map.mpr ⟨_, later, rfl⟩)
      rw [if_neg apart, ih once later]

namespace Json

theorem size_of_item {items : List Json} {v : Json} (member : v ∈ items) :
    v.size < (Json.arr items).size := by
  rw [size]
  induction items with
  | nil => simp at member
  | cons head rest ih =>
    rw [sizeItems]
    rcases List.mem_cons.mp member with rfl | later
    · omega
    · have bound := ih later
      omega

theorem size_of_member {members : List (String × Json)} {m : String × Json}
    (member : m ∈ members) : m.2.size < (Json.obj members).size := by
  rw [size]
  induction members with
  | nil => simp at member
  | cons head rest ih =>
    obtain ⟨k, w⟩ := head
    rw [sizeMembers]
    rcases List.mem_cons.mp member with rfl | later
    · simp only
      omega
    · have bound := ih later
      omega

theorem size_of_get {key : String} {members : List (String × Json)} {v : Json}
    (found : Members.get? key members = some v) : v.size ≤ sizeMembers members :=
  Nat.le_of_lt_succ (size_of_member (Members.mem_of_get found))

theorem size_of_get_two {key other : String} {members : List (String × Json)} {v w : Json}
    (ne : key ≠ other) (first : Members.get? key members = some v)
    (second : Members.get? other members = some w) : v.size + w.size ≤ sizeMembers members := by
  induction members with
  | nil => simp [Members.get?] at first
  | cons head rest ih =>
    obtain ⟨k, u⟩ := head
    rw [sizeMembers]
    rw [Members.get?] at first second
    split at first
    · rename_i same
      rw [if_neg (same ▸ ne)] at second
      have bound := size_of_get second
      rw [Option.some.inj first]
      omega
    · split at second
      · have bound := size_of_get first
        rw [Option.some.inj second]
        omega
      · have bound := ih first second
        omega

end Json

namespace Schema
open Decode

theorem under_ok_iff {α : Type} {segment : String} {x : Decoded α} {a : α} :
    under segment x = .ok a ↔ x = .ok a := by
  cases x with
  | error e => simp [under]
  | ok b => simp [under]

/-- How a schema without a reference is decoded, by its type. -/
theorem decodeTree_typed {members : List (String × Json)} {type : String}
    (direct : Members.get? "$ref" members = none)
    (typed : Members.get? "type" members = some (.str type)) :
    decodeTree (.obj members) =
      if type = "object" then do
        let properties ← decodeProperties members
        let required ← strings members "required"
        let additional ← decodeAdditional members
        .ok (.object properties (required.getD []) additional)
      else if type = "array" then do
        let items ← decodeItems members
        let lo ← count members "minItems"
        let hi ← count members "maxItems"
        .ok (.array items lo hi)
      else if type = "string" then stringSchema members
      else if type = "number" then (bounds false members).map fun range => .number range.1 range.2
      else if type = "integer" then (bounds true members).map fun range => .integer range.1 range.2
      else if type = "boolean" then .ok .boolean
      else here (.unexpectedType type) := by
  rw [decodeTree, direct, typed]

example : decodeTree (.obj [("title", .str "switch"), ("type", .str "boolean")]) = .ok .boolean := by
  cbv

/-- A property keeps its name and is decoded from the value under it. -/
def PropertyFrom (member : String × Json) (property : String × Schema) : Prop :=
  property.1 = member.1 ∧ decodeTree member.2 = .ok property.2

theorem each_decoded {members : List (String × Json)} {properties : List (String × Schema)}
    (decoded : decodeEach members = .ok properties) :
    List.Forall₂ PropertyFrom members properties := by
  induction members generalizing properties with
  | nil =>
    rw [decodeEach] at decoded
    rw [← Except.ok.inj decoded]
    exact List.Forall₂.nil
  | cons head rest ih =>
    obtain ⟨key, v⟩ := head
    rw [decodeEach] at decoded
    split at decoded
    · simp at decoded
    · rename_i s tree
      obtain ⟨others, tail, rfl⟩ := map_ok_iff.mp decoded
      exact List.Forall₂.cons ⟨rfl, under_ok_iff.mp tree⟩ (ih tail)

theorem properties_decoded {members : List (String × Json)} {properties : List (String × Schema)}
    (decoded : decodeProperties members = .ok (some properties)) :
    ∃ values, Members.get? "properties" members = some (.obj values) ∧
      List.Forall₂ PropertyFrom values properties := by
  induction members with
  | nil => simp [decodeProperties] at decoded
  | cons head rest ih =>
    obtain ⟨key, v⟩ := head
    rw [Members.get?]
    by_cases here : key = "properties"
    · rw [if_pos here]
      cases v with
      | obj values =>
        rw [decodeProperties, if_pos here] at decoded
        obtain ⟨list, tree, same⟩ := map_ok_iff.mp decoded
        rw [Option.some.inj same] at tree
        exact ⟨values, rfl, each_decoded (under_ok_iff.mp tree)⟩
      | _ => simp [decodeProperties, here, inMember] at decoded
    · rw [if_neg here]
      apply ih
      cases v <;> simpa only [decodeProperties, if_neg here] using decoded

theorem additional_decoded {members : List (String × Json)} {s : Schema}
    (decoded : decodeAdditional members = .ok (some s)) :
    ∃ v, Members.get? "additionalProperties" members = some v ∧ decodeTree v = .ok s := by
  induction members with
  | nil => simp [decodeAdditional] at decoded
  | cons head rest ih =>
    obtain ⟨key, v⟩ := head
    rw [Members.get?]
    rw [decodeAdditional] at decoded
    split at decoded
    · rename_i here
      rw [if_pos here]
      split at decoded
      · simp at decoded
      · obtain ⟨t, tree, same⟩ := map_ok_iff.mp decoded
        rw [Option.some.inj same] at tree
        exact ⟨v, rfl, under_ok_iff.mp tree⟩
    · rename_i elsewhere
      rw [if_neg elsewhere]
      exact ih decoded

theorem items_decoded {members : List (String × Json)} {s : Schema}
    (decoded : decodeItems members = .ok s) :
    ∃ v, Members.get? "items" members = some v ∧ decodeTree v = .ok s := by
  induction members with
  | nil => simp [decodeItems, here] at decoded
  | cons head rest ih =>
    obtain ⟨key, v⟩ := head
    rw [Members.get?]
    rw [decodeItems] at decoded
    split at decoded
    · rename_i here
      rw [if_pos here]
      exact ⟨v, rfl, under_ok_iff.mp decoded⟩
    · rename_i elsewhere
      rw [if_neg elsewhere]
      exact ih decoded

/-- Bounds of a numeric schema that read as numbers of its type. -/
def boundsRead : Schema → Prop
  | .integer lo hi =>
    (∀ text ∈ lo, (Number.parseInt text.toList).isSome) ∧
      ∀ text ∈ hi, (Number.parseInt text.toList).isSome
  | .number lo hi =>
    (∀ text ∈ lo, (Number.Decimal.parse? text).isSome) ∧
      ∀ text ∈ hi, (Number.Decimal.parse? text).isSome
  | _ => True

/-- Whether a text reads as a number of the type asked for. -/
def reads (integer : Bool) (text : String) : Bool :=
  if integer then (Number.parseInt text.toList).isSome
  else (Number.Decimal.parse? text).isSome

theorem bound_reads {integer : Bool} {members : List (String × Json)} {key : String}
    {found : Option String} (decoded : bound integer members key = .ok found) :
    ∀ text ∈ found, reads integer text = true := by
  intro text member
  rw [Option.mem_def] at member
  subst member
  unfold bound at decoded
  cases integer <;> simp only [Bool.false_eq_true, if_true, if_false] at decoded
  all_goals
    split at decoded
    · simp at decoded
    · split at decoded
      · rename_i good
        simp only [Except.ok.injEq, Option.some.injEq] at decoded
        simpa [reads, ← decoded] using good
      · simp [inMember] at decoded
    · split at decoded
      · rename_i good
        simp only [Except.ok.injEq, Option.some.injEq] at decoded
        simpa [reads, ← decoded] using good
      · simp [inMember] at decoded
    · simp [inMember] at decoded

theorem bounds_read {integer : Bool} {members : List (String × Json)} {lo hi : Option String}
    (decoded : bounds integer members = .ok (lo, hi)) :
    (∀ text ∈ lo, reads integer text = true) ∧ ∀ text ∈ hi, reads integer text = true := by
  obtain ⟨lower, first, rest⟩ := bind_ok_iff.mp decoded
  obtain ⟨upper, second, same⟩ := bind_ok_iff.mp rest
  rw [Except.ok.injEq, Prod.mk.injEq] at same
  rw [same.1] at first
  rw [same.2] at second
  exact ⟨bound_reads first, bound_reads second⟩

/-- What can come out of a tree. -/
inductive DecodedFrom (members : List (String × Json)) : Schema → Prop
  | ref (path : String) : DecodedFrom members (.ref path)
  | primitive {s : Schema} (kind : s.isPrimitive = true) (read : s.boundsRead) :
      DecodedFrom members s
  | array {items : Schema} (lo hi : Option Nat) (inner : decodeItems members = .ok items) :
      DecodedFrom members (.array items lo hi)
  | object {properties : Option (List (String × Schema))} {additional : Option Schema}
      (required : List String) (declared : decodeProperties members = .ok properties)
      (others : decodeAdditional members = .ok additional) :
      DecodedFrom members (.object properties required additional)

theorem decoded_cases {v : Json} {s : Schema} (decoded : decodeTree v = .ok s) :
    ∃ members, v = .obj members ∧ DecodedFrom members s := by
  cases v with
  | obj members =>
    refine ⟨members, rfl, ?_⟩
    rw [decodeTree] at decoded
    split at decoded
    · rw [← Except.ok.inj decoded]
      exact .ref _
    · simp [inMember] at decoded
    · split at decoded
      · simp [here] at decoded
      · split at decoded
        · obtain ⟨properties, declared, rest⟩ := bind_ok_iff.mp decoded
          obtain ⟨required, -, rest⟩ := bind_ok_iff.mp rest
          obtain ⟨additional, others, same⟩ := bind_ok_iff.mp rest
          rw [← Except.ok.inj same]
          exact .object _ declared others
        split at decoded
        · obtain ⟨items, inner, rest⟩ := bind_ok_iff.mp decoded
          obtain ⟨lo, -, rest⟩ := bind_ok_iff.mp rest
          obtain ⟨hi, -, same⟩ := bind_ok_iff.mp rest
          rw [← Except.ok.inj same]
          exact .array _ _ inner
        split at decoded
        · obtain ⟨lo, -, rest⟩ := bind_ok_iff.mp decoded
          obtain ⟨hi, -, rest⟩ := bind_ok_iff.mp rest
          obtain ⟨enum, -, rest⟩ := bind_ok_iff.mp rest
          obtain ⟨format, -, same⟩ := bind_ok_iff.mp rest
          rw [← Except.ok.inj same]
          exact .primitive rfl trivial
        split at decoded
        · obtain ⟨⟨lo, hi⟩, pair, same⟩ := map_ok_iff.mp decoded
          rw [← same]
          exact .primitive rfl (bounds_read pair)
        split at decoded
        · obtain ⟨⟨lo, hi⟩, pair, same⟩ := map_ok_iff.mp decoded
          rw [← same]
          exact .primitive rfl (bounds_read pair)
        split at decoded
        · rw [← Except.ok.inj decoded]
          exact .primitive rfl trivial
        · simp [here] at decoded
      · simp [here] at decoded
  | _ => simp [decodeTree, here] at decoded

theorem child_decoded {v : Json} {name : String} {s : Schema} {child : String × Schema}
    (decoded : decodeTree v = .ok s) (inside : child ∈ children name s) :
    ∃ w, decodeTree w = .ok child.2 := by
  obtain ⟨members, -, from_⟩ := decoded_cases decoded
  cases from_ with
  | ref path => simp [children] at inside
  | primitive kind read => cases s <;> simp [children, isPrimitive] at inside kind
  | array lo hi inner =>
    obtain ⟨w, -, tree⟩ := items_decoded inner
    simp only [children, List.mem_singleton] at inside
    exact ⟨w, inside ▸ tree⟩
  | @object properties additional required declared others =>
    simp only [children, List.mem_append, List.mem_map] at inside
    rcases inside with ⟨t, present, rfl⟩ | ⟨p, present, rfl⟩
    · rw [Option.mem_toList] at present
      subst present
      obtain ⟨w, -, tree⟩ := additional_decoded others
      exact ⟨w, tree⟩
    · cases properties with
      | none => simp at present
      | some list =>
        obtain ⟨values, -, each⟩ := properties_decoded declared
        obtain ⟨member, -, stands⟩ := related_of_mem_right (b := p) each present
        exact ⟨member.2, stands.2⟩

/-- In a decoded schema no bound at any depth is other than a number. -/
theorem nodes_boundsRead {v : Json} {name : String} {s : Schema} (decoded : decodeTree v = .ok s) :
    ∀ x ∈ nodes name s, x.2.boundsRead := by
  induction name, s using children_induction generalizing v with
  | step name s ih =>
    intro x member
    rw [nodes_eq] at member
    rcases List.mem_cons.mp member with rfl | below
    · obtain ⟨members, -, from_⟩ := decoded_cases decoded
      cases from_ with
      | primitive kind read => exact read
      | _ => trivial
    · obtain ⟨child, inside, deeper⟩ := List.mem_flatMap.mp below
      obtain ⟨w, tree⟩ := child_decoded decoded inside
      exact ih child.1 child.2 inside tree x deeper

theorem properties_nodes_le {values : List (String × Json)} {properties : List (String × Schema)}
    (each : List.Forall₂ PropertyFrom values properties) (rename : String → String)
    (small : ∀ p ∈ properties, ∀ v, decodeTree v = .ok p.2 →
      (nodes (rename p.1) p.2).length ≤ v.size) :
    (properties.flatMap fun p => nodes (rename p.1) p.2).length ≤ Json.sizeMembers values := by
  induction each with
  | nil => exact Nat.zero_le _
  | @cons member property values properties head _ ih =>
    have first := small property List.mem_cons_self member.2 head.2
    have rest := ih fun p later => small p (List.mem_cons_of_mem _ later)
    rw [List.flatMap_cons, List.length_append]
    exact Nat.add_le_add first rest

/-- Every node of a decoded schema has a value of the tree to itself. -/
theorem nodes_le_size (name : String) {v : Json} {s : Schema} (decoded : decodeTree v = .ok s) :
    (nodes name s).length ≤ v.size := by
  induction name, s using children_induction generalizing v with
  | step name s ih =>
    obtain ⟨members, rfl, from_⟩ := decoded_cases decoded
    rw [nodes_eq, List.length_cons, Json.size]
    refine Nat.succ_le_succ ?_
    cases from_ with
    | ref path => simp [children]
    | primitive kind read => cases s <;> simp [children, isPrimitive] at kind ⊢
    | array lo hi inner =>
      obtain ⟨w, found, tree⟩ := items_decoded inner
      have small := ih _ _ item_mem_children tree
      rw [children, List.flatMap_singleton]
      exact Nat.le_trans small (Json.size_of_get found)
    | @object properties additional required declared others =>
      have first : ∀ list, properties = some list → ∃ values,
          Members.get? "properties" members = some (.obj values) ∧
          (list.flatMap fun p => nodes (Ident.propertyOf name p.1) p.2).length
            ≤ Json.sizeMembers values := by
        rintro list rfl
        obtain ⟨values, found, each⟩ := properties_decoded declared
        refine ⟨values, found, properties_nodes_le each _ ?_⟩
        intro p present w tree
        exact ih _ _ (property_mem_children present) tree
      have second : ∀ t, additional = some t → ∃ w,
          Members.get? "additionalProperties" members = some w ∧
          (nodes (Ident.additionalOf name) t).length ≤ w.size := by
        rintro t rfl
        obtain ⟨w, found, tree⟩ := additional_decoded others
        exact ⟨w, found, ih _ _ additional_mem_children tree⟩
      rw [children, List.flatMap_append, List.length_append, List.flatMap_map, List.flatMap_map]
      cases properties with
      | none =>
        cases additional with
        | none => exact Nat.zero_le _
        | some t =>
          obtain ⟨w, found, small⟩ := second t rfl
          have bound := Json.size_of_get found
          simp only [Option.toList_some, List.flatMap_singleton, Option.getD_none, List.flatMap_nil,
            List.length_nil]
          omega
      | some list =>
        obtain ⟨values, found, small⟩ := first list rfl
        cases additional with
        | none =>
          have bound := Json.size_of_get found
          rw [Json.size] at bound
          simp only [Option.toList_none, List.flatMap_nil, List.length_nil, Option.getD_some]
          omega
        | some t =>
          obtain ⟨w, found', small'⟩ := second t rfl
          -- The two values are different members, so their sizes add up inside the tree.
          have bound := Json.size_of_get_two (by decide) found found'
          rw [Json.size] at bound
          simp only [Option.toList_some, List.flatMap_singleton, Option.getD_some]
          omega

/-! ### What is decoded by type -/

theorem decoded_ref {members : List (String × Json)} {v : Json} {s : Schema}
    (given : Members.get? "$ref" members = some v) (decoded : decodeTree (.obj members) = .ok s) :
    ∃ path, v = .str path ∧ s = .ref path := by
  rw [decodeTree, given] at decoded
  cases v with
  | str path => exact ⟨path, rfl, (Except.ok.inj decoded).symm⟩
  | _ => cases decoded

theorem decoded_type {members : List (String × Json)} {s : Schema}
    (direct : Members.get? "$ref" members = none) (decoded : decodeTree (.obj members) = .ok s) :
    ∃ type, Members.get? "type" members = some (.str type) := by
  rw [decodeTree, direct] at decoded
  cases given : Members.get? "type" members with
  | none => simp [given, here] at decoded
  | some v =>
    cases v with
    | str type => exact ⟨type, rfl⟩
    | _ => simp [given, here] at decoded

section Parts
variable {members : List (String × Json)} {s : Schema}
  (direct : Members.get? "$ref" members = none) (decoded : decodeTree (.obj members) = .ok s)
include direct decoded

theorem object_parts (typed : Members.get? "type" members = some (.str "object")) :
    ∃ properties required additional, decodeProperties members = .ok properties ∧
      strings members "required" = .ok required ∧ decodeAdditional members = .ok additional ∧
      s = .object properties (required.getD []) additional := by
  rw [decodeTree_typed direct typed] at decoded
  simp only [if_true] at decoded
  obtain ⟨properties, declared, rest⟩ := bind_ok_iff.mp decoded
  obtain ⟨required, listed, rest⟩ := bind_ok_iff.mp rest
  obtain ⟨additional, others, rest⟩ := bind_ok_iff.mp rest
  exact ⟨_, _, _, declared, listed, others, (Except.ok.inj rest).symm⟩

theorem array_parts (typed : Members.get? "type" members = some (.str "array")) :
    ∃ items lo hi, decodeItems members = .ok items ∧ count members "minItems" = .ok lo ∧
      count members "maxItems" = .ok hi ∧ s = .array items lo hi := by
  rw [decodeTree_typed direct typed] at decoded
  simp only [String.reduceEq, if_false, if_true] at decoded
  obtain ⟨items, inner, rest⟩ := bind_ok_iff.mp decoded
  obtain ⟨lo, least, rest⟩ := bind_ok_iff.mp rest
  obtain ⟨hi, most, rest⟩ := bind_ok_iff.mp rest
  exact ⟨_, _, _, inner, least, most, (Except.ok.inj rest).symm⟩

theorem string_parts (typed : Members.get? "type" members = some (.str "string")) :
    ∃ lo hi enum format, count members "minLength" = .ok lo ∧ count members "maxLength" = .ok hi ∧
      strings members "enum" = .ok enum ∧ formatName members = .ok format ∧
      s = .string lo hi enum format := by
  rw [decodeTree_typed direct typed] at decoded
  simp only [String.reduceEq, if_false, if_true] at decoded
  obtain ⟨lo, least, rest⟩ := bind_ok_iff.mp decoded
  obtain ⟨hi, most, rest⟩ := bind_ok_iff.mp rest
  obtain ⟨enum, listed, rest⟩ := bind_ok_iff.mp rest
  obtain ⟨format, named, rest⟩ := bind_ok_iff.mp rest
  exact ⟨_, _, _, _, least, most, listed, named, (Except.ok.inj rest).symm⟩

theorem range_parts {integer : Bool}
    (typed : Members.get? "type" members = some (.str (if integer then "integer" else "number"))) :
    ∃ lo hi, bounds integer members = .ok (lo, hi) := by
  rw [decodeTree_typed direct typed] at decoded
  cases integer with
  | true =>
    simp only [String.reduceEq, if_false, if_true] at decoded
    obtain ⟨⟨lo, hi⟩, read, -⟩ := map_ok_iff.mp decoded
    exact ⟨lo, hi, read⟩
  | false =>
    simp only [Bool.false_eq_true, String.reduceEq, if_false, if_true] at decoded
    obtain ⟨⟨lo, hi⟩, read, -⟩ := map_ok_iff.mp decoded
    exact ⟨lo, hi, read⟩

end Parts

end Schema

end SchemaForge
