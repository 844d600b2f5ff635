import SchemaForge.Proofs.KeyOrder
import SchemaForge.Proofs.Literals

/-!
What a canonical text says. The text of a value is JSON, and it denotes the value with its members
sorted and its numbers in canonical spelling. Values with one text therefore have this form in
common.
-/
namespace SchemaForge

namespace Members

theorem set_fresh {α : Type} {key : String} {members : List (String × α)}
    (fresh : key ∉ keys members) (value : α) :
    set key value members = members ++ [(key, value)] := by
  induction members with
  | nil => rfl
  | cons m rest ih =>
    obtain ⟨k, v⟩ := m
    obtain ⟨other, later⟩ := not_or.mp (List.mem_cons.not.mp fresh)
    rw [set, if_neg (Ne.symm other), ih later, List.cons_append]

/-- Nothing is to be settled where every key stands once. -/
theorem settled_of_nodup {α : Type} {members : List (String × α)} (once : (keys members).Nodup) :
    settled members = members := by
  induction members using List.reverseRecOn with
  | nil => simp [settled, keys]
  | append_singleton members m ih =>
    rw [keys, List.map_append, List.map_singleton, List.nodup_append] at once
    obtain ⟨before, -, apart⟩ := once
    rw [settled_snoc, ih before, set_fresh]
    intro member
    exact apart _ member _ List.mem_cons_self rfl

end Members

namespace Canonical

open Encode (outOfRange? outOfRangeItems? outOfRangeMembers? orElse_none_iff)
open Json.Grammar (Character Characters Quoted Elements Entries CodeUnit Blank)

mutual

/-- Members sorted at every depth, and numbers in canonical spelling. -/
def form : Json → Json
  | .num t => .num (literalText t)
  | .arr items => .arr (formItems items)
  | .obj members => .obj ((formMembers members).mergeSort fun a b => keyLe a.1 b.1)
  | v => v

def formItems : List Json → List Json
  | [] => []
  | v :: rest => form v :: formItems rest

def formMembers : List (String × Json) → List (String × Json)
  | [] => []
  | (k, v) :: rest => (k, form v) :: formMembers rest

end

theorem formItems_eq (items : List Json) : formItems items = items.map form := by
  induction items with
  | nil => rfl
  | cons v rest ih => rw [formItems, ih, List.map_cons]

theorem formMembers_eq (members : List (String × Json)) :
    formMembers members = members.map fun m => (m.1, form m.2) := by
  induction members with
  | nil => rfl
  | cons m rest ih => rw [formMembers, ih, List.map_cons]

theorem hexDigits_unit {n : Nat} (small : n < 0x20) : CodeUnit (Text.hexDigits 4 n) n := by
  have digits : ∀ n < 0x20, Text.hexDigits 4 n =
      ['0', '0', Nat.digitChar (n / 16), Nat.digitChar (n % 16)] := by decide
  have unit := @CodeUnit.digits '0' '0' (Nat.digitChar (n / 16)) (Nat.digitChar (n % 16)) 0 0
    (n / 16) (n % 16) (by decide) (by decide) ⟨by omega, .inl rfl⟩ ⟨by omega, .inl rfl⟩
  rw [digits n small]
  rwa [show 0 * 4096 + 0 * 256 + n / 16 * 16 + n % 16 = n by omega] at unit

theorem escape_listed {c e : Char} (found : escape? c = some e) :
    (e, c) ∈ Json.Grammar.shortEscapes := by
  have known : ∀ n : Nat, c.toNat = n → c = Char.ofNat n := fun n same => by
    rw [← same, Char.ofNat_toNat]
  unfold escape? at found
  repeat' split at found
  all_goals cases found
  · next same => rw [same]; decide
  · next same => rw [same]; decide
  all_goals next same => rw [known _ same]; decide

theorem charText_character (c : Char) : Character (charText c) c := by
  unfold charText
  cases found : escape? c with
  | some e => exact .short (escape_listed found)
  | none =>
    simp only
    split
    · next control =>
      have unit := Character.unit (hexDigits_unit control) (.inl (by omega))
      rwa [Char.ofNat_toNat] at unit
    · next visible =>
      refine .plain (Nat.le_of_not_lt visible) ?_ ?_
      · rintro rfl
        cases found
      · rintro rfl
        cases found

theorem stringText_quoted (s : String) : Quoted (stringText s).toList s := by
  have inside : ∀ cs : List Char, Characters (cs.flatMap charText) cs := by
    intro cs
    induction cs with
    | nil => exact .nil
    | cons c cs ih => exact .cons (charText_character c) ih
  rw [stringText, String.toList_ofList]
  have quoted := Quoted.quotes (inside s.toList)
  rwa [String.ofList_toList] at quoted

theorem joinWith_cons (sep s t : String) (rest : List String) :
    Text.joinWith sep (s :: t :: rest) = s ++ sep ++ Text.joinWith sep (t :: rest) := by
  have moved : ∀ (a b : String), rest.foldl (fun acc u => acc ++ sep ++ u) (a ++ b) =
      a ++ rest.foldl (fun acc u => acc ++ sep ++ u) b := by
    induction rest with
    | nil => exact fun a b => rfl
    | cons u rest ih =>
      intro a b
      rw [List.foldl_cons, List.foldl_cons, String.append_assoc, String.append_assoc, ih,
        ← String.append_assoc]
  rw [Text.joinWith, List.foldl_cons, moved]
  rfl

theorem blank_nil : Blank [] := by simp [Blank]

theorem elements_of {items : List Json} (nonempty : items ≠ [])
    (each : ∀ v ∈ items, Json.Grammar.Value (text v).toList (form v)) :
    Elements (Text.joinWith "," (items.map text)).toList (items.map form) := by
  induction items with
  | nil => exact absurd rfl nonempty
  | cons v rest ih =>
    obtain ⟨first, later⟩ := List.forall_mem_cons.mp each
    cases rest with
    | nil => simpa [Text.joinWith] using Elements.last blank_nil first blank_nil
    | cons w rest =>
      have more := Elements.more blank_nil first blank_nil (ih (by simp) later)
      rw [List.map_cons, List.map_cons, joinWith_cons]
      simpa using more

theorem entries_of {members : List (String × Json)} (nonempty : members ≠ [])
    (each : ∀ m ∈ members, Json.Grammar.Value (text m.2).toList (form m.2)) :
    Entries (Text.joinWith "," (members.map fun m => memberText (m.1, text m.2))).toList
      (members.map fun m => (m.1, form m.2)) := by
  induction members with
  | nil => exact absurd rfl nonempty
  | cons m rest ih =>
    obtain ⟨first, later⟩ := List.forall_mem_cons.mp each
    have named := stringText_quoted m.1
    cases rest with
    | nil =>
      simpa [Text.joinWith, memberText] using
        Entries.last blank_nil named blank_nil blank_nil first blank_nil
    | cons w rest =>
      have more := Entries.more blank_nil named blank_nil blank_nil first blank_nil
        (ih (by simp) later)
      rw [List.map_cons, List.map_cons, joinWith_cons]
      simpa [memberText] using more

theorem outOfRangeItems_none_iff {items : List Json} :
    outOfRangeItems? items = none ↔ ∀ v ∈ items, outOfRange? v = none := by
  induction items with
  | nil => simp [outOfRangeItems?]
  | cons v rest ih => rw [outOfRangeItems?, orElse_none_iff, ih, List.forall_mem_cons]

theorem outOfRangeMembers_none_iff {members : List (String × Json)} :
    outOfRangeMembers? members = none ↔ ∀ m ∈ members, outOfRange? m.2 = none := by
  induction members with
  | nil => simp [outOfRangeMembers?]
  | cons m rest ih => rw [outOfRangeMembers?, orElse_none_iff, ih, List.forall_mem_cons]

theorem array_value {items : List Json}
    (each : ∀ v ∈ items, Json.Grammar.Value (text v).toList (form v)) :
    Json.Grammar.Value (text (.arr items)).toList (form (.arr items)) := by
  rw [text, form, itemTexts_eq, formItems_eq]
  by_cases none : items = []
  · subst none
    exact .emptyArray blank_nil
  · simpa using Json.Grammar.Value.array (elements_of none each)

theorem object_value {members : List (String × Json)} (once : (Members.keys members).Nodup)
    (each : ∀ m ∈ members, Json.Grammar.Value (text m.2).toList (form m.2)) :
    Json.Grammar.Value (text (.obj members)).toList (form (.obj members)) := by
  have order := List.mergeSort_perm members fun a b => keyLe a.1 b.1
  have texts := List.map_mergeSort (f := fun m : String × Json => (m.1, text m.2))
    (r := fun a b => keyLe a.1 b.1) (s := fun a b => keyLe a.1 b.1) (l := members) (by simp)
  have forms := List.map_mergeSort (f := fun m : String × Json => (m.1, form m.2))
    (r := fun a b => keyLe a.1 b.1) (s := fun a b => keyLe a.1 b.1) (l := members) (by simp)
  -- Sorting looks at names only, so texts and forms stand beside one sorted list of members.
  rw [text, form, memberTexts_eq, formMembers_eq, ← texts, ← forms, List.map_map]
  generalize members.mergeSort (fun a b => keyLe a.1 b.1) = sorted at order
  by_cases none : sorted = []
  · subst none
    exact .emptyObject blank_nil
  · have entries := entries_of none fun m member => each m (order.mem_iff.mp member)
    have value := Json.Grammar.Value.object entries
    rw [Members.settled_of_nodup] at value
    · simpa [Function.comp_def] using value
    · rw [Members.keys, List.map_map]
      exact (order.map _).nodup_iff.mpr once

/-- The text of a value is JSON, and denotes its form. -/
theorem text_value (v : Json) (small : outOfRange? v = none) (distinct : v.unambiguous = true) :
    Json.Grammar.Value (text v).toList (form v) := by
  match v with
  | .null => exact .null
  | .bool true => exact .true
  | .bool false => exact .false
  | .num t =>
    have number := @Literal.literalText_number t (by
      rw [outOfRange?] at small
      cases read : Literal.double? t with
      | none => simp [read] at small
      | some d => rfl)
    have value := Json.Grammar.Value.number number
    rwa [String.ofList_toList] at value
  | .str s => exact .string (stringText_quoted s)
  | .arr items =>
    refine array_value fun v member => ?_
    exact text_value v (outOfRangeItems_none_iff.mp small v member)
      (Json.unambiguous_arr.mp distinct v member)
  | .obj members =>
    obtain ⟨once, values⟩ := Json.unambiguous_obj.mp distinct
    refine object_value once fun m member => ?_
    exact text_value m.2 (outOfRangeMembers_none_iff.mp small m member) (values m member)
termination_by v.size
decreasing_by
  · exact Json.size_of_item member
  · exact Json.size_of_member member

/-- Values with one text have one form, since the text denotes it. -/
theorem form_eq_of_text {v w : Json} (small : outOfRange? v = none) (small' : outOfRange? w = none)
    (distinct : v.unambiguous = true) (distinct' : w.unambiguous = true)
    (same : text v = text w) : form v = form w := by
  have parsed : ∀ u : Json, outOfRange? u = none → u.unambiguous = true →
      Json.parse (Utf8.encode (text u)) = .ok (form u) := by
    intro u small distinct
    have value := text_value u small distinct
    have wellFormed := Json.Grammar.WellFormed.text blank_nil value blank_nil
    rw [List.nil_append, List.append_nil] at wellFormed
    exact Encode.parse_wellFormed wellFormed
  have first := parsed v small distinct
  rw [same, parsed w small' distinct'] at first
  exact (Except.ok.inj first).symm

end Canonical

end SchemaForge
