import SchemaForge.Digest.Source
import SchemaForge.Proofs.Linking

/-!
Which trees have a canonical text. A tree stands for the value in which every number literal is read
as JSON; whether there is such a value is settled by the literals alone, wherever they stand and
whatever keyword they stand under.
-/
namespace SchemaForge

namespace Json

mutual

/-- The spellings of the numbers in a tree. -/
def literals : Json → List String
  | .num text => [text]
  | .arr items => itemLiterals items
  | .obj members => memberLiterals members
  | _ => []

def itemLiterals : List Json → List String
  | [] => []
  | v :: rest => literals v ++ itemLiterals rest

def memberLiterals : List (String × Json) → List String
  | [] => []
  | (_, v) :: rest => literals v ++ memberLiterals rest

end

theorem itemLiterals_eq (items : List Json) : itemLiterals items = items.flatMap literals := by
  induction items with
  | nil => rfl
  | cons v rest ih => rw [itemLiterals, ih, List.flatMap_cons]

theorem memberLiterals_eq (members : List (String × Json)) :
    memberLiterals members = members.flatMap fun m => literals m.2 := by
  induction members with
  | nil => rfl
  | cons m rest ih => rw [memberLiterals, ih, List.flatMap_cons]

end Json

namespace Encode

/-- What a literal is read as; one that is not JSON counts as null. -/
def scalar (text : String) : Json := (literal text).toOption.getD .null

mutual

/-- The value that a tree stands for. -/
def meant : Json → Json
  | .num text => scalar text
  | .arr items => .arr (meantItems items)
  | .obj members => .obj (meantMembers members)
  | v => v

def meantItems : List Json → List Json
  | [] => []
  | v :: rest => meant v :: meantItems rest

def meantMembers : List (String × Json) → List (String × Json)
  | [] => []
  | (k, v) :: rest => (k, meant v) :: meantMembers rest

end

theorem meantItems_eq (items : List Json) : meantItems items = items.map meant := by
  induction items with
  | nil => rfl
  | cons v rest ih => rw [meantItems, ih, List.map_cons]

theorem meantMembers_eq (members : List (String × Json)) :
    meantMembers members = members.map fun m => (m.1, meant m.2) := by
  induction members with
  | nil => rfl
  | cons m rest ih => rw [meantMembers, ih, List.map_cons]

/-- Literals that are JSON. -/
def Readable (text : String) : Prop := ∃ v, literal text = .ok v

/-- Literals that are JSON and in the range of doubles. -/
def Digestible (text : String) : Prop := ∃ v, literal text = .ok v ∧ outOfRange? v = none

theorem literal_ok_iff {text : String} {v : Json} :
    literal text = .ok v ↔ v = scalar text ∧ Readable text := by
  cases read : literal text with
  | error e => simp [Readable, read]
  | ok w => simp [scalar, Readable, read, Except.toOption, eq_comm]

mutual

theorem tree_ok_iff (v a : Json) :
    tree v = .ok a ↔ a = meant v ∧ ∀ text ∈ v.literals, Readable text := by
  cases v with
  | num text => simp [tree, meant, Json.literals, literal_ok_iff]
  | arr items =>
    rw [tree, map_ok_iff, meant, Json.literals]
    constructor
    · rintro ⟨as, encoded, rfl⟩
      obtain ⟨rfl, all⟩ := (treeItems_ok_iff items as).mp encoded
      exact ⟨rfl, all⟩
    · rintro ⟨rfl, all⟩
      exact ⟨_, (treeItems_ok_iff items _).mpr ⟨rfl, all⟩, rfl⟩
  | obj members =>
    rw [tree, mapError_ok_iff, map_ok_iff, meant, Json.literals]
    constructor
    · rintro ⟨as, encoded, rfl⟩
      obtain ⟨rfl, all⟩ := (treeMembers_ok_iff members as).mp encoded
      exact ⟨rfl, all⟩
    · rintro ⟨rfl, all⟩
      exact ⟨_, (treeMembers_ok_iff members _).mpr ⟨rfl, all⟩, rfl⟩
  | _ => simp [tree, meant, Json.literals, eq_comm]

theorem treeItems_ok_iff (items as : List Json) :
    treeItems items = .ok as ↔
      as = meantItems items ∧ ∀ text ∈ Json.itemLiterals items, Readable text := by
  cases items with
  | nil => simp [treeItems, meantItems, Json.itemLiterals, eq_comm]
  | cons v rest =>
    rw [treeItems, meantItems, Json.itemLiterals, List.forall_mem_append]
    constructor
    · intro encoded
      split at encoded
      · cases encoded
      · next a first =>
        obtain ⟨others, later, rfl⟩ := map_ok_iff.mp encoded
        obtain ⟨rfl, here⟩ := (tree_ok_iff v a).mp first
        obtain ⟨rfl, there⟩ := (treeItems_ok_iff rest others).mp later
        exact ⟨rfl, here, there⟩
    · rintro ⟨rfl, here, there⟩
      rw [(tree_ok_iff v _).mpr ⟨rfl, here⟩]
      exact map_ok_iff.mpr ⟨_, (treeItems_ok_iff rest _).mpr ⟨rfl, there⟩, rfl⟩

theorem treeMembers_ok_iff (members as : List (String × Json)) :
    treeMembers members = .ok as ↔
      as = meantMembers members ∧ ∀ text ∈ Json.memberLiterals members, Readable text := by
  match members with
  | [] => simp [treeMembers, meantMembers, Json.memberLiterals, eq_comm]
  | (k, v) :: rest =>
    rw [treeMembers, meantMembers, Json.memberLiterals, List.forall_mem_append]
    constructor
    · intro encoded
      split at encoded
      · cases encoded
      · next a first =>
        obtain ⟨others, later, rfl⟩ := map_ok_iff.mp encoded
        obtain ⟨rfl, here⟩ := (tree_ok_iff v a).mp first
        obtain ⟨rfl, there⟩ := (treeMembers_ok_iff rest others).mp later
        exact ⟨rfl, here, there⟩
    · rintro ⟨rfl, here, there⟩
      rw [(tree_ok_iff v _).mpr ⟨rfl, here⟩]
      exact map_ok_iff.mpr ⟨_, (treeMembers_ok_iff rest _).mpr ⟨rfl, there⟩, rfl⟩

end

theorem orElse_none_iff {α : Type} {x : Option α} {y : Unit → Option α} :
    x.orElse y = none ↔ x = none ∧ y () = none := by
  cases x <;> simp

mutual

theorem meant_inRange_iff (v : Json) :
    outOfRange? (meant v) = none ↔ ∀ text ∈ v.literals, outOfRange? (scalar text) = none := by
  cases v with
  | num text => simp [meant, Json.literals]
  | arr items => exact meantItems_inRange_iff items
  | obj members => exact meantMembers_inRange_iff members
  | _ => simp [meant, outOfRange?, Json.literals]

theorem meantItems_inRange_iff (items : List Json) :
    outOfRangeItems? (meantItems items) = none ↔
      ∀ text ∈ Json.itemLiterals items, outOfRange? (scalar text) = none := by
  cases items with
  | nil => simp [meantItems, outOfRangeItems?, Json.itemLiterals]
  | cons v rest =>
    rw [meantItems, outOfRangeItems?, orElse_none_iff, meant_inRange_iff v,
      meantItems_inRange_iff rest, Json.itemLiterals, List.forall_mem_append]

theorem meantMembers_inRange_iff (members : List (String × Json)) :
    outOfRangeMembers? (meantMembers members) = none ↔
      ∀ text ∈ Json.memberLiterals members, outOfRange? (scalar text) = none := by
  match members with
  | [] => simp [meantMembers, outOfRangeMembers?, Json.memberLiterals]
  | (k, v) :: rest =>
    rw [meantMembers, outOfRangeMembers?, orElse_none_iff, meant_inRange_iff v,
      meantMembers_inRange_iff rest, Json.memberLiterals, List.forall_mem_append]

end

theorem digestible_iff {text : String} :
    Digestible text ↔ Readable text ∧ outOfRange? (scalar text) = none := by
  constructor
  · rintro ⟨v, read, inRange⟩
    obtain ⟨rfl, readable⟩ := literal_ok_iff.mp read
    exact ⟨readable, inRange⟩
  · rintro ⟨readable, inRange⟩
    exact ⟨_, literal_ok_iff.mpr ⟨rfl, readable⟩, inRange⟩

/-- A tree can be encoded exactly if each of its literals can. -/
theorem json_ok_iff {v a : Json} :
    json v = .ok a ↔ a = meant v ∧ ∀ text ∈ v.literals, Digestible text := by
  simp only [digestible_iff, forall_and, ← meant_inRange_iff]
  rw [json]
  cases encoded : tree v with
  | error e =>
    have refused : ¬ ∀ text ∈ v.literals, Readable text := fun all => by
      rw [(tree_ok_iff v _).mpr ⟨rfl, all⟩] at encoded
      cases encoded
    simp [refused]
  | ok w =>
    obtain ⟨rfl, readable⟩ := (tree_ok_iff v w).mp encoded
    cases outside : outOfRange? (meant v) with
    | some text => simp only [outside, reduceCtorEq, and_false]
    | none =>
      simp only [outside, Except.ok.injEq, eq_comm, and_true, iff_self_and]
      exact fun _ => readable

end Encode

namespace Digest

theorem canonicalText_ok_iff {kept : List (String × Json)} {text : String} :
    canonicalText kept = .ok text ↔ text = Canonical.text (Encode.meant (.obj kept)) ∧
      ∀ literal ∈ (Json.obj kept).literals, Encode.Digestible literal := by
  rw [canonicalText, map_ok_iff]
  constructor
  · rintro ⟨a, encoded, rfl⟩
    obtain ⟨rfl, all⟩ := Encode.json_ok_iff.mp encoded
    exact ⟨rfl, all⟩
  · rintro ⟨rfl, all⟩
    exact ⟨_, Encode.json_ok_iff.mpr ⟨rfl, all⟩, rfl⟩

/-- The digest of a section is that of the members it keeps. -/
theorem ofSection_ok_iff {d : Document} {path : String} {ignore : List String} {digest : String} :
    ofSection d path ignore = .ok digest ↔
      ∃ ks, Compile.kept d path ignore = .ok ks ∧ ofSchemas ks = .ok digest := by
  have entries := Compile.select_kept d path ignore
  rw [ofSection]
  cases selected : Compile.select d path ignore with
  | error e =>
    rw [selected] at entries
    cases chosen : Compile.kept d path ignore with
    | error e' => simp
    | ok ks => simp [chosen, Except.map] at entries
  | ok selection =>
    obtain ⟨ks, chosen, same⟩ := Compile.select_ok selected
    have names : selection.entries.map (fun e => (e.name, e.tree)) = ks := by
      rw [same, Compile.entriesOf, List.map_map]
      exact List.map_id ks
    simp only [names, mapError_ok_iff, chosen, Except.ok.injEq, exists_eq_left']

end Digest

end SchemaForge
