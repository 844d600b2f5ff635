import SchemaForge.Proofs.Decoding
import SchemaForge.Validator.Basic

/-!
Validators of arrays and of maps, nested to any depth over validators of any kind. What a nest
accepts is said element by element, and what it reports is the first thing wrong in a fixed order.
Both loops are one walk over labelled values: an element is labelled by its index, a member by its
name. A result carries an error text that is empty on success; as no failure has an empty text, the
text alone tells success from failure at every level.
-/
namespace SchemaForge

theorem append_ne_empty {a b : String} (front : a ≠ "") : a ++ b ≠ "" :=
  fun joined => front (String.append_eq_empty_iff.mp joined).1

theorem Failure.message_ne_empty (f : Failure) : f.message ≠ "" := by
  cases f with
  | nullJson | oddHex => decide
  | kind | missing | property =>
    exact append_ne_empty (append_ne_empty (append_ne_empty (by decide)))
  | element =>
    exact append_ne_empty (append_ne_empty (append_ne_empty (append_ne_empty (by decide))))
  | _ => exact append_ne_empty (by decide)

section Results
variable {α : Type} {r : Outcome α}

/-- The error text of a result, empty on success. A crash gives no result. -/
def Outcome.errorText : Outcome α → Option String
  | .ok _ => some ""
  | .error (.failure f) => some f.message
  | .error (.crash _) => none

theorem errorText_empty_iff : r.errorText = some "" ↔ ∃ a, r = .ok a := by
  constructor
  · intro empty
    match r with
    | .ok a => exact ⟨a, rfl⟩
    | .error (.failure f) => exact absurd (Option.some.inj empty) f.message_ne_empty
  · rintro ⟨a, rfl⟩
    rfl

/-- Wraps a failure; a crash passes through. -/
def Stop.within (wrap : Failure → Failure) : Stop → Stop
  | .failure f => .failure (wrap f)
  | .crash b => .crash b

end Results

namespace Validate

/-- A list of values is validated up to the first failure, which is reported with its label. -/
def walk {α : Type} (item : Validator α) : List (String × Json) → Outcome (List (String × α))
  | [] => .ok []
  | (label, v) :: rest => do
    let a ← Outcome.within (.element label) (item v)
    let others ← walk item rest
    return (label, a) :: others

/-- The elements of an array with their indices. -/
def numbered (index : Nat) (items : List Json) : List (String × Json) :=
  (items.zipIdx index).map fun x => (Number.renderNat x.2, x.1)

section Walk
variable {α : Type} {item : Validator α} {label : String} {v : Json}

end Walk

/-- The bounds that are given are met. -/
def Counted (minItems maxItems : Option Nat) (length : Nat) : Prop :=
  (∀ n ∈ minItems, n ≤ length) ∧ ∀ n ∈ maxItems, length ≤ n

section Arrays
variable {α : Type} {minItems maxItems : Option Nat} {item : Validator α} {v : Json}
  {items : List Json} {n : Nat}

end Arrays

/-- Containers nested to any depth over validators of any kind. -/
inductive Nest : Type → Type 1 where
  | leaf {α : Type} (item : Validator α) : Nest α
  | array {α : Type} (minItems maxItems : Option Nat) (item : Nest α) : Nest (List α)
  | map {α : Type} (exclude : List String) (item : Nest α) : Nest (List (String × α))

namespace Nest

def run : {α : Type} → Nest α → Validator α
  | _, .leaf item => item
  | _, .array minItems maxItems item => Validate.array minItems maxItems item.run
  | _, .map exclude item => typedMap exclude item.run

/-- The values a nest accepts, with what it returns for them. -/
def Accepts : {α : Type} → Nest α → Json → α → Prop
  | _, .leaf item, v, a => item v = .ok a
  | _, .array minItems maxItems item, v, values =>
    ∃ items, v = .arr items ∧ Counted minItems maxItems items.length ∧
      List.Forall₂ (fun x a => item.Accepts x a) items values
  | _, .map exclude item, v, entries =>
    ∃ members, v = .obj members ∧
      List.Forall₂ (fun m e => e.1 = m.1 ∧ item.Accepts m.2 e.2)
        (members.filter fun m => m.1 ∉ exclude) entries

/-- No validator of the nest fails on the value it is given. -/
def Holds : {α : Type} → Nest α → Json → Prop
  | _, .leaf item, v => (item v).errorText = some ""
  | _, .array minItems maxItems item, v =>
    ∃ items, v = .arr items ∧ Counted minItems maxItems items.length ∧ ∀ x ∈ items, item.Holds x
  | _, .map exclude item, v =>
    ∃ members, v = .obj members ∧ ∀ m ∈ members, m.1 ∉ exclude → item.Holds m.2

variable {α : Type}

theorem exists_related_iff {β γ : Type} {R : β → γ → Prop} {bs : List β} :
    (∃ cs, List.Forall₂ R bs cs) ↔ ∀ b ∈ bs, ∃ c, R b c := by
  induction bs with
  | nil => simp
  | cons b bs ih =>
    simp only [List.forall₂_cons_left_iff, List.forall_mem_cons, ← ih]
    constructor
    · rintro ⟨_, c, cs, here, rest, rfl⟩
      exact ⟨⟨c, here⟩, cs, rest⟩
    · rintro ⟨⟨c, here⟩, cs, rest⟩
      exact ⟨_, c, cs, here, rest, rfl⟩

theorem holds_iff (n : Nest α) {v : Json} : n.Holds v ↔ ∃ a, n.Accepts v a := by
  induction n generalizing v with
  | leaf item => exact errorText_empty_iff
  | array minItems maxItems item ih =>
    simp only [Holds, Accepts, ih, ← exists_related_iff]
    constructor
    · rintro ⟨items, rfl, counted, values, each⟩
      exact ⟨values, items, rfl, counted, each⟩
    · rintro ⟨values, items, rfl, counted, each⟩
      exact ⟨items, rfl, counted, values, each⟩
  | map exclude item ih =>
    constructor
    · rintro ⟨members, rfl, each⟩
      have accepted : ∀ m ∈ members.filter fun m => m.1 ∉ exclude,
          ∃ e : String × _, e.1 = m.1 ∧ item.Accepts m.2 e.2 := by
        intro m mem
        obtain ⟨mem, kept⟩ := List.mem_filter.mp mem
        obtain ⟨a, accepted⟩ := ih.mp (each m mem (by simpa using kept))
        exact ⟨(m.1, a), rfl, accepted⟩
      obtain ⟨entries, each⟩ := exists_related_iff.mpr accepted
      exact ⟨entries, members, rfl, each⟩
    · rintro ⟨entries, members, rfl, each⟩
      refine ⟨members, rfl, fun m mem kept => ih.mpr ?_⟩
      obtain ⟨e, -, accepted⟩ :=
        exists_related_iff.mp ⟨entries, each⟩ m (List.mem_filter.mpr ⟨mem, by simpa using kept⟩)
      exact ⟨e.2, accepted⟩

example : (array (some 1) none (map ["x"] (leaf boolean))).run
    (.arr [.obj [("x", .null)], .obj [("a", .bool true), ("b", .null)]]) =
      refuse (.element "1" (.element "b" (.kind .boolean .null))) := by
  rfl

end Nest

end Validate

end SchemaForge
