/- Values of the data model. Numbers keep their spelling, and the members of an object keep
   their order: setting a member that exists replaces its value in place. -/
namespace SchemaForge

inductive Json where
  | null
  | bool (b : Bool)
  | num (text : String)
  | str (text : String)
  | arr (items : List Json)
  | obj (members : List (String × Json))
  deriving Repr, BEq, Inhabited

namespace Json

inductive Kind where
  | null
  | boolean
  | number
  | string
  | array
  | object
  deriving DecidableEq, Repr

def Kind.name : Kind → String
  | .null => "null"
  | .boolean => "boolean"
  | .number => "number"
  | .string => "string"
  | .array => "array"
  | .object => "object"

def kind : Json → Kind
  | .null => .null
  | .bool _ => .boolean
  | .num _ => .number
  | .str _ => .string
  | .arr _ => .array
  | .obj _ => .object

end Json

/- Ordered maps from names, as association lists with distinct keys. -/
namespace Members

variable {α β : Type}

def get? (key : String) : List (String × α) → Option α
  | [] => none
  | (k, v) :: rest => if k = key then some v else get? key rest

def has (key : String) (members : List (String × α)) : Bool := (get? key members).isSome

/-- A new key goes to the end; a known one keeps its place and takes the new value. -/
def set (key : String) (value : α) : List (String × α) → List (String × α)
  | [] => [(key, value)]
  | (k, v) :: rest => if k = key then (k, value) :: rest else (k, v) :: set key value rest

def keys (members : List (String × α)) : List String := members.map (·.1)

@[simp] theorem get?_set_self (key : String) (value : α) (members : List (String × α)) :
    get? key (set key value members) = some value := by
  induction members with
  | nil => simp [set, get?]
  | cons head rest ih =>
    obtain ⟨k, v⟩ := head
    by_cases h : k = key <;> simp [set, get?, h, ih]

@[simp] theorem get?_set_of_ne {key other : String} (ne : other ≠ key) (value : α)
    (members : List (String × α)) :
    get? other (set key value members) = get? other members := by
  induction members with
  | nil => simp [set, get?, ne.symm]
  | cons head rest ih =>
    obtain ⟨k, v⟩ := head
    by_cases h : k = key
    · subst h; simp [set, get?, ne.symm]
    · by_cases h' : k = other
      · subst h'; simp [set, get?, h]
      · simp [set, get?, h, h', ih]

theorem keys_set (key : String) (value : α) (members : List (String × α)) :
    keys (set key value members) =
      if key ∈ keys members then keys members else keys members ++ [key] := by
  induction members with
  | nil => simp [set, keys]
  | cons head rest ih =>
    obtain ⟨k, v⟩ := head
    simp only [keys] at ih
    by_cases h : k = key
    · simp [set, keys, h]
    · have h' : key ≠ k := fun e => h e.symm
      simp only [set, keys, h, if_false, List.map_cons, ih, List.mem_cons, h', false_or]
      split <;> simp_all

end Members

end SchemaForge
