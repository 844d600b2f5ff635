import SchemaForge.Schema.Basic

/- The emitted package: validators, struct types with their constructors, sets of strings, and the
   references that validators call through. Types, initial values and calls are parameters, so that
   the same package can hold them as data or as text. -/
namespace SchemaForge.Code

inductive Ty where
  | bool
  | string
  | integer
  | decimal
  | time
  | bytes
  | record (name : String)
  | slice (item : Ty)
  | pointer (target : Ty)
  | ordered (item : Ty)
  deriving DecidableEq, Repr

/-- What a field starts with. -/
inductive Init where
  | absent
  | zero (type : Ty)
  | construct (constructor : String)
  | emptyMap (item : Ty)
  deriving DecidableEq, Repr

/-- One application of a validator to a value. Sets and validators are named. -/
inductive Call where
  | boolean
  | string (minLength maxLength : Option Nat) (enum : Option String)
      (format : Option Schema.Format)
  | integer (minimum maximum : Option String)
  | number (minimum maximum : Option String)
  | array (minItems maxItems : Option Nat) (item : String)
  | validator (name : String)
  deriving DecidableEq, Repr

/-- `key` is the member the field stands for; the map of undeclared members has none. -/
structure Field (τ δ : Type) where
  name : String
  key : String
  type : τ
  default : δ
  boxed : Bool
  deriving DecidableEq, Repr

structure Record (τ δ : Type) where
  name : String
  constructor : String
  fields : List (Field τ δ)
  deriving DecidableEq, Repr

/-- Takes one declared property out of an object, validates it and assigns it. -/
structure PropertyStep (κ : Type) where
  key : String
  field : String
  required : Bool
  call : κ
  boxed : Bool
  deriving DecidableEq, Repr

/-- Maps the members outside the excluded set through a validator. -/
structure MapStep where
  exclude : Option String
  validator : String
  field : String
  deriving DecidableEq, Repr

structure ObjectBody (κ : Type) where
  constructor : String
  additional : Option MapStep
  properties : List (PropertyStep κ)
  deriving DecidableEq, Repr

inductive Body (κ : Type) where
  | object (body : ObjectBody κ)
  | result (call : κ)
  deriving DecidableEq, Repr

structure Function (τ κ : Type) where
  name : String
  schema : String
  type : τ
  body : Body κ
  deriving DecidableEq, Repr

structure StringSet where
  name : String
  values : List String
  deriving DecidableEq, Repr

/-- A reference to `path` in the schema `holder`. -/
structure Reference where
  holder : String
  path : String
  deriving DecidableEq, Repr

structure Package (τ δ κ : Type) where
  functions : List (Function τ κ)
  records : List (Record τ δ)
  sets : List StringSet
  references : List Reference
  deriving DecidableEq, Repr

namespace Package

variable {τ δ κ : Type}

def empty : Package τ δ κ := ⟨[], [], [], []⟩

def append (p q : Package τ δ κ) : Package τ δ κ :=
  ⟨p.functions ++ q.functions, p.records ++ q.records, p.sets ++ q.sets,
    p.references ++ q.references⟩

instance : Append (Package τ δ κ) := ⟨append⟩

def ofRecord (r : Record τ δ) : Package τ δ κ := ⟨[], [r], [], []⟩

def ofSets (sets : List StringSet) : Package τ δ κ := ⟨[], [], sets, []⟩

def ofReference (r : Reference) : Package τ δ κ := ⟨[], [], [], [r]⟩

/-- Puts a validator in front of those of its parts. -/
def lead (f : Function τ κ) (p : Package τ δ κ) : Package τ δ κ :=
  { p with functions := f :: p.functions }

end Package

namespace Ty

def isPointer : Ty → Bool
  | .integer | .record _ | .pointer _ | .ordered _ => true
  | _ => false

def isSlice : Ty → Bool
  | .bytes | .slice _ => true
  | _ => false

/-- The field type of a property that may be missing, and whether its value is boxed: pointers
    and slices can be absent as they are. -/
def optional (t : Ty) : Ty × Bool :=
  if t.isPointer || t.isSlice then (t, false) else (.pointer t, true)

end Ty

end SchemaForge.Code
