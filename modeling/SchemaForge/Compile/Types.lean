import SchemaForge.Code.Basic
import SchemaForge.Document
import SchemaForge.Ident

/- Types of validated values. References are followed through the document; a reference is the
   type of its target under the target's own name. -/
namespace SchemaForge

/-- What schemas are compiled with: the document for references, and how validators are named. -/
structure Compiler where
  document : Document
  exported : Bool
  deriving Repr

def Compiler.validator (c : Compiler) (name : String) : String :=
  Ident.validatorName c.exported name

namespace Json

mutual

/-- Number of values in a tree, keys not counted. -/
def size : Json → Nat
  | .arr items => sizeItems items + 1
  | .obj members => sizeMembers members + 1
  | _ => 1

def sizeItems : List Json → Nat
  | [] => 0
  | v :: rest => size v + sizeItems rest

def sizeMembers : List (String × Json) → Nat
  | [] => 0
  | (_, v) :: rest => size v + sizeMembers rest

end

end Json

namespace Compile

open Code (Ty)

def formatType : Option Schema.Format → Ty
  | none => .string
  | some .integer => .integer
  | some .number => .decimal
  | some .hex => .bytes
  | some .dateTime => .time

/-- The type of a schema when references have the types that `follow` gives them. -/
def typeWith (follow : String → String → Except SchemaError Ty) (name : String) :
    Schema → Except SchemaError Ty
  | .boolean => .ok .bool
  | .string _ _ _ format => .ok (formatType (Schema.Format.ofName? format))
  | .integer .. => .ok .integer
  | .number .. => .ok .decimal
  | .array items _ _ => (typeWith follow (Ident.itemOf name) items).map .slice
  | .object .. => .ok (.record (Ident.typeName name))
  | .ref path => follow name path

/-- A path that is met again closes a cycle without an object in it. -/
def cycleError (met : List String) (name path : String) : SchemaError :=
  ⟨name, path, .referenceCycle (met ++ [path])⟩

/-- Follows references that have not been met on the way. -/
def typeVia (d : Document) : Nat → List String → String → Schema → Except SchemaError Ty
  | 0, met, name, s => typeWith (fun name path => .error (cycleError met name path)) name s
  | fuel + 1, met, name, s =>
    typeWith (fun name path =>
      if met.contains path then .error (cycleError met name path)
      else
        match d.resolve path with
        | .error e => .error (e.within name)
        | .ok target => typeVia d fuel (met ++ [path]) (Pointer.name path) target) name s

/- Each reference followed but the first stands in the document, and none is followed twice. -/
def referenceBound (d : Document) : Nat := d.root.size + 2

/-- The type that a validator of the schema yields. -/
def typeOf (d : Document) (name : String) (s : Schema) : Except SchemaError Ty :=
  typeVia d (referenceBound d) [] name s

/-- A schema that has to be there. -/
def given (name : String) : Option Schema → Except SchemaError Schema
  | some s => .ok s
  | none => .error ⟨name, "", .unexpectedSchema "<nil>"⟩

end Compile

end SchemaForge
