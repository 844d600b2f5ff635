import SchemaForge.Json.Basic

/- The schemas that can be compiled. Bounds keep their spelling. -/
namespace SchemaForge

inductive Schema where
  | boolean
  | string (minLength maxLength : Option Nat) (enum : Option (List String)) (format : String)
  | integer (minimum maximum : Option String)
  | number (minimum maximum : Option String)
  | array (items : Schema) (minItems maxItems : Option Nat)
  | object (properties : Option (List (String × Schema))) (required : List String)
      (additional : Option Schema)
  | ref (path : String)
  deriving Repr, Inhabited

namespace Schema

def kind : Schema → String
  | .boolean => "boolean"
  | .string .. => "string"
  | .integer .. => "integer"
  | .number .. => "number"
  | .array .. => "array"
  | .object .. => "object"
  | .ref _ => "$ref"

def isPrimitive : Schema → Bool
  | .boolean | .string .. | .integer .. | .number .. => true
  | _ => false

/-- How the text of a string is read on. -/
inductive Format where
  | integer
  | number
  | hex
  | dateTime
  deriving DecidableEq, Repr

/-- Formats that are not known have no effect. -/
def Format.ofName? (name : String) : Option Format :=
  if name = "integer" then some .integer
  else if name = "number" then some .number
  else if name = "hex" then some .hex
  else if name = "date-time" then some .dateTime
  else none

end Schema

end SchemaForge
