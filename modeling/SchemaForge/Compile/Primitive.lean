import SchemaForge.Code.Basic
import SchemaForge.Ident
import SchemaForge.Schema.Error

/- Calls for schemas without parts. -/
namespace SchemaForge.Compile

open Code (Call StringSet)

/-- The call that validates a primitive schema, and the sets it refers to. -/
def primitive? (name : String) : Schema → Option (Call × List StringSet)
  | .boolean => some (.boolean, [])
  | .string lo hi enum format =>
    let set := Ident.typeName (Ident.enumSetOf name)
    some (.string lo hi (enum.map fun _ => set) (Schema.Format.ofName? format),
      enum.toList.map fun values => ⟨set, values⟩)
  | .integer lo hi => some (.integer lo hi, [])
  | .number lo hi => some (.number lo hi, [])
  | _ => none

def notPrimitive (name found : String) : SchemaError := ⟨name, "", .notPrimitive found⟩

def primitive (name : String) : Option Schema → Except SchemaError (Call × List StringSet)
  | none => .error (notPrimitive name "<nil>")
  | some s =>
    match primitive? name s with
    | some r => .ok r
    | none => .error (notPrimitive name s.kind)

end SchemaForge.Compile
