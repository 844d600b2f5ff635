import SchemaForge.Json.Basic
import SchemaForge.Pointer
import SchemaForge.Text.Quoted

/- What can be wrong with a schema document, with the schema and the place concerned. -/
namespace SchemaForge

inductive Fault where
  | rootReference
  | invalidReference (ref : String)
  | notCompiled
  | noType
  | unsupportedType (found : Json.Kind)
  | unexpectedType (found : String)
  | unexpectedSchema (found : String)
  | notPrimitive (found : String)
  | sectionMissing
  | sectionNotObject (found : Json.Kind)
  | notSchema (found : Json.Kind)
  | notString (found : Json.Kind)
  | notObject (found : Json.Kind)
  | notStringList (found : Json.Kind)
  | notNumber (found : Json.Kind)
  | notInteger (found : String)
  | notDecimal (found : String)
  | notCount (found : String)
  | noItems
  | notInSubset (report : String)
  | referenceCycle (chain : List String)
  | chainTooLong
  | sameField (first second field : String)
  | sameIdentifier (name first second : String)
  deriving DecidableEq, Repr

inductive FaultClass where
  | unresolvedReference
  | unknownSchemaType
  | unknownPrimitiveType
  | invalidDocumentShape
  | invalidSchemaValue
  | cyclicReference
  | duplicateName
  deriving DecidableEq, Repr

def FaultClass.code : FaultClass → String
  | .unresolvedReference => "unresolved_reference"
  | .unknownSchemaType => "unknown_schema_type"
  | .unknownPrimitiveType => "unknown_primitive_type"
  | .invalidDocumentShape => "invalid_document_shape"
  | .invalidSchemaValue => "invalid_schema_value"
  | .cyclicReference => "cyclic_reference"
  | .duplicateName => "duplicate_name"

namespace Fault

def group : Fault → FaultClass
  | .rootReference | .invalidReference _ | .notCompiled => .unresolvedReference
  | .noType | .unsupportedType _ | .unexpectedType _ | .unexpectedSchema _ => .unknownSchemaType
  | .notPrimitive _ => .unknownPrimitiveType
  | .sectionMissing | .sectionNotObject _ => .invalidDocumentShape
  | .notSchema _ | .notString _ | .notObject _ | .notStringList _ | .notNumber _ | .notInteger _
  | .notDecimal _ | .notCount _ | .noItems | .notInSubset _ => .invalidSchemaValue
  | .referenceCycle _ | .chainTooLong => .cyclicReference
  | .sameField .. | .sameIdentifier .. => .duplicateName

def detail : Fault → String
  | .rootReference => "reference to the document root is not supported"
  | .invalidReference ref => "invalid reference " ++ Text.quoted ref
  | .notCompiled =>
    "reference target is not a compiled schema of the selected section (ignored or outside it)"
  | .noType => "schema has no type"
  | .unsupportedType found => "unsupported type " ++ found.name
  | .unexpectedType found => "unexpected type " ++ Text.quoted found
  | .unexpectedSchema found => "unexpected schema " ++ found
  | .notPrimitive found => "expected primitive but got " ++ Text.quoted found
  | .sectionMissing => "schema path not found"
  | .sectionNotObject found => "expected schemas to parse to be an object, found " ++ found.name
  | .notSchema found => "expected schema object, found " ++ found.name
  | .notString found => "expected string, found " ++ found.name
  | .notObject found => "expected object, found " ++ found.name
  | .notStringList found => "expected array of strings, found " ++ found.name
  | .notNumber found => "expected number, found " ++ found.name
  | .notInteger found => "expected integer, found " ++ Text.quoted found
  | .notDecimal found => "expected decimal, found " ++ Text.quoted found
  | .notCount found => "expected non-negative integer, found " ++ found
  | .noItems => "array schema has no items"
  | .notInSubset report => report
  | .referenceCycle chain =>
    "reference cycle " ++ Text.joinWith " -> " chain ++ " has no object in between"
  | .chainTooLong => "reference chain too long"
  | .sameField first second field =>
    "property " ++ Text.quoted first ++ " and " ++ Text.quoted second ++ " both map to field "
      ++ field
  | .sameIdentifier name first second =>
    "identifier " ++ name ++ " is declared by both " ++ first ++ " and " ++ second

end Fault

structure SchemaError where
  schema : String
  path : String
  fault : Fault
  deriving DecidableEq, Repr

namespace SchemaError

def located (path : String) (fault : Fault) : SchemaError := ⟨"", path, fault⟩

def message (e : SchemaError) : String :=
  let inSchema := if e.schema.isEmpty then "" else " in schema " ++ Text.quoted e.schema
  let place := if e.path.isEmpty then "" else " at " ++ Text.quoted e.path
  let detail := if e.fault.detail.isEmpty then "" else ": " ++ e.fault.detail
  e.fault.group.code ++ inSchema ++ place ++ detail

/-- Names the schema concerned; a name given before stays, so the innermost schema is named. -/
def within (name : String) (e : SchemaError) : SchemaError :=
  if e.schema.isEmpty then { e with schema := name } else e

end SchemaError

end SchemaForge
