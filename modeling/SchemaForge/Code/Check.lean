import SchemaForge.Code.Basic
import SchemaForge.Schema.Error

/- Whether a package is closed and its names are distinct. -/
namespace SchemaForge.Code

variable {τ δ κ : Type}

/-- What declares an identifier. -/
inductive Owner where
  | type (name : String)
  | constructor (record : String)
  | validator (schema : String)
  | set (name : String)
  deriving DecidableEq, Repr

def Owner.label : Owner → String
  | .type name => "type " ++ name
  | .constructor record => "constructor of " ++ record
  | .validator schema => "validator of " ++ Text.quoted schema
  | .set name => "set " ++ name

namespace Package

/-- All identifiers declared at package level, with their owners. -/
def declared (p : Package τ δ κ) : List (String × Owner) :=
  (p.records.flatMap fun r => [(r.name, .type r.name), (r.constructor, .constructor r.name)])
    ++ (p.functions.map fun f => (f.name, .validator f.schema))
    ++ p.sets.map fun s => (s.name, .set s.name)

def firstClash (seen : List (String × Owner)) : List (String × Owner) → Option SchemaError
  | [] => none
  | (name, owner) :: rest =>
    match Members.get? name seen with
    | some first => some (.located "" (.sameIdentifier name first.label owner.label))
    | none => firstClash ((name, owner) :: seen) rest

def checkNames (p : Package τ δ κ) : Except SchemaError Unit :=
  match firstClash [] p.declared with
  | some e => .error e
  | none => .ok ()

/-- Every reference has to lead to a schema that is compiled. -/
def checkReferences (compiled : List String) (p : Package τ δ κ) : Except SchemaError Unit :=
  match p.references.find? fun r => !compiled.contains (Pointer.normal r.path) with
  | some r => .error ⟨r.holder, r.path, .notCompiled⟩
  | none => .ok ()

end Package

end SchemaForge.Code
