import SchemaForge.Json.Reader
import SchemaForge.Yaml.Graph
import SchemaForge.Schema.Decode

/- Documents: reading them, finding the section of named schemas, resolving references. -/
namespace SchemaForge

inductive DocumentFormat where
  | json
  | yaml
  deriving DecidableEq, Repr

namespace DocumentFormat

def name : DocumentFormat → String
  | .json => "json"
  | .yaml => "yaml"

def ofName? (s : String) : Option DocumentFormat :=
  if s = "json" then some .json else if s = "yaml" then some .yaml else none

/-- JSON for names that end in `.json`, in any case; of a URL only the part before query and
    fragment counts. -/
def ofFileName (name : String) : DocumentFormat :=
  let cs := name.toList
  let cs := if Text.contains "://".toList cs then cs.takeWhile fun c => c ≠ '?' && c ≠ '#' else cs
  if Text.endsWith ".json".toList (cs.map Text.toLowerAscii) then .json else .yaml

end DocumentFormat

inductive DocumentError where
  | unknownFormat (name : String)
  | json (error : Json.ReadError)
  | yaml (error : Yaml.Error)
  deriving DecidableEq, Repr

def DocumentError.message : DocumentError → String
  | .unknownFormat name => "unknown document format " ++ Text.quoted name
  | .json e => e.message
  | .yaml e => e.message

structure Document where
  root : Json
  deriving Repr

namespace Document

def parse (format : DocumentFormat) (text : Bytes) : Except DocumentError Json :=
  match format with
  | .json => (Json.load text).mapError .json
  | .yaml => (Yaml.load text).mapError .yaml

def parseNamed (format : String) (text : Bytes) : Except DocumentError Json :=
  match DocumentFormat.ofName? format with
  | some f => parse f text
  | none => .error (.unknownFormat format)

/-- One step into a tree: a member by its name, or an item by its index. -/
def child? (segment : String) : Json → Option Json
  | .obj members => Members.get? segment members
  | .arr items => do
    let i ← Number.parseIntIn Number.int64Min Number.int64Max segment.toList
    if i < 0 then none else items[i.toNat]?
  | _ => none

def lookup : List String → Json → Option Json
  | [], v => some v
  | segment :: rest, v => (child? segment v).bind (lookup rest)

/-- The object of named schemas at a section path. -/
def section? (d : Document) (path : String) : Except SchemaError (List (String × Json)) :=
  match lookup (Pointer.splitSection path) d.root with
  | none => .error (.located path .sectionMissing)
  | some (.obj members) => .ok members
  | some v => .error (.located path (.sectionNotObject v.kind))

/-- The schema a reference points to. -/
def resolve (d : Document) (ref : String) : Except SchemaError Schema :=
  match Pointer.split ref with
  | [] => .error (.located ref .rootReference)
  | segments =>
    match lookup segments d.root with
    | none | some .null => .error (.located ref (.invalidReference ref))
    | some v => Schema.decodeAt (Pointer.render segments) v

end Document

end SchemaForge
