import SchemaForge.Json.Writer
import SchemaForge.Report.Table
import SchemaForge.Run.Basic
import SchemaForge.Yaml.Writer

/- What a check tells its reader, as a table, as YAML or as JSON. -/
namespace SchemaForge

/-- The findings of a check. A list may be absent, which is not the same as empty. -/
structure CheckReport where
  package : String
  files : Option (List String)
  schemas : Option (List SchemaSummary)
  ignored : List String
  digest : String
  drift : Option (List (String × String))
  deriving Repr

inductive OutputFormat where
  | table
  | yaml
  | json
  deriving DecidableEq, Repr

def OutputFormat.ofName? (name : String) : Option OutputFormat :=
  if name = "table" then some .table
  else if name = "yaml" then some .yaml
  else if name = "json" then some .json
  else none

namespace CheckReport

/-- A list without elements was never begun, so it is absent. -/
def begun {α : Type} (l : List α) : Option (List α) := if l.isEmpty then none else some l

def ofRun (r : Report) (drifts : List Drift) : CheckReport :=
  { package := r.package, files := begun r.files, schemas := begun r.schemas, ignored := r.ignored
    digest := r.digest, drift := begun (drifts.map fun d => (d.path, d.status.name)) }

def table (c : CheckReport) : Table :=
  { header := ["FILE", "STATUS"]
    rows := (c.drift.getD []).map fun (path, status) => [path, status]
    footer := ["Digest", c.digest] }

def list {α : Type} (f : α → Json) : Option (List α) → Json
  | none => .null
  | some l => .arr (l.map f)

def ignoredMember (ignored : List String) : List (String × Json) :=
  if ignored.isEmpty then [] else [("ignored", .arr (ignored.map .str))]

def toJson (c : CheckReport) : Json :=
  .obj (
    [("package", .str c.package), ("files", list .str c.files),
      ("schemas", list (fun s => .obj [("name", .str s.name), ("validator", .str s.validator),
        ("type", .str s.type)]) c.schemas)]
    ++ ignoredMember c.ignored
    ++ [("digest", .str c.digest),
      ("drift", list (fun (path, status) => .obj [("path", .str path), ("status", .str status)])
        c.drift)])

/-- The same members, sorted by name. -/
def toSortedJson (c : CheckReport) : Json :=
  .obj (
    [("digest", .str c.digest),
      ("drift", list (fun (path, status) => .obj [("path", .str path), ("status", .str status)])
        c.drift),
      ("files", list .str c.files)]
    ++ ignoredMember c.ignored
    ++ [("package", .str c.package),
      ("schemas", list (fun s => .obj [("name", .str s.name), ("type", .str s.type),
        ("validator", .str s.validator)]) c.schemas)])

def text (c : CheckReport) : OutputFormat → String
  | .table => c.table.text
  | .yaml => Yaml.Write.document c.toSortedJson
  | .json => c.toJson.indented ++ "\n"

def unknownFormat (name : String) : String := "unknown output format: " ++ name

end CheckReport

end SchemaForge
