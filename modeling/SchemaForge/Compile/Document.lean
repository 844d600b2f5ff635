import SchemaForge.Code.Check
import SchemaForge.Code.Text
import SchemaForge.Compile.Schema
import SchemaForge.Glob.Ignore

/- Compiling the named schemas of a document section into one package. The schemas are independent
   of each other; their packages are joined in section order, and of several errors that of the
   first schema in section order is the one reported. -/
namespace SchemaForge

structure CompileOptions where
  section_ : String
  ignore : List String
  exported : Bool
  deriving Repr

inductive CompileError where
  | schema (error : SchemaError)
  | ignore (error : IgnoreError)
  | overrun (overrun : Glob.Overrun)
  | canceled
  deriving Repr

def CompileError.message : CompileError → String
  | .schema e => e.message
  | .ignore e => e.message
  | .overrun o => o.message
  | .canceled => "context canceled"

/-- One compiled schema of the section. -/
structure SchemaSummary where
  name : String
  validator : String
  type : String
  deriving DecidableEq, Repr

structure CompiledDocument where
  package : Compile.Package
  schemas : List SchemaSummary
  ignored : List String
  deriving Repr

namespace Compile

/-- A schema of the section as it stands in the document. -/
structure Entry where
  name : String
  tree : Json
  pointer : String
  deriving Repr

structure Selection where
  entries : List Entry
  ignored : List String
  deriving Repr

def Selection.keep (e : Entry) (s : Selection) : Selection := { s with entries := e :: s.entries }

def Selection.leave (name : String) (s : Selection) : Selection :=
  { s with ignored := name :: s.ignored }

def entryOf (base : List String) (name : String) (tree : Json) : Entry :=
  ⟨name, tree, Pointer.render (base ++ [name])⟩

def selectMembers (base : List String) (plans : List Glob.Plan) :
    List (String × Json) → Glob.Verdict Selection
  | [] => .ok ⟨[], []⟩
  | (name, tree) :: rest => do
    if ← Ignore.matchesAny name plans then
      return (← selectMembers base plans rest).leave name
    else
      return (← selectMembers base plans rest).keep (entryOf base name tree)

/-- The schemas of a section that no pattern matches, and the names that are left out. -/
def select (d : Document) (path : String) (ignore : List String) : Except CompileError Selection :=
  match d.section? path with
  | .error e => .error (.schema e)
  | .ok members =>
    match Ignore.plans ignore with
    | .error e => .error (.ignore e)
    | .ok plans => (selectMembers (Pointer.splitSection path) plans members).mapError .overrun

def compileEntry (c : Compiler) (e : Entry) : Except SchemaError Package :=
  match Schema.decodeAt e.pointer e.tree with
  | .error err => .error (err.within e.name)
  | .ok s => (compile c e.name s).mapError (·.within e.name)

def summary (e : Entry) (p : Package) : Option SchemaSummary :=
  p.functions.head?.map fun f => ⟨e.name, f.name, f.type.text⟩

/-- Joins the packages of all entries in order; the first error in this order counts. -/
def join : List (Entry × Except SchemaError Package) →
    Except SchemaError (Package × List SchemaSummary)
  | [] => .ok (.empty, [])
  | (e, r) :: rest =>
    match r with
    | .error err => .error err
    | .ok p => (join rest).map fun (q, summaries) => (p ++ q, (summary e p).toList ++ summaries)

def compileAll (c : Compiler) (entries : List Entry) : List (Entry × Except SchemaError Package) :=
  entries.map fun e => (e, compileEntry c e)

/-- Joins what was compiled and checks that the package is closed and its names are distinct. -/
def finish (s : Selection) (compiled : List (Entry × Except SchemaError Package)) :
    Except SchemaError CompiledDocument := do
  let (package, schemas) ← join compiled
  package.checkReferences (s.entries.map (·.pointer))
  package.checkNames
  return ⟨package, schemas, s.ignored⟩

/-- Compiles a section. Once canceled, no schema is compiled any more. -/
def document (d : Document) (o : CompileOptions) (canceled : Bool) :
    Except CompileError CompiledDocument :=
  match select d o.section_ o.ignore with
  | .error e => .error e
  | .ok s =>
    if canceled && !s.entries.isEmpty then .error .canceled
    else (finish s (compileAll ⟨d, o.exported⟩ s.entries)).mapError .schema

end Compile

end SchemaForge
