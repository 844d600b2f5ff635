import SchemaForge.Code.Source
import SchemaForge.Config
import SchemaForge.Digest.Source
import SchemaForge.Fetch.Basic
import SchemaForge.Run.Trace
import SchemaForge.Schema.Subset
import SchemaForge.Sink.Basic
import SchemaForge.Support.Files

/- The stages of a run up to the files to be written. Nothing here writes: a run that fails in one
   of these stages has touched nothing. -/
namespace SchemaForge

inductive RunError where
  | config (violations : List Config.Violation)
  | fetch (error : FetchError)
  | parse (source : String) (error : DocumentError)
  | select (error : CompileError)
  | subset (error : Subset.Error)
  | compile (error : CompileError)
  | digest (error : Digest.Error)
  | render (error : Code.RenderError)
  | collision (name : String)
  | write (name : String) (error : WriteError)
  deriving Repr

def RunError.message : RunError → String
  | .config vs => Config.violationsMessage vs
  | .fetch e => e.message
  | .parse source e => "parse " ++ source ++ ": " ++ e.message
  | .select e => e.message
  | .subset e => e.message
  | .compile e => e.message
  | .digest e => e.message
  | .render e => e.message
  | .collision name => "output file " ++ name ++ " collides with a runtime file"
  | .write name e => "write " ++ name ++ ": " ++ e.message

/-- Everything a run writes, in order, and what it reports about it. -/
structure Plan where
  package : String
  files : List (String × Bytes)
  schemas : List SchemaSummary
  ignored : List String
  digest : String
  deriving Repr

/-- Where documents come from. -/
structure Origin where
  tree : FileTree
  web : Web

namespace Run

def stage {α : Type} (name : String) (inner : List Span) (outcome : Except RunError α) :
    Traced RunError α :=
  Traced.stage RunError.message name inner outcome

/-- The bytes of the document; only those that are not given are fetched. -/
def load (c : Config) (origin : Origin) : Traced RunError Bytes :=
  match c.document with
  | some bytes => pure bytes
  | none => stage "fetch" [] ((Fetch.fetch origin.tree origin.web 0 c.source).mapError .fetch)

def parse (c : Config) (bytes : Bytes) : Traced RunError Document :=
  stage "parse" [] <|
    match Document.parseNamed c.format bytes with
    | .error e => .error (.parse c.sourceName e)
    | .ok root => .ok ⟨root⟩

/-- In a strict run every schema that is kept has to be of the subset. -/
def checkSubset (c : Config) (d : Document) : Traced RunError Unit :=
  if c.strict then
    stage "metaschema" [] <|
      match Compile.select d c.section_ c.ignore with
      | .error e => .error (.select e)
      | .ok s => (Subset.checkAll (s.entries.map fun e => (e.name, e.tree))).mapError .subset
  else pure ()

def schemaSpan (r : Compile.Entry × Except SchemaError Compile.Package) : Span :=
  ⟨"jsvgen.compile_schema", [("jsvgen.schema.name", r.1.name)],
    Traced.failureText SchemaError.message r.2⟩

/-- One span for each schema that is compiled. -/
def schemaSpans (d : Document) (o : CompileOptions) (canceled : Bool) : List Span :=
  if canceled then []
  else
    match Compile.select d o.section_ o.ignore with
    | .error _ => []
    | .ok s => (Compile.compileAll ⟨d, o.exported⟩ s.entries).map schemaSpan

def compileOptions (c : Config) : CompileOptions :=
  { section_ := c.section_, ignore := c.ignore, exported := c.exported }

def compile (c : Config) (d : Document) (canceled : Bool) : Traced RunError CompiledDocument :=
  stage "compile" (schemaSpans d (compileOptions c) canceled)
    ((Compile.document d (compileOptions c) canceled).mapError .compile)

/-- The comment in front of the generated validators. -/
def header (digest : String) : String :=
  "// Code generated by jsvgen. DO NOT EDIT.\n// Source digest: " ++ digest ++ "\n\n"

/-- The support files of a run that has them; none may have the name of the validators file. -/
def supportFiles (c : Config) : Except RunError (List (String × Bytes)) :=
  if c.withoutSupport then .ok []
  else if Support.fileNames.contains c.outFile then .error (.collision c.outFile)
  else .ok ((Support.sources c.package).map fun (name, text) => (name, Utf8.encode text))

def renderFiles (c : Config) (d : Document) (r : CompiledDocument) : Except RunError Plan := do
  let digest ← (Digest.ofSection d c.section_ c.ignore).mapError .digest
  let source ← (r.package.print.render c.package (header digest)).mapError .render
  let support ← supportFiles c
  return ⟨c.package, (c.outFile, Utf8.encode source) :: support, r.schemas, r.ignored, digest⟩

/-- All stages before the writing, for a configuration with its defaults. -/
def plan (c : Config) (origin : Origin) (canceled : Bool) : Traced RunError Plan := do
  let bytes ← load c origin
  let d ← parse c bytes
  checkSubset c d
  let r ← compile c d canceled
  stage "render" [] (renderFiles c d r)

end Run

end SchemaForge
