import SchemaForge.Cli.Args
import SchemaForge.Report.Check

/- The commands of the tool as functions on a file tree. -/
namespace SchemaForge.Cli

inductive CommandError where
  | run (error : RunError)
  | stale
  deriving Repr

def CommandError.message : CommandError → String
  | .run e => e.message
  | .stale => "generated files are out of date; run jsvgen gen"

/-- What a command prints, how it ends, and the files as it leaves them. -/
structure Result where
  stdout : String
  outcome : Except CommandError Unit
  tree : FileTree

def Result.exitCode (r : Result) : Nat :=
  match r.outcome with
  | .ok () => 0
  | .error _ => 1

def version : String := "devel-0.1.0"

def defaultOut : String := "./json-schema"

/-- The directory that a generating or checking command works on. -/
def Line.directory (l : Line) : String := (l.argument? 1).getD defaultOut

/-- Commands work on the full path of their directory, so that its last name is known. -/
def Line.config (l : Line) (t : FileTree) : Config :=
  let text (name : String) : String := (l.settings.last? name).getD ""
  { source := (l.argument? 0).getD "", format := text "format", section_ := text "schema-path"
    ignore := l.settings.get "ignore", outDir := FileTree.pathOf (t.locate l.directory)
    outFile := text "out-file", package := text "package", exported := l.settings.isOn "export"
    withoutSupport := l.settings.isOn "without-runtime", strict := l.settings.isOn "strict"
    concurrency := (integer? (text "concurrency")).getD 0 }

def generatedText (out : String) (r : Report) : String :=
  "✓ Generated " ++ Number.renderNat r.schemas.length ++ " validators in package " ++ r.package
    ++ " (" ++ r.digest ++ ")\n"
    ++ String.join (r.files.map fun name => "  " ++ Path.join [out, name] ++ "\n")
    ++ (if r.ignored.isEmpty then "" else "  ignored: [" ++ Text.joinWith " " r.ignored ++ "]\n")

def generate (l : Line) (origin : Origin) : Result :=
  let run := Run.toDirectory (l.config origin.tree) origin false
  let tree := run.sink.tree?.getD origin.tree
  match run.outcome with
  | .error e => ⟨"", .error (.run e), tree⟩
  | .ok r => ⟨generatedText l.directory r, .ok (), tree⟩

/-- The table is what a check prints unless another format is asked for. -/
def Line.outputFormat (l : Line) : OutputFormat :=
  ((l.settings.last? outputFlag.name).bind OutputFormat.ofName?).getD .table

def check (l : Line) (origin : Origin) : Result :=
  let run := Run.check (l.config origin.tree) origin false
  match run.outcome with
  | .error e => ⟨"", .error (.run e), origin.tree⟩
  | .ok r =>
    let drifts := run.sink.drifts
    ⟨(CheckReport.ofRun r drifts).text l.outputFormat,
      if Drift.isStale drifts then .error .stale else .ok (), origin.tree⟩

def Line.logLevel (l : Line) : String := (l.settings.last? logLevelFlag.name).getD logLevelFlag.default

def helpText : String :=
  "Usage: jsvgen <command> [flags]\n\nGenerate Go validators from JSON Schema.\n\nCommands:\n"
    ++ String.join (commands.map fun c =>
      "  " ++ Text.joinWith " " (c.name :: c.positionals.map fun p =>
        if p.required then "<" ++ p.name ++ ">" else "[<" ++ p.name ++ ">]") ++ "\n")

/-- Runs a line. The service itself is not a function on files. -/
def run (l : Line) (origin : Origin) : Result :=
  if l.settings.isOn helpFlag.name then ⟨helpText, .ok (), origin.tree⟩
  else
    match l.command.map (·.name) with
    | some "gen" => generate l origin
    | some "check" => check l origin
    | some "version" =>
      ⟨(if l.settings.isOn "short" then version else "jsvgen " ++ version) ++ "\n", .ok (), origin.tree⟩
    | _ => ⟨"", .ok (), origin.tree⟩

end SchemaForge.Cli
