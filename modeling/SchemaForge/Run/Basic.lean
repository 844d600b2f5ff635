import SchemaForge.Run.Plan

/- A run: it checks its configuration, plans its files, and writes them in order. -/
namespace SchemaForge

/-- What a successful run tells about itself. -/
structure Report where
  package : String
  files : List String
  schemas : List SchemaSummary
  ignored : List String
  digest : String
  deriving DecidableEq, Repr

def Plan.report (p : Plan) : Report :=
  ⟨p.package, p.files.map (·.1), p.schemas, p.ignored, p.digest⟩

inductive RunMode where
  | generate
  | check
  deriving DecidableEq, Repr

def RunMode.name : RunMode → String
  | .generate => "generate"
  | .check => "check"

/-- The outcome of a run, what has received its files as the run leaves it, and what observers
    see. -/
structure RunInto (σ : Type) where
  outcome : Except RunError Report
  sink : σ
  spans : List Span
  measurements : List Measurement

abbrev Run := RunInto Sink

namespace Run

variable {σ : Type}

/-- Writes files in order up to the first that fails. -/
def writeAll [Receiver σ] (canceled : Bool) :
    List (String × Bytes) → σ → Except RunError Unit × σ
  | [], sink => (.ok (), sink)
  | (name, content) :: rest, sink =>
    match Receiver.write canceled name content sink with
    | (.error e, sink) => (.error (.write name e), sink)
    | (.ok (), sink) => writeAll canceled rest sink

def rootSpan (mode : RunMode) (c : Config) (failure : Option String) : Span :=
  ⟨"jsvgen.generate",
    [("jsvgen.mode", mode.name), ("jsvgen.package", c.package), ("jsvgen.source", c.sourceName)],
    failure⟩

def measure (mode : RunMode) : Except RunError Report → List Measurement
  | .error _ => [.duration mode.name false]
  | .ok r =>
    .duration mode.name true :: (if r.schemas.isEmpty then [] else [.compiled mode.name r.schemas.length])

def close (mode : RunMode) (c : Config) (sink : σ) (t : Traced RunError Report) : RunInto σ :=
  { outcome := t.outcome
    sink := sink
    spans := t.spans ++ [rootSpan mode c (Traced.failureText RunError.message t.outcome)]
    measurements := measure mode t.outcome }

/-- A run with a checked configuration. -/
def execute [Receiver σ] (mode : RunMode) (c : Config) (origin : Origin) (canceled : Bool)
    (sink : σ) : RunInto σ :=
  let planned := plan c origin canceled
  match planned.outcome with
  | .error e => close mode c sink ⟨.error e, planned.spans⟩
  | .ok p =>
    let (written, sink) := writeAll canceled p.files sink
    close mode c sink
      ((⟨.ok (), planned.spans⟩ : Traced RunError Unit).next fun _ =>
        (stage "write" [] written).next fun _ => pure p.report)

/-- Runs a configuration against a receiver. One that breaks a rule ends before anything else. -/
def run [Receiver σ] (mode : RunMode) (c : Config) (origin : Origin) (canceled : Bool) (sink : σ) :
    RunInto σ :=
  match c.check with
  | .error vs => ⟨.error (.config vs), sink, [], []⟩
  | .ok c => execute mode c origin canceled sink

def generate [Receiver σ] (c : Config) (origin : Origin) (canceled : Bool) (sink : σ) : RunInto σ :=
  run .generate c origin canceled sink

/-- Generates into the output directory of the configuration, which the defaults may set. -/
def toDirectory (c : Config) (origin : Origin) (canceled : Bool) : Run :=
  let c := c.withDefaults
  generate c origin canceled (Sink.directory { root := c.outDir } origin.tree)

/-- Compares the files of a run with those in the output directory; writes nothing. -/
def check (c : Config) (origin : Origin) (canceled : Bool) : Run :=
  let c := c.withDefaults
  run .check c origin canceled (Sink.comparison { root := c.outDir } origin.tree [])

end Run

end SchemaForge
