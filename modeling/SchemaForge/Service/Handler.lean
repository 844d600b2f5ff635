import SchemaForge.Service.Error

/- The service: routes, limits, and the answer to a compile request. -/
namespace SchemaForge.Service

structure ServiceConfig where
  burst : Int := 0
  maxBodyBytes : Int := 0
  timeout : Int := 0
  allowOrigins : List String := []
  maskInternalErrors : Bool := false
  fetchLimit : Int64 := 0
  deriving Repr

namespace ServiceConfig

def defaultBurst : Nat := 10

/-- How many requests a client may send at once. -/
def effectiveBurst (c : ServiceConfig) : Nat := if c.burst ≤ 0 then defaultBurst else c.burst.toNat

def effectiveBodyLimit (c : ServiceConfig) : Int :=
  if c.maxBodyBytes ≤ 0 then Fetch.defaultLimit.toInt else c.maxBodyBytes

/-- A time limit in nanoseconds, where one that is not positive stands for a long default. One of
    a microsecond or less is over before any work begins. -/
def expired (c : ServiceConfig) : Bool := decide (0 < c.timeout ∧ c.timeout ≤ 1000)

end ServiceConfig

/- The limit on requests: every client starts with a number of tokens and each request takes
   one. -/

abbrev Tokens := List (String × Nat)

namespace Tokens

/-- Whether a client has a token left, and the tokens after it is taken. -/
def take (burst : Nat) (client : String) (tokens : Tokens) : Bool × Tokens :=
  match (Members.get? client tokens).getD burst with
  | 0 => (false, tokens)
  | n + 1 => (true, Members.set client n tokens)

end Tokens

/- Reading a compile request from a query. -/

namespace Query

def bool? (value : String) : Option Bool :=
  if ["1", "t", "T", "TRUE", "true", "True", "on"].contains value then some true
  else if ["0", "f", "F", "FALSE", "false", "False"].contains value then some false
  else none

/-- Of several values the last counts, and an empty one leaves what was there. -/
def text (old : String) (values : List String) : String :=
  match values.getLast? with
  | some v => if v.isEmpty then old else v
  | none => old

/-- Fails with the name of the key. -/
def flag (key : String) (old : Bool) (values : List String) : Except String Bool :=
  match values.getLast? with
  | none | some "" => .ok old
  | some v =>
    match bool? v with
    | some b => .ok b
    | none => .error key

def apply (r : CompileRequest) (key : String) (values : List String) : Except String CompileRequest :=
  match String.ofList (key.toList.map Text.toLowerAscii) with
  | "source" => .ok { r with source := text r.source values }
  | "format" => .ok { r with format := text r.format values }
  | "schemapath" => .ok { r with section_ := text r.section_ values }
  | "ignore" => .ok { r with ignore := values.filter fun v => !v.isEmpty }
  | "package" => .ok { r with package := text r.package values }
  | "export" => (flag key r.exported values).map fun b => { r with exported := b }
  | "strict" => (flag key r.strict values).map fun b => { r with strict := b }
  | "withoutruntime" =>
    (flag key r.withoutSupport values).map fun b => { r with withoutSupport := b }
  | _ => .ok r

/-- The request, and the keys whose values are not what they should be. -/
def applyAll : CompileRequest → List (String × List String) → CompileRequest × List String
  | r, [] => (r, [])
  | r, (key, values) :: rest =>
    match apply r key values with
    | .ok r => applyAll r rest
    | .error k =>
      let (r, bad) := applyAll r rest
      (r, k :: bad)

def others (n : Nat) : String :=
  if n = 0 then "" else if n = 1 then " (and 1 other error)"
  else " (and " ++ Number.renderNat n ++ " other errors)"

def decode (query : List (String × List String)) : Except ErrorReply CompileRequest :=
  match applyAll {} query with
  | (r, []) => .ok r
  | (_, key :: rest) =>
    .error (.invalid ("failed to decode query: schema: error converting value for "
      ++ Text.quoted key ++ others rest.length))

end Query

def violations (r : CompileRequest) : List Config.Violation :=
  Config.ruled (r.source.isEmpty || Url.isWebAddress r.source) (.source, .webAddress)
    ++ Config.formatViolations r.format
    ++ Config.ignoreViolations 0 r.ignore
    ++ Config.packageViolations r.package

def decodeGet (req : Request) : Except ErrorReply CompileRequest := do
  let r ← Query.decode req.query
  if r.source.isEmpty then throw (.ofViolations [(.source, .required)]) else return r

/-- A body beyond the limit is not read at all. -/
def decodePost (c : ServiceConfig) (req : Request) : Except ErrorReply CompileRequest := do
  let body := if c.effectiveBodyLimit < req.body.length then [] else req.body
  let r ← (Body.decode body).mapError fun e => .invalid ("failed to decode body: " ++ e.message)
  if r.document.isNone && r.source.isEmpty then
    throw (.invalid "one of document or source is required")
  if r.document.isSome && !r.source.isEmpty then
    throw (.invalid "document and source are mutually exclusive")
  return r

def decode (c : ServiceConfig) (req : Request) : Except ErrorReply CompileRequest := do
  let r ←
    if req.method = "GET" then decodeGet req
    else if req.method = "POST" then decodePost c req
    else throw ⟨.methodNotAllowed, "method " ++ req.method ++ " not allowed", []⟩
  match violations r with
  | [] => return r
  | vs => throw (.ofViolations vs)

/-- The answer to a request, and what is logged on the way. -/
structure Answer where
  outcome : Except ErrorReply Json
  logs : List LogRecord

/-- The text and format of a document that came with a request: a string holds the text of a
    document, and any other value is one. -/
def inlineDocument (format : String) (raw : Bytes) : Bytes × String :=
  match Json.parse raw with
  | .ok (.str text) => (Utf8.encode text, format)
  | .ok .null => ([], format)
  | _ => (raw, if format.isEmpty then DocumentFormat.json.name else format)

def fetchedLog (source : String) (data : Bytes) : LogRecord :=
  ⟨.debug, "fetched schema document",
    [("source", source), ("bytes", Number.renderNat data.length)]⟩

/-- The web is all that the service reaches; it has no files of its own. -/
def noFiles : FileTree := ⟨[], []⟩

def document (c : ServiceConfig) (web : Web) (r : CompileRequest) :
    Except ErrorReply (Bytes × String) × List LogRecord :=
  match r.document with
  | some raw => (.ok (inlineDocument r.format raw), [])
  | none =>
    match Fetch.fetch noFiles web c.fetchLimit r.source with
    | .error e =>
      let reply := ErrorReply.ofFetchError c.maskInternalErrors c.expired e
      (.error reply, if reply.code = .internal then [⟨.error, "compile failed", [("error", e.message)]⟩]
        else [])
    | .ok data =>
      (.ok (data, Config.orDefault (DocumentFormat.ofFileName r.source).name r.format),
        [fetchedLog r.source data])

def configOf (r : CompileRequest) (document : Bytes) (format : String) : Config :=
  { source := r.source, document := some document, format := format, section_ := r.section_
    ignore := r.ignore, package := Config.orDefault Config.defaultPackage r.package
    exported := r.exported, withoutSupport := r.withoutSupport, strict := r.strict }

def generatedLog (r : Report) : LogRecord :=
  ⟨.info, "generated validators",
    [("mode", RunMode.generate.name), ("source", "<inline>"), ("package", r.package),
      ("schemas", Number.renderNat r.schemas.length),
      ("ignored", Number.renderNat r.ignored.length),
      ("files", Number.renderNat r.files.length), ("digest", r.digest)]⟩

def resultJson (r : Report) (files : List (String × Bytes)) : Json :=
  .obj (
    [("package", .str r.package),
      ("files", .obj (files.map fun (name, content) => (name, .str (Utf8.decode content)))),
      ("order", .arr (r.files.map .str)),
      ("schemas", if r.schemas.isEmpty then .null
        else .arr (r.schemas.map fun s => .obj [("name", .str s.name),
          ("validator", .str s.validator), ("type", .str s.type)]))]
    ++ (if r.ignored.isEmpty then [] else [("ignored", .arr (r.ignored.map .str))])
    ++ [("digest", .str r.digest)])

def compile (c : ServiceConfig) (web : Web) (r : CompileRequest) : Answer :=
  match document c web r with
  | (.error e, logs) => ⟨.error e, logs⟩
  | (.ok (bytes, format), logs) =>
    let run := Run.generate (configOf r bytes format) ⟨noFiles, web⟩ c.expired (Sink.memory [])
    match run.outcome with
    | .error e =>
      let reply := ErrorReply.ofRunError c.maskInternalErrors e
      ⟨.error reply,
        logs ++ if reply.code = .internal then [⟨.error, "compile failed", [("error", e.message)]⟩]
          else []⟩
    | .ok report => ⟨.ok (resultJson report run.sink.files), logs ++ [generatedLog report]⟩

def jsonHeader : String × String := ("Content-Type", "application/json")

def errorResponse (headers : List (String × String)) (e : ErrorReply) : Response :=
  ⟨e.code.status, headers ++ [jsonHeader], some e.toJson⟩

def resultResponse (result : Json) : Response :=
  ⟨200, [jsonHeader], some (.obj [("result", result)])⟩

def respond (headers : List (String × String)) : Except ErrorReply Json → Response
  | .ok result => resultResponse result
  | .error e => errorResponse headers e

def allowHeader (e : ErrorReply) : List (String × String) :=
  if e.code = .methodNotAllowed then [("Allow", "GET, POST")] else []

def handleCompile (c : ServiceConfig) (web : Web) (req : Request) : Response × List LogRecord :=
  match decode c req with
  | .error e => (errorResponse (allowHeader e) e, [])
  | .ok r =>
    let a := compile c web r
    (respond [] a.outcome, a.logs)

/-- Compile requests are limited. Once canceled, none is let through. -/
def limited (c : ServiceConfig) (web : Web) (canceled : Bool) (tokens : Tokens) (req : Request) :
    (Response × List LogRecord) × Tokens :=
  let (granted, tokens) :=
    if canceled then (false, tokens) else tokens.take c.effectiveBurst req.client
  if granted then (handleCompile c web req, tokens)
  else
    ((errorResponse [("Retry-After", "1")] ⟨.resourceExhausted, "rate limit exceeded", []⟩,
      [⟨.warn, "rate limit exceeded", [("client", req.client), ("path", req.path)]⟩]), tokens)

def route (c : ServiceConfig) (web : Web) (canceled : Bool) (tokens : Tokens) (req : Request) :
    (Response × List LogRecord) × Tokens :=
  match req.route with
  | ["", "v1", "compile"] => limited c web canceled tokens req
  | ["", "healthz"] => ((resultResponse (.obj [("status", .str "ok")]), []), tokens)
  | _ => ((errorResponse [] ⟨.notFound, "no route for " ++ req.path, []⟩, []), tokens)

/-- The headers by which pages of other origins may use the service. -/
def originHeaders (c : ServiceConfig) (req : Request) : List (String × String) :=
  if c.allowOrigins.contains "*" then [("Access-Control-Allow-Origin", "*")]
  else
    match req.header? "Origin" with
    | some origin =>
      if !origin.isEmpty && c.allowOrigins.contains origin then
        [("Access-Control-Allow-Origin", origin), ("Vary", "Origin")]
      else []
    | none => []

def preflight : Response :=
  ⟨204, [("Access-Control-Allow-Methods", "GET, POST, OPTIONS"),
    ("Access-Control-Allow-Headers", "Content-Type")], none⟩

def crossOrigin (c : ServiceConfig) (web : Web) (canceled : Bool) (tokens : Tokens) (req : Request) :
    (Response × List LogRecord) × Tokens :=
  if c.allowOrigins.isEmpty then route c web canceled tokens req
  else
    let ((response, logs), tokens) :=
      if req.method = "OPTIONS" then ((preflight, []), tokens) else route c web canceled tokens req
    (({ response with headers := originHeaders c req ++ response.headers }, logs), tokens)

def completedLog (req : Request) (status : Nat) : LogRecord :=
  ⟨if 500 ≤ status then .error else .info, "request completed",
    [("method", req.method), ("path", req.path), ("status", Number.renderNat status)]⟩

/-- Answers one request and logs it. -/
def handle (c : ServiceConfig) (web : Web) (canceled : Bool) (tokens : Tokens) (req : Request) :
    (Response × List LogRecord) × Tokens :=
  let ((response, logs), tokens) := crossOrigin c web canceled tokens req
  ((response, logs ++ [completedLog req response.status]), tokens)

end SchemaForge.Service
