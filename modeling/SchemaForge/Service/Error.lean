import SchemaForge.Run.Basic
import SchemaForge.Service.Body
import SchemaForge.Service.Http

/- How the service reports what went wrong. -/
namespace SchemaForge.Service

inductive ErrorCode where
  | invalidArgument
  | notFound
  | methodNotAllowed
  | resourceExhausted
  | canceled
  | internal
  | unavailable
  | deadlineExceeded
  deriving DecidableEq, Repr

def ErrorCode.name : ErrorCode → String
  | .invalidArgument => "invalid_argument"
  | .notFound => "not_found"
  | .methodNotAllowed => "method_not_allowed"
  | .resourceExhausted => "resource_exhausted"
  | .canceled => "canceled"
  | .internal => "internal"
  | .unavailable => "unavailable"
  | .deadlineExceeded => "deadline_exceeded"

def ErrorCode.status : ErrorCode → Nat
  | .invalidArgument => 400
  | .notFound => 404
  | .methodNotAllowed => 405
  | .resourceExhausted => 429
  | .canceled => 499
  | .internal => 500
  | .unavailable => 502
  | .deadlineExceeded => 504

structure ErrorReply where
  code : ErrorCode
  message : String
  details : List (String × String) := []
  deriving DecidableEq, Repr

namespace ErrorReply

def toJson (e : ErrorReply) : Json :=
  .obj [("error", .obj (
    [("code", .str e.code.name), ("message", .str e.message)]
    ++ if e.details.isEmpty then []
      else [("details", .obj (e.details.map fun (k, v) => (k, .str v)))]))]

def invalid (message : String) : ErrorReply := ⟨.invalidArgument, message, []⟩

def ofViolations (vs : List Config.Violation) : ErrorReply :=
  ⟨.invalidArgument, Config.violationsText vs, vs.map fun (f, r) => (f.name, r.message)⟩

/-- Names the kind of fault, and its schema and place where they are known. -/
def ofSchemaError (e : SchemaError) : ErrorReply :=
  ⟨.invalidArgument, e.message,
    ("reason", e.fault.group.code) :: ([("schema", e.schema), ("path", e.path)].filter
      fun (_, v) => !v.isEmpty)⟩

/-- A time limit is the one reason for which the service cancels work. -/
def timeout : ErrorReply := ⟨.deadlineExceeded, "request timeout", []⟩

/-- An error that is not the client's; its text may be withheld. -/
def internal (mask : Bool) (message : String) : ErrorReply :=
  ⟨.internal, if mask then "internal error" else message, []⟩

def ofCompileError (mask : Bool) : CompileError → ErrorReply
  | .schema e => ofSchemaError e
  | .canceled => timeout
  | e => internal mask e.message

def ofRunError (mask : Bool) (e : RunError) : ErrorReply :=
  match e with
  | .config vs => ofViolations vs
  | .parse .. => { invalid e.message with details := [("reason", "parse_error")] }
  | .select c | .compile c | .digest (.select c) => ofCompileError mask c
  | .subset (.schema s) => ofSchemaError s
  | .write _ .canceled => timeout
  | _ => internal mask e.message

/-- A document that is too large is the client's fault. Any other failure to get it is that of
    its server, unless the time was up anyway. -/
def ofFetchError (mask expired : Bool) (e : FetchError) : ErrorReply :=
  if e.isTooLarge then invalid FetchError.tooLargeText
  else if expired then internal mask e.message
  else ⟨.unavailable, e.message, []⟩

end ErrorReply

end SchemaForge.Service
