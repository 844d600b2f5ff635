import SchemaForge.Fetch.Url
import SchemaForge.Json.Basic

/- Requests and responses of the service, and the records it logs. -/
namespace SchemaForge.Service

structure Request where
  method : String
  target : String
  headers : List (String × String)
  remote : String
  body : Bytes
  deriving Repr

structure Response where
  status : Nat
  headers : List (String × String)
  body : Option Json
  deriving Repr

inductive LogLevel where
  | debug
  | info
  | warn
  | error
  deriving DecidableEq, Repr

def LogLevel.name : LogLevel → String
  | .debug => "DEBUG"
  | .info => "INFO"
  | .warn => "WARN"
  | .error => "ERROR"

structure LogRecord where
  level : LogLevel
  message : String
  attributes : List (String × String)
  deriving DecidableEq, Repr

namespace Request

/-- Names of headers have no case. -/
def header? (r : Request) (name : String) : Option String :=
  let fold (s : String) : List Char := s.toList.map Text.toLowerAscii
  (r.headers.find? fun (k, _) => fold k = fold name).map (·.2)

def rawPath (r : Request) : List Char := (Url.cut '?' r.target.toList).1

def unescaped (cs : List Char) : String :=
  match Url.unescapeText false cs with
  | .ok bytes => Utf8.decode bytes
  | .error _ => String.ofList cs

def path (r : Request) : String := unescaped r.rawPath

/-- The path cut at its slashes before escapes are taken out. -/
def route (r : Request) : List String := (Text.splitChars '/' r.rawPath).map unescaped

/-- A part of a query, where a plus sign is a blank. -/
def queryPart? (cs : List Char) : Option String :=
  match Url.unescapeText false (cs.map fun c => if c = '+' then ' ' else c) with
  | .ok bytes => some (Utf8.decode bytes)
  | .error _ => none

/-- A pair of a query. One that holds a semicolon or a broken escape is left out. -/
def queryPair? (cs : List Char) : Option (String × String) :=
  if cs.isEmpty || cs.contains ';' then none
  else
    let (key, value) := Url.cut '=' cs
    do return (← queryPart? key, ← queryPart? (value.getD []))

def gather (key value : String) : List (String × List String) → List (String × List String)
  | [] => [(key, [value])]
  | (k, vs) :: rest => if k = key then (k, vs ++ [value]) :: rest else (k, vs) :: gather key value rest

/-- The values of each key of the query, in order. -/
def query (r : Request) : List (String × List String) :=
  ((Text.splitChars '&' ((Url.cut '?' r.target.toList).2.getD [])).filterMap queryPair?).foldl
    (fun acc (k, v) => gather k v acc) []

/-- The host of an address `host:port` or `[host]:port`, if it is one. -/
def splitHost? (address : List Char) : Option (List Char) :=
  if !address.contains ':' then none
  else
    match address with
    | '[' :: rest =>
      match Url.cut ']' rest with
      | (host, some (':' :: port)) =>
        if port.contains ':' || host.contains '[' || port.contains '[' || port.contains ']' then none
        else some host
      | _ => none
    | _ =>
      let port := (address.reverse.takeWhile (· ≠ ':')).reverse
      let host := address.take (address.length - port.length - 1)
      if host.contains ':' || address.contains '[' || address.contains ']' then none else some host

/-- Who sends a request: the address without its port. -/
def client (r : Request) : String :=
  match splitHost? r.remote.toList with
  | some host => String.ofList host
  | none => r.remote

end Request

end SchemaForge.Service
