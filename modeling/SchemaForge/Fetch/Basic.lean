import SchemaForge.Fetch.Status
import SchemaForge.Fetch.Url
import SchemaForge.Files.Tree
import SchemaForge.Number.Integer

/- Getting a document from a local file or from the web. -/
namespace SchemaForge

inductive FetchError where
  | noSource
  | file (error : FileError)
  | fileRead (source : String) (error : FileError)
  | fileTooLarge (source : String)
  | url (source : String) (error : Url.Error)
  | transport (source address reason : String)
  | status (source : String) (code : Nat)
  | bodyTooLarge (source : String)
  deriving DecidableEq, Repr

namespace FetchError

def tooLargeText : String := "document too large"

def message : FetchError → String
  | .noSource => "no schema source given"
  | .file e => e.message
  | .fileRead source e => "read " ++ source ++ ": " ++ e.message
  | .fileTooLarge source => "read " ++ source ++ ": " ++ tooLargeText
  | .url source e => "fetch " ++ source ++ ": " ++ e.message
  | .transport source address reason =>
    "fetch " ++ source ++ ": Get " ++ Text.quoted address ++ ": " ++ reason
  | .status source code =>
    "fetch " ++ source ++ ": unexpected status " ++ Number.renderNat code ++ " " ++ Http.reason code
  | .bodyTooLarge source => "fetch " ++ source ++ ": " ++ tooLargeText

def isTooLarge : FetchError → Bool
  | .fileTooLarge _ | .bodyTooLarge _ => true
  | _ => false

end FetchError

/-- What the web answers to a request. -/
inductive WebReply where
  | failure (reason : String)
  | response (status : Nat) (body : Bytes)
  deriving DecidableEq, Repr

/-- The web as a function of the address. -/
abbrev Web := String → WebReply

namespace Fetch

def defaultLimit : Int64 := 33554432

/-- A limit that is not positive stands for the default. -/
def effectiveLimit (maxBytes : Int64) : Int64 := if maxBytes ≤ 0 then defaultLimit else maxBytes

/-- How many bytes are asked for: one more than the limit, in 64 bits. -/
def requested (maxBytes : Int64) : Int64 := effectiveLimit maxBytes + 1

/-- Asks for one byte more than the limit, so as to notice a longer document. -/
def readLimited (maxBytes : Int64) (content : Bytes) : Option Bytes :=
  let data := content.take (requested maxBytes).toInt.toNat
  if (effectiveLimit maxBytes).toInt < data.length then none else some data

/-- A request for no bytes succeeds without a look at the content. -/
def readFile (t : FileTree) (maxBytes : Int64) (source : String) : Except FetchError Bytes :=
  match t.find source with
  | .error f => .error (.file ⟨"open", source, f⟩)
  | .ok .directory =>
    if requested maxBytes ≤ 0 then .ok []
    else .error (.fileRead source ⟨"read", source, .isDirectory⟩)
  | .ok (.file content _) =>
    match readLimited maxBytes content with
    | none => .error (.fileTooLarge source)
    | some data => .ok data

def readWeb (web : Web) (maxBytes : Int64) (source scheme : String) (rest : List Char) :
    Except FetchError Bytes :=
  match Url.parse scheme rest with
  | .error e => .error (.url source e)
  | .ok u =>
    match web u.text with
    | .failure reason => .error (.transport source u.text reason)
    | .response code body =>
      if code < 200 || 299 < code then .error (.status source code)
      else
        match readLimited maxBytes body with
        | none => .error (.bodyTooLarge source)
        | some data => .ok data

/-- The document at a source, which is a local path or a web address. -/
def fetch (t : FileTree) (web : Web) (maxBytes : Int64) (source : String) : Except FetchError Bytes :=
  if source.isEmpty then .error .noSource
  else
    match Url.scheme? source with
    | none => readFile t maxBytes source
    | some (scheme, rest) => readWeb web maxBytes source scheme rest

end Fetch

end SchemaForge
