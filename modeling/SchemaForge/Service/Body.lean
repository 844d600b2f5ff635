import SchemaForge.Json.Token

/- Reading the body of a compile request. Values are checked only as far as they are used: the
   document is cut out as it stands, and members that mean nothing are passed over. -/
namespace SchemaForge.Service

/-- What a client asks for. A document is the text of a JSON value. -/
structure CompileRequest where
  source : String := ""
  document : Option Bytes := none
  format : String := ""
  section_ : String := ""
  ignore : List String := []
  package : String := ""
  exported : Bool := false
  strict : Bool := false
  withoutSupport : Bool := false
  deriving Repr

inductive BodyError where
  | empty
  | beginning (byte : UInt8)
  | ended (place : String)
  | expected (what : String)
  | wrongType (found field type : String)
  | text (error : Json.ReadError)
  deriving DecidableEq, Repr

def BodyError.message : BodyError → String
  | .empty => "EOF"
  | .beginning byte =>
    "invalid character '" ++ String.singleton (Char.ofNat byte.toNat)
      ++ "' looking for beginning of value"
  | .ended place => "json: " ++ place ++ " unexpected end of JSON input"
  | .expected what => "expected " ++ what
  | .wrongType found field type =>
    "json: cannot unmarshal " ++ found ++ " into Go struct field CompileRequest." ++ field
      ++ " of type " ++ type
  | .text e => e.message

namespace Body

open Json.Lexer

abbrev Read (α : Type) := Except BodyError (α × Bytes)

def skipBlanks (text : Bytes) : Bytes := text.dropWhile isBlank

def first (text : Bytes) : UInt8 := text.head?.getD 0

/-- What follows the closing quote of a string. -/
def afterString? : Bytes → Option Bytes
  | [] => none
  | 92 :: [] => none
  | 92 :: _ :: rest => afterString? rest
  | 34 :: rest => some rest
  | _ :: rest => afterString? rest

/-- Where a walk through a bracketed value stands. -/
inductive Inside where
  | value
  | string
  | escape
  deriving DecidableEq, Repr

/-- What follows the bracket that closes a value. Only brackets of its own kind are counted. -/
def afterClosing (opening closing : UInt8) (place : String) :
    Nat → Inside → Bytes → Except BodyError Bytes
  | _, .value, [] => .error (.ended place)
  | _, _, [] => .error (.ended "string of object")
  | depth, .escape, _ :: rest => afterClosing opening closing place depth .string rest
  | depth, .string, b :: rest =>
    if b = 92 then afterClosing opening closing place depth .escape rest
    else if b = 34 then afterClosing opening closing place depth .value rest
    else afterClosing opening closing place depth .string rest
  | depth, .value, b :: rest =>
    if b = 34 then afterClosing opening closing place depth .string rest
    else if b = opening then afterClosing opening closing place (depth + 1) .value rest
    else if b = closing then
      match depth with
      | 0 => .ok rest
      | depth + 1 => afterClosing opening closing place depth .value rest
    else afterClosing opening closing place depth .value rest

def word (w : Json.Word) (rest : Bytes) : Except BodyError Bytes :=
  (matchWord w w.tail rest).mapError .text

/-- What follows a value. -/
def afterValue (text : Bytes) : Except BodyError Bytes :=
  match skipBlanks text with
  | [] => .error (.ended "value of object")
  | b :: rest =>
    if b = 123 then afterClosing 123 125 "object of object" 0 .value rest
    else if b = 91 then afterClosing 91 93 "array of object" 0 .value rest
    else if b = 34 then
      match afterString? rest with
      | some rest => .ok rest
      | none => .error (.ended "value of string")
    else if startsNumber b then .ok (rest.dropWhile inNumber)
    else if b = 116 then word .true rest
    else if b = 102 then word .false rest
    else if b = 110 then word .null rest
    else .error (.beginning b)

/-- The text of a value, blanks in front included. -/
def rawValue (text : Bytes) : Read Bytes :=
  (afterValue text).map fun rest => (text.take (text.length - rest.length), rest)

/-- A string; null leaves what was there. -/
def string (field old : String) (text : Bytes) : Read String :=
  match skipBlanks text with
  | [] => .error (.beginning 0)
  | b :: rest =>
    if b = 34 then (stringOnto [] 0 rest).mapError .text
    else if b = 91 then .error (.wrongType "array" field "string")
    else if b = 123 then .error (.wrongType "object" field "string")
    else if startsNumber b then .error (.wrongType "number" field "string")
    else if b = 110 then (word .null rest).map fun rest => (old, rest)
    else .error (.beginning b)

def bool (old : Bool) (text : Bytes) : Read Bool :=
  match skipBlanks text with
  | [] => .error (.ended "bool")
  | b :: rest =>
    if b = 116 then (word .true rest).map fun rest => (true, rest)
    else if b = 102 then (word .false rest).map fun rest => (false, rest)
    else if b = 110 then (word .null rest).map fun rest => (old, rest)
    else .error (.ended "bool")

/-- The strings of a list, last first; every one takes a byte. -/
def stringsOnto (field : String) : Nat → List String → Bytes → Except BodyError (List String × Bytes)
  | 0, _, _ => .error (.ended "slice")
  | fuel + 1, acc, text => do
    let (s, rest) ← string field "" text
    match skipBlanks rest with
    | 93 :: rest => return ((s :: acc).reverse, rest)
    | 44 :: rest => stringsOnto field fuel (s :: acc) rest
    | _ => throw (.ended "slice")

def strings (field : String) (text : Bytes) : Read (List String) :=
  match skipBlanks text with
  | [] => .error (.ended "slice")
  | b :: rest =>
    if b = 91 then
      match skipBlanks rest with
      | 93 :: rest => .ok ([], rest)
      | rest => stringsOnto field rest.length [] rest
    else if b = 110 then (word .null rest).map fun rest => ([], rest)
    else if startsNumber b then .error (.wrongType "number" field "[]string")
    else .error (.ended "slice")

/-- Names of members have no case. -/
def member (r : CompileRequest) (key : String) (text : Bytes) : Read CompileRequest :=
  match String.ofList (key.toList.map Text.toLowerAscii) with
  | "source" => (string "Source" r.source text).map fun (s, rest) => ({ r with source := s }, rest)
  | "document" => (rawValue text).map fun (d, rest) => ({ r with document := some d }, rest)
  | "format" => (string "Format" r.format text).map fun (s, rest) => ({ r with format := s }, rest)
  | "schemapath" =>
    (string "SchemaPath" r.section_ text).map fun (s, rest) => ({ r with section_ := s }, rest)
  | "ignore" => (strings "Ignore" text).map fun (l, rest) => ({ r with ignore := l }, rest)
  | "package" => (string "Package" r.package text).map fun (s, rest) => ({ r with package := s }, rest)
  | "export" => (bool r.exported text).map fun (b, rest) => ({ r with exported := b }, rest)
  | "strict" => (bool r.strict text).map fun (b, rest) => ({ r with strict := b }, rest)
  | "withoutruntime" =>
    (bool r.withoutSupport text).map fun (b, rest) => ({ r with withoutSupport := b }, rest)
  | _ => (afterValue text).map fun rest => (r, rest)

/-- The name of a member, empty if its escapes are broken. -/
def key (text : Bytes) : Read String :=
  match skipBlanks text with
  | [] => .error (.beginning 0)
  | b :: rest =>
    if b = 34 then
      match afterString? rest with
      | none => .error (.ended "string")
      | some after =>
        match stringOnto [] 0 rest with
        | .ok (name, _) => .ok (name, after)
        | .error _ => .ok ("", after)
    else .error (.beginning b)

/-- The members of the object; every one takes a byte. -/
def members : Nat → CompileRequest → Bytes → Except BodyError CompileRequest
  | 0, _, _ => .error .empty
  | fuel + 1, r, text => do
    let (name, rest) ← key text
    match skipBlanks rest with
    | 58 :: rest =>
      let (r, rest) ← member r name rest
      match skipBlanks rest with
      | 125 :: _ => return r
      | 44 :: rest => members fuel r rest
      | _ => throw (.expected "comma after object element")
    | _ => throw (.expected "colon after object key")

def object (text : Bytes) : Except BodyError CompileRequest :=
  match skipBlanks text with
  | 110 :: rest => (word .null rest).map fun _ => {}
  | 123 :: rest =>
    match skipBlanks rest with
    | 125 :: _ => .ok {}
    | rest => members (rest.length + 1) {} rest
  | rest => .error (.beginning (first rest))

/-- Reads a request; what follows the object does not count, nor a separator in front of it. -/
def decode (body : Bytes) : Except BodyError CompileRequest :=
  match skipBlanks (body.takeWhile (· ≠ 0)) with
  | [] => .error .empty
  | b :: rest => object (if isSeparator b then rest else b :: rest)

end Body

end SchemaForge.Service
