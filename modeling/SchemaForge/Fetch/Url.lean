import SchemaForge.Text.Quoted
import SchemaForge.Text.Utf8

/- Web addresses: taking them apart, and the form in which they are sent. -/
namespace SchemaForge

structure Url where
  scheme : String
  user : Option String
  host : String
  path : String
  query : Option String
  fragment : Option String
  deriving DecidableEq, Repr

namespace Url

inductive Fault where
  | control
  | escape (text : String)
  | hostChar (c : Char)
  | openBracket
  | port (text : String)
  | userinfo
  deriving DecidableEq, Repr

def Fault.message : Fault → String
  | .control => "net/url: invalid control character in URL"
  | .escape text => "invalid URL escape " ++ Text.quoted text
  | .hostChar c => "invalid character " ++ Text.quoted c.toString ++ " in host name"
  | .openBracket => "missing ']' in host"
  | .port text => "invalid port " ++ Text.quoted text ++ " after host"
  | .userinfo => "net/url: invalid userinfo"

/-- An address that cannot be used; of one with a fragment, the part that was looked at. -/
structure Error where
  url : String
  fault : Fault
  deriving DecidableEq, Repr

def Error.message (e : Error) : String := "parse " ++ Text.quoted e.url ++ ": " ++ e.fault.message

def isAlphanumeric (c : Char) : Bool :=
  ('a' ≤ c && c ≤ 'z') || ('A' ≤ c && c ≤ 'Z') || ('0' ≤ c && c ≤ '9')

def isUnreserved (c : Char) : Bool := isAlphanumeric c || "-_.~".toList.contains c

def isHostChar (c : Char) : Bool := isUnreserved c || "!$&'()*+,;=:[]<>\"".toList.contains c

/-- Characters of a path that are never escaped. -/
def isPathChar (c : Char) : Bool := isUnreserved c || "$&+,/:;=@".toList.contains c

/-- Characters that a path may hold as they are, if it is given like that. -/
def isGivenPathChar (c : Char) : Bool := isPathChar c || "!'()*[]%".toList.contains c

def isFragmentChar (c : Char) : Bool := isPathChar c || "!()*?".toList.contains c

def isGivenFragmentChar (c : Char) : Bool := isFragmentChar c || "'[]%".toList.contains c

def isUserChar (c : Char) : Bool := isAlphanumeric c || "-._:~!$&'()*+,;=%@".toList.contains c

def isAscii (c : Char) : Bool := c.toNat < 0x80

def percentValue? : List Char → Option Nat
  | a :: b :: _ => do return (← Text.hexValue? a) * 16 + (← Text.hexValue? b)
  | _ => none

/-- Takes out the escapes. In a host only bytes beyond ASCII and the percent sign may be escaped,
    and of ASCII only its own characters may stand. -/
def unescape (host : Bool) : Nat → List Char → Except Fault Bytes
  | _, [] => .ok []
  | 0, _ :: _ => .ok []
  | fuel + 1, '%' :: rest =>
    match percentValue? rest with
    | none => .error (.escape (String.ofList ('%' :: rest.take 2)))
    | some n =>
      if host && n < 0x80 && n ≠ 0x25 then .error (.escape (String.ofList ('%' :: rest.take 2)))
      else (unescape host fuel (rest.drop 2)).map (UInt8.ofNat n :: ·)
  | fuel + 1, c :: rest =>
    if host && isAscii c && !isHostChar c then .error (.hostChar c)
    else (unescape host fuel rest).map (Utf8.encode c.toString ++ ·)

def unescapeText (host : Bool) (cs : List Char) : Except Fault Bytes := unescape host cs.length cs

def escapeByte (b : UInt8) : List Char :=
  ['%', (Text.hexDigit (b.toNat / 16)).toUpper, (Text.hexDigit (b.toNat % 16)).toUpper]

def escape (keep : Char → Bool) (bytes : Bytes) : String :=
  String.ofList (bytes.flatMap fun b =>
    let c := Char.ofNat b.toNat
    if b < 0x80 && keep c then [c] else escapeByte b)

/-- A part that has only characters it may be given with stays as it is; any other is escaped
    anew throughout. -/
def normalForm (given keep : Char → Bool) (cs : List Char) : Except Fault String :=
  match unescapeText false cs with
  | .error f => .error f
  | .ok bytes => .ok (if cs.all given then String.ofList cs else escape keep bytes)

def isPort : List Char → Bool
  | [] => true
  | c :: digits => c = ':' && digits.all fun d => '0' ≤ d && d ≤ '9'

/-- What follows the last occurrence of a character, if there is one. -/
def afterLast? (sep : Char) (cs : List Char) : Option (List Char) :=
  if cs.contains sep then some (cs.reverse.takeWhile (· ≠ sep)).reverse else none

def checkPort (cs : List Char) : Except Fault Unit :=
  if isPort cs then .ok () else .error (.port (String.ofList cs))

def checkHostPort (cs : List Char) : Except Fault Unit :=
  if cs.contains '[' then
    match afterLast? ']' cs with
    | none => .error .openBracket
    | some port => checkPort port
  else checkPort (cs.dropWhile (· ≠ ':'))

def hostOf (cs : List Char) : Except Fault String := do
  checkHostPort cs
  let bytes ← unescapeText true cs
  return escape isHostChar bytes

def authority (cs : List Char) : Except Fault (Option String × String) :=
  match afterLast? '@' cs with
  | none => (hostOf cs).map fun h => (none, h)
  | some h => do
    let h ← hostOf h
    let user := (cs.reverse.dropWhile (· ≠ '@')).tail.reverse
    if user.all isUserChar then return (some (String.ofList user), h) else throw .userinfo

def isControl (c : Char) : Bool := c.toNat < 0x20 || c.toNat = 0x7f

/-- Cuts at the first occurrence of a character, which goes with neither part. -/
def cut (sep : Char) (cs : List Char) : List Char × Option (List Char) :=
  match cs.dropWhile (· ≠ sep) with
  | [] => (cs, none)
  | _ :: rest => (cs.takeWhile (· ≠ sep), some rest)

def parseParts (scheme : String) (cs : List Char) (fragment : Option String) : Except Fault Url := do
  if cs.any isControl || scheme.toList.any isControl then throw .control
  let (place, query) := cut '?' cs
  let (user, host) ← authority (place.takeWhile (· ≠ '/'))
  let path ← normalForm isGivenPathChar isPathChar (place.dropWhile (· ≠ '/'))
  return ⟨scheme, user, host, path, query.map String.ofList, fragment⟩

/-- Whether a source names a web resource. -/
def scheme? (source : String) : Option (String × List Char) :=
  match Text.dropPrefix? "http://".toList source.toList with
  | some rest => some ("http", rest)
  | none => (Text.dropPrefix? "https://".toList source.toList).map fun rest => ("https", rest)

/-- Parses an address of one of the two web schemes. -/
def parse (scheme : String) (rest : List Char) : Except Error Url :=
  let whole := scheme ++ "://" ++ String.ofList rest
  let (main, fragment) := cut '#' rest
  match parseParts scheme main none with
  | .error f => .error ⟨scheme ++ "://" ++ String.ofList main, f⟩
  | .ok u =>
    match fragment with
    | none | some [] => .ok u
    | some cs =>
      match normalForm isGivenFragmentChar isFragmentChar cs with
      | .error f => .error ⟨whole, f⟩
      | .ok text => .ok { u with fragment := some text }

/-- Whether a text is an address of one of the two web schemes, in any case, with a host. -/
def isWebAddress (source : String) : Bool :=
  match scheme? (String.ofList (source.toList.map Text.toLowerAscii)) with
  | none => false
  | some (scheme, rest) =>
    match parse scheme rest with
    | .ok u => !u.host.isEmpty
    | .error _ => false

/-- A colon without a port after it is left out. -/
def withoutEmptyPort (host : String) : String :=
  let cs := host.toList
  if cs.getLast? = some ':' then String.ofList cs.dropLast else host

/-- The form in which an address is sent. -/
def text (u : Url) : String :=
  u.scheme ++ "://" ++ (match u.user with | none => "" | some user => user ++ "@")
    ++ withoutEmptyPort u.host ++ u.path
    ++ (match u.query with | none => "" | some q => "?" ++ q)
    ++ (match u.fragment with | none => "" | some f => "#" ++ f)

end Url

end SchemaForge
