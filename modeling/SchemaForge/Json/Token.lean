import SchemaForge.Json.Basic
import SchemaForge.Text.Utf8
import SchemaForge.Text.Quoted

/- The lexemes of JSON text. Blanks are skipped, and so are commas and colons: a lexeme only
   records whether one of these separators came before it, which is all the readers look at.
   A number is any run of number characters, and a zero byte ends the text. -/
namespace SchemaForge.Json

inductive Token where
  | openObject
  | closeObject
  | openArray
  | closeArray
  | null
  | bool (b : Bool)
  | number (text : String)
  | string (text : String)
  deriving DecidableEq, Repr

namespace Token

def isCloser : Token → Bool
  | .closeObject | .closeArray => true
  | _ => false

def delimiter? : Token → Option Char
  | .openObject => some '\x7b'
  | .closeObject => some '\x7d'
  | .openArray => some '['
  | .closeArray => some ']'
  | _ => none

/-- How a token is named in messages: bare, without quotes. -/
def plain : Token → String
  | .openObject => "\x7b"
  | .closeObject => "\x7d"
  | .openArray => "["
  | .closeArray => "]"
  | .null => "<nil>"
  | .bool b => if b then "true" else "false"
  | .number text => text
  | .string text => text

end Token

inductive Word where
  | true
  | false
  | null
  deriving DecidableEq, Repr

namespace Word

def text : Word → String
  | .true => "true"
  | .false => "false"
  | .null => "null"

def title : Word → String
  | .true => "bool(true)"
  | .false => "bool(false)"
  | .null => "null"

def token : Word → Token
  | .true => .bool Bool.true
  | .false => .bool Bool.false
  | .null => .null

/-- What has to follow the first letter. -/
def tail : Word → Bytes
  | .true => [114, 117, 101]
  | .false => [97, 108, 115, 101]
  | .null => [117, 108, 108]

end Word

inductive ReadError where
  | endOfText
  | unexpectedEnd
  | badByte (byte : UInt8)
  | badWord (word : Word) (byte : Option UInt8)
  | brokenString
  | cutEscape (byte : Option UInt8)
  | strayDelimiter (mark : Char)
  | keyExpected (found : Token)
  | trailing (found : Token)
  deriving DecidableEq, Repr

namespace ReadError

def invalidByte (byte : Option UInt8) (place : String) : String :=
  match byte with
  | none => "json: invalid character as " ++ place
  | some b => "json: invalid character " ++ String.singleton (Char.ofNat b.toNat) ++ " as " ++ place

def message : ReadError → String
  | .endOfText => "EOF"
  | .unexpectedEnd => "unexpected EOF"
  | .badByte b => invalidByte (some b) "token"
  | .badWord word byte => invalidByte byte word.title
  | .brokenString => "json: string unexpected end of JSON input"
  | .cutEscape byte => invalidByte byte "escaped string"
  | .strayDelimiter mark => "unexpected delimiter " ++ Text.quotedChar mark
  | .keyExpected found => "expected object key, found " ++ found.plain
  | .trailing found => "unexpected " ++ found.plain ++ " after top-level value"

end ReadError

structure Lexeme where
  separated : Bool
  token : Token
  deriving DecidableEq, Repr

/-- How a text ends after its last lexeme. -/
inductive Finish where
  | ended (separated : Bool)
  | failed (error : ReadError)
  deriving DecidableEq, Repr

structure Lexemes where
  items : List Lexeme
  finish : Finish
  deriving DecidableEq, Repr

namespace Lexer

def isBlank (b : UInt8) : Bool := b = 32 || b = 9 || b = 10 || b = 13

def isSeparator (b : UInt8) : Bool := b = 44 || b = 58

def isAsciiDigit (b : UInt8) : Bool := 48 ≤ b && b ≤ 57

def startsNumber (b : UInt8) : Bool := b = 45 || isAsciiDigit b

/-- Digits, point, exponent marks and signs, in any order. -/
def inNumber (b : UInt8) : Bool :=
  isAsciiDigit b || b = 46 || b = 101 || b = 69 || b = 43 || b = 45

/-- Matches the rest of a word. One byte may be missing when the text ends before it. -/
def matchWord (word : Word) : Bytes → Bytes → Except ReadError Bytes
  | [], text => .ok text
  | [_], [] => .ok []
  | _ :: _, [] => .error (.badWord word none)
  | w :: ws, b :: text =>
    if w = b then matchWord word ws text else .error (.badWord word (some b))

def hexNibble (b : UInt8) : Nat := (Text.hexValue? (Char.ofNat b.toNat)).getD 0

/-- Four hexadecimal digits; a byte that is none counts as zero. -/
def hexUnit (a b c d : UInt8) : Nat :=
  hexNibble a * 4096 + hexNibble b * 256 + hexNibble c * 16 + hexNibble d

def isSurrogate (n : Nat) : Bool := 0xd800 ≤ n && n < 0xe000

def surrogatePair? (high low : Nat) : Option Char :=
  if 0xd800 ≤ high && high < 0xdc00 && 0xdc00 ≤ low && low < 0xe000 then
    some (Char.ofNat ((high - 0xd800) * 0x400 + (low - 0xdc00) + 0x10000))
  else none

/-- The character of an escape that names a code unit, and the bytes it takes after the letter.
    A surrogate that is not the first half of a written pair becomes the replacement character,
    and a pair counts only if some byte follows it. -/
def unicodeEscape : Bytes → Except ReadError (Char × Nat)
  | a :: b :: c :: d :: e :: rest =>
    let unit := hexUnit a b c d
    if isSurrogate unit then
      match e, rest with
      | 92, u :: p :: q :: r :: s :: _ :: _ =>
        if u = 117 then
          match surrogatePair? unit (hexUnit p q r s) with
          | some ch => .ok (ch, 10)
          | none => .ok (Utf8.replacement, 4)
        else .ok (Utf8.replacement, 4)
      | _, _ => .ok (Utf8.replacement, 4)
    else .ok (Char.ofNat unit, 4)
  | _ => .error (.cutEscape (some 117))

/-- The character written by what follows a backslash, and the bytes it takes. -/
def escape : Bytes → Except ReadError (Char × Nat)
  | [] => .error (.cutEscape none)
  | b :: rest =>
    if b = 34 || b = 92 || b = 47 then .ok (Char.ofNat b.toNat, 1)
    else if b = 98 then .ok (Char.ofNat 8, 1)
    else if b = 102 then .ok (Char.ofNat 12, 1)
    else if b = 110 then .ok ('\n', 1)
    else if b = 114 then .ok ('\r', 1)
    else if b = 116 then .ok ('\t', 1)
    else if b = 117 then (unicodeEscape rest).map fun (ch, n) => (ch, n + 1)
    else .error .brokenString

/-- Reads a string body up to its closing quote, after `skip` bytes that are already used. -/
def stringOnto (acc : Bytes) : Nat → Bytes → Except ReadError (String × Bytes)
  | _, [] => .error .brokenString
  | skip + 1, _ :: rest => stringOnto acc skip rest
  | 0, b :: rest =>
    if b = 34 then .ok (Utf8.decode acc.reverse, rest)
    else if b = 92 then
      match escape rest with
      | .error e => .error e
      | .ok (ch, n) => stringOnto ((Utf8.encodeChars [ch]).reverse ++ acc) n rest
    else stringOnto (b :: acc) 0 rest

inductive Step where
  | lexeme (item : Lexeme) (rest : Bytes)
  | finish (last : Finish)

def word (separated : Bool) (w : Word) (rest : Bytes) : Step :=
  match matchWord w w.tail rest with
  | .ok rest => .lexeme ⟨separated, w.token⟩ rest
  | .error e => .finish (.failed e)

/-- The next lexeme; `separated` tells whether a separator was passed already. -/
def next (separated : Bool) : Bytes → Step
  | [] => .finish (.ended separated)
  | b :: rest =>
    if isBlank b then next separated rest
    else if isSeparator b then next true rest
    else if b = 123 then .lexeme ⟨separated, .openObject⟩ rest
    else if b = 125 then .lexeme ⟨separated, .closeObject⟩ rest
    else if b = 91 then .lexeme ⟨separated, .openArray⟩ rest
    else if b = 93 then .lexeme ⟨separated, .closeArray⟩ rest
    else if startsNumber b then
      .lexeme ⟨separated, .number (Utf8.decode (b :: rest.takeWhile inNumber))⟩
        (rest.dropWhile inNumber)
    else if b = 34 then
      match stringOnto [] 0 rest with
      | .ok (text, rest) => .lexeme ⟨separated, .string text⟩ rest
      | .error e => .finish (.failed e)
    else if b = 116 then word separated .true rest
    else if b = 102 then word separated .false rest
    else if b = 110 then word separated .null rest
    else .finish (.failed (.badByte b))

/-- Collects lexemes; every one takes a byte, so the length of the text is fuel enough. -/
def collect : Nat → List Lexeme → Bytes → Lexemes
  | 0, acc, _ => ⟨acc.reverse, .ended false⟩
  | fuel + 1, acc, text =>
    match next false text with
    | .lexeme item rest => collect fuel (item :: acc) rest
    | .finish last => ⟨acc.reverse, last⟩

end Lexer

def lexemes (text : Bytes) : Lexemes :=
  let visible := text.takeWhile (· ≠ 0)
  Lexer.collect (visible.length + 1) [] visible

end SchemaForge.Json
