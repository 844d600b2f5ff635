import SchemaForge.Json.Reader
import SchemaForge.Number.Double
import SchemaForge.Number.Integer

/- Number literals of a document have to be JSON before they can be digested. -/
namespace SchemaForge

inductive LiteralFault where
  | unexpectedEnd
  | invalid (byte : UInt8) (context : String)
  deriving DecidableEq, Repr

namespace LiteralFault

def byteText (b : UInt8) : String :=
  if b = 0x27 then "'\\''" else if b = 0x22 then "'\"'"
  else
    let q := Text.quotedChars [Char.ofNat b.toNat]
    String.ofList ('\'' :: ((q.drop 1).dropLast ++ ['\'']))

def message : LiteralFault → String
  | .unexpectedEnd => "unexpected end of JSON input"
  | .invalid b context => "invalid character " ++ byteText b ++ " " ++ context

end LiteralFault

namespace Literal

def isBlank (b : UInt8) : Bool := b = 0x20 || b = 0x09 || b = 0x0a || b = 0x0d

def isDigit (b : UInt8) : Bool := 0x30 ≤ b && b ≤ 0x39

/-- Nothing but blanks may follow a value. -/
def finished : Bytes → Option LiteralFault
  | [] => none
  | b :: rest => if isBlank b then finished rest else some (.invalid b "after top-level value")

def exponentDigits : Bytes → Option LiteralFault
  | [] => some .unexpectedEnd
  | b :: rest =>
    if isDigit b then finished (rest.dropWhile isDigit)
    else some (.invalid b "in exponent of numeric literal")

/-- What may follow the digits of a number: an exponent or the end. -/
def afterDigits : Bytes → Option LiteralFault
  | [] => none
  | b :: rest =>
    if b = 0x65 || b = 0x45 then
      match rest with
      | [] => some .unexpectedEnd
      | s :: rest => if s = 0x2b || s = 0x2d then exponentDigits rest else exponentDigits (s :: rest)
    else finished (b :: rest)

def afterWhole : Bytes → Option LiteralFault
  | 0x2e :: [] => some .unexpectedEnd
  | 0x2e :: b :: rest =>
    if isDigit b then afterDigits (rest.dropWhile isDigit)
    else some (.invalid b "after decimal point in numeric literal")
  | s => afterDigits s

/-- A number without its sign. -/
def number : Bytes → Option LiteralFault
  | [] => some .unexpectedEnd
  | b :: rest =>
    if b = 0x30 then afterWhole rest
    else if isDigit b then afterWhole (rest.dropWhile isDigit)
    else some (.invalid b "in numeric literal")

/-- The letters of a word after its first. -/
def word (name : String) : List Char → Bytes → Option LiteralFault
  | [], s => finished s
  | _ :: _, [] => some .unexpectedEnd
  | c :: cs, b :: rest =>
    if b.toNat = c.toNat then word name cs rest
    else some (.invalid b ("in literal " ++ name ++ " (expecting '" ++ String.ofList [c] ++ "')"))

def isHex (b : UInt8) : Bool :=
  isDigit b || (0x61 ≤ b && b ≤ 0x66) || (0x41 ≤ b && b ≤ 0x46)

/-- A string after its quote. `hex` counts the digits that an escape still needs. -/
def string : Nat → Bool → Bytes → Option LiteralFault
  | _, _, [] => some .unexpectedEnd
  | hex + 1, _, b :: rest =>
    if isHex b then string hex false rest
    else some (.invalid b "in \\u hexadecimal character escape")
  | 0, true, b :: rest =>
    if b = 0x75 then string 4 false rest
    else if [0x62, 0x66, 0x6e, 0x72, 0x74, 0x5c, 0x2f, 0x22].contains b then string 0 false rest
    else some (.invalid b "in string escape code")
  | 0, false, b :: rest =>
    if b = 0x22 then finished rest
    else if b = 0x5c then string 0 true rest
    else if b < 0x20 then some (.invalid b "in string literal")
    else string 0 false rest

/-- Why a text is not a JSON scalar. -/
def fault? : Bytes → Option LiteralFault
  | [] => some .unexpectedEnd
  | b :: rest =>
    if isBlank b then fault? rest
    else if b = 0x2d then number rest
    else if isDigit b then number (b :: rest)
    else if b = 0x22 then string 0 false rest
    else if b = 0x74 then word "true" ['r', 'u', 'e'] rest
    else if b = 0x66 then word "false" ['a', 'l', 's', 'e'] rest
    else if b = 0x6e then word "null" ['u', 'l', 'l'] rest
    else some (.invalid b "looking for beginning of value")

/- A number as sign, coefficient and exponent. -/
structure Parts where
  negative : Bool
  coefficient : Nat
  exponent : Int
  deriving DecidableEq, Repr

/-- The parts of a number that is JSON. -/
def parts (text : String) : Parts :=
  let cs := text.toList
  let negative := cs.head? == some '-'
  let cs := if negative then cs.drop 1 else cs
  let isMark (c : Char) : Bool := c = 'e' || c = 'E'
  let body := cs.takeWhile fun c => !isMark c
  let exponent := (Number.parseInt ((cs.dropWhile fun c => !isMark c).drop 1)).getD 0
  let whole := body.takeWhile (· ≠ '.')
  let fraction := (body.dropWhile (· ≠ '.')).drop 1
  ⟨negative, (Number.natOnto 0 (whole ++ fraction)).getD 0, exponent - fraction.length⟩

/-- The nearest double without its sign; none beyond the range. -/
def double? (text : String) : Option Number.Double :=
  let p := parts text
  Number.Double.ofDecimal p.coefficient p.exponent

def isWholeNumber (text : String) : Bool :=
  let p := parts text
  if 0 ≤ p.exponent || p.coefficient = 0 then true
  else
    let places := (-p.exponent).toNat
    places ≤ (Nat.toDigits 10 p.coefficient).length && p.coefficient % Number.tenPow places = 0

end Literal

end SchemaForge
