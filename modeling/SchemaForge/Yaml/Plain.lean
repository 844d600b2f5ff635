import SchemaForge.Number.Integer
import SchemaForge.Number.Power
import SchemaForge.Text.Chars

/- The type of a plain scalar: null, boolean, number or string, decided by its spelling. -/
namespace SchemaForge.Yaml

inductive ScalarType where
  | null
  | bool
  | int
  | float
  | str
  | other (tag : String)
  deriving DecidableEq, Repr

namespace ScalarType

def tag : ScalarType → String
  | .null => "!!null"
  | .bool => "!!bool"
  | .int => "!!int"
  | .float => "!!float"
  | .str => "!!str"
  | .other tag => tag

def longStem : String := "tag:yaml.org,2002:"

def ofShortTag (tag : String) : ScalarType :=
  if tag = "!!null" then .null
  else if tag = "!!bool" then .bool
  else if tag = "!!int" then .int
  else if tag = "!!float" then .float
  else if tag = "!!str" then .str
  else .other tag

def ofTag (tag : String) : ScalarType :=
  match Text.dropPrefix? longStem.toList tag.toList with
  | some rest => ofShortTag ("!!" ++ String.ofList rest)
  | none => ofShortTag tag

end ScalarType

namespace Plain

def bool? (text : String) : Option Bool :=
  if text = "true" || text = "True" || text = "TRUE" then some true
  else if text = "false" || text = "False" || text = "FALSE" then some false
  else none

def isNull (text : String) : Bool :=
  text = "" || text = "~" || text = "null" || text = "Null" || text = "NULL"

def isSpecialFloat (text : String) : Bool :=
  [".nan", ".NaN", ".NAN", ".inf", ".Inf", ".INF", "+.inf", "+.Inf", "+.INF", "-.inf", "-.Inf",
    "-.INF"].contains text

/-- The digits of a number in some base, if all of them are digits. -/
def natInBase? (base : Nat) (digits : List Char) : Option Nat :=
  if digits.isEmpty then none
  else
    digits.foldl (fun acc d => do
      let n ← acc
      let v ← Text.hexValue? d
      if v < base then some (n * base + v) else none) (some 0)

/-- An integer in the given base with an optional sign, within 64 bits. -/
def wordInBase (base : Nat) (cs : List Char) : Bool :=
  match cs with
  | '-' :: digits => (natInBase? base digits).any (· ≤ Number.twoPow 63)
  | '+' :: digits => (natInBase? base digits).any (· < Number.twoPow 63)
  | digits => (natInBase? base digits).any (· < Number.twoPow 64)

def signed : List Char → List Char × List Char
  | '-' :: rest => (['-'], rest)
  | '+' :: rest => (['+'], rest)
  | rest => ([], rest)

/-- An integer whose base is given by `0x`, `0o`, `0b` or a leading zero. -/
def isBasedWord (cs : List Char) : Bool :=
  let (sign, body) := signed cs
  match body with
  | '0' :: mark :: digits =>
    if mark = 'x' || mark = 'X' then wordInBase 16 (sign ++ digits) && !digits.isEmpty
    else if mark = 'o' || mark = 'O' then wordInBase 8 (sign ++ digits) && !digits.isEmpty
    else if mark = 'b' || mark = 'B' then wordInBase 2 (sign ++ digits) && !digits.isEmpty
    else wordInBase 8 (sign ++ (mark :: digits))
  | _ => wordInBase 10 cs

/-- A sign of its own after the base mark of a binary or octal number is accepted too. -/
def isMarkedWord (cs : List Char) : Bool :=
  match cs with
  | '0' :: 'b' :: digits => wordInBase 2 digits
  | '-' :: '0' :: 'b' :: digits => wordInBase 2 ('-' :: digits)
  | '0' :: 'o' :: digits => wordInBase 8 digits
  | '-' :: '0' :: 'o' :: digits => wordInBase 8 ('-' :: digits)
  | _ => false

structure FloatText where
  whole : List Char
  part : List Char
  exponent : Int

def isAsciiDigit (c : Char) : Bool := '0' ≤ c && c ≤ '9'

/-- Digits with an optional point and exponent. There is a digit before or after the point; a
    point alone in front needs one after it. -/
def float? (cs : List Char) : Option FloatText :=
  let (_, body) := signed cs
  let whole := body.takeWhile isAsciiDigit
  let rest := body.dropWhile isAsciiDigit
  let (part, rest) :=
    match rest with
    | '.' :: r => (r.takeWhile isAsciiDigit, r.dropWhile isAsciiDigit)
    | r => ([], r)
  if whole.isEmpty && part.isEmpty then none
  else
    match rest with
    | [] => some ⟨whole, part, 0⟩
    | e :: digits =>
      if e = 'e' || e = 'E' then
        (Number.parseInt digits).map fun n => ⟨whole, part, n⟩
      else none

/-- Whether a decimal is below the limit where doubles end: halfway between the largest double
    and the next power of two. -/
def FloatText.fitsDouble (f : FloatText) : Bool :=
  let digits := (f.whole ++ f.part).dropWhile (· = '0')
  let size : Int := digits.length + (f.exponent - f.part.length)
  if digits.isEmpty then true
  else if size ≤ 308 then true
  else if 310 ≤ size then false
  else
    let n := (Number.natOnto 0 digits).getD 0
    let e := f.exponent - f.part.length
    let limit := Number.twoPow 1024 - Number.twoPow 970
    if 0 ≤ e then n * Number.tenPow e.toNat < limit else n < limit * Number.tenPow (-e).toNat

def isFloat (cs : List Char) : Bool := (float? cs).any (·.fitsDouble)

/-- Underscores may only stand between digits. -/
def underscoresFit (afterDigit : Bool) : List Char → Bool
  | [] => true
  | '_' :: rest =>
    afterDigit && rest.head?.any isAsciiDigit && underscoresFit false rest
  | c :: rest => underscoresFit (isAsciiDigit c) rest

def type (text : String) : ScalarType :=
  let cs := text.toList
  match cs with
  | [] => .null
  | c :: _ =>
    if isNull text then .null
    else if (bool? text).isSome then .bool
    else if isSpecialFloat text then .float
    else if c = '.' then
      if underscoresFit false cs && isFloat (cs.filter (· ≠ '_')) then .float else .str
    else if isAsciiDigit c || c = '+' || c = '-' then
      let bare := cs.filter (· ≠ '_')
      if isBasedWord bare then .int
      else if isFloat bare then .float
      else if isMarkedWord bare then .int
      else .str
    else .str

end Plain

end SchemaForge.Yaml
