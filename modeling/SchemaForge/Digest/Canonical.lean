import SchemaForge.Digest.Encode

/- Canonical JSON: members in the order of their names' 16-bit units, numbers as the shortest
   decimal of the nearest double, strings with as few escapes as possible, no blanks. -/
namespace SchemaForge.Canonical

def units (c : Char) : List Nat :=
  if c.toNat < 0x10000 then [c.toNat]
  else [0xd800 + (c.toNat - 0x10000) / 0x400, 0xdc00 + (c.toNat - 0x10000) % 0x400]

def unitsOf (s : String) : List Nat := s.toList.flatMap units

def unitsLe : List Nat → List Nat → Bool
  | [], _ => true
  | _ :: _, [] => false
  | a :: as, b :: bs => if a = b then unitsLe as bs else a < b

def keyLe (a b : String) : Bool := unitsLe (unitsOf a) (unitsOf b)

/-- Digits with the point after `place` of them, zeros filled in on either side. -/
def positional (digits : List Char) (place : Int) : List Char :=
  if place ≤ 0 then '0' :: '.' :: (List.replicate (-place).toNat '0' ++ digits)
  else
    let n := place.toNat
    if digits.length ≤ n then digits ++ List.replicate (n - digits.length) '0'
    else digits.take n ++ '.' :: digits.drop n

def scientific (digits : List Char) (exponent : Int) : List Char :=
  let tail := digits.drop 1
  let mantissa := digits.take 1 ++ (if tail.isEmpty then [] else '.' :: tail)
  let sign := if exponent < 0 then '-' else '+'
  mantissa ++ 'e' :: sign :: Nat.toDigits 10 exponent.natAbs

def trimZeros (digits : List Char) : List Char := (digits.reverse.dropWhile (· = '0')).reverse

/-- Positional from `10 ^ -6` on and below `10 ^ 21`. Zero has no sign. -/
def numberText (negative : Bool) (d : Number.Double) : String :=
  let (c, g) := d.shortest
  if c = 0 then "0"
  else
    let all := Nat.toDigits 10 c
    let first : Int := g + all.length - 1
    let digits := trimZeros all
    let text := if -6 ≤ first && first < 21 then positional digits (first + 1) else scientific digits first
    String.ofList (if negative then '-' :: text else text)

def literalText (text : String) : String :=
  match Literal.double? text with
  | some d => numberText (Literal.parts text).negative d
  | none => text

def escape? (c : Char) : Option Char :=
  if c = '"' then some '"'
  else if c = '\\' then some '\\'
  else if c.toNat = 8 then some 'b'
  else if c.toNat = 9 then some 't'
  else if c.toNat = 10 then some 'n'
  else if c.toNat = 12 then some 'f'
  else if c.toNat = 13 then some 'r'
  else none

def charText (c : Char) : List Char :=
  match escape? c with
  | some e => ['\\', e]
  | none => if c.toNat < 0x20 then '\\' :: 'u' :: Text.hexDigits 4 c.toNat else [c]

def stringText (s : String) : String :=
  String.ofList ('"' :: (s.toList.flatMap charText ++ ['"']))

def memberText (m : String × String) : String := stringText m.1 ++ ":" ++ m.2

mutual

def text : Json → String
  | .null => "null"
  | .bool true => "true"
  | .bool false => "false"
  | .num t => literalText t
  | .str s => stringText s
  | .arr items => "[" ++ Text.joinWith "," (itemTexts items) ++ "]"
  | .obj members =>
    "\x7b" ++ Text.joinWith "," (((memberTexts members).mergeSort fun a b => keyLe a.1 b.1).map memberText)
      ++ "\x7d"

def itemTexts : List Json → List String
  | [] => []
  | v :: rest => text v :: itemTexts rest

def memberTexts : List (String × Json) → List (String × String)
  | [] => []
  | (k, v) :: rest => (k, text v) :: memberTexts rest

end

end SchemaForge.Canonical
