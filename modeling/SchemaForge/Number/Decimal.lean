import SchemaForge.Number.Integer
import SchemaForge.Number.Power

/- Exact decimals: a coefficient times a power of ten. Reading takes an optional exponent of
   32 bits and at most one point anywhere before it; the digits around the point form one
   signed integer. Comparison is exact. -/
namespace SchemaForge.Number

structure Decimal where
  coefficient : Int
  exponent : Int
  deriving DecidableEq, Repr

namespace Decimal

def isExponentMark (c : Char) : Bool := c = 'e' || c = 'E'

/-- The text before the first exponent mark and the exponent after it. -/
def splitExponent? (cs : List Char) : Option (List Char × Int) :=
  match cs.dropWhile (fun c => !isExponentMark c) with
  | [] => some (cs, 0)
  | _ :: r =>
    (parseIntIn int32Min int32Max r).map fun e => (cs.takeWhile (fun c => !isExponentMark c), e)

/-- The text without its point, and the number of characters that followed the point. -/
def splitPoint? (cs : List Char) : Option (List Char × Nat) :=
  match Text.splitChars '.' cs with
  | [whole] => some (whole, 0)
  | [whole, part] => some (whole ++ part, part.length)
  | _ => none

def parse? (s : String) : Option Decimal := do
  let (body, e) ← splitExponent? s.toList
  let (digits, places) ← splitPoint? body
  let n ← parseInt digits
  let exponent := e - places
  if int32Min ≤ exponent && exponent ≤ int32Max then some ⟨n, exponent⟩ else none

/-- The coefficient at a lower exponent. Zero keeps its coefficient, so that no power is formed
    for it. -/
def scaledTo (low : Int) (d : Decimal) : Int :=
  if d.coefficient = 0 then 0 else d.coefficient * tenPow (d.exponent - low).toNat

theorem scaledTo_eq_mul (low : Int) (d : Decimal) :
    d.scaledTo low = d.coefficient * tenPow (d.exponent - low).toNat := by
  unfold scaledTo
  split
  · next zero => simp [zero]
  · rfl

def lt (a b : Decimal) : Bool :=
  let low := min a.exponent b.exponent
  a.scaledTo low < b.scaledTo low

def trimTrailingZeros (cs : List Char) : List Char :=
  (cs.reverse.dropWhile (· = '0')).reverse

/-- Positional notation without an exponent and without trailing zeros after the point. -/
def render (d : Decimal) : String :=
  if d.coefficient = 0 then "0"
  else if 0 ≤ d.exponent then
    renderInt d.coefficient ++ String.ofList (List.replicate d.exponent.toNat '0')
  else
    let digits := Nat.toDigits 10 d.coefficient.natAbs
    let places := (-d.exponent).toNat
    let padded := List.replicate (places + 1 - digits.length) '0' ++ digits
    let whole := padded.take (padded.length - places)
    let part := trimTrailingZeros (padded.drop (padded.length - places))
    let number := if part.isEmpty then whole else whole ++ '.' :: part
    String.ofList (if d.coefficient < 0 then '-' :: number else number)

end Decimal

end SchemaForge.Number
