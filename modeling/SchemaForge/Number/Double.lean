import SchemaForge.Number.Power

/- Doubles that are not negative, as `mantissa * 2 ^ exponent`, and the decimals that stand for
   them. All arithmetic is exact. -/
namespace SchemaForge.Number

structure Double where
  mantissa : Nat
  exponent : Int
  deriving DecidableEq, Repr

namespace Double

def leastExponent : Int := -1074

def greatestExponent : Int := 971

/-- A number of significant bits: mantissas stay below `2 ^ 53`. -/
def mantissaBits : Nat := 53

def zero : Double := ⟨0, leastExponent⟩

/-- The nearest whole number to a quotient; a tie goes to the even one. -/
def roundEven (num den : Nat) : Nat :=
  let q := num / den
  let r := num % den
  if 2 * r < den then q
  else if den < 2 * r then q + 1
  else if q % 2 = 0 then q
  else q + 1

/-- `num / den` with numerator and denominator multiplied so that it becomes `num / den / 2 ^ e`. -/
def scaleDown (num den : Nat) (e : Int) : Nat × Nat :=
  if 0 ≤ e then (num, den * twoPow e.toNat) else (num * twoPow (-e).toNat, den)

/-- The exponent of the highest bit of a positive quotient. -/
def highBit (num den : Nat) : Int :=
  let e : Int := (Nat.log2 num : Int) - Nat.log2 den
  let (n, d) := scaleDown num den e
  if d ≤ n then e else e - 1

/-- The nearest double to a quotient, a tie going to the even mantissa; none beyond the range. -/
def ofQuotient (num den : Nat) : Option Double :=
  if num = 0 then some zero
  else
    let e := max (highBit num den - 52) leastExponent
    let (n, d) := scaleDown num den e
    let m := roundEven n d
    let (m, e) := if m = twoPow mantissaBits then (twoPow (mantissaBits - 1), e + 1) else (m, e)
    if greatestExponent < e then none else some ⟨m, e⟩

/-- The nearest double to `coefficient * 10 ^ exponent`. Beyond four hundred places a decimal is
    out of range, or too small to be told from zero. -/
def ofDecimal (coefficient : Nat) (exponent : Int) : Option Double :=
  let magnitude := ((Nat.toDigits 10 coefficient).length : Int) + exponent
  if coefficient = 0 || magnitude < -400 then some zero
  else if 400 < magnitude then none
  else if 0 ≤ exponent then ofQuotient (coefficient * tenPow exponent.toNat) 1
  else ofQuotient coefficient (tenPow (-exponent).toNat)

/- The decimals that are read as a double lie between the midpoints to its neighbours. All three
   are kept over one denominator. -/
structure Span where
  low : Nat
  value : Nat
  high : Nat
  den : Nat
  closed : Bool

/-- The midpoints belong to the double with an even mantissa. Below a power of two the neighbour
    is only half as far. -/
def span (d : Double) : Span :=
  let below := if d.mantissa = twoPow (mantissaBits - 1) && leastExponent < d.exponent then 1 else 2
  let e := d.exponent - 2
  let up := if 0 ≤ e then twoPow e.toNat else 1
  let den := if 0 ≤ e then 1 else twoPow (-e).toNat
  ⟨(4 * d.mantissa - below) * up, 4 * d.mantissa * up, (4 * d.mantissa + 2) * up, den,
    d.mantissa % 2 = 0⟩

/-- Whether `c * 10 ^ g` lies in the span. -/
def Span.holds (s : Span) (c : Nat) (g : Int) : Bool :=
  let (x, scale) := if 0 ≤ g then (c * tenPow g.toNat * s.den, 1) else (c * s.den, tenPow (-g).toNat)
  if s.closed then s.low * scale ≤ x && x ≤ s.high * scale
  else s.low * scale < x && x < s.high * scale

/-- The smallest power of ten that makes a fraction reach one. -/
def tenths (num den : Nat) : Nat → Nat
  | 0 => 0
  | fuel + 1 => if den ≤ num then 0 else tenths (num * 10) den fuel + 1

/-- The decimal exponent of the first digit of a positive quotient. -/
def firstPlace (num den : Nat) : Int :=
  if den ≤ num then ((Nat.toDigits 10 (num / den)).length : Int) - 1
  else -(tenths num den 400 : Int)

/-- The point of the grid `10 ^ g` next to the value that lies in the span, if there is one. -/
def Span.onGrid? (s : Span) (g : Int) : Option Nat :=
  let (n, d) := if 0 ≤ g then (s.value, s.den * tenPow g.toNat) else (s.value * tenPow (-g).toNat, s.den)
  let c := n / d
  let nearer := if 2 * (n % d) ≤ d then c else c + 1
  let other := if nearer = c then c + 1 else c
  if s.holds nearer g then some nearer
  else if s.holds other g then some other
  else none

def shortestFrom (s : Span) (place : Int) : Nat → Nat → Nat × Int
  | 0, _ => (0, 0)
  | fuel + 1, digits =>
    let g := place + 1 - digits
    match s.onGrid? g with
    | some c => (c, g)
    | none => shortestFrom s place fuel (digits + 1)

/-- The shortest decimal that is read as the double, and of those the nearest: coefficient and
    exponent. -/
def shortest (d : Double) : Nat × Int :=
  if d.mantissa = 0 then (0, 0)
  else
    let s := d.span
    shortestFrom s (firstPlace s.value s.den) 20 1

end Double

end SchemaForge.Number
