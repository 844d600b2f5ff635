import SchemaForge.Text.Chars

/- Integers in decimal notation: at most one sign, then digits and nothing else. -/
namespace SchemaForge.Number

def digit? (c : Char) : Option Nat :=
  if '0' ≤ c && c ≤ '9' then some (c.toNat - '0'.toNat) else none

def natOnto (acc : Nat) : List Char → Option Nat
  | [] => some acc
  | c :: r =>
    match digit? c with
    | some d => natOnto (acc * 10 + d) r
    | none => none

/-- A digit string; the empty one has no value. -/
def parseNat (cs : List Char) : Option Nat :=
  if cs.isEmpty then none else natOnto 0 cs

def parseInt : List Char → Option Int
  | '-' :: r => (parseNat r).map fun n => -(n : Int)
  | '+' :: r => (parseNat r).map fun n => (n : Int)
  | cs => (parseNat cs).map fun n => (n : Int)

def int32Min : Int := -2147483648
def int32Max : Int := 2147483647
def int64Min : Int := -9223372036854775808
def int64Max : Int := 9223372036854775807

def parseIntIn (lo hi : Int) (cs : List Char) : Option Int :=
  (parseInt cs).filter fun n => lo ≤ n && n ≤ hi

def renderNat (n : Nat) : String := String.ofList (Nat.toDigits 10 n)

def renderInt (n : Int) : String :=
  if n < 0 then "-" ++ renderNat n.natAbs else renderNat n.natAbs

end SchemaForge.Number
