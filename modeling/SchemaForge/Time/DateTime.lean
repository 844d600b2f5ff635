import SchemaForge.Number.Integer
import SchemaForge.Number.Power
import SchemaForge.Text.Chars

/- Points in time as they are written: date, time of day, fraction of a second in nanoseconds
   and offset from UTC in minutes. -/
namespace SchemaForge

structure DateTime where
  year : Nat
  month : Nat
  day : Nat
  hour : Nat
  minute : Nat
  second : Nat
  nanosecond : Nat
  offset : Int
  deriving DecidableEq, Repr

namespace DateTime

def isLeap (year : Nat) : Bool := year % 4 = 0 && (year % 100 ≠ 0 || year % 400 = 0)

def daysIn (month year : Nat) : Nat :=
  if month = 2 then (if isLeap year then 29 else 28)
  else if [4, 6, 9, 11].contains month then 30
  else 31

def isDigit (c : Char) : Bool := '0' ≤ c && c ≤ '9'

def digits? (cs : List Char) : Option Nat :=
  if cs.all isDigit then Number.parseNat cs else none

/-- Exactly `n` digits. -/
def fixed? (n : Nat) (cs : List Char) : Option (Nat × List Char) :=
  if (cs.take n).length = n then (digits? (cs.take n)).map fun v => (v, cs.drop n) else none

/-- Two digits, or one if no second follows. -/
def oneOrTwo? : List Char → Option (Nat × List Char)
  | a :: b :: rest =>
    if isDigit a && isDigit b then (digits? [a, b]).map fun v => (v, rest)
    else if isDigit a then (digits? [a]).map fun v => (v, b :: rest)
    else none
  | [a] => if isDigit a then (digits? [a]).map fun v => (v, []) else none
  | [] => none

def mark? (c : Char) : List Char → Option (List Char)
  | d :: rest => if c = d then some rest else none
  | [] => none

/-- Nanoseconds from the digits after the point; digits beyond the ninth are dropped. -/
def nanoseconds (ds : List Char) : Nat :=
  let kept := ds.take 9
  (Number.natOnto 0 kept).getD 0 * Number.tenPow (9 - kept.length)

/-- A point or comma with digits after it; without a digit there is no fraction. -/
def fraction (cs : List Char) : Nat × List Char :=
  match cs with
  | p :: d :: rest =>
    if (p = '.' || p = ',') && isDigit d then
      (nanoseconds ((d :: rest).takeWhile isDigit), (d :: rest).dropWhile isDigit)
    else (0, cs)
  | _ => (0, cs)

/-- `Z`, or a sign with hours up to 24 and minutes up to 60, which are added up. -/
def zone? : List Char → Option (Int × List Char)
  | 'Z' :: rest => some (0, rest)
  | s :: rest => do
    let (h, rest) ← fixed? 2 rest
    let rest ← mark? ':' rest
    let (m, rest) ← fixed? 2 rest
    let minutes : Int := h * 60 + m
    if 24 < h || 60 < m then none
    else if s = '+' then some (minutes, rest)
    else if s = '-' then some (-minutes, rest)
    else none
  | [] => none

def parse? (s : String) : Option DateTime := do
  let (year, cs) ← fixed? 4 s.toList
  let cs ← mark? '-' cs
  let (month, cs) ← fixed? 2 cs
  let cs ← mark? '-' cs
  let (day, cs) ← fixed? 2 cs
  let cs ← mark? 'T' cs
  let (hour, cs) ← oneOrTwo? cs
  let cs ← mark? ':' cs
  let (minute, cs) ← fixed? 2 cs
  let cs ← mark? ':' cs
  let (second, cs) ← fixed? 2 cs
  let (nanosecond, cs) := fraction cs
  let (offset, cs) ← zone? cs
  if cs.isEmpty && 1 ≤ month && month ≤ 12 && 1 ≤ day && day ≤ daysIn month year
      && hour < 24 && minute < 60 && second < 60 then
    some ⟨year, month, day, hour, minute, second, nanosecond, offset⟩
  else none

def pad (width n : Nat) : String :=
  let ds := Nat.toDigits 10 n
  String.ofList (List.replicate (width - ds.length) '0' ++ ds)

def renderFraction (n : Nat) : String :=
  if n = 0 then ""
  else
    let ds := (pad 9 n).toList
    "." ++ String.ofList ((ds.reverse.dropWhile (· = '0')).reverse)

def renderOffset (offset : Int) : String :=
  if offset = 0 then "Z"
  else
    (if offset < 0 then "-" else "+") ++ pad 2 (offset.natAbs / 60) ++ ":"
      ++ pad 2 (offset.natAbs % 60)

def render (t : DateTime) : String :=
  pad 4 t.year ++ "-" ++ pad 2 t.month ++ "-" ++ pad 2 t.day ++ "T" ++ pad 2 t.hour ++ ":"
    ++ pad 2 t.minute ++ ":" ++ pad 2 t.second ++ renderFraction t.nanosecond
    ++ renderOffset t.offset

end DateTime

end SchemaForge
