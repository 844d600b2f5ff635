import SchemaForge.Number.Power
import SchemaForge.Text.Chars
import SchemaForge.Text.Utf8

/- Columns of struct fields and of keyed values. Widths count characters. -/
namespace SchemaForge.Code.Layout

def width (s : String) : Nat := s.toList.length

def widest (texts : List String) : Nat := texts.foldl (fun n s => max n (width s)) 0

/-- Fills up with blanks. -/
def pad (n : Nat) (s : String) : String := s ++ String.ofList (List.replicate (n - width s) ' ')

/-- One line of a struct: name, type and perhaps a tag. -/
structure Row where
  name : String
  type : String
  tag : Option String

def Row.bare (r : Row) : String :=
  r.name ++ " " ++ r.type ++ (match r.tag with | some t => " " ++ t | none => "")

/-- The width of the types in the run of tagged rows that starts here. -/
def runWidth : List Row → Nat
  | [] => 0
  | r :: rest => if r.tag.isSome then max (width r.type) (runWidth rest) else 0

/-- Lines with the names padded to `names`. A run of tagged rows shares one type column, whose
    width is found at its first row. -/
def rowLines (names : Nat) : Option Nat → List Row → List String
  | _, [] => []
  | types, r :: rest =>
    match r.tag with
    | none => (pad names r.name ++ " " ++ r.type) :: rowLines names none rest
    | some tag =>
      let w := types.getD (runWidth (r :: rest))
      (pad names r.name ++ " " ++ pad w r.type ++ " " ++ tag) :: rowLines names (some w) rest

/-- A single row is not aligned. -/
def structLines : List Row → List String
  | [r] => [r.bare]
  | rows => rowLines (widest (rows.map (·.name))) none rows

/- Keyed values. -/

structure Entry where
  key : String
  value : String

def keySize (e : Entry) : Nat := (Utf8.encode e.key).length

/-- A piecewise linear logarithm to base two: `x = f * 2 ^ e` with `1/2 ≤ f < 1` gives
    `e + 2 (f - 1)`. -/
def approxLog (x : Nat) : Rat :=
  let e := Nat.log2 x + 1
  (e : Rat) + 2 * ((x : Rat) / (Number.twoPow e : Nat) - 1)

/-- The inverse of `approxLog` on the reals from one on. -/
def approxExp (y : Rat) : Rat :=
  let n := y.floor.toNat
  (1 + y - (n : Rat)) * (Number.twoPow n : Nat)

/-- Keys up to this size align in any case. -/
def smallKey : Nat := 40

/- A section under construction: its entries, last first, and the logarithms of their sizes. -/
structure Section where
  entries : List Entry
  logs : Rat
  last : Nat

def Section.start (e : Entry) : Section := ⟨[e], approxLog (keySize e), keySize e⟩

def Section.add (e : Entry) (s : Section) : Section :=
  ⟨e :: s.entries, s.logs + approxLog (keySize e), keySize e⟩

/-- Whether an entry goes on with the section: small keys do, and keys that are neither much
    longer nor much shorter than the mean. -/
def Section.takes (e : Entry) (s : Section) : Bool :=
  (s.last ≤ smallKey && keySize e ≤ smallKey) ||
    (let mean := approxExp (s.logs / (s.entries.length : Rat))
     let ratio := (keySize e : Rat) / mean
     decide (1 < ratio * (5 / 2)) && decide (ratio < 5 / 2))

def sectionsFrom (current : Section) : List Entry → List (List Entry)
  | [] => [current.entries.reverse]
  | e :: rest =>
    if current.takes e then sectionsFrom (current.add e) rest
    else current.entries.reverse :: sectionsFrom (.start e) rest

def sections : List Entry → List (List Entry)
  | [] => []
  | e :: rest => sectionsFrom (.start e) rest

def sectionLines (es : List Entry) : List String :=
  let keys := widest (es.map (·.key)) + 1
  es.map fun e => pad keys (e.key ++ ":") ++ " " ++ e.value ++ ","

def keyedLines : List Entry → List String
  | [e] => [e.key ++ ": " ++ e.value ++ ","]
  | es => (sections es).flatMap sectionLines

end SchemaForge.Code.Layout
