import SchemaForge.Number.Integer
import SchemaForge.Text.Quoted

/- The commands of the tool and their flags, and how close two names are. -/
namespace SchemaForge.Cli

inductive FlagKind where
  | text
  | list
  | toggle
  | integer
  | duration
  deriving DecidableEq, Repr

/-- A flag. One with choices takes no other value. -/
structure Flag where
  name : String
  short : Option Char
  kind : FlagKind
  choices : List String := []
  default : String := ""
  deriving Repr

structure Positional where
  name : String
  required : Bool
  deriving Repr

structure Command where
  name : String
  flags : List Flag
  positionals : List Positional
  deriving Repr

def Flag.long (f : Flag) : String := "--" ++ f.name

/-- The spellings of a flag, the long one first. -/
def Flag.spellings (f : Flag) : List String :=
  f.long :: (f.short.map fun c => "-" ++ c.toString).toList

def helpFlag : Flag := { name := "help", short := some 'h', kind := .toggle }

def logLevelFlag : Flag :=
  { name := "log-level", short := none, kind := .text
    choices := ["debug", "info", "warn", "error"], default := "info" }

/-- Flags that every command has. -/
def commonFlags : List Flag := [helpFlag, logLevelFlag]

def generatorFlags : List Flag := [
  { name := "schema-path", short := some 's', kind := .text },
  { name := "ignore", short := some 'i', kind := .list },
  { name := "package", short := some 'p', kind := .text },
  { name := "out-file", short := none, kind := .text, default := "validators.go" },
  { name := "format", short := none, kind := .text },
  { name := "export", short := some 'e', kind := .toggle },
  { name := "without-runtime", short := none, kind := .toggle },
  { name := "strict", short := none, kind := .toggle },
  { name := "concurrency", short := some 'j', kind := .integer }]

def outputFlag : Flag :=
  { name := "output", short := some 'o', kind := .text, choices := ["table", "yaml", "json"]
    default := "table" }

def serveFlags : List Flag := [
  { name := "addr", short := some 'a', kind := .text, default := "localhost:9000" },
  { name := "rate", short := none, kind := .integer, default := "5" },
  { name := "burst", short := none, kind := .integer, default := "10" },
  { name := "timeout", short := none, kind := .duration, default := "30s" },
  { name := "max-bytes", short := none, kind := .integer, default := "33554432" },
  { name := "allow-origin", short := none, kind := .list },
  { name := "mask-errors", short := none, kind := .toggle }]

def commands : List Command := [
  ⟨"version", [{ name := "short", short := none, kind := .toggle }], []⟩,
  ⟨"gen", generatorFlags, [⟨"source", true⟩, ⟨"out", false⟩]⟩,
  ⟨"check", generatorFlags ++ [outputFlag], [⟨"source", true⟩, ⟨"dir", false⟩]⟩,
  ⟨"serve", serveFlags, []⟩]

/- Names that are close to a given one. -/

/-- One row of the table of distances: each entry is the least of a deletion, an insertion and a
    change. -/
def distanceRow (c : Char) (diagonal left : Nat) : List Char → List Nat → List Nat
  | d :: rest, above :: row =>
    let least := min (min (above + 1) (left + 1)) (if d = c then diagonal else diagonal + 1)
    least :: distanceRow c above least rest row
  | _, _ => []

def distanceRows (target : List Char) : List Nat → List Char → List Nat
  | row, [] => row
  | [], _ => []
  | first :: row, c :: rest =>
    distanceRows target ((first + 1) :: distanceRow c first (first + 1) target row) rest

/-- How many letters have to be put in, taken out or changed to get from one word to another. -/
def distance (a b : List Char) : Nat :=
  ((distanceRows b (List.range (b.length + 1)) a).getLast?).getD 0

def isClose (given candidate : String) : Bool :=
  Text.startsWith given.toList candidate.toList || distance candidate.toList given.toList ≤ 2

/-- What to suggest in place of a name that is not known. -/
def suggestion (given : String) (candidates : List String) : String :=
  match candidates.filter (isClose given) with
  | [] => ""
  | [c] => ", did you mean " ++ Text.quoted c ++ "?"
  | cs => ", did you mean one of " ++ Text.joinWith ", " (cs.map Text.quoted) ++ "?"

end SchemaForge.Cli
