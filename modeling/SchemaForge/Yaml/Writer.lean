import SchemaForge.Json.Basic
import SchemaForge.Time.DateTime
import SchemaForge.Yaml.Plain

/- YAML text in block form. Strings stand as they are where a reader takes them for strings, and
   are quoted elsewhere; lines are broken at blanks beyond a width of eighty. -/
namespace SchemaForge.Yaml.Write

def lineWidth : Nat := 80

/- Which strings would be read as something else. -/

def isSwitch (text : String) : Bool :=
  ["y", "Y", "yes", "Yes", "YES", "on", "On", "ON", "n", "N", "no", "No", "NO", "off", "Off",
    "OFF"].contains text

def isDate (cs : List Char) : Bool :=
  let result : Option Bool := do
    let (year, rest) ← DateTime.fixed? 4 cs
    let rest ← DateTime.mark? '-' rest
    let (month, rest) ← DateTime.oneOrTwo? rest
    let rest ← DateTime.mark? '-' rest
    let (day, rest) ← DateTime.oneOrTwo? rest
    return rest.isEmpty && 1 ≤ month && month ≤ 12 && 1 ≤ day && day ≤ DateTime.daysIn month year
  result.getD false

/-- One minute or second: a digit, or two of which the first is below six. -/
def isSixtieth : List Char → Bool
  | [d] => Plain.isAsciiDigit d
  | [t, d] => '0' ≤ t && t ≤ '5' && Plain.isAsciiDigit d
  | _ => false

/-- A number in base sixty, such as a time of day. -/
def isSexagesimal (cs : List Char) : Bool :=
  let (_, body) := Plain.signed cs
  let whole := body.takeWhile (· ≠ '.')
  let part := (body.dropWhile (· ≠ '.')).drop 1
  let isLoose (c : Char) : Bool := Plain.isAsciiDigit c || c = '_'
  match Text.splitChars ':' whole with
  | first :: second :: rest =>
    first.head?.any Plain.isAsciiDigit && first.all isLoose && (second :: rest).all isSixtieth
      && part.all isLoose
  | _ => false

def isString (text : String) : Bool :=
  Plain.type text = .str && !isSwitch text && !isDate text.toList && !isSexagesimal text.toList

/- What a string looks like. -/

def isPrintable (c : Char) : Bool :=
  let n := c.toNat
  n = 0x0a || (0x20 ≤ n && n ≤ 0x7e) || (0xa0 ≤ n && n ≤ 0xd7ff)
    || (0xe000 ≤ n && n ≤ 0xfffd && n ≠ 0xfeff)

def isBreak (c : Char) : Bool :=
  c = '\r' || c = '\n' || c.toNat = 0x85 || c.toNat = 0x2028 || c.toNat = 0x2029

def isBlank (c : Char) : Bool := c = ' ' || c = '\t'

/-- A character in front that means something other than itself. -/
def startsIndicator : List Char → Bool
  | [] => false
  | c :: rest =>
    let ends := rest.head?.all isBlank
    "#,[]\x7b\x7d&*!|>'\"%@\x60".toList.contains c
      || ("?:-".toList.contains c && ends)

/-- A colon before a blank, or a number sign after one. -/
def holdsIndicator (afterBlank : Bool) : List Char → Bool
  | [] => false
  | c :: rest =>
    (c = ':' && rest.head?.all isBlank) || (c = '#' && afterBlank)
      || holdsIndicator (isBlank c || isBreak c) rest

def blankThenBreak : List Char → Bool
  | a :: b :: rest => (a = ' ' && isBreak b) || blankThenBreak (b :: rest)
  | _ => false

def breakThenBlank : List Char → Bool
  | a :: b :: rest => (isBreak a && b = ' ') || breakThenBlank (b :: rest)
  | _ => false

inductive Style where
  | plain
  | single
  | double
  | literal
  deriving DecidableEq, Repr

def hasIndicator (cs : List Char) : Bool :=
  startsIndicator cs || Text.startsWith "---".toList cs || Text.startsWith "...".toList cs
    || holdsIndicator false cs.tail

def isEdge (c : Char) : Bool := c = ' ' || isBreak c

def plainFits (cs : List Char) : Bool :=
  !(cs.head?.any isEdge) && !(cs.getLast?.any isEdge) && !(cs.any isBreak) && !hasIndicator cs

/-- The style of a string; quotes where the plain form would not be read back. -/
def styleOf (text : String) : Style :=
  let cs := text.toList
  let special := !cs.all isPrintable || blankThenBreak cs
  if cs.contains '\n' then
    if special || cs.getLast? = some ' ' then .double else .literal
  else if !isString text then .double
  else if !special && plainFits cs then .plain
  else if special || breakThenBlank cs then .double
  else .single

/- Writing a string. -/

/-- Text that is being written: finished lines last first, the line begun, and its column. -/
structure Pen where
  indent : Nat
  column : Nat
  done : List Char

def Pen.put (p : Pen) (cs : List Char) : Pen :=
  { p with column := p.column + cs.length, done := cs.reverse ++ p.done }

def Pen.newLine (p : Pen) : Pen :=
  { p with column := p.indent, done := List.replicate p.indent ' ' ++ '\n' :: p.done }

def escapeName? (c : Char) : Option Char :=
  match c.toNat with
  | 0x00 => some '0'
  | 0x07 => some 'a'
  | 0x08 => some 'b'
  | 0x09 => some 't'
  | 0x0a => some 'n'
  | 0x0b => some 'v'
  | 0x0c => some 'f'
  | 0x0d => some 'r'
  | 0x1b => some 'e'
  | 0x22 => some '"'
  | 0x5c => some '\\'
  | 0x85 => some 'N'
  | 0xa0 => some '_'
  | 0x2028 => some 'L'
  | 0x2029 => some 'P'
  | _ => none

def escaped (c : Char) : List Char :=
  match escapeName? c with
  | some name => ['\\', name]
  | none =>
    let (mark, width) :=
      if c.toNat ≤ 0xff then ('x', 2) else if c.toNat ≤ 0xffff then ('u', 4) else ('U', 8)
    '\\' :: mark :: (Text.hexDigits width c.toNat).map Char.toUpper

def needsEscape (c : Char) : Bool := !isPrintable c || isBreak c || c = '"' || c = '\\'

/-- Whether a blank may become a line break: it lies beyond the width and alone. -/
def foldsAt (p : Pen) (afterBlank : Bool) (rest : List Char) : Bool :=
  !afterBlank && lineWidth < p.column && rest.head? ≠ some ' '

def plainOnto (p : Pen) (afterBlank : Bool) : List Char → Pen
  | [] => p
  | c :: rest =>
    if c = ' ' then
      if foldsAt p afterBlank rest then plainOnto p.newLine true rest
      else plainOnto (p.put [c]) true rest
    else plainOnto (p.put [c]) false rest

def singleOnto (p : Pen) (first afterBlank : Bool) : List Char → Pen
  | [] => p
  | c :: rest =>
    if c = ' ' then
      if foldsAt p afterBlank rest && !first && !rest.isEmpty then
        singleOnto p.newLine false true rest
      else singleOnto (p.put [c]) false true rest
    else singleOnto (p.put (if c = '\'' then [c, c] else [c])) false false rest

def doubleOnto (p : Pen) (first afterBlank : Bool) : List Char → Pen
  | [] => p
  | c :: rest =>
    if needsEscape c then doubleOnto (p.put (escaped c)) false false rest
    else if c = ' ' then
      if !afterBlank && lineWidth < p.column && !first && !rest.isEmpty then
        let p := p.newLine
        doubleOnto (if rest.head? = some ' ' then p.put ['\\'] else p) false true rest
      else doubleOnto (p.put [c]) false true rest
    else doubleOnto (p.put [c]) false false rest

/-- The mark of a literal says whether it starts with a blank and how its last line ends. -/
def literalMark (cs : List Char) : List Char :=
  let ends :=
    match cs.reverse with
    | a :: rest =>
      if !isBreak a then ['-'] else if rest.head?.all isBreak then ['+'] else []
    | [] => ['-']
  '|' :: (if cs.head?.any isEdge then ['2'] else []) ++ ends

def literalOnto (p : Pen) (fresh : Bool) : List Char → Pen
  | [] => p
  | c :: rest =>
    if isBreak c then literalOnto { p with column := 0, done := '\n' :: p.done } true rest
    else
      let p := if fresh then p.put (List.replicate p.indent ' ') else p
      literalOnto (p.put [c]) false rest

/-- A last line break is that of the text around it. -/
def dropLastBreak (cs : List Char) : List Char :=
  if cs.getLast? = some '\n' then cs.dropLast else cs

def string (indent column : Nat) (text : String) : String :=
  let cs := text.toList
  let pen : Pen := ⟨indent, column, []⟩
  let written :=
    match styleOf text with
    | .plain => plainOnto pen false cs
    | .single => (singleOnto (pen.put ['\'']) true false cs).put ['\'']
    | .double => (doubleOnto (pen.put ['"']) true false cs).put ['"']
    | .literal => literalOnto (pen.put (literalMark cs ++ ['\n'])) true (dropLastBreak cs)
  String.ofList written.done.reverse

/- Writing a value. -/

def blanks (n : Nat) : String := String.ofList (List.replicate n ' ')

/-- A value that stands on the line of its key, if it can. -/
def inline? (indent column : Nat) : Json → Option String
  | .null => some "null"
  | .bool b => some (if b then "true" else "false")
  | .num text => some text
  | .str text => some (string indent column text)
  | .arr [] => some "[]"
  | .obj [] => some "\x7b\x7d"
  | _ => none

mutual

/-- The lines of a value, of which the first has no margin. -/
def block (indent : Nat) : Json → String
  | .arr items => items_ indent items
  | .obj members => members_ indent members
  | v => (inline? indent indent v).getD ""

def items_ (indent : Nat) : List Json → String
  | [] => ""
  | v :: rest =>
    "- " ++ ((inline? (indent + 2) (indent + 2) v).getD (block (indent + 2) v))
      ++ (if rest.isEmpty then "" else "\n" ++ blanks indent) ++ items_ indent rest

def members_ (indent : Nat) : List (String × Json) → String
  | [] => ""
  | (k, v) :: rest =>
    k ++ ":"
      ++ (match inline? (indent + 2) (indent + k.length + 2) v with
        | some text => " " ++ text
        | none =>
          match v with
          | .arr items => "\n" ++ blanks indent ++ items_ indent items
          | w => "\n" ++ blanks (indent + 2) ++ block (indent + 2) w)
      ++ (if rest.isEmpty then "" else "\n" ++ blanks indent) ++ members_ indent rest

end

/-- A whole document. -/
def document (v : Json) : String := block 0 v ++ "\n"

end SchemaForge.Yaml.Write
