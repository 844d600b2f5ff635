import SchemaForge.Yaml.Cursor
import SchemaForge.Text.Chars

/- The three ways to write a scalar: quoted, plain and as a block. Line breaks inside quoted and
   plain scalars fold: one break becomes a space, and n + 1 breaks become n. -/
namespace SchemaForge.Yaml.Scalar

/-- Gaps seen since the last character: blanks on the line, or a first break and later ones.
    Blanks and later breaks are kept in reverse. -/
structure Gap where
  blanks : List Char := []
  broken : Bool := false
  firstBreak : List Char := []
  laterBreaks : List Char := []

/-- The text a gap stands for, in reverse. -/
def Gap.folded (g : Gap) : List Char :=
  if g.broken then
    if g.firstBreak.head? == some '\n' then
      if g.laterBreaks.isEmpty then [' '] else g.laterBreaks
    else g.laterBreaks ++ g.firstBreak.reverse
  else g.blanks

/-- Reads blanks and breaks. `tabLimit` is the column up to which a tab may not indent a
    continuation line; the result is none at such a tab. -/
def gap (tabLimit : Int) : Nat → Gap → Cursor → Gap × Cursor × Bool
  | 0, g, c => (g, c, true)
  | fuel + 1, g, c =>
    match c.peek with
    | none => (g, c, true)
    | some ch =>
      if isBlank ch then
        if g.broken then
          if ch = '\t' && (c.mark.column : Int) < tabLimit then (g, c, false)
          else gap tabLimit fuel g c.skip
        else gap tabLimit fuel { g with blanks := ch :: g.blanks } c.skip
      else if isBreak ch then
        let (text, c) := c.takeBreak
        if g.broken then
          gap tabLimit fuel { g with laterBreaks := text.reverse ++ g.laterBreaks } c
        else gap tabLimit fuel { g with blanks := [], broken := true, firstBreak := text } c
      else (g, c, true)

/-- Single-character escapes of double-quoted scalars. -/
def escaped? (c : Char) : Option Char :=
  match c with
  | '0' => some (Char.ofNat 0)
  | 'a' => some (Char.ofNat 7)
  | 'b' => some (Char.ofNat 8)
  | 't' | '\t' => some '\t'
  | 'n' => some '\n'
  | 'v' => some (Char.ofNat 11)
  | 'f' => some (Char.ofNat 12)
  | 'r' => some '\r'
  | 'e' => some (Char.ofNat 27)
  | ' ' => some ' '
  | '"' => some '"'
  | '\'' => some '\''
  | '\\' => some '\\'
  | 'N' => some (Char.ofNat 0x85)
  | '_' => some (Char.ofNat 0xa0)
  | 'L' => some (Char.ofNat 0x2028)
  | 'P' => some (Char.ofNat 0x2029)
  | _ => none

def escapeLength? (c : Char) : Option Nat :=
  match c with
  | 'x' => some 2
  | 'u' => some 4
  | 'U' => some 8
  | _ => none

def hexNumber? (digits : List Char) : Option Nat :=
  digits.foldl (fun acc d => acc.bind fun n => (Text.hexValue? d).map (n * 16 + ·)) (some 0)

/-- A numbered escape: the character and the cursor after its digits. -/
def numbered (start : Mark) (length : Nat) (c : Cursor) : Except Error (Char × Cursor) :=
  let digits := c.rest.take length
  match if digits.length = length then hexNumber? digits else none with
  | none => .error (.token start .escapeDigits c.mark)
  | some n =>
    if (0xd800 ≤ n && n < 0xe000) || 0x10ffff < n then .error (.token start .escapeValue c.mark)
    else .ok (Char.ofNat n, c.advance length)

/-- The characters up to a gap or the closing quote. The flag tells that an escaped line break
    ended the run. -/
def quotedRun (single : Bool) (start : Mark) :
    Nat → List Char → Cursor → Except Error (List Char × Cursor × Bool)
  | 0, acc, c => .ok (acc, c, false)
  | fuel + 1, acc, c =>
    match c.rest with
    | [] => .ok (acc, c, false)
    | ch :: rest =>
      if isBlank ch || isBreak ch then .ok (acc, c, false)
      else if single then
        if ch = '\'' then
          if rest.head? == some '\'' then quotedRun single start fuel ('\'' :: acc) (c.advance 2)
          else .ok (acc, c, false)
        else quotedRun single start fuel (ch :: acc) c.skip
      else if ch = '"' then .ok (acc, c, false)
      else if ch = '\\' then
        match rest.head? with
        | none => .error (.token start .unknownEscape c.mark)
        | some e =>
          if isBreak e then .ok (acc, c.skip.skipBreak, true)
          else
            match escaped? e, escapeLength? e with
            | some out, _ => quotedRun single start fuel (out :: acc) (c.advance 2)
            | none, some length =>
              match numbered start length (c.advance 2) with
              | .error err => .error err
              | .ok (out, c) => quotedRun single start fuel (out :: acc) c
            | none, none => .error (.token start .unknownEscape c.mark)
      else quotedRun single start fuel (ch :: acc) c.skip

def quotedBody (single : Bool) (start : Mark) :
    Nat → List Char → Cursor → Except Error (List Char × Cursor)
  | 0, _, c => .error (.token start .endOfStream c.mark)
  | fuel + 1, acc, c =>
    if c.atAnyDocumentMark then .error (.token start .documentMark c.mark)
    else if c.atEnd then .error (.token start .endOfStream c.mark)
    else
      match quotedRun single start (c.size + 1) acc c with
      | .error e => .error e
      | .ok (acc, c, continued) =>
        if c.looksAt (if single then '\'' else '"') then .ok (acc, c.skip)
        else
          let (g, c, _) := gap 0 (c.size + 1) { broken := continued } c
          -- an escaped break joins the lines with nothing in between
          let acc := if continued && g.firstBreak.isEmpty then g.laterBreaks ++ acc
            else g.folded ++ acc
          quotedBody single start fuel acc c

/-- A quoted scalar, from its opening quote. -/
def quoted (single : Bool) (c : Cursor) : Except Error (String × Cursor) :=
  (quotedBody single c.mark (c.size + 1) [] c.skip).map fun (acc, c) =>
    (String.ofList acc.reverse, c)

/-- Whether a plain scalar ends before this character. -/
def endsPlain (inFlow : Bool) : List Char → Bool
  | [] => true
  | ch :: rest =>
    (ch = ':' && Cursor.gapAt rest)
      || (inFlow && (ch = ',' || ch = '?' || ch = '[' || ch = ']' || ch = '\x7b' || ch = '\x7d'))

/-- The characters of a plain scalar up to a gap or an indicator. -/
def plainRun (inFlow : Bool) : Nat → List Char → Cursor → List Char × Cursor
  | 0, acc, c => (acc, c)
  | fuel + 1, acc, c =>
    match c.rest with
    | [] => (acc, c)
    | ch :: _ =>
      if isBlank ch || isBreak ch || endsPlain inFlow c.rest then (acc, c)
      else plainRun inFlow fuel (ch :: acc) c.skip

/-- What a plain scalar leaves behind: its text, where the text stopped, whether a line break
    was passed after it, and the cursor. -/
structure Plain where
  text : List Char
  stop : Mark
  broken : Bool
  cursor : Cursor

def plainBody (inFlow : Bool) (indent : Int) (start : Mark) :
    Nat → List Char → Mark → Gap → Cursor → Except Error Plain
  | 0, acc, stop, g, c => .ok ⟨acc, stop, g.broken, c⟩
  | fuel + 1, acc, stop, g, c =>
    if c.atAnyDocumentMark || c.looksAt '#' then .ok ⟨acc, stop, g.broken, c⟩
    else
      let (run, c') := plainRun inFlow (c.size + 1) [] c
      let (acc, stop, g) :=
        if run.isEmpty then (acc, stop, g) else (run ++ (g.folded ++ acc), c'.mark, {})
      if !(c'.atBlank || c'.atBreak) then .ok ⟨acc, stop, g.broken, c'⟩
      else
        let (g, c'', fine) := gap indent (c'.size + 1) g c'
        if !fine then .error (.token start .tab c''.mark)
        else if !inFlow && (c''.mark.column : Int) < indent then .ok ⟨acc, stop, g.broken, c''⟩
        else plainBody inFlow indent start fuel acc stop g c''

/-- A plain scalar inside the given indentation. -/
def plain (inFlow : Bool) (indent : Int) (c : Cursor) : Except Error Plain :=
  (plainBody inFlow (indent + 1) c.mark (c.size + 1) [] c.mark {} c).map fun p =>
    { p with text := p.text.reverse }

inductive Chomp where
  | strip
  | clip
  | keep
  deriving DecidableEq

def chomp? (c : Cursor) : Option Chomp :=
  match c.peek with
  | some '+' => some .keep
  | some '-' => some .strip
  | _ => none

def indentDigit? (c : Cursor) : Option Nat :=
  c.peek.bind fun ch => if '0' ≤ ch && ch ≤ '9' then some (ch.toNat - '0'.toNat) else none

/-- The indicators after `|` or `>`, in either order. -/
def header (start : Mark) (c : Cursor) : Except Error (Chomp × Nat × Cursor) :=
  match chomp? c with
  | some chomp =>
    let c := c.skip
    match indentDigit? c with
    | some 0 => .error (.token start .zeroIndent c.mark)
    | some n => .ok (chomp, n, c.skip)
    | none => .ok (chomp, 0, c)
  | none =>
    match indentDigit? c with
    | some 0 => .error (.token start .zeroIndent c.mark)
    | some n =>
      let c := c.skip
      match chomp? c with
      | some chomp => .ok (chomp, n, c.skip)
      | none => .ok (.clip, n, c)
    | none => .ok (.clip, 0, c)

/-- Empty lines of a block and the indentation of the next line. With indentation zero the
    widest line passed decides. The breaks are in reverse. -/
def blockBreaks (start : Mark) (indent : Nat) :
    Nat → Nat → List Char → Mark → Cursor → Except Error (Nat × List Char × Mark × Cursor)
  | 0, widest, breaks, stop, c => .ok (widest, breaks, stop, c)
  | fuel + 1, widest, breaks, stop, c =>
    let room := if indent = 0 then c.size else indent - c.mark.column
    let c := c.advance ((c.rest.take room).takeWhile (· = ' ')).length
    let widest := max widest c.mark.column
    if (indent = 0 || c.mark.column < indent) && c.looksAt '\t' then
      .error (.token start .blockTab c.mark)
    else if c.atBreak then
      let (text, c) := c.takeBreak
      blockBreaks start indent fuel widest (text.reverse ++ breaks) c.mark c
    else .ok (widest, breaks, stop, c)

def blockIndent (parent : Int) (indent widest : Nat) : Nat :=
  if indent = 0 then max (max widest (parent + 1).toNat) 1 else indent

/-- The lines of a block, in reverse, with the break after the last one and the breaks that
    follow it. -/
def blockLines (literal : Bool) (start : Mark) (indent : Nat) :
    Nat → List Char → Bool → List Char → List Char → Mark → Cursor →
      Except Error (List Char × List Char × List Char × Mark × Cursor)
  | 0, acc, _, lastBreak, breaks, stop, c => .ok (acc, lastBreak, breaks, stop, c)
  | fuel + 1, acc, wasBlank, lastBreak, breaks, stop, c =>
    if c.mark.column = indent && !c.atEnd then
      let blank := c.atBlank
      let joint :=
        if !literal && lastBreak.head? == some '\n' && !wasBlank && !blank then
          if breaks.isEmpty then [' '] else []
        else lastBreak.reverse
      let (line, c) := c.takeRun fun ch => !isBreak ch
      let acc := line.reverse ++ (breaks ++ (joint ++ acc))
      let (lastBreak, c) := c.takeBreak
      match blockBreaks start indent (c.size + 1) 0 [] c.mark c with
      | .error e => .error e
      | .ok (_, breaks, stop, c) =>
        blockLines literal start indent fuel acc blank lastBreak breaks stop c
    else .ok (acc, lastBreak, breaks, stop, c)

/-- A block scalar, from its indicator, inside the given indentation. -/
def block (literal : Bool) (parent : Int) (c : Cursor) :
    Except Error (String × Mark × Cursor) := do
  let start := c.mark
  let (chomp, increment, c) ← header start c.skip
  let c := c.skipRun isBlank
  let c := if c.looksAt '#' then c.skipToBreak else c
  if !c.atBreakOrEnd then
    .error (.token start .commentOrBreak c.mark)
  else
    let c := c.skipBreak
    let given := if increment = 0 then 0 else (max parent 0).toNat + increment
    let (widest, breaks, stop, c) ← blockBreaks start given (c.size + 1) 0 [] c.mark c
    let indent := blockIndent parent given widest
    let (acc, lastBreak, breaks, stop, c) ←
      blockLines literal start indent (c.size + 1) [] false [] breaks stop c
    let acc := if chomp = .strip then acc else lastBreak.reverse ++ acc
    let acc := if chomp = .keep then breaks ++ acc else acc
    .ok (String.ofList acc.reverse, stop, c)

end SchemaForge.Yaml.Scalar
