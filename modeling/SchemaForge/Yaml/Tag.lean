import SchemaForge.Yaml.Cursor
import SchemaForge.Text.Chars

/- Tags, anchors and directives. -/
namespace SchemaForge.Yaml.Tag

def isUriChar (c : Char) : Bool :=
  isWord c || [';', '/', '?', ':', '@', '&', '=', '+', '$', ',', '.', '!', '~', '*', '\'', '(',
    ')', '[', ']', '%'].contains c

def octetLength (n : Nat) : Nat :=
  if n < 0x80 then 1
  else if 0xc0 ≤ n && n < 0xe0 then 2
  else if 0xe0 ≤ n && n < 0xf0 then 3
  else if 0xf0 ≤ n && n < 0xf8 then 4
  else 0

def octet? (c : Cursor) : Option Nat :=
  match c.rest with
  | '%' :: a :: b :: _ => do
    let high ← Text.hexValue? a
    let low ← Text.hexValue? b
    some (high * 16 + low)
  | _ => none

/-- The trailing octets of an escaped character, in reverse. -/
def trailOctets (start : Mark) : Nat → Bytes → Cursor → Except Error (Bytes × Cursor)
  | 0, acc, c => .ok (acc, c)
  | count + 1, acc, c =>
    match octet? c with
    | none => .error (.token start .octet c.mark)
    | some n =>
      if 0x80 ≤ n && n < 0xc0 then
        trailOctets start count (UInt8.ofNat n :: acc) (c.advance 3)
      else .error (.token start .trailingOctet c.mark)

def escapedChar (start : Mark) (c : Cursor) : Except Error (Bytes × Cursor) :=
  match octet? c with
  | none => .error (.token start .octet c.mark)
  | some n =>
    if octetLength n = 0 then .error (.token start .leadingOctet c.mark)
    else trailOctets start (octetLength n - 1) [UInt8.ofNat n] (c.advance 3)

/-- The bytes of a tag, in reverse. -/
def uriOnto (start : Mark) : Nat → Bytes → Cursor → Except Error (Bytes × Cursor)
  | 0, acc, c => .ok (acc, c)
  | fuel + 1, acc, c =>
    match c.peek with
    | none => .ok (acc, c)
    | some ch =>
      if ch = '%' then
        match escapedChar start c with
        | .error e => .error e
        | .ok (bytes, c) => uriOnto start fuel (bytes ++ acc) c
      else if isUriChar ch then uriOnto start fuel ((Utf8.encodeChars [ch]).reverse ++ acc) c.skip
      else .ok (acc, c)

/-- A tag text. What was read before as a possible handle counts, without its mark. -/
def uri (start : Mark) (head : List Char) (c : Cursor) : Except Error (String × Cursor) :=
  match uriOnto start (c.size + 1) (Utf8.encodeChars (head.drop 1)).reverse c with
  | .error e => .error e
  | .ok (acc, c') =>
    if head.isEmpty && acc.isEmpty then .error (.token start .tagText c'.mark)
    else .ok (Utf8.decode acc.reverse, c')

/-- An exclamation mark, a word, and a second mark if there is one. -/
def handle (directive : Bool) (start : Mark) (c : Cursor) :
    Except Error (List Char × Cursor) :=
  if !c.looksAt '!' then .error (.token start .bang c.mark)
  else
    let (word, c) := c.skip.takeRun isWord
    if c.looksAt '!' then .ok ('!' :: (word ++ ['!']), c.skip)
    else if directive && !word.isEmpty then .error (.token start .bang c.mark)
    else .ok ('!' :: word, c)

def isHandle (h : List Char) : Bool := 1 < h.length && h.getLast? == some '!'

/-- A tag as written: handle and suffix. -/
def read (c : Cursor) : Except Error ((String × String) × Cursor) := do
  let start := c.mark
  let (tag, c) ←
    if c.rest.drop 1 |>.head? |> (· == some '<') then do
      let (suffix, c) ← uri start [] (c.advance 2)
      if c.looksAt '>' then .ok (("", suffix), c.skip)
      else .error (.token start .tagClose c.mark)
    else do
      let (h, c) ← handle false start c
      if isHandle h then do
        let (suffix, c) ← uri start [] c
        .ok ((String.ofList h, suffix), c)
      else do
        let (suffix, c) ← uri start h c
        if suffix.isEmpty then .ok (("", "!"), c) else .ok (("!", suffix), c)
  if c.atGap then .ok (tag, c) else .error (.token start .blankOrBreak c.mark)

def endsAnchor : Option Char → Bool
  | none => true
  | some c => isBlank c || isBreak c || ['?', ':', ',', ']', '\x7d', '%', '@', '`'].contains c

/-- The name after an anchor or alias mark. -/
def anchor (c : Cursor) : Except Error (String × Cursor) :=
  let (name, c') := c.skip.takeRun isWord
  if name.isEmpty || !endsAnchor c'.peek then .error (.token c.mark .anchorName c'.mark)
  else .ok (String.ofList name, c')

inductive Directive where
  | version (major minor : Nat)
  | tag (handle stem : String)

def versionNumber (start : Mark) (c : Cursor) : Except Error (Nat × Cursor) :=
  let digits := c.rest.takeWhile fun ch => '0' ≤ ch && ch ≤ '9'
  if 2 < digits.length then .error (.token start .versionLong (c.advance 2).mark)
  else if digits.isEmpty then .error (.token start .versionDigits c.mark)
  else .ok (digits.foldl (fun n d => n * 10 + (d.toNat - '0'.toNat)) 0, c.advance digits.length)

def version (start : Mark) (c : Cursor) : Except Error (Directive × Cursor) := do
  let (major, c) ← versionNumber start (c.skipRun isBlank)
  if !c.looksAt '.' then .error (.token start .versionPoint c.mark)
  else do
    let (minor, c) ← versionNumber start c.skip
    .ok (.version major minor, c)

def tagDirective (start : Mark) (c : Cursor) : Except Error (Directive × Cursor) := do
  let (h, c) ← handle true start (c.skipRun isBlank)
  if !c.atBlank then .error (.token start .blank c.mark)
  else do
    let (stem, c) ← uri start [] (c.skipRun isBlank)
    if c.atGap then .ok (.tag (String.ofList h) stem, c)
    else .error (.token start .blankOrBreak c.mark)

/-- A directive line, with its break. The mark is where the directive itself stopped. -/
def directive (c : Cursor) : Except Error (Directive × Mark × Cursor) := do
  let start := c.mark
  let (name, c) := c.skip.takeRun isWord
  if name.isEmpty then .error (.token start .directiveName c.mark)
  else if !c.atGap then .error (.token start .directiveCharacter c.mark)
  else do
    let (d, c) ←
      if name = ['Y', 'A', 'M', 'L'] then version start c
      else if name = ['T', 'A', 'G'] then tagDirective start c
      else .error (.token start .unknownDirective c.mark)
    let stop := c.mark
    let c := c.skipRun isBlank
    let c := if c.looksAt '#' then c.skipToBreak else c
    if c.atBreakOrEnd then .ok (d, stop, c.skipBreak)
    else .error (.token start .commentOrBreak c.mark)

end SchemaForge.Yaml.Tag
