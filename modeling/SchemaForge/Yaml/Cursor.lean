import SchemaForge.Yaml.Error
import SchemaForge.Text.Utf8

/- The characters of a YAML text and a position in them. The bytes are checked to be
   well-formed UTF-8, or UTF-16 after a byte order mark, without control characters. -/
namespace SchemaForge.Yaml

namespace Source

def allowed (n : Nat) : Bool :=
  n = 0x09 || n = 0x0a || n = 0x0d || (0x20 ≤ n && n ≤ 0x7e) || n = 0x85
    || (0xa0 ≤ n && n ≤ 0xd7ff) || (0xe000 ≤ n && n ≤ 0xfffd) || (0x10000 ≤ n && n ≤ 0x10ffff)

def checked (n : Nat) : Except TextFault Char :=
  if allowed n then .ok (Char.ofNat n) else .error .control

/-- The length of a UTF-8 sequence and the bits of its first byte. -/
def leadByte? (b : UInt8) : Option (Nat × Nat) :=
  let n := b.toNat
  if n < 0x80 then some (1, n)
  else if 0xc0 ≤ n && n < 0xe0 then some (2, n - 0xc0)
  else if 0xe0 ≤ n && n < 0xf0 then some (3, n - 0xe0)
  else if 0xf0 ≤ n && n < 0xf8 then some (4, n - 0xf0)
  else none

def trailBits : Nat → Nat → Bytes → Except TextFault Nat
  | 0, value, _ => .ok value
  | _ + 1, _, [] => .error .incomplete
  | count + 1, value, b :: rest =>
    if Utf8.isTrail b then trailBits count (value * 64 + (b.toNat - 0x80)) rest
    else .error .trailingByte

def shortest : Nat → Nat
  | 2 => 0x80
  | 3 => 0x800
  | 4 => 0x10000
  | _ => 0

/-- One character and the number of further bytes that belong to it. -/
def utf8Char (b : UInt8) (rest : Bytes) : Except TextFault (Char × Nat) :=
  match leadByte? b with
  | none => .error .leadingByte
  | some (size, bits) =>
    if (rest.take (size - 1)).length < size - 1 then .error .incomplete
    else
      match trailBits (size - 1) bits rest with
      | .error e => .error e
      | .ok value =>
        if value < shortest size then .error .length
        else if (0xd800 ≤ value && value < 0xe000) || 0x10ffff < value then .error .notCharacter
        else (checked value).map fun c => (c, size - 1)

def utf8 (acc : List Char) : Nat → Bytes → Except TextFault (List Char)
  | _, [] => .ok acc.reverse
  | skip + 1, _ :: rest => utf8 acc skip rest
  | 0, b :: rest =>
    match utf8Char b rest with
    | .error e => .error e
    | .ok (c, skip) => utf8 (c :: acc) skip rest

def units (little : Bool) : Bytes → Except TextFault (List Nat)
  | [] => .ok []
  | [_] => .error .halfUnit
  | a :: b :: rest =>
    (units little rest).map fun us =>
      (if little then b.toNat * 256 + a.toNat else a.toNat * 256 + b.toNat) :: us

def utf16 (acc : List Char) : List Nat → Except TextFault (List Char)
  | [] => .ok acc.reverse
  | u :: rest =>
    if 0xdc00 ≤ u && u < 0xe000 then .error .lowSurrogate
    else if 0xd800 ≤ u && u < 0xdc00 then
      match rest with
      | [] => .error .halfPair
      | v :: rest =>
        if 0xdc00 ≤ v && v < 0xe000 then
          utf16 (Char.ofNat (0x10000 + (u - 0xd800) * 0x400 + (v - 0xdc00)) :: acc) rest
        else .error .noLowSurrogate
    else
      match checked u with
      | .error e => .error e
      | .ok c => utf16 (c :: acc) rest

def characters : Bytes → Except TextFault (List Char)
  | 0xef :: 0xbb :: 0xbf :: rest => utf8 [] 0 rest
  | 0xff :: 0xfe :: rest => (units true rest).bind (utf16 [])
  | 0xfe :: 0xff :: rest => (units false rest).bind (utf16 [])
  | bytes => utf8 [] 0 bytes

end Source

def isBreak (c : Char) : Bool :=
  c = '\n' || c = '\r' || c.toNat = 0x85 || c.toNat = 0x2028 || c.toNat = 0x2029

def isBlank (c : Char) : Bool := c = ' ' || c = '\t'

def isWord (c : Char) : Bool :=
  ('a' ≤ c && c ≤ 'z') || ('A' ≤ c && c ≤ 'Z') || ('0' ≤ c && c ≤ '9') || c = '_' || c = '-'

/-- The rest of the text with the place it starts at. The size is that of the whole text, a bound
    on the steps of every loop over the rest. -/
structure Cursor where
  rest : List Char
  mark : Mark
  size : Nat
  deriving Repr

namespace Cursor

def ofText (cs : List Char) : Cursor := ⟨cs, Mark.start, cs.length⟩

def peek (c : Cursor) : Option Char := c.rest.head?

def looksAt (c : Cursor) (ch : Char) : Bool := c.peek == some ch

def atEnd (c : Cursor) : Bool := c.rest.isEmpty

def atBreak (c : Cursor) : Bool := c.peek.any isBreak

def atBlank (c : Cursor) : Bool := c.peek.any isBlank

def atBreakOrEnd (c : Cursor) : Bool := c.atEnd || c.atBreak

/-- Blank, break or end at the start of a character list. -/
def gapAt : List Char → Bool
  | [] => true
  | ch :: _ => isBlank ch || isBreak ch

def atGap (c : Cursor) : Bool := gapAt c.rest

/-- Passes characters of the same line. -/
def advance (c : Cursor) (n : Nat) : Cursor :=
  { c with
    rest := c.rest.drop n
    mark := { c.mark with index := c.mark.index + n, column := c.mark.column + n } }

def skip (c : Cursor) : Cursor := c.advance 1

def onNextLine (c : Cursor) (rest : List Char) (n : Nat) : Cursor :=
  { c with rest := rest, mark := ⟨c.mark.index + n, c.mark.line + 1, 0⟩ }

/-- Passes a line break and gives its text: line and paragraph separators stand for themselves,
    every other break is a line feed. -/
def takeBreak (c : Cursor) : List Char × Cursor :=
  match c.rest with
  | '\r' :: '\n' :: rest => (['\n'], c.onNextLine rest 2)
  | ch :: rest =>
    if ch.toNat = 0x2028 || ch.toNat = 0x2029 then ([ch], c.onNextLine rest 1)
    else if isBreak ch then (['\n'], c.onNextLine rest 1)
    else ([], c)
  | [] => ([], c)

def skipBreak (c : Cursor) : Cursor := c.takeBreak.2

/-- The longest run of characters with a property that no break has. -/
def takeRun (p : Char → Bool) (c : Cursor) : List Char × Cursor :=
  let run := c.rest.takeWhile p
  (run, c.advance run.length)

def skipRun (p : Char → Bool) (c : Cursor) : Cursor := (c.takeRun p).2

/-- A document mark at the start of a line: three equal characters and a gap. -/
def atDocumentMark (ch : Char) (c : Cursor) : Bool :=
  c.mark.column = 0 && c.rest.take 3 == [ch, ch, ch] && gapAt (c.rest.drop 3)

def atAnyDocumentMark (c : Cursor) : Bool := c.atDocumentMark '-' || c.atDocumentMark '.'

def skipToBreak (c : Cursor) : Cursor := c.skipRun fun ch => !isBreak ch

/-- Passes blanks and breaks. -/
def skipGaps : Nat → Cursor → Cursor
  | 0, c => c
  | fuel + 1, c =>
    if c.atBlank then skipGaps fuel c.skip
    else if c.atBreak then skipGaps fuel c.skipBreak
    else c

/-- Passes a comment and the comment lines that follow it, up to the last one's break. -/
def skipComments : Nat → Cursor → Cursor
  | 0, c => c
  | fuel + 1, c =>
    let stop := c.skipToBreak
    let next := skipGaps stop.size stop
    if next.looksAt '#' then skipComments fuel next else stop

/-- Passes a comment on the line of the token just read, if there is one. -/
def skipLineComment (c : Cursor) : Cursor :=
  let next := c.skipRun isBlank
  if next.looksAt '#' then next.skipToBreak else c

end Cursor

end SchemaForge.Yaml
