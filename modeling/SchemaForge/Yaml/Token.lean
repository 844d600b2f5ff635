import SchemaForge.Yaml.Scalar
import SchemaForge.Yaml.Tag

/- The tokens of a YAML text. Whether a scalar or collection is a mapping key shows only at the
   colon after it, so tokens wait in a queue while one of them may still turn out to be a key;
   then the key token is put in front of it. Indentation opens and closes block collections by
   tokens of their own. -/
namespace SchemaForge.Yaml

inductive Lexeme where
  | streamStart
  | streamEnd
  | version (major minor : Nat)
  | tagStem (handle stem : String)
  | documentStart
  | documentEnd
  | blockSequenceStart
  | blockMappingStart
  | blockEnd
  | flowSequenceStart
  | flowSequenceEnd
  | flowMappingStart
  | flowMappingEnd
  | blockEntry
  | flowEntry
  | key
  | value
  | alias (name : String)
  | anchor (name : String)
  | tag (handle suffix : String)
  | scalar (text : String) (plain : Bool)
  deriving DecidableEq, Repr

structure Token where
  lexeme : Lexeme
  start : Mark
  stop : Mark
  deriving DecidableEq, Repr

/-- A place where a key may have started, with the number of its first token. A required key
    has to be followed by a colon. -/
structure PossibleKey where
  possible : Bool
  required : Bool
  number : Nat
  mark : Mark
  deriving Repr

def PossibleKey.none : PossibleKey := ⟨false, false, 0, Mark.start⟩

structure Tokens where
  cursor : Cursor
  started : Bool
  flowLevel : Nat
  indent : Int
  indents : List Int
  /-- One per flow level, the innermost first. -/
  keys : List PossibleKey
  keyAllowed : Bool
  queue : List Token
  taken : Nat
  deriving Repr

namespace Tokens

def ofText (cs : List Char) : Tokens :=
  { cursor := Cursor.ofText cs, started := false, flowLevel := 0, indent := -1, indents := [],
    keys := [], keyAllowed := false, queue := [], taken := 0 }

def maxDepth : Nat := 10000

def inFlow (s : Tokens) : Bool := 0 < s.flowLevel

def mark (s : Tokens) : Mark := s.cursor.mark

def push (s : Tokens) (token : Token) : Tokens := { s with queue := s.queue ++ [token] }

def insertAt (s : Tokens) (position : Nat) (token : Token) : Tokens :=
  { s with queue := s.queue.take position ++ token :: s.queue.drop position }

/-- The number the next token will have. -/
def nextNumber (s : Tokens) : Nat := s.taken + s.queue.length

def currentKey (s : Tokens) : PossibleKey := s.keys.headD PossibleKey.none

def setKey (s : Tokens) (key : PossibleKey) : Tokens := { s with keys := key :: s.keys.drop 1 }

/-- A key lies on one line and within 1024 characters. -/
def keyExpired (s : Tokens) (key : PossibleKey) : Bool :=
  key.mark.line < s.mark.line || key.mark.index + 1024 < s.mark.index

/-- Whether a possible key is one still; it is an error to lose a required one. -/
def keyValid (s : Tokens) (key : PossibleKey) : Except Error Bool :=
  if !key.possible then .ok false
  else if s.keyExpired key then
    if key.required then .error (.token key.mark .colon s.mark) else .ok false
  else .ok true

def removeKey (s : Tokens) : Except Error Tokens :=
  let key := s.currentKey
  if key.possible && key.required then .error (.token key.mark .colon s.mark)
  else .ok (s.setKey { key with possible := false })

/-- Notes that a key may start here. -/
def saveKey (s : Tokens) : Except Error Tokens :=
  if s.keyAllowed then do
    let required := !s.inFlow && s.indent == (s.mark.column : Int)
    let key : PossibleKey := ⟨true, required, s.nextNumber, s.mark⟩
    let s ← s.removeKey
    .ok (s.setKey key)
  else .ok s

/-- Opens a block collection if the column is deeper than the indentation. Its token goes to the
    given place of the queue, or to the end. -/
def rollIndent (s : Tokens) (column : Nat) (number : Option Nat) (lexeme : Lexeme) (place : Mark) :
    Except Error Tokens :=
  if s.inFlow || (column : Int) ≤ s.indent then .ok s
  else if maxDepth ≤ s.indents.length then .error (.token s.currentKey.mark .tooDeep s.mark)
  else
    let s := { s with indents := s.indent :: s.indents, indent := column }
    let token : Token := ⟨lexeme, place, place⟩
    .ok (match number with
      | some n => s.insertAt (n - s.taken) token
      | none => s.push token)

/-- Closes block collections that are deeper than the column. -/
def unrollOnto (column : Int) (place : Mark) : List Int → Tokens → Tokens
  | [], s => s
  | outer :: rest, s =>
    if column < s.indent then
      unrollOnto column place rest
        { s.push ⟨.blockEnd, place, place⟩ with indent := outer, indents := rest }
    else s

def unrollIndent (s : Tokens) (column : Int) (place : Mark) : Tokens :=
  if s.inFlow then s else unrollOnto column place s.indents s

/-- Passes blanks, comments and breaks. A break in block context allows a key. -/
def skipToToken (flow : Bool) : Nat → Bool → Cursor → Bool × Cursor
  | 0, allowed, c => (allowed, c)
  | fuel + 1, allowed, c =>
    let c := if c.mark.column = 0 && c.looksAt (Char.ofNat 0xfeff) then c.skip else c
    let c := c.skipRun fun ch => ch = ' ' || ((flow || !allowed) && ch = '\t')
    let c := if c.looksAt '#' then c.skipComments (c.size + 1) else c
    if c.atBreak then skipToToken flow fuel (allowed || !flow) c.skipBreak else (allowed, c)

/-- Takes `n` characters as one token. -/
def single (s : Tokens) (lexeme : Lexeme) (n : Nat) : Tokens :=
  let stop := s.cursor.advance n
  { s.push ⟨lexeme, s.mark, stop.mark⟩ with cursor := stop }

def fetchStreamEnd (s : Tokens) : Except Error Tokens := do
  let m := s.mark
  let m := if m.column = 0 then m else { m with line := m.line + 1, column := 0 }
  let s := { s with cursor := { s.cursor with mark := m } }
  let s ← (s.unrollIndent (-1) m).removeKey
  .ok ({ s with keyAllowed := false }.push ⟨.streamEnd, m, m⟩)

def fetchDirective (s : Tokens) : Except Error Tokens := do
  let start := s.mark
  let s ← (s.unrollIndent (-1) start).removeKey
  let (d, stop, c) ← Tag.directive s.cursor
  let lexeme := match d with
    | .version major minor => Lexeme.version major minor
    | .tag handle stem => Lexeme.tagStem handle stem
  .ok { s.push ⟨lexeme, start, stop⟩ with keyAllowed := false, cursor := c }

def fetchDocumentMark (s : Tokens) (lexeme : Lexeme) : Except Error Tokens := do
  let s ← (s.unrollIndent (-1) s.mark).removeKey
  .ok ({ s with keyAllowed := false }.single lexeme 3)

def fetchFlowStart (s : Tokens) (lexeme : Lexeme) : Except Error Tokens := do
  let s ← s.saveKey
  if maxDepth ≤ s.flowLevel then .error (.token s.currentKey.mark .tooDeep s.mark)
  else
    let s := { s with keys := PossibleKey.none :: s.keys, flowLevel := s.flowLevel + 1 }
    .ok ({ s with keyAllowed := true }.single lexeme 1)

def fetchFlowEnd (s : Tokens) (lexeme : Lexeme) : Except Error Tokens := do
  let s ← s.removeKey
  let s := if s.inFlow then { s with flowLevel := s.flowLevel - 1, keys := s.keys.drop 1 } else s
  .ok ({ s with keyAllowed := false }.single lexeme 1)

def fetchFlowEntry (s : Tokens) : Except Error Tokens := do
  let s ← s.removeKey
  .ok ({ s with keyAllowed := true }.single .flowEntry 1)

def fetchBlockEntry (s : Tokens) : Except Error Tokens := do
  let s ←
    if s.inFlow then .ok s
    else if !s.keyAllowed then .error (.token s.mark .entryHere s.mark)
    else s.rollIndent s.mark.column none .blockSequenceStart s.mark
  let s ← s.removeKey
  .ok ({ s with keyAllowed := true }.single .blockEntry 1)

def fetchKey (s : Tokens) : Except Error Tokens := do
  let s ←
    if s.inFlow then .ok s
    else if !s.keyAllowed then .error (.token s.mark .keyHere s.mark)
    else s.rollIndent s.mark.column none .blockMappingStart s.mark
  let s ← s.removeKey
  .ok ({ s with keyAllowed := !s.inFlow }.single .key 1)

def fetchValue (s : Tokens) : Except Error Tokens := do
  let key := s.currentKey
  let s ←
    if ← s.keyValid key then do
      let s := s.insertAt (key.number - s.taken) ⟨.key, key.mark, key.mark⟩
      let s ← s.rollIndent key.mark.column (some key.number) .blockMappingStart key.mark
      .ok { s.setKey { key with possible := false } with keyAllowed := false }
    else do
      let s := s.setKey { key with possible := false }
      let s ←
        if s.inFlow then .ok s
        else if !s.keyAllowed then .error (.token s.mark .valueHere s.mark)
        else s.rollIndent s.mark.column none .blockMappingStart s.mark
      .ok { s with keyAllowed := !s.inFlow }
  .ok (s.single .value 1)

def fetchAnchor (s : Tokens) (lexeme : String → Lexeme) : Except Error Tokens := do
  let s ← s.saveKey
  let (name, c) ← Tag.anchor s.cursor
  .ok { s.push ⟨lexeme name, s.mark, c.mark⟩ with keyAllowed := false, cursor := c }

def fetchTag (s : Tokens) : Except Error Tokens := do
  let s ← s.saveKey
  let ((handle, suffix), c) ← Tag.read s.cursor
  .ok { s.push ⟨.tag handle suffix, s.mark, c.mark⟩ with keyAllowed := false, cursor := c }

def fetchBlockScalar (s : Tokens) (literal : Bool) : Except Error Tokens := do
  let s ← s.removeKey
  let (text, stop, c) ← Scalar.block literal s.indent s.cursor
  .ok { s.push ⟨.scalar text false, s.mark, stop⟩ with keyAllowed := true, cursor := c }

def fetchQuoted (s : Tokens) (single : Bool) : Except Error Tokens := do
  let s ← s.saveKey
  let (text, c) ← Scalar.quoted single s.cursor
  .ok { s.push ⟨.scalar text false, s.mark, c.mark⟩ with keyAllowed := false, cursor := c }

/-- The flag tells whether the scalar passed a line break after its text. -/
def fetchPlain (s : Tokens) : Except Error (Tokens × Bool) := do
  let s ← s.saveKey
  let p ← Scalar.plain s.inFlow s.indent s.cursor
  .ok ({ s.push ⟨.scalar (String.ofList p.text) true, s.mark, p.stop⟩ with
    keyAllowed := p.broken, cursor := p.cursor }, p.broken)

/-- Characters that start no plain scalar, whatever follows. -/
def isIndicator (c : Char) : Bool :=
  ['-', '?', ':', ',', '[', ']', '\x7b', '\x7d', '#', '&', '*', '!', '|', '>', '\'', '"', '%',
    '@', '`'].contains c

def startsPlain (flow : Bool) (ch : Char) (rest : List Char) : Bool :=
  !(isBlank ch || isBreak ch || isIndicator ch)
    || (ch = '-' && !(rest.head?.any isBlank))
    || (!flow && (ch = '?' || ch = ':') && !Cursor.gapAt rest)

def withLineComment (s : Tokens) : Tokens := { s with cursor := s.cursor.skipLineComment }

/-- The token that starts at the cursor, which is neither at the end of the text nor at a
    directive or document mark. -/
def fetchContent (s : Tokens) (ch : Char) (rest : List Char) : Except Error Tokens :=
  let commented (r : Except Error Tokens) : Except Error Tokens := r.map withLineComment
  if ch = '[' then commented (s.fetchFlowStart .flowSequenceStart)
  else if ch = '\x7b' then commented (s.fetchFlowStart .flowMappingStart)
  else if ch = ']' then commented (s.fetchFlowEnd .flowSequenceEnd)
  else if ch = '\x7d' then commented (s.fetchFlowEnd .flowMappingEnd)
  else if ch = ',' then commented s.fetchFlowEntry
  else if ch = '-' && Cursor.gapAt rest then s.fetchBlockEntry
  else if ch = '?' && (s.inFlow || Cursor.gapAt rest) then commented s.fetchKey
  else if ch = ':' && (s.inFlow || Cursor.gapAt rest) then commented s.fetchValue
  else if ch = '*' then commented (s.fetchAnchor .alias)
  else if ch = '&' then commented (s.fetchAnchor .anchor)
  else if ch = '!' then commented s.fetchTag
  else if ch = '|' && !s.inFlow then s.fetchBlockScalar true
  else if ch = '>' && !s.inFlow then s.fetchBlockScalar false
  else if ch = '\'' then commented (s.fetchQuoted true)
  else if ch = '"' then commented (s.fetchQuoted false)
  else if startsPlain s.inFlow ch rest then
    s.fetchPlain.map fun (s, broken) => if broken then s else s.withLineComment
  else .error (.token s.mark .noToken s.mark)

/-- Reads at least one more token into the queue. -/
def fetch (s : Tokens) : Except Error Tokens :=
  if !s.started then
    .ok { s.push ⟨.streamStart, s.mark, s.mark⟩ with
      started := true, keyAllowed := true, keys := [PossibleKey.none] }
  else
    let place := s.mark
    let (allowed, c) := skipToToken s.inFlow (s.cursor.size + 1) s.keyAllowed s.cursor
    let s := { s with keyAllowed := allowed, cursor := c }.unrollIndent c.mark.column place
    match c.rest with
    | [] => s.fetchStreamEnd
    | ch :: rest =>
      if c.mark.column = 0 && ch = '%' then s.fetchDirective
      else if c.atDocumentMark '-' then s.fetchDocumentMark .documentStart
      else if c.atDocumentMark '.' then s.fetchDocumentMark .documentEnd
      else s.fetchContent ch rest

/-- Whether the first token of the queue is settled: two more tokens follow it and it is no
    possible key. -/
def settled (s : Tokens) : Except Error Bool :=
  if s.queue.length ≤ 2 then .ok false
  else
    match s.keys.find? fun key => key.possible && key.number == s.taken with
    | none => .ok true
    | some key => (s.keyValid key).map (!·)

def settle : Nat → Tokens → Except Error Tokens
  | 0, s => .ok s
  | fuel + 1, s =>
    match s.settled with
    | .error e => .error e
    | .ok true => .ok s
    | .ok false =>
      match s.fetch with
      | .error e => .error e
      | .ok s => settle fuel s

/-- The next token, which stays in the queue. -/
def peek (s : Tokens) : Except Error (Token × Tokens) := do
  let s ← s.settle (s.cursor.size + 4)
  match s.queue with
  | token :: _ => .ok (token, s)
  | [] => .ok (⟨.streamEnd, s.mark, s.mark⟩, s)

def drop (s : Tokens) : Tokens := { s with queue := s.queue.drop 1, taken := s.taken + 1 }

end Tokens

end SchemaForge.Yaml
