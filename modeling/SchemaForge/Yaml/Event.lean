import SchemaForge.Yaml.Token

/- The events of the first document: scalars, aliases, and the starts and ends of collections,
   in document order. An absent node is an empty plain scalar. -/
namespace SchemaForge.Yaml

inductive Event where
  | streamEnd
  | documentStart
  | documentEnd
  | alias (line : Nat) (name : String)
  | scalar (line : Nat) (anchor : Option String) (tag : String) (text : String) (plain : Bool)
  | sequenceStart (line : Nat) (anchor : Option String)
  | sequenceEnd
  | mappingStart (line : Nat) (anchor : Option String)
  | mappingEnd
  deriving DecidableEq, Repr

/-- What the grammar expects next. -/
inductive Expect where
  | streamStart
  | documentStart
  | documentContent
  | documentEnd
  | blockNode
  | sequenceFirst
  | sequenceEntry
  | indentlessEntry
  | mappingFirst
  | mappingKey
  | mappingValue
  | flowSequenceFirst
  | flowSequenceEntry
  | pairKey
  | pairValue
  | pairEnd
  | flowMappingFirst
  | flowMappingKey
  | flowMappingValue
  | flowMappingEmptyValue
  | finished
  deriving DecidableEq, Repr

structure Grammar where
  tokens : Tokens
  expect : Expect
  /-- What to expect after the node at hand, the innermost first. -/
  pending : List Expect
  /-- Where the open collections start. -/
  opened : List Mark
  stems : List (String × String)

namespace Grammar

abbrev Step := Except Error (Event × Grammar)

def ofText (cs : List Char) : Grammar :=
  { tokens := Tokens.ofText cs, expect := .streamStart, pending := [], opened := [], stems := [] }

def peek (g : Grammar) : Except Error (Token × Grammar) :=
  g.tokens.peek.map fun (token, tokens) => (token, { g with tokens := tokens })

def drop (g : Grammar) : Grammar := { g with tokens := g.tokens.drop }

/-- Drops the current token and looks at the next. -/
def advance (g : Grammar) : Except Error (Token × Grammar) := g.drop.peek

def turn (g : Grammar) (expect : Expect) : Grammar := { g with expect := expect }

def later (g : Grammar) (expect : Expect) : Grammar := { g with pending := expect :: g.pending }

def resume (g : Grammar) : Grammar :=
  { g with expect := g.pending.headD .finished, pending := g.pending.drop 1 }

def openAt (g : Grammar) (m : Mark) : Grammar := { g with opened := m :: g.opened }

def close (g : Grammar) : Grammar := { g with opened := g.opened.drop 1 }

def empty (m : Mark) : Event := .scalar (m.line + 1) none "" "" true

def contextMark (g : Grammar) : Mark := g.opened.headD Mark.start

def defaultStems : List (String × String) := [("!", "!"), ("!!", "tag:yaml.org,2002:")]

/-- Handles not declared get their default stems. -/
def withDefaults (stems : List (String × String)) : List (String × String) :=
  stems ++ defaultStems.filter fun d => !stems.any (·.1 == d.1)

/-- The directives in front of a document. -/
def directives : Nat → Bool → Token → Grammar → Except Error (Token × Grammar)
  | 0, _, token, g => .ok (token, g)
  | fuel + 1, versioned, token, g =>
    match token.lexeme with
    | .version major minor =>
      if versioned then .error (.grammar Mark.start .secondVersion token.start)
      else if major != 1 || minor != 1 then .error (.grammar Mark.start .version token.start)
      else do
        let (token, g) ← g.advance
        directives fuel true token g
    | .tagStem handle stem =>
      if g.stems.any (·.1 == handle) then .error (.grammar Mark.start .secondTag token.start)
      else do
        let (token, g) ← { g with stems := g.stems ++ [(handle, stem)] }.advance
        directives fuel versioned token g
    | _ => .ok (token, { g with stems := withDefaults g.stems })

def documentStart (g : Grammar) : Step := do
  let (token, g) ← g.peek
  match token.lexeme with
  | .streamEnd => .ok (.streamEnd, g.drop.turn .finished)
  | .version .. | .tagStem .. | .documentStart => do
    let (token, g) ← directives (g.tokens.cursor.size + 4) false token g
    if token.lexeme == .documentStart then
      .ok (.documentStart, (g.later .documentEnd).drop.turn .documentContent)
    else .error (.grammar Mark.start .documentStart token.start)
  | _ => .ok (.documentStart,
      ({ g with stems := withDefaults g.stems }.later .documentEnd).turn .blockNode)

def fullTag (g : Grammar) (context : Mark) : Option (Token × String × String) → Except Error String
  | none => .ok ""
  | some (token, handle, suffix) =>
    if handle.isEmpty then .ok suffix
    else
      match g.stems.find? (·.1 == handle) with
      | some (_, stem) =>
        if (stem ++ suffix).isEmpty then .error (.grammar context .unknownHandle token.start)
        else .ok (stem ++ suffix)
      | none => .error (.grammar context .unknownHandle token.start)

structure Properties where
  start : Mark
  anchor : Option String
  tag : Option (Token × String × String)

/-- An anchor and a tag in front of a node, in either order. -/
def properties (g : Grammar) : Except Error (Properties × Token × Grammar) := do
  let (first, g) ← g.peek
  match first.lexeme with
  | .anchor name => do
    let (token, g) ← g.advance
    match token.lexeme with
    | .tag handle suffix => do
      let (next, g) ← g.advance
      .ok (⟨first.start, some name, some (token, handle, suffix)⟩, next, g)
    | _ => .ok (⟨first.start, some name, none⟩, token, g)
  | .tag handle suffix => do
    let (token, g) ← g.advance
    match token.lexeme with
    | .anchor name => do
      let (next, g) ← g.advance
      .ok (⟨first.start, some name, some (first, handle, suffix)⟩, next, g)
    | _ => .ok (⟨first.start, none, some (first, handle, suffix)⟩, token, g)
  | _ => .ok (⟨first.start, none, none⟩, first, g)

/-- A node: an alias, a scalar or the start of a collection. In block context a collection may
    be written in block style, and a mapping's sequence may stand at the mapping's indentation. -/
def node (block indentless : Bool) (g : Grammar) : Step := do
  let (first, g) ← g.peek
  match first.lexeme with
  | .alias name => .ok (.alias (first.start.line + 1) name, g.resume.drop)
  | _ => do
    let (props, token, g) ← g.properties
    let tag ← g.fullTag props.start props.tag
    let line := props.start.line + 1
    match token.lexeme with
    | .scalar text plain => .ok (.scalar line props.anchor tag text plain, g.resume.drop)
    | .flowSequenceStart => .ok (.sequenceStart line props.anchor, g.turn .flowSequenceFirst)
    | .flowMappingStart => .ok (.mappingStart line props.anchor, g.turn .flowMappingFirst)
    | .blockEntry =>
      if indentless then .ok (.sequenceStart line props.anchor, g.turn .indentlessEntry)
      else bare props tag token g
    | .blockSequenceStart =>
      if block then .ok (.sequenceStart line props.anchor, g.turn .sequenceFirst)
      else bare props tag token g
    | .blockMappingStart =>
      if block then .ok (.mappingStart line props.anchor, g.turn .mappingFirst)
      else bare props tag token g
    | _ => bare props tag token g
where
  /-- Properties alone make an empty scalar. -/
  bare (props : Properties) (tag : String) (token : Token) (g : Grammar) : Step :=
    if props.anchor.isSome || !tag.isEmpty then
      .ok (.scalar (props.start.line + 1) props.anchor tag "" true, g.resume)
    else .error (.grammar props.start .node token.start)

def documentContent (g : Grammar) : Step := do
  let (token, g) ← g.peek
  match token.lexeme with
  | .version .. | .tagStem .. | .documentStart | .documentEnd | .streamEnd =>
    .ok (empty token.start, g.resume)
  | _ => g.node true false

def documentEnd (g : Grammar) : Step := do
  let (token, g) ← g.peek
  let g := if token.lexeme == .documentEnd then g.drop else g
  .ok (.documentEnd, { g with stems := [] }.turn .documentStart)

def opening (first : Bool) (g : Grammar) : Except Error Grammar :=
  if first then g.peek.map fun (token, g) => (g.openAt token.start).drop else .ok g

def sequenceEntry (first : Bool) (g : Grammar) : Step := do
  let g ← g.opening first
  let (token, g) ← g.peek
  match token.lexeme with
  | .blockEntry => do
    let (next, g) ← g.advance
    match next.lexeme with
    | .blockEntry | .blockEnd => .ok (empty token.stop, g.turn .sequenceEntry)
    | _ => (g.later .sequenceEntry).node true false
  | .blockEnd => .ok (.sequenceEnd, g.resume.close.drop)
  | _ => .error (.grammar g.contextMark .dash token.start)

def indentlessEntry (g : Grammar) : Step := do
  let (token, g) ← g.peek
  match token.lexeme with
  | .blockEntry => do
    let (next, g) ← g.advance
    match next.lexeme with
    | .blockEntry | .key | .value | .blockEnd => .ok (empty token.stop, g.turn .indentlessEntry)
    | _ => (g.later .indentlessEntry).node true false
  | _ => .ok (.sequenceEnd, g.resume)

def mappingKey (first : Bool) (g : Grammar) : Step := do
  let g ← g.opening first
  let (token, g) ← g.peek
  match token.lexeme with
  | .key => do
    let (next, g) ← g.advance
    match next.lexeme with
    | .key | .value | .blockEnd => .ok (empty token.stop, g.turn .mappingValue)
    | _ => (g.later .mappingValue).node true true
  | .blockEnd => .ok (.mappingEnd, g.resume.close.drop)
  | _ => .error (.grammar g.contextMark .key token.start)

def mappingValue (g : Grammar) : Step := do
  let (token, g) ← g.peek
  match token.lexeme with
  | .value => do
    let (next, g) ← g.advance
    match next.lexeme with
    | .key | .value | .blockEnd => .ok (empty token.stop, g.turn .mappingKey)
    | _ => (g.later .mappingKey).node true true
  | _ => .ok (empty token.start, g.turn .mappingKey)

/-- The token after the comma that separates the entries of a flow collection. -/
def afterComma (first : Bool) (fault : GrammarFault) (token : Token) (g : Grammar) :
    Except Error (Token × Grammar) :=
  if first then .ok (token, g)
  else if token.lexeme == .flowEntry then g.advance
  else .error (.grammar g.contextMark fault token.start)

def flowSequenceEntry (first : Bool) (g : Grammar) : Step := do
  let g ← g.opening first
  let (token, g) ← g.peek
  if token.lexeme == .flowSequenceEnd then .ok (.sequenceEnd, g.resume.close.drop)
  else do
    let (token, g) ← afterComma first .flowSequence token g
    match token.lexeme with
    | .key => .ok (.mappingStart (token.start.line + 1) none, (g.turn .pairKey).drop)
    | .flowSequenceEnd => .ok (.sequenceEnd, g.resume.close.drop)
    | _ => (g.later .flowSequenceEntry).node false false

/-- A key and value inside a flow sequence make a mapping of one entry. -/
def pairKey (g : Grammar) : Step := do
  let (token, g) ← g.peek
  match token.lexeme with
  | .value | .flowEntry | .flowSequenceEnd => .ok (empty token.stop, g.drop.turn .pairValue)
  | _ => (g.later .pairValue).node false false

def pairValue (g : Grammar) : Step := do
  let (token, g) ← g.peek
  if token.lexeme == .value then do
    let (next, g) ← g.advance
    match next.lexeme with
    | .flowEntry | .flowSequenceEnd => .ok (empty token.start, g.turn .pairEnd)
    | _ => (g.later .pairEnd).node false false
  else .ok (empty token.start, g.turn .pairEnd)

def flowMappingKey (first : Bool) (g : Grammar) : Step := do
  let g ← g.opening first
  let (token, g) ← g.peek
  if token.lexeme == .flowMappingEnd then .ok (.mappingEnd, g.resume.close.drop)
  else do
    let (token, g) ← afterComma first .flowMapping token g
    match token.lexeme with
    | .key => do
      let (next, g) ← g.advance
      match next.lexeme with
      | .value | .flowEntry | .flowMappingEnd => .ok (empty next.start, g.turn .flowMappingValue)
      | _ => (g.later .flowMappingValue).node false false
    | .flowMappingEnd => .ok (.mappingEnd, g.resume.close.drop)
    | _ => (g.later .flowMappingEmptyValue).node false false

def flowMappingValue (g : Grammar) : Step := do
  let (token, g) ← g.peek
  if token.lexeme == .value then do
    let (next, g) ← g.advance
    match next.lexeme with
    | .flowEntry | .flowMappingEnd => .ok (empty next.start, g.turn .flowMappingKey)
    | _ => (g.later .flowMappingKey).node false false
  else .ok (empty token.start, g.turn .flowMappingKey)

def next (g : Grammar) : Step :=
  match g.expect with
  | .streamStart => do
    let (_, g) ← g.peek
    g.drop.documentStart
  | .documentStart => g.documentStart
  | .documentContent => g.documentContent
  | .documentEnd => g.documentEnd
  | .blockNode => g.node true false
  | .sequenceFirst => g.sequenceEntry true
  | .sequenceEntry => g.sequenceEntry false
  | .indentlessEntry => g.indentlessEntry
  | .mappingFirst => g.mappingKey true
  | .mappingKey => g.mappingKey false
  | .mappingValue => g.mappingValue
  | .flowSequenceFirst => g.flowSequenceEntry true
  | .flowSequenceEntry => g.flowSequenceEntry false
  | .pairKey => g.pairKey
  | .pairValue => g.pairValue
  | .pairEnd => .ok (.mappingEnd, g.turn .flowSequenceEntry)
  | .flowMappingFirst => g.flowMappingKey true
  | .flowMappingKey => g.flowMappingKey false
  | .flowMappingValue => g.flowMappingValue
  | .flowMappingEmptyValue => do
    let (token, g) ← g.peek
    .ok (empty token.start, g.turn .flowMappingKey)
  | .finished => .ok (.streamEnd, g)

/-- Events up to the end of the first document, and the error that cut them short. -/
def collect : Nat → List Event → Grammar → List Event × Option Error
  | 0, acc, _ => (acc.reverse, none)
  | fuel + 1, acc, g =>
    match g.next with
    | .error e => (acc.reverse, some e)
    | .ok (event, g) =>
      if event == .documentEnd || event == .streamEnd then ((event :: acc).reverse, none)
      else collect fuel (event :: acc) g

end Grammar

/-- Every token makes a bounded number of events, so the size of the text bounds their number. -/
def events (cs : List Char) : List Event × Option Error :=
  Grammar.collect (8 * cs.length + 64) [] (Grammar.ofText cs)

end SchemaForge.Yaml
