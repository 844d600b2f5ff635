import SchemaForge.Text.Quoted
import SchemaForge.Text.Utf8

/- Name patterns. A star stands for any text, a question mark for one character, brackets for one
   character of a class, and braces for a choice between patterns. A backslash takes the next
   character as it is. A choice that is not closed ends with the pattern. -/
namespace SchemaForge.Glob

inductive Node where
  | text (chars : List Char)
  | star (wide : Bool)
  | single
  | oneOf (negated : Bool) (members : List Char)
  | between (negated : Bool) (lo hi : Char)
  | group (nodes : List Node)
  | choice (branches : List (List Node))
  deriving BEq, Repr, Inhabited

inductive Fault where
  | unreadable
  | unexpectedEnd
  | unclosedClass
  | emptyClass
  | reversedRange (lo hi : Char)
  deriving DecidableEq, Repr

def Fault.message : Fault → String
  | .unreadable => "could not read rune"
  | .unexpectedEnd => "unexpected end of input"
  | .unclosedClass => "expected close range character"
  | .emptyClass => "could not parse range"
  | .reversedRange lo hi =>
    "hi character '" ++ String.ofList [hi] ++ "' should be greater than lo '" ++ String.ofList [lo]
      ++ "'"

/- The zero character ends what is being read, and the replacement character is refused. -/
def isStop (c : Char) : Bool := c.toNat = 0 || c = Utf8.replacement

/-- The text up to a character that stops it, and what follows. A zero character is dropped. -/
def textRun (stops : Char → Bool) : List Char → List Char × List Char
  | '\\' :: c :: rest =>
    if c.toNat = 0 then ([], rest)
    else if c = Utf8.replacement then ([], c :: rest)
    else
      let (run, left) := textRun stops rest
      (c :: run, left)
  | ['\\'] => ([], [])
  | c :: rest =>
    if c.toNat = 0 then ([], rest)
    else if stops c || c = Utf8.replacement then ([], c :: rest)
    else
      let (run, left) := textRun stops rest
      (c :: run, left)
  | [] => ([], [])

def closeClass (node : Node) : List Char → Except Fault (Node × List Char)
  | [] => .error .unexpectedEnd
  | c :: rest =>
    if isStop c then .error .unexpectedEnd
    else if c = ']' then .ok (node, rest)
    else .error .unclosedClass

/-- A class after its bracket and its mark of negation. Two characters around a dash are a
    range, and nothing may follow them. -/
def classBody (negated : Bool) (cs : List Char) : Except Fault (Node × List Char) :=
  let listed : Except Fault (Node × List Char) :=
    let (run, left) := textRun (· = ']') cs
    match closeClass (.oneOf negated run) left with
    | .error e => .error e
    | .ok r => if run.isEmpty then .error .emptyClass else .ok r
  match cs with
  | [] => .error .unexpectedEnd
  | lo :: rest =>
    if isStop lo then .error .unexpectedEnd
    else
      match rest with
      | '-' :: hi :: rest =>
        if isStop hi then .error .unexpectedEnd
        else
          match closeClass (.between negated lo hi) rest with
          | .error e => .error e
          | .ok r => if hi < lo then .error (.reversedRange lo hi) else .ok r
      | ['-'] => .error .unexpectedEnd
      | _ => listed

def classOf : List Char → Except Fault (Node × List Char)
  | '!' :: rest => classBody true rest
  | cs => classBody false cs

/- An open choice: the branches that are finished, last first, and what stood before it. -/
structure Open where
  branches : List (List Node)
  outer : List Node

/-- Closes all choices that are open. Nodes are collected last first. -/
def finish (current : List Node) : List Open → List Node
  | [] => current.reverse
  | o :: rest => finish (.choice ((current.reverse :: o.branches).reverse) :: o.outer) rest

def stopsText (c : Char) : Bool := c = '?' || c = '*' || c = '[' || c = '\x7b'

def stopsBranch (c : Char) : Bool := stopsText c || c = '\x7d' || c = ','

/-- Reads one item after the other; every item takes at least one character. -/
def items : Nat → List Open → List Node → List Char → Except Fault (List Node)
  | 0, opens, current, _ => .ok (finish current opens)
  | _ + 1, opens, current, [] => .ok (finish current opens)
  | fuel + 1, opens, current, c :: rest =>
    if c.toNat = 0 then .ok (finish current opens)
    else if c = Utf8.replacement then .error .unreadable
    else if c = '\x7b' then items fuel (⟨[], current⟩ :: opens) [] rest
    else if c = '[' then
      match classOf rest with
      | .error e => .error e
      | .ok (node, rest) => items fuel opens (node :: current) rest
    else if c = '?' then items fuel opens (.single :: current) rest
    else if c = '*' then
      match rest with
      | '*' :: rest => items fuel opens (.star true :: current) rest
      | _ => items fuel opens (.star false :: current) rest
    else
      match opens with
      | [] =>
        let (run, rest) := textRun stopsText (c :: rest)
        items fuel [] (if run.isEmpty then current else .text run :: current) rest
      | o :: outer =>
        if c = ',' then items fuel (⟨current.reverse :: o.branches, o.outer⟩ :: outer) [] rest
        else if c = '\x7d' then
          items fuel outer (.choice ((current.reverse :: o.branches).reverse) :: o.outer) rest
        else
          let (run, rest) := textRun stopsBranch (c :: rest)
          items fuel opens (if run.isEmpty then current else .text run :: current) rest

def parse (pattern : String) : Except Fault (List Node) :=
  items (pattern.toList.length + 1) [] [] pattern.toList

end SchemaForge.Glob
