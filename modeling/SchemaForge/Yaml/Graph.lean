import SchemaForge.Yaml.Event
import SchemaForge.Yaml.Plain
import SchemaForge.Json.Basic

/- The node graph of a document and its tree. An anchor is known from the start of its node on,
   so an alias may stand inside the very node it names; then the graph has a cycle and its
   expansion has no end. -/
namespace SchemaForge.Yaml

inductive Node where
  | scalar (line : Nat) (type : ScalarType) (text : String)
  | sequence (line : Nat) (items : List Node)
  | mapping (line : Nat) (entries : List (Node × Node))
  | alias (line : Nat) (target : Nat)
  deriving Repr, Inhabited

def Node.line : Node → Nat
  | .scalar line .. | .sequence line _ | .mapping line _ | .alias line _ => line

/-- A document: its root and the anchored nodes that aliases refer to. -/
structure Graph where
  root : Node
  anchored : List (Nat × Node)

/-- Tags decide the type; without one, quoted scalars are strings and plain ones go by their
    spelling. -/
def scalarType (tag text : String) (plain : Bool) : ScalarType :=
  if tag ≠ "" && tag ≠ "!" then ScalarType.ofTag tag
  else if !plain then .str
  else if text = "<<" then .other "!!merge"
  else Plain.type text

namespace Builder

/-- A collection that is still open, with the number of its anchor. -/
inductive Frame where
  | sequence (line : Nat) (anchor : Option Nat) (items : List Node)
  | mapping (line : Nat) (anchor : Option Nat) (entries : List (Node × Node)) (key : Option Node)

structure State where
  stack : List Frame := []
  /-- The latest anchor of each name. -/
  names : List (String × Nat) := []
  anchored : List (Nat × Node) := []
  fresh : Nat := 0
  root : Option Node := none

def State.anchor (s : State) : Option String → Option Nat × State
  | none => (none, s)
  | some name =>
    (some s.fresh, { s with names := (name, s.fresh) :: s.names, fresh := s.fresh + 1 })

def State.record (s : State) (anchor : Option Nat) (n : Node) : State :=
  match anchor with
  | none => s
  | some id => { s with anchored := (id, n) :: s.anchored }

/-- Hands a finished node to the innermost open collection. -/
def State.deliver (s : State) (n : Node) : State :=
  match s.stack with
  | [] => { s with root := some n }
  | .sequence line anchor items :: rest =>
    { s with stack := .sequence line anchor (n :: items) :: rest }
  | .mapping line anchor entries none :: rest =>
    { s with stack := .mapping line anchor entries (some n) :: rest }
  | .mapping line anchor entries (some key) :: rest =>
    { s with stack := .mapping line anchor ((key, n) :: entries) none :: rest }

def step (s : State) : Event → Except Error State
  | .alias line name =>
    match s.names.find? (·.1 == name) with
    | some (_, id) => .ok (s.deliver (.alias line id))
    | none => .error (.unknownAnchor name)
  | .scalar line anchor tag text plain =>
    let n := Node.scalar line (scalarType tag text plain) text
    let (id, s) := s.anchor anchor
    .ok ((s.record id n).deliver n)
  | .sequenceStart line anchor =>
    let (id, s) := s.anchor anchor
    .ok { s with stack := .sequence line id [] :: s.stack }
  | .mappingStart line anchor =>
    let (id, s) := s.anchor anchor
    .ok { s with stack := .mapping line id [] none :: s.stack }
  | .sequenceEnd | .mappingEnd =>
    match s.stack with
    | .sequence line id items :: rest =>
      let n := Node.sequence line items.reverse
      .ok (({ s with stack := rest }.record id n).deliver n)
    | .mapping line id entries _ :: rest =>
      let n := Node.mapping line entries.reverse
      .ok (({ s with stack := rest }.record id n).deliver n)
    | [] => .ok s
  | .documentStart | .documentEnd | .streamEnd => .ok s

def run (s : State) : List Event → Except Error State
  | [] => .ok s
  | event :: rest =>
    match step s event with
    | .error e => .error e
    | .ok s => run s rest

end Builder

/-- The graph of the first document, if the text has one. -/
def Graph.ofText (cs : List Char) : Except Error (Option Graph) := do
  let (es, failure) := events cs
  let s ← Builder.run {} es
  match failure with
  | some e => .error e
  | none => .ok (s.root.map fun root => ⟨root, s.anchored⟩)

namespace Graph

def scalar (line : Nat) (type : ScalarType) (text : String) : Except Error Json :=
  match type with
  | .null => .ok .null
  | .bool =>
    match Plain.bool? text with
    | some b => .ok (.bool b)
    | none => .error (.notBoolean line (Plain.type text).tag text)
  | .int | .float => .ok (.num text)
  | .str | .other _ => .ok (.str text)

/-- An expansion that has not ended yet has no outcome. -/
abbrev Expansion (α : Type) := Option (Except Error α)

mutual

/-- The tree of a node, by at most `depth` nested steps. -/
def expand (g : Graph) : Nat → Node → Expansion Json
  | 0, _ => none
  | depth + 1, n =>
    match n with
    | .scalar line type text => some (scalar line type text)
    | .alias _ target =>
      match g.anchored.find? (·.1 == target) with
      | some (_, n) => expand g depth n
      | none => none
    | .sequence _ items => (expandItems g depth [] items)
    | .mapping _ entries => expandEntries g depth [] entries

def expandItems (g : Graph) : Nat → List Json → List Node → Expansion Json
  | _, acc, [] => some (.ok (.arr acc.reverse))
  | depth, acc, n :: rest =>
    match expand g depth n with
    | none => none
    | some (.error e) => some (.error e)
    | some (.ok v) => expandItems g depth (v :: acc) rest

def expandEntries (g : Graph) : Nat → List (String × Json) → List (Node × Node) → Expansion Json
  | _, members, [] => some (.ok (.obj members))
  | depth, members, (key, n) :: rest =>
    match key with
    | .scalar _ _ name =>
      match expand g depth n with
      | none => none
      | some (.error e) => some (.error e)
      | some (.ok v) => expandEntries g depth (Members.set name v members) rest
    | other => some (.error (.keyNotScalar other.line))

end

mutual

def nodeCount : Node → Nat
  | .scalar .. | .alias .. => 1
  | .sequence _ items => itemCount items + 1
  | .mapping _ entries => entryCount entries + 1

def itemCount : List Node → Nat
  | [] => 0
  | n :: rest => nodeCount n + itemCount rest

def entryCount : List (Node × Node) → Nat
  | [] => 0
  | (key, value) :: rest => nodeCount key + nodeCount value + entryCount rest

end

/-- A path that enters no anchored node twice is not longer than the number of nodes. -/
def depthBound (g : Graph) : Nat :=
  nodeCount g.root + (g.anchored.map fun entry => nodeCount entry.2).foldl (· + ·) 0 + 1

def tree (g : Graph) : Except Error Json :=
  (g.expand g.depthBound g.root).getD (.error .endless)

end Graph

/-- The tree of the first document of a text; an empty text is null. -/
def load (bytes : Bytes) : Except Error Json :=
  match Source.characters bytes with
  | .error fault => .error (.text fault)
  | .ok cs =>
    match Graph.ofText cs with
    | .error e => .error e
    | .ok none => .ok .null
    | .ok (some g) => g.tree

end SchemaForge.Yaml
