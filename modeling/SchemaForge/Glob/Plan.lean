import SchemaForge.Glob.Pattern

/- Matching plans. A pattern is carried out as text tests where that is possible: runs of parts of
   fixed length are tested side by side, and otherwise a part of fixed length is searched for and
   what stands left and right of it is tested on its own. Lengths count characters. -/
namespace SchemaForge.Glob

inductive Plan where
  | text (chars : List Char)
  | single
  | oneOf (negated : Bool) (members : List Char)
  | between (negated : Bool) (lo hi : Char)
  | anything
  | nothing
  | least (n : Nat)
  | exactly (n : Nat) (lacking : List Char)
  | contains (needle : List Char)
  | starts (lead : List Char)
  | ends (tail : List Char)
  | startsEnds (lead tail : List Char)
  | row (parts : List Plan)
  | either (parts : List Plan)
  | around (value : Plan) (left right : Option Plan)
  deriving Repr, Inhabited

namespace Plan

def sum? : List (Option Nat) → Option Nat
  | [] => some 0
  | none :: _ => none
  | some n :: rest => (sum? rest).map (n + ·)

/-- The length that the branches agree on. As long as none has a length the next one counts. -/
def agree? (known : Option Nat) : List (Option Nat) → Option Nat
  | [] => known
  | l :: rest =>
    match known, l with
    | none, l => agree? l rest
    | some _, none => none
    | some n, some m => if n = m then agree? (some n) rest else none

mutual

def length? : Plan → Option Nat
  | .text cs => some cs.length
  | .single | .oneOf .. | .between .. => some 1
  | .nothing => some 0
  | .anything | .least _ | .exactly .. | .contains _ | .starts _ | .ends _ | .startsEnds .. => none
  | .row parts => sum? (lengths parts)
  | .either parts => agree? none (lengths parts)
  | .around value left right => sum? [length? value, lengthOr left, lengthOr right]

def lengths : List Plan → List (Option Nat)
  | [] => []
  | p :: rest => length? p :: lengths rest

def lengthOr : Option Plan → Option Nat
  | none => some 0
  | some p => length? p

end

/- Runs of the same kind. -/

/-- What a part of a run excludes: nothing, or the characters of a negated class. -/
def excluded? : Plan → Option (List Char)
  | .anything | .single => some []
  | .oneOf true members => some members
  | _ => none

def isAnything : Plan → Bool
  | .anything => true
  | _ => false

/-- Parts that exclude the same, as one count of characters. -/
def counted? (parts : List Plan) : Option Plan :=
  match parts.map excluded? with
  | some first :: rest =>
    if rest.all (· == some first) then
      let n := (parts.filter fun p => !isAnything p).length
      if n = 0 then some .anything
      else if parts.any isAnything then some (.least n)
      else some (.exactly n first)
    else none
  | _ => none

def glued? (parts : List Plan) : Option Plan :=
  if parts.length ≤ 1 then none
  else
    match counted? parts with
    | some p => some p
    | none => if (sum? (lengths parts)).isSome then some (.row parts) else none

/- A stretch of the parts that can be glued: where it starts, how many parts it has. -/
structure Stretch where
  plan : Plan
  start : Nat
  count : Nat

/-- The first stretch stays unless a later one is longer, in characters or in parts. -/
def better (best : Option Stretch) (s : Stretch) : Option Stretch :=
  match best with
  | none => some s
  | some b =>
    let longer :=
      match b.plan.length?, s.plan.length? with
      | some n, some m => n < m
      | _, _ => false
    if longer || b.count < s.count then some s else some b

def stretchesFrom (parts : List Plan) (start : Nat) : Nat → List Stretch
  | 0 => []
  | count + 1 =>
    match glued? ((parts.drop start).take (count + 1)) with
    | some p => ⟨p, start, count + 1⟩ :: stretchesFrom parts start count
    | none => stretchesFrom parts start count

def best? (parts : List Plan) : Option Stretch :=
  ((List.range parts.length).flatMap fun l => stretchesFrom parts l (parts.length - l)).foldl
    better none

/-- Glues the best stretch until there is none; each time the parts get fewer. -/
def condensed : Nat → List Plan → List Plan
  | 0, parts => parts
  | fuel + 1, parts =>
    match best? parts with
    | none => parts
    | some s => condensed fuel (parts.take s.start ++ s.plan :: parts.drop (s.start + s.count))

/-- The place of the last part among those of the greatest length. -/
def pivot? (parts : List Plan) : Option Nat :=
  (((List.range parts.length).zip (lengths parts)).foldl (fun best (i, l) =>
    match l, best with
    | none, _ => best
    | some n, some (m, j) => if m ≤ n then some (n, i) else some (m, j)
    | some n, none => some (n, i)) (none : Option (Nat × Nat))).map (·.2)

def joined : Nat → List Plan → Plan
  | 0, _ => .nothing
  | _ + 1, [] => .nothing
  | _ + 1, [p] => p
  | fuel + 1, p :: rest =>
    let parts := p :: rest
    match glued? parts with
    | some g => g
    | none =>
      match pivot? parts with
      | none => .around p none (some (joined fuel rest))
      | some i =>
        let left := parts.take i
        let right := parts.drop (i + 1)
        .around ((parts[i]?).getD .nothing)
          (if left.isEmpty then none else some (joined fuel left))
          (if right.isEmpty then none else some (joined fuel right))

/-- A text between parts that take anything is a plain test on the text. -/
def simplifiedAround (cs : List Char) : Option Plan → Option Plan → Plan
  | none, none => .text cs
  | some .anything, some .anything => .contains cs
  | some .anything, none => .ends cs
  | none, some .anything => .starts cs
  | none, some (.ends tail) => .startsEnds cs tail
  | some (.starts lead), none => .startsEnds lead cs
  | left, right => .around (.text cs) left right

mutual

def simplified : Plan → Plan
  | .either [p] => p
  | .oneOf false [c] => .text [c]
  | .around value left right =>
    let left := simplifiedPart left
    let right := simplifiedPart right
    match value with
    | .text cs => simplifiedAround cs left right
    | value => .around value left right
  | p => p

def simplifiedPart : Option Plan → Option Plan
  | none => none
  | some p => some (simplified p)

end

end Plan

/- Choices whose branches begin or end alike. -/

/-- The first of the shortest branches, and the others. -/
def shortestAndRest (best : List Node) (passed : List (List Node)) :
    List (List Node) → List Node × List (List Node)
  | [] => (best, passed.reverse)
  | b :: rest =>
    if b.length < best.length then shortestAndRest b (best :: passed) rest
    else shortestAndRest best (b :: passed) rest

/- Whether branches still agree with the shortest one on either side. -/
structure Sides where
  left : Bool
  right : Bool

/-- Compares the nodes at place `i` from the start and at place `j` of the shortest branch. Once
    the places have met, only the start may go on. -/
def Sides.compare (least : List Node) (i j : Nat) (s : Sides) (b : List Node) : Sides :=
  let left := s.left && b[i]? == least[i]?
  let right := s.right && !(left && j ≤ i) && b[b.length - least.length + j]? == least[j]?
  ⟨left, right⟩

/-- How many nodes all branches share at their start and at their end, taken from both sides in
    turn. -/
def sharedFrom (least : List Node) (others : List (List Node)) :
    Nat → Nat → Nat → Nat → Sides → Nat × Nat
  | 0, _, left, right, _ => (left, right)
  | fuel + 1, i, left, right, s =>
    let n := least.length
    if n ≤ left + right || n ≤ i || (!s.left && !s.right) then (left, right)
    else
      let s := others.foldl (Sides.compare least i (n - 1 - i)) s
      sharedFrom least others fuel (i + 1) (if s.left then left + 1 else left)
        (if s.right then right + 1 else right) s

def shared : List (List Node) → Nat × Nat
  | [] | [_] => (0, 0)
  | b :: rest =>
    let (least, others) := shortestAndRest b [] rest
    sharedFrom least others (least.length + 1) 0 0 0 ⟨true, true⟩

def distinctBranches (branches : List (List Node)) : List (List Node) :=
  (branches.foldl (fun seen b => if seen.contains b then seen else b :: seen) []).reverse

/-- A choice with what its branches share taken out in front and behind. -/
def factored? (branches : List (List Node)) : Option (List Node) :=
  match shared branches with
  | (0, 0) => none
  | (left, right) =>
    let first := branches.headD []
    let inner := distinctBranches (branches.map fun b => (b.drop left).take (b.length - left - right))
    let middle :=
      match inner with
      | [[]] => []
      | [b] => [Node.group b]
      | bs => [Node.choice bs]
    some ((if left = 0 then [] else [Node.group (first.take left)]) ++ middle
      ++ (if right = 0 then [] else [Node.group (first.drop (first.length - right))]))

mutual

def Node.plan : Nat → Node → Plan
  | 0, _ => .nothing
  | fuel + 1, node =>
    match node with
    | .text cs => .text cs
    | .star _ => .anything
    | .single => .single
    | .oneOf negated members => Plan.simplified (.oneOf negated members)
    | .between negated lo hi => .between negated lo hi
    | .group nodes => sequencePlan fuel nodes
    | .choice branches =>
      match factored? branches with
      | some nodes => sequencePlan fuel nodes
      | none => .either (branches.map fun b => Plan.simplified (sequencePlan fuel b))

def sequencePlan : Nat → List Node → Plan
  | 0, _ => .nothing
  | fuel + 1, nodes =>
    if nodes.isEmpty then .nothing
    else
      let parts := nodes.map fun n => Plan.simplified (Node.plan fuel n)
      let parts := Plan.condensed parts.length parts
      Plan.simplified (Plan.joined parts.length parts)

end

def planOf (pattern : String) : Except Fault Plan :=
  (parse pattern).map (sequencePlan (6 * pattern.toList.length + 6))

end SchemaForge.Glob
