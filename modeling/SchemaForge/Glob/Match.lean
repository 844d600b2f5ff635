import SchemaForge.Glob.Plan

/- Running a plan on the bytes of a name. -/
namespace SchemaForge.Glob

/-- A cut that would reach beyond the end of the text. -/
structure Overrun where
  stop : Nat
  length : Nat
  deriving DecidableEq, Repr

def Overrun.message (o : Overrun) : String :=
  "runtime error: slice bounds out of range [:" ++ String.ofList (Nat.toDigits 10 o.stop)
    ++ "] with length " ++ String.ofList (Nat.toDigits 10 o.length)

abbrev Verdict (α : Type) := Except Overrun α

/- Where a part was found: the start, and the lengths it may have there, in ascending order. -/
structure Found where
  start : Nat
  lengths : List Nat
  deriving Repr

/-- The characters with their offsets. -/
def indexedCharsFrom (offset : Nat) : Nat → Bytes → List (Nat × Char)
  | _, [] => []
  | skip + 1, _ :: rest => indexedCharsFrom (offset + 1) skip rest
  | 0, b :: rest =>
    let (c, skip) := Utf8.lead b rest
    (offset, c) :: indexedCharsFrom (offset + 1) skip rest

def indexedChars (s : Bytes) : List (Nat × Char) := indexedCharsFrom 0 0 s

/-- The first character and its width; at the end the replacement character of no width. -/
def firstChar : Bytes → Char × Nat
  | [] => (Utf8.replacement, 0)
  | b :: rest => let (c, skip) := Utf8.lead b rest; (c, skip + 1)

def charWidth (c : Char) : Nat := (Utf8.encodeChars [c]).length

/-- At most one character, which has to pass the test. Of no character the test is asked about
    the replacement character. -/
def oneChar (test : Char → Bool) (s : Bytes) : Bool :=
  let (c, width) := firstChar s
  s.length ≤ width && test c

def findChar (test : Char → Bool) (s : Bytes) : Option Found :=
  ((indexedChars s).find? fun (_, c) => test c).map fun (i, c) => ⟨i, [charWidth c]⟩

def hasLead (lead s : Bytes) : Bool := s.take lead.length == lead

def findFrom (needle : Bytes) (offset : Nat) : Bytes → Option Nat
  | [] => if needle.isEmpty then some offset else none
  | b :: rest =>
    if hasLead needle (b :: rest) then some offset else findFrom needle (offset + 1) rest

def find? (needle s : Bytes) : Option Nat := findFrom needle 0 s

def findAll (needle : Bytes) (offset : Nat) : Bytes → List Nat
  | [] => []
  | b :: rest =>
    if hasLead needle (b :: rest) then offset :: findAll needle (offset + 1) rest
    else findAll needle (offset + 1) rest

/-- The ends of occurrences that do not overlap, counted from the end of the text. -/
def endsFromLast (width : Nat) (limit : Nat) : List Nat → List Nat
  | [] => []
  | i :: rest =>
    if i + width ≤ limit then (i + width) :: endsFromLast width i rest
    else endsFromLast width limit rest

def hasTail (tail s : Bytes) : Bool := hasLead tail.reverse s.reverse

def charEnds (s : Bytes) : List Nat := (indexedChars s).map fun (i, c) => i + charWidth c

/-- The lengths at which a text of exactly `n` characters without `lacking` may end. -/
def findExactly (n : Nat) (lacking s : Bytes) : Option Found :=
  if s.length < n then none
  else
    let atLeast := (charEnds s).drop (n - 1)
    let atMost := 0 :: (charEnds s).take n
    let clean :=
      let s := if lacking.isEmpty then s else s.take ((find? lacking s).getD s.length)
      (indexedChars s).map (·.1) ++ [s.length]
    let both := atLeast.filter atMost.contains
    let all := if lacking.isEmpty then both else both.filter clean.contains
    if all.isEmpty then none else some ⟨0, all⟩

def mergeLengths : Nat → List Nat → List Nat → List Nat
  | 0, xs, _ => xs
  | _ + 1, [], ys => ys
  | _ + 1, xs, [] => xs
  | fuel + 1, x :: xs, y :: ys =>
    if x = y then x :: mergeLengths fuel xs ys
    else if x < y then x :: mergeLengths fuel xs (y :: ys)
    else y :: mergeLengths fuel (x :: xs) ys

/-- The earlier of two finds; at the same place the lengths of both. -/
def earlier : Option Found → Option Found → Option Found
  | none, f => f
  | f, none => f
  | some f, some g =>
    if g.start < f.start then some g
    else if f.start < g.start then some f
    else some ⟨f.start, mergeLengths (f.lengths.length + g.lengths.length) f.lengths g.lengths⟩

def anyTail (right : Bytes → Verdict Bool) (s : Bytes) : List Nat → Verdict Bool
  | [] => .ok false
  | cut :: rest => do
    if ← right (s.drop cut) then return true
    anyTail right s rest

/-- Looks for the pivot from `offset` on, and tests what stands left and right of each find, the
    longest find first. -/
def search (find : Bytes → Verdict (Option Found)) (left right : Bytes → Verdict Bool) (s : Bytes)
    (limit : Nat) : Nat → Nat → Verdict Bool
  | 0, _ => .ok false
  | fuel + 1, offset =>
    if offset < limit then do
      match ← find ((s.take limit).drop offset) with
      | none => return false
      | some f =>
        let start := offset + f.start
        if ← left (s.take start) then
          if ← anyTail right s (f.lengths.reverse.map (start + ·)) then return true
        search find left right s limit fuel (start + (firstChar (s.drop start)).2)
    else .ok false

/-- The piece that a part of a row takes: up to the first byte of its last character. -/
def rowCut (length : Nat) (rest : Bytes) : Option Nat :=
  let starts := (indexedChars rest).map (·.1)
  if starts.length < length then none
  else if length = 0 then some (starts.getLast?.getD 0 + 1)
  else some ((starts[length - 1]?).getD 0 + 1)

/-- The first offset at which a test holds, as long as `least` bytes are left. -/
def firstWhere (test : Bytes → Verdict Bool) (s : Bytes) (least : Nat) :
    List Nat → Verdict (Option Nat)
  | [] => .ok none
  | i :: rest =>
    if s.length - i < least then .ok none
    else do
      if ← test (s.drop i) then return some i
      firstWhere test s least rest

namespace Plan

def accepts (negated : Bool) (members : List Char) (c : Char) : Bool :=
  negated != members.contains c

def inside (negated : Bool) (lo hi c : Char) : Bool := negated != (lo ≤ c && c ≤ hi)

mutual

/-- Whether a plan matches the whole text. -/
def run : Plan → Bytes → Verdict Bool
  | .text cs, s => .ok (s == Utf8.encodeChars cs)
  | .single, s => .ok (oneChar (fun _ => true) s)
  | .oneOf negated members, s => .ok (oneChar (accepts negated members) s)
  | .between negated lo hi, s => .ok (oneChar (inside negated lo hi) s)
  | .anything, _ => .ok true
  | .nothing, s => .ok s.isEmpty
  | .least n, s => .ok (n ≤ (indexedChars s).length)
  | .exactly n lacking, s =>
    .ok ((indexedChars s).length = n
      && (lacking.isEmpty || (find? (Utf8.encodeChars lacking) s).isNone))
  | .contains needle, s => .ok (find? (Utf8.encodeChars needle) s).isSome
  | .starts lead, s => .ok (hasLead (Utf8.encodeChars lead) s)
  | .ends tail, s => .ok (hasTail (Utf8.encodeChars tail) s)
  | .startsEnds lead tail, s =>
    .ok (hasLead (Utf8.encodeChars lead) s && hasTail (Utf8.encodeChars tail) s)
  | .row parts, s =>
    if sum? (lengths parts) == some (indexedChars s).length then runRow parts 0 s else .ok false
  | .either parts, s => runEither parts s
  | .around value left right, s =>
    let whole := length? (.around value left right)
    if whole.any (s.length < ·) then .ok false
    else
      let offset := (lengthOr left).getD 0
      let limit := s.length - (lengthOr right).getD 0
      search (locate value) (runPart left) (runPart right) s limit (s.length + 1) offset

def runPart : Option Plan → Bytes → Verdict Bool
  | none, s => .ok s.isEmpty
  | some p, s => run p s

def runEither : List Plan → Bytes → Verdict Bool
  | [], _ => .ok false
  | p :: rest, s => do
    if ← run p s then return true
    runEither rest s

/-- Each part of a row on its own piece, one after the other. -/
def runRow : List Plan → Nat → Bytes → Verdict Bool
  | [], _, _ => .ok true
  | p :: rest, passed, s =>
    match rowCut ((length? p).getD 0) s with
    | none => .ok false
    | some cut =>
      if s.length < cut then .error ⟨passed + cut, passed + s.length⟩
      else do
        if ← run p (s.take cut) then runRow rest (passed + cut) (s.drop cut) else return false

/-- Where a plan is found first in a text. -/
def locate : Plan → Bytes → Verdict (Option Found)
  | .text cs, s =>
    let needle := Utf8.encodeChars cs
    .ok ((find? needle s).map fun i => ⟨i, [needle.length]⟩)
  | .single, s => .ok (findChar (fun _ => true) s)
  | .oneOf negated members, s => .ok (findChar (accepts negated members) s)
  | .between negated lo hi, s => .ok (findChar (inside negated lo hi) s)
  | .anything, s => .ok (some ⟨0, (indexedChars s).map (·.1) ++ [s.length]⟩)
  | .nothing, _ => .ok (some ⟨0, [0]⟩)
  | .least n, s =>
    let found := (charEnds s).drop (n - 1)
    .ok (if s.length < n || found.isEmpty then none else some ⟨0, found⟩)
  | .exactly n lacking, s => .ok (findExactly n (Utf8.encodeChars lacking) s)
  | .contains needle, s =>
    let needle := Utf8.encodeChars needle
    .ok ((find? needle s).map fun i =>
      let offset := i + needle.length
      ⟨0, (indexedChars (s.drop offset)).map (offset + ·.1) ++ [s.length]⟩)
  | .starts lead, s =>
    let lead := Utf8.encodeChars lead
    .ok ((find? lead s).map fun i =>
      ⟨i, lead.length :: (charEnds (s.drop (i + lead.length))).map (lead.length + ·)⟩)
  | .ends tail, s =>
    let tail := Utf8.encodeChars tail
    .ok ((find? tail s).map fun i => ⟨0, [i + tail.length]⟩)
  | .startsEnds lead tail, s =>
    let tail := Utf8.encodeChars tail
    .ok ((find? (Utf8.encodeChars lead) s).bind fun i =>
      let rest := s.drop i
      let found := (endsFromLast tail.length rest.length (findAll tail 0 rest).reverse).reverse
      if found.isEmpty then none else some ⟨i, found⟩)
  | .row parts, s => do
    let n := (sum? (lengths parts)).getD 0
    let start ← firstWhere (runRow parts 0) s n ((indexedChars s).map (·.1))
    return start.map fun i => ⟨i, [n]⟩
  | .either parts, s => locateEither none parts s
  | .around .., _ => .ok none

def locateEither (best : Option Found) : List Plan → Bytes → Verdict (Option Found)
  | [], _ => .ok best
  | p :: rest, s => do
    let found ← locate p s
    locateEither (earlier best found) rest s

end

end Plan

end SchemaForge.Glob
