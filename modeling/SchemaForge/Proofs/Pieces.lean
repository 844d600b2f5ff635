import SchemaForge.Proofs.Names
import SchemaForge.Proofs.Tokens

/-!
Emitted lines are made of fixed texts with variable parts between them: names, types, calls and
literals. A fixed text is known beforehand, so it carries the check that it is code without literals
and leaves room for a word where a part meets it. A line is then read as the tokens of its pieces,
one after the other, whatever the parts are; this says what its literals are, what remains if their
values are taken away, and which words stand before a dot.
-/
namespace SchemaForge.Code.Source

/-! ### What is asked of tokens -/

def dot : Token := .mark '.'

def Token.value? : Token → Option Bytes
  | .literal value => some value
  | _ => none

/-- The values of the literals, in order. -/
def literals (ts : List Token) : List Bytes := ts.filterMap Token.value?

def Token.erased : Token → Token
  | .literal _ => .literal []
  | t => t

/-- The tokens without the values of the literals. -/
def skeleton (ts : List Token) : List Token := ts.map Token.erased

def Token.word? : Token → Option (List Char)
  | .word w => some w
  | _ => none

/-- The words directly before a dot that have no dot directly before them. The flag tells whether a
    dot has just been read. -/
def qualifiersFrom : Bool → List Token → List (List Char)
  | _, [] => []
  | after, t :: rest =>
    (if after = false ∧ rest.head? = some dot then t.word?.toList else [])
      ++ qualifiersFrom (t == dot) rest

def qualifiers (ts : List Token) : List (List Char) := qualifiersFrom false ts

/-- The words before dots that are no local names: those of packages. -/
def foreign (ts : List Token) : List (List Char) :=
  (qualifiers ts).filter fun w => !(Ident.locals.contains (String.ofList w))

/-- Whether a dot has just been read after the tokens. -/
def dotAfter (after : Bool) (ts : List Token) : Bool := ts.foldl (fun _ t => t == dot) after

/-- No dot reaches over the ends. -/
structure Calm (ts : List Token) : Prop where
  starts : ts.head? ≠ some dot
  ends : dotAfter false ts = false

instance (ts : List Token) : Decidable (Calm ts) :=
  decidable_of_iff (ts.head? ≠ some dot ∧ dotAfter false ts = false)
    ⟨fun h => ⟨h.1, h.2⟩, fun h => ⟨h.starts, h.ends⟩⟩

@[simp] theorem literals_empty : literals [] = [] := rfl

@[simp] theorem literals_word (w : List Char) (ts : List Token) :
    literals (.word w :: ts) = literals ts := rfl

@[simp] theorem literals_mark (c : Char) (ts : List Token) :
    literals (.mark c :: ts) = literals ts := rfl

@[simp] theorem literals_literal (value : Bytes) (ts : List Token) :
    literals (.literal value :: ts) = value :: literals ts := rfl

@[simp] theorem literals_raw (t : List Char) (ts : List Token) :
    literals (.raw t :: ts) = literals ts := rfl

@[simp] theorem literals_newline (ts : List Token) : literals (.newline :: ts) = literals ts := rfl

@[simp] theorem literals_append (ts us : List Token) :
    literals (ts ++ us) = literals ts ++ literals us :=
  List.filterMap_append

@[simp] theorem skeleton_append (ts us : List Token) :
    skeleton (ts ++ us) = skeleton ts ++ skeleton us :=
  List.map_append

theorem dotAfter_append (after : Bool) (ts us : List Token) :
    dotAfter after (ts ++ us) = dotAfter (dotAfter after ts) us :=
  List.foldl_append

theorem Calm.append {ts us : List Token} (first : Calm ts) (second : Calm us) :
    Calm (ts ++ us) := by
  constructor
  · cases ts with
    | nil => exact second.starts
    | cons t ts => exact first.starts
  · rw [dotAfter_append, first.ends, second.ends]

theorem qualifiersFrom_append {after : Bool} {ts us : List Token}
    (ends : dotAfter after ts = false) (starts : us.head? ≠ some dot) :
    qualifiersFrom after (ts ++ us) = qualifiersFrom after ts ++ qualifiers us := by
  induction ts generalizing after with
  | nil =>
    obtain rfl : after = false := ends
    rfl
  | cons t ts ih =>
    have later := ih (show dotAfter (t == dot) ts = false from ends)
    rw [List.cons_append, qualifiersFrom, qualifiersFrom, later, List.append_assoc]
    cases ts with
    | nil => simp [starts]
    | cons u ts => rfl

theorem qualifiers_append {ts us : List Token} (first : Calm ts) (second : Calm us) :
    qualifiers (ts ++ us) = qualifiers ts ++ qualifiers us :=
  qualifiersFrom_append first.ends second.starts

theorem foreign_append {ts us : List Token} (first : Calm ts) (second : Calm us) :
    foreign (ts ++ us) = foreign ts ++ foreign us := by
  rw [foreign, qualifiers_append first second, List.filter_append]
  rfl

/-! ### Parts and fixed texts -/

/-- A text with the tokens it is to be read as. -/
structure Part where
  text : String
  tokens : List Token

structure Part.Sound (x : Part) : Prop where
  lexed : lex x.text = some x.tokens
  calm : Calm x.tokens

def Part.name (n : String) : Part := ⟨n, [.word n.toList]⟩

def Part.quote (content : String) : Part := ⟨Text.quoted content, [.literal (Utf8.encode content)]⟩

def Part.tag (content : String) : Part := ⟨quoteTag content, [.raw content.toList]⟩

theorem calm_single {t : Token} (other : t ≠ dot) : Calm [t] := by
  refine ⟨by simpa using other, ?_⟩
  simpa [dotAfter] using other

theorem Part.name_sound {n : String} (spelled : Ident.isIdentifierChars n.toList = true) :
    (Part.name n).Sound := by
  have some_ : n.toList ≠ [] := by
    intro empty
    rw [empty] at spelled
    cases spelled
  have parts := List.all_eq_true.mp (Ident.all_isPart spelled)
  exact ⟨lex_word some_ parts, calm_single (by simp [dot])⟩

theorem Part.quote_sound (content : String) : (Part.quote content).Sound :=
  ⟨lex_quoted content, calm_single (by simp [dot])⟩

theorem Part.tag_sound {content : String}
    (free : ∀ c ∈ content.toList, c ≠ '\x60' ∧ isBarred c = false) : (Part.tag content).Sound :=
  ⟨lex_of_reads (tag_reads free), calm_single (by simp [dot])⟩

def Token.isCode : Token → Bool
  | .word _ | .mark _ => true
  | _ => false

/-- Code without literals that qualifies by local names only. It may start or end with a word only
    where no part stands next to it, and is not empty between two parts. -/
def isFixed (opens closes : Bool) (text : String) : Bool :=
  ((lex text).any fun ts => ts.all Token.isCode && decide (Calm ts) && (foreign ts).isEmpty)
    && (opens || !startsWord text) && (closes || !endsWord text) && (opens || closes || text ≠ "")

structure Fixed (opens closes : Bool) where
  text : String
  checked : isFixed opens closes text = true := by exact Eq.refl true

namespace Fixed
variable {opens closes : Bool} (c : Fixed opens closes)

def tokens : List Token := (lex c.text).getD []

theorem checks : c.tokens.all Token.isCode = true ∧ Calm c.tokens ∧ foreign c.tokens = [] ∧
    lex c.text = some c.tokens := by
  have checked := c.checked
  simp only [isFixed, Bool.and_eq_true] at checked
  unfold tokens
  cases read : lex c.text with
  | none => simp [read] at checked
  | some ts => simpa [read, and_assoc] using checked.1.1.1

theorem lexed : lex c.text = some c.tokens := c.checks.2.2.2

theorem calm : Calm c.tokens := c.checks.2.1

@[simp] theorem foreign_nil : foreign c.tokens = [] := c.checks.2.2.1

@[simp] theorem literals_nil : literals c.tokens = [] := by
  rw [literals, List.filterMap_eq_nil_iff]
  intro t member
  have code := List.all_eq_true.mp c.checks.1 t member
  cases t with
  | literal value => cases code
  | _ => rfl

theorem apart_before (c : Fixed false closes) : startsWord c.text = false := by
  have checked := c.checked
  simp only [isFixed, Bool.and_eq_true] at checked
  simpa using checked.1.1.2

theorem apart_after (c : Fixed opens false) : endsWord c.text = false := by
  have checked := c.checked
  simp only [isFixed, Bool.and_eq_true] at checked
  simpa using checked.1.2

theorem apart_between (c : Fixed false false) (before : String) :
    endsWord (before ++ c.text) = false := by
  have checked := c.checked
  simp only [isFixed, Bool.and_eq_true] at checked
  have chars : c.text.toList ≠ [] := by simpa using checked.2
  rw [endsWord, String.toList_append, List.getLast?_append_of_ne_nil _ chars]
  exact c.apart_after

end Fixed

/-! ### Lines -/

/-- A fixed text, or parts with fixed texts before, between and after them. -/
inductive Line where
  | fixed (c : Fixed true true)
  | parts (first : Fixed true false) (rest : List (Part × Fixed false false)) (x : Part)
      (last : Fixed false true)

namespace Line

def print : Line → String
  | fixed c => c.text
  | parts first rest x last =>
    rest.foldl (fun text y => text ++ y.1.text ++ y.2.text) first.text ++ x.text ++ last.text

def tokens : Line → List Token
  | fixed c => c.tokens
  | parts first rest x last =>
    first.tokens ++ rest.flatMap (fun y => y.1.tokens ++ y.2.tokens) ++ x.tokens ++ last.tokens

theorem tokens_parts (first : Fixed true false) (rest : List (Part × Fixed false false)) (x : Part)
    (last : Fixed false true) : (parts first rest x last).tokens =
      first.tokens ++ rest.flatMap (fun y => y.1.tokens ++ y.2.tokens) ++ x.tokens ++ last.tokens :=
  rfl

def pieces : Line → List Part
  | fixed _ => []
  | parts _ rest x _ => rest.map (·.1) ++ [x]

def Sound (l : Line) : Prop := ∀ x ∈ l.pieces, x.Sound

@[simp] theorem sound_fixed (c : Fixed true true) : (fixed c).Sound := by simp [Sound, pieces]

@[simp] theorem sound_parts {first : Fixed true false} {rest : List (Part × Fixed false false)}
    {x : Part} {last : Fixed false true} :
    (parts first rest x last).Sound ↔ (∀ y ∈ rest, y.1.Sound) ∧ x.Sound := by
  simp [Sound, pieces, or_imp, forall_and]

theorem lex_rest {before : String} {ts : List Token} {rest : List (Part × Fixed false false)}
    (read : lex before = some ts) (apart : endsWord before = false)
    (sound : ∀ y ∈ rest, y.1.Sound) :
    lex (rest.foldl (fun text y => text ++ y.1.text ++ y.2.text) before) =
        some (ts ++ rest.flatMap (fun y => y.1.tokens ++ y.2.tokens)) ∧
      endsWord (rest.foldl (fun text y => text ++ y.1.text ++ y.2.text) before) = false := by
  induction rest generalizing before ts with
  | nil =>
    rw [List.flatMap_nil, List.append_nil]
    exact ⟨read, apart⟩
  | cons y rest ih =>
    have head := lex_between read (sound y List.mem_cons_self).lexed y.2.lexed apart
      y.2.apart_before
    have later := ih head (y.2.apart_between _) fun z member =>
      sound z (List.mem_cons_of_mem y member)
    rw [List.flatMap_cons, List.foldl_cons]
    simpa only [List.append_assoc] using later

theorem lexed {l : Line} (sound : l.Sound) : lex l.print = some l.tokens := by
  cases l with
  | fixed c => exact c.lexed
  | parts first rest x last =>
    obtain ⟨inner, end_⟩ := sound_parts.mp sound
    obtain ⟨read, open_⟩ := lex_rest first.lexed first.apart_after inner
    exact lex_between read end_.lexed last.lexed open_ last.apart_before

theorem calm_rest {rest : List (Part × Fixed false false)} (sound : ∀ y ∈ rest, y.1.Sound) :
    Calm (rest.flatMap fun y => y.1.tokens ++ y.2.tokens) ∧
      foreign (rest.flatMap fun y => y.1.tokens ++ y.2.tokens) =
        (rest.map (·.1)).flatMap fun x => foreign x.tokens := by
  induction rest with
  | nil => exact ⟨⟨by simp, rfl⟩, rfl⟩
  | cons y rest ih =>
    obtain ⟨calm, words⟩ := ih fun z member => sound z (List.mem_cons_of_mem y member)
    have head := (sound y List.mem_cons_self).calm
    rw [List.flatMap_cons, List.map_cons, List.flatMap_cons]
    refine ⟨(head.append y.2.calm).append calm, ?_⟩
    rw [foreign_append (head.append y.2.calm) calm, foreign_append head y.2.calm, words,
      y.2.foreign_nil, List.append_nil]

theorem calm {l : Line} (sound : l.Sound) : Calm l.tokens := by
  cases l with
  | fixed c => exact c.calm
  | parts first rest x last =>
    obtain ⟨inner, end_⟩ := sound_parts.mp sound
    exact ((first.calm.append (calm_rest inner).1).append end_.calm).append last.calm

/-- Only the parts of a line use packages. -/
theorem foreign_eq {l : Line} (sound : l.Sound) :
    foreign l.tokens = l.pieces.flatMap fun x => foreign x.tokens := by
  cases l with
  | fixed c => exact c.foreign_nil
  | parts first rest x last =>
    obtain ⟨some_, end_⟩ := sound_parts.mp sound
    obtain ⟨inner, words⟩ := calm_rest some_
    rw [tokens, foreign_append ((first.calm.append inner).append end_.calm) last.calm,
      foreign_append (first.calm.append inner) end_.calm, foreign_append first.calm inner, words,
      first.foreign_nil, last.foreign_nil, pieces, List.flatMap_append]
    simp

/-- Only the parts of a line have literals. -/
theorem literals_eq (l : Line) :
    literals l.tokens = l.pieces.flatMap fun x => literals x.tokens := by
  cases l with
  | fixed c => exact c.literals_nil
  | parts first rest x last =>
    have inner : literals (rest.flatMap fun y => y.1.tokens ++ y.2.tokens) =
        (rest.map (·.1)).flatMap fun x => literals x.tokens := by
      induction rest with
      | nil => rfl
      | cons y rest ih => simp [ih]
    simp [tokens, pieces, inner]

/-- A line as a part of other lines. -/
def part (l : Line) : Part := ⟨l.print, l.tokens⟩

theorem part_sound {l : Line} (sound : l.Sound) : l.part.Sound := ⟨lexed sound, calm sound⟩

end Line

/-! ### Lines one after the other -/

/-- The tokens of lines, each with its line break. -/
def broken (lines : List (List Token)) : List Token := lines.flatMap (· ++ [.newline])

theorem newline_reads {text : String} {ts : List Token} (read : lex text = some ts) :
    Reads .code (text.toList ++ ['\n']) (ts ++ [.newline]) .code := by
  have step : State.next .code '\n' = some ([.newline], .code) := by simp [State.next, enter]
  have break_ : Reads .code ['\n'] [.newline] .code := Reads.cons step (.nil _)
  rcases lex_iff.mp read with done | ⟨us, w, inside, rfl⟩
  · exact done.append break_
  · have other : Ident.isPart '\n' = false := by decide
    rw [List.append_assoc]
    exact inside.append (word_ends other break_)

theorem toList_joinLines (lines : List String) :
    (joinLines lines).toList = lines.flatMap fun line => line.toList ++ ['\n'] := by
  have general : ∀ before : String,
      (lines.foldl (fun acc line => acc ++ line ++ "\n") before).toList =
        before.toList ++ lines.flatMap fun line => line.toList ++ ['\n'] := by
    induction lines with
    | nil => simp
    | cons line lines ih =>
      intro before
      rw [List.foldl_cons, ih]
      simp
  simpa [joinLines] using general ""

theorem lines_read {lines : List String} {tokens : List (List Token)}
    (read : List.Forall₂ (fun text ts => lex text = some ts) lines tokens) :
    Reads .code (joinLines lines).toList (broken tokens) .code := by
  rw [toList_joinLines, broken]
  induction read with
  | nil => exact .nil _
  | cons first _ ih =>
    rw [List.flatMap_cons, List.flatMap_cons]
    exact (newline_reads first).append ih

end SchemaForge.Code.Source
