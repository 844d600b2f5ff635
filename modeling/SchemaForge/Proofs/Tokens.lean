import Mathlib.Algebra.Group.Nat.Defs
import SchemaForge.Code.Source
import SchemaForge.Proofs.Encoding

/-!
How emitted source is read: as words, marks, line breaks, and texts between quotes or backquotes. A
reader goes through the characters one by one; inside quotes it follows the escapes, and what they
stand for are bytes. Quoted text is read as one token whose value is the text, whatever characters
the text has, and reading goes on behind it as if nothing had happened.
-/
namespace SchemaForge.Code.Source

/-- Words are identifiers, keywords and numbers alike. A literal is known by its value. -/
inductive Token where
  | word (chars : List Char)
  | mark (c : Char)
  | literal (value : Bytes)
  | raw (chars : List Char)
  | newline
  deriving DecidableEq

/-- The escapes that are written with digits: a byte in octal or hexadecimal, or a code point. -/
inductive Digits where
  | octal
  | byte
  | point
  deriving DecidableEq

def Digits.base : Digits → Nat
  | .octal => 8
  | .byte | .point => 16

def Digits.value? : Digits → Nat → Option Bytes
  | .octal, n | .byte, n => if n < 256 then some [UInt8.ofNat n] else none
  | .point, n => if n.isValidChar then some (Utf8.encodeChars [Char.ofNat n]) else none

/-- Where a reader is between two quotes. -/
inductive Mode where
  | plain
  | escape
  | digits (form : Digits) (left value : Nat)
  deriving DecidableEq

/-- Characters that cannot stand in a text as they are. -/
def isBarred (c : Char) : Bool := ['\n', '\x00', byteOrderMark].contains c

/-- The bytes with escapes of their own. -/
def namedByte? (c : Char) : Option UInt8 :=
  if c = 'a' then some 7
  else if c = 'b' then some 8
  else if c = 'f' then some 12
  else if c = 'n' then some 10
  else if c = 'r' then some 13
  else if c = 't' then some 9
  else if c = 'v' then some 11
  else if c = '\\' then some 92
  else if c = '"' then some 34
  else none

def Mode.next : Mode → Char → Option (Bytes × Mode)
  | .plain, c =>
    if c = '\\' then some ([], .escape)
    else if isBarred c then none
    else some (Utf8.encodeChars [c], .plain)
  | .escape, c =>
    if let some b := namedByte? c then some ([b], .plain)
    else if c = 'x' then some ([], .digits .byte 2 0)
    else if c = 'u' then some ([], .digits .point 4 0)
    else if c = 'U' then some ([], .digits .point 8 0)
    else ((Text.hexValue? c).filter (· < 8)).map fun d => ([], .digits .octal 2 d)
  | .digits form left value, c =>
    ((Text.hexValue? c).filter (· < form.base)).bind fun d =>
      if left ≤ 1 then (form.value? (value * form.base + d)).map fun bytes => (bytes, .plain)
      else some ([], .digits form (left - 1) (value * form.base + d))

inductive State where
  | code
  | word (chars : List Char)
  | literal (mode : Mode) (value : Bytes)
  | raw (chars : List Char)
  deriving DecidableEq

def marks : List Char :=
  ['(', ')', '[', ']', '\x7b', '\x7d', '*', '&', '.', ',', ':', ';', '=', '!', '+', '-']

/-- What a character outside words and texts starts. -/
def enter (c : Char) : Option (List Token × State) :=
  if c = ' ' || c = '\t' then some ([], .code)
  else if c = '\n' then some ([.newline], .code)
  else if c = '"' then some ([], .literal .plain [])
  else if c = '\x60' then some ([], .raw [])
  else if Ident.isPart c then some ([], .word [c])
  else if marks.contains c then some ([.mark c], .code)
  else none

def State.next : State → Char → Option (List Token × State)
  | .code, c => enter c
  | .word w, c =>
    if Ident.isPart c then some ([], .word (w ++ [c]))
    else (enter c).map fun x => (.word w :: x.1, x.2)
  | .literal mode value, c =>
    if mode = .plain ∧ c = '"' then some ([.literal value], .code)
    else (mode.next c).map fun x => ([], .literal x.2 (value ++ x.1))
  | .raw t, c =>
    if c = '\x60' then some ([.raw t], .code)
    else if c ≠ '\n' ∧ isBarred c then none
    else some ([], .raw (t ++ [c]))

def run : State → List Char → Option (List Token × State)
  | s, [] => some ([], s)
  | s, c :: rest => (s.next c).bind fun x => (run x.2 rest).map fun y => (x.1 ++ y.1, y.2)

/-- A text may end after a word, but not between quotes. -/
def State.close? : State → Option (List Token)
  | .code => some []
  | .word w => some [.word w]
  | _ => none

/-- The tokens of a text. -/
def lex (text : String) : Option (List Token) :=
  (run .code text.toList).bind fun x => x.2.close?.map (x.1 ++ ·)

/-- From one state, the characters are read as the tokens and lead to another state. -/
def Reads (s : State) (cs : List Char) (ts : List Token) (e : State) : Prop :=
  run s cs = some (ts, e)

theorem Reads.nil (s : State) : Reads s [] [] s := rfl

theorem Reads.cons {s m e : State} {c : Char} {cs : List Char} {ts us : List Token}
    (first : s.next c = some (ts, m)) (rest : Reads m cs us e) :
    Reads s (c :: cs) (ts ++ us) e := by
  unfold Reads at rest
  unfold Reads
  rw [run, first, Option.bind_some, rest, Option.map_some]

theorem reads_cons_iff {s e : State} {c : Char} {cs : List Char} {ts : List Token} :
    Reads s (c :: cs) ts e ↔
      ∃ m us vs, s.next c = some (us, m) ∧ Reads m cs vs e ∧ ts = us ++ vs := by
  constructor
  · intro read
    unfold Reads at read
    rw [run] at read
    obtain ⟨⟨us, m⟩, first, later⟩ := Option.bind_eq_some_iff.mp read
    obtain ⟨⟨vs, e'⟩, rest, same⟩ := Option.map_eq_some_iff.mp later
    obtain ⟨rfl, rfl⟩ := Prod.mk.inj same
    exact ⟨m, us, vs, first, rest, rfl⟩
  · rintro ⟨m, us, vs, first, rest, rfl⟩
    exact .cons first rest

theorem Reads.append {s m e : State} {cs ds : List Char} {ts us : List Token}
    (first : Reads s cs ts m) (second : Reads m ds us e) : Reads s (cs ++ ds) (ts ++ us) e := by
  induction cs generalizing s ts with
  | nil =>
    obtain ⟨rfl, rfl⟩ := Prod.mk.inj (Option.some.inj first)
    exact second
  | cons c cs ih =>
    obtain ⟨m', vs, ws, head, rest, rfl⟩ := reads_cons_iff.mp first
    rw [List.append_assoc]
    exact .cons head (ih rest)

/-! ### Quoted text -/

/-- Between quotes, the characters stand for the bytes. -/
def Stands (mode : Mode) (cs : List Char) (bytes : Bytes) (after : Mode) : Prop :=
  ∀ value, Reads (.literal mode value) cs [] (.literal after (value ++ bytes))

theorem Stands.nil (mode : Mode) : Stands mode [] [] mode := by
  intro value
  rw [List.append_nil]
  exact .nil _

theorem Stands.cons {mode next after : Mode} {c : Char} {cs : List Char} {first more : Bytes}
    (open_ : ¬ (mode = .plain ∧ c = '"')) (step : mode.next c = some (first, next))
    (rest : Stands next cs more after) : Stands mode (c :: cs) (first ++ more) after := by
  intro value
  have head : (State.literal mode value).next c = some ([], .literal next (value ++ first)) := by
    rw [State.next, if_neg open_, step, Option.map_some]
  rw [← List.append_assoc]
  exact Reads.cons head (rest (value ++ first))

theorem Stands.append {mode next after : Mode} {cs ds : List Char} {first more : Bytes}
    (one : Stands mode cs first next) (two : Stands next ds more after) :
    Stands mode (cs ++ ds) (first ++ more) after := by
  intro value
  rw [← List.append_assoc]
  exact (one value).append (two (value ++ first))

theorem hexValue_hexDigit {d : Nat} (small : d < 16) :
    Text.hexValue? (Text.hexDigit d) = some d := by
  have all : ∀ d < 16, Text.hexValue? (Text.hexDigit d) = some d := by decide
  exact all d small

theorem digit_next {form : Digits} (wide : form.base = 16) {d : Nat} (small : d < 16)
    (left value : Nat) :
    (Mode.digits form left value).next (Text.hexDigit d) =
      if left ≤ 1 then (form.value? (value * 16 + d)).map fun bytes => (bytes, .plain)
      else some ([], .digits form (left - 1) (value * 16 + d)) := by
  rw [Mode.next, hexValue_hexDigit small, wide]
  simp [Option.filter, small]

/-- All digits but the last are added up. -/
theorem digits_stand {form : Digits} (wide : form.base = 16) (width left : Nat) (value n : Nat) :
    Stands (.digits form (width + (left + 1)) value) (Text.hexDigits width n) []
      (.digits form (left + 1) (value * 16 ^ width + n % 16 ^ width)) := by
  induction width generalizing left n with
  | zero =>
    rw [Nat.pow_zero, Nat.mod_one, Nat.mul_one, Nat.zero_add]
    exact .nil _
  | succ width ih =>
    have last : n % 16 < 16 := Nat.mod_lt n (by decide)
    have sum : (value * 16 ^ width + n / 16 % 16 ^ width) * 16 + n % 16 =
        value * 16 ^ (width + 1) + n % 16 ^ (width + 1) := by
      rw [Nat.pow_succ', Nat.mod_mul, Nat.mul_left_comm]
      omega
    have step := digit_next wide last (left + 1 + 1) (value * 16 ^ width + n / 16 % 16 ^ width)
    rw [if_neg (by omega), sum] at step
    have first := ih (left + 1) (n / 16)
    rw [show width + (left + 1 + 1) = width + 1 + (left + 1) by omega] at first
    rw [Text.hexDigits]
    exact first.append (.cons (by simp) step (.nil _))

/-- The last digit completes the number. -/
theorem number_stands {form : Digits} (wide : form.base = 16) {width n : Nat} {bytes : Bytes}
    (small : n < 16 ^ (width + 1)) (read : form.value? n = some bytes) :
    Stands (.digits form (width + 1) 0) (Text.hexDigits (width + 1) n) bytes .plain := by
  have last : n % 16 < 16 := Nat.mod_lt n (by decide)
  have front : n / 16 % 16 ^ width = n / 16 := by
    apply Nat.mod_eq_of_lt
    rw [Nat.pow_succ] at small
    exact Nat.div_lt_of_lt_mul (by omega)
  have step := digit_next wide last 1 (n / 16)
  rw [if_pos (by omega), show n / 16 * 16 + n % 16 = n by omega, read, Option.map_some] at step
  have first := digits_stand wide width 0 0 (n / 16)
  simp only [Nat.zero_mul, Nat.zero_add, front] at first
  have whole := first.append (Stands.cons (by simp) step (.nil _))
  rw [List.nil_append, List.append_nil] at whole
  exact whole

theorem point_value (c : Char) :
    Digits.value? .point c.toNat = some (Utf8.encodeChars [c]) := by
  have valid : c.toNat.isValidChar := c.valid
  rw [Digits.value?, if_pos valid, Char.ofNat_toNat]

theorem byte_value {c : Char} (low : c.toNat < 0x80) :
    Digits.value? .byte c.toNat = some (Utf8.encodeChars [c]) := by
  rw [Digits.value?, if_pos (by omega), Utf8.encodeChars_ascii low]

theorem controlName_byte {c name : Char} (named : Text.controlName? c = some name) :
    namedByte? name = some (UInt8.ofNat c.toNat) ∧ c.toNat < 0x80 := by
  unfold Text.controlName? at named
  repeat' split at named
  all_goals cases named
  all_goals simp [namedByte?, *]

/-- No printable character is barred. -/
theorem free_of_printable {c : Char} (printable : Text.isPrintable c = true) :
    isBarred c = false := by
  have barred : ['\n', '\x00', byteOrderMark].all (fun c => !Text.isPrintable c) = true := by
    decide +kernel
  cases listed : isBarred c with
  | false => rfl
  | true =>
    have refused := List.all_eq_true.mp barred c (List.contains_iff_mem.mp listed)
    rw [printable] at refused
    cases refused

theorem escape_stands {cs : List Char} {bytes : Bytes} (rest : Stands .escape cs bytes .plain) :
    Stands .plain ('\\' :: cs) bytes .plain := by
  have opened : Mode.next .plain '\\' = some ([], .escape) := by simp [Mode.next]
  exact Stands.cons (by simp) opened rest

/-- A named byte is one step. -/
theorem named_stands {c : Char} {b : UInt8} (named : namedByte? c = some b) :
    Stands .escape [c] [b] .plain := by
  have step : Mode.next .escape c = some ([b], .plain) := by
    rw [Mode.next, named]
  exact Stands.cons (by simp) step (.nil _)

theorem numbered_stands {letter : Char} {form : Digits} {width n : Nat} {bytes : Bytes}
    (step : Mode.next .escape letter = some ([], .digits form (width + 1) 0))
    (wide : form.base = 16) (small : n < 16 ^ (width + 1)) (read : form.value? n = some bytes) :
    Stands .plain ('\\' :: letter :: Text.hexDigits (width + 1) n) bytes .plain :=
  escape_stands (Stands.cons (by simp) step (number_stands wide small read))

/-- A character stands for its own bytes, however it is written. -/
theorem escapeChar_stands (c : Char) :
    Stands .plain (Text.escapeChar '"' c) (Utf8.encodeChars [c]) .plain := by
  unfold Text.escapeChar
  split
  · next special =>
    simp only [Bool.or_eq_true, decide_eq_true_eq] at special
    rcases special with rfl | rfl
    · exact escape_stands (named_stands (by decide))
    · exact escape_stands (named_stands (by decide))
  next plain =>
  simp only [Bool.or_eq_true, decide_eq_true_eq, not_or] at plain
  obtain ⟨noQuote, noBackslash⟩ := plain
  split
  · next printable =>
    have step : Mode.next .plain c = some (Utf8.encodeChars [c], .plain) := by
      rw [Mode.next, if_neg noBackslash, if_neg (by simp [free_of_printable printable])]
    have single := Stands.cons (fun both => noQuote both.2) step (.nil _)
    rw [List.append_nil] at single
    exact single
  split
  · next name named =>
    obtain ⟨byte, low⟩ := controlName_byte named
    rw [Utf8.encodeChars_ascii low]
    exact escape_stands (named_stands byte)
  have bound : c.toNat < 0xd800 ∨ (0xdfff < c.toNat ∧ c.toNat < 0x110000) := c.valid
  split
  · next control =>
    simp only [Bool.or_eq_true, decide_eq_true_eq] at control
    exact numbered_stands (by decide) rfl (by omega) (byte_value (by omega))
  split
  · exact numbered_stands (by decide) rfl (by omega) (point_value c)
  · exact numbered_stands (by decide) rfl (by omega) (point_value c)

theorem escaped_stands (cs : List Char) :
    Stands .plain (cs.flatMap (Text.escapeChar '"')) (Utf8.encodeChars cs) .plain := by
  induction cs with
  | nil =>
    rw [List.flatMap_nil, Utf8.encodeChars_nil]
    exact .nil _
  | cons c cs ih =>
    rw [List.flatMap_cons, Utf8.encodeChars_cons]
    exact (escapeChar_stands c).append ih

/-- Quoted text is one token with the text as its value. -/
theorem quoted_reads (s : String) :
    Reads .code (Text.quoted s).toList [.literal (Utf8.encode s)] .code := by
  have value : Utf8.encodeChars s.toList = Utf8.encode s := by
    rw [Utf8.encodeChars, String.ofList_toList]
  have inner := escaped_stands s.toList []
  rw [List.nil_append, value] at inner
  have opening : State.next .code '"' = some ([], .literal .plain []) := by
    simp [State.next, enter]
  have closing : State.next (.literal .plain (Utf8.encode s)) '"' =
      some ([.literal (Utf8.encode s)], .code) := by
    simp [State.next]
  rw [Text.quoted, String.toList_ofList, Text.quotedChars]
  exact Reads.cons opening (inner.append (Reads.cons closing (.nil _)))

theorem raw_reads (before : List Char) {cs : List Char}
    (free : ∀ c ∈ cs, c ≠ '\x60' ∧ isBarred c = false) :
    Reads (.raw before) cs [] (.raw (before ++ cs)) := by
  induction cs generalizing before with
  | nil =>
    rw [List.append_nil]
    exact .nil _
  | cons c cs ih =>
    obtain ⟨closed, open_⟩ := free c List.mem_cons_self
    have step : State.next (.raw before) c = some ([], .raw (before ++ [c])) := by
      simp [State.next, closed, open_]
    have rest := ih (before ++ [c]) fun d later => free d (List.mem_cons_of_mem c later)
    rw [List.append_assoc] at rest
    exact Reads.cons step rest

theorem tag_reads {tag : String} (free : ∀ c ∈ tag.toList, c ≠ '\x60' ∧ isBarred c = false) :
    Reads .code (quoteTag tag).toList [.raw tag.toList] .code := by
  have chars : (quoteTag tag).toList = '\x60' :: (tag.toList ++ ['\x60']) := by
    simp [quoteTag]
  have opening : State.next .code '\x60' = some ([], .raw []) := by
    simp [State.next, enter]
  have closing : State.next (.raw tag.toList) '\x60' = some ([.raw tag.toList], .code) := by
    simp [State.next]
  rw [chars]
  exact Reads.cons opening ((raw_reads [] free).append (Reads.cons closing (.nil _)))

/-! ### Words, and texts put together -/

theorem enter_part {c : Char} (part : Ident.isPart c = true) : enter c = some ([], .word [c]) := by
  have others : [' ', '\t', '\n', '"', '\x60'].all (fun c => !Ident.isPart c) = true := by decide
  have apart : c ∉ [' ', '\t', '\n', '"', '\x60'] := by
    intro listed
    have refused := List.all_eq_true.mp others c listed
    rw [part] at refused
    cases refused
  simp only [List.mem_cons, List.not_mem_nil, or_false, not_or] at apart
  simp [enter, apart, part]

theorem word_grows (before : List Char) {cs : List Char}
    (parts : ∀ c ∈ cs, Ident.isPart c = true) :
    Reads (.word before) cs [] (.word (before ++ cs)) := by
  induction cs generalizing before with
  | nil =>
    rw [List.append_nil]
    exact .nil _
  | cons c cs ih =>
    have step : State.next (.word before) c = some ([], .word (before ++ [c])) := by
      simp [State.next, parts c List.mem_cons_self]
    have rest := ih (before ++ [c]) fun d later => parts d (List.mem_cons_of_mem c later)
    rw [List.append_assoc] at rest
    exact Reads.cons step rest

theorem lex_of_reads {text : String} {ts : List Token}
    (read : Reads .code text.toList ts .code) : lex text = some ts := by
  unfold Reads at read
  simp [lex, read, State.close?]

theorem lex_quoted (s : String) : lex (Text.quoted s) = some [.literal (Utf8.encode s)] :=
  lex_of_reads (quoted_reads s)

theorem quoted_injective {s t : String} (same : Text.quoted s = Text.quoted t) : s = t := by
  have read := lex_quoted s
  rw [same, lex_quoted t] at read
  have bytes : Utf8.encodeChars t.toList = Utf8.encodeChars s.toList := by
    simpa [Utf8.encodeChars] using read
  exact (String.toList_inj.mp (Utf8.encodeChars_injective bytes)).symm

theorem lex_word {name : String} (some_ : name.toList ≠ [])
    (parts : ∀ c ∈ name.toList, Ident.isPart c = true) : lex name = some [.word name.toList] := by
  have read : Reads .code name.toList [] (.word name.toList) := by
    cases chars : name.toList with
    | nil => exact absurd chars some_
    | cons c cs =>
      rw [chars] at parts
      have step : State.next .code c = some ([], .word [c]) :=
        enter_part (parts c List.mem_cons_self)
      exact Reads.cons step (word_grows [c] fun d later => parts d (List.mem_cons_of_mem c later))
  unfold Reads at read
  simp [lex, read, State.close?]

def startsWord (text : String) : Bool := text.toList.head?.any Ident.isPart

def endsWord (text : String) : Bool := text.toList.getLast?.any Ident.isPart

theorem isPart_of_enter {c : Char} {us : List Token} {w : List Char}
    (step : enter c = some (us, .word w)) : Ident.isPart c = true := by
  unfold enter at step
  repeat' split at step
  all_goals simp_all

theorem isPart_of_next {s : State} {c : Char} {us : List Token} {w : List Char}
    (step : s.next c = some (us, .word w)) : Ident.isPart c = true := by
  cases s with
  | code => exact isPart_of_enter step
  | word v =>
    rw [State.next] at step
    split at step
    · assumption
    · obtain ⟨⟨ts, e⟩, entered, same⟩ := Option.map_eq_some_iff.mp step
      obtain ⟨-, rfl⟩ := Prod.mk.inj same
      exact isPart_of_enter entered
  | literal mode value =>
    rw [State.next] at step
    split at step
    · simp at step
    · simp at step
  | raw t =>
    rw [State.next] at step
    repeat' split at step
    all_goals simp at step

/-- Whoever is in a word has just read a part of it. -/
theorem ends_in_word {s : State} {cs : List Char} {ts : List Token} {w : List Char}
    (read : Reads s cs ts (.word w)) (some_ : cs ≠ []) :
    cs.getLast?.any Ident.isPart = true := by
  induction cs generalizing s ts with
  | nil => exact absurd rfl some_
  | cons c cs ih =>
    obtain ⟨m, us, vs, first, rest, -⟩ := reads_cons_iff.mp read
    cases cs with
    | nil =>
      obtain ⟨-, rfl⟩ := Prod.mk.inj (Option.some.inj rest)
      simpa using isPart_of_next first
    | cons d ds =>
      rw [List.getLast?_cons_cons]
      exact ih rest (by simp)

/-- A character that is no part of a word ends the word before it. -/
theorem word_ends {w : List Char} {c : Char} {cs : List Char} {ts : List Token} {e : State}
    (other : Ident.isPart c = false) (read : Reads .code (c :: cs) ts e) :
    Reads (.word w) (c :: cs) (.word w :: ts) e := by
  obtain ⟨m, us, vs, first, rest, rfl⟩ := reads_cons_iff.mp read
  have entered : enter c = some (us, m) := first
  have step : State.next (.word w) c = some (.word w :: us, m) := by
    simp [State.next, other, entered]
  exact Reads.cons step rest

theorem lex_iff {text : String} {ts : List Token} :
    lex text = some ts ↔ Reads .code text.toList ts .code ∨
      ∃ us w, Reads .code text.toList us (.word w) ∧ ts = us ++ [.word w] := by
  unfold lex Reads
  rw [Option.bind_eq_some_iff]
  constructor
  · rintro ⟨⟨us, e⟩, read, closed⟩
    cases e with
    | code =>
      simp only [State.close?, Option.map_some, List.append_nil, Option.some.injEq] at closed
      exact .inl (closed ▸ read)
    | word w =>
      simp only [State.close?, Option.map_some, Option.some.injEq] at closed
      exact .inr ⟨us, w, read, closed.symm⟩
    | _ => simp [State.close?] at closed
  · rintro (read | ⟨us, w, read, rfl⟩)
    · exact ⟨_, read, by simp [State.close?]⟩
    · exact ⟨_, read, by simp [State.close?]⟩

/-- Texts are read one after the other, unless one word runs into the next. -/
theorem lex_append {a b : String} {ts us : List Token} (first : lex a = some ts)
    (second : lex b = some us) (apart : (endsWord a && startsWord b) = false) :
    lex (a ++ b) = some (ts ++ us) := by
  rw [lex_iff, String.toList_append]
  rcases lex_iff.mp first with done | ⟨vs, w, inside, rfl⟩
  · rcases lex_iff.mp second with done' | ⟨xs, v, inside', rfl⟩
    · exact .inl (done.append done')
    · exact .inr ⟨ts ++ xs, v, done.append inside', (List.append_assoc ..).symm⟩
  · have ends : endsWord a = true := by
      apply ends_in_word inside
      intro empty
      rw [empty] at inside
      cases inside
    rw [ends, Bool.true_and] at apart
    unfold startsWord at apart
    cases chars : b.toList with
    | nil =>
      rw [lex, chars] at second
      obtain rfl : [] = us := by simpa [run, State.close?] using second
      rw [List.append_nil, List.append_nil]
      exact .inr ⟨vs, w, inside, rfl⟩
    | cons c cs =>
      rw [chars] at apart
      have other : Ident.isPart c = false := by simpa using apart
      rcases lex_iff.mp second with done' | ⟨xs, v, inside', rfl⟩
      · rw [chars] at done'
        rw [List.append_assoc]
        exact .inl (inside.append (word_ends other done'))
      · rw [chars] at inside'
        refine .inr ⟨vs ++ .word w :: xs, v, inside.append (word_ends other inside'), ?_⟩
        simp

theorem lex_between {a b c : String} {ts us vs : List Token} (first : lex a = some ts)
    (inner : lex b = some us) (last : lex c = some vs) (before : endsWord a = false)
    (after : startsWord c = false) : lex (a ++ b ++ c) = some (ts ++ us ++ vs) := by
  have front := lex_append first inner (by rw [before, Bool.false_and])
  exact lex_append front last (by rw [after, Bool.and_false])

end SchemaForge.Code.Source
