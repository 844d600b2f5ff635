import Mathlib.Data.List.TakeWhile
import SchemaForge.Proofs.Parsing

/-!
The lexemes of well-formed text. Blanks, commas and colons only set the mark of the lexeme after
them, and a word, a number or a string is one lexeme whatever follows it, as far as a number is not
followed by more number characters. So the lexemes of a derivation are a loose value, and both
readers give the tree that the grammar denotes.
-/
namespace SchemaForge.Json

namespace Lexemes

/-- Puts lexemes in front. -/
def after (items : List Lexeme) (more : Lexemes) : Lexemes := ⟨items ++ more.items, more.finish⟩

theorem after_append (items others : List Lexeme) (more : Lexemes) :
    after (items ++ others) more = after items (after others more) := by
  simp [after]

end Lexemes

namespace Lexer

theorem stringOnto_shorter {acc : Bytes} {skip : Nat} {text rest : Bytes} {s : String}
    (read : stringOnto acc skip text = .ok (s, rest)) : rest.length < text.length := by
  induction text generalizing acc skip with
  | nil => cases skip <;> simp [stringOnto] at read
  | cons b text ih =>
    rw [List.length_cons]
    cases skip with
    | succ skip => exact Nat.lt_succ_of_lt (ih read)
    | zero =>
      rw [stringOnto] at read
      split at read
      · obtain ⟨-, rfl⟩ := Prod.mk.inj (Except.ok.inj read)
        exact Nat.lt_succ_self _
      split at read
      · split at read
        · cases read
        · exact Nat.lt_succ_of_lt (ih read)
      · exact Nat.lt_succ_of_lt (ih read)

theorem matchWord_length {w : Word} {letters text rest : Bytes}
    (matched : matchWord w letters text = .ok rest) : rest.length ≤ text.length := by
  fun_induction matchWord w letters text with
  | case1 text =>
    obtain rfl := Except.ok.inj matched
    exact Nat.le_refl _
  | case2 letter =>
    obtain rfl := Except.ok.inj matched
    exact Nat.le_refl _
  | case3 => cases matched
  | case4 letters letter text ih => exact Nat.le_succ_of_le (ih matched)
  | case5 => cases matched

theorem word_lexeme {separated : Bool} {w : Word} {text rest : Bytes} {item : Lexeme}
    (found : word separated w text = .lexeme item rest) : rest.length ≤ text.length := by
  unfold word at found
  split at found
  · next matched =>
    obtain ⟨-, rfl⟩ := Step.lexeme.inj found
    exact matchWord_length matched
  · cases found

/-- Every lexeme takes a byte. -/
theorem next_shorter {separated : Bool} {text rest : Bytes} {item : Lexeme}
    (found : next separated text = .lexeme item rest) : rest.length < text.length := by
  fun_induction next separated text with
  | case1 => cases found
  | case2 separated b text blank ih => exact Nat.lt_succ_of_lt (ih found)
  | case3 separated b text blank separator ih => exact Nat.lt_succ_of_lt (ih found)
  | case8 =>
    obtain ⟨-, rfl⟩ := Step.lexeme.inj found
    exact Nat.lt_succ_of_le (List.dropWhile_suffix _).length_le
  | case9 =>
    obtain ⟨-, rfl⟩ := Step.lexeme.inj found
    exact Nat.lt_succ_of_lt (stringOnto_shorter ‹_›)
  | case10 => cases found
  | case11 => exact Nat.lt_succ_of_le (word_lexeme found)
  | case12 => exact Nat.lt_succ_of_le (word_lexeme found)
  | case13 => exact Nat.lt_succ_of_le (word_lexeme found)
  | case14 => cases found
  | _ =>
    obtain ⟨-, rfl⟩ := Step.lexeme.inj found
    exact Nat.lt_succ_self _

/-- The lexemes from some place on, where `separated` tells whether a separator was just passed. -/
def scan (separated : Bool) (text : Bytes) : Lexemes :=
  match next separated text with
  | .lexeme item rest => Lexemes.after [item] (collect (rest.length + 1) [] rest)
  | .finish last => ⟨[], last⟩

theorem collect_eq {fuel : Nat} {text : Bytes} (enough : text.length < fuel) (acc : List Lexeme) :
    collect fuel acc text = Lexemes.after acc.reverse (scan false text) := by
  induction fuel using Nat.strongRecOn generalizing text acc with
  | ind fuel ih =>
    obtain ⟨fuel, rfl⟩ := Nat.exists_eq_add_one_of_ne_zero (Nat.ne_zero_of_lt enough)
    rw [collect, scan]
    cases found : next false text with
    | finish last => simp [Lexemes.after]
    | lexeme item rest =>
      have shorter := next_shorter found
      dsimp only
      rw [ih fuel (by omega) (show rest.length < fuel by omega),
        ih (rest.length + 1) (by omega) (Nat.lt_succ_self _), ← Lexemes.after_append]
      simp [Lexemes.after]

theorem scan_lexeme {separated : Bool} {text rest : Bytes} {item : Lexeme}
    (found : next separated text = .lexeme item rest) :
    scan separated text = Lexemes.after [item] (scan false rest) := by
  rw [scan, found]
  dsimp only
  rw [collect_eq (Nat.lt_succ_self _)]
  rfl

theorem scan_eq_of_next {separated separated' : Bool} {text text' : Bytes}
    (same : next separated text = next separated' text') :
    scan separated text = scan separated' text' := by
  rw [scan, scan, same]

end Lexer

theorem lexemes_eq_scan {text : Bytes} (visible : 0 ∉ text) :
    lexemes text = Lexer.scan false text := by
  have all : text.takeWhile (· ≠ 0) = text := by
    refine List.takeWhile_eq_self_iff.mpr fun b member => ?_
    have nonzero : b ≠ 0 := by
      rintro rfl
      exact visible member
    simpa using nonzero
  unfold lexemes
  rw [all, Lexer.collect_eq (Nat.lt_succ_self _)]
  rfl

namespace Lexer

variable {separated : Bool} {rest : Bytes}

open Utf8 Grammar

/- Blanks and separators. -/

theorem isSpace_byte {c : Char} (space : isSpace c = true) :
    c.toNat < 0x80 ∧ isBlank (UInt8.ofNat c.toNat) = true ∧
      inNumber (UInt8.ofNat c.toNat) = false := by
  simp only [isSpace, Bool.or_eq_true, decide_eq_true_eq] at space
  rcases space with ((rfl | rfl) | rfl) | rfl <;> decide

theorem scan_blank {cs : List Char} (blank : Blank cs) :
    scan separated (encodeChars cs ++ rest) = scan separated rest := by
  induction cs with
  | nil => rfl
  | cons c cs ih =>
    obtain ⟨low, skipped, -⟩ := isSpace_byte (blank c List.mem_cons_self)
    rw [encodeChars_cons_ascii low, List.cons_append,
      ← ih fun d member => blank d (List.mem_cons_of_mem _ member)]
    exact scan_eq_of_next (by rw [next, if_pos skipped])

theorem encodeChars_comma (cs : List Char) : encodeChars (',' :: cs) = 44 :: encodeChars cs :=
  encodeChars_cons_ascii (by decide) cs

theorem encodeChars_colon (cs : List Char) : encodeChars (':' :: cs) = 58 :: encodeChars cs :=
  encodeChars_cons_ascii (by decide) cs

theorem scan_comma : scan separated (44 :: rest) = scan true rest := scan_eq_of_next rfl

theorem scan_colon : scan separated (58 :: rest) = scan true rest := scan_eq_of_next rfl

/- Numbers. -/

/-- A number that stands before `rest` goes no further. -/
def Stops (rest : Bytes) : Prop := ∀ b ∈ rest.head?, inNumber b = false

theorem span_stops {bytes : Bytes} (all : ∀ b ∈ bytes, inNumber b = true) (stops : Stops rest) :
    (bytes ++ rest).takeWhile inNumber = bytes ∧ (bytes ++ rest).dropWhile inNumber = rest := by
  have none : rest.takeWhile inNumber = [] ∧ rest.dropWhile inNumber = rest := by
    rcases rest with _ | ⟨b, rest⟩
    · exact ⟨rfl, rfl⟩
    · have other : inNumber b = false := stops b rfl
      simp [other]
  rw [List.takeWhile_append_of_pos all, List.dropWhile_append_of_pos all, none.1, none.2]
  exact ⟨List.append_nil _, rfl⟩

theorem scan_number {cs : List Char} (number : Number cs) (stops : Stops rest) :
    scan separated (encodeChars cs ++ rest) =
      Lexemes.after [⟨separated, .number (String.ofList cs)⟩] (scan false rest) := by
  obtain ⟨⟨c, digits, rfl, first⟩, chars⟩ := number.chars
  have every : "0123456789.eE+-".toList.all (fun c =>
      c.toNat < 0x80 && inNumber (UInt8.ofNat c.toNat)) = true := by decide
  have starts : "0123456789-".toList.all (fun c =>
      !isBlank (UInt8.ofNat c.toNat) && !isSeparator (UInt8.ofNat c.toNat) &&
        !([123, 125, 91, 93].contains (UInt8.ofNat c.toNat)) &&
        startsNumber (UInt8.ofNat c.toNat)) = true := by decide
  simp only [List.all_eq_true, Bool.and_eq_true, decide_eq_true_eq] at every
  simp only [List.all_eq_true, Bool.and_eq_true, Bool.not_eq_true', List.contains_eq_mem,
    decide_eq_false_iff_not, List.mem_cons, List.not_mem_nil, or_false, not_or] at starts
  obtain ⟨⟨⟨blank, separator⟩, opens, closes, opens', closes'⟩, number⟩ := starts c first
  have low := encodeChars_low fun c member => (every c (chars c member)).1
  have inside : ∀ b ∈ digits.map fun c => UInt8.ofNat c.toNat, inNumber b = true := by
    intro b member
    obtain ⟨d, there, rfl⟩ := List.mem_map.mp member
    exact (every d (chars d (List.mem_cons_of_mem _ there))).2
  refine scan_lexeme ?_
  rw [low, List.map_cons, List.cons_append, next]
  simp only [blank, separator, opens, closes, opens', closes', number, Bool.false_eq_true, if_true,
    if_false, (span_stops inside stops).1, (span_stops inside stops).2]
  rw [← List.map_cons (f := fun c : Char => UInt8.ofNat c.toNat), ← low, decode_encodeChars]

/- Strings. The bytes collected so far are the encoding of the characters read so far. -/

theorem stringOnto_skip (acc skipped more : Bytes) :
    stringOnto acc skipped.length (skipped ++ more) = stringOnto acc 0 more := by
  induction skipped with
  | nil => rfl
  | cons b skipped ih => exact ih

theorem stringOnto_plain (acc : Bytes) {bytes : Bytes} (free : ∀ b ∈ bytes, b ≠ 34 ∧ b ≠ 92)
    (more : Bytes) :
    stringOnto acc 0 (bytes ++ more) = stringOnto (bytes.reverse ++ acc) 0 more := by
  induction bytes generalizing acc with
  | nil => rfl
  | cons b bytes ih =>
    obtain ⟨quote, slash⟩ := free b List.mem_cons_self
    rw [List.cons_append, stringOnto, if_neg quote, if_neg slash,
      ih _ fun c member => free c (List.mem_cons_of_mem _ member)]
    simp

/-- An escape takes its letter and what belongs to it. -/
theorem stringOnto_escape (acc : Bytes) {c : Char} {taken more : Bytes}
    (escaped : escape (taken ++ more) = .ok (c, taken.length)) :
    stringOnto acc 0 (92 :: (taken ++ more)) =
      stringOnto ((encodeChars [c]).reverse ++ acc) 0 more := by
  rw [stringOnto, if_neg (by decide), if_pos rfl, escaped]
  exact stringOnto_skip _ taken more

theorem encodeChars_codeUnit {cs : List Char} {n : Nat} (unit : CodeUnit cs n) :
    ∃ a b c d, encodeChars cs = [a, b, c, d] ∧ hexUnit a b c d = n := by
  obtain ⟨first, second, third, fourth⟩ := unit
  have nibble : ∀ {c : Char} {n : Nat}, Hex c n →
      c.toNat < 0x80 ∧ hexNibble (UInt8.ofNat c.toNat) = n := by
    intro c n hex
    have all : ∀ n < 16, [Nat.digitChar n, (Nat.digitChar n).toUpper].all (fun c =>
        c.toNat < 0x80 && hexNibble (UInt8.ofNat c.toNat) = n) = true := by decide
    simp only [List.all_eq_true, Bool.and_eq_true, decide_eq_true_eq] at all
    exact all n hex.1 c (by simpa using hex.2)
  refine ⟨_, _, _, _, encodeChars_low ?_, ?_⟩
  · simp [nibble first, nibble second, nibble third, nibble fourth]
  · simp only [hexUnit, nibble first, nibble second, nibble third, nibble fourth]

theorem escape_short {letter c : Char} (named : (letter, c) ∈ shortEscapes) (more : Bytes) :
    letter.toNat < 0x80 ∧ escape ([UInt8.ofNat letter.toNat] ++ more) = .ok (c, 1) := by
  simp only [shortEscapes, List.mem_cons, Prod.mk.injEq, List.not_mem_nil, or_false] at named
  rcases named with ⟨rfl, rfl⟩ | ⟨rfl, rfl⟩ | ⟨rfl, rfl⟩ | ⟨rfl, rfl⟩ | ⟨rfl, rfl⟩ | ⟨rfl, rfl⟩ |
    ⟨rfl, rfl⟩ | ⟨rfl, rfl⟩
  all_goals exact ⟨by decide, rfl⟩

theorem escape_unit {a b c d next : UInt8} {n : Nat} (value : hexUnit a b c d = n)
    (scalar : n < 0xd800 ∨ 0xe000 ≤ n) (more : Bytes) :
    escape ([117, a, b, c, d] ++ next :: more) = .ok (Char.ofNat n, 5) := by
  have alone : isSurrogate n = false := by
    simp only [isSurrogate, Bool.and_eq_false_iff, decide_eq_false_iff_not]
    omega
  change (unicodeEscape (a :: b :: c :: d :: next :: more)).map _ = _
  rw [unicodeEscape.eq_def]
  simp only [value, alone, Bool.false_eq_true, if_false, Except.map]

theorem escape_pair {a b c d p q r s next : UInt8} {high low : Nat} (first : hexUnit a b c d = high)
    (second : hexUnit p q r s = low) (isHigh : 0xd800 ≤ high ∧ high < 0xdc00)
    (isLow : 0xdc00 ≤ low ∧ low < 0xe000) (more : Bytes) :
    escape ([117, a, b, c, d, 92, 117, p, q, r, s] ++ next :: more) =
      .ok (Char.ofNat (0x10000 + (high - 0xd800) * 0x400 + (low - 0xdc00)), 11) := by
  have half : isSurrogate high = true := by
    simp only [isSurrogate, Bool.and_eq_true, decide_eq_true_eq]
    omega
  have paired : surrogatePair? high low =
      some (Char.ofNat (0x10000 + (high - 0xd800) * 0x400 + (low - 0xdc00))) := by
    have sum : (high - 0xd800) * 0x400 + (low - 0xdc00) + 0x10000 =
        0x10000 + (high - 0xd800) * 0x400 + (low - 0xdc00) := by omega
    rw [surrogatePair?, if_pos (by simp [isHigh, isLow]), sum]
  change (unicodeEscape
    (a :: b :: c :: d :: 92 :: 117 :: p :: q :: r :: s :: next :: more)).map _ = _
  rw [unicodeEscape.eq_def]
  simp only [first, half, second, paired, if_true, Except.map]

/-- One character of a string adds its own bytes, if a byte follows, as the closing quote does. -/
theorem stringOnto_character (acc : Bytes) {cs : List Char} {c : Char} (character : Character cs c)
    {more : Bytes} (follows : more ≠ []) :
    stringOnto acc 0 (encodeChars cs ++ more) =
      stringOnto ((encodeChars [c]).reverse ++ acc) 0 more := by
  obtain ⟨next, more, rfl⟩ := List.exists_cons_of_ne_nil follows
  cases character with
  | plain visible quote slash =>
    -- a byte that ends or escapes would be a character of its own
    have free : ∀ b ∈ encodeChars [c], ∀ other : Char, other.toNat < 0x80 → c ≠ other →
        b ≠ UInt8.ofNat other.toNat := by
      rintro b member other low apart rfl
      have value := toNat_byte (show other.toNat < 256 by omega)
      obtain ⟨d, same, equal⟩ := mem_encodeChars_ascii member (by omega)
      obtain rfl := List.mem_singleton.mp same
      exact apart (Char.toNat_inj.mp (equal.trans value))
    exact stringOnto_plain acc (fun b member =>
      ⟨free b member '"' (by decide) quote, free b member '\\' (by decide) slash⟩) _
  | short named =>
    obtain ⟨low, escaped⟩ := escape_short named (next :: more)
    rw [encodeChars_cons_ascii (by decide), encodeChars_ascii low]
    exact stringOnto_escape acc escaped
  | unit written scalar =>
    obtain ⟨a, b, c, d, bytes, value⟩ := encodeChars_codeUnit written
    rw [encodeChars_cons_ascii (by decide), encodeChars_cons_ascii (by decide), bytes]
    exact stringOnto_escape acc (escape_unit value scalar more)
  | pair first second isHigh isLow =>
    obtain ⟨a, b, c, d, bytes, value⟩ := encodeChars_codeUnit first
    obtain ⟨p, q, r, s, bytes', value'⟩ := encodeChars_codeUnit second
    rw [encodeChars_cons_ascii (by decide), encodeChars_cons_ascii (by decide), encodeChars_append,
      encodeChars_cons_ascii (by decide), encodeChars_cons_ascii (by decide), bytes, bytes']
    exact stringOnto_escape acc (escape_pair value value' isHigh isLow more)

theorem stringOnto_characters (acc : Bytes) {cs text : List Char} (inside : Characters cs text)
    (rest : Bytes) :
    stringOnto acc 0 (encodeChars cs ++ 34 :: rest) =
      .ok (decode (acc.reverse ++ encodeChars text), rest) := by
  induction inside generalizing acc with
  | nil => simp [stringOnto]
  | @cons _ _ text c first _ ih =>
    rw [encodeChars_append, List.append_assoc, stringOnto_character acc first (by simp), ih,
      encodeChars_cons c text]
    simp

theorem encodeChars_enclosed {first last : Char} (low : first.toNat < 0x80)
    (low' : last.toNat < 0x80) (cs : List Char) (rest : Bytes) :
    encodeChars (first :: (cs ++ [last])) ++ rest =
      UInt8.ofNat first.toNat :: (encodeChars cs ++ UInt8.ofNat last.toNat :: rest) := by
  rw [encodeChars_cons_ascii low, encodeChars_append, encodeChars_ascii low']
  simp

theorem scan_quoted {cs : List Char} {s : String} (quoted : Quoted cs s) :
    scan separated (encodeChars cs ++ rest) =
      Lexemes.after [⟨separated, .string s⟩] (scan false rest) := by
  obtain ⟨inside⟩ := quoted
  rename_i cs text
  have read : stringOnto [] 0 (encodeChars cs ++ 34 :: rest) = .ok (String.ofList text, rest) := by
    rw [stringOnto_characters [] inside rest, List.reverse_nil, List.nil_append, decode_encodeChars]
  have quote : isBlank 34 = false ∧ isSeparator 34 = false ∧ startsNumber 34 = false := by decide
  refine scan_lexeme ?_
  rw [encodeChars_enclosed (by decide) (by decide)]
  change next separated (34 :: (encodeChars cs ++ 34 :: rest)) = _
  simp [next, quote, read]

/- Words and marks. -/

theorem scan_word (w : Word) :
    scan separated (encodeChars w.text.toList ++ rest) =
      Lexemes.after [⟨separated, w.token⟩] (scan false rest) := by
  have low : w.text.toList.all (fun c => c.toNat < 0x80) = true := by cases w <;> decide
  simp only [List.all_eq_true, decide_eq_true_eq] at low
  refine scan_lexeme ?_
  rw [encodeChars_low low]
  cases w <;> rfl

/-- A container is its opening mark, the lexemes between the marks and its closing mark. -/
theorem scan_enclosed {first last : Char} {opener closer : Token} {cs : List Char}
    {body : List Lexeme} (low : first.toNat < 0x80) (low' : last.toNat < 0x80)
    (opens : ∀ separated rest,
      next separated (UInt8.ofNat first.toNat :: rest) = .lexeme ⟨separated, opener⟩ rest)
    (closes : ∀ separated rest,
      next separated (UInt8.ofNat last.toNat :: rest) = .lexeme ⟨separated, closer⟩ rest)
    (inside : scan false (encodeChars cs ++ UInt8.ofNat last.toNat :: rest) =
      Lexemes.after body (scan false (UInt8.ofNat last.toNat :: rest))) :
    scan separated (encodeChars (first :: (cs ++ [last])) ++ rest) =
      Lexemes.after (⟨separated, opener⟩ :: (body ++ [⟨false, closer⟩])) (scan false rest) := by
  rw [encodeChars_enclosed low low', scan_lexeme (opens separated _), inside,
    scan_lexeme (closes false rest), ← Lexemes.after_append, ← Lexemes.after_append]
  simp

/-- A key and its colon are one lexeme, and what comes after them is separated. -/
theorem scan_key {before name gap between : List Char} {key : String} (front : Blank before)
    (named : Quoted name key) (colon : Blank gap) (space : Blank between) :
    scan separated (encodeChars before ++ (encodeChars name ++ (encodeChars gap ++
        58 :: (encodeChars between ++ rest)))) =
      Lexemes.after [⟨separated, .string key⟩] (scan true rest) := by
  rw [scan_blank front, scan_quoted named, scan_blank colon, scan_colon, scan_blank space]

theorem Stops.blank {cs : List Char} (blank : Blank cs) (stops : Stops rest) :
    Stops (encodeChars cs ++ rest) := by
  rcases cs with _ | ⟨c, cs⟩
  · simpa using stops
  · obtain ⟨low, -, other⟩ := isSpace_byte (blank c List.mem_cons_self)
    intro b first
    rw [encodeChars_cons_ascii low, List.cons_append] at first
    obtain rfl := Option.some.inj first
    exact other

theorem Stops.mark {b : UInt8} (other : inNumber b = false) (rest : Bytes) : Stops (b :: rest) := by
  rintro _ ⟨⟩
  exact other

mutual

/-- The lexemes of a value are a loose value, wherever it stands. -/
theorem scan_value {cs : List Char} {v : Json} (value : Value cs v) (separated : Bool)
    {rest : Bytes} (stops : Stops rest) : ∃ used, Loose used v ∧
      scan separated (encodeChars cs ++ rest) = Lexemes.after used (scan false rest) := by
  cases value with
  | null => exact ⟨_, .null separated, scan_word .null⟩
  | true => exact ⟨_, .bool separated true, scan_word .true⟩
  | false => exact ⟨_, .bool separated false, scan_word .false⟩
  | number spelled => exact ⟨_, .number separated _, scan_number spelled stops⟩
  | string quoted => exact ⟨_, .string separated _, scan_quoted quoted⟩
  | emptyArray blank =>
    exact ⟨_, .array .nil rfl, scan_enclosed (by decide) (by decide) (fun _ _ => rfl)
      (fun _ _ => rfl) (scan_blank blank)⟩
  | array elements =>
    obtain ⟨body, loose, inside⟩ := scan_elements elements false (Stops.mark (b := 93) rfl rest)
    exact ⟨_, .array loose rfl, scan_enclosed (by decide) (by decide) (fun _ _ => rfl)
      (fun _ _ => rfl) inside⟩
  | emptyObject blank =>
    exact ⟨_, .object .nil rfl, scan_enclosed (by decide) (by decide) (fun _ _ => rfl)
      (fun _ _ => rfl) (scan_blank blank)⟩
  | object entries =>
    obtain ⟨body, loose, inside⟩ := scan_entries entries false (Stops.mark (b := 125) rfl rest)
    exact ⟨_, .object loose rfl, scan_enclosed (by decide) (by decide) (fun _ _ => rfl)
      (fun _ _ => rfl) inside⟩
termination_by 2 * cs.length
decreasing_by all_goals simp only [List.length_append, List.length_cons]; omega

theorem scan_elements {cs : List Char} {items : List Json} (elements : Elements cs items)
    (separated : Bool) {rest : Bytes} (stops : Stops rest) : ∃ body, LooseItems body items ∧
      scan separated (encodeChars cs ++ rest) = Lexemes.after body (scan false rest) := by
  cases elements with
  | last front value back =>
    obtain ⟨used, loose, lexed⟩ := scan_value value separated (Stops.blank back stops)
    refine ⟨used ++ [], .cons loose .nil, ?_⟩
    simp only [encodeChars_append, List.append_assoc, List.append_nil]
    rw [scan_blank front, lexed, scan_blank back]
  | @more before cs after ds v items front value back others =>
    have comma : Stops (44 :: (encodeChars ds ++ rest)) := Stops.mark rfl _
    obtain ⟨used, loose, lexed⟩ := scan_value value separated (Stops.blank back comma)
    obtain ⟨body, inside, lexed'⟩ := scan_elements others true stops
    refine ⟨used ++ body, .cons loose inside, ?_⟩
    simp only [encodeChars_append, encodeChars_comma, List.append_assoc, List.cons_append]
    rw [scan_blank front, lexed, scan_blank back, scan_comma, lexed', Lexemes.after_append]
termination_by 2 * cs.length + 1
decreasing_by all_goals simp only [List.length_append, List.length_cons]; omega

theorem scan_entries {cs : List Char} {members : List (String × Json)}
    (entries : Entries cs members) (separated : Bool) {rest : Bytes} (stops : Stops rest) : ∃ body, LooseMembers body members ∧
      scan separated (encodeChars cs ++ rest) = Lexemes.after body (scan false rest) := by
  cases entries with
  | last front named colon space value back =>
    obtain ⟨used, loose, lexed⟩ := scan_value value true (Stops.blank back stops)
    refine ⟨⟨separated, .string _⟩ :: (used ++ []), .cons loose .nil, ?_⟩
    simp only [encodeChars_append, encodeChars_colon, List.append_assoc, List.cons_append]
    rw [scan_key front named colon space, lexed, scan_blank back, ← Lexemes.after_append]
    simp
  | @more before name gap between cs after ds key v members front named colon space value back
      others =>
    have comma : Stops (44 :: (encodeChars ds ++ rest)) := Stops.mark rfl _
    obtain ⟨used, loose, lexed⟩ := scan_value value true (Stops.blank back comma)
    obtain ⟨body, inside, lexed'⟩ := scan_entries others true stops
    refine ⟨⟨separated, .string key⟩ :: (used ++ body), .cons loose inside, ?_⟩
    simp only [encodeChars_append, encodeChars_colon, encodeChars_comma, List.append_assoc,
      List.cons_append]
    rw [scan_key front named colon space, lexed, scan_blank back, scan_comma, lexed',
      ← Lexemes.after_append, ← Lexemes.after_append]
    simp
termination_by 2 * cs.length + 1
decreasing_by all_goals simp only [List.length_append, List.length_cons]; omega

end

end Lexer

/-- A well-formed text ends after the lexemes of a loose value. -/
theorem lexemes_wellFormed {cs : List Char} {v : Json} (text : Grammar.WellFormed cs v) :
    ∃ items, Loose items v ∧ lexemes (Utf8.encodeChars cs) = ⟨items, .ended false⟩ := by
  have visible : 0 ∉ Utf8.encodeChars cs := by
    intro member
    obtain ⟨c, there, zero⟩ := Utf8.mem_encodeChars_ascii member (by decide)
    obtain rfl : c = '\x00' := Char.toNat_inj.mp zero
    exact text.zero_free there
  rw [lexemes_eq_scan visible]
  obtain ⟨front, value, back⟩ := text
  have ends : Lexer.Stops [] := by simp [Lexer.Stops]
  obtain ⟨items, loose, lexed⟩ := Lexer.scan_value value false (Lexer.Stops.blank back ends)
  rw [Lexer.scan_blank back, List.append_nil] at lexed
  refine ⟨items, loose, ?_⟩
  rw [Utf8.encodeChars_append, Lexer.scan_blank front, Utf8.encodeChars_append, lexed]
  simp [Lexemes.after, Lexer.scan, Lexer.next]

/-- Both readers give the tree that the grammar denotes, for every well-formed text. -/
theorem readers_faithful {cs : List Char} {v : Json} (text : Grammar.WellFormed cs v) :
    load (Utf8.encodeChars cs) = .ok v ∧ parse (Utf8.encodeChars cs) = .ok v := by
  obtain ⟨items, loose, source⟩ := lexemes_wellFormed text
  have loaded : load (Utf8.encodeChars cs) = .ok v := load_ok_iff.mpr ⟨items, false, source, loose⟩
  exact ⟨loaded, (parse_eq_load _).trans loaded⟩

def repeated : String :=
  "\x7b\"a\":[1, -2.5e+3],\"b\" : null,\"a\":\"\\ud83d\\uDE00\"\x7d\n"

/-- The second value of a key goes to the place of the first. -/
theorem repeated_key_read :
    Grammar.WellFormed repeated.toList (.obj [("a", .str "😀"), ("b", .null)]) ∧
      load (Utf8.encodeChars repeated.toList) = .ok (.obj [("a", .str "😀"), ("b", .null)]) ∧
      parse (Utf8.encodeChars repeated.toList) = .ok (.obj [("a", .str "😀"), ("b", .null)]) := by
  open Grammar in
  have letter : ∀ c : Char, ' ' ≤ c → c ≠ '"' → c ≠ '\\' →
      Quoted ['"', c, '"'] (String.ofList [c]) := fun c visible quote slash =>
    .quotes (.cons (.plain visible quote slash) .nil)
  have items : Elements "1, -2.5e+3".toList [.num "1", .num "-2.5e+3"] := by
    have one : Number ['1'] := @Number.spelled [] ['1'] [] [] (.inl rfl) (by decide) .none .none
    have scaled : Number "-2.5e+3".toList :=
      @Number.spelled ['-'] ['2'] ['.', '5'] ['e', '+', '3'] (.inr rfl) (by decide)
        (.point (by decide))
        (@Exponent.mark 'e' ['+'] ['3'] (.inl rfl) (.inr (.inl rfl)) (by decide))
    exact @Elements.more [] ['1'] [] " -2.5e+3".toList _ _ (by decide) (.number one) (by decide)
      (@Elements.last [' '] "-2.5e+3".toList [] _ (by decide) (.number scaled) (by decide))
  have face : Quoted "\"\\ud83d\\uDE00\"".toList "😀" := by
    have high : CodeUnit "d83d".toList 0xd83d :=
      @CodeUnit.digits _ _ _ _ 13 8 3 13 (by decide) (by decide) (by decide) (by decide)
    have low : CodeUnit "DE00".toList 0xde00 :=
      @CodeUnit.digits _ _ _ _ 13 14 0 0 (by decide) (by decide) (by decide) (by decide)
    have pair := Character.pair high low (by decide) (by decide)
    have value : Char.ofNat (0x10000 + (0xd83d - 0xd800) * 0x400 + (0xde00 - 0xdc00)) = '😀' := by
      decide
    rw [value] at pair
    exact .quotes (.cons pair .nil)
  have entries : Entries "\"a\":[1, -2.5e+3],\"b\" : null,\"a\":\"\\ud83d\\uDE00\"".toList
      [("a", .arr [.num "1", .num "-2.5e+3"]), ("b", .null), ("a", .str "😀")] :=
    @Entries.more [] "\"a\"".toList [] [] "[1, -2.5e+3]".toList [] _ _ _ _ (by decide)
      (letter 'a' (by decide) (by decide) (by decide)) (by decide) (by decide) (.array items)
      (by decide)
      (@Entries.more [] "\"b\"".toList [' '] [' '] "null".toList [] _ _ _ _ (by decide)
        (letter 'b' (by decide) (by decide) (by decide)) (by decide) (by decide) .null (by decide)
        (@Entries.last [] "\"a\"".toList [] [] "\"\\ud83d\\uDE00\"".toList [] _ _ (by decide)
          (letter 'a' (by decide) (by decide) (by decide)) (by decide) (by decide) (.string face)
          (by decide)))
  have text : WellFormed repeated.toList (.obj [("a", .str "😀"), ("b", .null)]) :=
    @WellFormed.text [] repeated.toList.dropLast ['\n'] _ (by decide) (.object entries) (by decide)
  exact ⟨text, readers_faithful text⟩

end SchemaForge.Json
