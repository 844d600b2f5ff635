import SchemaForge.Proofs.Digesting
import SchemaForge.Proofs.Lexing
import SchemaForge.Proofs.Spelling

/-!
Literals that can be digested. A literal that starts like a number is JSON exactly if it is a JSON
number with nothing but blanks behind it, and it can be digested if that number is below the limit
of doubles besides.
-/
namespace SchemaForge

namespace Literal

open Json.Grammar (Blank Digits Whole Fraction Exponent)

/-- The bytes of a text of characters below 128. -/
def bytes (cs : List Char) : Bytes := cs.map fun c => UInt8.ofNat c.toNat

@[simp] theorem bytes_cons (c : Char) (cs : List Char) :
    bytes (c :: cs) = UInt8.ofNat c.toNat :: bytes cs := rfl

@[simp] theorem bytes_append (as bs : List Char) : bytes (as ++ bs) = bytes as ++ bytes bs :=
  List.map_append

theorem isDigit_byte (b : UInt8) : isDigit b = (Char.ofNat b.toNat).isDigit := by
  have all : ∀ n < 256, isDigit (UInt8.ofNat n) = (Char.ofNat n).isDigit := by decide +kernel
  simpa using all b.toNat b.toNat_lt

theorem isBlank_byte (b : UInt8) : isBlank b = Json.Grammar.isSpace (Char.ofNat b.toNat) := by
  have all : ∀ n < 256, isBlank (UInt8.ofNat n) = Json.Grammar.isSpace (Char.ofNat n) := by
    decide +kernel
  simpa using all b.toNat b.toNat_lt

theorem digit_isDigit {c : Char} (digit : c.isDigit = true) :
    isDigit (UInt8.ofNat c.toNat) = true := by
  have all : "0123456789".toList.all (fun c => isDigit (UInt8.ofNat c.toNat)) = true := by decide
  exact List.all_eq_true.mp all c (Json.Grammar.isDigit_mem digit)

theorem space_isBlank {c : Char} (space : Json.Grammar.isSpace c = true) :
    isBlank (UInt8.ofNat c.toNat) = true := by
  simp only [Json.Grammar.isSpace, Bool.or_eq_true, decide_eq_true_eq] at space
  rcases space with ((rfl | rfl) | rfl) | rfl <;> rfl

/-- Bytes of one kind are the bytes of characters of that kind. -/
theorem exists_bytes {p : UInt8 → Bool} {q : Char → Bool}
    (kind : ∀ b, p b = q (Char.ofNat b.toNat)) {bs : Bytes} (all : ∀ b ∈ bs, p b = true) :
    ∃ cs, bs = bytes cs ∧ ∀ c ∈ cs, q c = true := by
  refine ⟨bs.map fun b => Char.ofNat b.toNat, ?_, ?_⟩
  · rw [bytes, List.map_map]
    refine (List.map_id bs).symm.trans (List.map_congr_left fun b _ => ?_)
    have small : ∀ n < 256, (Char.ofNat n).toNat = n := by decide +kernel
    simp [small b.toNat b.toNat_lt]
  · intro c member
    obtain ⟨b, there, rfl⟩ := List.mem_map.mp member
    rw [← kind]
    exact all b there

theorem finished_iff {bs : Bytes} : finished bs = none ↔ ∀ b ∈ bs, isBlank b = true := by
  induction bs with
  | nil => simp [finished]
  | cons b bs ih =>
    rw [finished, List.forall_mem_cons]
    by_cases blank : isBlank b = true
    · simp [blank, ih]
    · simp [blank]

theorem finished_blank {ws : List Char} (blank : Blank ws) : finished (bytes ws) = none := by
  refine finished_iff.mpr fun b member => ?_
  obtain ⟨c, there, rfl⟩ := List.mem_map.mp member
  exact space_isBlank (blank c there)

theorem blank_of_finished {bs : Bytes} (done : finished bs = none) :
    ∃ ws, bs = bytes ws ∧ Blank ws :=
  exists_bytes isBlank_byte (finished_iff.mp done)

/-- A digit and the digits that follow it. -/
theorem digits_of_run {b : UInt8} (rest : Bytes) (digit : isDigit b = true) :
    ∃ ds, b :: rest = bytes ds ++ rest.dropWhile isDigit ∧ Digits ds := by
  have run : ∀ x ∈ b :: rest.takeWhile isDigit, isDigit x = true :=
    List.forall_mem_cons.mpr ⟨digit, fun x member => List.mem_takeWhile_imp member⟩
  obtain ⟨ds, same, all⟩ := exists_bytes isDigit_byte run
  refine ⟨ds, ?_, ?_, all⟩
  · rw [← same, List.cons_append, List.takeWhile_append_dropWhile]
  · rintro rfl
    cases same

theorem run_of_digits {ds : List Char} (digits : Digits ds) {rest : Bytes}
    (stop : ∀ b ∈ rest.head?, isDigit b = false) :
    ∃ b more, bytes ds ++ rest = b :: more ∧ isDigit b = true ∧ more.dropWhile isDigit = rest := by
  obtain ⟨c, ds, rfl⟩ := List.exists_cons_of_ne_nil digits.1
  obtain ⟨first, others⟩ := List.forall_mem_cons.mp digits.2
  refine ⟨_, bytes ds ++ rest, rfl, digit_isDigit first, ?_⟩
  have all : ∀ b ∈ bytes ds, isDigit b = true := by
    intro b member
    obtain ⟨c, there, rfl⟩ := List.mem_map.mp member
    exact digit_isDigit (others c there)
  rw [List.dropWhile_append_of_pos all]
  cases rest with
  | nil => rfl
  | cons b rest => simp [stop b rfl]

theorem digits_of_exponentDigits {bs : Bytes} (done : exponentDigits bs = none) :
    ∃ ds ws, bs = bytes (ds ++ ws) ∧ Digits ds ∧ Blank ws := by
  cases bs with
  | nil => cases done
  | cons b rest =>
    rw [exponentDigits] at done
    split at done
    · next digit =>
      obtain ⟨ds, same, digits⟩ := digits_of_run rest digit
      obtain ⟨ws, others, blank⟩ := blank_of_finished done
      exact ⟨ds, ws, by rw [same, others, bytes_append], digits, blank⟩
    · cases done

theorem afterDigits_plain {b : UInt8} (plain : (b = 0x65 || b = 0x45) = false) (rest : Bytes) :
    afterDigits (b :: rest) = finished (b :: rest) := by
  rw [afterDigits.eq_def]
  simp only [plain, Bool.false_eq_true, if_false]

theorem afterDigits_mark {b : UInt8} (mark : (b = 0x65 || b = 0x45) = true) (s : UInt8)
    (rest : Bytes) :
    afterDigits (b :: s :: rest) =
      if s = 0x2b || s = 0x2d then exponentDigits rest else exponentDigits (s :: rest) := by
  rw [afterDigits.eq_def]
  simp only [mark, if_true]

/-- After the digits of a number an exponent may follow, and blanks. -/
theorem exponent_of_afterDigits {bs : Bytes} (done : afterDigits bs = none) :
    ∃ es ws, bs = bytes (es ++ ws) ∧ Exponent es ∧ Blank ws := by
  rcases bs with _ | ⟨b, rest⟩
  · exact ⟨[], [], rfl, .none, by simp [Blank]⟩
  cases mark : (b = 0x65 || b = 0x45 : Bool) with
  | false =>
    rw [afterDigits_plain mark] at done
    obtain ⟨ws, same, blank⟩ := blank_of_finished done
    exact ⟨[], ws, same, .none, blank⟩
  | true =>
    have letter : ∃ m, b = UInt8.ofNat m.toNat ∧ (m = 'e' ∨ m = 'E') := by
      simp only [Bool.or_eq_true, decide_eq_true_eq] at mark
      rcases mark with rfl | rfl
      · exact ⟨'e', rfl, .inl rfl⟩
      · exact ⟨'E', rfl, .inr rfl⟩
    obtain ⟨m, rfl, letter⟩ := letter
    rcases rest with _ | ⟨s, rest⟩
    · rw [afterDigits.eq_def] at done
      simp [mark] at done
    rw [afterDigits_mark mark] at done
    split at done
    · next signed =>
      have sign : ∃ c, s = UInt8.ofNat c.toNat ∧ (c = '+' ∨ c = '-') := by
        simp only [Bool.or_eq_true, decide_eq_true_eq] at signed
        rcases signed with rfl | rfl
        · exact ⟨'+', rfl, .inl rfl⟩
        · exact ⟨'-', rfl, .inr rfl⟩
      obtain ⟨c, rfl, sign⟩ := sign
      obtain ⟨ds, ws, rfl, digits, blank⟩ := digits_of_exponentDigits done
      refine ⟨m :: ([c] ++ ds), ws, rfl, .mark letter ?_ digits, blank⟩
      rcases sign with rfl | rfl
      · exact .inr (.inl rfl)
      · exact .inr (.inr rfl)
    · obtain ⟨ds, ws, same, digits, blank⟩ := digits_of_exponentDigits done
      exact ⟨m :: ([] ++ ds), ws, by rw [same]; rfl, .mark letter (.inl rfl) digits, blank⟩

theorem fraction_of_afterWhole {bs : Bytes} (done : afterWhole bs = none) :
    ∃ fs es ws, bs = bytes (fs ++ (es ++ ws)) ∧ Fraction fs ∧ Exponent es ∧ Blank ws := by
  unfold afterWhole at done
  split at done
  · cases done
  · next b rest =>
    split at done
    · next digit =>
      obtain ⟨ds, same, digits⟩ := digits_of_run rest digit
      obtain ⟨es, ws, others, exponent, blank⟩ := exponent_of_afterDigits done
      refine ⟨'.' :: ds, es, ws, ?_, .point digits, exponent, blank⟩
      rw [same, others]
      simp
    · cases done
  · obtain ⟨es, ws, same, exponent, blank⟩ := exponent_of_afterDigits done
    exact ⟨[], es, ws, same, .none, exponent, blank⟩

theorem number_of_none {bs : Bytes} (done : number bs = none) :
    ∃ whole fs es ws, bs = bytes (whole ++ (fs ++ (es ++ ws))) ∧ Whole whole ∧ Fraction fs ∧
      Exponent es ∧ Blank ws := by
  cases bs with
  | nil => cases done
  | cons b rest =>
    rw [number] at done
    split at done
    · next zero =>
      obtain ⟨fs, es, ws, rfl, fraction, exponent, blank⟩ := fraction_of_afterWhole done
      exact ⟨['0'], fs, es, ws, by rw [zero]; rfl, by decide, fraction, exponent, blank⟩
    · next other =>
      split at done
      · next digit =>
        obtain ⟨ds, same, digits⟩ := digits_of_run rest digit
        obtain ⟨fs, es, ws, others, fraction, exponent, blank⟩ := fraction_of_afterWhole done
        refine ⟨ds, fs, es, ws, by rw [same, others]; simp, ⟨digits, fun zero => ?_⟩, fraction,
          exponent, blank⟩
        -- The first digit was not a zero.
        obtain ⟨c, ds, rfl⟩ := List.exists_cons_of_ne_nil digits.1
        obtain rfl := Option.some.inj zero
        exact absurd (List.cons.inj same).1 other
      · cases done

/-- What follows a number starts neither with a digit nor with a point. -/
theorem blank_stops {ws : List Char} (blank : Blank ws) {b : UInt8} (first : b ∈ (bytes ws).head?) :
    isDigit b = false ∧ b ≠ 0x2e ∧ (b = 0x65 || b = 0x45) = false := by
  cases ws with
  | nil => cases first
  | cons c ws =>
    obtain rfl := Option.some.inj first
    have space := blank c List.mem_cons_self
    simp only [Json.Grammar.isSpace, Bool.or_eq_true, decide_eq_true_eq] at space
    rcases space with ((rfl | rfl) | rfl) | rfl <;> decide

theorem exponent_stops {es ws : List Char} (exponent : Exponent es) (blank : Blank ws) {b : UInt8}
    (first : b ∈ (bytes (es ++ ws)).head?) : isDigit b = false ∧ b ≠ 0x2e := by
  cases exponent with
  | none => exact ⟨(blank_stops blank first).1, (blank_stops blank first).2.1⟩
  | mark letter =>
    obtain rfl := Option.some.inj first
    rcases letter with rfl | rfl <;> decide

theorem exponentDigits_accepts {ds ws : List Char} (digits : Digits ds) (blank : Blank ws) :
    exponentDigits (bytes ds ++ bytes ws) = none := by
  obtain ⟨b, more, same, digit, rest⟩ :=
    run_of_digits digits fun b first => (blank_stops blank first).1
  rw [same, exponentDigits, if_pos digit, rest]
  exact finished_blank blank

theorem afterDigits_accepts {es ws : List Char} (exponent : Exponent es) (blank : Blank ws) :
    afterDigits (bytes (es ++ ws)) = none := by
  cases exponent with
  | none =>
    have done := finished_blank blank
    rw [List.nil_append]
    cases same : bytes ws with
    | nil => rfl
    | cons b rest =>
      have plain := (@blank_stops ws blank b (by rw [same]; rfl)).2.2
      rw [same] at done
      rw [afterDigits_plain plain]
      exact done
  | @mark m sign ds letter signed digits =>
    have done := exponentDigits_accepts digits blank
    have mark : (UInt8.ofNat m.toNat = 0x65 || UInt8.ofNat m.toNat = 0x45) = true := by
      rcases letter with rfl | rfl <;> rfl
    rcases signed with rfl | rfl | rfl
    · obtain ⟨c, ds, rfl⟩ := List.exists_cons_of_ne_nil digits.1
      have unsigned : (UInt8.ofNat c.toNat = 0x2b || UInt8.ofNat c.toNat = 0x2d) = false := by
        have all : "0123456789".toList.all
            (fun c => !(UInt8.ofNat c.toNat = 0x2b || UInt8.ofNat c.toNat = 0x2d)) = true := by
          decide
        simpa using List.all_eq_true.mp all c
          (Json.Grammar.isDigit_mem (digits.2 c List.mem_cons_self))
      simp only [List.nil_append, List.cons_append, bytes_cons, bytes_append]
      rw [afterDigits_mark mark, unsigned]
      exact done
    all_goals
      simp only [List.cons_append, bytes_cons, bytes_append]
      rw [afterDigits_mark mark]
      exact done

theorem afterWhole_accepts {fs es ws : List Char} (fraction : Fraction fs) (exponent : Exponent es)
    (blank : Blank ws) : afterWhole (bytes (fs ++ (es ++ ws))) = none := by
  have done := afterDigits_accepts exponent blank
  cases fraction with
  | none =>
    rw [List.nil_append]
    have pointless := exponent_stops exponent blank (b := 0x2e)
    unfold afterWhole
    split
    · next same => exact absurd rfl (pointless (by rw [same]; rfl)).2
    · next same => exact absurd rfl (pointless (by rw [same]; rfl)).2
    · exact done
  | point digits =>
    obtain ⟨b, more, same, digit, rest⟩ :=
      run_of_digits digits fun b first => (exponent_stops exponent blank first).1
    rw [List.cons_append, bytes_cons, bytes_append, same]
    show afterWhole (0x2e :: b :: more) = none
    rw [afterWhole, if_pos digit, rest]
    exact done

theorem fraction_stops {fs es ws : List Char} (fraction : Fraction fs) (exponent : Exponent es)
    (blank : Blank ws) {b : UInt8} (first : b ∈ (bytes (fs ++ (es ++ ws))).head?) :
    isDigit b = false := by
  cases fraction with
  | none => exact (exponent_stops exponent blank first).1
  | point =>
    obtain rfl := Option.some.inj first
    decide

theorem number_accepts {whole fs es ws : List Char} (digits : Whole whole) (fraction : Fraction fs)
    (exponent : Exponent es) (blank : Blank ws) :
    number (bytes (whole ++ (fs ++ (es ++ ws)))) = none := by
  have done := afterWhole_accepts fraction exponent blank
  obtain ⟨digits, zero⟩ := digits
  obtain ⟨c, ds, rfl⟩ := List.exists_cons_of_ne_nil digits.1
  by_cases first : c = '0'
  · subst first
    rw [zero rfl]
    exact done
  · obtain ⟨b, more, same, digit, rest⟩ :=
      run_of_digits digits fun b first => fraction_stops fraction exponent blank first
    rw [bytes_append, same, number, if_neg, if_pos digit, rest]
    · exact done
    · intro byte
      have all : "0123456789".toList.all
          (fun c => c = '0' || UInt8.ofNat c.toNat ≠ 0x30) = true := by decide
      have other := List.all_eq_true.mp all c
        (Json.Grammar.isDigit_mem (digits.2 c List.mem_cons_self))
      simp only [first, decide_false, Bool.false_or, decide_eq_true_eq] at other
      exact other ((List.cons.inj same).1.trans byte)

theorem number_none_iff {bs : Bytes} : number bs = none ↔
    ∃ whole fs es ws, bs = bytes (whole ++ (fs ++ (es ++ ws))) ∧ Whole whole ∧ Fraction fs ∧
      Exponent es ∧ Blank ws := by
  refine ⟨number_of_none, ?_⟩
  rintro ⟨whole, fs, es, ws, rfl, digits, fraction, exponent, blank⟩
  exact number_accepts digits fraction exponent blank

theorem fault_digit {b : UInt8} (digit : isDigit b = true) (rest : Bytes) :
    fault? (b :: rest) = number (b :: rest) := by
  have visible : ∀ n < 256, isDigit (UInt8.ofNat n) = true → isBlank (UInt8.ofNat n) = false ∧
      UInt8.ofNat n ≠ 0x2d := by decide +kernel
  obtain ⟨shown, unsigned⟩ := visible b.toNat b.toNat_lt (by simpa using digit)
  rw [UInt8.ofNat_toNat] at shown unsigned
  rw [fault?, shown, if_neg Bool.false_ne_true, if_neg unsigned, if_pos digit]

/-- A text that starts with a digit or a minus has no fault exactly if it is a number with blanks
    behind it. -/
theorem fault_none_iff {b : UInt8} {rest : Bytes} (starts : b = 0x2d ∨ isDigit b = true) :
    fault? (b :: rest) = none ↔
      ∃ cs ws, b :: rest = bytes (cs ++ ws) ∧ Json.Grammar.Number cs ∧ Blank ws := by
  constructor
  · intro done
    rcases starts with rfl | digit
    · obtain ⟨whole, fs, es, ws, rfl, digits, fraction, exponent, blank⟩ := number_none_iff.mp done
      exact ⟨['-'] ++ (whole ++ (fs ++ es)), ws, by simp,
        .spelled (.inr rfl) digits fraction exponent, blank⟩
    · rw [fault_digit digit] at done
      obtain ⟨whole, fs, es, ws, same, digits, fraction, exponent, blank⟩ := number_none_iff.mp done
      exact ⟨[] ++ (whole ++ (fs ++ es)), ws, by rw [same]; simp,
        .spelled (.inl rfl) digits fraction exponent, blank⟩
  · rintro ⟨cs, ws, same, ⟨signed, digits, fraction, exponent⟩, blank⟩
    have accepted := number_accepts digits fraction exponent blank
    rcases signed with rfl | rfl
    · rw [List.nil_append, List.append_assoc, List.append_assoc] at same
      obtain ⟨c, ds, rfl⟩ := List.exists_cons_of_ne_nil digits.1.1
      have first : b = UInt8.ofNat c.toNat := (List.cons.inj same).1
      have digit := digit_isDigit (digits.1.2 c List.mem_cons_self)
      rw [← first] at digit
      rwa [← same, ← fault_digit digit] at accepted
    · rw [List.append_assoc, List.append_assoc, List.append_assoc] at same
      obtain ⟨rfl, rfl⟩ := List.cons.inj same
      exact accepted

theorem encode_eq (text : String) : Utf8.encode text = Utf8.encodeChars text.toList := by
  rw [Utf8.encodeChars, String.ofList_toList]

/-- The bytes of a number and blanks are those of no other text. -/
theorem encode_eq_bytes_iff {text : String} {cs ws : List Char} (number : Json.Grammar.Number cs)
    (blank : Blank ws) : Utf8.encode text = bytes (cs ++ ws) ↔ text.toList = cs ++ ws := by
  have low : ∀ c ∈ cs ++ ws, c.toNat < 0x80 := by
    have digits : "0123456789.eE+-".toList.all (fun c => c.toNat < 0x80) = true := by decide
    intro c member
    rcases List.mem_append.mp member with inside | behind
    · simpa using List.all_eq_true.mp digits c (number.chars.2 c inside)
    · have space := blank c behind
      simp only [Json.Grammar.isSpace, Bool.or_eq_true, decide_eq_true_eq] at space
      rcases space with ((rfl | rfl) | rfl) | rfl <;> decide
  rw [bytes, ← Utf8.encodeChars_low low, encode_eq]
  exact ⟨fun same => Utf8.encodeChars_injective same, fun same => congrArg Utf8.encodeChars same⟩

/-- Texts that start like a number, in JSON or not. -/
def StartsNumber (text : String) : Prop := ∃ c ∈ text.toList.head?, c ∈ "0123456789+-.".toList

instance (text : String) : Decidable (StartsNumber text) :=
  inferInstanceAs (Decidable (∃ c ∈ text.toList.head?, c ∈ "0123456789+-.".toList))

theorem fault_text_iff {text : String} (starts : StartsNumber text) :
    fault? (Utf8.encode text) = none ↔
      ∃ cs ws, text.toList = cs ++ ws ∧ Json.Grammar.Number cs ∧ Blank ws := by
  obtain ⟨c, first, member⟩ := starts
  obtain ⟨tail, spelled⟩ : ∃ tail, text.toList = c :: tail := List.head?_eq_some_iff.mp first
  have kinds : "0123456789+-.".toList.all (fun c => c.toNat < 0x80 && (c = '+' || c = '.' ||
      UInt8.ofNat c.toNat = 0x2d || isDigit (UInt8.ofNat c.toNat))) = true := by decide
  obtain ⟨low, kind⟩ : c.toNat < 0x80 ∧ ((c = '+' ∨ c = '.') ∨
      UInt8.ofNat c.toNat = 0x2d ∨ isDigit (UInt8.ofNat c.toNat) = true) := by
    simpa [or_assoc] using List.all_eq_true.mp kinds c member
  have source : Utf8.encode text = UInt8.ofNat c.toNat :: Utf8.encodeChars tail := by
    rw [encode_eq, spelled, Utf8.encodeChars_cons_ascii low]
  rcases kind with other | starts
  · refine iff_of_false ?_ ?_
    · rw [source]
      rcases other with rfl | rfl <;> nofun
    · rintro ⟨cs, ws, same, number, -⟩
      obtain ⟨⟨d, rest, rfl, start⟩, -⟩ := number.chars
      rw [spelled] at same
      obtain rfl : c = d := (List.cons.inj same).1
      rcases other with rfl | rfl <;> exact absurd start (by decide)
  · rw [source, fault_none_iff starts, ← source]
    constructor
    · rintro ⟨cs, ws, same, number, blank⟩
      exact ⟨cs, ws, (encode_eq_bytes_iff number blank).mp same, number, blank⟩
    · rintro ⟨cs, ws, same, number, blank⟩
      exact ⟨cs, ws, (encode_eq_bytes_iff number blank).mpr same, number, blank⟩

theorem startsNumber_of_number {text : String} {cs ws : List Char}
    (spelled : text.toList = cs ++ ws) (number : Json.Grammar.Number cs) : StartsNumber text := by
  obtain ⟨⟨c, rest, rfl, start⟩, -⟩ := number.chars
  have more : "0123456789-".toList ⊆ "0123456789+-.".toList := by decide
  exact ⟨c, by rw [spelled]; rfl, more start⟩

end Literal

namespace Encode

open Literal (StartsNumber)

/-- A JSON number with nothing but blanks behind it, below the limit of doubles. -/
def InRange (text : String) : Prop :=
  ∃ cs ws q, text.toList = cs ++ ws ∧ Json.Grammar.Number cs ∧ Json.Grammar.Blank ws ∧
    Number.Numeral cs q ∧ |q| < Number.Double.limit

theorem parse_wellFormed {text : String} {v : Json}
    (wellFormed : Json.Grammar.WellFormed text.toList v) :
    Json.parse (Utf8.encode text) = .ok v := by
  obtain ⟨items, loose, source⟩ := Json.lexemes_wellFormed wellFormed
  rw [Literal.encode_eq, Json.parse_eq_load]
  exact Json.load_ok_iff.mpr ⟨items, false, source, loose⟩

/-- A number with blanks behind it is read as the number. -/
theorem literal_number {text : String} {cs ws : List Char} (spelled : text.toList = cs ++ ws)
    (number : Json.Grammar.Number cs) (blank : Json.Grammar.Blank ws) :
    literal text = .ok (.num (String.ofList cs)) := by
  have starts := Literal.startsNumber_of_number spelled number
  have wellFormed : Json.Grammar.WellFormed text.toList (.num (String.ofList cs)) := by
    rw [spelled]
    exact @Json.Grammar.WellFormed.text [] cs ws _ (by simp [Json.Grammar.Blank]) (.number number)
      blank
  rw [literal, (Literal.fault_text_iff starts).mpr ⟨cs, ws, spelled, number, blank⟩,
    parse_wellFormed wellFormed]

theorem inRange_iff {cs : List Char} {q : ℚ} (number : Json.Grammar.Number cs)
    (numeral : Number.Numeral cs q) :
    outOfRange? (.num (String.ofList cs)) = none ↔ |q| < Number.Double.limit := by
  rw [← String.toList_ofList (l := cs)] at number numeral
  rw [← Literal.double_isSome_iff number numeral, outOfRange?]
  cases Literal.double? (String.ofList cs) <;> simp

/-- Whether a literal that starts like a number can be digested. -/
theorem digestible_iff_inRange {text : String} (starts : StartsNumber text) :
    Digestible text ↔ InRange text := by
  constructor
  · rintro ⟨v, read, small⟩
    have fine : Literal.fault? (Utf8.encode text) = none := by
      by_contra fault
      obtain ⟨fault, found⟩ := Option.ne_none_iff_exists'.mp fault
      rw [literal, found] at read
      cases read
    obtain ⟨cs, ws, spelled, number, blank⟩ := (Literal.fault_text_iff starts).mp fine
    rw [literal_number spelled number blank] at read
    obtain rfl := Except.ok.inj read
    rw [← String.toList_ofList (l := cs)] at number
    have numeral := Literal.parts_numeral number
    rw [String.toList_ofList] at number numeral
    exact ⟨cs, ws, _, spelled, number, blank, numeral, (inRange_iff number numeral).mp small⟩
  · rintro ⟨cs, ws, q, spelled, number, blank, numeral, small⟩
    exact ⟨_, literal_number spelled number blank, (inRange_iff number numeral).mpr small⟩

end Encode

end SchemaForge
