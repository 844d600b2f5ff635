import Mathlib.Algebra.Field.Rat
import Mathlib.Algebra.Order.Ring.Rat
import Mathlib.Data.List.TakeWhile
import Mathlib.Data.Nat.Digits.Defs
import Mathlib.Data.Rat.Cast.Order
import Mathlib.Tactic.IntervalCases
import Mathlib.Tactic.Ring
import SchemaForge.Json.Basic
import SchemaForge.Number.Decimal
import SchemaForge.Text.Quoted

/-!
Decimal notation and its values. The notation is described apart from the readers: digits with their
places, a sign, a point that may be set anywhere in a whole number, a power of ten. Readers give
exactly the value that a text denotes, and blanks around a text that denotes a number do not count.
-/
namespace SchemaForge

namespace Number

/-- Digits, of which the last one counts ones. -/
def Digits (cs : List Char) (n : Nat) : Prop :=
  ∃ ds : List Nat, ds ≠ [] ∧ (∀ d ∈ ds, d < 10) ∧ cs = ds.map Nat.digitChar ∧
    n = Nat.ofDigits 10 ds.reverse

inductive Whole : List Char → Int → Prop
  | plain {cs : List Char} {n : Nat} (digits : Digits cs n) : Whole cs n
  | plus {cs : List Char} {n : Nat} (digits : Digits cs n) : Whole ('+' :: cs) n
  | minus {cs : List Char} {n : Nat} (digits : Digits cs n) : Whole ('-' :: cs) (-n)

/-- Each character behind the point takes the number down by one power of ten. -/
inductive Fixed : List Char → ℚ → Prop
  | whole {cs : List Char} {z : Int} (spelled : Whole cs z) : Fixed cs z
  | point {as bs : List Char} {z : Int} (spelled : Whole (as ++ bs) z) :
      Fixed (as ++ '.' :: bs) (z / 10 ^ bs.length)

/-- A text in decimal notation and the number it denotes. -/
inductive Numeral : List Char → ℚ → Prop
  | fixed {cs : List Char} {q : ℚ} (spelled : Fixed cs q) : Numeral cs q
  | scaled {cs es : List Char} {mark : Char} {q : ℚ} {z : Int} (spelled : Fixed cs q)
      (marked : Decimal.isExponentMark mark = true) (exponent : Whole es z) :
      Numeral (cs ++ mark :: es) (q * 10 ^ z)

def Decimal.value (d : Decimal) : ℚ := d.coefficient * 10 ^ d.exponent

/-- A written number is read back from its digits. -/
theorem renderNat_injective {m n : Nat} (same : renderNat m = renderNat n) : m = n := by
  have digits : Nat.toDigits 10 m = Nat.toDigits 10 n := by
    simpa [renderNat] using congrArg String.toList same
  have values := congrArg (Nat.ofDigitChars 10 · 0) digits
  simpa [Nat.ofDigitChars_ten_toDigits] using values

theorem digit_iff {c : Char} {d : Nat} : digit? c = some d ↔ d < 10 ∧ c = Nat.digitChar d := by
  constructor
  · intro read
    unfold digit? at read
    split at read
    · rename_i inside
      simp only [Bool.and_eq_true, decide_eq_true_eq, Char.le_def, UInt32.le_iff_toNat_le] at inside
      change 48 ≤ c.toNat ∧ c.toNat ≤ 57 at inside
      obtain rfl : c.toNat - 48 = d := Option.some.inj read
      refine ⟨by omega, Char.toNat_inj.mp ?_⟩
      rw [Nat.toNat_digitChar_of_lt_ten (by omega)]
      omega
    · cases read
  · rintro ⟨small, rfl⟩
    interval_cases d <;> rfl

theorem natOnto_iff {acc n : Nat} {cs : List Char} :
    natOnto acc cs = some n ↔ ∃ ds : List Nat, (∀ d ∈ ds, d < 10) ∧ cs = ds.map Nat.digitChar ∧
      n = acc * 10 ^ ds.length + Nat.ofDigits 10 ds.reverse := by
  induction cs generalizing acc with
  | nil =>
    constructor
    · intro read
      exact ⟨[], by simp, rfl, by simpa [natOnto, eq_comm] using read⟩
    · rintro ⟨ds, -, same, rfl⟩
      obtain rfl : ds = [] := by simpa using same.symm
      simp [natOnto]
  | cons c cs ih =>
    have grown : ∀ (d : Nat) (ds : List Nat),
        (acc * 10 + d) * 10 ^ ds.length + Nat.ofDigits 10 ds.reverse =
          acc * 10 ^ (d :: ds).length + Nat.ofDigits 10 (d :: ds).reverse := by
      intro d ds
      rw [List.reverse_cons, Nat.ofDigits_append, List.length_reverse, Nat.ofDigits_singleton,
        List.length_cons]
      ring
    rw [natOnto]
    constructor
    · intro read
      split at read
      · rename_i d first
        obtain ⟨small, rfl⟩ := digit_iff.mp first
        obtain ⟨ds, others, rfl, rfl⟩ := ih.mp read
        exact ⟨d :: ds, List.forall_mem_cons.mpr ⟨small, others⟩, rfl, grown d ds⟩
      · cases read
    · rintro ⟨_ | ⟨d, ds⟩, small, same, rfl⟩
      · cases same
      · obtain ⟨rfl, rfl⟩ := List.cons.inj same
        obtain ⟨first, others⟩ := List.forall_mem_cons.mp small
        rw [digit_iff.mpr ⟨first, rfl⟩]
        exact ih.mpr ⟨ds, others, rfl, (grown d ds).symm⟩

theorem parseNat_iff {cs : List Char} {n : Nat} : parseNat cs = some n ↔ Digits cs n := by
  unfold parseNat Digits
  cases cs with
  | nil =>
    constructor
    · intro read
      cases read
    · rintro ⟨ds, some_, -, same, -⟩
      exact absurd (by simpa using same.symm) some_
  | cons c cs =>
    simp only [List.isEmpty_cons, Bool.false_eq_true, if_false]
    rw [natOnto_iff]
    constructor
    · rintro ⟨ds, small, same, value⟩
      refine ⟨ds, ?_, small, same, by simpa using value⟩
      rintro rfl
      cases same
    · rintro ⟨ds, -, small, same, value⟩
      exact ⟨ds, small, same, by simpa using value⟩

theorem parseInt_iff {cs : List Char} {z : Int} : parseInt cs = some z ↔ Whole cs z := by
  constructor
  · intro read
    unfold parseInt at read
    split at read
    all_goals
      obtain ⟨m, widened, rfl⟩ := Option.map_eq_some_iff.mp read
      obtain ⟨n, digits, same⟩ := Option.bind_eq_some_iff.mp widened
      obtain rfl : (n : Int) = m := Option.some.inj same
      have spelled := parseNat_iff.mp digits
    · exact .minus spelled
    · exact .plus spelled
    · exact .plain spelled
  · intro spelled
    cases spelled with
    | plus digits => rw [parseInt, parseNat_iff.mpr digits]; rfl
    | minus digits => rw [parseInt, parseNat_iff.mpr digits]; rfl
    | plain digits =>
      have unsigned : ∀ c ∈ cs, c ≠ '-' ∧ c ≠ '+' := by
        obtain ⟨ds, -, small, rfl, -⟩ := digits
        intro c member
        obtain ⟨d, there, rfl⟩ := List.mem_map.mp member
        have lt := small d there
        interval_cases d <;> decide
      unfold parseInt
      split
      · exact absurd rfl (unsigned '-' List.mem_cons_self).1
      · exact absurd rfl (unsigned '+' List.mem_cons_self).2
      · rw [parseNat_iff.mpr digits]
        rfl

/-- What numbers are written with. -/
theorem Whole.chars {cs : List Char} {z : Int} (spelled : Whole cs z) :
    cs ≠ [] ∧ ∀ c ∈ cs, c ∈ "0123456789+-".toList := by
  have digitChars : ∀ {cs : List Char} {n : Nat}, Digits cs n →
      cs ≠ [] ∧ ∀ c ∈ cs, c ∈ "0123456789+-".toList := by
    rintro cs n ⟨ds, some_, small, rfl, -⟩
    refine ⟨by simpa using some_, fun c member => ?_⟩
    obtain ⟨d, there, rfl⟩ := List.mem_map.mp member
    have lt := small d there
    interval_cases d <;> decide
  cases spelled with
  | plain digits => exact digitChars digits
  | plus digits =>
    exact ⟨List.cons_ne_nil _ _, List.forall_mem_cons.mpr ⟨by decide, (digitChars digits).2⟩⟩
  | minus digits =>
    exact ⟨List.cons_ne_nil _ _, List.forall_mem_cons.mpr ⟨by decide, (digitChars digits).2⟩⟩

theorem Whole.plain_char {cs : List Char} {z : Int} (spelled : Whole cs z) {c : Char}
    (member : c ∈ cs) : c ≠ '.' ∧ Decimal.isExponentMark c = false := by
  have all : "0123456789+-".toList.all (fun c => c ≠ '.' && !Decimal.isExponentMark c) = true := by
    decide
  simpa using List.all_eq_true.mp all c (spelled.chars.2 c member)

theorem Fixed.chars {cs : List Char} {q : ℚ} (spelled : Fixed cs q) :
    cs ≠ [] ∧ ∀ c ∈ cs, c ∈ "0123456789+-.".toList := by
  have more : "0123456789+-".toList ⊆ "0123456789+-.".toList := by decide
  cases spelled with
  | whole spelled => exact ⟨spelled.chars.1, fun c member => more (spelled.chars.2 c member)⟩
  | point spelled =>
    obtain ⟨-, chars⟩ := spelled.chars
    refine ⟨by simp, fun c member => ?_⟩
    rcases List.mem_append.mp member with before | after
    · exact more (chars c (List.mem_append_left _ before))
    · rcases List.mem_cons.mp after with rfl | after
      · decide
      · exact more (chars c (List.mem_append_right _ after))

theorem Fixed.unmarked {cs : List Char} {q : ℚ} (spelled : Fixed cs q) :
    ∀ c ∈ cs, Decimal.isExponentMark c = false := by
  have all : "0123456789+-.".toList.all (!Decimal.isExponentMark ·) = true := by decide
  intro c member
  simpa using List.all_eq_true.mp all c (spelled.chars.2 c member)

theorem Numeral.chars {cs : List Char} {q : ℚ} (numeral : Numeral cs q) :
    cs ≠ [] ∧ ∀ c ∈ cs, c ∈ "0123456789+-.eE".toList := by
  have less : "0123456789+-".toList ⊆ "0123456789+-.eE".toList := by decide
  have more : "0123456789+-.".toList ⊆ "0123456789+-.eE".toList := by decide
  cases numeral with
  | fixed spelled => exact ⟨spelled.chars.1, fun c member => more (spelled.chars.2 c member)⟩
  | @scaled cs es mark q z spelled marked exponent =>
    refine ⟨by simp, fun c member => ?_⟩
    rcases List.mem_append.mp member with before | after
    · exact more (spelled.chars.2 c before)
    · rcases List.mem_cons.mp after with rfl | after
      · have either : c = 'e' ∨ c = 'E' := by simpa [Decimal.isExponentMark] using marked
        rcases either with rfl | rfl <;> decide
      · exact less (exponent.chars.2 c after)

theorem Numeral.not_space {cs : List Char} {q : ℚ} (numeral : Numeral cs q) :
    ∀ c ∈ cs, Text.isSpace c = false := by
  have all : "0123456789+-.eE".toList.all (!Text.isSpace ·) = true := by decide
  intro c member
  simpa using List.all_eq_true.mp all c (numeral.chars.2 c member)

/-- A numeral is quoted as it stands. -/
theorem Numeral.quoted {text : String} {q : ℚ} (numeral : Numeral text.toList q) :
    Text.quoted text = "\"" ++ text ++ "\"" := by
  have all : "0123456789+-.eE".toList.all (fun c => Text.escapeChar '"' c = [c]) = true := by
    decide
  have unescaped : text.toList.flatMap (Text.escapeChar '"') = text.toList := by
    have each := numeral.chars.2
    generalize text.toList = cs at each
    induction cs with
    | nil => rfl
    | cons c cs ih =>
      have first : Text.escapeChar '"' c = [c] := by
        simpa using List.all_eq_true.mp all c (each c List.mem_cons_self)
      rw [List.flatMap_cons, first, ih fun x member => each x (List.mem_cons_of_mem c member),
        List.singleton_append]
  rw [Text.quoted, Text.quotedChars, unescaped]
  apply String.toList_injective
  simp

end Number

namespace Text

theorem splitChars_plain {sep : Char} {cs : List Char} (free : sep ∉ cs) :
    splitChars sep cs = [cs] := by
  induction cs with
  | nil => rfl
  | cons c cs ih =>
    obtain ⟨apart, free⟩ := not_or.mp (List.mem_cons.not.mp free)
    rw [splitChars, if_neg (Ne.symm apart), ih free]

theorem splitChars_append {sep : Char} {as bs : List Char} (free : sep ∉ as) :
    splitChars sep (as ++ sep :: bs) = as :: splitChars sep bs := by
  induction as with
  | nil => simp [splitChars]
  | cons a as ih =>
    obtain ⟨apart, free⟩ := not_or.mp (List.mem_cons.not.mp free)
    rw [List.cons_append, splitChars, if_neg (Ne.symm apart), ih free]

theorem splitChars_ne_nil (sep : Char) (cs : List Char) : splitChars sep cs ≠ [] := by
  cases cs with
  | nil => simp [splitChars]
  | cons c cs =>
    rw [splitChars]
    split
    · simp
    · split <;> simp

/-- The first piece is the whole text, or ends at the first separator. -/
theorem splitChars_cases {sep : Char} {cs piece : List Char} {rest : List (List Char)}
    (split : splitChars sep cs = piece :: rest) :
    sep ∉ piece ∧ ((rest = [] ∧ cs = piece) ∨
      ∃ more, cs = piece ++ sep :: more ∧ splitChars sep more = rest) := by
  induction cs generalizing piece with
  | nil =>
    obtain ⟨rfl, rfl⟩ := List.cons.inj split
    simp
  | cons c cs ih =>
    rw [splitChars] at split
    split at split
    · rename_i same
      obtain ⟨rfl, rfl⟩ := List.cons.inj split
      exact ⟨List.not_mem_nil, .inr ⟨cs, by rw [same]; rfl, rfl⟩⟩
    · rename_i apart
      split at split
      · rename_i none
        exact absurd none (splitChars_ne_nil sep cs)
      · rename_i first others pieces
        obtain ⟨rfl, rfl⟩ := List.cons.inj split
        obtain ⟨free, shape⟩ := ih pieces
        refine ⟨List.mem_cons.not.mpr (not_or.mpr ⟨Ne.symm apart, free⟩), ?_⟩
        rcases shape with ⟨rfl, rfl⟩ | ⟨more, rfl, rest⟩
        · exact .inl ⟨rfl, rfl⟩
        · exact .inr ⟨more, rfl, rest⟩

end Text

namespace Number
namespace Decimal

theorem splitPoint_iff {cs digits : List Char} {places : Nat} :
    splitPoint? cs = some (digits, places) ↔
      ('.' ∉ cs ∧ digits = cs ∧ places = 0) ∨
        ∃ as bs, '.' ∉ as ∧ '.' ∉ bs ∧ cs = as ++ '.' :: bs ∧ digits = as ++ bs ∧
          places = bs.length := by
  constructor
  · intro split
    unfold splitPoint? at split
    split at split
    · rename_i whole pieces
      obtain ⟨rfl, rfl⟩ := Prod.mk.inj (Option.some.inj split)
      rcases Text.splitChars_cases pieces with ⟨free, ⟨-, rfl⟩ | ⟨more, -, none⟩⟩
      · exact .inl ⟨free, rfl, rfl⟩
      · exact absurd none (Text.splitChars_ne_nil _ _)
    · rename_i whole part pieces
      obtain ⟨rfl, rfl⟩ := Prod.mk.inj (Option.some.inj split)
      rcases Text.splitChars_cases pieces with ⟨free, ⟨none, -⟩ | ⟨more, rfl, second⟩⟩
      · cases none
      · rcases Text.splitChars_cases second with ⟨free', ⟨-, rfl⟩ | ⟨more, -, none⟩⟩
        · exact .inr ⟨whole, more, free, free', rfl, rfl, rfl⟩
        · exact absurd none (Text.splitChars_ne_nil _ _)
    · cases split
  · rintro (⟨free, rfl, rfl⟩ | ⟨as, bs, free, free', rfl, rfl, rfl⟩)
    · rw [splitPoint?, Text.splitChars_plain free]
    · rw [splitPoint?, Text.splitChars_append free, Text.splitChars_plain free']

theorem splitExponent_iff {cs body : List Char} {e : Int} :
    splitExponent? cs = some (body, e) ↔
      (∀ c ∈ body, isExponentMark c = false) ∧ ((cs = body ∧ e = 0) ∨
        ∃ mark es, isExponentMark mark = true ∧ cs = body ++ mark :: es ∧
          parseIntIn int32Min int32Max es = some e) := by
  constructor
  · intro split
    have whole := List.takeWhile_append_dropWhile (p := fun c => !isExponentMark c) (l := cs)
    have unmarked : ∀ c ∈ cs.takeWhile (fun c => !isExponentMark c), isExponentMark c = false := by
      intro c member
      simpa using List.mem_takeWhile_imp member
    unfold splitExponent? at split
    split at split
    · rename_i none
      obtain ⟨rfl, rfl⟩ := Prod.mk.inj (Option.some.inj split)
      rw [none, List.append_nil] at whole
      exact ⟨whole ▸ unmarked, .inl ⟨rfl, rfl⟩⟩
    · rename_i mark es rest
      obtain ⟨z, exponent, same⟩ := Option.map_eq_some_iff.mp split
      obtain ⟨rfl, rfl⟩ := Prod.mk.inj same
      have marked : isExponentMark mark = true := by
        have first := List.head?_dropWhile_not (fun c => !isExponentMark c) cs
        simpa [rest] using first
      exact ⟨unmarked, .inr ⟨mark, es, marked, by rw [← rest, whole], exponent⟩⟩
  · rintro ⟨unmarked, ⟨rfl, rfl⟩ | ⟨mark, es, marked, rfl, exponent⟩⟩
    · have none : cs.dropWhile (fun c => !isExponentMark c) = [] := by
        rw [List.dropWhile_eq_nil_iff]
        intro c member
        simp [unmarked c member]
      rw [splitExponent?, none]
    · have all : ∀ c ∈ body, (!isExponentMark c) = true := by
        intro c member
        simp [unmarked c member]
      rw [splitExponent?, List.dropWhile_append_of_pos all, List.takeWhile_append_of_pos all]
      simp [marked, exponent]

theorem parse_ok {s : String} {d : Decimal} (read : parse? s = some d) :
    ∃ body e digits places, splitExponent? s.toList = some (body, e) ∧
      splitPoint? body = some (digits, places) ∧ parseInt digits = some d.coefficient ∧
      d.exponent = e - places := by
  obtain ⟨⟨body, e⟩, mantissa, rest⟩ := Option.bind_eq_some_iff.mp read
  obtain ⟨⟨digits, places⟩, point, rest⟩ := Option.bind_eq_some_iff.mp rest
  obtain ⟨n, whole, rest⟩ := Option.bind_eq_some_iff.mp rest
  simp only [Option.ite_none_right_eq_some, Option.some.injEq] at rest
  obtain ⟨-, rfl⟩ := rest
  exact ⟨body, e, digits, places, mantissa, point, whole, rfl⟩

theorem parseIntIn_ok {lo hi z : Int} {cs : List Char} (read : parseIntIn lo hi cs = some z) :
    parseInt cs = some z :=
  (Option.filter_eq_some_iff.mp read).1

/-- What stands before the exponent is a fixed-point number. -/
theorem fixed_iff {body digits : List Char} {places : Nat} {n : Int} {q : ℚ}
    (point : splitPoint? body = some (digits, places)) (whole : parseInt digits = some n) :
    Fixed body q ↔ q = n / 10 ^ places := by
  have spelled := parseInt_iff.mp whole
  constructor
  · intro fixed
    cases fixed with
    | @whole _ z spelled' =>
      have free : '.' ∉ body := fun member => (spelled'.plain_char member).1 rfl
      rw [splitPoint_iff.mpr (.inl ⟨free, rfl, rfl⟩)] at point
      obtain ⟨rfl, rfl⟩ := Prod.mk.inj (Option.some.inj point)
      rw [parseInt_iff.mpr spelled', Option.some.injEq] at whole
      simp [whole]
    | @point as bs z spelled' =>
      have free : ∀ c ∈ as ++ bs, c ≠ '.' := fun c member => (spelled'.plain_char member).1
      have free' : '.' ∉ as ∧ '.' ∉ bs := by
        constructor
        · exact fun member => free '.' (List.mem_append_left _ member) rfl
        · exact fun member => free '.' (List.mem_append_right _ member) rfl
      rw [splitPoint_iff.mpr (.inr ⟨as, bs, free'.1, free'.2, rfl, rfl, rfl⟩)] at point
      obtain ⟨rfl, rfl⟩ := Prod.mk.inj (Option.some.inj point)
      rw [parseInt_iff.mpr spelled', Option.some.injEq] at whole
      rw [whole]
  · rintro rfl
    rcases splitPoint_iff.mp point with ⟨-, rfl, rfl⟩ | ⟨as, bs, -, -, rfl, rfl, rfl⟩
    · simpa using Fixed.whole spelled
    · exact Fixed.point spelled

/-- A decimal that is read has the value that its text denotes, and no other. -/
theorem value_iff {s : String} {d : Decimal} (read : parse? s = some d) (q : ℚ) :
    Numeral s.toList q ↔ q = d.value := by
  obtain ⟨body, e, digits, places, mantissa, point, whole, exponent⟩ := parse_ok read
  have fixed : ∀ q, Fixed body q ↔ q = d.coefficient / 10 ^ places := fun q => fixed_iff point whole
  have value : d.value = d.coefficient / 10 ^ places * 10 ^ e := by
    rw [Decimal.value, exponent, zpow_sub₀ (by norm_num), zpow_natCast]
    ring
  rw [value]
  constructor
  · intro numeral
    generalize s.toList = cs at numeral mantissa
    cases numeral with
    | fixed spelled =>
      -- Without a mark the whole text is the mantissa.
      rw [splitExponent_iff.mpr ⟨spelled.unmarked, .inl ⟨rfl, rfl⟩⟩] at mantissa
      obtain ⟨rfl, rfl⟩ := Prod.mk.inj (Option.some.inj mantissa)
      simpa using (fixed q).mp spelled
    | @scaled ms es mark q z spelled marked power =>
      have all : ∀ c ∈ ms, (!isExponentMark c) = true := by
        intro c member
        simp [spelled.unmarked c member]
      rw [splitExponent?, List.dropWhile_append_of_pos all, List.takeWhile_append_of_pos all]
        at mantissa
      obtain ⟨z', inRange, rfl, rfl⟩ : ∃ z', parseIntIn int32Min int32Max es = some z' ∧
          ms = body ∧ z' = e := by
        simpa [marked] using mantissa
      have same : z = z' := by
        have first := parseInt_iff.mpr power
        rw [parseIntIn_ok inRange, Option.some.injEq] at first
        exact first.symm
      rw [(fixed q).mp spelled, same]
  · rintro rfl
    obtain ⟨-, ⟨text, rfl⟩ | ⟨mark, es, marked, text, inRange⟩⟩ := splitExponent_iff.mp mantissa
    · rw [text, zpow_zero, mul_one]
      exact .fixed ((fixed _).mpr rfl)
    · rw [text]
      exact .scaled ((fixed _).mpr rfl) marked (parseInt_iff.mp (parseIntIn_ok inRange))

example : parse? "-1.50e2" = some ⟨-150, 0⟩ := by decide

end Decimal

/-- An integer that is read has the value that its text denotes, and no other. -/
theorem integer_value_iff {cs : List Char} {n : Int} (read : parseInt cs = some n) (q : ℚ) :
    Numeral cs q ↔ q = n := by
  have spelled := parseInt_iff.mp read
  constructor
  · intro numeral
    cases numeral with
    | fixed fixed =>
      cases fixed with
      | whole other =>
        rw [parseInt_iff.mpr other, Option.some.injEq] at read
        rw [read]
      | point =>
        have stray := spelled.plain_char (c := '.') (by simp)
        exact absurd rfl stray.1
    | @scaled cs es mark q z _ marked _ =>
      have unmarked := (spelled.plain_char (c := mark) (by simp)).2
      rw [marked] at unmarked
      cases unmarked
  · rintro rfl
    exact .fixed (.whole spelled)

end Number

namespace Text

/-- Blanks around a text without blanks at its ends are dropped. -/
theorem trimEndsBy_of_free {p : Char → Bool} {front cs back : List Char} (some_ : cs ≠ [])
    (free : ∀ c ∈ cs, p c = false) (before : ∀ c ∈ front, p c = true)
    (after : ∀ c ∈ back, p c = true) : trimEndsBy p (front ++ cs ++ back) = cs := by
  have keeps : ∀ xs ys : List Char, xs ≠ [] → (∀ c ∈ xs, p c = false) →
      (xs ++ ys).dropWhile p = xs ++ ys := by
    intro xs ys some_ free
    cases xs with
    | nil => exact absurd rfl some_
    | cons x xs => simp [free x List.mem_cons_self]
  rw [trimEndsBy, List.append_assoc, List.dropWhile_append_of_pos before, keeps cs back some_ free,
    List.reverse_append, List.dropWhile_append_of_pos (by simpa using after)]
  have last := keeps cs.reverse [] (by simpa using some_) (by simpa using free)
  rw [List.append_nil] at last
  rw [last, List.reverse_reverse]

theorem trimEndsBy_split (p : Char → Bool) (cs : List Char) :
    ∃ front back, cs = front ++ trimEndsBy p cs ++ back ∧ (∀ c ∈ front, p c = true) ∧
      ∀ c ∈ back, p c = true := by
  refine ⟨cs.takeWhile p, ((cs.dropWhile p).reverse.takeWhile p).reverse, ?_, ?_, ?_⟩
  · rw [trimEndsBy, List.append_assoc, ← List.reverse_append, List.takeWhile_append_dropWhile,
      List.reverse_reverse, List.takeWhile_append_dropWhile]
  · exact fun c member => List.mem_takeWhile_imp member
  · exact fun c member => List.mem_takeWhile_imp (List.mem_reverse.mp member)

end Text

/-- A value of a document and the number it stands for: a number literal, or a text with blanks
    around a numeral. -/
inductive Spells : Json → ℚ → Prop
  | literal {text : String} {q : ℚ} (numeral : Number.Numeral text.toList q) : Spells (.num text) q
  | quoted {text : String} {front cs back : List Char} {q : ℚ}
      (spelled : text.toList = front ++ cs ++ back)
      (before : ∀ c ∈ front, Text.isSpace c = true) (after : ∀ c ∈ back, Text.isSpace c = true)
      (numeral : Number.Numeral cs q) : Spells (.str text) q

theorem spells_num {text : String} {q : ℚ} :
    Spells (.num text) q ↔ Number.Numeral text.toList q := by
  constructor
  · rintro ⟨numeral⟩
    exact numeral
  · exact .literal

theorem spells_str {text : String} {q : ℚ} :
    Spells (.str text) q ↔ Number.Numeral (Text.trimSpace text).toList q := by
  rw [Text.trimSpace, String.toList_ofList]
  constructor
  · intro spells
    cases spells with
    | quoted spelled before after numeral =>
      rw [spelled, Text.trimEndsBy_of_free numeral.chars.1 numeral.not_space before after]
      exact numeral
  · intro numeral
    obtain ⟨front, back, spelled, before, after⟩ := Text.trimEndsBy_split Text.isSpace text.toList
    exact .quoted spelled before after numeral

end SchemaForge
