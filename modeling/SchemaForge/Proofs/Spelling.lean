import SchemaForge.Digest.Canonical
import SchemaForge.Proofs.Grammar
import SchemaForge.Proofs.Shortest

/-!
Numbers in canonical text. The text of a double is a JSON number whose value the double covers, so
it tells which double it was written for; and the double of a literal covers the number that the
literal denotes. Literals with the same canonical text are therefore rounded to the same double.
-/
namespace SchemaForge

namespace Number

theorem Fixed.read {cs : List Char} {q : ℚ} (fixed : Fixed cs q) :
    ∃ digits places n, Decimal.splitPoint? cs = some (digits, places) ∧
      parseInt digits = some n := by
  cases fixed with
  | whole spelled =>
    have free : '.' ∉ cs := fun member => (spelled.plain_char member).1 rfl
    exact ⟨_, _, _, Decimal.splitPoint_iff.mpr (.inl ⟨free, rfl, rfl⟩), parseInt_iff.mpr spelled⟩
  | @point as bs z spelled =>
    have free : ∀ c ∈ as ++ bs, c ≠ '.' := fun c member => (spelled.plain_char member).1
    refine ⟨_, _, _, Decimal.splitPoint_iff.mpr (.inr ⟨as, bs, ?_, ?_, rfl, rfl, rfl⟩),
      parseInt_iff.mpr spelled⟩
    · exact fun member => free '.' (List.mem_append_left _ member) rfl
    · exact fun member => free '.' (List.mem_append_right _ member) rfl

theorem Fixed.unique {cs : List Char} {q r : ℚ} (fixed : Fixed cs q) (fixed' : Fixed cs r) :
    q = r := by
  obtain ⟨digits, places, n, point, whole⟩ := fixed.read
  rw [(Decimal.fixed_iff point whole).mp fixed, (Decimal.fixed_iff point whole).mp fixed']

/-- The parts before and behind the first exponent mark. -/
theorem split_at_mark {as bs as' bs' : List Char} {m m' : Char}
    (free : ∀ c ∈ as, Decimal.isExponentMark c = false)
    (free' : ∀ c ∈ as', Decimal.isExponentMark c = false)
    (marked : Decimal.isExponentMark m = true) (marked' : Decimal.isExponentMark m' = true)
    (same : as ++ m :: bs = as' ++ m' :: bs') : as = as' ∧ bs = bs' := by
  induction as generalizing as' with
  | nil =>
    cases as' with
    | nil => exact ⟨rfl, (List.cons.inj same).2⟩
    | cons a as' =>
      obtain ⟨rfl, -⟩ := List.cons.inj same
      rw [free' m List.mem_cons_self] at marked
      cases marked
  | cons a as ih =>
    cases as' with
    | nil =>
      obtain ⟨rfl, -⟩ := List.cons.inj same
      rw [free a List.mem_cons_self] at marked'
      cases marked'
    | cons a' as' =>
      obtain ⟨rfl, rest⟩ := List.cons.inj same
      obtain ⟨rfl, rfl⟩ := ih (fun c member => free c (List.mem_cons_of_mem _ member))
        (fun c member => free' c (List.mem_cons_of_mem _ member)) rest
      exact ⟨rfl, rfl⟩

/-- A text denotes at most one number. -/
theorem Numeral.unique {cs : List Char} {q r : ℚ} (numeral : Numeral cs q)
    (numeral' : Numeral cs r) :
    q = r := by
  have never : ∀ {as es : List Char} {mark : Char} {q : ℚ}, Decimal.isExponentMark mark = true →
      ¬ Fixed (as ++ mark :: es) q := by
    intro as es mark q marked fixed
    rw [fixed.unmarked mark (by simp)] at marked
    cases marked
  cases numeral with
  | fixed spelled =>
    cases numeral' with
    | fixed spelled' => exact spelled.unique spelled'
    | scaled _ marked' _ => exact absurd spelled (never marked')
  | @scaled as es mark q z spelled marked exponent =>
    generalize whole : as ++ mark :: es = cs at numeral'
    cases numeral' with
    | fixed spelled' => exact absurd (whole ▸ spelled') (never marked)
    | @scaled as' es' mark' q' z' spelled' marked' exponent' =>
      obtain ⟨rfl, rfl⟩ := split_at_mark spelled.unmarked spelled'.unmarked marked marked' whole
      have same : z = z' := by
        have read := parseInt_iff.mpr exponent
        rw [parseInt_iff.mpr exponent', Option.some.injEq] at read
        exact read.symm
      rw [spelled.unique spelled', same]

theorem digitChar_isDigit {d : Nat} (small : d < 10) : (Nat.digitChar d).isDigit = true := by
  interval_cases d <;> decide

theorem Digits.grammar {cs : List Char} {n : Nat} (digits : Digits cs n) :
    Json.Grammar.Digits cs := by
  obtain ⟨ds, nonempty, small, rfl, -⟩ := digits
  refine ⟨by simpa using nonempty, fun c member => ?_⟩
  obtain ⟨d, there, rfl⟩ := List.mem_map.mp member
  exact digitChar_isDigit (small d there)

theorem digits_of_grammar {cs : List Char} (digits : Json.Grammar.Digits cs) :
    ∃ n, Digits cs n := by
  obtain ⟨nonempty, all⟩ := digits
  have each : ∀ c ∈ cs, ∃ d < 10, c = Nat.digitChar d := by
    intro c member
    have known : "0123456789".toList.all (fun c => (digit? c).isSome) = true := by decide
    obtain ⟨d, read⟩ := Option.isSome_iff_exists.mp
      (List.all_eq_true.mp known c (Json.Grammar.isDigit_mem (all c member)))
    obtain ⟨small, rfl⟩ := digit_iff.mp read
    exact ⟨d, small, rfl⟩
  obtain ⟨ds, small, rfl⟩ : ∃ ds : List Nat, (∀ d ∈ ds, d < 10) ∧ cs = ds.map Nat.digitChar := by
    clear all nonempty
    induction cs with
    | nil => exact ⟨[], by simp, rfl⟩
    | cons c cs ih =>
      obtain ⟨d, small, rfl⟩ := each c List.mem_cons_self
      obtain ⟨ds, rest, rfl⟩ := ih fun c member => each c (List.mem_cons_of_mem _ member)
      exact ⟨d :: ds, List.forall_mem_cons.mpr ⟨small, rest⟩, rfl⟩
  exact ⟨_, ds, by simpa using nonempty, small, rfl, rfl⟩

theorem digits_toDigits (n : Nat) : Digits (Nat.toDigits 10 n) n := by
  induction n using Nat.strong_induction_on with
  | _ n ih =>
    rw [Nat.toDigits_eq_if (by norm_num)]
    split
    · next small => exact ⟨[n], by simp, by simpa using small, rfl, by simp⟩
    · next large =>
      obtain ⟨ds, nonempty, small, same, value⟩ := ih (n / 10) (by omega)
      refine ⟨ds ++ [n % 10], by simp, ?_, by simp [same], ?_⟩
      · simpa [or_imp, forall_and] using ⟨small, Nat.mod_lt n (by norm_num)⟩
      · rw [List.reverse_append, List.reverse_singleton, List.singleton_append,
          Nat.ofDigits_cons, ← value]
        omega

theorem toDigits_head {n : Nat} (pos : 0 < n) : (Nat.toDigits 10 n).head? ≠ some '0' := by
  induction n using Nat.strong_induction_on with
  | _ n ih =>
    rw [Nat.toDigits_eq_if (by norm_num)]
    split
    · next small => interval_cases n <;> decide
    · next large =>
      rw [List.head?_append_of_ne_nil _ Nat.toDigits_ne_nil]
      exact ih (n / 10) (by omega) (by omega)

theorem Digits.zeros_append {cs : List Char} {n : Nat} (digits : Digits cs n) (k : Nat) :
    Digits (List.replicate k '0' ++ cs) n := by
  obtain ⟨ds, nonempty, small, rfl, rfl⟩ := digits
  refine ⟨List.replicate k 0 ++ ds, by simp [nonempty], ?_, by simp, ?_⟩
  · intro d member
    rcases List.mem_append.mp member with zero | later
    · rw [List.eq_of_mem_replicate zero]
      norm_num
    · exact small d later
  · simp [Nat.ofDigits_append]

theorem Digits.append_zeros {cs : List Char} {n : Nat} (digits : Digits cs n) (k : Nat) :
    Digits (cs ++ List.replicate k '0') (n * 10 ^ k) := by
  obtain ⟨ds, nonempty, small, rfl, rfl⟩ := digits
  refine ⟨ds ++ List.replicate k 0, by simp [nonempty], ?_, by simp, ?_⟩
  · intro d member
    rcases List.mem_append.mp member with earlier | zero
    · exact small d earlier
    · rw [List.eq_of_mem_replicate zero]
      norm_num
  · simp [Nat.ofDigits_append, mul_comm]

theorem Digits.of_append_zeros {cs : List Char} {n k : Nat} (nonempty : cs ≠ [])
    (digits : Digits (cs ++ List.replicate k '0') n) : ∃ m, Digits cs m ∧ n = m * 10 ^ k := by
  have front : Json.Grammar.Digits cs :=
    ⟨nonempty, fun c member => digits.grammar.2 c (List.mem_append_left _ member)⟩
  obtain ⟨m, shorter⟩ := digits_of_grammar front
  refine ⟨m, shorter, ?_⟩
  have read := parseNat_iff.mpr digits
  rw [parseNat_iff.mpr (shorter.append_zeros k), Option.some.injEq] at read
  exact read.symm

/-- The sign of a number that is not negated by a plus. -/
def sign (negative : Bool) : List Char := if negative then ['-'] else []

theorem Digits.whole {cs : List Char} {n : Nat} (digits : Digits cs n) (negative : Bool) :
    ∃ z : Int, Whole (sign negative ++ cs) z ∧ (z : ℚ) = Double.signed negative n := by
  cases negative with
  | false => exact ⟨n, .plain digits, by simp [Double.signed]⟩
  | true => exact ⟨-n, .minus digits, by simp [Double.signed]⟩

theorem signed_mul (negative : Bool) (x y : ℚ) :
    Double.signed negative (x * y) = Double.signed negative x * y := by
  cases negative <;> simp [Double.signed]

theorem signed_cancel {a b : Bool} {q : ℚ} (pos : 0 < q)
    (same : Double.signed a q = Double.signed b q) : a = b := by
  cases a <;> cases b <;> simp only [Double.signed, if_true, if_false, Bool.false_eq_true] at same ⊢
  all_goals linarith

end Number

namespace Canonical

open Number

theorem positional_fixed {ds : List Char} {n : Nat} (digits : Digits ds n) (negative : Bool)
    (place : Int) :
    Fixed (sign negative ++ positional ds place)
      (Double.signed negative (n * 10 ^ (place - ds.length))) := by
  rw [signed_mul]
  unfold positional
  split
  · next front =>
    obtain ⟨k, same⟩ := Int.eq_ofNat_of_zero_le (by omega : 0 ≤ -place)
    obtain rfl : place = -k := by omega
    obtain ⟨z, spelled, value⟩ := (digits.zeros_append (k + 1)).whole negative
    rw [← value, neg_neg, Int.toNat_natCast, ← neg_add', zpow_neg, ← div_eq_mul_inv, ← Nat.cast_add,
      zpow_natCast]
    have point : Fixed ((sign negative ++ ['0']) ++ '.' :: (List.replicate k '0' ++ ds))
        (z / 10 ^ (List.replicate k '0' ++ ds).length) :=
      .point (by simpa [List.replicate_succ] using spelled)
    rwa [List.append_assoc, List.length_append, List.length_replicate] at point
  · next inside =>
    obtain ⟨k, rfl⟩ := Int.eq_ofNat_of_zero_le (by omega : 0 ≤ place)
    simp only [Int.toNat_natCast]
    split
    · next short =>
      obtain ⟨z, spelled, value⟩ := (digits.append_zeros (k - ds.length)).whole negative
      have exponent : (k : Int) - ds.length = (k - ds.length : Nat) := by omega
      rw [exponent, zpow_natCast, ← signed_mul]
      push_cast at value
      rw [← value]
      exact .whole spelled
    · next long =>
      obtain ⟨z, spelled, value⟩ := digits.whole negative
      have exponent : (k : Int) - ds.length = -(ds.length - k : Nat) := by omega
      rw [← value, exponent, zpow_neg, zpow_natCast, ← div_eq_mul_inv, ← List.append_assoc,
        ← List.length_drop]
      exact .point (by rwa [List.append_assoc, List.take_append_drop])

theorem scientific_numeral {ds : List Char} {n : Nat} (digits : Digits ds n) (negative : Bool)
    (e : Int) :
    Numeral (sign negative ++ scientific ds e)
      (Double.signed negative (n * 10 ^ (e + 1 - ds.length))) := by
  obtain ⟨nonempty, -⟩ := digits.grammar
  obtain ⟨c, tail, rfl⟩ := List.exists_cons_of_ne_nil nonempty
  have fixed : Fixed (sign negative ++ ([c] ++ (if tail.isEmpty then [] else '.' :: tail)))
      (Double.signed negative n / 10 ^ tail.length) := by
    obtain ⟨z, spelled, value⟩ := digits.whole negative
    rw [← value]
    cases tail with
    | nil => simpa using Fixed.whole spelled
    | cons d tail =>
      rw [← List.append_assoc]
      exact .point (by simpa using spelled)
  have exponent : ∃ sign : Char, scientific (c :: tail) e =
      ([c] ++ (if tail.isEmpty then [] else '.' :: tail)) ++
        'e' :: sign :: Nat.toDigits 10 e.natAbs ∧
      Whole (sign :: Nat.toDigits 10 e.natAbs) e := by
    refine ⟨if e < 0 then '-' else '+', rfl, ?_⟩
    split
    · next negative =>
      have spelled := Whole.minus (digits_toDigits e.natAbs)
      rwa [show -(e.natAbs : Int) = e by omega] at spelled
    · next positive =>
      have spelled := Whole.plus (digits_toDigits e.natAbs)
      rwa [show (e.natAbs : Int) = e by omega] at spelled
  obtain ⟨mark, shape, spelled⟩ := exponent
  have value : Double.signed negative (n * 10 ^ (e + 1 - (c :: tail).length : Int)) =
      Double.signed negative n / 10 ^ tail.length * 10 ^ e := by
    have places : e + 1 - ((tail.length + 1 : Nat) : Int) = e - tail.length := by omega
    rw [signed_mul, List.length_cons, places, zpow_sub₀ (by norm_num), zpow_natCast]
    ring
  rw [shape, value, ← List.append_assoc]
  exact .scaled fixed rfl spelled

open Json.Grammar (Fraction Exponent)

theorem sign_cases (negative : Bool) : sign negative = [] ∨ sign negative = ['-'] := by
  cases negative
  · exact .inl rfl
  · exact .inr rfl

/-- A part of some digits at their front. -/
theorem whole_part {cs rest : List Char} (digits : Json.Grammar.Digits (cs ++ rest))
    (nonempty : cs ≠ [])
    (head : (cs ++ rest).head? ≠ some '0') : Json.Grammar.Whole cs := by
  refine ⟨⟨nonempty, fun c member => digits.2 c (List.mem_append_left _ member)⟩, fun zero => ?_⟩
  rw [List.head?_append_of_ne_nil _ nonempty] at head
  exact absurd zero head

theorem positional_number {ds : List Char} {n : Nat} (digits : Digits ds n)
    (head : ds.head? ≠ some '0') (negative : Bool) (place : Int) :
    Json.Grammar.Number (sign negative ++ positional ds place) := by
  have nonempty := digits.grammar.1
  unfold positional
  split
  · have zero : Json.Grammar.Whole ['0'] := by decide
    have fraction := Fraction.point (digits.zeros_append (-place).toNat).grammar
    simpa using Json.Grammar.Number.spelled (sign_cases negative) zero fraction .none
  · next inside =>
    simp only
    split
    · have whole : Json.Grammar.Whole (ds ++ List.replicate (place.toNat - ds.length) '0') := by
        refine @whole_part _ [] ?_ (by simp [nonempty]) ?_
        · simpa using (digits.append_zeros _).grammar
        · simpa [List.head?_append_of_ne_nil _ nonempty] using head
      simpa using Json.Grammar.Number.spelled (sign_cases negative) whole .none .none
    · next long =>
      have parts := List.take_append_drop place.toNat ds
      have whole : Json.Grammar.Whole (ds.take place.toNat) := by
        refine @whole_part _ (ds.drop place.toNat) ?_ ?_ ?_
        · simpa using digits.grammar
        · simp [nonempty]
          omega
        · simpa using head
      have fraction : Json.Grammar.Digits (ds.drop place.toNat) := by
        refine ⟨?_, fun c member => digits.grammar.2 c (List.mem_of_mem_drop member)⟩
        simpa using long
      simpa using Json.Grammar.Number.spelled (sign_cases negative) whole (.point fraction) .none

theorem scientific_number {ds : List Char} {n : Nat} (digits : Digits ds n)
    (head : ds.head? ≠ some '0') (negative : Bool) (e : Int) :
    Json.Grammar.Number (sign negative ++ scientific ds e) := by
  obtain ⟨c, tail, rfl⟩ := List.exists_cons_of_ne_nil digits.grammar.1
  have whole : Json.Grammar.Whole [c] := @whole_part _ tail digits.grammar (by simp) head
  have fraction : Fraction (if tail.isEmpty then [] else '.' :: tail) := by
    cases tail with
    | nil => exact .none
    | cons d tail =>
      exact .point ⟨by simp, fun x member => digits.grammar.2 x (List.mem_cons_of_mem _ member)⟩
  have exponent : Exponent ('e' :: ([if e < 0 then '-' else '+'] ++ Nat.toDigits 10 e.natAbs)) := by
    refine .mark (.inl rfl) ?_ (digits_toDigits e.natAbs).grammar
    split
    · exact .inr (.inr rfl)
    · exact .inr (.inl rfl)
  simpa [scientific] using Json.Grammar.Number.spelled (sign_cases negative) whole fraction exponent

theorem trimZeros_append (cs : List Char) : ∃ k, cs = trimZeros cs ++ List.replicate k '0' := by
  refine ⟨(cs.reverse.takeWhile (· = '0')).length, ?_⟩
  have zeros : cs.reverse.takeWhile (· = '0') =
      List.replicate (cs.reverse.takeWhile (· = '0')).length '0' :=
    List.eq_replicate_iff.mpr ⟨rfl, fun c member => by simpa using List.mem_takeWhile_imp member⟩
  have whole := congrArg List.reverse
    (List.takeWhile_append_dropWhile (p := (fun c => decide (c = '0'))) (l := cs.reverse))
  rw [List.reverse_append, List.reverse_reverse, zeros, List.reverse_replicate] at whole
  exact whole.symm

/-- Without their last zeros the digits of a number start as before. -/
theorem trimZeros_digits {c : Nat} (pos : 0 < c) :
    ∃ n k, Digits (trimZeros (Nat.toDigits 10 c)) n ∧ c = n * 10 ^ k ∧
      (Nat.toDigits 10 c).length = (trimZeros (Nat.toDigits 10 c)).length + k ∧
      (trimZeros (Nat.toDigits 10 c)).head? ≠ some '0' := by
  obtain ⟨k, whole⟩ := trimZeros_append (Nat.toDigits 10 c)
  have head := toDigits_head pos
  have digits := digits_toDigits c
  rw [whole] at head digits
  have nonempty : trimZeros (Nat.toDigits 10 c) ≠ [] := by
    intro none
    rw [none, List.nil_append] at head digits
    cases k with
    | zero => exact digits.grammar.1 rfl
    | succ k => exact head rfl
  obtain ⟨n, shorter, value⟩ := digits.of_append_zeros nonempty
  rw [List.head?_append_of_ne_nil _ nonempty] at head
  refine ⟨n, k, shorter, value, ?_, head⟩
  rw [← List.length_replicate (n := k) (a := '0'), ← List.length_append, ← whole]

theorem numberText_zero {d : Double} (none : d.mantissa = 0) (negative : Bool) :
    numberText negative d = "0" := by
  simp [numberText, Double.shortest, none]

/-- A decimal is written with the digits of its coefficient, the last zeros left out. -/
theorem numberText_eq {d : Double} {c : Nat} {g : Int} (found : d.shortest = (c, g)) (pos : 0 < c)
    (negative : Bool) :
    ∃ (n k : Nat) (first : Int) (ds : List Char), Digits ds n ∧ ds.head? ≠ some '0' ∧
      c = n * 10 ^ k ∧ first + 1 - ds.length = g + (k : Int) ∧
      ((numberText negative d).toList = sign negative ++ positional ds (first + 1) ∨
        (numberText negative d).toList = sign negative ++ scientific ds first) := by
  obtain ⟨n, k, digits, value, length, head⟩ := trimZeros_digits pos
  refine ⟨n, k, g + (Nat.toDigits 10 c).length - 1, _, digits, head, value, by omega, ?_⟩
  have signed : ∀ text : List Char,
      (if negative then '-' :: text else text) = sign negative ++ text := by
    intro text
    cases negative <;> rfl
  rw [numberText, found]
  simp only [if_neg pos.ne', String.toList_ofList, signed]
  split
  · exact .inl rfl
  · exact .inr rfl

theorem numberText_nonzero {d : Double} (shaped : d.Shaped) (nonzero : 0 < d.mantissa)
    (negative : Bool) :
    Json.Grammar.Number (numberText negative d).toList ∧
    ∃ q, 0 < q ∧ d.Covers q ∧
      Numeral (numberText negative d).toList (Double.signed negative q) := by
  have covers := Double.shortest_covers shaped nonzero
  rcases found : d.shortest with ⟨c, g⟩
  rw [found] at covers
  have positive := covers.pos nonzero
  have scale : (0 : ℚ) < 10 ^ g := zpow_pos (by norm_num) g
  have coefficient : 0 < c := by exact_mod_cast pos_of_mul_pos_left positive scale.le
  obtain ⟨n, k, first, ds, digits, head, rfl, places, text⟩ :=
    numberText_eq found coefficient negative
  have value : ((n * 10 ^ k : Nat) : ℚ) * 10 ^ g = n * 10 ^ (first + 1 - ds.length) := by
    rw [places, zpow_add₀ (by norm_num), zpow_natCast]
    push_cast
    ring
  refine ⟨?_, _, positive, covers, ?_⟩
  · rcases text with text | text
    · rw [text]
      exact positional_number digits head negative _
    · rw [text]
      exact scientific_number digits head negative _
  · rw [value]
    rcases text with text | text
    · rw [text]
      exact .fixed (positional_fixed digits negative _)
    · rw [text]
      exact scientific_numeral digits negative _

/-- The text of a double is a number that the double covers. -/
theorem numberText_spec {d : Double} (shaped : d.Shaped) (negative : Bool) :
    Json.Grammar.Number (numberText negative d).toList ∧
    ∃ q, 0 ≤ q ∧ d.Covers q ∧ (q = 0 ↔ d.mantissa = 0) ∧
      Numeral (numberText negative d).toList (Double.signed negative q) := by
  by_cases none : d.mantissa = 0
  · have zero : d.Covers 0 := by
      have covers := d.covers_value
      rwa [Double.value, none, Nat.cast_zero, zero_mul] at covers
    have unsigned : Double.signed negative 0 = ((0 : Int) : ℚ) := by
      cases negative <;> simp [Double.signed]
    rw [numberText_zero none]
    refine ⟨?_, 0, le_rfl, zero, by simp [none], ?_⟩
    · exact .spelled (.inl rfl) (by decide : Json.Grammar.Whole ['0']) .none .none
    · rw [unsigned]
      exact .fixed (.whole (.plain (digits_toDigits 0)))
  · obtain ⟨number, q, positive, covers, numeral⟩ :=
      numberText_nonzero shaped (Nat.pos_of_ne_zero none) negative
    exact ⟨number, q, positive.le, covers, iff_of_false positive.ne' none, numeral⟩

/-- Equal texts are written for equal doubles, and for equal signs except at zero. -/
theorem numberText_inj {d d' : Double} (shaped : d.Shaped) (shaped' : d'.Shaped)
    {negative negative' : Bool} (same : numberText negative d = numberText negative' d') :
    d = d' ∧ (negative = negative' ∨ d.mantissa = 0) := by
  obtain ⟨-, q, nonneg, covers, zero, numeral⟩ := numberText_spec shaped negative
  obtain ⟨-, r, nonneg', covers', zero', numeral'⟩ := numberText_spec shaped' negative'
  rw [← same] at numeral'
  have values := numeral.unique numeral'
  have sizes : q = r := by
    rw [← abs_of_nonneg nonneg, ← Double.abs_signed negative, values, Double.abs_signed,
      abs_of_nonneg nonneg']
  subst sizes
  refine ⟨covers.unique shaped shaped' covers', ?_⟩
  -- Zero is written without its sign; any other number shows it.
  by_contra apart
  obtain ⟨signs, nonzero⟩ := not_or.mp apart
  have positive : 0 < q := lt_of_le_of_ne nonneg fun none => nonzero (zero.mp none.symm)
  exact signs (signed_cancel positive values)

end Canonical

namespace Literal

open Number

/-- The number that the parts of a literal make. -/
def Parts.value (p : Parts) : ℚ := p.coefficient * 10 ^ p.exponent

theorem digit_plain {c : Char} (digit : c.isDigit = true) :
    c ≠ '-' ∧ c ≠ '.' ∧ Decimal.isExponentMark c = false := by
  have all : "0123456789".toList.all
      (fun c => c ≠ '-' && c ≠ '.' && !Decimal.isExponentMark c) = true := by decide
  simpa [and_assoc] using List.all_eq_true.mp all c (Json.Grammar.isDigit_mem digit)

theorem split_stops {p : Char → Bool} {as bs : List Char} (all : ∀ c ∈ as, p c = true)
    (stop : ∀ c ∈ bs.head?, p c = false) :
    (as ++ bs).takeWhile p = as ∧ (as ++ bs).dropWhile p = bs := by
  rw [List.takeWhile_append_of_pos all, List.dropWhile_append_of_pos all]
  cases bs with
  | nil => simp
  | cons b bs => simp [stop b rfl]

theorem plain_fraction {whole part : List Char} (digits : Json.Grammar.Digits whole)
    (fraction : Json.Grammar.Fraction part) :
    ∀ c ∈ whole ++ part, (!Decimal.isExponentMark c) = true := by
  intro c member
  rw [Bool.not_eq_true']
  rcases List.mem_append.mp member with front | back
  · exact (digit_plain (digits.2 c front)).2.2
  · cases fraction with
    | none => cases back
    | point others =>
      rcases List.mem_cons.mp back with rfl | later
      · rfl
      · exact (digit_plain (others.2 c later)).2.2

theorem marked_exponent {scale : List Char} (exponent : Json.Grammar.Exponent scale) :
    ∀ c ∈ scale.head?, (!Decimal.isExponentMark c) = false := by
  cases exponent with
  | none => simp
  | mark letter => rcases letter with rfl | rfl <;> simp [Decimal.isExponentMark]

theorem fixed_of_fraction {whole part : List Char} (digits : Json.Grammar.Digits whole)
    (fraction : Json.Grammar.Fraction part) (negative : Bool) :
    ∃ n, natOnto 0 (whole ++ part.drop 1) = some n ∧
      Fixed (sign negative ++ (whole ++ part))
        (Double.signed negative n / 10 ^ (part.drop 1).length) := by
  have together : Json.Grammar.Digits (whole ++ part.drop 1) := by
    refine ⟨by simp [digits.1], fun c member => ?_⟩
    rcases List.mem_append.mp member with front | back
    · exact digits.2 c front
    · cases fraction with
      | none => cases back
      | point others => exact others.2 c back
  obtain ⟨n, number⟩ := digits_of_grammar together
  have read := parseNat_iff.mpr number
  rw [parseNat, if_neg (by simp [digits.1])] at read
  obtain ⟨z, spelled, value⟩ := number.whole negative
  refine ⟨n, read, ?_⟩
  rw [← value]
  cases fraction with
  | none => simpa using Fixed.whole spelled
  | point =>
    rw [← List.append_assoc] at spelled ⊢
    exact .point spelled

theorem scaled_of_exponent {scale : List Char} (exponent : Json.Grammar.Exponent scale) :
    ∀ {cs : List Char} {q : ℚ}, Fixed cs q →
      Numeral (cs ++ scale) (q * 10 ^ (parseInt (scale.drop 1)).getD 0) := by
  intro cs q fixed
  cases exponent with
  | none => simpa [parseInt, parseNat] using Numeral.fixed fixed
  | @mark m sign es letter signed digits =>
    obtain ⟨n, number⟩ := digits_of_grammar digits
    have spelled : ∃ z, Whole (sign ++ es) z := by
      rcases signed with rfl | rfl | rfl
      · exact ⟨_, .plain number⟩
      · exact ⟨_, .plus number⟩
      · exact ⟨_, .minus number⟩
    obtain ⟨z, spelled⟩ := spelled
    rw [List.drop_one, List.tail_cons, parseInt_iff.mpr spelled]
    refine .scaled fixed ?_ spelled
    rcases letter with rfl | rfl <;> rfl

/-- A number that is JSON denotes what its parts make. -/
theorem parts_numeral {text : String} (number : Json.Grammar.Number text.toList) :
    Numeral text.toList (Double.signed (parts text).negative (parts text).value) := by
  unfold parts
  generalize text.toList = cs at number
  obtain ⟨signed, ⟨digits, -⟩, fraction, exponent⟩ := number
  rename_i mark whole part scale
  obtain ⟨negative, rfl⟩ : ∃ negative, mark = sign negative := by
    rcases signed with rfl | rfl
    · exact ⟨false, rfl⟩
    · exact ⟨true, rfl⟩
  have head : ((sign negative ++ (whole ++ (part ++ scale))).head? == some '-') = negative := by
    cases negative with
    | true => rfl
    | false =>
      obtain ⟨c, rest, rfl⟩ := List.exists_cons_of_ne_nil digits.1
      simpa [sign] using (digit_plain (digits.2 c List.mem_cons_self)).1
  have unsigned : (if negative then (sign negative ++ (whole ++ (part ++ scale))).drop 1
      else sign negative ++ (whole ++ (part ++ scale))) = whole ++ (part ++ scale) := by
    cases negative <;> rfl
  obtain ⟨body, rest⟩ := split_stops (plain_fraction digits fraction) (marked_exponent exponent)
  obtain ⟨front, back⟩ := @split_stops (· ≠ '.') whole part
    (fun c member => by simpa using (digit_plain (digits.2 c member)).2.1)
    (by cases fraction <;> simp)
  obtain ⟨n, read, fixed⟩ := fixed_of_fraction digits fraction negative
  have numeral := scaled_of_exponent exponent fixed
  rw [List.append_assoc] at body rest
  simp only [Decimal.isExponentMark] at body rest
  simp only [head, unsigned, body, rest, front, back, read, Parts.value]
  have value : Double.signed negative ((n : ℚ) *
      10 ^ ((parseInt (scale.drop 1)).getD 0 - ((part.drop 1).length : Int))) =
      Double.signed negative n / 10 ^ (part.drop 1).length *
        10 ^ (parseInt (scale.drop 1)).getD 0 := by
    rw [signed_mul, zpow_sub₀ (by norm_num), zpow_natCast]
    ring
  rw [Option.getD_some, value]
  simpa using numeral

theorem Parts.value_nonneg (p : Parts) : 0 ≤ p.value :=
  mul_nonneg (Nat.cast_nonneg _) (zpow_pos (by norm_num) _).le

theorem value_eq_signed {text : String} {q : ℚ} (number : Json.Grammar.Number text.toList)
    (numeral : Numeral text.toList q) :
    q = Double.signed (parts text).negative (parts text).value ∧ |q| = (parts text).value := by
  have same := numeral.unique (parts_numeral number)
  refine ⟨same, ?_⟩
  rw [same, Double.abs_signed, abs_of_nonneg (parts text).value_nonneg]

/-- A literal has a double exactly if its number is below the limit. -/
theorem double_isSome_iff {text : String} {q : ℚ} (number : Json.Grammar.Number text.toList)
    (numeral : Numeral text.toList q) : (double? text).isSome = true ↔ |q| < Double.limit := by
  rw [(value_eq_signed number numeral).2, ← not_le, Parts.value, ← Double.ofDecimal_eq_none_iff,
    ← Option.ne_none_iff_isSome]
  exact Iff.rfl

theorem double_covers {text : String} {d : Double} (found : double? text = some d) :
    d.InRange ∧ d.Covers (parts text).value := by
  have rounded := Double.ofDecimal_rounded (parts text).coefficient (parts text).exponent
  rw [show Double.ofDecimal (parts text).coefficient (parts text).exponent = some d from
    found] at rounded
  exact rounded

theorem literalText_number {text : String} (inRange : (double? text).isSome = true) :
    Json.Grammar.Number (Canonical.literalText text).toList := by
  obtain ⟨d, found⟩ := Option.isSome_iff_exists.mp inRange
  rw [Canonical.literalText, found]
  exact (Canonical.numberText_spec (double_covers found).1.toShaped _).1

/-- Literals with one canonical text have a nearest double in common. -/
theorem nearest_of_literalText {text text' : String} {q r : ℚ}
    (number : Json.Grammar.Number text.toList) (number' : Json.Grammar.Number text'.toList)
    (numeral : Numeral text.toList q) (numeral' : Numeral text'.toList r)
    (inRange : (double? text).isSome = true) (inRange' : (double? text').isSome = true)
    (same : Canonical.literalText text = Canonical.literalText text') :
    ∃ x, Double.Nearest x q ∧ Double.Nearest x r := by
  obtain ⟨d, found⟩ := Option.isSome_iff_exists.mp inRange
  obtain ⟨d', found'⟩ := Option.isSome_iff_exists.mp inRange'
  obtain ⟨bounded, covers⟩ := double_covers found
  obtain ⟨bounded', covers'⟩ := double_covers found'
  rw [Canonical.literalText, Canonical.literalText, found, found'] at same
  obtain ⟨rfl, signs⟩ := Canonical.numberText_inj bounded.toShaped bounded'.toShaped same
  have near := covers.nearest_signed bounded (parts text).value_nonneg (parts text).negative
  have near' := covers'.nearest_signed bounded (parts text').value_nonneg (parts text').negative
  rw [← (value_eq_signed number numeral).1] at near
  rw [← (value_eq_signed number' numeral').1] at near'
  refine ⟨_, near, ?_⟩
  rcases signs with signs | zero
  · rwa [signs]
  · -- Zero has no sign.
    have none : d.value = 0 := by rw [Double.value, zero, Nat.cast_zero, zero_mul]
    have unsigned : ∀ negative, Double.signed negative d.value = 0 := by
      intro negative
      cases negative <;> simp [Double.signed, none]
    rw [unsigned] at near' ⊢
    exact near'

end Literal

end SchemaForge
