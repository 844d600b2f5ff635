import Mathlib.Algebra.Order.Field.Power
import Mathlib.Tactic.Linarith
import Mathlib.Tactic.NormNum
import Mathlib.Tactic.Positivity
import SchemaForge.Number.Double
import SchemaForge.Proofs.Numerals

/-!
The doubles among the rational numbers. Every double covers the numbers between the midpoints to its
neighbours; a midpoint belongs to the even mantissa. No number is covered twice, rounding finds the
double that covers a number, and it fails exactly from the midpoint above the greatest double on.
-/
namespace SchemaForge.Number.Double

def value (d : Double) : ℚ := d.mantissa * 2 ^ d.exponent

/-- Mantissas fit in their bits and use the highest of them, except at the least exponent. -/
structure Shaped (d : Double) : Prop where
  fits : d.mantissa < 2 ^ 53
  least : leastExponent ≤ d.exponent
  full : d.exponent = leastExponent ∨ 2 ^ 52 ≤ d.mantissa

/-- The doubles that there are. -/
structure InRange (d : Double) : Prop extends d.Shaped where
  greatest : d.exponent ≤ greatestExponent

/-- Below a power of two the neighbour is only half as far. -/
def below (d : Double) : ℚ :=
  (d.mantissa - if d.mantissa = 2 ^ 52 ∧ leastExponent < d.exponent then 1 / 2 else 1) *
    2 ^ d.exponent

def above (d : Double) : ℚ := (d.mantissa + 1) * 2 ^ d.exponent

/-- The numbers that are rounded to a double. -/
def Covers (d : Double) (q : ℚ) : Prop :=
  if d.mantissa % 2 = 0 then d.below + d.value ≤ 2 * q ∧ 2 * q ≤ d.value + d.above
  else d.below + d.value < 2 * q ∧ 2 * q < d.value + d.above

theorem Covers.between {d : Double} {q : ℚ} (covers : d.Covers q) :
    d.below + d.value ≤ 2 * q ∧ 2 * q ≤ d.value + d.above := by
  unfold Covers at covers
  split at covers
  · exact covers
  · exact ⟨covers.1.le, covers.2.le⟩

theorem Covers.strictly {d : Double} {q : ℚ} (covers : d.Covers q) (odd : d.mantissa % 2 ≠ 0) :
    d.below + d.value < 2 * q ∧ 2 * q < d.value + d.above := by
  rwa [Covers, if_neg odd] at covers

theorem unit_pos (e : Int) : (0 : ℚ) < 2 ^ e := zpow_pos (by norm_num) e

theorem unit_split {e e' : Int} (le : e ≤ e') :
    ∃ n : Nat, e' = e + n ∧ (2 : ℚ) ^ e' = 2 ^ n * 2 ^ e := by
  obtain ⟨n, rfl⟩ := Int.le.dest le
  refine ⟨n, rfl, ?_⟩
  rw [zpow_add₀ (by norm_num), zpow_natCast, mul_comm]

theorem value_nonneg (d : Double) : 0 ≤ d.value :=
  mul_nonneg (Nat.cast_nonneg _) (unit_pos _).le

/-- Over a common exponent doubles compare as whole numbers. -/
theorem value_at {d d' : Double} {n : Nat} (unit : (2 : ℚ) ^ d'.exponent = 2 ^ n * 2 ^ d.exponent) :
    d'.value = (d'.mantissa * 2 ^ n : Nat) * 2 ^ d.exponent := by
  rw [value, unit]
  push_cast
  ring

theorem twice_le_pow {m n : Nat} (nonzero : n ≠ 0) : m * 2 ≤ m * 2 ^ n := by
  obtain ⟨k, rfl⟩ := Nat.exists_eq_succ_of_ne_zero nonzero
  rw [pow_succ]
  exact Nat.mul_le_mul_left m (Nat.le_mul_of_pos_left 2 (by positivity))

/-- Above the least exponent a mantissa is as large as any at half the unit. -/
theorem mantissa_lt_twice {d d' : Double} (shaped : d.Shaped) (shaped' : d'.Shaped)
    (less : d.exponent < d'.exponent) : 2 ^ 52 ≤ d'.mantissa ∧ d.mantissa < d'.mantissa * 2 := by
  have := shaped.fits
  have := shaped.least
  have full := shaped'.full.resolve_left (by omega)
  exact ⟨full, by omega⟩

theorem value_lt_of_exponent_lt {d d' : Double} (shaped : d.Shaped) (shaped' : d'.Shaped)
    (less : d.exponent < d'.exponent) : d.value < d'.value := by
  obtain ⟨n, apart, unit⟩ := unit_split less.le
  have grown : d.mantissa < d'.mantissa * 2 ^ n :=
    (mantissa_lt_twice shaped shaped' less).2.trans_le (twice_le_pow (by omega))
  rw [value_at unit]
  exact mul_lt_mul_of_pos_right (by exact_mod_cast grown) (unit_pos _)

theorem exponent_le_of_value_le {d d' : Double} (shaped : d.Shaped) (shaped' : d'.Shaped)
    (le : d.value ≤ d'.value) : d.exponent ≤ d'.exponent := by
  by_contra greater
  exact le.not_gt (value_lt_of_exponent_lt shaped' shaped (not_le.mp greater))

theorem above_le {d d' : Double} (shaped : d.Shaped) (shaped' : d'.Shaped)
    (lt : d.value < d'.value) : d.above ≤ d'.value := by
  obtain ⟨n, apart, unit⟩ := unit_split (exponent_le_of_value_le shaped shaped' lt.le)
  rw [value_at unit] at lt ⊢
  have less : d.mantissa < d'.mantissa * 2 ^ n := by
    exact_mod_cast lt_of_mul_lt_mul_right lt (unit_pos _).le
  exact mul_le_mul_of_nonneg_right (by exact_mod_cast less) (unit_pos _).le

theorem le_below {d d' : Double} (shaped : d.Shaped) (shaped' : d'.Shaped)
    (lt : d.value < d'.value) : d.value ≤ d'.below := by
  rcases (exponent_le_of_value_le shaped shaped' lt.le).lt_or_eq with less | same
  · obtain ⟨n, apart, unit⟩ := unit_split less.le
    obtain ⟨full, -⟩ := mantissa_lt_twice shaped shaped' less
    have room : (2 : ℚ) ^ d.exponent * 2 ≤ 2 ^ d'.exponent := by
      have := twice_le_pow (m := 1) (n := n) (by omega)
      rw [unit, mul_comm]
      exact mul_le_mul_of_nonneg_right (by exact_mod_cast by omega) (unit_pos _).le
    -- The mantissa below a power of two has one bit more, at half the unit.
    have most : (d.mantissa : ℚ) ≤ (2 ^ 52 - 1 / 2) * 2 := by
      have : (d.mantissa : ℚ) + 1 ≤ 2 ^ 53 := by exact_mod_cast shaped.fits
      linarith
    have reach : (2 ^ 52 - 1 / 2 : ℚ) ≤
        d'.mantissa - if d'.mantissa = 2 ^ 52 ∧ leastExponent < d'.exponent then 1 / 2 else 1 := by
      split
      · next power => rw [power.1]; norm_num
      · next inner =>
        have := shaped.least
        have : 2 ^ 52 + 1 ≤ d'.mantissa := by omega
        have : (2 ^ 52 + 1 : ℚ) ≤ d'.mantissa := by exact_mod_cast this
        linarith
    calc d.value ≤ (2 ^ 52 - 1 / 2) * 2 * 2 ^ d.exponent :=
          mul_le_mul_of_nonneg_right most (unit_pos _).le
      _ = (2 ^ 52 - 1 / 2) * (2 ^ d.exponent * 2) := by ring
      _ ≤ (2 ^ 52 - 1 / 2) * 2 ^ d'.exponent := mul_le_mul_of_nonneg_left room (by norm_num)
      _ ≤ d'.below := mul_le_mul_of_nonneg_right reach (unit_pos _).le
  · rw [value, value, same] at lt
    have less : d.mantissa < d'.mantissa := by
      exact_mod_cast lt_of_mul_lt_mul_right lt (unit_pos _).le
    rw [value, below, same]
    refine mul_le_mul_of_nonneg_right ?_ (unit_pos _).le
    have step : (d.mantissa : ℚ) + 1 ≤ d'.mantissa := by exact_mod_cast less
    split <;> linarith

theorem value_injective {d d' : Double} (shaped : d.Shaped) (shaped' : d'.Shaped)
    (same : d.value = d'.value) : d = d' := by
  have exponents : d.exponent = d'.exponent :=
    le_antisymm (exponent_le_of_value_le shaped shaped' same.le)
      (exponent_le_of_value_le shaped' shaped same.ge)
  rw [value, value, exponents, mul_left_inj' (unit_pos _).ne', Nat.cast_inj] at same
  cases d
  cases d'
  simp_all

theorem value_lt_above (d : Double) : d.value < d.above :=
  mul_lt_mul_of_pos_right (by linarith) (unit_pos _)

theorem below_lt_value (d : Double) : d.below < d.value :=
  mul_lt_mul_of_pos_right (by split <;> linarith) (unit_pos _)

/-- Of two neighbours at most one has an even mantissa. -/
theorem not_both_even {d d' : Double} (shaped : d.Shaped) (shaped' : d'.Shaped)
    (next : d.above = d'.value) : ¬ (d.mantissa % 2 = 0 ∧ d'.mantissa % 2 = 0) := by
  rintro ⟨even, even'⟩
  have order := exponent_le_of_value_le shaped shaped' (next ▸ d.value_lt_above.le)
  obtain ⟨n, -, unit⟩ := unit_split order
  rw [value_at unit, above, mul_left_inj' (unit_pos _).ne'] at next
  have mantissas : d.mantissa + 1 = d'.mantissa * 2 ^ n := by exact_mod_cast next
  have divides : 2 ∣ d'.mantissa * 2 ^ n := Dvd.dvd.mul_right (Nat.dvd_of_mod_eq_zero even') _
  omega

theorem disjoint_of_lt {d d' : Double} (shaped : d.Shaped) (shaped' : d'.Shaped)
    (lt : d.value < d'.value) {q : ℚ} (covers : d.Covers q) : ¬ d'.Covers q := by
  intro covers'
  have next := above_le shaped shaped' lt
  have previous := le_below shaped shaped' lt
  obtain ⟨-, high⟩ := covers.between
  obtain ⟨low, -⟩ := covers'.between
  refine not_both_even shaped shaped' (by linarith) ⟨?_, ?_⟩
  · by_contra odd
    have := (covers.strictly odd).2
    linarith
  · by_contra odd
    have := (covers'.strictly odd).1
    linarith

/-- No number is rounded to two doubles. -/
theorem Covers.unique {d d' : Double} (shaped : d.Shaped) (shaped' : d'.Shaped) {q : ℚ}
    (covers : d.Covers q) (covers' : d'.Covers q) : d = d' := by
  rcases lt_trichotomy d.value d'.value with lt | same | gt
  · exact absurd covers' (disjoint_of_lt shaped shaped' lt covers)
  · exact value_injective shaped shaped' same
  · exact absurd covers (disjoint_of_lt shaped' shaped gt covers')

/-- No double is nearer to a number than the one that covers it. -/
theorem Covers.nearest {d d' : Double} (shaped : d.Shaped) (shaped' : d'.Shaped) {q : ℚ}
    (covers : d.Covers q) : |q - d.value| ≤ |q - d'.value| := by
  obtain ⟨low, high⟩ := covers.between
  rcases lt_trichotomy d.value d'.value with lt | same | gt
  · have next := above_le shaped shaped' lt
    rw [abs_of_nonpos (by linarith : q - d'.value ≤ 0)]
    exact abs_le.mpr ⟨by linarith, by linarith⟩
  · rw [same]
  · have previous := le_below shaped' shaped gt
    rw [abs_of_nonneg (by linarith : 0 ≤ q - d'.value)]
    exact abs_le.mpr ⟨by linarith, by linarith⟩

theorem covers_value (d : Double) : d.Covers d.value := by
  have := d.below_lt_value
  have := d.value_lt_above
  unfold Covers
  split <;> constructor <;> linarith

theorem Covers.pos {d : Double} (nonzero : 0 < d.mantissa) {q : ℚ} (covers : d.Covers q) :
    0 < q := by
  have unit := unit_pos d.exponent
  have one : (1 : ℚ) ≤ d.mantissa := by exact_mod_cast nonzero
  have low : 0 ≤ d.below := mul_nonneg (by split <;> linarith) unit.le
  have here : 0 < d.value := mul_pos (by linarith) unit
  linarith [covers.between.1]

/-- The first number that is too large for a double: the midpoint above the greatest one. -/
def limit : ℚ := 2 ^ 1024 - 2 ^ 970

def greatest : Double := ⟨2 ^ 53 - 1, greatestExponent⟩

theorem greatest_shaped : greatest.Shaped := ⟨by decide, by decide, .inr (by decide)⟩

theorem limit_eq : greatest.value + greatest.above = 2 * limit := by
  have split : (2 : ℚ) ^ 1024 = 2 ^ 53 * 2 ^ 971 := by rw [← pow_add]
  have half : (2 : ℚ) ^ 971 = 2 * 2 ^ 970 := by rw [← pow_succ']
  have unit : (2 : ℚ) ^ greatestExponent = 2 ^ 971 := zpow_natCast 2 971
  have mantissa : ((greatest.mantissa : Nat) : ℚ) = 2 ^ 53 - 1 := by norm_num [greatest]
  rw [value, above, limit, split, mantissa, show greatest.exponent = greatestExponent from rfl,
    unit, half]
  generalize (2 : ℚ) ^ 970 = u
  ring

/-- A number is too large exactly if its double would need a larger exponent. -/
theorem Covers.limit_le_iff {d : Double} (shaped : d.Shaped) {q : ℚ} (covers : d.Covers q) :
    limit ≤ q ↔ greatestExponent < d.exponent := by
  have sum := limit_eq
  constructor
  · intro large
    by_contra small
    rw [not_lt] at small
    rcases lt_or_ge d.value greatest.value with lt | ge
    · have := le_below shaped greatest_shaped lt
      have := above_le shaped greatest_shaped lt
      have := greatest.below_lt_value
      have := greatest.value_lt_above
      linarith [covers.between.2]
    · have top : d = greatest := by
        have exponents : d.exponent = greatest.exponent :=
          le_antisymm small (exponent_le_of_value_le greatest_shaped shaped ge)
        have mantissas : d.mantissa ≤ greatest.mantissa := Nat.le_pred_of_lt shaped.fits
        refine value_injective shaped greatest_shaped (le_antisymm ?_ ge)
        rw [value, value, exponents]
        exact mul_le_mul_of_nonneg_right (by exact_mod_cast mantissas) (unit_pos _).le
      subst top
      linarith [(covers.strictly (by decide)).2]
  · intro large
    have lt := value_lt_of_exponent_lt greatest_shaped shaped large
    have := le_below greatest_shaped shaped lt
    have := above_le greatest_shaped shaped lt
    linarith [covers.between.1]

theorem twoPow_eq (n : Nat) : twoPow n = 2 ^ n := rfl

theorem tenPow_eq (n : Nat) : tenPow n = 10 ^ n := rfl

/-- A whole number within one half of a number. Only an even one is reached from a midpoint. -/
def Next (m : Nat) (x : ℚ) : Prop :=
  if m % 2 = 0 then 2 * (m : ℚ) - 1 ≤ 2 * x ∧ 2 * x ≤ 2 * (m : ℚ) + 1
  else 2 * (m : ℚ) - 1 < 2 * x ∧ 2 * x < 2 * (m : ℚ) + 1

theorem Next.between {m : Nat} {x : ℚ} (next : Next m x) :
    2 * (m : ℚ) - 1 ≤ 2 * x ∧ 2 * x ≤ 2 * (m : ℚ) + 1 := by
  unfold Next at next
  split at next
  · exact next
  · exact ⟨next.1.le, next.2.le⟩

theorem Next.le_of_lt {m n : Nat} {x : ℚ} (next : Next m x) (less : x < n) : m ≤ n := by
  have double : (2 * m : ℚ) < 2 * n + 1 := by linarith [next.between.1]
  have whole : 2 * m < 2 * n + 1 := by exact_mod_cast double
  omega

theorem Next.ge_of_le {m n : Nat} {x : ℚ} (next : Next m x) (reached : n ≤ x) : n ≤ m := by
  have double : (2 * n : ℚ) < 2 * m + 2 := by linarith [next.between.2]
  have whole : 2 * n < 2 * m + 2 := by exact_mod_cast double
  omega

theorem next_of_lt {m : Nat} {x : ℚ} (low : 2 * (m : ℚ) - 1 < 2 * x)
    (high : 2 * x < 2 * (m : ℚ) + 1) :
    Next m x := by
  unfold Next
  split
  · exact ⟨low.le, high.le⟩
  · exact ⟨low, high⟩

/-- A quotient is its whole part and a fraction. -/
theorem quotient_parts (num : Nat) {den : Nat} (pos : 0 < den) :
    ∃ f : ℚ, (num : ℚ) / den = (num / den : Nat) + f ∧ 0 ≤ f ∧ f < 1 ∧
      2 * (num % den : Nat) = 2 * f * den := by
  have positive : (0 : ℚ) < den := by exact_mod_cast pos
  have whole : (num : ℚ) = (num / den : Nat) * den + (num % den : Nat) := by
    exact_mod_cast (Nat.div_add_mod' num den).symm
  refine ⟨(num % den : Nat) / den, ?_, by positivity, ?_, ?_⟩
  · rw [div_eq_iff positive.ne', add_mul, div_mul_cancel₀ _ positive.ne', ← whole]
  · rw [div_lt_one positive]
    exact_mod_cast Nat.mod_lt num pos
  · rw [mul_assoc, div_mul_cancel₀ _ positive.ne']

theorem roundEven_next (num : Nat) {den : Nat} (pos : 0 < den) :
    Next (roundEven num den) (num / den) := by
  have positive : (0 : ℚ) < den := by exact_mod_cast pos
  obtain ⟨f, parts, nonneg, less, rest⟩ := quotient_parts num pos
  rw [parts]
  unfold roundEven
  rcases lt_trichotomy (2 * (num % den)) den with small | tie | large
  · have : 2 * f * den < 1 * den := by
      rw [← rest, one_mul]
      exact_mod_cast small
    have : 2 * f < 1 := lt_of_mul_lt_mul_right this positive.le
    rw [if_pos small]
    exact next_of_lt (by linarith) (by linarith)
  · have : 2 * f * den = 1 * den := by
      rw [← rest, one_mul]
      exact_mod_cast tie
    have : 2 * f = 1 := mul_right_cancel₀ positive.ne' this
    rw [if_neg (by omega), if_neg (by omega)]
    split
    · next even =>
      rw [Next, if_pos even]
      constructor <;> linarith
    · next odd =>
      rw [Next, if_pos (by omega)]
      push_cast
      constructor <;> linarith
  · have : 1 * den < 2 * f * den := by
      rw [← rest, one_mul]
      exact_mod_cast large
    have : 1 < 2 * f := lt_of_mul_lt_mul_right this positive.le
    rw [if_neg (by omega), if_pos large]
    refine next_of_lt ?_ ?_
    · push_cast
      linarith
    · push_cast
      linarith

theorem scaleDown_pos (num : Nat) {den : Nat} (pos : 0 < den) (e : Int) :
    0 < (scaleDown num den e).2 := by
  unfold scaleDown
  split
  · exact Nat.mul_pos pos (Nat.two_pow_pos _)
  · exact pos

theorem scaleDown_quotient (num den : Nat) (e : Int) :
    ((scaleDown num den e).1 : ℚ) / (scaleDown num den e).2 = num / den / 2 ^ e := by
  unfold scaleDown
  split
  · next positive =>
    obtain ⟨n, rfl⟩ := Int.eq_ofNat_of_zero_le positive
    simp [twoPow_eq, div_div]
  · next negative =>
    obtain ⟨n, same⟩ := Int.eq_ofNat_of_zero_le (by omega : 0 ≤ -e)
    obtain rfl : e = -n := by omega
    simp [twoPow_eq, div_mul_eq_mul_div]

theorem log2_bounds {n : Nat} (nonzero : 0 < n) :
    (2 : ℚ) ^ (Nat.log2 n : Int) ≤ n ∧ (n : ℚ) < 2 ^ (Nat.log2 n + 1 : Int) := by
  constructor
  · rw [zpow_natCast]
    exact_mod_cast Nat.log2_self_le nonzero.ne'
  · exact_mod_cast Nat.lt_log2_self (n := n)

/-- The difference of the logarithms is off by at most one. -/
theorem log2_quotient {num den : Nat} (nonzero : 0 < num) (pos : 0 < den) :
    (2 : ℚ) ^ ((Nat.log2 num : Int) - Nat.log2 den - 1) ≤ num / den ∧
      (num / den : ℚ) < 2 ^ ((Nat.log2 num : Int) - Nat.log2 den + 1) := by
  have positive : (0 : ℚ) < den := by exact_mod_cast pos
  obtain ⟨num_ge, num_lt⟩ := log2_bounds nonzero
  obtain ⟨den_ge, den_lt⟩ := log2_bounds pos
  constructor
  · rw [le_div_iff₀ positive]
    calc (2 : ℚ) ^ ((Nat.log2 num : Int) - Nat.log2 den - 1) * den
        ≤ 2 ^ ((Nat.log2 num : Int) - Nat.log2 den - 1) * 2 ^ (Nat.log2 den + 1 : Int) :=
          mul_le_mul_of_nonneg_left den_lt.le (unit_pos _).le
      _ = 2 ^ (Nat.log2 num : Int) := by
        rw [← zpow_add₀ (by norm_num)]
        congr 1
        omega
      _ ≤ num := num_ge
  · rw [div_lt_iff₀ positive]
    calc (num : ℚ) < 2 ^ (Nat.log2 num + 1 : Int) := num_lt
      _ = 2 ^ ((Nat.log2 num : Int) - Nat.log2 den + 1) * 2 ^ (Nat.log2 den : Int) := by
        rw [← zpow_add₀ (by norm_num)]
        congr 1
        omega
      _ ≤ _ := mul_le_mul_of_nonneg_left den_ge (unit_pos _).le

theorem scaleDown_reaches (num : Nat) {den : Nat} (pos : 0 < den) (e : Int) :
    (scaleDown num den e).2 ≤ (scaleDown num den e).1 ↔ (2 : ℚ) ^ e ≤ num / den := by
  have positive : (0 : ℚ) < (scaleDown num den e).2 := by exact_mod_cast scaleDown_pos num pos e
  rw [← Nat.cast_le (α := ℚ), ← one_le_div positive, scaleDown_quotient,
    one_le_div (unit_pos _)]

theorem highBit_spec {num den : Nat} (nonzero : 0 < num) (pos : 0 < den) :
    (2 : ℚ) ^ highBit num den ≤ num / den ∧ (num / den : ℚ) < 2 ^ (highBit num den + 1) := by
  obtain ⟨lower, upper⟩ := log2_quotient nonzero pos
  unfold highBit
  simp only
  split
  · next reached => exact ⟨(scaleDown_reaches num pos _).mp reached, upper⟩
  · next short =>
    rw [scaleDown_reaches num pos, not_le] at short
    exact ⟨lower, by rwa [sub_add_cancel]⟩

/-- A mantissa next to the scaled number makes a double that covers the number, if a power of two
    is not reached from below. -/
theorem covers_of_next {m : Nat} {e : Int} {x : ℚ} (next : Next m x)
    (power : m = 2 ^ 52 → leastExponent < e → 2 ^ 52 ≤ x) : Covers ⟨m, e⟩ (x * 2 ^ e) := by
  have unit := unit_pos e
  have sums : above ⟨m, e⟩ + value ⟨m, e⟩ = (2 * m + 1) * 2 ^ e ∧
      2 * (x * 2 ^ e) = 2 * x * 2 ^ e := by
    constructor
    · rw [above, value]
      ring
    · ring
  by_cases first : m = 2 ^ 52 ∧ leastExponent < e
  · have reached := power first.1 first.2
    have lower := below_lt_value ⟨m, e⟩
    have same : (m : ℚ) = 2 ^ 52 := by exact_mod_cast first.1
    have scaled : value ⟨m, e⟩ ≤ x * 2 ^ e :=
      mul_le_mul_of_nonneg_right (by rw [same]; exact reached) unit.le
    have higher : 2 * x * 2 ^ e ≤ (2 * m + 1) * 2 ^ e :=
      mul_le_mul_of_nonneg_right next.between.2 unit.le
    rw [Covers, if_pos (by simp [first.1])]
    constructor <;> linarith
  · have difference : below ⟨m, e⟩ + value ⟨m, e⟩ = (2 * m - 1) * 2 ^ e := by
      rw [below, value, if_neg first]
      ring
    unfold Covers
    unfold Next at next
    rw [difference, add_comm (value _), sums.1, sums.2]
    split at next
    · next even =>
      rw [if_pos even]
      exact ⟨mul_le_mul_of_nonneg_right next.1 unit.le, mul_le_mul_of_nonneg_right next.2 unit.le⟩
    · next odd =>
      rw [if_neg odd]
      exact ⟨mul_lt_mul_of_pos_right next.1 unit, mul_lt_mul_of_pos_right next.2 unit⟩

/-- Rounding up to one bit more than a mantissa has reaches the power of two above. -/
theorem covers_carried {e : Int} (least : leastExponent ≤ e) {x : ℚ} (next : Next (2 ^ 53) x)
    (less : x < 2 ^ 53) : Covers ⟨2 ^ 52, e + 1⟩ (x * 2 ^ e) := by
  have unit := unit_pos e
  have double : (2 : ℚ) ^ (e + 1) = 2 * 2 ^ e := by rw [zpow_add_one₀ (by norm_num), mul_comm]
  have low : (2 ^ 54 - 1) * (2 : ℚ) ^ e ≤ 2 * x * 2 ^ e := by
    refine mul_le_mul_of_nonneg_right ?_ unit.le
    have := next.between.1
    push_cast at this
    linarith
  have high : x * 2 ^ e ≤ 2 ^ 53 * 2 ^ e := mul_le_mul_of_nonneg_right less.le unit.le
  have above_eq : above ⟨2 ^ 52, e + 1⟩ = (2 ^ 53 + 2) * 2 ^ e := by
    rw [above, double]
    push_cast
    ring
  have value_eq : value ⟨2 ^ 52, e + 1⟩ = 2 ^ 53 * 2 ^ e := by
    rw [value, double]
    push_cast
    ring
  have below_eq : below ⟨2 ^ 52, e + 1⟩ = (2 ^ 53 - 1) * 2 ^ e := by
    rw [below, double, if_pos ⟨rfl, Int.lt_add_one_of_le least⟩]
    push_cast
    ring
  rw [Covers, if_pos (by norm_num), above_eq, value_eq, below_eq]
  constructor <;> linarith

/-- What rounding a number may give: nothing from the limit on, and else the double that covers
    it. -/
def Rounded (q : ℚ) : Option Double → Prop
  | none => limit ≤ q
  | some d => d.InRange ∧ d.Covers q

theorem rounded_of_covers {d : Double} {q : ℚ} (shaped : d.Shaped) (covers : d.Covers q) :
    Rounded q (if greatestExponent < d.exponent then none else some d) := by
  split
  · next large => exact (covers.limit_le_iff shaped).mpr large
  · next small => exact ⟨⟨shaped, not_lt.mp small⟩, covers⟩

theorem zero_inRange : zero.InRange := ⟨⟨by decide, le_rfl, .inl rfl⟩, by decide⟩

theorem covers_zero {q : ℚ} (nonneg : 0 ≤ q) (small : 2 * q ≤ 2 ^ leastExponent) :
    zero.Covers q := by
  have := unit_pos leastExponent
  rw [Covers, if_pos (show zero.mantissa % 2 = 0 from rfl)]
  norm_num [below, value, above, zero]
  constructor <;> linarith

theorem ofQuotient_rounded (num : Nat) {den : Nat} (pos : 0 < den) :
    Rounded (num / den) (ofQuotient num den) := by
  by_cases none : num = 0
  · subst none
    refine ⟨zero_inRange, covers_zero ?_ ?_⟩
    · simp
    · simpa using (unit_pos leastExponent).le
  obtain ⟨low, high⟩ := highBit_spec (Nat.pos_of_ne_zero none) pos
  rw [ofQuotient, if_neg none]
  simp only
  generalize scale : max (highBit num den - 52) leastExponent = e
  have next := roundEven_next (scaleDown num den e).1 (scaleDown_pos num pos e)
  rw [scaleDown_quotient] at next
  generalize roundEven (scaleDown num den e).1 (scaleDown num den e).2 = m at next
  have back : (num / den : ℚ) = num / den / 2 ^ e * 2 ^ e :=
    (div_mul_cancel₀ _ (unit_pos e).ne').symm
  rw [back]
  have below_top : (num / den / 2 ^ e : ℚ) < 2 ^ 53 := by
    rw [div_lt_iff₀ (unit_pos e), ← zpow_natCast, ← zpow_add₀ (by norm_num)]
    exact high.trans_le (zpow_le_zpow_right₀ (by norm_num) (by push_cast; omega))
  have full : leastExponent < e → 2 ^ 52 ≤ (num / den / 2 ^ e : ℚ) := by
    intro above
    rw [le_div_iff₀ (unit_pos e), ← zpow_natCast, ← zpow_add₀ (by norm_num)]
    exact (zpow_le_zpow_right₀ (by norm_num) (by push_cast; omega)).trans low
  generalize (num / den / 2 ^ e : ℚ) = x at *
  have least : leastExponent ≤ e := by omega
  by_cases carried : m = 2 ^ 53
  · subst carried
    exact rounded_of_covers (d := ⟨2 ^ 52, e + 1⟩)
      ⟨by norm_num, (Int.lt_add_one_of_le least).le, .inr le_rfl⟩
      (covers_carried least next below_top)
  · rw [if_neg (show ¬ m = twoPow mantissaBits from carried)]
    have fits : m < 2 ^ 53 := lt_of_le_of_ne (next.le_of_lt below_top) carried
    refine rounded_of_covers (d := ⟨m, e⟩) ⟨fits, least, ?_⟩ (covers_of_next next fun _ => full)
    rcases least.eq_or_lt with bottom | above
    · exact .inl bottom.symm
    · exact .inr (next.ge_of_le (full above))

theorem digits_length_lt (c : Nat) : c < 10 ^ (Nat.toDigits 10 c).length :=
  (Nat.length_toDigits_le_iff (by norm_num) Nat.length_toDigits_pos).mp le_rfl

theorem le_digits_length {c : Nat} (nonzero : 0 < c) :
    10 ^ ((Nat.toDigits 10 c).length - 1) ≤ c := by
  rcases Nat.eq_zero_or_pos ((Nat.toDigits 10 c).length - 1) with one | more
  · rw [one]
    exact nonzero
  · by_contra less
    have := (Nat.length_toDigits_le_iff (b := 10) (by norm_num) more).mpr (not_le.mp less)
    omega

theorem tiny_of_places {c : Nat} {e : Int} (low : ((Nat.toDigits 10 c).length : Int) + e < -400) :
    2 * (c * 10 ^ e : ℚ) ≤ 2 ^ leastExponent := by
  have scale : (0 : ℚ) < 10 ^ e := zpow_pos (by norm_num) e
  have digits : (c : ℚ) ≤ 10 ^ ((Nat.toDigits 10 c).length : Int) := by
    exact_mod_cast (digits_length_lt c).le
  have eight : (2 : ℚ) ^ 1075 ≤ 10 ^ 401 :=
    calc (2 : ℚ) ^ 1075 ≤ 2 ^ (3 * 401) := pow_le_pow_right₀ (by norm_num) (by norm_num)
      _ = (2 ^ 3) ^ 401 := pow_mul 2 3 401
      _ ≤ 10 ^ 401 := pow_le_pow_left₀ (by norm_num) (by norm_num) 401
  have tiny : (c * 10 ^ e : ℚ) ≤ (2 ^ 1075)⁻¹ :=
    calc (c * 10 ^ e : ℚ) ≤ 10 ^ ((Nat.toDigits 10 c).length : Int) * 10 ^ e :=
          mul_le_mul_of_nonneg_right digits scale.le
      _ = 10 ^ ((Nat.toDigits 10 c).length + e) := (zpow_add₀ (by norm_num) _ _).symm
      _ ≤ 10 ^ (-401 : Int) := zpow_le_zpow_right₀ (by norm_num) (by omega)
      _ = (10 ^ 401)⁻¹ := zpow_neg_coe_of_pos 10 (by norm_num)
      _ ≤ (2 ^ 1075)⁻¹ := inv_anti₀ (by positivity) eight
  have unit : (2 : ℚ) ^ leastExponent = 2 * (2 ^ 1075)⁻¹ := by
    rw [show leastExponent = 1 + -((1075 : Nat) : Int) from rfl, zpow_add₀ (by norm_num), zpow_one,
      zpow_neg, zpow_natCast]
  rw [unit]
  exact mul_le_mul_of_nonneg_left tiny (by norm_num)

theorem limit_le_of_places {c : Nat} {e : Int} (nonzero : 0 < c)
    (high : 400 < ((Nat.toDigits 10 c).length : Int) + e) : limit ≤ c * 10 ^ e := by
  have scale : (0 : ℚ) < 10 ^ e := zpow_pos (by norm_num) e
  have length := Nat.length_toDigits_pos (b := 10) (n := c)
  have digits : (10 : ℚ) ^ ((Nat.toDigits 10 c).length - 1 : Int) ≤ c := by
    rw [show ((Nat.toDigits 10 c).length - 1 : Int) = ((Nat.toDigits 10 c).length - 1 : Nat) by
      omega]
    exact_mod_cast le_digits_length nonzero
  calc limit ≤ 2 ^ 1024 := sub_le_self _ (by positivity)
    _ ≤ 2 ^ (3 * 400) := pow_le_pow_right₀ (by norm_num) (by norm_num)
    _ = (2 ^ 3) ^ 400 := pow_mul 2 3 400
    _ ≤ 10 ^ 400 := pow_le_pow_left₀ (by norm_num) (by norm_num) 400
    _ = 10 ^ ((400 : Nat) : Int) := (zpow_natCast 10 400).symm
    _ ≤ 10 ^ ((Nat.toDigits 10 c).length - 1 + e : Int) :=
      zpow_le_zpow_right₀ (by norm_num) (by omega)
    _ = 10 ^ ((Nat.toDigits 10 c).length - 1 : Int) * 10 ^ e := zpow_add₀ (by norm_num) _ _
    _ ≤ c * 10 ^ e := mul_le_mul_of_nonneg_right digits scale.le

/-- A number that is read as a decimal is rounded to the double that covers it. -/
theorem ofDecimal_rounded (c : Nat) (e : Int) : Rounded (c * 10 ^ e) (ofDecimal c e) := by
  have scale : (0 : ℚ) < 10 ^ e := zpow_pos (by norm_num) e
  unfold ofDecimal
  simp only
  split
  · next small =>
    refine ⟨zero_inRange, covers_zero (by positivity) ?_⟩
    simp only [Bool.or_eq_true, decide_eq_true_eq] at small
    rcases small with rfl | low
    · simpa using (unit_pos leastExponent).le
    · exact tiny_of_places low
  · next nonzero =>
    split
    · next large =>
      simp only [Bool.or_eq_true, decide_eq_true_eq, not_or] at nonzero
      exact limit_le_of_places (Nat.pos_of_ne_zero nonzero.1) large
    · split
      · next positive =>
        obtain ⟨n, rfl⟩ := Int.eq_ofNat_of_zero_le positive
        simpa [tenPow_eq] using ofQuotient_rounded (c * tenPow n) one_pos
      · next negative =>
        obtain ⟨n, same⟩ := Int.eq_ofNat_of_zero_le (by omega : 0 ≤ -e)
        obtain rfl : e = -n := by omega
        simpa [tenPow_eq, div_eq_mul_inv] using
          @ofQuotient_rounded c (tenPow n) (Nat.pow_pos (by norm_num))

theorem ofDecimal_eq_none_iff {c : Nat} {e : Int} :
    ofDecimal c e = none ↔ limit ≤ (c * 10 ^ e : ℚ) := by
  have rounded := ofDecimal_rounded c e
  cases result : ofDecimal c e with
  | none =>
    rw [result] at rounded
    exact iff_of_true rfl rounded
  | some d =>
    rw [result] at rounded
    obtain ⟨inRange, covers⟩ := rounded
    refine iff_of_false nofun fun large => ?_
    exact inRange.greatest.not_gt ((covers.limit_le_iff inRange.toShaped).mp large)

/-- The doubles of either sign, among all numbers. -/
def IsDouble (x : ℚ) : Prop := ∃ d : Double, d.InRange ∧ |x| = d.value

def Nearest (x q : ℚ) : Prop := IsDouble x ∧ ∀ y, IsDouble y → |q - x| ≤ |q - y|

/-- A double with the sign of the numbers that it is rounded from. -/
def signed (negative : Bool) (x : ℚ) : ℚ := if negative then -x else x

theorem abs_signed (negative : Bool) (x : ℚ) : |signed negative x| = |x| := by
  cases negative <;> simp [signed]

theorem signed_sub (negative : Bool) (x y : ℚ) :
    signed negative x - signed negative y = signed negative (x - y) := by
  cases negative
  · simp [signed]
  · simp [signed, sub_eq_add_neg, add_comm]

theorem Covers.nearest_signed {d : Double} {q : ℚ} (inRange : d.InRange) (nonneg : 0 ≤ q)
    (covers : d.Covers q) (negative : Bool) :
    Nearest (signed negative d.value) (signed negative q) := by
  refine ⟨⟨d, inRange, ?_⟩, ?_⟩
  · rw [abs_signed, abs_of_nonneg d.value_nonneg]
  · rintro y ⟨d', inRange', same⟩
    calc |signed negative q - signed negative d.value| = |q - d.value| := by
          rw [signed_sub, abs_signed]
      _ ≤ |q - d'.value| := covers.nearest inRange.toShaped inRange'.toShaped
      _ = |(|signed negative q| - |y|)| := by rw [abs_signed, abs_of_nonneg nonneg, same]
      _ ≤ |signed negative q - y| := abs_abs_sub_abs_le _ _

/-- A double is its own nearest, and the only one. -/
theorem Nearest.exact {x q : ℚ} (nearest : Nearest x q) (double : IsDouble q) : x = q := by
  have distance := nearest.2 q double
  rw [sub_self, abs_zero, abs_nonpos_iff, sub_eq_zero] at distance
  exact distance.symm

end SchemaForge.Number.Double
