import SchemaForge.Proofs.Doubles

/-!
The decimal that is printed for a double is read back as that double: the search over ever finer
grids ends at seventeen digits, because there the grid is finer than the numbers a double covers.
-/
namespace SchemaForge.Number.Double

theorem span_den_pos (d : Double) : 0 < d.span.den := by
  simp only [span]
  split
  · exact one_pos
  · exact Nat.two_pow_pos _

/-- The common factor of the numerators over the denominator. -/
theorem span_unit (e : Int) :
    ((if 0 ≤ e then twoPow e.toNat else 1 : Nat) : ℚ) /
      (if 0 ≤ e then 1 else twoPow (-e).toNat : Nat) = 2 ^ e := by
  split
  · next positive =>
    obtain ⟨n, rfl⟩ := Int.eq_ofNat_of_zero_le positive
    simp [twoPow_eq]
  · next negative =>
    obtain ⟨n, same⟩ := Int.eq_ofNat_of_zero_le (by omega : 0 ≤ -e)
    obtain rfl : e = -n := by omega
    simp [twoPow_eq]

theorem quarter_unit (d : Double) : 4 * (2 : ℚ) ^ (d.exponent - 2) = 2 ^ d.exponent := by
  rw [zpow_sub₀ (by norm_num)]
  norm_num
  ring

theorem span_value (d : Double) : (d.span.value : ℚ) / d.span.den = d.value := by
  have unit := span_unit (d.exponent - 2)
  simp only [span]
  rw [Nat.cast_mul, mul_div_assoc, unit, value, ← quarter_unit d]
  push_cast
  ring

theorem span_high (d : Double) : 2 * ((d.span.high : ℚ) / d.span.den) = d.value + d.above := by
  have unit := span_unit (d.exponent - 2)
  simp only [span]
  rw [Nat.cast_mul, mul_div_assoc, unit, value, above, ← quarter_unit d]
  push_cast
  ring

theorem span_low {d : Double} (nonzero : 0 < d.mantissa) :
    2 * ((d.span.low : ℚ) / d.span.den) = d.below + d.value := by
  have unit := span_unit (d.exponent - 2)
  simp only [span]
  rw [Nat.cast_mul, mul_div_assoc, unit, value, below, ← quarter_unit d]
  have first : twoPow (mantissaBits - 1) = 2 ^ 52 := rfl
  by_cases power : d.mantissa = 2 ^ 52 ∧ leastExponent < d.exponent
  · rw [if_pos power, if_pos (by simpa [first] using power), Nat.cast_sub (by omega)]
    push_cast
    ring
  · rw [if_neg power, if_neg (by simpa [first] using power), Nat.cast_sub (by omega)]
    push_cast
    ring

/-- A fraction against a decimal, without denominators. -/
theorem grid_compare {den : Nat} (pos : 0 < den) (c : Nat) (g : Int) :
    ∃ x scale : Nat,
      (if 0 ≤ g then (c * tenPow g.toNat * den, 1) else (c * den, tenPow (-g).toNat)) = (x, scale) ∧
      ∀ n : Nat, (n * scale ≤ x ↔ (n / den : ℚ) ≤ c * 10 ^ g) ∧
        (x ≤ n * scale ↔ c * 10 ^ g ≤ (n / den : ℚ)) := by
  have positive : (0 : ℚ) < den := by exact_mod_cast pos
  split
  · next nonneg =>
    obtain ⟨k, rfl⟩ := Int.eq_ofNat_of_zero_le nonneg
    refine ⟨_, _, rfl, fun n => ?_⟩
    rw [div_le_iff₀ positive, le_div_iff₀ positive, Int.toNat_natCast, tenPow_eq, zpow_natCast,
      mul_one]
    exact ⟨by exact_mod_cast Iff.rfl, by exact_mod_cast Iff.rfl⟩
  · next negative =>
    obtain ⟨k, same⟩ := Int.eq_ofNat_of_zero_le (by omega : 0 ≤ -g)
    obtain rfl : g = -k := by omega
    refine ⟨_, _, rfl, fun n => ?_⟩
    have scale : (0 : ℚ) < 10 ^ k := by positivity
    rw [zpow_neg, zpow_natCast, ← div_eq_mul_inv, div_le_div_iff₀ positive scale,
      div_le_div_iff₀ scale positive, neg_neg, Int.toNat_natCast]
    exact ⟨by exact_mod_cast Iff.rfl, by exact_mod_cast Iff.rfl⟩

/-- The span of a double holds the decimals that the double covers. -/
theorem holds_iff {d : Double} (nonzero : 0 < d.mantissa) (c : Nat) (g : Int) :
    d.span.holds c g = true ↔ d.Covers (c * 10 ^ g) := by
  obtain ⟨x, scale, pair, compare⟩ := grid_compare d.span_den_pos c g
  have low : d.span.low * scale ≤ x ↔ d.below + d.value ≤ 2 * (c * 10 ^ g) := by
    rw [(compare d.span.low).1, ← span_low nonzero, mul_le_mul_iff_right₀ (by norm_num)]
  have high : x ≤ d.span.high * scale ↔ 2 * (c * 10 ^ g) ≤ d.value + d.above := by
    rw [(compare d.span.high).2, ← span_high, mul_le_mul_iff_right₀ (by norm_num)]
  have low' : d.span.low * scale < x ↔ d.below + d.value < 2 * (c * 10 ^ g) := by
    rw [← not_le, (compare d.span.low).2, ← span_low nonzero, mul_lt_mul_iff_right₀ (by norm_num),
      not_le]
  have high' : x < d.span.high * scale ↔ 2 * (c * 10 ^ g) < d.value + d.above := by
    rw [← not_le, (compare d.span.high).1, ← span_high, mul_lt_mul_iff_right₀ (by norm_num), not_le]
  unfold Span.holds Covers
  rw [pair]
  simp only [← low, ← high, ← low', ← high']
  by_cases even : d.mantissa % 2 = 0
  · simp [even, span]
  · simp [even, span]

theorem tenths_spec {num den fuel : Nat} (enough : den ≤ num * 10 ^ fuel) :
    den ≤ num * 10 ^ tenths num den fuel ∧
      (tenths num den fuel = 0 ∨ num * 10 ^ (tenths num den fuel - 1) < den) := by
  induction fuel generalizing num with
  | zero => exact ⟨enough, .inl rfl⟩
  | succ fuel ih =>
    rw [tenths]
    split
    · next reached => exact ⟨by simpa using reached, .inl rfl⟩
    · next short =>
      obtain ⟨reached, before⟩ := ih (by rwa [mul_assoc, ← pow_succ'])
      refine ⟨by rwa [pow_succ', ← mul_assoc], .inr ?_⟩
      rw [Nat.add_sub_cancel]
      rcases before with none | less
      · rw [none]
        simpa using short
      · obtain ⟨k, more⟩ := Nat.exists_eq_add_one_of_ne_zero
          (fun none => by simp [none] at reached less; omega : tenths (num * 10) den fuel ≠ 0)
        rw [more, Nat.add_sub_cancel, mul_assoc, ← pow_succ'] at less
        rwa [more]

/-- The first digit of a positive quotient stands at its first place. -/
theorem firstPlace_spec {num den : Nat} (pos : 0 < den) (enough : den ≤ num * 10 ^ 400) :
    (10 : ℚ) ^ firstPlace num den ≤ num / den ∧
      (num / den : ℚ) < 10 ^ (firstPlace num den + 1) := by
  have positive : (0 : ℚ) < den := by exact_mod_cast pos
  unfold firstPlace
  split
  · next whole =>
    have low := le_digits_length (Nat.div_pos whole pos)
    have high := digits_length_lt (num / den)
    have length := Nat.length_toDigits_pos (b := 10) (n := num / den)
    generalize (Nat.toDigits 10 (num / den)).length = n at *
    obtain ⟨k, rfl⟩ := Nat.exists_eq_add_one_of_ne_zero length.ne'
    rw [Nat.add_sub_cancel, Nat.le_div_iff_mul_le pos] at low
    rw [Nat.div_lt_iff_lt_mul pos] at high
    rw [sub_add_cancel, zpow_natCast, show ((k + 1 : Nat) - 1 : Int) = k by omega, zpow_natCast,
      le_div_iff₀ positive, div_lt_iff₀ positive]
    exact ⟨by exact_mod_cast low, by exact_mod_cast high⟩
  · next part =>
    obtain ⟨reached, before⟩ := tenths_spec enough
    generalize tenths num den 400 = n at *
    obtain ⟨k, rfl⟩ := Nat.exists_eq_add_one_of_ne_zero
      (fun none => by simp [none] at reached; omega : n ≠ 0)
    have less := before.resolve_left (Nat.succ_ne_zero k)
    rw [Nat.add_sub_cancel] at less
    rw [show (-((k + 1 : Nat) : Int) + 1) = -(k : Int) by omega, zpow_neg, zpow_neg, zpow_natCast,
      zpow_natCast, inv_eq_one_div, inv_eq_one_div, div_le_div_iff₀ (by positivity) positive,
      div_lt_div_iff₀ positive (by positivity), one_mul]
    exact ⟨by exact_mod_cast reached, by exact_mod_cast less⟩

/-- The nearer of the two whole numbers around a quotient. -/
def nearer (n d : Nat) : Nat := if 2 * (n % d) ≤ d then n / d else n / d + 1

theorem nearer_distance (n : Nat) {d : Nat} (pos : 0 < d) :
    |2 * (nearer n d : ℚ) - 2 * (n / d : ℚ)| ≤ 1 := by
  have positive : (0 : ℚ) < d := by exact_mod_cast pos
  obtain ⟨f, parts, nonneg, less, rest⟩ := quotient_parts n pos
  rw [parts, abs_le]
  unfold nearer
  split
  · next small =>
    have : 2 * f * d ≤ 1 * d := by
      rw [← rest, one_mul]
      exact_mod_cast small
    have : 2 * f ≤ 1 := le_of_mul_le_mul_right this positive
    constructor <;> linarith
  · next large =>
    have : 1 * d < 2 * f * d := by
      rw [← rest, one_mul]
      exact_mod_cast not_le.mp large
    have : 1 < 2 * f := lt_of_mul_lt_mul_right this positive.le
    push_cast
    constructor <;> linarith

/-- Two grid points are tried, and the first of them is within half a step of the value. -/
theorem onGrid_eq {s : Span} (pos : 0 < s.den) (g : Int) :
    ∃ near other : Nat, s.onGrid? g =
        (if s.holds near g then some near else if s.holds other g then some other else none) ∧
      |2 * (near * 10 ^ g) - 2 * (s.value / s.den : ℚ)| ≤ 10 ^ g := by
  have scale : (0 : ℚ) < 10 ^ g := zpow_pos (by norm_num) g
  obtain ⟨n, d, pair, positive, quotient⟩ : ∃ n d : Nat,
      (if 0 ≤ g then (s.value, s.den * tenPow g.toNat) else (s.value * tenPow (-g).toNat, s.den)) =
        (n, d) ∧ 0 < d ∧ (s.value / s.den : ℚ) = n / d * 10 ^ g := by
    split
    · next nonneg =>
      obtain ⟨k, rfl⟩ := Int.eq_ofNat_of_zero_le nonneg
      refine ⟨_, _, rfl, Nat.mul_pos pos (Nat.pow_pos (by norm_num)), ?_⟩
      rw [Int.toNat_natCast, tenPow_eq, zpow_natCast]
      push_cast
      rw [← div_div, div_mul_cancel₀ _ (by positivity)]
    · next negative =>
      obtain ⟨k, same⟩ := Int.eq_ofNat_of_zero_le (by omega : 0 ≤ -g)
      obtain rfl : g = -k := by omega
      refine ⟨_, _, rfl, pos, ?_⟩
      rw [neg_neg, Int.toNat_natCast, tenPow_eq, zpow_neg, zpow_natCast, mul_comm]
      push_cast
      rw [mul_div_right_comm, ← div_eq_inv_mul, mul_div_cancel_right₀ _ (by positivity)]
  refine ⟨nearer n d, if nearer n d = n / d then n / d + 1 else n / d, ?_, ?_⟩
  · unfold Span.onGrid?
    rw [pair]
    rfl
  · have apart : 2 * (nearer n d * 10 ^ g) - 2 * (n / d * 10 ^ g : ℚ) =
        (2 * (nearer n d : ℚ) - 2 * (n / d)) * 10 ^ g := by ring
    rw [quotient, apart, abs_mul, abs_of_pos scale]
    exact mul_le_of_le_one_left scale.le (nearer_distance n positive)

theorem onGrid_holds {s : Span} (pos : 0 < s.den) {g : Int} {c : Nat}
    (found : s.onGrid? g = some c) :
    s.holds c g = true := by
  obtain ⟨near, other, equation, -⟩ := onGrid_eq pos g
  rw [equation] at found
  split at found
  · next first => exact Option.some.inj found ▸ first
  · split at found
    · next second => exact Option.some.inj found ▸ second
    · cases found

theorem value_sub_below_le (d : Double) : d.value - d.below ≤ d.above - d.value := by
  rw [value, below, above, ← sub_mul, ← sub_mul, sub_sub_cancel, add_sub_cancel_left]
  exact mul_le_mul_of_nonneg_right (by split <;> norm_num) (unit_pos _).le

/-- A grid that is finer than the gap below a double has a point in its span. -/
theorem onGrid_of_fine {d : Double} (nonzero : 0 < d.mantissa) {g : Int}
    (fine : (10 : ℚ) ^ g < d.value - d.below) : ∃ c, d.span.onGrid? g = some c := by
  obtain ⟨near, other, equation, distance⟩ := onGrid_eq d.span_den_pos g
  rw [span_value, abs_le] at distance
  have gap := d.value_sub_below_le
  have covers : d.Covers (near * 10 ^ g) := by
    unfold Covers
    split <;> constructor <;> linarith
  exact ⟨near, by rw [equation, if_pos ((holds_iff nonzero near g).mpr covers)]⟩

theorem shortestFrom_holds {s : Span} (pos : 0 < s.den) {place : Int} {fuel digits k c : Nat}
    (inside : k < fuel) (found : s.onGrid? (place + 1 - (digits + k : Nat)) = some c) :
    s.holds (shortestFrom s place fuel digits).1 (shortestFrom s place fuel digits).2 = true := by
  induction fuel generalizing digits k with
  | zero => omega
  | succ fuel ih =>
    rw [shortestFrom]
    split
    · next first => exact onGrid_holds pos first
    · next none =>
      rcases k with _ | k
      · rw [Nat.add_zero, none] at found
        cases found
      · exact ih (by omega : k < fuel) (by rwa [Nat.add_right_comm])

/-- Sixteen places after the first the grid is finer than the gap. -/
theorem fine_of_place {d : Double} (shaped : d.Shaped) {place : Int}
    (first : (10 : ℚ) ^ place ≤ d.value) : (10 : ℚ) ^ (place - 16) < d.value - d.below := by
  have unit := unit_pos d.exponent
  have sixteen : (10 : ℚ) ^ (place - 16) ≤ d.value / 10 ^ 16 := by
    rw [zpow_sub₀ (by norm_num)]
    exact div_le_div_of_nonneg_right first (by norm_num)
  refine sixteen.trans_lt ?_
  rw [value, below, ← sub_mul, sub_sub_cancel, mul_div_right_comm]
  refine mul_lt_mul_of_pos_right ?_ unit
  split
  · next power =>
    rw [power.1]
    norm_num
  · have : (d.mantissa : ℚ) < 2 ^ 53 := by exact_mod_cast shaped.fits
    linarith

theorem least_value {d : Double} (shaped : d.Shaped) (nonzero : 0 < d.mantissa) :
    ((10 : ℚ) ^ 400)⁻¹ ≤ d.value := by
  have eight : (2 : ℚ) ^ 1074 ≤ 10 ^ 400 :=
    calc (2 : ℚ) ^ 1074 ≤ 2 ^ (3 * 400) := pow_le_pow_right₀ (by norm_num) (by norm_num)
      _ = (2 ^ 3) ^ 400 := pow_mul 2 3 400
      _ ≤ 10 ^ 400 := pow_le_pow_left₀ (by norm_num) (by norm_num) 400
  have one : (1 : ℚ) ≤ d.mantissa := by exact_mod_cast nonzero
  calc ((10 : ℚ) ^ 400)⁻¹ ≤ (2 ^ 1074)⁻¹ := inv_anti₀ (by positivity) eight
    _ = 2 ^ leastExponent := (zpow_neg_coe_of_pos 2 (by norm_num)).symm
    _ ≤ 2 ^ d.exponent := zpow_le_zpow_right₀ (by norm_num) shaped.least
    _ ≤ d.value := le_mul_of_one_le_left (unit_pos _).le one

theorem shortest_covers {d : Double} (shaped : d.Shaped) (nonzero : 0 < d.mantissa) :
    d.Covers (d.shortest.1 * 10 ^ d.shortest.2) := by
  have least : d.span.den ≤ d.span.value * 10 ^ 400 := by
    have positive : (0 : ℚ) < d.span.den := by exact_mod_cast d.span_den_pos
    have reached := least_value shaped nonzero
    rw [← span_value, inv_eq_one_div, div_le_div_iff₀ (by positivity) positive, one_mul] at reached
    exact_mod_cast reached
  obtain ⟨first, -⟩ := firstPlace_spec d.span_den_pos least
  rw [span_value] at first
  obtain ⟨c, found⟩ := onGrid_of_fine nonzero (fine_of_place shaped first)
  rw [shortest, if_neg nonzero.ne']
  refine (holds_iff nonzero _ _).mp
    (shortestFrom_holds d.span_den_pos (k := 16) (c := c) (by norm_num) ?_)
  rwa [show ((1 + 16 : Nat) : Int) = 17 from rfl, add_sub_assoc]

end SchemaForge.Number.Double
