import SchemaForge.Proofs.Checks
import SchemaForge.Proofs.Numerals

/-!
Numeric bounds are exact. A literal is taken apart as it is written: a whole number, the places
behind its point, a power of ten. Decimals are compared at the lower of their two exponents, which
compares the numbers they stand for whatever the exponents are, so a validator accepts a literal
exactly if the number that it denotes lies between those that the bounds denote.
-/
namespace SchemaForge

namespace Number

/-- A whole number in which a point may be set, and the characters behind the point. -/
inductive Pointed : List Char → Int → Nat → Prop
  | whole {cs : List Char} {z : Int} (spelled : Whole cs z) : Pointed cs z 0
  | point {as bs : List Char} {z : Int} (spelled : Whole (as ++ bs) z) :
      Pointed (as ++ '.' :: bs) z bs.length

/-- Decimal notation by its parts; the exponent is the one that is written. -/
inductive Spelled : List Char → Int → Nat → Int → Prop
  | plain {cs : List Char} {z : Int} {places : Nat} (pointed : Pointed cs z places) :
      Spelled cs z places 0
  | scaled {cs es : List Char} {mark : Char} {z e : Int} {places : Nat}
      (pointed : Pointed cs z places) (marked : Decimal.isExponentMark mark = true)
      (exponent : Whole es e) : Spelled (cs ++ mark :: es) z places e

/-- An exponent of 32 bits. -/
def Fits (e : Int) : Prop := int32Min ≤ e ∧ e ≤ int32Max

/-- A text is a decimal if its exponent fits as it is written, and still does when the places
    behind the point are counted in. -/
def Decimal.Reads (cs : List Char) (d : Decimal) : Prop :=
  ∃ places e, Spelled cs d.coefficient places e ∧ Fits e ∧ d.exponent = e - places ∧
    Fits d.exponent

theorem Pointed.fixed {cs : List Char} {z : Int} {places : Nat} (pointed : Pointed cs z places) :
    Fixed cs (z / 10 ^ places) := by
  cases pointed with
  | whole spelled => simpa using Fixed.whole spelled
  | point spelled => exact .point spelled

namespace Decimal

theorem pointed_iff {body : List Char} {n : Int} {places : Nat} :
    (∃ digits, splitPoint? body = some (digits, places) ∧ parseInt digits = some n) ↔
      Pointed body n places := by
  constructor
  · rintro ⟨digits, point, whole⟩
    have spelled := parseInt_iff.mp whole
    rcases splitPoint_iff.mp point with ⟨-, rfl, rfl⟩ | ⟨as, bs, -, -, rfl, rfl, rfl⟩
    · exact .whole spelled
    · exact .point spelled
  · intro pointed
    cases pointed with
    | whole spelled =>
      have free : '.' ∉ body := fun member => (spelled.plain_char member).1 rfl
      exact ⟨_, splitPoint_iff.mpr (.inl ⟨free, rfl, rfl⟩), parseInt_iff.mpr spelled⟩
    | @point as bs z spelled =>
      have free : '.' ∉ as ++ bs := fun member => (spelled.plain_char member).1 rfl
      obtain ⟨before, after⟩ := not_or.mp (List.mem_append.not.mp free)
      exact ⟨_, splitPoint_iff.mpr (.inr ⟨as, bs, before, after, rfl, rfl, rfl⟩),
        parseInt_iff.mpr spelled⟩

/-- Before the exponent mark stands a number with a point, and behind it a whole number that
    fits. -/
theorem spelled_iff {cs : List Char} {n e : Int} {places : Nat} :
    (∃ body, splitExponent? cs = some (body, e) ∧ Pointed body n places) ↔
      Spelled cs n places e ∧ Fits e := by
  constructor
  · rintro ⟨body, mantissa, pointed⟩
    obtain ⟨-, ⟨rfl, rfl⟩ | ⟨mark, es, marked, rfl, inRange⟩⟩ := splitExponent_iff.mp mantissa
    · exact ⟨.plain pointed, by decide, by decide⟩
    · obtain ⟨power, limits⟩ := Option.filter_eq_some_iff.mp inRange
      exact ⟨.scaled pointed marked (parseInt_iff.mp power), by simpa [Fits] using limits⟩
  · rintro ⟨spelled, fits⟩
    cases spelled with
    | plain pointed =>
      exact ⟨cs, splitExponent_iff.mpr ⟨pointed.fixed.unmarked, .inl ⟨rfl, rfl⟩⟩, pointed⟩
    | @scaled body es mark _ _ _ pointed marked exponent =>
      have inRange : parseIntIn int32Min int32Max es = some e :=
        Option.filter_eq_some_iff.mpr ⟨parseInt_iff.mpr exponent, by simpa [Fits] using fits⟩
      exact ⟨body, splitExponent_iff.mpr
        ⟨pointed.fixed.unmarked, .inr ⟨mark, es, marked, rfl, inRange⟩⟩, pointed⟩

/-- Reading takes exactly the texts that are decimals. -/
theorem parse_iff {s : String} {d : Decimal} :
    parse? s = some d ↔ Reads s.toList d := by
  constructor
  · intro read
    obtain ⟨⟨body, e⟩, mantissa, rest⟩ := Option.bind_eq_some_iff.mp read
    obtain ⟨⟨digits, places⟩, point, rest⟩ := Option.bind_eq_some_iff.mp rest
    obtain ⟨n, whole, rest⟩ := Option.bind_eq_some_iff.mp rest
    simp only [Option.ite_none_right_eq_some, Option.some.injEq, Bool.and_eq_true,
      decide_eq_true_eq] at rest
    obtain ⟨fits, rfl⟩ := rest
    have pointed := pointed_iff.mp ⟨digits, point, whole⟩
    obtain ⟨spelled, written⟩ := spelled_iff.mp ⟨body, mantissa, pointed⟩
    exact ⟨places, e, spelled, written, rfl, fits⟩
  · rintro ⟨places, e, spelled, written, total, fits⟩
    obtain ⟨body, mantissa, pointed⟩ := spelled_iff.mpr ⟨spelled, written⟩
    obtain ⟨digits, point, whole⟩ := pointed_iff.mpr pointed
    obtain ⟨n, exponent⟩ := d
    subst total
    simp only [parse?, mantissa, point, whole, Option.bind_eq_bind, Option.bind_some]
    rw [if_pos (by simpa only [Bool.and_eq_true, decide_eq_true_eq, Fits] using fits)]

/-- Scaling down to a lower exponent keeps the value. -/
theorem scaledTo_value {low : Int} {d : Decimal} (lower : low ≤ d.exponent) :
    (d.scaledTo low : ℚ) * 10 ^ low = d.value := by
  have steps : ((d.exponent - low).toNat : Int) = d.exponent - low :=
    Int.toNat_of_nonneg (by omega)
  calc (d.scaledTo low : ℚ) * 10 ^ low
      = d.coefficient * ((10 : ℚ) ^ (d.exponent - low).toNat * 10 ^ low) := by
        rw [scaledTo_eq_mul, tenPow, Nat.pow_eq]
        push_cast
        ring
    _ = d.coefficient * 10 ^ d.exponent := by
        rw [← zpow_natCast, ← zpow_add₀ (by norm_num), steps, Int.sub_add_cancel]

/-- Decimals are ordered as the numbers that they stand for. -/
theorem lt_iff (a b : Decimal) : a.lt b = true ↔ a.value < b.value := by
  -- At the lower exponent both are whole multiples of one power of ten, which cancels.
  have positive : (0 : ℚ) < 10 ^ min a.exponent b.exponent := zpow_pos (by norm_num) _
  have left := scaledTo_value (Int.min_le_left a.exponent b.exponent)
  have right := scaledTo_value (Int.min_le_right a.exponent b.exponent)
  rw [lt, decide_eq_true_eq, ← left, ← right, mul_lt_mul_iff_of_pos_right positive]
  exact Int.cast_lt.symm

example : lt ⟨0, 2147483647⟩ ⟨1, -2147483648⟩ = true := by decide

end Decimal

/-- The number that a bound denotes is not above the given one; where there is no bound, every
    number will do. -/
def AtLeast (lo : Option String) (v : ℚ) : Prop := ∀ t ∈ lo, ∃ m, Numeral t.toList m ∧ m ≤ v

def AtMost (hi : Option String) (v : ℚ) : Prop := ∀ t ∈ hi, ∃ m, Numeral t.toList m ∧ v ≤ m

end Number

namespace Validate
open Number (Numeral Decimal AtLeast AtMost)

/-- The first of two bounds that a value breaks, the minimum before the maximum. -/
def ranged {β : Type} (below above : β → Failure) (isBelow isAbove : β → Bool) (lo hi : Option β)
    (x : β) : Outcome β :=
  if lo.any isBelow then refuse (below (lo.getD x))
  else if hi.any isAbove then refuse (above (hi.getD x))
  else .ok x

theorem number_ranged {text : String} {x : Decimal} (read : Decimal.parse? text = some x)
    (lo hi : Option Decimal) :
    number lo hi (.num text) = ranged .numberBelow .numberAbove x.lt (·.lt x) lo hi x := by
  rw [number, read]
  cases lo <;> cases hi <;> simp [ranged]

theorem integer_ranged {text : String} {n : Int} (read : Number.parseInt text.toList = some n)
    (lo hi : Option Int) :
    integer lo hi (.num text) = ranged .integerBelow .integerAbove (n < ·) (· < n) lo hi n := by
  rw [integer, read]
  cases lo <;> cases hi <;> simp [ranged]

/-- A text and the number that was read from it: the text denotes the number's value and nothing
    else. -/
def Denotes {β : Type} (value : β → ℚ) (text : String) (x : β) : Prop :=
  ∀ q, Numeral text.toList q ↔ q = value x

/-- How a literal is answered under two bounds, of which both the literals and what was read from
    them are given. It is accepted exactly if it reads as a number whose value denotes what the
    literal denotes and lies within what the bounds denote. Otherwise it is refused for not being
    read, for the minimum, or for the maximum if the minimum is kept. -/
structure Judged {β : Type} (reads : List Char → β → Prop) (value : β → ℚ)
    (unread : String → Failure) (below above : β → Failure) (lo hi : Option String)
    (least most : Option β) (text : String) (r : Outcome β) : Prop where
  accepted (x : β) : r = .ok x ↔ reads text.toList x ∧ Numeral text.toList (value x) ∧
    AtLeast lo (value x) ∧ AtMost hi (value x)
  notRead : r = refuse (unread text) ↔ ∀ x, ¬ reads text.toList x
  tooSmall (m : β) : r = refuse (below m) ↔ least = some m ∧
    ∃ x, reads text.toList x ∧ value x < value m
  tooLarge (m : β) : r = refuse (above m) ↔ most = some m ∧
    ∃ x, reads text.toList x ∧ AtLeast lo (value x) ∧ value m < value x

/-- Failures that tell what was found: not a number, or which bound is broken. -/
structure Telling {β : Type} (unread : String → Failure) (below above : β → Failure) : Prop where
  least : Function.Injective below
  most : Function.Injective above
  sides (a b : β) : below a ≠ above b
  unreadBelow (text : String) (a : β) : unread text ≠ below a
  unreadAbove (text : String) (a : β) : unread text ≠ above a

section Family
variable {β : Type} {reads : List Char → β → Prop} {value : β → ℚ} {unread : String → Failure}
  {below above : β → Failure} {lo hi : Option String} {least most : Option β} {text : String}
  {r : Outcome β}

theorem refuse_inj {f g : Failure} : (refuse f : Outcome β) = refuse g ↔ f = g := by
  simp [refuse]

theorem refuse_ne_ok (f : Failure) (x : β) : refuse f ≠ .ok x := by
  simp [refuse]

/-- The minimum is broken, or it is kept and the maximum is broken, or both are kept. -/
theorem ranged_cases {isBelow isAbove : β → Bool} {x : β}
    (compared : r = ranged below above isBelow isAbove least most x) :
    (∃ m, least = some m ∧ isBelow m = true ∧ r = refuse (below m)) ∨
    (∀ m, least = some m → isBelow m = false) ∧
      ((∃ m, most = some m ∧ isAbove m = true ∧ r = refuse (above m)) ∨
      (∀ m, most = some m → isAbove m = false) ∧ r = .ok x) := by
  rw [compared, ranged]
  split
  · next small =>
    obtain ⟨m, rfl, broken⟩ := (Option.any_eq_true _ _).mp small
    exact .inl ⟨m, rfl, broken, rfl⟩
  · next kept =>
    refine .inr ⟨(Option.any_eq_false _ _).mp (by simpa using kept), ?_⟩
    split
    · next large =>
      obtain ⟨m, rfl, broken⟩ := (Option.any_eq_true _ _).mp large
      exact .inl ⟨m, rfl, broken, rfl⟩
    · next fits => exact .inr ⟨(Option.any_eq_false _ _).mp (by simpa using fits), rfl⟩

section Compared
variable {isBelow isAbove : β → Bool} {x : β}
  (compared : r = ranged below above isBelow isAbove least most x)
include compared

theorem ranged_ok_iff (y : β) : r = .ok y ↔
    x = y ∧ (∀ m, least = some m → isBelow m = false) ∧
      ∀ m, most = some m → isAbove m = false := by
  rcases ranged_cases compared with
    ⟨m, rfl, broken, rfl⟩ | ⟨kept, ⟨m, rfl, broken, rfl⟩ | ⟨fits, rfl⟩⟩
  · simp [refuse_ne_ok, broken]
  · simp [refuse_ne_ok, broken]
  · rw [Except.ok.injEq]
    exact ⟨fun same => ⟨same, kept, fits⟩, And.left⟩

theorem ranged_below_iff (telling : Telling unread below above) (m : β) :
    r = refuse (below m) ↔ least = some m ∧ isBelow m = true := by
  rcases ranged_cases compared with
    ⟨b, rfl, broken, rfl⟩ | ⟨kept, ⟨b, rfl, broken, rfl⟩ | ⟨fits, rfl⟩⟩
  · rw [refuse_inj, telling.least.eq_iff, Option.some.injEq]
    constructor
    · rintro rfl
      exact ⟨rfl, broken⟩
    · exact And.left
  · have apart : (refuse (above b) : Outcome β) ≠ refuse (below m) :=
      fun same => telling.sides m b (refuse_inj.mp same).symm
    exact iff_of_false apart fun ⟨given, small⟩ => by simp [kept m given] at small
  · exact iff_of_false (refuse_ne_ok _ _).symm fun ⟨given, small⟩ => by simp [kept m given] at small

theorem ranged_above_iff (telling : Telling unread below above) (m : β) :
    r = refuse (above m) ↔
      (∀ b, least = some b → isBelow b = false) ∧ most = some m ∧ isAbove m = true := by
  rcases ranged_cases compared with
    ⟨b, rfl, broken, rfl⟩ | ⟨kept, ⟨b, rfl, broken, rfl⟩ | ⟨fits, rfl⟩⟩
  · have apart : (refuse (below b) : Outcome β) ≠ refuse (above m) :=
      fun same => telling.sides b m (refuse_inj.mp same)
    exact iff_of_false apart fun ⟨kept, _⟩ => by simp [kept b rfl] at broken
  · rw [refuse_inj, telling.most.eq_iff, Option.some.injEq]
    constructor
    · rintro rfl
      exact ⟨kept, rfl, broken⟩
    · exact fun ⟨_, same, _⟩ => same
  · exact iff_of_false (refuse_ne_ok _ _).symm fun ⟨_, given, large⟩ => by
      simp [fits m given] at large

theorem ranged_ne_unread (telling : Telling unread below above) : r ≠ refuse (unread text) := by
  rcases ranged_cases compared with ⟨b, -, -, rfl⟩ | ⟨-, ⟨b, -, -, rfl⟩ | ⟨-, rfl⟩⟩
  · exact fun same => telling.unreadBelow text b (refuse_inj.mp same).symm
  · exact fun same => telling.unreadAbove text b (refuse_inj.mp same).symm
  · exact (refuse_ne_ok _ _).symm

end Compared

theorem atLeast_iff (read : Option.Rel (Denotes value) lo least) (v : ℚ) :
    AtLeast lo v ↔ ∀ m, least = some m → value m ≤ v := by
  cases read with
  | none => simp [AtLeast]
  | some denotes => simp [AtLeast, denotes _]

theorem atMost_iff (read : Option.Rel (Denotes value) hi most) (v : ℚ) :
    AtMost hi v ↔ ∀ m, most = some m → v ≤ value m := by
  cases read with
  | none => simp [AtMost]
  | some denotes => simp [AtMost, denotes _]

/-- Bounds that are accepted denote what was read from them. -/
theorem optional_denotes {read : String → Outcome β} {bound : Option String} {found : Option β}
    (accepts : ∀ t m, read t = .ok m → Denotes value t m) (given : optional read bound = .ok found) :
    Option.Rel (Denotes value) bound found := by
  cases bound with
  | none =>
    obtain rfl := Except.ok.inj given
    exact .none
  | some t =>
    obtain ⟨m, accepted, rfl⟩ := map_ok_iff.mp given
    exact .some (accepts t m accepted)

/-- A literal that is not read is refused as such. -/
theorem judged_unread (telling : Telling unread below above)
    (none_ : ∀ x, ¬ reads text.toList x) (refused : r = refuse (unread text)) :
    Judged reads value unread below above lo hi least most text r where
  accepted x := by simp [refused, none_ x, refuse_ne_ok]
  notRead := by simp [refused, none_]
  tooSmall m := by simp [refused, refuse_inj, none_, telling.unreadBelow]
  tooLarge m := by simp [refused, refuse_inj, none_, telling.unreadAbove]

/-- A literal that is read is compared with both bounds, by the values of the three. -/
theorem judged_read {x : β} {isBelow isAbove : β → Bool} (telling : Telling unread below above)
    (reads_iff : ∀ y, reads text.toList y ↔ x = y) (denotes : Denotes value text x)
    (low : Option.Rel (Denotes value) lo least) (high : Option.Rel (Denotes value) hi most)
    (below_iff : ∀ m, isBelow m = true ↔ value x < value m)
    (above_iff : ∀ m, isAbove m = true ↔ value m < value x)
    (compared : r = ranged below above isBelow isAbove least most x) :
    Judged reads value unread below above lo hi least most text r := by
  have below_false : ∀ m, isBelow m = false ↔ value m ≤ value x := by
    intro m
    rw [← not_lt, ← below_iff, Bool.not_eq_true]
  have above_false : ∀ m, isAbove m = false ↔ value x ≤ value m := by
    intro m
    rw [← not_lt, ← above_iff, Bool.not_eq_true]
  have low_iff : AtLeast lo (value x) ↔ ∀ m, least = some m → isBelow m = false := by
    simp only [atLeast_iff low, below_false]
  have high_iff : AtMost hi (value x) ↔ ∀ m, most = some m → isAbove m = false := by
    simp only [atMost_iff high, above_false]
  constructor
  · intro y
    rw [ranged_ok_iff compared, reads_iff, ← low_iff, ← high_iff]
    constructor
    · rintro ⟨rfl, kept⟩
      exact ⟨rfl, (denotes _).mpr rfl, kept⟩
    · rintro ⟨rfl, -, kept⟩
      exact ⟨rfl, kept⟩
  · refine iff_of_false (ranged_ne_unread compared telling) fun none_ => ?_
    exact none_ x ((reads_iff x).mpr rfl)
  · intro m
    rw [ranged_below_iff compared telling, below_iff]
    simp [reads_iff]
  · intro m
    rw [ranged_above_iff compared telling, above_iff, ← low_iff]
    simp [reads_iff, and_left_comm]

end Family

theorem telling_number : Telling .invalidNumber .numberBelow .numberAbove := by
  constructor <;> simp [Function.Injective]

theorem telling_integer : Telling .invalidInteger .integerBelow .integerAbove := by
  constructor <;> simp [Function.Injective]

theorem decimalBound_denotes (t : String) (m : Decimal) (accepted : decimalBound t = .ok m) :
    Denotes Decimal.value t m := by
  unfold decimalBound at accepted
  split at accepted
  · next parsed =>
    obtain rfl := Except.ok.inj accepted
    exact Decimal.value_iff parsed
  · cases accepted

theorem integerBound_denotes (t : String) (m : Int) (accepted : integerBound t = .ok m) :
    Denotes (fun n : Int => (n : ℚ)) t m := by
  unfold integerBound at accepted
  split at accepted
  · next parsed =>
    obtain rfl := Except.ok.inj accepted
    exact Number.integer_value_iff parsed
  · cases accepted

/-- Literals of either kind are judged by the exact numbers that they and the bounds denote. -/
theorem bounds_exact :
    (∀ lo hi least most, optional decimalBound lo = .ok least →
      optional decimalBound hi = .ok most → ∀ text,
        Judged Decimal.Reads Decimal.value .invalidNumber .numberBelow .numberAbove lo hi least most
          text (number least most (.num text))) ∧
    ∀ lo hi least most, optional integerBound lo = .ok least →
      optional integerBound hi = .ok most → ∀ text,
        Judged Number.Whole (fun n : Int => (n : ℚ)) .invalidInteger .integerBelow .integerAbove lo
          hi least most text (integer least most (.num text)) := by
  constructor
  · intro lo hi least most low high text
    cases parsed : Decimal.parse? text with
    | none =>
      refine judged_unread telling_number (fun x reads => ?_) (by rw [number, parsed])
      rw [Decimal.parse_iff.mpr reads] at parsed
      cases parsed
    | some x =>
      refine judged_read telling_number (fun y => ?_) (Decimal.value_iff parsed)
        (optional_denotes decimalBound_denotes low) (optional_denotes decimalBound_denotes high)
        (fun m => Decimal.lt_iff x m) (fun m => Decimal.lt_iff m x) (number_ranged parsed least most)
      rw [← Decimal.parse_iff, parsed, Option.some.injEq]
  · intro lo hi least most low high text
    cases parsed : Number.parseInt text.toList with
    | none =>
      refine judged_unread telling_integer (fun x reads => ?_) (by rw [integer, parsed])
      rw [Number.parseInt_iff.mpr reads] at parsed
      cases parsed
    | some n =>
      refine judged_read telling_integer (fun y => ?_) (Number.integer_value_iff parsed)
        (optional_denotes integerBound_denotes low) (optional_denotes integerBound_denotes high)
        (fun m => by simp) (fun m => by simp) (integer_ranged parsed least most)
      rw [← Number.parseInt_iff, parsed, Option.some.injEq]

/-- A sign behind the point, and a number spelled in another way that lies exactly on the bound. -/
theorem bound_met_in_other_spelling :
    optional decimalBound (some ".-5") = .ok (some ⟨-5, -2⟩) ∧
      number (some ⟨-5, -2⟩) none (.num "-500e-4") = .ok ⟨-500, -4⟩ ∧
      AtLeast (some ".-5") (Decimal.value ⟨-500, -4⟩) := by
  have bound : optional decimalBound (some ".-5") = .ok (some ⟨-5, -2⟩) := by decide
  have accepted : number (some ⟨-5, -2⟩) none (.num "-500e-4") = .ok ⟨-500, -4⟩ := by
    decide
  have judged := bounds_exact.1 (some ".-5") none (some ⟨-5, -2⟩) none bound rfl "-500e-4"
  exact ⟨bound, accepted, ((judged.accepted _).mp accepted).2.2.1⟩

end Validate

end SchemaForge
