import SchemaForge.Proofs.Decoding
import SchemaForge.Proofs.Reading

/-!
The validators of the library against the reading of a schema: each constraint is tested in the
same order and refused in the same way. Bounds that were decoded read as numbers, so reading them
again when a validator runs never crashes.
-/
namespace SchemaForge

open Number (Decimal)
open Code (verdict)

section Outcomes

theorem outcome_or (a b : Option Failure) :
    outcome (a.or b) = (outcome a >>= fun _ => outcome b) := by
  cases a <;> rfl

theorem outcome_demand (holds : Bool) (f : Failure) :
    outcome (demand holds f) = if holds then .ok () else refuse f := by
  cases holds <;> rfl

theorem within_outcome (wrap : Failure → Failure) (a : Option Failure) :
    Outcome.within wrap (outcome a) = outcome (a.map wrap) := by
  cases a <;> rfl

end Outcomes

namespace Schema

theorem boolean_agrees (v : Json) :
    verdict (Check.boolean.run v) = outcome (booleanFailure v) := by
  cases v <;> rfl

theorem format_agrees (format : Option Format) (text : String) :
    verdict (Check.formatted format text) = outcome (formatFailure format text) := by
  cases format with
  | none => rfl
  | some known =>
    cases known with
    | integer =>
      simp only [Check.formatted, Validate.asInteger, formatFailure, outcome_demand]
      cases Number.parseInt text.toList <;> rfl
    | number =>
      simp only [Check.formatted, Validate.asNumber, formatFailure, outcome_demand]
      cases Decimal.parse? text <;> rfl
    | dateTime =>
      simp only [Check.formatted, Validate.asDateTime, formatFailure, outcome_demand]
      cases DateTime.parse? text <;> rfl
    | hex =>
      simp only [Check.formatted, Validate.asBytes, formatFailure, outcome_or, outcome_demand]
      by_cases even : (Utf8.encodeChars (Validate.dropHexMark text.toList)).length % 2 = 0
      · simp only [even, ne_eq, not_true_eq_false, if_false, decide_true, if_true]
        cases Validate.hexBytes? (Validate.dropHexMark text.toList) <;> rfl
      · simp only [even, ne_eq, not_false_eq_true, if_true, decide_false, Bool.false_eq_true,
          if_false]
        rfl

theorem least_agrees (short : Nat → Failure) (lo : Option Nat) (n : Nat) :
    outcome (lo.bind fun least => demand (least ≤ n) (short least)) =
      if lo.any (n < ·) then refuse (short (lo.getD 0)) else .ok () := by
  cases lo with
  | none => rfl
  | some least =>
    by_cases enough : least ≤ n
    · simp [outcome_demand, enough, Nat.not_lt.mpr enough]
    · simp [outcome_demand, enough, Nat.lt_of_not_le enough]

theorem most_agrees (long : Nat → Failure) (hi : Option Nat) (n : Nat) :
    outcome (hi.bind fun most => demand (n ≤ most) (long most)) =
      if hi.any (· < n) then refuse (long (hi.getD 0)) else .ok () := by
  cases hi with
  | none => rfl
  | some most =>
    by_cases fits : n ≤ most
    · simp [outcome_demand, fits, Nat.not_lt.mpr fits]
    · simp [outcome_demand, fits, Nat.lt_of_not_le fits]

/-- Both count first the minimum, then the maximum, then go on. -/
theorem length_agrees {α : Type} (short long : Nat → Failure) (lo hi : Option Nat) (n : Nat)
    {rest : Outcome α} {found : Option Failure} (agree : verdict rest = outcome found) :
    verdict (if lo.any (n < ·) then refuse (short (lo.getD 0))
      else if hi.any (· < n) then refuse (long (hi.getD 0)) else rest) =
      outcome ((lengthFailure short long lo hi n).or found) := by
  rw [lengthFailure, outcome_or, outcome_or, least_agrees, most_agrees, ← agree]
  split
  · rfl
  · split <;> rfl

theorem string_agrees (lo hi : Option Nat) (enum : Option (List String)) (format : Option Format)
    (v : Json) :
    verdict ((Check.string lo hi enum format).run v) =
      outcome (stringFailure lo hi enum format v) := by
  cases v with
  | str text =>
    rw [stringFailure, ← String.length_toList]
    cases enum with
    | none =>
      rw [Option.bind_none, Option.none_or, ← length_agrees _ _ lo hi _ (format_agrees format text)]
      simp only [Check.run, Validate.string]
      split
      · rfl
      · split <;> rfl
    | some values =>
      have listed : verdict (if values.contains text then Check.formatted format text
            else refuse (.notOneOf (Validate.distinct values))) =
          outcome (((some values).bind fun values =>
              demand (values.contains text) (.notOneOf (Validate.distinct values))).or
            (formatFailure format text)) := by
        rw [outcome_or, ← format_agrees, Option.bind_some, outcome_demand]
        split <;> rfl
      rw [← length_agrees _ _ lo hi _ listed]
      simp only [Check.run, Validate.string]
      split
      · rfl
      · split
        · rfl
        · split <;> rfl
  | _ => rfl

theorem bound_value {β : Type} {read : String → Outcome β} (parse : String → Option β)
    (reads : ∀ text x, parse text = some x → read text = .ok x) {bound : Option String}
    (good : ∀ text ∈ bound, (parse text).isSome) :
    Validate.optional read bound = .ok (bound.bind parse) := by
  cases bound with
  | none => rfl
  | some text =>
    obtain ⟨x, parsed⟩ := Option.isSome_iff_exists.mp (good text rfl)
    rw [Validate.optional, reads text x parsed, Option.bind_some, parsed]
    rfl

theorem integerBound_reads (text : String) (n : Int)
    (parsed : Number.parseInt text.toList = some n) :
    Validate.integerBound text = .ok n := by
  rw [Validate.integerBound, parsed]

theorem decimalBound_reads (text : String) (x : Decimal) (parsed : Decimal.parse? text = some x) :
    Validate.decimalBound text = .ok x := by
  rw [Validate.decimalBound, parsed]

/-- The minimum is tested before the maximum. -/
theorem range_agrees {α β : Type} (below above : α → Failure) (isBelow isAbove : α → Prop)
    [DecidablePred isBelow] [DecidablePred isAbove] {fitsLow fitsHigh : α → Bool}
    (low : ∀ m, fitsLow m = !decide (isBelow m)) (high : ∀ m, fitsHigh m = !decide (isAbove m))
    (value : β) (least most : Option α) :
    verdict (match least, most with
      | some lo, hi =>
        if isBelow lo then refuse (below lo)
        else
          match hi with
          | some hi => if isAbove hi then refuse (above hi) else .ok value
          | none => .ok value
      | none, some hi => if isAbove hi then refuse (above hi) else .ok value
      | none, none => .ok value) =
      outcome ((least.bind fun lo => demand (fitsLow lo) (below lo)).or
        (most.bind fun hi => demand (fitsHigh hi) (above hi))) := by
  have upper : ∀ hi, verdict (if isAbove hi then refuse (above hi) else .ok value) =
      outcome (demand (fitsHigh hi) (above hi)) := by
    intro hi
    rw [outcome_demand, high]
    by_cases large : isAbove hi <;> simp [large] <;> rfl
  rw [outcome_or]
  cases least with
  | none =>
    cases most with
    | none => rfl
    | some hi => exact upper hi
  | some lo =>
    simp only [Option.bind_some, outcome_demand, low]
    by_cases small : isBelow lo
    · simp [small]
      rfl
    · cases most with
      | none =>
        simp [small]
        rfl
      | some hi =>
        simp only [small, decide_false, Bool.not_false, if_true, if_false]
        exact upper hi

theorem verdict_map {α β : Type} (f : α → β) (r : Outcome α) : verdict (r.map f) = verdict r := by
  cases r <;> rfl

theorem integer_agrees {lo hi : Option String} (good : boundsRead (.integer lo hi)) (v : Json) :
    verdict ((Check.integer lo hi).run v) = outcome (integerFailure lo hi v) := by
  have low := bound_value (fun t => Number.parseInt t.toList) integerBound_reads good.1
  have high := bound_value (fun t => Number.parseInt t.toList) integerBound_reads good.2
  rw [Check.run, low, high]
  cases v with
  | num text =>
    rw [integerFailure]
    simp only [bind, Except.bind, verdict_map, Validate.integer]
    cases Number.parseInt text.toList with
    | none => rfl
    | some n =>
      have fitsLow : ∀ m, decide (m ≤ n) = !decide (n < m) := by
        intro m
        by_cases small : n < m <;> simp [small]
        omega
      have fitsHigh : ∀ m, decide (n ≤ m) = !decide (m < n) := by
        intro m
        by_cases large : m < n <;> simp [large]
        omega
      have ranged := range_agrees .integerBelow .integerAbove (n < ·) (· < n) fitsLow fitsHigh n
      generalize (lo.bind fun t => Number.parseInt t.toList) = least
      generalize (hi.bind fun t => Number.parseInt t.toList) = most
      specialize ranged least most
      cases least <;> cases most <;> exact ranged
  | _ => rfl

theorem number_agrees {lo hi : Option String} (good : boundsRead (.number lo hi)) (v : Json) :
    verdict ((Check.number lo hi).run v) = outcome (numberFailure lo hi v) := by
  have low := bound_value Decimal.parse? decimalBound_reads good.1
  have high := bound_value Decimal.parse? decimalBound_reads good.2
  rw [Check.run, low, high]
  cases v with
  | num text =>
    rw [numberFailure]
    simp only [bind, Except.bind, verdict_map, Validate.number]
    cases Decimal.parse? text with
    | none => rfl
    | some x =>
      have ranged := range_agrees .numberBelow .numberAbove (fun m => x.lt m = true)
        (fun m => m.lt x = true) (fun m => (by simp : (!x.lt m) = _))
        (fun m => (by simp : (!m.lt x) = _)) x
      generalize lo.bind Decimal.parse? = least
      generalize hi.bind Decimal.parse? = most
      specialize ranged least most
      cases least <;> cases most <;> exact ranged
  | _ => rfl

theorem elements_agree {item : Validator Unit} {read : Json → Option Failure} (items : List Json)
    (agree : ∀ v ∈ items, item v = outcome (read v)) (index : Nat) (acc : List Unit) :
    verdict (Validate.elements item index acc items) =
      outcome ((items.zipIdx index).findSome? fun x =>
        (read x.1).map (.element (Number.renderNat x.2))) := by
  induction items generalizing index acc with
  | nil => rfl
  | cons v rest ih =>
    rw [Validate.elements, agree v List.mem_cons_self, within_outcome, List.zipIdx_cons,
      List.findSome?_cons]
    cases read v with
    | some f => rfl
    | none => exact ih (fun w later => agree w (List.mem_cons_of_mem _ later)) _ _

theorem array_agrees {lo hi : Option Nat} {item : Validator Unit} {read : Json → Option Failure}
    (v : Json) (agree : ∀ items, v = .arr items → ∀ w ∈ items, item w = outcome (read w)) :
    verdict (Validate.array lo hi item v) = outcome (arrayFailure lo hi read v) := by
  cases v with
  | arr items =>
    exact length_agrees _ _ lo hi _ (elements_agree items (agree items rfl) 0 [])
  | _ => rfl

end Schema

end SchemaForge
