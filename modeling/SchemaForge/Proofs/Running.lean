import Mathlib.Logic.Function.Iterate
import SchemaForge.Code.Basic
import SchemaForge.Validator.Check

/-!
Running an emitted package. The body of a validator is run with the library's own validators; what
other emitted validators give is asked of `apply`. Unrolling a package replaces each validator by
its body once, so that unrolling it `depth` times runs calls nested up to that depth and leaves
deeper ones to a `limit`. A run has an outcome when some depth gives it whatever the limit is. A
limit that crashes would show through every container, so then no call beyond that depth is made:
the run ends.
-/
namespace SchemaForge

section Recursion
variable {α β γ δ : Type} {unroll : (α → β → γ) → α → β → γ}

/-- The value of `use` when the recursion is unrolled far enough. -/
def Settles (unroll : (α → β → γ) → α → β → γ) (use : (α → β → γ) → δ) (r : δ) : Prop :=
  ∃ depth, ∀ limit, use (unroll^[depth] limit) = r

theorem settled_deeper {use : (α → β → γ) → δ} {r : δ} {depth more : Nat} (deeper : depth ≤ more)
    (settled : ∀ limit, use (unroll^[depth] limit) = r) :
    ∀ limit, use (unroll^[more] limit) = r := by
  intro limit
  obtain ⟨extra, rfl⟩ := Nat.exists_eq_add_of_le deeper
  rw [Function.iterate_add_apply]
  exact settled _

theorem settles_unique [Nonempty (α → β → γ)] {use : (α → β → γ) → δ} {r s : δ}
    (first : Settles unroll use r) (second : Settles unroll use s) : r = s := by
  obtain ⟨limit⟩ := ‹Nonempty (α → β → γ)›
  obtain ⟨m, left⟩ := first
  obtain ⟨n, right⟩ := second
  rw [← settled_deeper (Nat.le_max_left m n) left limit,
    ← settled_deeper (Nat.le_max_right m n) right limit]

end Recursion

namespace Code

/-- What a validator gives, by its name. Only success and failure are followed here. -/
abbrev Apply := String → Validator Unit

/-- The outcome without its value. -/
def verdict {α : Type} (r : Outcome α) : Outcome Unit := r.map fun _ => ()

namespace Package
variable {τ δ : Type}

def function? (p : Package τ δ Call) (name : String) : Option (Function τ Call) :=
  p.functions.find? fun f => f.name = name

def set? (p : Package τ δ Call) (name : String) : Option (List String) :=
  (p.sets.find? fun s => s.name = name).map (·.values)

/-- With distinct names a name leads to what was declared under it. -/
theorem find_declared {α : Type} {name : α → String} {declared : List α}
    (distinct : (declared.map name).Nodup) {a : α} (member : a ∈ declared) :
    declared.find? (fun b => name b = name a) = some a := by
  induction declared with
  | nil => simp at member
  | cons head rest ih =>
    rw [List.map_cons, List.nodup_cons] at distinct
    rcases List.mem_cons.mp member with rfl | later
    · simp
    · have apart : name head ≠ name a := by
        intro same
        exact distinct.1 (same ▸ List.mem_map_of_mem later)
      rw [List.find?_cons_of_neg (by simpa using apart)]
      exact ih distinct.2 later

theorem function_declared {p : Package τ δ Call} (distinct : (p.functions.map (·.name)).Nodup)
    {f : Function τ Call} (member : f ∈ p.functions) : p.function? f.name = some f :=
  find_declared distinct member

theorem set_declared {p : Package τ δ Call} (distinct : (p.sets.map (·.name)).Nodup)
    {set : StringSet} (member : set ∈ p.sets) : p.set? set.name = some set.values := by
  rw [set?, find_declared distinct member]
  rfl

/-- Uses a named set. A name that is not declared is left to `apply`. -/
def withSet (p : Package τ δ Call) (apply : Apply) (use : List String → Outcome Unit)
    (name : String) (v : Json) : Outcome Unit :=
  match p.set? name with
  | some values => use values
  | none => apply name v

def runCall (p : Package τ δ Call) (apply : Apply) : Call → Validator Unit
  | .boolean, v => verdict (Check.boolean.run v)
  | .string lo hi none format, v => verdict ((Check.string lo hi none format).run v)
  | .string lo hi (some set) format, v =>
    p.withSet apply (fun values => verdict ((Check.string lo hi (some values) format).run v)) set v
  | .integer lo hi, v => verdict ((Check.integer lo hi).run v)
  | .number lo hi, v => verdict ((Check.number lo hi).run v)
  | .array lo hi item, v => verdict (Validate.array lo hi (apply item) v)
  | .validator name, v => apply name v

/-- The members outside the excluded set, if they are looked at. -/
def runOthers (p : Package τ δ Call) (apply : Apply) : Option MapStep → Validator Unit
  | none, _ => .ok ()
  | some step, v =>
    let others (exclude : List String) :=
      Outcome.within .additional (verdict (Validate.typedMap exclude (apply step.validator) v))
    match step.exclude with
    | none => others []
    | some set => p.withSet apply others set v

/-- The declared properties in order, up to the first failure. -/
def runSteps (p : Package τ δ Call) (apply : Apply) (owner : String)
    (members : List (String × Json)) : List (PropertyStep Call) → Outcome Unit
  | [] => .ok ()
  | step :: rest =>
    match Members.get? step.key members with
    | none =>
      if step.required then refuse (.missing step.key owner)
      else runSteps p apply owner members rest
    | some v => do
      Outcome.within (.property step.key) (p.runCall apply step.call v)
      runSteps p apply owner members rest

def runObject (p : Package τ δ Call) (apply : Apply) (owner : String) (b : ObjectBody Call) :
    Validator Unit := fun v => do
  let members ← Validate.object v
  p.runOthers apply b.additional v
  p.runSteps apply owner members b.properties

def runFunction (p : Package τ δ Call) (apply : Apply) (f : Function τ Call) : Validator Unit :=
  match f.body with
  | .object b => p.runObject apply f.schema b
  | .result call => p.runCall apply call

/-- Every validator replaced by its body. -/
def unroll (p : Package τ δ Call) (apply : Apply) : Apply := fun name v =>
  match p.function? name with
  | some f => p.runFunction apply f v
  | none => apply name v

/-- The outcome of a validator. -/
def Runs (p : Package τ δ Call) (name : String) (v : Json) (r : Outcome Unit) : Prop :=
  Settles p.unroll (fun apply => apply name v) r

theorem runs_unique {p : Package τ δ Call} {name : String} {v : Json} {r s : Outcome Unit}
    (first : p.Runs name v r) (second : p.Runs name v s) : r = s :=
  settles_unique first second

/-- A validator that hands its value on to itself never ends. -/
theorem no_outcome_of_self_call {p : Package τ δ Call} {f : Function τ Call} {v : Json}
    (found : p.function? f.name = some f) (body : f.body = .result (.validator f.name)) :
    ¬ ∃ r, p.Runs f.name v r := by
  rintro ⟨r, depth, ends⟩
  -- However deep the validator is unrolled, only the limit answers.
  have asks : ∀ apply : Apply, p.unroll^[depth] apply f.name v = apply f.name v := by
    intro apply
    clear ends
    induction depth with
    | zero => rfl
    | succ depth ih =>
      rw [Function.iterate_succ_apply', unroll, found]
      simp only [runFunction, body, runCall]
      exact ih
  have yes := (asks fun _ _ => .ok ()).symm.trans (ends _)
  have no := (asks fun _ _ => refuse .nullJson).symm.trans (ends _)
  rw [← yes] at no
  simp [refuse] at no

end Package

end Code

end SchemaForge
