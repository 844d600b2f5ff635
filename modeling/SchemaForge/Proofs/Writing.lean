import SchemaForge.Proofs.Publishing

/-!
The steps of one write, taken among the steps of others. Besides its plain steps a write may fail
between any two of them, and it may take longer over one. Whatever a step is, it changes nothing but
directories that are missing, the temporary file that the write holds, and the target when it
publishes.
-/
namespace SchemaForge

/-- A name as temporary files have it. -/
def Temporary.IsName (s : String) : Prop := ∃ middle, s = ".jsvgen-" ++ middle ++ ".tmp"

namespace Write

def Progress.held? : Progress → Option Location
  | .opened l | .filled l | .permitted l | .closing l _ => some l
  | .begun | .prepared | .finished _ => none

/-- The target has been given its new content. -/
inductive Progress.Published : Progress → Prop
  | closing (l : Location) : Published (.closing l (.ok ()))
  | finished : Published (.finished (.ok ()))

theorem Progress.published_iff {p : Progress} :
    p.Published ↔ p = .finished (.ok ()) ∨ ∃ l, p = .closing l (.ok ()) := by
  constructor
  · rintro (l | _)
    · exact .inr ⟨l, rfl⟩
    · exact .inl rfl
  · rintro (rfl | ⟨l, rfl⟩)
    · exact .finished
    · exact .closing l

instance : DecidablePred Progress.Published
  | .closing l (.ok ()) => isTrue (.closing l)
  | .finished (.ok ()) => isTrue .finished
  | .closing _ (.error _) | .finished (.error _) => isFalse nofun
  | .begun | .prepared | .opened _ | .filled _ | .permitted _ => isFalse nofun

/-- A write that fails is finished, once it has removed its temporary file. -/
def Progress.fail (e : WriteError) : Progress → Progress
  | .begun | .prepared => .finished (.error e)
  | .opened l | .filled l | .permitted l => .closing l (.error e)
  | .closing l outcome => .closing l outcome
  | .finished outcome => .finished outcome

/-- One step of a write among others. Besides the plain steps it may make its directories one by
    one, write its content in pieces, and fail with any error as long as there is something left
    to do but the removal. The temporary file may have any name that no file has and that no
    running write has chosen: `used` holds of the places that are chosen. -/
inductive Moves (w : Write) (used : Location → Prop) :
    Progress × FileTree → Progress × FileTree → Prop
  | step {p : Progress} {t : FileTree} (canceled : Bool) (other : p ≠ .prepared) :
      Moves w used (p, t) (w.step canceled t p)
  | makeDirectories {t t' : FileTree} (n : Nat)
      (made : t.makeDirectories (w.directory.take n) = .ok t') :
      Moves w used (.begun, t) (.begun, t')
  | create {t : FileTree} {name : String} (named : Temporary.IsName name)
      (absent : t.entry? (w.directory ++ [name]) = none) (unused : ¬ used (w.directory ++ [name])) :
      Moves w used (.prepared, t)
        (.opened (w.directory ++ [name]), t.put (w.directory ++ [name]) (.file [] 0o600))
  | write {t : FileTree} {l : Location} (n : Nat) :
      Moves w used (.opened l, t) (.opened l, t.put l (.file (w.content.take n) 0o600))
  | fail {p : Progress} {t : FileTree} (e : WriteError) : Moves w used (p, t) (p.fail e, t)

-- A name that is merely absent will not do. A file that has been renamed leaves its name free
-- before its own write comes to the removal: a second write may choose the name, lose its file to
-- that removal, and publish what a third one has just begun under the name.
example :
    let a : Write := ⟨"a", ["", "a"], [1], 0o644, false⟩
    let b : Write := ⟨"b", ["", "b"], [2], 0o644, false⟩
    let c : Write := ⟨"c", ["", "c"], [3], 0o644, false⟩
    let renamed := a.advance false 5 (.begun, ⟨[""], []⟩)
    let permitted := b.advance false 4 (.begun, renamed.2)
    let removed := a.step false permitted.2 renamed.1
    let opened := c.advance false 2 (.begun, removed.2)
    FileTree.entry? (b.step false opened.2 permitted.1).2 ["", "b"] = some (.file [] 0o600) := by
  decide +kernel

/-- What the temporary file holds. -/
def Stage (w : Write) (t : FileTree) : Progress → Prop
  | .filled l => t.entry? l = some (.file w.content 0o600)
  | .permitted l => t.entry? l = some (.file w.content w.mode)
  | _ => True

/-- What a step may have done at a place. -/
inductive Change (w : Write) (p p' : Progress) (t t' : FileTree) (l : Location) : Prop
  | none (same : t'.entry? l = t.entry? l)
  | directory (absent : t.entry? l = none) (made : t'.entry? l = some .directory)
      (above : l <+: w.directory)
  | temporary (own : p.held? = some l ∨ p'.held? = some l)
  | published (here : l = w.target) (before : ¬ p.Published) (now : p'.Published)

/-- What a step does, whichever it is. -/
structure Effect (w : Write) (used : Location → Prop) (p p' : Progress) (t t' : FileTree) :
    Prop where
  here : t'.here = t.here
  changes : ∀ l, Change w p p' t t' l
  stage : Stage w t' p'
  held : ∀ l, p'.held? = some l → p.held? = some l ∨
    (t.entry? l = none ∧ ¬ used l ∧ ∃ name, Temporary.IsName name ∧ l = w.directory ++ [name])
  released : ∀ l, p.held? = some l → p'.held? = some l ∨ t'.entry? l = none
  kept : p.Published → p'.Published
  publishes : p'.Published → p.Published ∨
    (t'.entry? w.target = some (.file w.content w.mode) ∧
      (w.noClobber = true → t.entry? w.target = none))

section Effects
variable {w : Write} {used : Location → Prop} {p p' : Progress} {t t' : FileTree} {l : Location}

/-- A step that leaves the tree alone. -/
theorem Effect.quiet (held : p'.held? = p.held?) (stage : Stage w t p')
    (published : p'.Published ↔ p.Published) : Effect w used p p' t t where
  here := rfl
  changes _ := .none rfl
  stage := stage
  held _ own := .inl (held ▸ own)
  released _ own := .inl (held ▸ own)
  kept := published.mpr
  publishes now := .inl (published.mp now)

/-- A step that puts something into the temporary file. -/
theorem Effect.fill {e : FileEntry} (own : p'.held? = some l)
    (held : p.held? = some l ∨ (p.held? = none ∧ t.entry? l = none ∧ ¬ used l ∧
      ∃ name, Temporary.IsName name ∧ l = w.directory ++ [name]))
    (stage : Stage w (t.put l e) p') (before : ¬ p.Published) (after : ¬ p'.Published) :
    Effect w used p p' t (t.put l e) where
  here := rfl
  changes k := by
    by_cases same : k = l
    · exact .temporary (.inr (same ▸ own))
    · exact .none (FileTree.entry_put_ne same)
  stage := stage
  held k mine := by
    obtain rfl := Option.some.inj (own.symm.trans mine)
    exact held.imp_right And.right
  released k mine := by
    rcases held with before | ⟨none, -⟩
    · obtain rfl := Option.some.inj (before.symm.trans mine)
      exact .inl own
    · rw [none] at mine
      cases mine
  kept now := absurd now before
  publishes now := absurd now after

theorem Effect.makeDirectories {n : Nat} (made : t.makeDirectories (w.directory.take n) = .ok t')
    (before : p = .begun) (after : p' = .begun ∨ p' = .prepared) : Effect w used p p' t t' := by
  subst before
  have held : p'.held? = none := by rcases after with rfl | rfl <;> rfl
  have unpublished : ¬ p'.Published := by rcases after with rfl | rfl <;> exact nofun
  refine ⟨(FileTree.makeDirectories_ok made).1, fun l => ?_, ?_, ?_, nofun, nofun, ?_⟩
  · rcases FileTree.makeDirectories_changes made l with same | ⟨absent, there, above⟩
    · exact .none same
    · exact .directory absent there (above.trans (List.take_prefix n _))
  · rcases after with rfl | rfl <;> exact trivial
  · intro l own
    rw [held] at own
    cases own
  · exact fun now => absurd now unpublished

theorem Effect.publish (published : w.publish l t = .ok t')
    (stage : t.entry? l = some (.file w.content w.mode)) :
    Effect w used (.permitted l) (.closing l (.ok ())) t t' := by
  obtain ⟨target, only, others⟩ := publish_entries published stage
  refine ⟨publish_here published, fun k => ?_, trivial, fun k own => .inl own,
    fun k own => .inl own, nofun, fun _ => .inr ⟨target, only⟩⟩
  by_cases mine : k = l
  · exact .temporary (.inl (mine ▸ rfl))
  · by_cases placed : k = w.target
    · exact .published placed nofun (.closing l)
    · exact .none (others k placed mine)

theorem Effect.remove {outcome : Except WriteError Unit} (free : l.isPrefixOf t.here = false) :
    Effect w used (.closing l outcome) (.finished outcome) t (t.erase l) where
  here := rfl
  changes k := by
    by_cases same : k = l
    · exact .temporary (.inl (same ▸ rfl))
    · exact .none (FileTree.entry_erase_ne same)
  stage := trivial
  held _ := nofun
  released k own := by
    obtain rfl := Option.some.inj own
    exact .inr (FileTree.entry_erase_self free)
  kept now := by
    cases now
    exact .finished
  publishes now := by
    cases now
    exact .inl (.closing l)

theorem Moves.effect (moved : w.Moves used (p, t) (p', t')) (stage : Stage w t p)
    (free : ∀ l, p.held? = some l → l.isPrefixOf t.here = false) : Effect w used p p' t t' := by
  generalize before : (p, t) = x at moved
  generalize after : (p', t') = y at moved
  cases moved with
  | makeDirectories n made =>
    cases before
    cases after
    exact .makeDirectories made rfl (.inl rfl)
  | create named absent unused =>
    cases before
    cases after
    exact .fill rfl (.inr ⟨rfl, absent, unused, _, named, rfl⟩) trivial
      (by simp [Progress.published_iff]) (by simp [Progress.published_iff])
  | write n =>
    cases before
    cases after
    exact .fill rfl (.inl rfl) trivial (by simp [Progress.published_iff])
      (by simp [Progress.published_iff])
  | fail e =>
    cases before
    cases after
    cases p with
    | begun | prepared | opened l | filled l | permitted l =>
      exact .quiet rfl trivial (by simp [Progress.published_iff, Progress.fail])
    | closing l outcome => exact .quiet rfl trivial Iff.rfl
    | finished outcome => exact .quiet rfl trivial Iff.rfl
  | step canceled other =>
    cases before
    cases p with
    | prepared => exact absurd rfl other
    | begun =>
      rw [Write.step] at after
      split at after
      · cases after
        exact .quiet rfl trivial (by simp [Progress.published_iff])
      · split at after
        · cases after
          exact .quiet rfl trivial (by simp [Progress.published_iff])
        · rename_i made
          cases after
          have whole : w.directory.take w.directory.length = w.directory := List.take_length
          exact .makeDirectories (whole.symm ▸ made) rfl (.inr rfl)
    | opened l =>
      cases after
      exact .fill rfl (.inl rfl) (FileTree.entry_put_self (free l rfl))
        (by simp [Progress.published_iff]) (by simp [Progress.published_iff])
    | filled l =>
      cases after
      exact .fill rfl (.inl rfl) (FileTree.entry_put_self (free l rfl))
        (by simp [Progress.published_iff]) (by simp [Progress.published_iff])
    | permitted l =>
      rw [Write.step] at after
      split at after
      · cases after
        exact .quiet rfl trivial (by simp [Progress.published_iff])
      · split at after
        · cases after
          exact .quiet rfl trivial (by simp [Progress.published_iff])
        · rename_i published
          cases after
          exact .publish published stage
    | closing l outcome =>
      cases after
      exact .remove (free l rfl)
    | finished outcome =>
      cases after
      exact .quiet rfl trivial Iff.rfl

end Effects

/-! ### Plain steps in a row -/

theorem step_here (w : Write) (canceled : Bool) (t : FileTree) (p : Progress) :
    (w.step canceled t p).2.here = t.here := by
  cases p with
  | begun =>
    rw [step]
    split
    · rfl
    · split
      · rfl
      · next made => exact (FileTree.makeDirectories_ok made).1
  | permitted l =>
    rw [step]
    split
    · rfl
    · split
      · rfl
      · next published => exact publish_here published
  | prepared | opened | filled | closing | finished => rfl

theorem advance_finished (w : Write) (canceled : Bool) (t : FileTree) :
    w.advance canceled steps (.begun, t) =
      (.finished (w.run canceled t).1, (w.run canceled t).2) := by
  obtain ⟨outcome, u, ended⟩ : ∃ outcome u,
      w.advance canceled steps (.begun, t) = (.finished outcome, u) := by
    cases canceled with
    | true => exact ⟨_, _, rfl⟩
    | false =>
      cases made : t.makeDirectories w.directory with
      | error e => exact ⟨.error (.makeDirectory e), t, by simp [steps, advance, step, made]⟩
      | ok u =>
        simp only [steps, advance, step, made, FileTree.put_again, Bool.false_eq_true, if_false]
        cases w.publish (Temporary.fresh u w.directory)
          (u.put (Temporary.fresh u w.directory) (.file w.content w.mode)) <;> exact ⟨_, _, rfl⟩
  rw [run, ended]

end Write

end SchemaForge
