import Mathlib.Data.Fintype.Basic
import Mathlib.Logic.Function.Basic
import Mathlib.Logic.Relation
import SchemaForge.Proofs.Writing

/-!
Writes to one output directory, side by side. Each call takes the steps of a write; the steps of
several calls come in any order, and a call may fail or be canceled between any two of them. At
every moment a target holds what it held at first or the whole content of one call. A call that
fails has changed no target, and when all calls are finished their temporary files are gone.
-/
namespace SchemaForge

open Relation (ReflTransGen)

/-! ### Calls side by side -/

/-- A call to write a file below an output directory. -/
structure WriteCall where
  name : String
  content : Bytes

/-- The write that a call stands for, unless its name is refused. -/
def OutputDirectory.request (d : OutputDirectory) (t : FileTree) (c : WriteCall) :
    Except WriteError Write :=
  (d.resolve t c.name).map fun target => ⟨c.name, target, c.content, d.fileMode, d.noClobber⟩

/-- How far each of several calls has come, with the tree that they share. -/
structure Session (ι : Type) where
  tree : FileTree
  progress : ι → Write.Progress

section Calls
variable {ι : Type}

/-- A call with a refused name fails before it touches the tree. -/
def Session.start (d : OutputDirectory) (calls : ι → WriteCall) (t : FileTree) : Session ι where
  tree := t
  progress i :=
    match d.request t (calls i) with
    | .error e => .finished (.error e)
    | .ok _ => .begun

def Session.Held (s : Session ι) (l : Location) : Prop := ∃ i, (s.progress i).held? = some l

/-- Calls that do not get in each other's way: none is for the root itself or has the name of a
    temporary file, and no file of one is a directory on the way of another. -/
structure Apart (calls : ι → WriteCall) : Prop where
  below : ∀ i, (calls i).name ≠ "."
  lasting : ∀ i, ¬ Temporary.IsName (Path.base (calls i).name)
  beside : ∀ i j, Path.segments (calls i).name <+: Path.segments (calls j).name →
    (calls i).name = (calls j).name

/-! ### Where the calls write -/

variable {d : OutputDirectory} {calls : ι → WriteCall} {t t' : FileTree} {i j : ι} {w v : Write}

theorem request_ok {c : WriteCall} (request : d.request t c = .ok w) :
    Path.fault? c.name = none ∧
      w = ⟨c.name, t.locate (Path.join [d.root, c.name]), c.content, d.fileMode, d.noClobber⟩ := by
  unfold OutputDirectory.request OutputDirectory.resolve at request
  cases valid : Path.fault? c.name with
  | some fault => simp [valid, Except.map] at request
  | none => exact ⟨rfl, by simpa [valid, Except.map] using request.symm⟩

theorem request_target (request : d.request t (calls i) = .ok w) (other : (calls i).name ≠ ".") :
    w.target = t.locate d.root ++ Path.segments (calls i).name := by
  obtain ⟨valid, rfl⟩ := request_ok request
  exact t.locate_below d.root (Path.descends_of_valid valid other).names

/-- Only the working directory matters for what a call stands for. -/
theorem request_here (same : t'.here = t.here) (c : WriteCall) :
    d.request t' c = d.request t c := by
  unfold OutputDirectory.request OutputDirectory.resolve FileTree.locate
  rw [same]

theorem request_same {c c' : WriteCall} (same : c.name = c'.name) (first : d.request t c = .ok w)
    (second : d.request t c' = .ok v) : w.target = v.target := by
  rw [(request_ok first).2, (request_ok second).2, same]

namespace Apart

theorem target_eq (apart : Apart calls) (request : d.request t (calls i) = .ok w) :
    w.target = t.locate d.root ++ Path.segments (calls i).name :=
  request_target request (apart.below i)

theorem not_temporary (apart : Apart calls) (request : d.request t (calls i) = .ok w)
    {name : String} (named : Temporary.IsName name) (dir : Location) :
    w.target ≠ dir ++ [name] := by
  intro same
  have descends := Path.descends_of_valid (request_ok request).1 (apart.below i)
  rw [apart.target_eq request, descends.segments_eq, ← List.append_assoc] at same
  have last := (List.append_inj' same rfl).2
  exact apart.lasting i ((List.cons.inj last).1 ▸ named)

theorem not_above (apart : Apart calls) (request : d.request t (calls i) = .ok w)
    (other : d.request t (calls j) = .ok v) : ¬ w.target <+: v.directory := by
  intro above
  have shorter := above.length_le
  have inside := above.trans (List.dropLast_prefix v.target)
  rw [apart.target_eq request, apart.target_eq other, List.prefix_append_right_inj] at inside
  have targets := request_same (apart.beside i j inside) request other
  have some_ : v.target ≠ [] := by simp [apart.target_eq other, Path.segments_ne_nil]
  have positive := List.length_pos_iff.mpr some_
  rw [targets, Write.directory, List.length_dropLast] at shorter
  omega

theorem name_eq (apart : Apart calls) (request : d.request t (calls i) = .ok w)
    (other : d.request t (calls j) = .ok v) (same : w.target = v.target) :
    (calls i).name = (calls j).name := by
  rw [apart.target_eq request, apart.target_eq other] at same
  exact (Path.descends_of_valid (request_ok request).1 (apart.below i)).eq_of_segments
    (Path.descends_of_valid (request_ok other).1 (apart.below j)) (List.append_cancel_left same)

end Apart

/-! ### Steps of the calls -/

section Steps
variable [DecidableEq ι]

/-- The session after one call has come further. -/
def Session.after (s : Session ι) (i : ι) (p : Write.Progress) (t : FileTree) : Session ι where
  tree := t
  progress := Function.update s.progress i p

theorem Session.after_self (s : Session ι) (i : ι) (p : Write.Progress) (t : FileTree) :
    (s.after i p t).progress i = p :=
  Function.update_self ..

theorem Session.after_other {s : Session ι} {i j : ι} {p : Write.Progress} {t : FileTree}
    (other : j ≠ i) : (s.after i p t).progress j = s.progress j :=
  Function.update_of_ne other ..

/-- One call takes a step. -/
inductive Session.Moves (d : OutputDirectory) (calls : ι → WriteCall) (i : ι) :
    Session ι → Session ι → Prop
  | move {s : Session ι} {w : Write} {p : Write.Progress} {t : FileTree}
      (request : d.request s.tree (calls i) = .ok w)
      (moved : w.Moves s.Held (s.progress i, s.tree) (p, t)) :
      Moves d calls i s (s.after i p t)

/-- Steps of the calls in any order. -/
def Session.Run (d : OutputDirectory) (calls : ι → WriteCall) : Session ι → Session ι → Prop :=
  ReflTransGen fun s s' => ∃ i, Session.Moves d calls i s s'

end Steps

/-! ### What every step keeps -/

/-- The target of a call holds what it held at first and no call for it has written yet, or it
    holds the whole content of one that has. -/
def Session.Intact (d : OutputDirectory) (calls : ι → WriteCall) (t : FileTree) (s : Session ι)
    (i : ι) (target : Location) : Prop :=
  (s.tree.entry? target = t.entry? target ∧
      ∀ j, (calls j).name = (calls i).name → ¬ (s.progress j).Published) ∨
    ∃ j, (calls j).name = (calls i).name ∧ (s.progress j).Published ∧
      s.tree.entry? target = some (.file (calls j).content d.fileMode)

structure Session.Sound (d : OutputDirectory) (calls : ι → WriteCall) (t : FileTree)
    (s : Session ι) : Prop where
  here : s.tree.here = t.here
  temporary : ∀ i l, (s.progress i).held? = some l → t.entry? l = none ∧
    ∃ w name, d.request t (calls i) = .ok w ∧ Temporary.IsName name ∧ l = w.directory ++ [name]
  own : ∀ i j l, (s.progress i).held? = some l → (s.progress j).held? = some l → i = j
  stage : ∀ i w, d.request t (calls i) = .ok w → w.Stage s.tree (s.progress i)
  intact : ∀ i w, d.request t (calls i) = .ok w → s.Intact d calls t i w.target
  first : d.noClobber = true → ∀ i j, (s.progress i).Published → (s.progress j).Published →
    (calls i).name = (calls j).name → i = j
  others : ∀ l, (∀ i w, d.request t (calls i) = .ok w → l ≠ w.target) → ¬ s.Held l →
    s.tree.entry? l = t.entry? l ∨ (t.entry? l = none ∧ s.tree.entry? l = some .directory)

namespace Session.Sound

variable {s : Session ι}

theorem start (d : OutputDirectory) (calls : ι → WriteCall) (t : FileTree) :
    (Session.start d calls t).Sound d calls t := by
  have none_held : ∀ i, ((Session.start d calls t).progress i).held? = none := by
    intro i
    simp only [Session.start]
    split <;> rfl
  have unpublished : ∀ i, ¬ ((Session.start d calls t).progress i).Published := by
    intro i
    simp only [Session.start]
    split <;> simp [Write.Progress.published_iff]
  refine ⟨rfl, fun i l held => ?_, fun i j l held => ?_, fun i w request => ?_, fun i w _ => ?_,
    fun _ i j now => absurd now (unpublished i), fun l _ _ => .inl rfl⟩
  · rw [none_held i] at held
    cases held
  · rw [none_held i] at held
    cases held
  · simp only [Session.start, request]
    exact trivial
  · exact .inl ⟨rfl, fun j _ => unpublished j⟩

/-- No target is a temporary file. -/
theorem target_not_held (sound : s.Sound d calls t) (apart : Apart calls)
    (request : d.request t (calls i) = .ok w) : ¬ s.Held w.target := by
  rintro ⟨j, held⟩
  obtain ⟨-, v, name, -, named, place⟩ := sound.temporary j _ held
  exact apart.not_temporary request named _ place

variable {p : Write.Progress}

/-- A step changes no target but its own, and that only to publish. -/
theorem target_change (sound : s.Sound d calls t) (apart : Apart calls)
    (request : d.request t (calls i) = .ok w)
    (effect : w.Effect s.Held (s.progress i) p s.tree t')
    (other : d.request t (calls j) = .ok v) :
    t'.entry? v.target = s.tree.entry? v.target ∨
      (v.target = w.target ∧ ¬ (s.progress i).Published ∧ p.Published) := by
  rcases effect.changes v.target with same | ⟨-, -, above⟩ | held | ⟨here, before, now⟩
  · exact .inl same
  · exact absurd above (apart.not_above other request)
  · exfalso
    rcases held with held | held
    · exact sound.target_not_held apart other ⟨i, held⟩
    · rcases effect.held _ held with held | ⟨-, -, name, named, place⟩
      · exact sound.target_not_held apart other ⟨i, held⟩
      · exact apart.not_temporary other named _ place
  · exact .inr ⟨here, before, now⟩

/-- What a step leaves of the temporary files of other calls. -/
theorem held_kept (sound : s.Sound d calls t) (apart : Apart calls)
    (request : d.request t (calls i) = .ok w)
    (effect : w.Effect s.Held (s.progress i) p s.tree t') (other : j ≠ i) {l : Location}
    {e : FileEntry} (held : (s.progress j).held? = some l) (there : s.tree.entry? l = some e) :
    t'.entry? l = some e := by
  rcases effect.changes l with same | ⟨absent, -⟩ | own | ⟨rfl, -⟩
  · rw [same, there]
  · rw [absent] at there
    cases there
  · exfalso
    rcases own with own | own
    · exact other (sound.own j i l held own)
    · rcases effect.held l own with own | ⟨-, unused, -⟩
      · exact other (sound.own j i l held own)
      · exact unused ⟨j, held⟩
  · exact absurd ⟨j, held⟩ (sound.target_not_held apart request)

section Step
variable [DecidableEq ι]

/-- The step of a call has the effects of a step of its write. -/
theorem moved_effect (sound : s.Sound d calls t) {s' : Session ι}
    (moved : Session.Moves d calls i s s') :
    ∃ w p t', s' = s.after i p t' ∧ d.request t (calls i) = .ok w ∧
      w.Effect s.Held (s.progress i) p s.tree t' := by
  obtain ⟨request, moved⟩ := moved
  rw [request_here sound.here] at request
  refine ⟨_, _, _, rfl, request, moved.effect (sound.stage i _ request) fun l held => ?_⟩
  obtain ⟨absent, -⟩ := sound.temporary i l held
  rw [sound.here]
  exact FileTree.not_above (by simp [absent])

theorem held_after {l : Location} (effect : w.Effect s.Held (s.progress i) p s.tree t')
    (held : ((s.after i p t').progress j).held? = some l) :
    (s.progress j).held? = some l ∨ (j = i ∧ s.tree.entry? l = none ∧ ¬ s.Held l ∧
      ∃ name, Temporary.IsName name ∧ l = w.directory ++ [name]) := by
  by_cases moving : j = i
  · subst moving
    rw [Session.after_self] at held
    exact (effect.held l held).imp_right fun fresh => ⟨rfl, fresh⟩
  · rw [Session.after_other moving] at held
    exact .inl held

theorem published_after (effect : w.Effect s.Held (s.progress i) p s.tree t')
    (published : (s.progress j).Published) : ((s.after i p t').progress j).Published := by
  by_cases moving : j = i
  · subst moving
    rw [Session.after_self]
    exact effect.kept published
  · rwa [Session.after_other moving]

theorem temporary_after (sound : s.Sound d calls t) (apart : Apart calls)
    (request : d.request t (calls i) = .ok w)
    (effect : w.Effect s.Held (s.progress i) p s.tree t') (j : ι) (l : Location)
    (held : ((s.after i p t').progress j).held? = some l) :
    t.entry? l = none ∧ ∃ w name, d.request t (calls j) = .ok w ∧ Temporary.IsName name ∧
      l = w.directory ++ [name] := by
  rcases held_after effect held with before | ⟨rfl, absent, unused, name, named, place⟩
  · exact sound.temporary j l before
  · refine ⟨?_, w, name, request, named, place⟩
    have other : ∀ k v, d.request t (calls k) = .ok v → l ≠ v.target := fun k v request =>
      place ▸ (apart.not_temporary request named _).symm
    rcases sound.others l other unused with same | ⟨none, -⟩
    · rw [← same, absent]
    · exact none

theorem own_after (sound : s.Sound d calls t)
    (effect : w.Effect s.Held (s.progress i) p s.tree t') (j k : ι) (l : Location)
    (first : ((s.after i p t').progress j).held? = some l)
    (second : ((s.after i p t').progress k).held? = some l) : j = k := by
  rcases held_after effect first with before | ⟨rfl, -, unused, -⟩
  · rcases held_after effect second with before' | ⟨rfl, -, unused, -⟩
    · exact sound.own j k l before before'
    · exact absurd ⟨j, before⟩ unused
  · rcases held_after effect second with before' | ⟨rfl, -⟩
    · exact absurd ⟨k, before'⟩ unused
    · rfl

theorem stage_after (sound : s.Sound d calls t) (apart : Apart calls)
    (request : d.request t (calls i) = .ok w)
    (effect : w.Effect s.Held (s.progress i) p s.tree t') (j : ι) (v : Write)
    (other : d.request t (calls j) = .ok v) :
    v.Stage t' ((s.after i p t').progress j) := by
  by_cases moving : j = i
  · subst moving
    obtain rfl := Except.ok.inj (request.symm.trans other)
    rw [Session.after_self]
    exact effect.stage
  · rw [Session.after_other moving]
    have stage := sound.stage j v other
    have kept := fun {l} {e} => sound.held_kept apart request effect moving (l := l) (e := e)
    cases progress : s.progress j with
    | filled l | permitted l =>
      rw [progress] at stage
      exact kept (by rw [progress]; rfl) stage
    | begun | prepared | opened | closing | finished => exact trivial

theorem intact_after (sound : s.Sound d calls t) (apart : Apart calls)
    (request : d.request t (calls i) = .ok w)
    (effect : w.Effect s.Held (s.progress i) p s.tree t') (k : ι) (v : Write)
    (other : d.request t (calls k) = .ok v) :
    (s.after i p t').Intact d calls t k v.target := by
  by_cases writes : (calls i).name = (calls k).name ∧ ¬ (s.progress i).Published ∧ p.Published
  · obtain ⟨name, before, now⟩ := writes
    obtain ⟨whole, -⟩ := (effect.publishes now).resolve_left before
    refine .inr ⟨i, name, by rwa [Session.after_self], ?_⟩
    rw [← request_same name request other]
    exact whole.trans (by rw [(request_ok request).2])
  · have same : t'.entry? v.target = s.tree.entry? v.target := by
      refine (sound.target_change apart request effect other).resolve_right ?_
      rintro ⟨here, before, now⟩
      exact writes ⟨apart.name_eq request other here.symm, before, now⟩
    rcases sound.intact k v other with ⟨initial, none⟩ | ⟨j, name, published, whole⟩
    · refine .inl ⟨same.trans initial, fun j name now => ?_⟩
      by_cases moving : j = i
      · subst moving
        rw [Session.after_self] at now
        exact writes ⟨name, none j name, now⟩
      · rw [Session.after_other moving] at now
        exact none j name now
    · exact .inr ⟨j, name, published_after effect published, same.trans whole⟩

/-- A call that links to its target is the first to write there. -/
theorem first_after (sound : s.Sound d calls t) (request : d.request t (calls i) = .ok w)
    (effect : w.Effect s.Held (s.progress i) p s.tree t') (only : d.noClobber = true) (j k : ι)
    (first : ((s.after i p t').progress j).Published)
    (second : ((s.after i p t').progress k).Published)
    (name : (calls j).name = (calls k).name) : j = k := by
  have alone : ∀ k, k ≠ i → (s.progress k).Published → (calls k).name = (calls i).name →
      ¬ p.Published := by
    intro k other published name now
    rcases effect.publishes now with before | ⟨-, absent⟩
    · exact other (sound.first only k i published before name)
    · have absent := absent (by rw [(request_ok request).2]; exact only)
      rcases sound.intact i w request with ⟨-, none⟩ | ⟨_, _, _, whole⟩
      · exact none k name published
      · rw [absent] at whole
        cases whole
  by_cases moving : j = i
  · by_cases moving' : k = i
    · rw [moving, moving']
    · rw [moving, Session.after_self] at first
      rw [Session.after_other moving'] at second
      exact absurd first (alone k moving' second (moving ▸ name.symm))
  · rw [Session.after_other moving] at first
    by_cases moving' : k = i
    · rw [moving', Session.after_self] at second
      exact absurd second (alone j moving first (moving' ▸ name))
    · rw [Session.after_other moving'] at second
      exact sound.first only j k first second name

theorem others_after (sound : s.Sound d calls t) (request : d.request t (calls i) = .ok w)
    (effect : w.Effect s.Held (s.progress i) p s.tree t') (l : Location)
    (other : ∀ j v, d.request t (calls j) = .ok v → l ≠ v.target)
    (free : ∀ j, ((s.after i p t').progress j).held? ≠ some l) :
    t'.entry? l = t.entry? l ∨ (t.entry? l = none ∧ t'.entry? l = some .directory) := by
  have free_now : p.held? ≠ some l := Session.after_self s i p t' ▸ free i
  by_cases was : (s.progress i).held? = some l
  · -- the call has just removed its temporary file
    have gone := (effect.released l was).resolve_left free_now
    exact .inl (gone.trans (sound.temporary i l was).1.symm)
  · have unheld : ¬ s.Held l := by
      rintro ⟨j, held⟩
      by_cases moving : j = i
      · exact was (moving ▸ held)
      · exact free j (by rwa [Session.after_other moving])
    have before := sound.others l other unheld
    rcases effect.changes l with same | ⟨absent, made, -⟩ | own | ⟨here, -⟩
    · rwa [same]
    · refine .inr ⟨?_, made⟩
      rcases before with same | ⟨none, -⟩
      · rw [← same, absent]
      · exact none
    · exact absurd own (not_or.mpr ⟨was, free_now⟩)
    · exact absurd here (other i w request)

theorem step (sound : s.Sound d calls t) (apart : Apart calls) {s' : Session ι}
    (moved : Session.Moves d calls i s s') : s'.Sound d calls t := by
  obtain ⟨w, p, t', rfl, request, effect⟩ := sound.moved_effect moved
  exact ⟨effect.here.trans sound.here, sound.temporary_after apart request effect,
    sound.own_after effect, sound.stage_after apart request effect,
    sound.intact_after apart request effect, sound.first_after request effect,
    fun l other free => sound.others_after request effect l other fun j held => free ⟨j, held⟩⟩

theorem run (sound : s.Sound d calls t) (apart : Apart calls) {s' : Session ι}
    (ran : Session.Run d calls s s') : s'.Sound d calls t := by
  induction ran with
  | refl => exact sound
  | tail _ moved ih =>
    obtain ⟨i, moved⟩ := moved
    exact ih.step apart moved

/-- A step changes a target only if its call has published by then; where nothing may be replaced,
    nothing was there before. -/
theorem target_step (sound : s.Sound d calls t) (apart : Apart calls) {s' : Session ι}
    (moved : Session.Moves d calls i s s') (other : d.request t (calls j) = .ok v) :
    s'.tree.entry? v.target = s.tree.entry? v.target ∨
      ((s'.progress i).Published ∧ (d.noClobber = true → s.tree.entry? v.target = none)) := by
  obtain ⟨w, p, t', rfl, request, effect⟩ := sound.moved_effect moved
  refine (sound.target_change apart request effect other).imp_right ?_
  rintro ⟨here, before, now⟩
  obtain ⟨-, absent⟩ := (effect.publishes now).resolve_left before
  rw [Session.after_self, here]
  exact ⟨now, fun only => absent (by rw [(request_ok request).2]; exact only)⟩

theorem published_run (sound : s.Sound d calls t) (apart : Apart calls) {s' : Session ι}
    (ran : Session.Run d calls s s') (published : (s.progress i).Published) :
    (s'.progress i).Published := by
  induction ran with
  | refl => exact published
  | tail before moved ih =>
    obtain ⟨j, moved⟩ := moved
    obtain ⟨w, p, t', rfl, -, effect⟩ := (sound.run apart before).moved_effect moved
    exact published_after effect ih

/-- Where nothing may be replaced, what is there stays. -/
theorem kept_run (sound : s.Sound d calls t) (apart : Apart calls) (only : d.noClobber = true)
    (request : d.request t (calls i) = .ok w) {s' : Session ι} (ran : Session.Run d calls s s')
    (there : (s.tree.entry? w.target).isSome) :
    s'.tree.entry? w.target = s.tree.entry? w.target := by
  induction ran with
  | refl => rfl
  | tail before moved ih =>
    obtain ⟨j, moved⟩ := moved
    rcases (sound.run apart before).target_step apart moved request with same | ⟨-, absent⟩
    · exact same.trans ih
    · rw [← ih, absent only] at there
      cases there

end Step

end Session.Sound

/-! ### Atomic writes -/

section Atomic
variable [DecidableEq ι]

/-- What holds at a moment of a session that began with a tree, whatever may follow. -/
structure Session.Atomic (d : OutputDirectory) (calls : ι → WriteCall) (t : FileTree)
    (s : Session ι) : Prop where
  /-- A target holds what it held at first, or the whole content of one call. -/
  whole : ∀ i w, d.request t (calls i) = .ok w →
    s.tree.entry? w.target = t.entry? w.target ∨
      ∃ j, (calls j).name = (calls i).name ∧ (s.progress j).Published ∧
        s.tree.entry? w.target = some (.file (calls j).content d.fileMode)
  /-- No step of a call that ends in an error changes a target. -/
  failed : ∀ i s' s'' e, Session.Moves d calls i s s' → Session.Run d calls s' s'' →
    s''.progress i = .finished (.error e) → ∀ j w, d.request t (calls j) = .ok w →
      s'.tree.entry? w.target = s.tree.entry? w.target
  /-- The target of a call that has succeeded holds the content of one that has: its own, if
      nothing may be replaced. -/
  written : ∀ i w, d.request t (calls i) = .ok w → s.progress i = .finished (.ok ()) →
    ∃ j, (calls j).name = (calls i).name ∧ (s.progress j).Published ∧
      s.tree.entry? w.target = some (.file (calls j).content d.fileMode) ∧
      (d.noClobber = true → j = i)
  /-- Where nothing may be replaced, a target that is there stays as it is. -/
  kept : d.noClobber = true → ∀ i w s', d.request t (calls i) = .ok w → Session.Run d calls s s' →
    (s.tree.entry? w.target).isSome → s'.tree.entry? w.target = s.tree.entry? w.target
  /-- Where nothing may be replaced, one call succeeds for each target. -/
  once : d.noClobber = true → ∀ i j, s.progress i = .finished (.ok ()) →
    s.progress j = .finished (.ok ()) → (calls i).name = (calls j).name → i = j
  /-- When all calls are finished, nothing but the targets has changed except for directories that
      are new: no temporary file is left. -/
  clean : (∀ i, ∃ outcome, s.progress i = .finished outcome) →
    ∀ l, (∀ i w, d.request t (calls i) = .ok w → l ≠ w.target) →
      s.tree.entry? l = t.entry? l ∨ (t.entry? l = none ∧ s.tree.entry? l = some .directory)

/-- Writes to one output directory are atomic, in whatever order the steps of the calls come and
    wherever calls fail. -/
theorem writes_atomic (d : OutputDirectory) (calls : ι → WriteCall) (t : FileTree)
    (apart : Apart calls) {s : Session ι} (ran : Session.Run d calls (.start d calls t) s) :
    s.Atomic d calls t := by
  have sound := (Session.Sound.start d calls t).run apart ran
  refine ⟨fun i w request => ?_, fun i s' s'' e moved later ended j w request => ?_,
    fun i w request succeeded => ?_,
    fun only i w s' request later => sound.kept_run apart only request later,
    fun only i j first second => ?_, fun finished l other => ?_⟩
  · exact (sound.intact i w request).imp_left And.left
  · refine (sound.target_step apart moved request).resolve_right fun ⟨published, _⟩ => ?_
    have published := (sound.step apart moved).published_run apart later published
    rw [ended] at published
    cases published
  · have published : (s.progress i).Published := succeeded ▸ .finished
    rcases sound.intact i w request with ⟨-, none⟩ | ⟨j, name, before, whole⟩
    · exact absurd published (none i rfl)
    · exact ⟨j, name, before, whole, fun only => sound.first only j i before published name⟩
  · exact sound.first only i j (first ▸ .finished) (second ▸ .finished)
  · refine sound.others l other fun ⟨i, held⟩ => ?_
    obtain ⟨outcome, ended⟩ := finished i
    rw [ended] at held
    cases held

end Atomic

/-! ### Schedules -/

section Schedules
variable [Fintype ι] [DecidableEq ι]

instance (s : Session ι) (l : Location) : Decidable (s.Held l) :=
  inferInstanceAs (Decidable (∃ i, (s.progress i).held? = some l))

/-- A call takes its plain step. It waits while the name that it would choose for its temporary file
    is another's. -/
def Session.advance (d : OutputDirectory) (calls : ι → WriteCall) (s : Session ι) (i : ι)
    (canceled : Bool) : Session ι :=
  match d.request s.tree (calls i) with
  | .error _ => s
  | .ok w =>
    let (p, t) := w.step canceled s.tree (s.progress i)
    match s.progress i with
    | .prepared => if s.Held (Temporary.fresh s.tree w.directory) then s else s.after i p t
    | _ => s.after i p t

/-- The calls take plain steps by turns. -/
def Session.play (d : OutputDirectory) (calls : ι → WriteCall) (s : Session ι)
    (turns : List (ι × Bool)) : Session ι :=
  turns.foldl (fun s turn => s.advance d calls turn.1 turn.2) s

theorem Session.advance_run (s : Session ι) (i : ι) (canceled : Bool) :
    Session.Run d calls s (s.advance d calls i canceled) := by
  unfold Session.advance
  cases request : d.request s.tree (calls i) with
  | error e => exact .refl
  | ok w =>
    simp only
    split
    · rename_i ready
      split
      · exact .refl
      · rename_i unused
        obtain ⟨n, place⟩ := Temporary.freshFrom_named s.tree w.directory 0
          (s.tree.entries.length + 1)
        have place : Temporary.fresh s.tree w.directory = w.directory ++ [Temporary.name n] := place
        have absent := Temporary.fresh_free s.tree w.directory
        rw [place] at absent unused
        refine .single ⟨i, .move request ?_⟩
        rw [ready, Write.step, place]
        exact .create ⟨Number.renderNat n, rfl⟩ absent unused
    · rename_i other
      exact .single ⟨i, .move request (.step canceled other)⟩

theorem Session.play_run (s : Session ι) (turns : List (ι × Bool)) :
    Session.Run d calls s (s.play d calls turns) := by
  induction turns generalizing s with
  | nil => exact .refl
  | cons turn rest ih => exact (s.advance_run turn.1 turn.2).trans (ih _)

end Schedules

end Calls

/-! ### A call that is alone -/

section Alone
variable {d : OutputDirectory} {c : WriteCall} {w : Write}

theorem Session.advance_alone {s : Session Unit} (request : d.request s.tree c = .ok w)
    (canceled : Bool) :
    s.advance d (fun _ => c) () canceled =
      ⟨(w.step canceled s.tree (s.progress ())).2,
        fun _ => (w.step canceled s.tree (s.progress ())).1⟩ := by
  have only : ∀ p t, s.after () p t = ⟨t, fun _ => p⟩ := fun p t =>
    congrArg (Session.mk t) (funext fun _ => Function.update_self ..)
  unfold Session.advance
  rw [request]
  simp only [only]
  split
  · rename_i ready
    rw [if_neg]
    rintro ⟨_, held⟩
    rw [ready] at held
    cases held
  · rfl

theorem Session.play_alone {s : Session Unit} (request : d.request s.tree c = .ok w)
    (canceled : Bool) (n : Nat) :
    s.play d (fun _ => c) (List.replicate n ((), canceled)) =
      ⟨(w.advance canceled n (s.progress (), s.tree)).2,
        fun _ => (w.advance canceled n (s.progress (), s.tree)).1⟩ := by
  induction n generalizing s with
  | zero => rfl
  | succ n ih =>
    have next := s.advance_alone request canceled
    have still : d.request (s.advance d (fun _ => c) () canceled).tree c = .ok w := by
      rw [next, request_here (w.step_here canceled s.tree (s.progress ())), request]
    have rest := ih still
    rw [next] at rest
    rw [List.replicate_succ, Session.play, List.foldl_cons, next]
    exact rest

/-- A call that is alone ends as the plain write does. -/
theorem write_alone (d : OutputDirectory) (c : WriteCall) (canceled : Bool) (t : FileTree) :
    ∃ s : Session Unit, Session.Run d (fun _ => c) (.start d (fun _ => c) t) s ∧
      s.tree = (d.write canceled c.name c.content t).2 ∧
      s.progress () = .finished (d.write canceled c.name c.content t).1 := by
  cases resolved : d.resolve t c.name with
  | error e =>
    have request : d.request t c = .error e := by
      simp [OutputDirectory.request, resolved, Except.map]
    refine ⟨_, .refl, ?_⟩
    simp [Session.start, request, OutputDirectory.write, resolved]
  | ok target =>
    let w : Write := ⟨c.name, target, c.content, d.fileMode, d.noClobber⟩
    have request : d.request t c = .ok w := by
      simp [OutputDirectory.request, resolved, Except.map, w]
    have begun : (Session.start d (fun _ : Unit => c) t).progress () = .begun := by
      simp [Session.start, request]
    have whole : d.write canceled c.name c.content t = w.run canceled t := by
      simp [OutputDirectory.write, resolved, w]
    have played : (Session.start d (fun _ : Unit => c) t).play d (fun _ => c)
        (List.replicate Write.steps ((), canceled)) =
          ⟨(w.run canceled t).2, fun _ => .finished (w.run canceled t).1⟩ := by
      rw [Session.play_alone (s := .start d (fun _ => c) t) request, begun, Session.start,
        w.advance_finished]
    rw [whole]
    refine ⟨_, Session.play_run _ (List.replicate Write.steps ((), canceled)), ?_⟩
    rw [played]
    exact ⟨rfl, rfl⟩

end Alone

namespace Session

namespace Sample

def output : OutputDirectory := ⟨"gen", 0, true⟩

def before : FileTree := (FileTree.mk ["", "w"] []).place "gen/old.go" [0]

/-- Two calls for one file and one for another. -/
def calls : Fin 3 → WriteCall
  | 0 => ⟨"a.go", [1]⟩
  | 1 => ⟨"a.go", [2]⟩
  | 2 => ⟨"b/c.go", [3]⟩

/-- All calls have their temporary files before the first one publishes; the last is canceled. -/
def turns : List (Fin 3 × Bool) :=
  (List.range 4).flatMap (fun _ => [(0, false), (1, false), (2, false)]) ++
    [(0, false), (1, false), (2, true), (2, false), (1, false), (0, false)]

def ended : Session (Fin 3) := (Session.start output calls before).play output calls turns

theorem calls_apart : Apart calls := by
  refine ⟨by decide, fun i ⟨middle, same⟩ => ?_, by decide +kernel⟩
  have letters : ∀ i, (Path.base (calls i).name).toList.head? ≠ some '.' := by decide +kernel
  exact letters i (by simp [same])

end Sample

theorem writers_racing :
    Sample.ended.tree.entry? ["", "w", "gen", "a.go"] = some (.file [1] 0o644) ∧
      (∀ i, (Sample.ended.progress i).held? = none ∧
        ((Sample.ended.progress i).Published ↔ i = 0)) ∧
      Sample.ended.Atomic Sample.output Sample.calls Sample.before := by
  refine ⟨by decide +kernel, by decide +kernel, ?_⟩
  exact writes_atomic _ _ _ Sample.calls_apart (play_run _ _)

end Session

end SchemaForge
