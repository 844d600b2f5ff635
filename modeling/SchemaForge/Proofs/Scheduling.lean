import Mathlib.Logic.Relation
import SchemaForge.Proofs.Linking

/-!
The schemas of a section may be compiled by workers side by side. Each has its own slot: it checks
that the run is not canceled, compiles its schema and stores what came out; at most a given number
of them are active at a time, and the run may be canceled at any moment. Slots are read in section
order once all workers are finished. So every schedule ends as the plain run does, or in
cancellation.
-/
namespace SchemaForge.Compile

open Relation (ReflTransGen)

inductive Phase where
  | waiting
  | started
  | cleared
  | holding (result : Except CompileError Package)
  | finished

def Phase.active : Phase → Bool
  | .started | .cleared | .holding _ => true
  | .waiting | .finished => false

structure Worker where
  entry : Entry
  phase : Phase := .waiting
  slot : Option (Except CompileError Package) := none

structure Pool where
  workers : List Worker
  canceled : Bool

def Pool.start (entries : List Entry) (canceled : Bool) : Pool :=
  ⟨entries.map fun e => { entry := e }, canceled⟩

/-- What compiling an entry gives when nothing interferes. -/
def compiled (c : Compiler) (e : Entry) : Except CompileError Package :=
  (compileEntry c e).mapError .schema

inductive WorkerStep (c : Compiler) (canceled : Bool) : Worker → Worker → Prop
  | pass {e : Entry} {slot} (fine : canceled = false) :
      WorkerStep c canceled ⟨e, .started, slot⟩ ⟨e, .cleared, slot⟩
  | halt {e : Entry} {slot} (late : canceled = true) :
      WorkerStep c canceled ⟨e, .started, slot⟩ ⟨e, .holding (.error .canceled), slot⟩
  | compile {e : Entry} {slot} :
      WorkerStep c canceled ⟨e, .cleared, slot⟩ ⟨e, .holding (compiled c e), slot⟩
  | store {e : Entry} {result slot} :
      WorkerStep c canceled ⟨e, .holding result, slot⟩ ⟨e, .finished, some result⟩

/-- Workers start in order, as far as the limit allows; then any of them may move. -/
inductive Pool.Step (c : Compiler) (limit : Nat) : Pool → Pool → Prop
  | start {before after : List Worker} {w : Worker} {canceled : Bool} (waits : w.phase = .waiting)
      (inOrder : ∀ x ∈ before, x.phase ≠ .waiting)
      (room : (before ++ w :: after).countP (·.phase.active) < limit) :
      Pool.Step c limit ⟨before ++ w :: after, canceled⟩
        ⟨before ++ { w with phase := .started } :: after, canceled⟩
  | work {before after : List Worker} {w w' : Worker} {canceled : Bool}
      (moved : WorkerStep c canceled w w') :
      Pool.Step c limit ⟨before ++ w :: after, canceled⟩ ⟨before ++ w' :: after, canceled⟩
  | cancel {workers : List Worker} {canceled : Bool} :
      Pool.Step c limit ⟨workers, canceled⟩ ⟨workers, true⟩

def Pool.Done (pool : Pool) : Prop := ∀ w ∈ pool.workers, w.phase = .finished

/-- The first error in section order; without one, all packages are joined and checked. -/
def collect (s : Selection) (results : List (Except CompileError Package)) :
    Except CompileError CompiledDocument := do
  let packages ← results.mapM id
  (finish s (s.entries.zip (packages.map .ok))).mapError .schema

/-- A schedule, canceled from the start or not, comes to an end, canceled by then or not. -/
inductive Ends (d : Document) (o : CompileOptions) (limit : Nat) (early : Bool) :
    Bool → Except CompileError CompiledDocument → Prop
  | unselected {e : CompileError} (failed : select d o.section_ o.ignore = .error e) :
      Ends d o limit early early (.error e)
  | finished {s : Selection} {pool : Pool} {results : List (Except CompileError Package)}
      (selected : select d o.section_ o.ignore = .ok s)
      (ran : ReflTransGen (Pool.Step ⟨d, o.exported⟩ limit) (.start s.entries early) pool)
      (done : pool.Done) (stored : pool.workers.map (·.slot) = results.map some) :
      Ends d o limit early pool.canceled (collect s results)

section Safety
variable (c : Compiler) (early canceled : Bool)

/-- What a worker may come up with: the entry's own outcome, unless the run was canceled before it
    began, or cancellation if the run is canceled. -/
def Permitted (e : Entry) (result : Except CompileError Package) : Prop :=
  (early = false ∧ result = compiled c e) ∨ (canceled = true ∧ result = .error .canceled)

def Worker.Sound (w : Worker) : Prop :=
  match w.phase with
  | .waiting | .started => True
  | .cleared => early = false
  | .holding result => Permitted c early canceled w.entry result
  | .finished => ∃ result, w.slot = some result ∧ Permitted c early canceled w.entry result

structure Pool.Sound (entries : List Entry) (pool : Pool) : Prop where
  kept : early = true → pool.canceled = true
  entries : pool.workers.map (·.entry) = entries
  workers : ∀ w ∈ pool.workers, w.Sound c early pool.canceled

end Safety

variable {c : Compiler} {limit : Nat} {early canceled : Bool} {entries : List Entry}
  {pool pool' : Pool}

theorem Permitted.late {e : Entry} {result : Except CompileError Package}
    (permitted : Permitted c early canceled e result) : Permitted c early true e result :=
  permitted.imp_right fun late => ⟨rfl, late.2⟩

theorem Worker.Sound.late {w : Worker} (sound : w.Sound c early canceled) :
    w.Sound c early true := by
  obtain ⟨e, phase, slot⟩ := w
  cases phase with
  | waiting | started | cleared => exact sound
  | holding result => exact Permitted.late sound
  | finished =>
    obtain ⟨result, stored, permitted⟩ := sound
    exact ⟨result, stored, permitted.late⟩

theorem WorkerStep.sound {w w' : Worker} (moved : WorkerStep c canceled w w')
    (kept : early = true → canceled = true) (sound : w.Sound c early canceled) :
    w'.Sound c early canceled ∧ w'.entry = w.entry := by
  refine ⟨?_, by cases moved <;> rfl⟩
  cases moved with
  | pass fine =>
    change early = false
    cases early
    · rfl
    · rw [kept rfl] at fine
      cases fine
  | halt late => exact .inr ⟨late, rfl⟩
  | compile => exact .inl ⟨sound, rfl⟩
  | store => exact ⟨_, rfl, sound⟩

theorem Pool.sound_start (entries : List Entry) (early : Bool) :
    (Pool.start entries early).Sound c early entries where
  kept := id
  entries := by simp [Pool.start, Function.comp_def]
  workers := by
    intro w member
    obtain ⟨e, -, rfl⟩ := List.mem_map.mp member
    exact trivial

/-- One worker may be replaced by another one for the same entry. -/
theorem Pool.Sound.replace {before after : List Worker} {w w' : Worker}
    (sound : Pool.Sound c early entries ⟨before ++ w :: after, canceled⟩)
    (same : w'.entry = w.entry) (here : w'.Sound c early canceled) :
    Pool.Sound c early entries ⟨before ++ w' :: after, canceled⟩ where
  kept := sound.kept
  entries := by simpa [same] using sound.entries
  workers := by
    have others := sound.workers
    simp only [List.forall_mem_append, List.forall_mem_cons] at others ⊢
    exact ⟨others.1, here, others.2.2⟩

theorem Pool.Step.sound (step : Pool.Step c limit pool pool') (sound : pool.Sound c early entries) :
    pool'.Sound c early entries := by
  cases step with
  | start waits inOrder room => exact sound.replace rfl trivial
  | work moved =>
    obtain ⟨here, same⟩ := moved.sound sound.kept (sound.workers _ (by simp))
    exact sound.replace same here
  | cancel => exact ⟨fun _ => rfl, sound.entries, fun w member => (sound.workers w member).late⟩

theorem run_sound (ran : ReflTransGen (Pool.Step c limit) (.start entries early) pool) :
    pool.Sound c early entries := by
  induction ran with
  | refl => exact Pool.sound_start entries early
  | tail _ step ih => exact step.sound ih

theorem stored_of_done (sound : pool.Sound c early entries) (done : pool.Done) :
    ∃ results : List (Except CompileError Package),
      pool.workers.map (·.slot) = results.map some := by
  refine ⟨pool.workers.filterMap (·.slot), ?_⟩
  have filled : ∀ w ∈ pool.workers, ∃ result, w.slot = some result := by
    intro w member
    have here := sound.workers w member
    rw [Worker.Sound, done w member] at here
    obtain ⟨result, stored, -⟩ := here
    exact ⟨result, stored⟩
  generalize pool.workers = workers at filled
  induction workers with
  | nil => rfl
  | cons w rest ih =>
    obtain ⟨result, stored⟩ := filled w List.mem_cons_self
    have others := ih fun x member => filled x (List.mem_cons_of_mem w member)
    rw [List.filterMap_cons_some stored, List.map_cons, List.map_cons, stored, ← others]

/-- Slot by slot, what the finished workers left is permitted for their entries. -/
theorem results_permitted (sound : pool.Sound c early entries) (done : pool.Done)
    {results : List (Except CompileError Package)}
    (stored : pool.workers.map (·.slot) = results.map some) :
    List.Forall₂ (Permitted c early pool.canceled) entries results := by
  obtain ⟨-, rfl, workers⟩ := sound
  obtain ⟨ws, canceled⟩ := pool
  simp only at stored workers ⊢
  induction ws generalizing results with
  | nil =>
    obtain rfl : results = [] := by simpa using stored.symm
    exact .nil
  | cons w rest ih =>
    cases results with
    | nil => cases stored
    | cons result results =>
      obtain ⟨first, others⟩ := List.cons.inj stored
      have here := workers w List.mem_cons_self
      rw [Worker.Sound, done w List.mem_cons_self] at here
      obtain ⟨result', slot, permitted⟩ := here
      obtain rfl : result' = result := Option.some.inj (slot.symm.trans first)
      exact .cons permitted (ih (fun x member => done x (List.mem_cons_of_mem w member)) others
        fun x member => workers x (List.mem_cons_of_mem w member))

/-- The first error of permitted results is the first one of the entries, or a cancellation. -/
theorem mapM_permitted {results : List (Except CompileError Package)}
    (permitted : List.Forall₂ (Permitted c early canceled) entries results) :
    results.mapM id = (entries.map (compiled c)).mapM id ∨
      (canceled = true ∧ results.mapM id = .error .canceled) := by
  induction permitted with
  | nil => exact .inl rfl
  | cons here _ ih =>
    rw [List.map_cons, List.mapM_cons, List.mapM_cons]
    rcases here with ⟨-, rfl⟩ | ⟨late, rfl⟩
    · cases result : compiled c _ with
      | error e => exact .inl rfl
      | ok q =>
        rcases ih with same | ⟨late, stopped⟩
        · exact .inl (by rw [same])
        · exact .inr ⟨late, by simp [stopped, bind, Except.bind]⟩
    · exact .inr ⟨late, rfl⟩

theorem mapM_canceled {e : Entry} {results : List (Except CompileError Package)}
    (permitted : List.Forall₂ (Permitted c true canceled) (e :: entries) results) :
    results.mapM id = .error .canceled := by
  cases permitted with
  | cons here _ =>
    rcases here with ⟨fresh, -⟩ | ⟨-, rfl⟩
    · cases fresh
    · rfl

/-- All entries are compiled. -/
def AllCompiled (c : Compiler) : List Entry → List Package → Prop :=
  List.Forall₂ fun e q => compileEntry c e = .ok q

/-- Entries are either all compiled, or one of them is the first to fail. -/
theorem compiled_or_failing (c : Compiler) (entries : List Entry) :
    (∃ packages, AllCompiled c entries packages) ∨
      ∃ before e after err, entries = before ++ e :: after ∧
        (∃ packages, AllCompiled c before packages) ∧ compileEntry c e = .error err := by
  induction entries with
  | nil => exact .inl ⟨[], .nil⟩
  | cons e rest ih =>
    cases first : compileEntry c e with
    | error err => exact .inr ⟨[], e, rest, err, rfl, ⟨[], .nil⟩, first⟩
    | ok q =>
      rcases ih with ⟨packages, all⟩ | ⟨before, e', after, err, rfl, ⟨packages, all⟩, failed⟩
      · exact .inl ⟨q :: packages, .cons first all⟩
      · exact .inr ⟨e :: before, e', after, err, rfl, ⟨q :: packages, .cons first all⟩, failed⟩

theorem AllCompiled.gathered {packages : List Package} (all : AllCompiled c entries packages) :
    (entries.map (compiled c)).mapM id = .ok packages ∧
      compileAll c entries = entries.zip (packages.map .ok) := by
  induction all with
  | nil => exact ⟨rfl, rfl⟩
  | cons here _ ih =>
    obtain ⟨gathered, zipped⟩ := ih
    constructor
    · rw [List.map_cons, List.mapM_cons, gathered, compiled, here]
      rfl
    · rw [compileAll] at zipped ⊢
      rw [List.map_cons, zipped, here, List.map_cons, List.zip_cons_cons]

theorem AllCompiled.joined {packages : List Package} (all : AllCompiled c entries packages) :
    join (entries.zip (packages.map .ok)) = .ok (Code.Package.joined packages,
      (entries.zip packages).flatMap fun x => (summary x.1 x.2).toList) := by
  induction all with
  | nil => rfl
  | cons here _ ih =>
    rw [List.map_cons, List.zip_cons_cons, join, ih]
    rfl

theorem failing_gathered {before after : List Entry} {e : Entry} {err : SchemaError}
    {packages : List Package} (all : AllCompiled c before packages)
    (failed : compileEntry c e = .error err) :
    ((before ++ e :: after).map (compiled c)).mapM id = .error (.schema err) ∧
      join (compileAll c (before ++ e :: after)) = .error err := by
  induction all with
  | nil =>
    refine ⟨?_, ?_⟩
    · rw [List.nil_append, List.map_cons, List.mapM_cons, compiled, failed]
      rfl
    · rw [List.nil_append, join_cons, failed]
      rfl
  | cons here _ ih =>
    obtain ⟨gathered, joined⟩ := ih
    constructor
    · rw [List.cons_append, List.map_cons, List.mapM_cons, gathered, compiled, here]
      rfl
    · rw [List.cons_append, join_cons, joined, here]
      rfl

/-- Reading undisturbed slots is the same as joining the compiled entries. -/
theorem collect_compiled (c : Compiler) (s : Selection) :
    collect s (s.entries.map (compiled c)) =
      (finish s (compileAll c s.entries)).mapError .schema := by
  rcases compiled_or_failing c s.entries with
    ⟨packages, all⟩ | ⟨before, e, after, err, split, ⟨packages, all⟩, failed⟩
  · rw [collect, all.gathered.1, all.gathered.2]
    rfl
  · rw [collect, finish, split, (failing_gathered all failed).1, (failing_gathered all failed).2]
    rfl

/-- How a selection is decided: by its first failing entry, else by the first reference that leads
    nowhere, else by the first name that is declared twice; else it gives the joined packages. -/
inductive Decided (c : Compiler) (s : Selection) : Except CompileError CompiledDocument → Prop
  | entry {before after : List Entry} {e : Entry} {err : SchemaError} {packages : List Package}
      (split : s.entries = before ++ e :: after) (passed : AllCompiled c before packages)
      (failed : compileEntry c e = .error err) : Decided c s (.error (.schema err))
  | references {packages : List Package} {err : SchemaError}
      (all : AllCompiled c s.entries packages)
      (failed : (Code.Package.joined packages).checkReferences (s.entries.map (·.pointer)) =
        .error err) : Decided c s (.error (.schema err))
  | names {packages : List Package} {err : SchemaError} (all : AllCompiled c s.entries packages)
      (closed : (Code.Package.joined packages).checkReferences (s.entries.map (·.pointer)) = .ok ())
      (failed : (Code.Package.joined packages).checkNames = .error err) :
      Decided c s (.error (.schema err))
  | whole {packages : List Package} (all : AllCompiled c s.entries packages)
      (closed : (Code.Package.joined packages).checkReferences (s.entries.map (·.pointer)) = .ok ())
      (distinct : (Code.Package.joined packages).checkNames = .ok ()) :
      Decided c s (.ok ⟨Code.Package.joined packages,
        (s.entries.zip packages).flatMap fun x => (summary x.1 x.2).toList, s.ignored⟩)

theorem finish_decided (c : Compiler) (s : Selection) :
    Decided c s ((finish s (compileAll c s.entries)).mapError .schema) := by
  rcases compiled_or_failing c s.entries with
    ⟨packages, all⟩ | ⟨before, e, after, err, split, ⟨packages, all⟩, failed⟩
  · have finished : finish s (compileAll c s.entries) = (do
        (Code.Package.joined packages).checkReferences (s.entries.map (·.pointer))
        (Code.Package.joined packages).checkNames
        return ⟨Code.Package.joined packages,
          (s.entries.zip packages).flatMap fun x => (summary x.1 x.2).toList, s.ignored⟩) := by
      rw [all.gathered.2, finish, all.joined]
      rfl
    rw [finished]
    cases closed : (Code.Package.joined packages).checkReferences (s.entries.map (·.pointer)) with
    | error err => exact .references all closed
    | ok =>
      cases distinct : (Code.Package.joined packages).checkNames with
      | error err => exact .names all closed distinct
      | ok => exact .whole all closed distinct
  · rw [finish, split, (failing_gathered all failed).2]
    exact .entry split all failed

section Progress

/-- The steps that a worker still has to make. -/
def Phase.remaining : Phase → Nat
  | .waiting => 4
  | .started => 3
  | .cleared => 2
  | .holding _ => 1
  | .finished => 0

def Pool.remaining (pool : Pool) : Nat :=
  pool.workers.foldr (fun w rest => w.phase.remaining + rest) 0

theorem remaining_replace {before after : List Worker} {w w' : Worker} (canceled : Bool)
    (less : w'.phase.remaining < w.phase.remaining) :
    Pool.remaining ⟨before ++ w' :: after, canceled⟩ <
      Pool.remaining ⟨before ++ w :: after, canceled⟩ := by
  unfold Pool.remaining
  induction before with
  | nil =>
    simp only [List.nil_append, List.foldr_cons]
    omega
  | cons first before ih =>
    simp only [List.cons_append, List.foldr_cons] at ih ⊢
    omega

theorem active_moves (c : Compiler) (canceled : Bool) {w : Worker}
    (active : w.phase.active = true) :
    ∃ w', WorkerStep c canceled w w' ∧ w'.phase.remaining < w.phase.remaining := by
  obtain ⟨e, phase, slot⟩ := w
  cases phase with
  | waiting | finished => cases active
  | started =>
    cases canceled with
    | false => exact ⟨_, .pass rfl, Nat.lt_succ_self 2⟩
    | true => exact ⟨_, .halt rfl, Nat.lt_of_sub_eq_succ rfl⟩
  | cleared => exact ⟨_, .compile, Nat.lt_succ_self 1⟩
  | holding result => exact ⟨_, .store, Nat.lt_succ_self 0⟩

/-- While a worker is not finished some worker can move: an active one, or else the first one that
    waits, since then nothing is active. -/
theorem Pool.moves (c : Compiler) (positive : 0 < limit) (pending : ¬ pool.Done) :
    ∃ pool', Pool.Step c limit pool pool' ∧ pool'.remaining < pool.remaining ∧
      pool'.canceled = pool.canceled := by
  obtain ⟨workers, canceled⟩ := pool
  by_cases active : ∃ w ∈ workers, w.phase.active = true
  · obtain ⟨w, member, active⟩ := active
    obtain ⟨before, after, rfl⟩ := List.append_of_mem member
    obtain ⟨w', moved, less⟩ := active_moves c canceled active
    exact ⟨_, .work moved, remaining_replace canceled less, rfl⟩
  · have idle : ∀ w ∈ workers, ¬ w.phase.active = true := by simpa using active
    obtain ⟨w, member, unfinished⟩ : ∃ w ∈ workers, w.phase ≠ .finished := by
      simpa [Pool.Done] using pending
    have waits : (workers.find? (·.phase matches .waiting)).isSome := by
      rw [List.find?_isSome]
      refine ⟨w, member, ?_⟩
      have still := idle w member
      cases phase : w.phase <;> simp_all [Phase.active]
    obtain ⟨first, found⟩ := Option.isSome_iff_exists.mp waits
    obtain ⟨waiting, before, after, rfl, earlier⟩ := List.find?_eq_some_iff_append.mp found
    have phase : first.phase = .waiting := by
      cases phase : first.phase <;> simp_all
    refine ⟨_, .start phase ?_ ?_, remaining_replace canceled ?_, rfl⟩
    · intro x before same
      simpa [same] using earlier x before
    · rw [List.countP_eq_zero.mpr idle]
      exact positive
    · rw [phase]
      exact Nat.lt_succ_self 3

/-- From every pool the workers can finish. -/
theorem Pool.finishes (c : Compiler) (positive : 0 < limit) (pool : Pool) :
    ∃ pool', ReflTransGen (Pool.Step c limit) pool pool' ∧ pool'.Done ∧
      pool'.canceled = pool.canceled := by
  induction work : pool.remaining using Nat.strongRecOn generalizing pool with
  | _ n ih =>
    subst work
    by_cases done : pool.Done
    · exact ⟨pool, .refl, done, rfl⟩
    · obtain ⟨next, step, less, same⟩ := pool.moves c positive done
      obtain ⟨pool', ran, done, same'⟩ := ih _ less next rfl
      exact ⟨pool', .head step ran, done, same'.trans same⟩

end Progress

section Outcome
variable {d : Document} {o : CompileOptions} {result : Except CompileError CompiledDocument}

theorem document_selected {s : Selection} (selected : select d o.section_ o.ignore = .ok s) :
    document d o false = (finish s (compileAll ⟨d, o.exported⟩ s.entries)).mapError .schema := by
  rw [document, selected]
  rfl

theorem document_unselected {e : CompileError} (failed : select d o.section_ o.ignore = .error e)
    (canceled : Bool) : document d o canceled = .error e := by
  rw [document, failed]

theorem Ends.plain_or_canceled (ends : Ends d o limit early canceled result) :
    result = document d o false ∨ (canceled = true ∧ result = .error .canceled) := by
  cases ends with
  | unselected failed => exact .inl (document_unselected failed false).symm
  | finished selected ran done stored =>
    rw [document_selected selected, ← collect_compiled, collect, collect]
    rcases mapM_permitted (results_permitted (run_sound ran) done stored) with same | stopped
    · exact .inl (by rw [same])
    · exact .inr ⟨stopped.1, by rw [stopped.2]; rfl⟩

theorem Ends.canceled_early (ends : Ends d o limit true canceled result) :
    result = document d o true := by
  cases ends with
  | unselected failed => exact (document_unselected failed true).symm
  | @finished s pool results selected ran done stored =>
    have permitted := results_permitted (run_sound ran) done stored
    rw [document, selected]
    cases entries : s.entries with
    | nil =>
      rw [entries] at permitted
      cases permitted
      simp [collect, entries, compileAll]
    | cons e rest =>
      rw [entries] at permitted
      have stops : (true && !s.entries.isEmpty) = true := by simp [entries]
      rw [collect, mapM_canceled permitted]
      simp only [stops, if_true]
      rfl

/-- Workers that are finished have filled their slots. -/
theorem ends_of_done {s : Selection} (selected : select d o.section_ o.ignore = .ok s)
    (ran : ReflTransGen (Pool.Step ⟨d, o.exported⟩ limit) (.start s.entries early) pool)
    (done : pool.Done) : ∃ result, Ends d o limit early pool.canceled result := by
  obtain ⟨results, stored⟩ := stored_of_done (run_sound ran) done
  exact ⟨collect s results, .finished selected ran done stored⟩

/-- A schedule that is not canceled can be run to its end. -/
theorem ends_plain (d : Document) (o : CompileOptions) (positive : 0 < limit) :
    Ends d o limit false false (document d o false) := by
  cases selected : select d o.section_ o.ignore with
  | error e =>
    rw [document_unselected selected]
    exact .unselected selected
  | ok s =>
    obtain ⟨pool, ran, done, same⟩ :=
      (Pool.start s.entries false).finishes ⟨d, o.exported⟩ positive
    obtain ⟨result, ends⟩ := ends_of_done selected ran done
    have unstopped : pool.canceled = false := same
    rw [unstopped] at ends
    rcases ends.plain_or_canceled with plain | ⟨late, -⟩
    · rw [← plain]
      exact ends
    · cases late

/-- Every schedule ends as the plain run, or canceled if it was; one that was canceled before it
    began ends as the run that was. Workers can always be finished and then give an outcome, which
    without cancellation is exactly the plain one, and this is decided in section order. -/
theorem schedules_agree (d : Document) (o : CompileOptions) (limit : Nat) :
    (∀ early canceled result, Ends d o limit early canceled result →
      result = document d o false ∨ (canceled = true ∧ result = .error .canceled)) ∧
    (∀ canceled result, Ends d o limit true canceled result → result = document d o true) ∧
    (0 < limit → ∀ result, Ends d o limit false false result ↔ result = document d o false) ∧
    (0 < limit → ∀ pool : Pool, ∃ pool', ReflTransGen (Pool.Step ⟨d, o.exported⟩ limit) pool pool' ∧
      pool'.Done ∧ pool'.canceled = pool.canceled) ∧
    (∀ s early pool, select d o.section_ o.ignore = .ok s →
      ReflTransGen (Pool.Step ⟨d, o.exported⟩ limit) (.start s.entries early) pool → pool.Done →
        ∃ result, Ends d o limit early pool.canceled result) ∧
    (∀ s, select d o.section_ o.ignore = .ok s →
      Decided ⟨d, o.exported⟩ s (document d o false)) := by
  refine ⟨fun _ _ _ ends => ends.plain_or_canceled, fun _ _ ends => ends.canceled_early, ?_, ?_,
    fun _ _ _ selected ran done => ends_of_done selected ran done, ?_⟩
  · intro positive result
    constructor
    · intro ends
      rcases ends.plain_or_canceled with plain | ⟨late, -⟩
      · exact plain
      · cases late
    · rintro rfl
      exact ends_plain d o positive
  · exact fun positive pool => pool.finishes _ positive
  · intro s selected
    rw [document_selected selected]
    exact finish_decided _ s

set_option maxRecDepth 100000 in
/-- Two workers at a time compile the sample; canceled before they start, they compile nothing. -/
theorem sample_schedules :
    (∃ r, r.schemas.length = 5 ∧ Ends Sample.document Sample.options 2 false false (.ok r)) ∧
      ∀ canceled result, Ends Sample.document Sample.options 2 true canceled result →
        result = .error .canceled := by
  obtain ⟨r, compiled, five⟩ := Sample.compiles (P := fun r => r.schemas.length = 5)
    (by decide +kernel)
  have stopped : document Sample.document Sample.options true = .error .canceled := rfl
  obtain ⟨-, early, exactly, -⟩ := schedules_agree Sample.document Sample.options 2
  refine ⟨⟨r, by simpa using five, ?_⟩, fun canceled result ends => ?_⟩
  · rw [← compiled]
    exact (exactly (by decide) _).mpr rfl
  · rw [← stopped]
    exact early canceled result ends

end Outcome

end SchemaForge.Compile
