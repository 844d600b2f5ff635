import SchemaForge.Proofs.Decoding
import SchemaForge.Run.Basic

/-!
What reaches the receiver of a run. A plan is made of the outcomes of the stages, so it exists only
if all of them went well, and files are handed over in the order of the plan up to the first that is
refused. A journal in front of a receiver sees every file that is handed over, and changes nothing.
-/
namespace SchemaForge

namespace Traced
variable {ε α β : Type}

@[simp] theorem outcome_bind (t : Traced ε α) (f : α → Traced ε β) :
    (t >>= f).outcome = t.outcome >>= fun a => (f a).outcome := by
  obtain ⟨outcome, spans⟩ := t
  cases outcome <;> rfl

end Traced

/-- Only a refused file ends a run with this kind of error. -/
def RunError.isWrite : RunError → Bool
  | .write .. => true
  | _ => false

namespace Run

@[simp] theorem outcome_stage {α : Type} (name : String) (inner : List Span)
    (outcome : Except RunError α) : (stage name inner outcome).outcome = outcome := rfl

/-! ### Plans -/

/-- The support files of a run, unless it goes without them. -/
def supportOf (c : Config) : List (String × Bytes) :=
  if c.withoutSupport then []
  else (Support.sources c.package).map fun (name, text) => (name, Utf8.encode text)

/-- How a plan comes about: the document is loaded, read, checked if that is asked for, and
    compiled; the validators are printed under the digest of their schemas, into a file that has
    not the name of a support file. -/
def Renders (c : Config) (origin : Origin) (canceled : Bool) (p : Plan) : Prop :=
  ∃ bytes root compiled digest source,
    (load c origin).outcome = .ok bytes ∧
    Document.parseNamed c.format bytes = .ok root ∧
    (checkSubset c ⟨root⟩).outcome = .ok () ∧
    Compile.document ⟨root⟩ (compileOptions c) canceled = .ok compiled ∧
    Digest.ofSection ⟨root⟩ c.section_ c.ignore = .ok digest ∧
    compiled.package.print.render c.package (header digest) = .ok source ∧
    c.outFile ∉ (supportOf c).map (·.1) ∧
    p = ⟨c.package, (c.outFile, Utf8.encode source) :: supportOf c, compiled.schemas,
      compiled.ignored, digest⟩

theorem supportOf_names {c : Config} (supported : c.withoutSupport = false) :
    (supportOf c).map (·.1) = Support.fileNames := by
  simp [supportOf, supported, Support.sources, Support.fileNames]

theorem supportFiles_ok_iff {c : Config} {files : List (String × Bytes)} :
    supportFiles c = .ok files ↔
      c.outFile ∉ (supportOf c).map (·.1) ∧ files = supportOf c := by
  cases supported : c.withoutSupport with
  | true => simp [supportFiles, supportOf, supported, eq_comm]
  | false =>
    rw [supportOf_names supported]
    by_cases taken : c.outFile ∈ Support.fileNames
    · simp [supportFiles, supported, taken]
    · simp [supportFiles, supported, taken, supportOf, eq_comm]

theorem renderFiles_ok_iff {c : Config} {d : Document} {compiled : CompiledDocument} {p : Plan} :
    renderFiles c d compiled = .ok p ↔
      ∃ digest source, Digest.ofSection d c.section_ c.ignore = .ok digest ∧
        compiled.package.print.render c.package (header digest) = .ok source ∧
        c.outFile ∉ (supportOf c).map (·.1) ∧
        p = ⟨c.package, (c.outFile, Utf8.encode source) :: supportOf c, compiled.schemas,
          compiled.ignored, digest⟩ := by
  simp only [renderFiles, bind_ok_iff, mapError_ok_iff, supportFiles_ok_iff]
  constructor
  · rintro ⟨digest, hashed, source, printed, files, ⟨free, rfl⟩, done⟩
    exact ⟨digest, source, hashed, printed, free, (Except.ok.inj done).symm⟩
  · rintro ⟨digest, source, hashed, printed, free, rfl⟩
    exact ⟨digest, hashed, source, printed, _, ⟨free, rfl⟩, rfl⟩

theorem parse_ok_iff {c : Config} {bytes : Bytes} {d : Document} :
    (parse c bytes).outcome = .ok d ↔ Document.parseNamed c.format bytes = .ok d.root := by
  rw [parse, outcome_stage]
  cases Document.parseNamed c.format bytes with
  | error e => simp
  | ok root =>
    obtain ⟨other⟩ := d
    simp

theorem plan_ok_iff {c : Config} {origin : Origin} {canceled : Bool} {p : Plan} :
    (plan c origin canceled).outcome = .ok p ↔ Renders c origin canceled p := by
  simp only [plan, Traced.outcome_bind, bind_ok_iff, parse_ok_iff, compile, outcome_stage,
    mapError_ok_iff, renderFiles_ok_iff, Renders]
  constructor
  · rintro ⟨bytes, loaded, ⟨root⟩, read, ⟨⟩, checked, compiled, made, digest, source, rest⟩
    exact ⟨bytes, root, compiled, digest, source, loaded, read, checked, made, rest⟩
  · rintro ⟨bytes, root, compiled, digest, source, loaded, read, checked, made, rest⟩
    exact ⟨bytes, loaded, ⟨root⟩, read, (), checked, compiled, made, digest, source, rest⟩

theorem Renders.files {c : Config} {origin : Origin} {canceled : Bool} {p : Plan}
    (rendered : Renders c origin canceled p) :
    ∃ source, p.files = (c.outFile, Utf8.encode source) :: supportOf c ∧
      (p.files.map (·.1)).Nodup := by
  obtain ⟨bytes, root, compiled, digest, source, -, -, -, -, -, -, free, rfl⟩ := rendered
  refine ⟨source, rfl, List.nodup_cons.mpr ⟨free, ?_⟩⟩
  cases supported : c.withoutSupport with
  | true => simp [supportOf, supported]
  | false =>
    rw [supportOf_names supported]
    decide

/-! ### Errors before the writing -/

theorem mapError_early {ε α : Type} {x : Except ε α} {f : ε → RunError} {e : RunError}
    (early : ∀ e, (f e).isWrite = false) (failed : x.mapError f = .error e) :
    e.isWrite = false := by
  cases x with
  | error inner =>
    obtain rfl := Except.error.inj failed
    exact early inner
  | ok a => cases failed

theorem bind_early {α β : Type} {x : Except RunError α} {f : α → Except RunError β} {e : RunError}
    (first : ∀ e, x = .error e → e.isWrite = false)
    (later : ∀ a e, f a = .error e → e.isWrite = false) (failed : (x >>= f) = .error e) :
    e.isWrite = false := by
  cases x with
  | error inner => exact first e (congrArg Except.error (Except.error.inj failed))
  | ok a => exact later a e failed

theorem load_early {c : Config} {origin : Origin} {e : RunError}
    (failed : (load c origin).outcome = .error e) : e.isWrite = false := by
  rw [load] at failed
  cases given : c.document with
  | some bytes => simp [given] at failed
  | none =>
    rw [given] at failed
    exact mapError_early (fun _ => rfl) failed

theorem parse_early {c : Config} {bytes : Bytes} {e : RunError}
    (failed : (parse c bytes).outcome = .error e) : e.isWrite = false := by
  rw [parse, outcome_stage] at failed
  split at failed
  · obtain rfl := Except.error.inj failed
    rfl
  · cases failed

theorem checkSubset_early {c : Config} {d : Document} {e : RunError}
    (failed : (checkSubset c d).outcome = .error e) : e.isWrite = false := by
  rw [checkSubset] at failed
  split at failed
  · rw [outcome_stage] at failed
    split at failed
    · obtain rfl := Except.error.inj failed
      rfl
    · exact mapError_early (fun _ => rfl) failed
  · simp at failed

theorem supportFiles_early {c : Config} {e : RunError} (failed : supportFiles c = .error e) :
    e.isWrite = false := by
  rw [supportFiles] at failed
  split at failed
  · cases failed
  · split at failed
    · obtain rfl := Except.error.inj failed
      rfl
    · cases failed

theorem renderFiles_early {c : Config} {d : Document} {compiled : CompiledDocument} {e : RunError}
    (failed : renderFiles c d compiled = .error e) : e.isWrite = false := by
  refine bind_early (fun _ => mapError_early fun _ => rfl) (fun digest e failed => ?_) failed
  refine bind_early (fun _ => mapError_early fun _ => rfl) (fun source e failed => ?_) failed
  refine bind_early (fun _ => supportFiles_early) (fun files e failed => ?_) failed
  cases failed

/-- No stage before the writing ends with a refused file. -/
theorem plan_early {c : Config} {origin : Origin} {canceled : Bool} {e : RunError}
    (failed : (plan c origin canceled).outcome = .error e) : e.isWrite = false := by
  simp only [plan, Traced.outcome_bind] at failed
  refine bind_early (fun _ => load_early) (fun bytes e failed => ?_) failed
  refine bind_early (fun _ => parse_early) (fun d e failed => ?_) failed
  refine bind_early (fun _ => checkSubset_early) (fun _ e failed => ?_) failed
  refine bind_early (fun _ => mapError_early fun _ => rfl) (fun compiled e failed => ?_) failed
  exact renderFiles_early failed

/-! ### Handing over the files -/

/-- What a run would write, or why it gets to no writing. -/
def planned (c : Config) (origin : Origin) (canceled : Bool) : Except RunError Plan :=
  match c.check with
  | .error vs => .error (.config vs)
  | .ok c => (plan c origin canceled).outcome

theorem planned_ok_iff {c : Config} {origin : Origin} {canceled : Bool} {p : Plan} :
    planned c origin canceled = .ok p ↔
      c.withDefaults.violations = [] ∧ Renders c.withDefaults origin canceled p := by
  rw [planned, Config.check]
  cases c.withDefaults.violations with
  | nil => simp [plan_ok_iff]
  | cons v vs => simp

theorem planned_early {c : Config} {origin : Origin} {canceled : Bool} {e : RunError}
    (failed : planned c origin canceled = .error e) : e.isWrite = false := by
  rw [planned] at failed
  split at failed
  · obtain rfl := Except.error.inj failed
    rfl
  · exact plan_early failed

variable {σ : Type} [Receiver σ]

/-- A run without a plan leaves its receiver alone. -/
theorem run_unplanned (mode : RunMode) {c : Config} {origin : Origin} {canceled : Bool} (sink : σ)
    {e : RunError} (failed : planned c origin canceled = .error e) :
    (run mode c origin canceled sink).outcome = .error e ∧
      (run mode c origin canceled sink).sink = sink := by
  rw [planned] at failed
  rw [run]
  cases checked : c.check with
  | error vs =>
    rw [checked] at failed
    obtain rfl : RunError.config vs = e := Except.error.inj failed
    exact ⟨rfl, rfl⟩
  | ok c =>
    rw [checked] at failed
    simp only [execute, failed, close, and_self]

/-- A run with a plan hands over its files, and reports them if all are taken. -/
theorem run_planned (mode : RunMode) {c : Config} {origin : Origin} {canceled : Bool} (sink : σ)
    {p : Plan} (ready : planned c origin canceled = .ok p) :
    (run mode c origin canceled sink).outcome =
        (writeAll canceled p.files sink).1.map (fun _ => p.report) ∧
      (run mode c origin canceled sink).sink = (writeAll canceled p.files sink).2 := by
  rw [planned] at ready
  rw [run]
  cases checked : c.check with
  | error vs => simp [checked] at ready
  | ok c =>
    rw [checked] at ready
    simp only [execute, ready]
    rcases writeAll canceled p.files sink with ⟨outcome, after⟩
    cases outcome <;> exact ⟨rfl, rfl⟩

theorem run_succeeded {mode : RunMode} {c : Config} {origin : Origin} {canceled : Bool} {sink : σ}
    {report : Report} (done : (run mode c origin canceled sink).outcome = .ok report) :
    ∃ p, planned c origin canceled = .ok p ∧ report = p.report ∧
      writeAll canceled p.files sink = (.ok (), (run mode c origin canceled sink).sink) := by
  cases ready : planned c origin canceled with
  | error e =>
    obtain ⟨failed, -⟩ := run_unplanned mode sink ready
    rw [failed] at done
    cases done
  | ok p =>
    obtain ⟨outcome, after⟩ := run_planned mode sink ready
    rw [outcome, map_ok_iff] at done
    obtain ⟨⟨⟩, fine, rfl⟩ := done
    exact ⟨p, rfl, rfl, Prod.ext fine after.symm⟩

end Run

/-- One file handed over, with the answer to it. -/
structure Call where
  name : String
  content : Bytes
  answer : Except WriteError Unit

def Call.taken (file : String × Bytes) : Call := ⟨file.1, file.2, .ok ()⟩

/-- A receiver with a journal in front of it. -/
structure Journal (σ : Type) where
  sink : σ
  calls : List Call

instance {σ : Type} [Receiver σ] : Receiver (Journal σ) where
  write canceled name content journal :=
    let (answer, sink) := Receiver.write canceled name content journal.sink
    (answer, ⟨sink, journal.calls ++ [⟨name, content, answer⟩]⟩)

def Journal.opened {σ : Type} (sink : σ) : Journal σ := ⟨sink, []⟩

namespace Run
variable {σ : Type} [Receiver σ]

/-- The journal changes neither the outcome nor what the receiver behind it becomes. -/
theorem writeAll_journal (canceled : Bool) (files : List (String × Bytes)) (journal : Journal σ) :
    (writeAll canceled files journal).1 = (writeAll canceled files journal.sink).1 ∧
      (writeAll canceled files journal).2.sink = (writeAll canceled files journal.sink).2 := by
  induction files generalizing journal with
  | nil => exact ⟨rfl, rfl⟩
  | cons file rest ih =>
    obtain ⟨name, content⟩ := file
    simp only [writeAll, Receiver.write]
    rcases Receiver.write canceled name content journal.sink with ⟨answer, sink⟩
    cases answer with
    | error e => exact ⟨rfl, rfl⟩
    | ok _ => exact ih ⟨sink, _⟩

/-- Either every file is taken, or all before one that is refused, and none after it is tried. -/
theorem writeAll_calls (canceled : Bool) (files : List (String × Bytes)) (journal : Journal σ) :
    ((writeAll canceled files journal).1 = .ok () ∧
      (writeAll canceled files journal).2.calls = journal.calls ++ files.map Call.taken) ∨
    ∃ done name content rest e, files = done ++ (name, content) :: rest ∧
      (writeAll canceled files journal).1 = .error (.write name e) ∧
      (writeAll canceled files journal).2.calls =
        journal.calls ++ (done.map Call.taken ++ [⟨name, content, .error e⟩]) := by
  induction files generalizing journal with
  | nil => exact .inl ⟨rfl, (List.append_nil _).symm⟩
  | cons file rest ih =>
    obtain ⟨name, content⟩ := file
    simp only [writeAll, Receiver.write]
    rcases Receiver.write canceled name content journal.sink with ⟨answer, sink⟩
    cases answer with
    | error e => exact .inr ⟨[], name, content, rest, e, rfl, rfl, rfl⟩
    | ok _ =>
      rcases ih ⟨sink, journal.calls ++ [⟨name, content, .ok ()⟩]⟩ with
        ⟨fine, calls⟩ | ⟨done, last, bytes, left, e, split, failed, calls⟩
      · refine .inl ⟨fine, calls.trans ?_⟩
        simp [Call.taken]
      · refine .inr ⟨(name, content) :: done, last, bytes, left, e, by rw [split]; rfl, failed,
          calls.trans ?_⟩
        simp [Call.taken]

/-- A run does not notice the journal. -/
theorem run_journal (mode : RunMode) (c : Config) (origin : Origin) (canceled : Bool) (sink : σ) :
    (run mode c origin canceled (Journal.opened sink)).outcome =
        (run mode c origin canceled sink).outcome ∧
      (run mode c origin canceled (Journal.opened sink)).sink.sink =
        (run mode c origin canceled sink).sink := by
  cases ready : planned c origin canceled with
  | error e =>
    obtain ⟨failed, untouched⟩ := run_unplanned mode sink ready
    obtain ⟨failed', untouched'⟩ := run_unplanned mode (Journal.opened sink) ready
    rw [failed, failed', untouched, untouched']
    exact ⟨rfl, rfl⟩
  | ok p =>
    obtain ⟨outcome, after⟩ := run_planned mode sink ready
    obtain ⟨outcome', after'⟩ := run_planned mode (Journal.opened sink) ready
    obtain ⟨same, behind⟩ := writeAll_journal canceled p.files (Journal.opened sink)
    rw [outcome, outcome', after, after', same, behind]
    exact ⟨rfl, rfl⟩

/-- A run that ends before the writing hands nothing over. One that ends at a file has had all files
    before it taken, in the order of the plan, and tries none after it. One that succeeds reports
    files of different names, the validators first, and has had each taken once, in this order,
    with the content of the plan. All this for any receiver: the journal in front of it is not
    noticed. -/
theorem deliveries_follow_plan (c : Config) (origin : Origin) (canceled : Bool) (sink : σ) :
    let plain := generate c origin canceled sink
    let kept := generate c origin canceled (Journal.opened sink)
    (kept.outcome = plain.outcome ∧ kept.sink.sink = plain.sink) ∧
    (∀ e, plain.outcome = .error e → e.isWrite = false →
      planned c origin canceled = .error e ∧ kept.sink = Journal.opened sink) ∧
    (∀ name e, plain.outcome = .error (.write name e) → ∃ p done content rest,
      Renders c.withDefaults origin canceled p ∧ p.files = done ++ (name, content) :: rest ∧
      kept.sink.calls = done.map Call.taken ++ [⟨name, content, .error e⟩]) ∧
    (∀ report, plain.outcome = .ok report → ∃ p, Renders c.withDefaults origin canceled p ∧
      report = p.report ∧ report.files.Nodup ∧
      report.files.head? = some c.withDefaults.outFile ∧
      kept.sink.calls = p.files.map Call.taken) := by
  intro plain kept
  have transparent := run_journal .generate c origin canceled sink
  refine ⟨transparent, ?_⟩
  have same : kept.outcome = plain.outcome := transparent.1
  rw [← same]
  cases ready : planned c origin canceled with
  | error early =>
    obtain ⟨failed, untouched⟩ := run_unplanned .generate (Journal.opened sink) ready
    have failed : kept.outcome = .error early := failed
    rw [failed]
    refine ⟨fun e ended _ => ⟨?_, untouched⟩, fun name e ended => ?_, fun report ended => ?_⟩
    · rw [Except.error.inj ended]
    · have written := planned_early ready
      rw [Except.error.inj ended] at written
      cases written
    · cases ended
  | ok p =>
    obtain ⟨-, rendered⟩ := planned_ok_iff.mp ready
    obtain ⟨outcome, after⟩ := run_planned .generate (Journal.opened sink) ready
    have outcome : kept.outcome = _ := outcome
    have after : kept.sink = _ := after
    rw [outcome, after]
    rcases writeAll_calls canceled p.files (Journal.opened sink) with
      ⟨fine, calls⟩ | ⟨done, name, content, rest, e, split, failed, calls⟩
    · rw [fine]
      refine ⟨fun e ended => ?_, fun name e ended => ?_, fun report ended => ?_⟩
      · cases ended
      · cases ended
      · obtain rfl := Except.ok.inj ended
        obtain ⟨source, files, distinct⟩ := rendered.files
        refine ⟨p, rendered, rfl, distinct, ?_, calls⟩
        rw [Plan.report, files]
        rfl
    · rw [failed]
      refine ⟨fun e' ended early => ?_, fun name' e' ended => ?_, fun report ended => ?_⟩
      · obtain rfl := Except.error.inj ended
        cases early
      · obtain ⟨rfl, rfl⟩ := RunError.write.inj (Except.error.inj ended)
        exact ⟨p, done, content, rest, rendered, split, calls⟩
      · cases ended

end Run

/-! ### A sample -/

/-- One schema, in a document that is given. -/
def flagged : Config :=
  { document := some (Utf8.encode "\x7b\"Flag\": \x7b\"type\": \"boolean\"\x7d\x7d"),
    outDir := "out/api" }

/-- A working directory with nothing in it, and no web. -/
def workshop : Origin := ⟨⟨["", "w"], []⟩, fun _ => .failure "offline"⟩

/-- A receiver with room for some files. -/
structure Shelf where
  room : Nat

instance : Receiver Shelf where
  write _ _ _ shelf :=
    if shelf.room = 0 then (.error (.refused "no room"), shelf) else (.ok (), ⟨shelf.room - 1⟩)

namespace Run

/-- The file that could not be written, and why. -/
def refusal? {α : Type} : Except RunError α → Option (String × WriteError)
  | .error (.write name e) => some (name, e)
  | _ => none

theorem refusal?_eq_some {α : Type} {outcome : Except RunError α} {name : String} {e : WriteError} :
    refusal? outcome = some (name, e) ↔ outcome = .error (.write name e) := by
  unfold refusal?
  split <;> simp_all

/-- On a shelf with room for two, the third file of a run is refused and two were taken before. -/
theorem shelf_holds_two :
    (generate flagged workshop false (Shelf.mk 2)).outcome =
        .error (.write "jsonrt_result.go" (.refused "no room")) ∧
      ∃ p done content rest, Renders flagged.withDefaults workshop false p ∧
        p.files = done ++ ("jsonrt_result.go", content) :: rest ∧
        (generate flagged workshop false (Journal.opened (Shelf.mk 2))).sink.calls =
          done.map Call.taken ++ [⟨"jsonrt_result.go", content, .error (.refused "no room")⟩] := by
  have stopped : (generate flagged workshop false (Shelf.mk 2)).outcome =
      .error (.write "jsonrt_result.go" (.refused "no room")) := by
    refine refusal?_eq_some.mp ?_
    decide +kernel
  obtain ⟨-, -, failing, -⟩ := deliveries_follow_plan flagged workshop false (Shelf.mk 2)
  exact ⟨stopped, failing _ _ stopped⟩

end Run

end SchemaForge
