import SchemaForge.Proofs.Delivery
import SchemaForge.Proofs.Publishing

/-!
A check after a generating run. Both plan the same files, since a document that is given makes the
plan independent of the tree and the defaults are settled by their first use. Both look for them in
the same places, one name below the output directory. So the check finds each file as the run has
left it, or as somebody has changed it since.
-/
namespace SchemaForge

namespace Config

theorem orDefault_again (default s : String) :
    orDefault default (orDefault default s) = orDefault default s := by
  unfold orDefault
  by_cases empty : s.isEmpty <;> simp [empty]

/-- Applying the defaults twice is applying them once. -/
theorem withDefaults_again (c : Config) : c.withDefaults.withDefaults = c.withDefaults := by
  have same : c.withDefaults.detectFormat = c.detectFormat := rfl
  unfold withDefaults at same ⊢
  simp only [orDefault_again, same]

theorem outFile_nonempty (c : Config) : c.withDefaults.outFile ≠ "" := by
  unfold withDefaults orDefault
  by_cases empty : c.outFile = ""
  · simp [empty, defaultOutFile]
  · simp [empty]

end Config

/-- A name that generated files may have: one segment, and not like that of a temporary file. -/
structure IsFileName (name : String) : Prop extends Path.IsName name where
  lasting : ∀ n, name ≠ Temporary.name n

theorem startsWith_head {lead : Char} {leads cs : List Char}
    (starts : Text.startsWith (lead :: leads) cs = true) : cs.head? = some lead := by
  cases cs with
  | nil => simp [Text.startsWith, Text.dropPrefix?] at starts
  | cons c cs =>
    by_cases same : lead = c
    · rw [same]
      rfl
    · simp [Text.startsWith, Text.dropPrefix?, same] at starts

/-- The name of a source file ends differently from those of temporary files and directories. -/
theorem isFileName_of_last {name : String} (last : name.toList.getLast? = some 'o')
    (one : '/' ∉ name.toList) : IsFileName name where
  nonempty := by rintro rfl; simp at last
  not_point := by rintro rfl; simp at last
  not_points := by rintro rfl; simp at last
  one := one
  lasting n := by
    rintro rfl
    rw [Temporary.name, String.toList_append, List.getLast?_append] at last
    simp at last

theorem outFile_isFileName {c : Config} (clean : c.withDefaults.violations = []) :
    IsFileName c.withDefaults.outFile := by
  have passed : Config.outFileViolations c.withDefaults.outFile = [] := by
    unfold Config.violations at clean
    simp only [List.append_eq_nil_iff] at clean
    exact clean.1.1.2
  unfold Config.outFileViolations at passed
  rw [if_neg (by simpa using c.outFile_nonempty)] at passed
  split at passed
  · cases passed
  · rename_i ends
    have ends : Text.startsWith ['o', 'g', '.'] c.withDefaults.outFile.toList.reverse = true := by
      simpa [Text.endsWith] using ends
    have last := startsWith_head ends
    rw [List.head?_reverse] at last
    refine isFileName_of_last last fun slash => ?_
    have barred : c.withDefaults.outFile.toList.any (fun ch => ch = '/' || ch = '\\') = true :=
      List.any_eq_true.mpr ⟨'/', slash, by simp⟩
    simp [Config.ruled, barred] at passed

theorem support_isFileName {name : String} (member : name ∈ Support.fileNames) :
    IsFileName name := by
  simp only [Support.fileNames, Support.files, List.map_cons, List.map_nil, List.mem_cons,
    List.not_mem_nil, or_false] at member
  rcases member with rfl | rfl | rfl | rfl <;>
    exact isFileName_of_last (by decide) (by decide)

namespace Run

theorem planned_isFileName {c : Config} {origin : Origin} {canceled : Bool} {p : Plan}
    (ready : planned c origin canceled = .ok p) : ∀ f ∈ p.files, IsFileName f.1 := by
  obtain ⟨clean, rendered⟩ := planned_ok_iff.mp ready
  obtain ⟨source, files, -⟩ := rendered.files
  intro f member
  rw [files] at member
  rcases List.mem_cons.mp member with rfl | support
  · exact outFile_isFileName clean
  · cases supported : c.withDefaults.withoutSupport with
    | true => simp [supportOf, supported] at support
    | false =>
      refine support_isFileName ?_
      rw [← supportOf_names supported]
      exact List.mem_map_of_mem support

theorem planned_withDefaults (c : Config) (origin : Origin) (canceled : Bool) :
    planned c.withDefaults origin canceled = planned c origin canceled := by
  unfold planned Config.check
  rw [Config.withDefaults_again]

theorem plan_given {c : Config} {bytes : Bytes} (given : c.document = some bytes)
    (origin other : Origin) (canceled : Bool) : plan c origin canceled = plan c other canceled := by
  have loaded : ∀ origin, load c origin = pure bytes := by
    intro origin
    rw [load, given]
  unfold plan
  rw [loaded origin, loaded other]

/-- With a document that is given, a plan depends on neither files nor web. -/
theorem planned_given {c : Config} {bytes : Bytes} (given : c.document = some bytes)
    (origin other : Origin) (canceled : Bool) :
    planned c origin canceled = planned c other canceled := by
  have still : c.withDefaults.document = some bytes := given
  cases violated : c.withDefaults.violations with
  | nil => simp only [planned, Config.check, violated, plan_given still origin other canceled]
  | cons v vs => simp only [planned, Config.check, violated]

end Run

/-! ### Writing below a directory -/

theorem FileTree.locate_here {t t' : FileTree} (same : t'.here = t.here) (path : String) :
    t'.locate path = t.locate path := by
  unfold locate
  rw [same]

namespace OutputDirectory
variable {d : OutputDirectory} {t t' : FileTree}

theorem resolve_ok {name : String} {place : Location} (resolved : d.resolve t name = .ok place) :
    Path.fault? name = none ∧ place = t.locate (Path.join [d.root, name]) := by
  unfold resolve at resolved
  split at resolved
  · cases resolved
  · rename_i sound
    exact ⟨sound, (Except.ok.inj resolved).symm⟩

theorem write_ok {canceled : Bool} {name : String} {content : Bytes} (isName : IsFileName name)
    (done : d.write canceled name content t = (.ok (), t')) :
    canceled = false ∧ Path.fault? name = none ∧ t'.here = t.here ∧
      t'.entry? (t.locate d.root ++ [name]) = some (.file content d.fileMode) ∧
      (∀ l e, l ≠ t.locate d.root ++ [name] → t.entry? l = some e → t'.entry? l = some e) ∧
      ∀ n, n ≤ (t.locate d.root).length →
        t'.entry? ((t.locate d.root).take n) = some .directory := by
  unfold write at done
  split at done
  · cases done
  rename_i target resolved
  obtain ⟨sound, rfl⟩ := resolve_ok resolved
  rw [FileTree.locate_join t d.root isName.toIsName] at done
  generalize t.locate d.root = root at done ⊢
  have inside :
      (Write.mk name (root ++ [name]) content d.fileMode d.noClobber).directory = root := by
    simp [Write.directory]
  obtain ⟨live, here, target, others, directories⟩ := Write.run_ok done fun n same => by
    rw [inside] at same
    exact isName.lasting n (by simpa using same)
  rw [inside] at directories
  refine ⟨live, sound, here, target, others, fun n bound => directories n bound fun same => ?_⟩
  have longer := congrArg List.length same
  simp at longer
  omega

end OutputDirectory

namespace Run
variable {canceled : Bool} {d : OutputDirectory} {t t' : FileTree}

theorem writeAll_cons {σ : Type} [Receiver σ] {name : String} {content : Bytes}
    {rest : List (String × Bytes)} {sink after : σ}
    (done : writeAll canceled ((name, content) :: rest) sink = (.ok (), after)) :
    ∃ next, Receiver.write canceled name content sink = (.ok (), next) ∧
      writeAll canceled rest next = (.ok (), after) := by
  rw [writeAll] at done
  split at done
  · cases done
  · rename_i next taken
    exact ⟨next, taken, done⟩

theorem write_directory {name : String} {content : Bytes} {next : Sink}
    (taken : Receiver.write canceled name content (Sink.directory d t) = (.ok (), next)) :
    ∃ u, d.write canceled name content t = (.ok (), u) ∧ next = .directory d u := by
  have unfolded : Receiver.write canceled name content (Sink.directory d t) =
      ((d.write canceled name content t).1, .directory d (d.write canceled name content t).2) := rfl
  rw [unfolded] at taken
  obtain ⟨outcome, rfl⟩ := Prod.mk.inj taken
  exact ⟨_, Prod.ext outcome rfl, rfl⟩

/-- What a run has left below a directory: every file in its place with its content, and the
    directories that lead there. -/
structure Generated (d : OutputDirectory) (files : List (String × Bytes)) (t : FileTree) :
    Prop where
  sound : ∀ f ∈ files, Path.fault? f.1 = none
  written : ∀ f ∈ files, t.entry? (t.locate d.root ++ [f.1]) = some (.file f.2 d.fileMode)
  reached : files ≠ [] → ∀ n, n ≤ (t.locate d.root).length →
    t.entry? ((t.locate d.root).take n) = some .directory

/-- Later files leave the earlier ones in place, since all have different names. -/
theorem writeAll_directory {files : List (String × Bytes)} {sink : Sink}
    (names : ∀ f ∈ files, IsFileName f.1) (distinct : (files.map (·.1)).Nodup)
    (done : writeAll canceled files (Sink.directory d t) = (.ok (), sink)) :
    ∃ t', sink = .directory d t' ∧ t'.here = t.here ∧ (files ≠ [] → canceled = false) ∧
      Generated d files t' ∧
      ∀ l e, (∀ f ∈ files, l ≠ t.locate d.root ++ [f.1]) → t.entry? l = some e →
        t'.entry? l = some e := by
  induction files generalizing t with
  | nil =>
    obtain rfl := (Prod.mk.inj done).2
    exact ⟨t, rfl, rfl, by simp, ⟨by simp, by simp, by simp⟩, fun _ _ _ there => there⟩
  | cons f rest ih =>
    obtain ⟨name, content⟩ := f
    obtain ⟨next, taken, done⟩ := writeAll_cons done
    obtain ⟨u, written, rfl⟩ := write_directory taken
    obtain ⟨live, sound, here, target, others, directories⟩ :=
      OutputDirectory.write_ok (names _ List.mem_cons_self) written
    obtain ⟨fresh, distinct⟩ := List.nodup_cons.mp distinct
    obtain ⟨t', rfl, here', -, generated, kept⟩ :=
      ih (fun f member => names f (List.mem_cons_of_mem _ member)) distinct done
    have root : t'.locate d.root = t.locate d.root := FileTree.locate_here (here'.trans here) _
    rw [FileTree.locate_here here] at kept
    -- a place that is none of the later files' is not touched any more
    have first : ∀ f ∈ rest, t.locate d.root ++ [name] ≠ t.locate d.root ++ [f.1] := by
      intro f member same
      refine fresh (List.mem_map.mpr ⟨f, member, ?_⟩)
      simpa using same.symm
    have above : ∀ n, ∀ f ∈ rest, (t.locate d.root).take n ≠ t.locate d.root ++ [f.1] := by
      intro n f member same
      have longer := congrArg List.length same
      simp at longer
      omega
    refine ⟨t', rfl, here'.trans here, fun _ => live, ⟨?_, ?_, fun _ => ?_⟩, ?_⟩
    · intro f member
      rcases List.mem_cons.mp member with rfl | later
      · exact sound
      · exact generated.sound f later
    · intro f member
      rcases List.mem_cons.mp member with rfl | later
      · rw [root]
        exact kept _ _ first target
      · exact generated.written f later
    · rw [root]
      exact fun n bound => kept _ _ (above n) (directories n bound)
    · intro l e apart there
      refine kept l e (fun f member => apart f (List.mem_cons_of_mem _ member)) ?_
      exact others l e (apart _ List.mem_cons_self) there

end Run

/-! ### Comparing -/

namespace Drift

/-- A listing of files with their statuses: each once, by path. -/
structure Lists (drifts : List Drift) (names : List String) (status : String → DriftStatus) :
    Prop where
  each : drifts.Perm (names.map fun name => ⟨name, status name⟩)
  inOrder : drifts.Pairwise fun a b => byteLess a.path b.path = true

theorem sorted_lists {names : List String} (distinct : names.Nodup)
    (status : String → DriftStatus) :
    Lists (sorted (names.map fun name => ⟨name, status name⟩)) names status := by
  have perm : (sorted (names.map fun name => ⟨name, status name⟩)).Perm
      (names.map fun name => ⟨name, status name⟩) := List.mergeSort_perm _ _
  refine ⟨perm, ?_⟩
  have ordered : (sorted (names.map fun name => (⟨name, status name⟩ : Drift))).Pairwise
      fun a b => (!byteLess b.path a.path) = true := by
    refine List.pairwise_mergeSort ?_ ?_ _
    · intro a b c first second
      simp only [byteLess, Bool.not_eq_true', decide_eq_false_iff_not, List.not_lt] at *
      exact List.le_trans first second
    · intro a b
      simp only [byteLess, Bool.or_eq_true, Bool.not_eq_true', decide_eq_false_iff_not, List.not_lt]
      exact List.le_total _ _
  have apart : (sorted (names.map fun name => (⟨name, status name⟩ : Drift))).Pairwise
      fun a b => a.path ≠ b.path := by
    refine perm.symm.pairwise (List.pairwise_map.mpr distinct) fun ne => Ne.symm ne
  refine (ordered.and apart).imp fun ⟨le, ne⟩ => ?_
  simp only [byteLess, Bool.not_eq_true', decide_eq_false_iff_not, decide_eq_true_eq, List.not_lt]
    at le ⊢
  rcases List.le_iff_lt_or_eq.mp le with less | same
  · exact less
  · exact absurd (String.toList_injective same) ne

theorem Lists.isStale_iff {drifts : List Drift} {names : List String}
    {status : String → DriftStatus} (lists : Lists drifts names status) :
    isStale drifts = true ↔ ∃ name ∈ names, status name ≠ .upToDate := by
  unfold isStale
  rw [List.any_eq_true]
  constructor
  · rintro ⟨d, member, stale⟩
    obtain ⟨name, inside, rfl⟩ := List.mem_map.mp (lists.each.mem_iff.mp member)
    exact ⟨name, inside, by simpa using stale⟩
  · rintro ⟨name, inside, stale⟩
    exact ⟨_, lists.each.mem_iff.mpr (List.mem_map_of_mem inside), by simpa using stale⟩

end Drift

namespace OutputDirectory
variable {d : OutputDirectory} {t : FileTree} {name : String}

theorem compare_file (isName : IsFileName name) (sound : Path.fault? name = none) {old : Bytes}
    {mode : Nat} (there : t.entry? (t.locate d.root ++ [name]) = some (.file old mode))
    (content : Bytes) :
    d.compare false name content t =
      .ok ⟨name, if old = content then .upToDate else .modified⟩ := by
  have resolved : d.resolve t name = .ok (t.locate d.root ++ [name]) := by
    rw [resolve, sound, FileTree.locate_join t d.root isName.toIsName]
  simp [compare, resolved, FileTree.status, there]

theorem compare_missing (isName : IsFileName name) (sound : Path.fault? name = none)
    (absent : t.entry? (t.locate d.root ++ [name]) = none)
    (reached : ∀ n, n ≤ (t.locate d.root).length →
      t.entry? ((t.locate d.root).take n) = some .directory) (content : Bytes) :
    d.compare false name content t = .ok ⟨name, .missing⟩ := by
  have resolved : d.resolve t name = .ok (t.locate d.root ++ [name]) := by
    rw [resolve, sound, FileTree.locate_join t d.root isName.toIsName]
  have free : ((List.range (t.locate d.root ++ [name]).length).any fun n =>
      t.isFile ((t.locate d.root ++ [name]).take n)) = false := by
    rw [List.any_eq_false]
    intro n member
    have bound : n ≤ (t.locate d.root).length := by
      have := List.mem_range.mp member
      simp at this
      omega
    rw [List.take_append_of_le_length bound, FileTree.isFile, reached n bound]
    simp
  have gone : t.status (t.locate d.root ++ [name]) = .error .notFound := by
    rw [FileTree.status, absent, free]
    rfl
  simp [compare, resolved, gone]

end OutputDirectory

namespace Run
variable {canceled : Bool} {d : OutputDirectory} {t : FileTree}

theorem writeAll_comparison {files : List (String × Bytes)} (status : String → DriftStatus)
    (each : ∀ f ∈ files, d.compare canceled f.1 f.2 t = .ok ⟨f.1, status f.1⟩)
    (drifts : List Drift) :
    writeAll canceled files (Sink.comparison d t drifts) =
      (.ok (), .comparison d t (drifts ++ files.map fun f => ⟨f.1, status f.1⟩)) := by
  induction files generalizing drifts with
  | nil => simp [writeAll]
  | cons f rest ih =>
    obtain ⟨name, content⟩ := f
    have taken : Receiver.write canceled name content (Sink.comparison d t drifts) =
        (.ok (), .comparison d t (drifts ++ [⟨name, status name⟩])) := by
      change Sink.write canceled name content (.comparison d t drifts) = _
      rw [Sink.write, each _ List.mem_cons_self]
    rw [writeAll, taken]
    simp only
    rw [ih fun f member => each f (List.mem_cons_of_mem _ member)]
    simp

/-- A comparison has the tree it started with, whatever it finds. -/
theorem writeAll_tree (canceled : Bool) (files : List (String × Bytes)) (d : OutputDirectory)
    (t : FileTree) (drifts : List Drift) :
    (writeAll canceled files (Sink.comparison d t drifts)).2.tree? = some t := by
  induction files generalizing drifts with
  | nil => rfl
  | cons f rest ih =>
    obtain ⟨name, content⟩ := f
    have same : Receiver.write canceled name content (Sink.comparison d t drifts) =
        Sink.write canceled name content (.comparison d t drifts) := rfl
    rw [writeAll, same, Sink.write]
    cases d.compare canceled name content t with
    | error e => rfl
    | ok drift => exact ih _

theorem check_tree (c : Config) (origin : Origin) (canceled : Bool) :
    (check c origin canceled).sink.tree? = some origin.tree := by
  unfold check
  cases ready : planned c.withDefaults origin canceled with
  | error e =>
    obtain ⟨-, untouched⟩ := run_unplanned .check
      (Sink.comparison { root := c.withDefaults.outDir } origin.tree []) ready
    simp only [untouched]
    rfl
  | ok p =>
    obtain ⟨-, after⟩ := run_planned .check
      (Sink.comparison { root := c.withDefaults.outDir } origin.tree []) ready
    simp only [after]
    exact writeAll_tree _ _ _ _ _

end Run

/-! ### Edits -/

/-- What becomes of a generated file. -/
inductive Edit where
  | kept
  | changed
  | removed
  deriving DecidableEq, Repr

namespace Edit

def status : Edit → DriftStatus
  | .kept => .upToDate
  | .changed => .modified
  | .removed => .missing

/-- An edit by the entry of its file before and after. A change is one of the bytes. -/
inductive Made : Edit → Option FileEntry → Option FileEntry → Prop where
  | kept (entry : Option FileEntry) : Made .kept entry entry
  | changed {old new : Bytes} {mode mode' : Nat} (differs : new ≠ old) :
    Made .changed (some (.file old mode)) (some (.file new mode'))
  | removed (entry : Option FileEntry) : Made .removed entry none

end Edit

/-- A tree after edits to the files of some names below a directory, and to nothing else. -/
structure Edited (root : String) (names : List String) (edit : String → Edit) (t t' : FileTree) :
    Prop where
  here : t'.here = t.here
  made : ∀ name ∈ names, (edit name).Made (t.entry? (t.locate (Path.join [root, name])))
    (t'.entry? (t.locate (Path.join [root, name])))
  others : ∀ l, (∀ name ∈ names, l ≠ t.locate (Path.join [root, name])) →
    t'.entry? l = t.entry? l

theorem Edited.unchanged (root : String) (names : List String) (t : FileTree) :
    Edited root names (fun _ => .kept) t t :=
  ⟨rfl, fun _ _ => .kept _, fun _ _ => rfl⟩

namespace Run
variable {d : OutputDirectory} {files : List (String × Bytes)} {t t' : FileTree}
  {edit : String → Edit}

/-- Each file compares as its edit says. -/
theorem compare_edited (names : ∀ f ∈ files, IsFileName f.1) (generated : Generated d files t)
    (edited : Edited d.root (files.map (·.1)) edit t t') {f : String × Bytes} (member : f ∈ files) :
    d.compare false f.1 f.2 t' = .ok ⟨f.1, (edit f.1).status⟩ := by
  have root : t'.locate d.root = t.locate d.root := FileTree.locate_here edited.here _
  have place : ∀ f ∈ files, t.locate (Path.join [d.root, f.1]) = t.locate d.root ++ [f.1] :=
    fun f member => FileTree.locate_join t d.root (names f member).toIsName
  have made := edited.made f.1 (List.mem_map_of_mem member)
  rw [place f member, generated.written f member, ← root] at made
  have sound := generated.sound f member
  generalize after : t'.entry? (t'.locate d.root ++ [f.1]) = entry at made
  generalize (edit f.1) = done at made ⊢
  cases made with
  | kept =>
    rw [OutputDirectory.compare_file (names f member) sound after, if_pos rfl]
    rfl
  | changed differs =>
    rw [OutputDirectory.compare_file (names f member) sound after, if_neg differs]
    rfl
  | removed =>
    refine OutputDirectory.compare_missing (names f member) sound after (fun n bound => ?_) f.2
    rw [root] at bound ⊢
    rw [edited.others, generated.reached (List.ne_nil_of_mem member) n bound]
    -- the directories above are shorter than any place of a file
    intro name inside same
    obtain ⟨g, there, rfl⟩ := List.mem_map.mp inside
    rw [place g there] at same
    have longer := congrArg List.length same
    simp at longer
    omega

/-- A check of an edited tree goes through, and lists each file with what became of it. -/
theorem check_edited {c : Config} {bytes : Bytes} (given : c.document = some bytes)
    {origin : Origin} {p : Plan} (ready : planned c origin false = .ok p)
    (generated : Generated { root := c.withDefaults.outDir } p.files t)
    (edited : Edited c.withDefaults.outDir (p.files.map (·.1)) edit t t') (web : Web) :
    (check c ⟨t', web⟩ false).outcome = .ok p.report ∧
      Drift.Lists (check c ⟨t', web⟩ false).sink.drifts p.report.files
        (fun name => (edit name).status) := by
  obtain ⟨-, rendered⟩ := planned_ok_iff.mp ready
  obtain ⟨-, -, distinct⟩ := rendered.files
  have again : planned c.withDefaults ⟨t', web⟩ false = .ok p := by
    rw [planned_withDefaults, planned_given given ⟨t', web⟩ origin, ready]
  obtain ⟨outcome, after⟩ := run_planned .check
    (Sink.comparison { root := c.withDefaults.outDir } t' []) again
  have compared := writeAll_comparison (fun name => (edit name).status)
    (fun f member => compare_edited (planned_isFileName ready) generated edited member) []
  unfold check
  simp only [outcome, after, compared]
  refine ⟨rfl, ?_⟩
  have listed : p.files.map (fun f => (⟨f.1, (edit f.1).status⟩ : Drift)) =
      p.report.files.map fun name => ⟨name, (edit name).status⟩ := by
    simp [Plan.report]
  rw [List.nil_append, listed]
  exact Drift.sorted_lists distinct _

/-- After a run that succeeds its files are in the tree, and a check of its directory goes through
    and reports the same. It lists the files of the run by path, all up to date. After edits it
    lists them with what became of each, and calls them stale exactly if one was touched. No check
    changes the tree. -/
theorem checks_report_edits {c : Config} {bytes : Bytes} (given : c.document = some bytes)
    {origin : Origin} {canceled : Bool} {report : Report}
    (done : (toDirectory c origin canceled).outcome = .ok report) :
    ∃ t, (toDirectory c origin canceled).sink.tree? = some t ∧ t.here = origin.tree.here ∧
      (∀ name ∈ report.files, ∃ content mode,
        t.entry? (t.locate (Path.join [c.withDefaults.outDir, name])) = some (.file content mode)) ∧
      (∀ web, (check c ⟨t, web⟩ canceled).outcome = .ok report ∧
        Drift.Lists (check c ⟨t, web⟩ canceled).sink.drifts report.files (fun _ => .upToDate) ∧
        Drift.isStale (check c ⟨t, web⟩ canceled).sink.drifts = false) ∧
      (∀ web edit t', Edited c.withDefaults.outDir report.files edit t t' →
        (check c ⟨t', web⟩ canceled).outcome = .ok report ∧
        Drift.Lists (check c ⟨t', web⟩ canceled).sink.drifts report.files
          (fun name => (edit name).status) ∧
        (Drift.isStale (check c ⟨t', web⟩ canceled).sink.drifts = true ↔
          ∃ name ∈ report.files, edit name ≠ .kept)) ∧
      ∀ c origin canceled, (check c origin canceled).sink.tree? = some origin.tree := by
  obtain ⟨p, ready, rfl, written⟩ := run_succeeded done
  rw [planned_withDefaults] at ready
  obtain ⟨-, rendered⟩ := planned_ok_iff.mp ready
  obtain ⟨source, files, distinct⟩ := rendered.files
  obtain ⟨t, sink, here, live, generated, -⟩ :=
    writeAll_directory (planned_isFileName ready) distinct written
  obtain rfl : canceled = false := live (by simp [files])
  refine ⟨t, ?_, here, fun name member => ?_, fun web => ?_, fun web edit t' edited => ?_,
    check_tree⟩
  · unfold toDirectory generate
    simp only [sink]
    rfl
  · obtain ⟨f, inside, rfl⟩ := List.mem_map.mp member
    refine ⟨f.2, OutputDirectory.fileMode { root := c.withDefaults.outDir }, ?_⟩
    rw [FileTree.locate_join t _ (planned_isFileName ready f inside).toIsName]
    exact generated.written f inside
  · obtain ⟨outcome, lists⟩ := check_edited given ready generated (Edited.unchanged _ _ t) web
    refine ⟨outcome, lists, ?_⟩
    rw [← Bool.not_eq_true, lists.isStale_iff]
    simp [Edit.status]
  · obtain ⟨outcome, lists⟩ := check_edited given ready generated edited web
    refine ⟨outcome, lists, lists.isStale_iff.trans ?_⟩
    refine exists_congr fun name => and_congr_right fun _ => not_congr ?_
    cases edit name <;> simp [Edit.status]

theorem flagged_generated : ∃ report, (toDirectory flagged workshop false).outcome = .ok report ∧
    report.files = ["validators.go", "jsonrt_value.go", "jsonrt_result.go", "jsonrt_validate.go",
      "jsonrt_convert.go"] := by
  have seen : (toDirectory flagged workshop false).outcome.toOption.any (fun report =>
      decide (report.files = ["validators.go", "jsonrt_value.go", "jsonrt_result.go",
        "jsonrt_validate.go", "jsonrt_convert.go"])) = true := by decide +kernel
  obtain ⟨report, outcome, files⟩ := toOption_any_iff.mp seen
  exact ⟨report, outcome, of_decide_eq_true files⟩

/-- After the sample's run a byte is put in front of one file and another is removed, and a check
    says so. -/
theorem touched_files_reported :
    ∃ report t old mode, (toDirectory flagged workshop false).outcome = .ok report ∧
      (toDirectory flagged workshop false).sink.tree? = some t ∧
      let t' := (t.put ["", "w", "out", "api", "validators.go"] (.file (0 :: old) mode)).erase
        ["", "w", "out", "api", "jsonrt_value.go"]
      let now := check flagged ⟨t', workshop.web⟩ false
      let edit name : Edit := if name = "validators.go" then .changed
        else if name = "jsonrt_value.go" then .removed else .kept
      t.entry? ["", "w", "out", "api", "validators.go"] = some (.file old mode) ∧
      now.outcome = .ok report ∧
      Drift.Lists now.sink.drifts ["validators.go", "jsonrt_value.go", "jsonrt_result.go",
        "jsonrt_validate.go", "jsonrt_convert.go"] (fun name => (edit name).status) ∧
      Drift.isStale now.sink.drifts = true := by
  let names := ["validators.go", "jsonrt_value.go", "jsonrt_result.go", "jsonrt_validate.go",
    "jsonrt_convert.go"]
  obtain ⟨report, done, files⟩ := flagged_generated
  obtain ⟨t, tree, here, there, -, after, -⟩ := checks_report_edits rfl done
  rw [files] at there after
  have place : ∀ name ∈ names, t.locate (Path.join [flagged.withDefaults.outDir, name]) =
      ["", "w", "out", "api", name] := by
    intro name member
    have isName : IsFileName name := by
      rcases List.mem_cons.mp member with rfl | support
      · exact isFileName_of_last (by decide) (by decide)
      · exact support_isFileName support
    have root : t.locate flagged.withDefaults.outDir = ["", "w", "out", "api"] := by
      rw [FileTree.locate, here]
      decide
    rw [FileTree.locate_join _ _ isName.toIsName, root]
    rfl
  obtain ⟨old, mode, first⟩ := there "validators.go" (by simp)
  rw [place _ (by simp [names])] at first
  refine ⟨report, t, old, mode, done, tree, ?_⟩
  intro t' now edit
  have edited : Edited flagged.withDefaults.outDir names edit t t' := by
    refine ⟨rfl, fun name member => ?_, fun l apart => ?_⟩
    · rw [place name member]
      simp only [names, List.mem_cons, List.not_mem_nil, or_false] at member
      have free : ∀ name, ["", "w", "out", "api", name].isPrefixOf t.here = false := by
        intro name
        rw [here]
        simp [workshop]
      rcases member with rfl | rfl | rfl | rfl | rfl
      · rw [FileTree.entry_erase_ne (by decide), FileTree.entry_put_self (free _), first]
        exact .changed (List.cons_ne_self _ _)
      · have gone : t'.entry? ["", "w", "out", "api", "jsonrt_value.go"] = none :=
          FileTree.entry_erase_self (free _)
        rw [gone]
        exact .removed _
      all_goals
        rw [FileTree.entry_erase_ne (by decide), FileTree.entry_put_ne (by decide)]
        exact .kept _
    · have other := apart "jsonrt_value.go" (by simp [names])
      have another := apart "validators.go" (by simp [names])
      rw [place _ (by simp [names])] at other another
      rw [FileTree.entry_erase_ne other, FileTree.entry_put_ne another]
  obtain ⟨outcome, lists, stale⟩ := after workshop.web edit t' edited
  exact ⟨first, outcome, lists, stale.mpr ⟨"validators.go", by simp, by simp [edit]⟩⟩

end Run

end SchemaForge
