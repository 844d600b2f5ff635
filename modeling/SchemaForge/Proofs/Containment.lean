import SchemaForge.Proofs.Atomicity
import SchemaForge.Sink.Basic

/-!
Staying below a directory. A name is accepted if slashes part it into names, or if it is the single
point. Names lead below the output directory, and a write touches only the directory of its target
and directories that are missing on the way. So whatever calls run side by side, nothing outside
changes but missing directories that lead to the output directory. The single point is different:
it leads to the output directory itself.
-/
namespace SchemaForge

namespace Path

/-! ### Accepted names -/

/-- A letter and a colon come first, as in the names of drives. -/
def StartsWithDrive (name : String) : Prop :=
  ∃ c rest, name.toList = c :: ':' :: rest ∧ (('a' ≤ c ∧ c ≤ 'z') ∨ ('A' ≤ c ∧ c ≤ 'Z'))

theorem isDrive_iff {name : String} : isDrive name.toList = true ↔ StartsWithDrive name := by
  unfold StartsWithDrive
  constructor
  · intro drive
    unfold isDrive at drive
    split at drive
    · next c rest chars =>
      exact ⟨c, rest, chars, by simpa using drive⟩
    · cases drive
  · rintro ⟨c, rest, chars, letter⟩
    rw [chars, isDrive]
    simpa using letter

theorem descends_iff {name : String} : Descends name ↔
    ∃ names, names ≠ [] ∧ (∀ s ∈ names, IsName s) ∧ Text.joinWith "/" names = name := by
  constructor
  · intro descends
    exact ⟨segments name, segments_ne_nil name, descends.names, descends.spelled⟩
  · rintro ⟨names, some_, all, rfl⟩
    obtain ⟨first, rest, rfl⟩ := List.exists_cons_of_ne_nil some_
    have parts := segments_joinWith fun s member => (all s member).one
    exact ⟨by rwa [parts], by rw [parts]⟩

theorem Descends.clean_eq {name : String} (descends : Descends name)
    (relative : isRooted name = false) : clean name = name := by
  have kept : cleanOnto false [] ([] ++ segments name) = segments name := by
    rw [cleanOnto_names descends.names]
    rfl
  rw [List.nil_append] at kept
  have some_ : (segments name).isEmpty = false := by simpa using segments_ne_nil name
  rw [clean, relative, kept, ofSegments, if_neg (by simp), some_]
  exact descends.spelled

theorem Descends.fault_iff {name : String} (descends : Descends name) :
    fault? name = none ↔ '\\' ∉ name.toList ∧ ¬ StartsWithDrive name := by
  obtain ⟨first, rest, parts⟩ := List.exists_cons_of_ne_nil (segments_ne_nil name)
  have named : IsName first := descends.names first (by simp [parts])
  have relative := not_rooted parts named.nonempty
  have whole : name.isEmpty = false := by
    by_contra empty
    obtain rfl : name = "" := by simpa using empty
    exact (descends.names "" (by decide)).nonempty rfl
  have down : ".." ∉ segments name := fun up => (descends.names ".." up).not_points rfl
  rw [← isDrive_iff]
  by_cases drive : isDrive name.toList = true
  · simp [fault?, whole, relative, drive]
  by_cases backslash : '\\' ∈ name.toList
  · simp [fault?, whole, relative, drive, backslash]
  · simp [fault?, whole, relative, drive, backslash, down, descends.clean_eq relative]

/-- What is accepted below a directory, besides the single point. -/
theorem fault_none_iff (name : String) : fault? name = none ↔ name = "." ∨
    ((∃ names, names ≠ [] ∧ (∀ s ∈ names, IsName s) ∧ Text.joinWith "/" names = name) ∧
      '\\' ∉ name.toList ∧ ¬ StartsWithDrive name) := by
  rw [← descends_iff]
  constructor
  · intro valid
    by_cases point : name = "."
    · exact .inl point
    · have descends := descends_of_valid valid point
      exact .inr ⟨descends, descends.fault_iff.mp valid⟩
  · rintro (rfl | ⟨descends, plain⟩)
    · decide
    · exact descends.fault_iff.mpr plain

end Path

/-! ### Places below a directory -/

namespace FileTree

/-- Places that a directory holds, at any depth. -/
def Below (root l : Location) : Prop := root <+: l ∧ l ≠ root

instance (root l : Location) : Decidable (Below root l) :=
  inferInstanceAs (Decidable (root <+: l ∧ l ≠ root))

theorem below_append {root names : Location} (some_ : names ≠ []) : Below root (root ++ names) :=
  ⟨List.prefix_append root names, fun same => some_ (by simpa using same)⟩

/-- A place on the way to one below a directory is below it too or on the way to it. -/
theorem below_or_above {root l names : Location} (onto : l <+: root ++ names) :
    Below root l ∨ l <+: root := by
  rcases List.prefix_or_prefix_of_prefix onto (List.prefix_append root names) with above | below
  · exact .inr above
  · by_cases same : l = root
    · exact .inr (same ▸ List.prefix_rfl)
    · exact .inl ⟨below, same⟩

/-- Nothing has changed but what is below a directory, except that directories which were missing
    on the way to it have been made. -/
def SameOutside (root : Location) (t t' : FileTree) : Prop :=
  ∀ l, ¬ Below root l →
    t'.entry? l = t.entry? l ∨ (t.entry? l = none ∧ t'.entry? l = some .directory ∧ l <+: root)

theorem SameOutside.refl (root : Location) (t : FileTree) : SameOutside root t t :=
  fun _ _ => .inl rfl

theorem SameOutside.trans {root : Location} {t t' t'' : FileTree} (first : SameOutside root t t')
    (second : SameOutside root t' t'') : SameOutside root t t'' := by
  intro l outside
  rcases second l outside with same | ⟨absent, made, above⟩
  · rw [same]
    exact first l outside
  · rcases first l outside with same | ⟨-, there, -⟩
    · exact .inr ⟨same ▸ absent, made, above⟩
    · rw [absent] at there
      cases there

end FileTree

open FileTree (Below SameOutside)

namespace OutputDirectory
variable {d : OutputDirectory} {t t' : FileTree} {name : String} {target : Location}

theorem locate_point (t : FileTree) (root : String) :
    t.locate (Path.join [root, "."]) = t.locate root := by
  rw [t.locate_onto root (by decide) (by decide), show Path.segments "." = ["."] by decide]
  simp [Path.cleanOnto, FileTree.locate]

/-- Where an accepted name leads. -/
theorem resolve_ok_iff : d.resolve t name = .ok target ↔ Path.fault? name = none ∧
    ((name = "." ∧ target = t.locate d.root) ∨
      (name ≠ "." ∧ target = t.locate d.root ++ Path.segments name)) := by
  unfold resolve
  cases valid : Path.fault? name with
  | some fault => simp
  | none =>
    by_cases point : name = "."
    · simp [point, locate_point, eq_comm]
    · have descends := Path.descends_of_valid valid point
      simp [point, t.locate_below d.root descends.names, eq_comm]

theorem resolve_below_iff (resolved : d.resolve t name = .ok target) :
    Below (t.locate d.root) target ↔ name ≠ "." := by
  rcases (resolve_ok_iff.mp resolved).2 with ⟨point, rfl⟩ | ⟨other, rfl⟩
  · simp [Below, point]
  · exact iff_of_true (FileTree.below_append (Path.segments_ne_nil name)) other

end OutputDirectory

/-! ### What a write touches -/

namespace Write
variable {w : Write} {used : Location → Prop} {p p' : Progress} {t t' : FileTree} {l : Location}

/-- A place in the directory that the target is in. -/
def Beside (w : Write) (l : Location) : Prop := ∃ name, l = w.directory ++ [name]

theorem beside_target (some_ : w.target ≠ []) : w.Beside w.target :=
  ⟨w.target.getLast some_, (List.dropLast_concat_getLast some_).symm⟩

/-- What a step does to the tree: beside the target anything, and on the way there directories
    that are missing. -/
structure Reach (w : Write) (p' : Progress) (t t' : FileTree) : Prop where
  here : t'.here = t.here
  held : ∀ l, p'.held? = some l → w.Beside l
  others : ∀ l, ¬ w.Beside l → t'.entry? l = t.entry? l ∨
    (t.entry? l = none ∧ t'.entry? l = some .directory ∧ l <+: w.directory)

theorem beside_of_none (none : p'.held? = none) : ∀ l, p'.held? = some l → w.Beside l := by
  intro l own
  rw [none] at own
  cases own

theorem Reach.quiet (held : ∀ l, p'.held? = some l → w.Beside l) : w.Reach p' t t :=
  ⟨rfl, held, fun _ _ => .inl rfl⟩

theorem Reach.put {e : FileEntry} (held : ∀ k, p'.held? = some k → w.Beside k)
    (beside : w.Beside l) : w.Reach p' t (t.put l e) := by
  refine ⟨rfl, held, fun k apart => .inl (FileTree.entry_put_ne ?_)⟩
  intro same
  exact apart (same ▸ beside)

theorem Reach.erase (held : ∀ k, p'.held? = some k → w.Beside k) (beside : w.Beside l) :
    w.Reach p' t (t.erase l) := by
  refine ⟨rfl, held, fun k apart => .inl (FileTree.entry_erase_ne ?_)⟩
  intro same
  exact apart (same ▸ beside)

theorem Reach.makeDirectories {n : Nat} (made : t.makeDirectories (w.directory.take n) = .ok t')
    (none : p'.held? = none) : w.Reach p' t t' := by
  refine ⟨(FileTree.makeDirectories_ok made).1, beside_of_none none, fun l _ => ?_⟩
  rcases FileTree.makeDirectories_changes made l with same | ⟨absent, there, above⟩
  · exact .inl same
  · exact .inr ⟨absent, there, above.trans (List.take_prefix n _)⟩

theorem Reach.publish (published : w.publish l t = .ok t') (some_ : w.target ≠ [])
    (held : ∀ k, p'.held? = some k → w.Beside k) (beside : w.Beside l) : w.Reach p' t t' := by
  obtain ⟨e, filled, -⟩ := publish_cases published
  obtain ⟨-, -, others⟩ := publish_entries published filled
  refine ⟨publish_here published, held, fun k apart => .inl (others k ?_ ?_)⟩
  · rintro rfl
    exact apart (beside_target some_)
  · rintro rfl
    exact apart beside

/-- Every step reaches no further, if the temporary file is beside the target so far. Unlike its
    whole effect this does not depend on what other writes do. -/
theorem Moves.reach (moved : w.Moves used (p, t) (p', t')) (some_ : w.target ≠ [])
    (held : ∀ l, p.held? = some l → w.Beside l) : w.Reach p' t t' := by
  generalize before : (p, t) = x at moved
  generalize after : (p', t') = y at moved
  cases moved with
  | makeDirectories n made =>
    cases before
    cases after
    exact .makeDirectories made rfl
  | @create _ name named absent unused =>
    cases before
    cases after
    have beside : w.Beside (w.directory ++ [name]) := ⟨name, rfl⟩
    refine .put (fun l own => ?_) beside
    obtain rfl := Option.some.inj own
    exact beside
  | @write _ l n =>
    cases before
    cases after
    exact .put held (held l rfl)
  | fail e =>
    cases before
    cases after
    cases p with
    | begun | prepared => exact .quiet (beside_of_none rfl)
    | opened l | filled l | permitted l | closing l => exact .quiet held
    | finished => exact .quiet held
  | step canceled other =>
    cases before
    cases p with
    | prepared => exact absurd rfl other
    | begun =>
      rw [Write.step] at after
      split at after
      · cases after
        exact .quiet (beside_of_none rfl)
      · split at after
        · cases after
          exact .quiet (beside_of_none rfl)
        · next made =>
          cases after
          have whole : w.directory.take w.directory.length = w.directory := List.take_length
          exact .makeDirectories (whole.symm ▸ made) rfl
    | opened l | filled l =>
      cases after
      exact .put held (held l rfl)
    | permitted l =>
      rw [Write.step] at after
      split at after
      · cases after
        exact .quiet held
      · split at after
        · cases after
          exact .quiet held
        · next published =>
          cases after
          exact .publish published some_ held (held l rfl)
    | closing l outcome =>
      cases after
      exact .erase (beside_of_none rfl) (held l rfl)
    | finished outcome =>
      cases after
      exact .quiet held

end Write

/-! ### Calls side by side -/

section Calls
variable {ι : Type} {d : OutputDirectory} {calls : ι → WriteCall} {t t' : FileTree} {i : ι}
variable {w : Write} {l : Location}

theorem request_directory (request : d.request t (calls i) = .ok w) (other : (calls i).name ≠ ".") :
    w.directory = t.locate d.root ++ (Path.segments (calls i).name).dropLast := by
  rw [Write.directory, request_target request other,
    List.dropLast_append_of_ne_nil (Path.segments_ne_nil _)]

theorem beside_below (request : d.request t (calls i) = .ok w) (other : (calls i).name ≠ ".")
    (beside : w.Beside l) : Below (t.locate d.root) l := by
  obtain ⟨name, rfl⟩ := beside
  rw [request_directory request other, List.append_assoc]
  exact FileTree.below_append (by simp)

/-- A moment at which temporary files are below a directory and nothing has changed outside. -/
structure Session.Confined (root : Location) (t : FileTree) (s : Session ι) : Prop where
  held : ∀ l, s.Held l → Below root l
  outside : SameOutside root t s.tree

/-- What every step keeps: each call holds its temporary file beside its own target. -/
structure Session.Placed (d : OutputDirectory) (calls : ι → WriteCall) (t : FileTree)
    (s : Session ι) : Prop where
  here : s.tree.here = t.here
  held : ∀ i l, (s.progress i).held? = some l → ∃ w, d.request t (calls i) = .ok w ∧ w.Beside l
  outside : SameOutside (t.locate d.root) t s.tree

namespace Session.Placed
variable {s s' : Session ι}

theorem start (d : OutputDirectory) (calls : ι → WriteCall) (t : FileTree) :
    (Session.start d calls t).Placed d calls t := by
  refine ⟨rfl, fun i l held => ?_, .refl _ t⟩
  simp only [Session.start] at held
  split at held <;> cases held

theorem confined (placed : s.Placed d calls t) (other : ∀ i, (calls i).name ≠ ".") :
    s.Confined (t.locate d.root) t := by
  refine ⟨?_, placed.outside⟩
  rintro l ⟨i, held⟩
  obtain ⟨w, request, beside⟩ := placed.held i l held
  exact beside_below request (other i) beside

variable [DecidableEq ι]

theorem step (placed : s.Placed d calls t) (other : ∀ i, (calls i).name ≠ ".")
    (moved : Session.Moves d calls i s s') : s'.Placed d calls t := by
  obtain ⟨request, moved⟩ := moved
  rename_i w p u
  rw [request_here placed.here] at request
  have target := request_target request (other i)
  have directory := request_directory request (other i)
  have own : ∀ l, (s.progress i).held? = some l → w.Beside l := by
    intro l held
    obtain ⟨v, same, beside⟩ := placed.held i l held
    obtain rfl := Except.ok.inj (request.symm.trans same)
    exact beside
  have reach := moved.reach (by simp [target, Path.segments_ne_nil]) own
  refine ⟨reach.here.trans placed.here, fun j l held => ?_, placed.outside.trans ?_⟩
  · by_cases moving : j = i
    · subst moving
      rw [Session.after_self] at held
      exact ⟨w, request, reach.held l held⟩
    · rw [Session.after_other moving] at held
      exact placed.held j l held
  · intro l outside
    have apart := fun beside => outside (beside_below request (other i) beside)
    rcases reach.others l apart with same | ⟨absent, made, onto⟩
    · exact .inl same
    · rw [directory] at onto
      exact .inr ⟨absent, made, (FileTree.below_or_above onto).resolve_left outside⟩

theorem run (placed : s.Placed d calls t) (other : ∀ i, (calls i).name ≠ ".")
    (ran : Session.Run d calls s s') : s'.Placed d calls t := by
  induction ran with
  | refl => exact placed
  | tail _ moved ih =>
    obtain ⟨i, moved⟩ := moved
    exact ih.step other moved

end Session.Placed

end Calls

/-! ### Comparisons -/

namespace OutputDirectory
variable {d : OutputDirectory} {t t' : FileTree}

/-- A comparison looks at places below the output directory, and for files in the way there. -/
theorem compare_congr {name : String} (other : name ≠ ".") (here : t'.here = t.here)
    (below : ∀ l, Below (t.locate d.root) l → t'.entry? l = t.entry? l)
    (above : ∀ l, l <+: t.locate d.root → t'.isFile l = t.isFile l) (canceled : Bool)
    (content : Bytes) : d.compare canceled name content t' = d.compare canceled name content t := by
  have same : d.resolve t' name = d.resolve t name := by
    unfold resolve FileTree.locate
    rw [here]
  unfold compare
  rw [same]
  cases resolved : d.resolve t name with
  | error e => rfl
  | ok target =>
    have inside := (resolve_below_iff resolved).mpr other
    have files : ∀ n, t'.isFile (target.take n) = t.isFile (target.take n) := by
      intro n
      obtain ⟨names, rfl⟩ := inside.1
      rcases FileTree.below_or_above (List.take_prefix n _) with deeper | onto
      · unfold FileTree.isFile
        rw [below _ deeper]
      · exact above _ onto
    have status : t'.status target = t.status target := by
      unfold FileTree.status
      rw [below target inside, funext files]
    simp only [status]

/-! ### Names that stay below -/

/-- How an output directory keeps what is written under names to itself. -/
structure Confines (d : OutputDirectory) : Prop where
  /-- Names with slashes between them are accepted, unless there is a backslash or a drive in front,
      and besides the single point nothing else is. -/
  accepted : ∀ name, Path.fault? name = none ↔ name = "." ∨
    ((∃ names, names ≠ [] ∧ (∀ s ∈ names, Path.IsName s) ∧ Text.joinWith "/" names = name) ∧
      '\\' ∉ name.toList ∧ ¬ Path.StartsWithDrive name)
  /-- What is accepted leads down from the output directory, name by name, and the single point
      leads to the output directory. -/
  leads : ∀ t name target, d.resolve t name = .ok target ↔ Path.fault? name = none ∧
    ((name = "." ∧ target = t.locate d.root) ∨
      (name ≠ "." ∧ target = t.locate d.root ++ Path.segments name))
  /-- So the single point is all that does not lead below. -/
  below : ∀ t name target, d.resolve t name = .ok target →
    (Below (t.locate d.root) target ↔ name ≠ ".")
  /-- At every moment of calls that run side by side, their temporary files are below the output
      directory and nothing outside has changed. -/
  calls : ∀ (ι : Type) [DecidableEq ι] (calls : ι → WriteCall) (t : FileTree) (s : Session ι),
    (∀ i, (calls i).name ≠ ".") → Session.Run d calls (.start d calls t) s →
      s.Confined (t.locate d.root) t
  /-- A write that is alone changes nothing outside. -/
  writes : ∀ canceled name content t, name ≠ "." →
    SameOutside (t.locate d.root) t (d.write canceled name content t).2
  /-- A comparison does not depend on what is outside, except for files that stand in the way to
      the output directory. -/
  comparisons : ∀ canceled name content t t', name ≠ "." → t'.here = t.here →
    (∀ l, Below (t.locate d.root) l → t'.entry? l = t.entry? l) →
      (∀ l, l <+: t.locate d.root → t'.isFile l = t.isFile l) →
        d.compare canceled name content t' = d.compare canceled name content t
  /-- It changes nothing at all. -/
  compared : ∀ canceled name content t drifts,
    (Sink.write canceled name content (.comparison d t drifts)).2.tree? = some t

/-- Output directories keep names below them, except for the single point. -/
theorem names_stay_below (d : OutputDirectory) : d.Confines where
  accepted := Path.fault_none_iff
  leads _ _ _ := resolve_ok_iff
  below _ _ _ := resolve_below_iff
  calls _ _ calls t s other ran :=
    ((Session.Placed.start d calls t).run other ran).confined other
  writes canceled name content t other := by
    obtain ⟨s, ran, tree, -⟩ := write_alone d ⟨name, content⟩ canceled t
    have placed := (Session.Placed.start d (fun _ : Unit => ⟨name, content⟩) t).run
      (fun _ => other) ran
    exact tree ▸ placed.outside
  comparisons canceled _ content _ _ other here below above :=
    compare_congr other here below above canceled content
  compared canceled name content t drifts := by
    rw [Sink.write]
    cases d.compare canceled name content t <;> rfl

namespace Clashing

def output : OutputDirectory := ⟨"gen", 0, false⟩

def before : FileTree := (FileTree.mk ["", "w"] []).place "kept.go" [0]

/-- The file of one call stands where another needs a directory. -/
def calls : Fin 2 → WriteCall
  | 0 => ⟨"a", [1]⟩
  | 1 => ⟨"a/b.go", [2]⟩

def turns : List (Fin 2 × Bool) := (List.range 6).flatMap fun _ => [(0, false), (1, false)]

def ended : Session (Fin 2) := (Session.start output calls before).play output calls turns

end Clashing

theorem clashing_calls_confined :
    Clashing.ended.Confined ["", "w", "gen"] Clashing.before ∧
      Clashing.output.compare false "a" [1] Clashing.ended.tree =
        .error (.read "a" ⟨"read", "/w/gen/a", .isDirectory⟩) ∧
      Clashing.ended.tree.entry? ["", "w", "kept.go"] = some (.file [0] 0o644) := by
  have confines := names_stay_below Clashing.output
  have confined : Clashing.ended.Confined ["", "w", "gen"] Clashing.before :=
    confines.calls (Fin 2) Clashing.calls Clashing.before Clashing.ended (by decide)
      (Session.play_run _ _)
  refine ⟨confined, by decide +kernel, ?_⟩
  rcases confined.outside ["", "w", "kept.go"] (by decide) with same | ⟨absent, -⟩
  · rw [same]
    decide +kernel
  · exact absurd absent (by decide +kernel)

/-- Under the single point a file takes the place of the output directory, and its temporary file
    is outside. -/
theorem point_replaces_directory :
    Path.fault? "." = none ∧ Clashing.output.resolve Clashing.before "." = .ok ["", "w", "gen"] ∧
      FileTree.entry? (Clashing.output.write false "." [1] Clashing.before).2 ["", "w", "gen"] =
        some (.file [1] 0o644) ∧
      ∃ s : Session Unit, Session.Run Clashing.output (fun _ => ⟨".", [1]⟩)
          (.start Clashing.output (fun _ => ⟨".", [1]⟩) Clashing.before) s ∧
        s.Held ["", "w", ".jsvgen-0.tmp"] := by
  refine ⟨by decide, by decide +kernel, by decide +kernel, _,
    Session.play_run _ [((), false), ((), false)], ?_⟩
  decide +kernel

end OutputDirectory

end SchemaForge
