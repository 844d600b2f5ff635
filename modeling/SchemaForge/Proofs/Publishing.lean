import Mathlib.Data.List.Nodup
import Mathlib.Data.List.Perm.Subperm
import SchemaForge.Proofs.Places
import SchemaForge.Sink.Directory

/-!
What a finished write leaves in a tree: its target holds the whole content, the directories that
lead to it are there, its temporary file is gone, and everything else is as it was.
-/
namespace SchemaForge

namespace FileTree

/-! ### Entries after changes -/

theorem lookup_first (l : Location) (e : FileEntry) (rest : List (Location × FileEntry)) :
    List.lookup l ((l, e) :: rest) = some e := by
  rw [List.lookup_cons, beq_self_eq_true]

theorem lookup_later {l k : Location} (ne : k ≠ l) (e : FileEntry)
    (rest : List (Location × FileEntry)) : List.lookup k ((l, e) :: rest) = rest.lookup k := by
  rw [List.lookup_cons, beq_false_of_ne ne]

theorem lookup_setEntry_self (l : Location) (e : FileEntry)
    (entries : List (Location × FileEntry)) :
    (setEntry l e entries).lookup l = some e := by
  induction entries with
  | nil => exact lookup_first l e []
  | cons head rest ih =>
    obtain ⟨place, old⟩ := head
    rw [setEntry]
    by_cases found : place = l
    · rw [if_pos found, found, lookup_first]
    · rw [if_neg found, lookup_later (Ne.symm found), ih]

theorem lookup_setEntry_ne {l k : Location} (ne : k ≠ l) (e : FileEntry)
    (entries : List (Location × FileEntry)) :
    (setEntry l e entries).lookup k = entries.lookup k := by
  induction entries with
  | nil => exact lookup_later ne e []
  | cons head rest ih =>
    obtain ⟨place, old⟩ := head
    rw [setEntry]
    by_cases found : place = l
    · rw [if_pos found, found, lookup_later ne, lookup_later ne]
    · rw [if_neg found]
      by_cases here : k = place
      · rw [here, lookup_first, lookup_first]
      · rw [lookup_later here, lookup_later here, ih]

theorem lookup_erased_self (l : Location) (entries : List (Location × FileEntry)) :
    (entries.filter fun (place, _) => place ≠ l).lookup l = none := by
  rw [List.lookup_eq_none_iff]
  intro entry member
  have other : entry.1 ≠ l := by simpa using (List.mem_filter.mp member).2
  simpa using Ne.symm other

theorem lookup_erased_ne {l k : Location} (ne : k ≠ l) (entries : List (Location × FileEntry)) :
    (entries.filter fun (place, _) => place ≠ l).lookup k = entries.lookup k := by
  induction entries with
  | nil => rfl
  | cons head rest ih =>
    obtain ⟨place, e⟩ := head
    by_cases gone : place = l
    · rw [List.filter_cons_of_neg (by simpa using gone), ih, gone, lookup_later ne]
    · rw [List.filter_cons_of_pos (by simpa using gone)]
      by_cases here : k = place
      · rw [here, lookup_first, lookup_first]
      · rw [lookup_later here, lookup_later here, ih]

variable {t t' : FileTree} {l k : Location} {e : FileEntry}

theorem entry_above (inside : l.isPrefixOf t.here = true) : t.entry? l = some .directory :=
  if_pos inside

/-- What is no directory does not lead to the working directory. -/
theorem not_above (other : t.entry? l ≠ some .directory) : l.isPrefixOf t.here = false := by
  by_contra inside
  exact other (entry_above (by simpa using inside))

theorem entry_put_ne (ne : k ≠ l) : entry? (t.put l e) k = t.entry? k := by
  unfold entry? put
  simp only [lookup_setEntry_ne ne]

theorem entry_put_self (free : l.isPrefixOf t.here = false) : entry? (t.put l e) l = some e := by
  unfold entry? put
  simp [lookup_setEntry_self, free]

theorem entry_erase_ne (ne : k ≠ l) : entry? (t.erase l) k = t.entry? k := by
  unfold entry? erase
  simp only [lookup_erased_ne ne]

theorem entry_erase_self (free : l.isPrefixOf t.here = false) : entry? (t.erase l) l = none := by
  unfold entry? erase
  simp only [free, Bool.false_eq_true, if_false, lookup_erased_self]

theorem setEntry_again (l : Location) (old e : FileEntry) (entries : List (Location × FileEntry)) :
    setEntry l e (setEntry l old entries) = setEntry l e entries := by
  induction entries with
  | nil => simp [setEntry]
  | cons head rest ih =>
    obtain ⟨place, before⟩ := head
    by_cases found : place = l <;> simp [setEntry, found, ih]

theorem put_again (t : FileTree) (l : Location) (old e : FileEntry) :
    (t.put l old).put l e = t.put l e := by
  simp [put, setEntry_again]

/-! ### Directories -/

/-- Making directories loses nothing, and all of them are there afterwards. -/
theorem makeDirectoriesFrom_ok {above : Location} {names : List String}
    (made : t.makeDirectoriesFrom above names = .ok t') :
    t'.here = t.here ∧ (∀ l e, t.entry? l = some e → t'.entry? l = some e) ∧
      ∀ n, 0 < n → n ≤ names.length → t'.entry? (above ++ names.take n) = some .directory := by
  induction names generalizing t above with
  | nil =>
    obtain rfl := Except.ok.inj made
    refine ⟨rfl, fun _ _ there => there, fun n positive bound => ?_⟩
    simp only [List.length_nil] at bound
    omega
  | cons name rest ih =>
    rw [makeDirectoriesFrom] at made
    -- the directory of the first name is there before the others are made
    obtain ⟨u, first, kept, same, made⟩ : ∃ u : FileTree,
        u.entry? (above ++ [name]) = some .directory ∧
        (∀ l e, t.entry? l = some e → u.entry? l = some e) ∧ u.here = t.here ∧
        u.makeDirectoriesFrom (above ++ [name]) rest = .ok t' := by
      split at made
      · cases made
      · rename_i there
        exact ⟨t, there, fun _ _ there => there, rfl, made⟩
      · rename_i absent
        have free : (above ++ [name]).isPrefixOf t.here = false := not_above (by simp [absent])
        refine ⟨_, entry_put_self free, fun l e there => ?_, rfl, made⟩
        rw [entry_put_ne, there]
        intro same
        rw [same, absent] at there
        cases there
    obtain ⟨here, later, below⟩ := ih made
    refine ⟨here.trans same, fun l e there => later l e (kept l e there), ?_⟩
    intro n positive bound
    cases n with
    | zero => omega
    | succ m =>
      rw [List.take_succ_cons]
      by_cases last : m = 0
      · rw [last, List.take_zero]
        exact later _ _ first
      · have deeper := below m (by omega) (by simpa using bound)
        rwa [List.append_assoc, List.singleton_append] at deeper

theorem makeDirectories_ok (made : t.makeDirectories l = .ok t') :
    t'.here = t.here ∧ (∀ k e, t.entry? k = some e → t'.entry? k = some e) ∧
      ∀ n, n ≤ l.length → t'.entry? (l.take n) = some .directory := by
  obtain ⟨here, kept, below⟩ := makeDirectoriesFrom_ok made
  refine ⟨here, kept, fun n bound => ?_⟩
  cases n with
  | zero => exact entry_above (by simp)
  | succ m => simpa using below (m + 1) (by omega) bound

/-- Directories come where nothing was, on the way to the place, and nothing else changes. -/
theorem makeDirectoriesFrom_changes {above : Location} {names : List String}
    (made : t.makeDirectoriesFrom above names = .ok t') (l : Location) :
    t'.entry? l = t.entry? l ∨
      (t.entry? l = none ∧ t'.entry? l = some .directory ∧ l <+: above ++ names) := by
  induction names generalizing t above with
  | nil =>
    obtain rfl := Except.ok.inj made
    exact .inl rfl
  | cons name rest ih =>
    rw [makeDirectoriesFrom] at made
    rw [List.append_cons]
    split at made
    · cases made
    · exact ih made
    · rename_i absent
      by_cases here : l = above ++ [name]
      · have free : l.isPrefixOf t.here = false := not_above (by simp [here, absent])
        have there : entry? (t.put l .directory) l = some .directory := entry_put_self free
        subst here
        exact .inr ⟨absent, (makeDirectoriesFrom_ok made).2.1 _ _ there, List.prefix_append ..⟩
      · have same := entry_put_ne (t := t) (e := .directory) here
        rw [← same]
        exact ih made

theorem makeDirectories_changes (made : t.makeDirectories l = .ok t') (k : Location) :
    t'.entry? k = t.entry? k ∨
      (t.entry? k = none ∧ t'.entry? k = some .directory ∧ k <+: l) :=
  makeDirectoriesFrom_changes made k

end FileTree

/-! ### Temporary names -/

namespace Temporary

theorem name_injective {m n : Nat} (same : name m = name n) : m = n := by
  have chars := congrArg String.toList same
  have digits : (Number.renderNat m).toList = (Number.renderNat n).toList := by
    simpa [name] using chars
  exact Number.renderNat_injective (String.toList_injective digits)

variable {t : FileTree} {dir : Location}

/-- The search ends at a free name, or all that it passed are taken. -/
theorem freshFrom_cases (t : FileTree) (dir : Location) (n fuel : Nat) :
    t.entry? (freshFrom t dir n fuel) = none ∨
      ∀ m, n ≤ m → m ≤ n + fuel → (t.entry? (dir ++ [name m])).isSome := by
  induction fuel generalizing n with
  | zero =>
    by_cases taken : (t.entry? (dir ++ [name n])).isSome
    · refine .inr fun m low high => ?_
      obtain rfl : m = n := by omega
      exact taken
    · exact .inl (by simpa [freshFrom] using taken)
  | succ fuel ih =>
    rw [freshFrom]
    by_cases taken : (t.entry? (dir ++ [name n])).isSome
    · rw [if_pos taken]
      rcases ih (n + 1) with free | full
      · exact .inl free
      · refine .inr fun m low high => ?_
        by_cases first : m = n
        · rw [first]
          exact taken
        · exact full m (by omega) (by omega)
    · rw [if_neg taken]
      exact .inl (by simpa using taken)

theorem freshFrom_named (t : FileTree) (dir : Location) (n fuel : Nat) :
    ∃ m, freshFrom t dir n fuel = dir ++ [name m] := by
  induction fuel generalizing n with
  | zero => exact ⟨n, rfl⟩
  | succ fuel ih =>
    rw [freshFrom]
    split
    · exact ih (n + 1)
    · exact ⟨n, rfl⟩

/-- A name that is taken belongs to an entry, or leads to the working directory. -/
theorem taken_mem {m : Nat} (taken : (t.entry? (dir ++ [name m])).isSome) :
    dir ++ [name m] ∈ t.here.take (dir.length + 1) :: t.entries.map (·.1) := by
  unfold FileTree.entry? at taken
  split at taken
  · rename_i inside
    have start := List.isPrefixOf_iff_prefix.mp inside
    rw [List.prefix_iff_eq_take.mp start]
    simp
  · obtain ⟨e, found⟩ := Option.isSome_iff_exists.mp taken
    obtain ⟨before, after, split, -⟩ := List.lookup_eq_some_iff.mp found
    exact List.mem_cons_of_mem _ (List.mem_map.mpr ⟨(_, e), by simp [split], rfl⟩)

/-- There are more names to choose from than can be taken. -/
theorem fresh_free (t : FileTree) (dir : Location) : t.entry? (fresh t dir) = none := by
  rcases freshFrom_cases t dir 0 (t.entries.length + 1) with free | full
  · exact free
  · exfalso
    let candidates := (List.range (t.entries.length + 2)).map fun m => dir ++ [name m]
    have distinct : candidates.Nodup := by
      refine List.nodup_range.map fun m n same => name_injective ?_
      simpa using same
    have inside : candidates ⊆ t.here.take (dir.length + 1) :: t.entries.map (·.1) := by
      intro place member
      obtain ⟨m, bound, rfl⟩ := List.mem_map.mp member
      have bound := List.mem_range.mp bound
      exact taken_mem (full m (by omega) (by omega))
    have few := (List.subperm_of_subset distinct inside).length_le
    simp [candidates] at few

end Temporary

/-! ### One write -/

namespace Write

variable {w : Write} {t t' : FileTree}

/-- A write on its own, as its steps follow each other. -/
theorem run_eq (w : Write) (t : FileTree) (canceled : Bool) :
    w.run canceled t =
      if canceled then (.error .canceled, t)
      else
        match t.makeDirectories w.directory with
        | .error e => (.error (.makeDirectory e), t)
        | .ok made =>
          let temporary := Temporary.fresh made w.directory
          let filled := made.put temporary (.file w.content w.mode)
          match w.publish temporary filled with
          | .error e => (.error e, filled.erase temporary)
          | .ok published => (.ok (), published.erase temporary) := by
  cases canceled with
  | true => rfl
  | false =>
    cases made : t.makeDirectories w.directory with
    | error e => simp [run, steps, advance, step, made]
    | ok u =>
      simp only [run, steps, advance, step, made, FileTree.put_again, Bool.false_eq_true, if_false]
      cases w.publish (Temporary.fresh u w.directory)
        (u.put (Temporary.fresh u w.directory) (.file w.content w.mode)) <;> rfl

/-- What publishing does: it links where nothing is, or it renames over what is no directory. -/
theorem publish_cases {temporary : Location} (published : w.publish temporary t = .ok t') :
    ∃ e, t.entry? temporary = some e ∧
      ((w.noClobber = true ∧ t.entry? w.target = none ∧ t' = t.put w.target e) ∨
        (w.noClobber = false ∧ t.entry? w.target ≠ some .directory ∧
          t' = (t.erase temporary).put w.target e)) := by
  unfold publish at published
  split at published
  · next only =>
    split at published <;> try cases published
    rename_i linked
    unfold FileTree.link at linked
    split at linked
    · cases linked
    · next e filled =>
      split at linked
      · cases linked
      · next absent =>
        exact ⟨e, filled, .inl ⟨only, by simpa using absent, (Except.ok.inj linked).symm⟩⟩
  · next replaces =>
    split at published <;> try cases published
    rename_i renamed
    unfold FileTree.rename at renamed
    split at renamed
    · cases renamed
    · next e filled =>
      split at renamed
      · cases renamed
      · next other =>
        exact ⟨e, filled, .inr ⟨by simpa using replaces, other, (Except.ok.inj renamed).symm⟩⟩

theorem publish_here {temporary : Location} (published : w.publish temporary t = .ok t') :
    t'.here = t.here := by
  obtain ⟨e, -, ⟨-, -, rfl⟩ | ⟨-, -, rfl⟩⟩ := publish_cases published <;> rfl

/-- Either way the target has the temporary file's entry, and no third place is changed. -/
theorem publish_entries {temporary : Location} {e : FileEntry}
    (published : w.publish temporary t = .ok t') (filled : t.entry? temporary = some e) :
    t'.entry? w.target = some e ∧ (w.noClobber = true → t.entry? w.target = none) ∧
      ∀ l, l ≠ w.target → l ≠ temporary → t'.entry? l = t.entry? l := by
  obtain ⟨e', there, ⟨-, absent, rfl⟩ | ⟨replaces, other, rfl⟩⟩ := publish_cases published
  · obtain rfl := Option.some.inj (filled.symm.trans there)
    have free : w.target.isPrefixOf t.here = false := FileTree.not_above (by simp [absent])
    exact ⟨FileTree.entry_put_self free, fun _ => absent, fun l ne _ => FileTree.entry_put_ne ne⟩
  · obtain rfl := Option.some.inj (filled.symm.trans there)
    have free : w.target.isPrefixOf t.here = false := FileTree.not_above other
    refine ⟨FileTree.entry_put_self free, fun only => ?_, fun l ne gone => ?_⟩
    · rw [replaces] at only
      cases only
    · rw [FileTree.entry_put_ne ne, FileTree.entry_erase_ne gone]

theorem publish_ok {temporary : Location} {e : FileEntry}
    (published : w.publish temporary t = .ok t') (filled : t.entry? temporary = some e)
    (file : e ≠ .directory) (apart : w.target ≠ temporary) :
    t'.here = t.here ∧ FileTree.entry? (t'.erase temporary) w.target = some e ∧
      FileTree.entry? (t'.erase temporary) temporary = none ∧
      ∀ l, l ≠ w.target → l ≠ temporary → FileTree.entry? (t'.erase temporary) l = t.entry? l := by
  have temporaryFree : temporary.isPrefixOf t.here = false :=
    FileTree.not_above (by rw [filled]; simpa using file)
  have here := publish_here published
  obtain ⟨target, -, others⟩ := publish_entries published filled
  refine ⟨here, ?_, ?_, fun l ne gone => ?_⟩
  · rw [FileTree.entry_erase_ne apart, target]
  · exact FileTree.entry_erase_self (by rw [here]; exact temporaryFree)
  · rw [FileTree.entry_erase_ne gone, others l ne gone]

/-- A write that succeeds leaves the whole content at its target and loses nothing else. -/
theorem run_ok {canceled : Bool} (done : w.run canceled t = (.ok (), t'))
    (named : ∀ n, w.target ≠ w.directory ++ [Temporary.name n]) :
    canceled = false ∧ t'.here = t.here ∧
      t'.entry? w.target = some (.file w.content w.mode) ∧
      (∀ l e, l ≠ w.target → t.entry? l = some e → t'.entry? l = some e) ∧
      ∀ n, n ≤ w.directory.length → w.directory.take n ≠ w.target →
        t'.entry? (w.directory.take n) = some .directory := by
  rw [run_eq] at done
  cases canceled with
  | true => cases done
  | false =>
    simp only [Bool.false_eq_true, if_false] at done
    split at done
    · cases done
    rename_i made directories
    obtain ⟨here, kept, below⟩ := FileTree.makeDirectories_ok directories
    have fresh := Temporary.fresh_free made w.directory
    obtain ⟨m, chosen⟩ := Temporary.freshFrom_named made w.directory 0 (made.entries.length + 1)
    have apart : w.target ≠ Temporary.fresh made w.directory := fun same =>
      named m (same.trans chosen)
    generalize Temporary.fresh made w.directory = temporary at done fresh apart
    split at done
    · cases done
    rename_i published ok
    obtain rfl := (Prod.mk.inj done).2
    have free : temporary.isPrefixOf made.here = false := FileTree.not_above (by simp [fresh])
    obtain ⟨same, target, gone, others⟩ :=
      publish_ok ok (FileTree.entry_put_self free) (by simp) apart
    -- what was there before is neither the target nor, as that was free, the temporary file
    have stays : ∀ l e, l ≠ w.target → made.entry? l = some e →
        FileTree.entry? (published.erase temporary) l = some e := by
      intro l e ne there
      have other : l ≠ temporary := by
        rintro rfl
        rw [fresh] at there
        cases there
      rw [others l ne other, FileTree.entry_put_ne other, there]
    exact ⟨rfl, same.trans here, target, fun l e ne there => stays l e ne (kept l e there),
      fun n bound ne => stays _ _ ne (below n bound)⟩

end Write

end SchemaForge
