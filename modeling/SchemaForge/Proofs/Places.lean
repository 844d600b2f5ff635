import Mathlib.Data.List.Induction
import SchemaForge.Files.Tree
import SchemaForge.Proofs.Numerals

/-!
Places that paths lead to. Cleaning runs a stack over the segments of a path: a name goes on top and
a double point takes one off. So cleaning a path first does not change where it leads, and a name at
the end of a path leads into the place that the rest leads to.
-/
namespace SchemaForge

namespace Text

theorem splitChars_across (sep : Char) (as bs : List Char) :
    splitChars sep (as ++ sep :: bs) = splitChars sep as ++ splitChars sep bs := by
  induction as with
  | nil => simp [splitChars]
  | cons a as ih =>
    rw [List.cons_append, splitChars, splitChars]
    by_cases same : a = sep
    · rw [if_pos same, if_pos same, ih]
      rfl
    · rw [if_neg same, if_neg same, ih]
      rcases pieces : splitChars sep as with _ | ⟨piece, rest⟩
      · exact absurd pieces (splitChars_ne_nil sep as)
      · rfl

end Text

namespace Path

/-- A name that is a segment of its own and that cleaning keeps. -/
structure IsName (s : String) : Prop where
  nonempty : s ≠ ""
  not_point : s ≠ "."
  not_points : s ≠ ".."
  one : '/' ∉ s.toList

theorem segments_of_free {s : String} (free : '/' ∉ s.toList) : segments s = [s] := by
  unfold segments Text.split
  rw [Text.splitChars_plain free]
  simp

theorem segments_across (a b : String) : segments (a ++ "/" ++ b) = segments a ++ segments b := by
  unfold segments Text.split
  have chars : (a ++ "/" ++ b).toList = a.toList ++ '/' :: b.toList := by simp
  rw [chars, Text.splitChars_across, List.map_append]

theorem segments_free {path s : String} (member : s ∈ segments path) : '/' ∉ s.toList := by
  unfold segments Text.split at member
  obtain ⟨piece, inside, rfl⟩ := List.mem_map.mp member
  rw [String.toList_ofList]
  generalize path.toList = cs at inside
  -- every piece is the first of the pieces of some rest of the text
  induction pieces : Text.splitChars '/' cs generalizing cs with
  | nil => simp [pieces] at inside
  | cons first others ih =>
    rw [pieces] at inside
    obtain ⟨free, shape⟩ := Text.splitChars_cases pieces
    rcases List.mem_cons.mp inside with rfl | later
    · exact free
    · rcases shape with ⟨rfl, -⟩ | ⟨more, -, rest⟩
      · simp at later
      · exact ih more (rest ▸ later) rest

theorem segments_joinWith {s : String} {rest : List String}
    (free : ∀ t ∈ s :: rest, '/' ∉ t.toList) :
    segments (Text.joinWith "/" (s :: rest)) = s :: rest := by
  induction rest using List.reverseRecOn with
  | nil => exact segments_of_free (free s List.mem_cons_self)
  | append_singleton rest t ih =>
    have joined : Text.joinWith "/" (s :: (rest ++ [t])) =
        Text.joinWith "/" (s :: rest) ++ "/" ++ t := by
      simp [Text.joinWith]
    rw [joined, segments_across, ih fun u member => free u ?_, segments_of_free (free t ?_)]
    · rfl
    · simp
    · rcases List.mem_cons.mp member with rfl | later
      · exact List.mem_cons_self
      · exact List.mem_cons_of_mem _ (List.mem_append_left _ later)

/-! ### The stack of segments -/

/-- One segment against the stack of those that are kept. -/
def push (rooted : Bool) (kept : List String) (s : String) : List String :=
  if s.isEmpty || s = "." then kept
  else if s = ".." then
    match kept with
    | [] => if rooted then [] else [".."]
    | k :: above => if k = ".." then ".." :: k :: above else above
  else s :: kept

theorem cleanOnto_eq (rooted : Bool) (kept path : List String) :
    cleanOnto rooted kept path = (path.foldl (push rooted) kept).reverse := by
  induction path generalizing kept with
  | nil => rfl
  | cons s rest ih =>
    rw [List.foldl_cons, ← ih, cleanOnto.eq_def]
    unfold push
    simp only
    by_cases skipped : (s.isEmpty || s = ".") = true
    · rw [if_pos skipped, if_pos skipped]
    · rw [if_neg skipped, if_neg skipped]
      by_cases up : s = ".."
      · rw [if_pos up, if_pos up]
        cases kept with
        | nil => rfl
        | cons k above => by_cases points : k = ".." <;> simp [points]
      · rw [if_neg up, if_neg up]

theorem push_name {rooted : Bool} {kept : List String} {s : String} (nonempty : s ≠ "")
    (not_point : s ≠ ".") (not_points : s ≠ "..") : push rooted kept s = s :: kept := by
  have kept_whole : (s.isEmpty || s = ".") = false := by simp [nonempty, not_point]
  simp [push, kept_whole, not_points]

/-- Nothing empty and no single point is on the stack. -/
def Kept (kept : List String) : Prop := ∀ s ∈ kept, s ≠ "" ∧ s ≠ "."

theorem push_kept {rooted : Bool} {kept : List String} (clean : Kept kept) (s : String) :
    Kept (push rooted kept s) := by
  unfold push
  split
  · exact clean
  · rename_i whole
    split
    · cases kept with
      | nil => cases rooted <;> simp [Kept]
      | cons k above =>
        simp only
        split
        · intro u member
          rcases List.mem_cons.mp member with rfl | later
          · simp
          · exact clean u later
        · exact fun u member => clean u (List.mem_cons_of_mem _ member)
    · intro u member
      rcases List.mem_cons.mp member with rfl | later
      · simpa using whole
      · exact clean u later

theorem pushes_kept {rooted : Bool} {kept : List String} (clean : Kept kept) (path : List String) :
    Kept (path.foldl (push rooted) kept) := by
  induction path generalizing kept with
  | nil => exact clean
  | cons s rest ih => exact ih (push_kept clean s)

theorem push_mem {rooted : Bool} {kept : List String} {s u : String}
    (member : u ∈ push rooted kept s) : u = s ∨ u = ".." ∨ u ∈ kept := by
  unfold push at member
  split at member
  · exact .inr (.inr member)
  · split at member
    · cases kept with
      | nil => cases rooted <;> simp_all
      | cons k above =>
        simp only at member
        split at member
        · rcases List.mem_cons.mp member with rfl | later
          · exact .inr (.inl rfl)
          · exact .inr (.inr later)
        · exact .inr (.inr (List.mem_cons_of_mem _ member))
    · rcases List.mem_cons.mp member with rfl | later
      · exact .inl rfl
      · exact .inr (.inr later)

theorem pushes_mem {rooted : Bool} {kept path : List String} {u : String}
    (member : u ∈ path.foldl (push rooted) kept) : u ∈ path ∨ u = ".." ∨ u ∈ kept := by
  induction path generalizing kept with
  | nil => exact .inr (.inr member)
  | cons s rest ih =>
    rcases ih member with later | points | before
    · exact .inl (List.mem_cons_of_mem _ later)
    · exact .inr (.inl points)
    · rcases push_mem before with rfl | points | inside
      · exact .inl List.mem_cons_self
      · exact .inr (.inl points)
      · exact .inr (.inr inside)

theorem cleaned_free {rooted : Bool} {path u : String}
    (member : u ∈ cleanOnto rooted [] (segments path)) : '/' ∉ u.toList := by
  rw [cleanOnto_eq, List.mem_reverse] at member
  rcases pushes_mem member with inside | rfl | none
  · exact segments_free inside
  · decide
  · simp at none

/-- One step of a path does the same before and after the path so far is cleaned. Above the root,
    where a double point is lost, there is nothing below the path either. -/
theorem push_after {rooted : Bool} {below kept : List String} (clean : Kept kept)
    (alone : rooted = true → below = []) (s : String) :
    (push rooted kept s).reverse.foldl (push true) below =
      push true (kept.reverse.foldl (push true) below) s := by
  by_cases skipped : (s.isEmpty || s = ".") = true
  · simp only [push, if_pos skipped]
  by_cases up : s = ".."
  · subst up
    cases kept with
    | nil =>
      cases rooted with
      | true => rw [alone rfl]; rfl
      | false => rfl
    | cons k above =>
      by_cases points : k = ".."
      · subst points
        have kept_both : push rooted (".." :: above) ".." = ".." :: ".." :: above := by simp [push]
        rw [kept_both, List.reverse_cons, List.foldl_append]
        rfl
      · obtain ⟨nonempty, not_point⟩ := clean k List.mem_cons_self
        have taken : push rooted (k :: above) ".." = above := by simp [push, points]
        rw [taken, List.reverse_cons, List.foldl_append, List.foldl_cons, List.foldl_nil,
          push_name nonempty not_point points]
        simp [push, points]
  · have on_top : push rooted kept s = s :: kept := by simp [push, skipped, up]
    rw [on_top, List.reverse_cons, List.foldl_append]
    rfl

/-- Cleaning a path first does not change where it leads. -/
theorem pushes_cleaned {rooted : Bool} {below kept : List String} (clean : Kept kept)
    (alone : rooted = true → below = []) (path : List String) :
    (path.foldl (push rooted) kept).reverse.foldl (push true) below =
      path.foldl (push true) (kept.reverse.foldl (push true) below) := by
  induction path generalizing kept with
  | nil => rfl
  | cons s rest ih =>
    rw [List.foldl_cons, List.foldl_cons, ih (push_kept clean s), push_after clean alone]

theorem cleanOnto_cleaned {rooted : Bool} {below : List String} (alone : rooted = true → below = [])
    (path : List String) :
    cleanOnto true below (cleanOnto rooted [] path) = cleanOnto true below path := by
  rw [cleanOnto_eq, cleanOnto_eq, cleanOnto_eq]
  exact congrArg List.reverse (pushes_cleaned (by simp [Kept]) alone path)

theorem cleanOnto_name {rooted : Bool} {below : List String} {name : String} (isName : IsName name)
    (path : List String) :
    cleanOnto rooted below (path ++ [name]) = cleanOnto rooted below path ++ [name] := by
  rw [cleanOnto_eq, cleanOnto_eq, List.foldl_append, List.foldl_cons, List.foldl_nil,
    push_name isName.nonempty isName.not_point isName.not_points, List.reverse_cons]

theorem cleanOnto_names {rooted : Bool} {below names : List String}
    (all : ∀ s ∈ names, IsName s) (path : List String) :
    cleanOnto rooted below (path ++ names) = cleanOnto rooted below path ++ names := by
  induction names using List.reverseRecOn with
  | nil => simp
  | append_singleton names last ih =>
    rw [← List.append_assoc, cleanOnto_name (all last (by simp)),
      ih fun s member => all s (List.mem_append_left _ member), List.append_assoc]

theorem cleanOnto_empty (rooted : Bool) (below path : List String) :
    cleanOnto rooted below ("" :: path) = cleanOnto rooted below path := by
  rw [cleanOnto_eq, cleanOnto_eq]
  rfl

theorem cleaned_kept {rooted : Bool} {path : List String} {s : String}
    (member : s ∈ cleanOnto rooted [] path) : s ≠ "" := by
  rw [cleanOnto_eq, List.mem_reverse] at member
  exact (pushes_kept (by simp [Kept]) path s member).1

/-! ### Cleaned paths -/

theorem not_rooted {path s : String} {rest : List String} (shape : segments path = s :: rest)
    (nonempty : s ≠ "") : isRooted path = false := by
  by_contra rooted
  have first : path.toList.head? = some '/' := by simpa [isRooted] using rooted
  obtain ⟨more, chars⟩ : ∃ more, path.toList = '/' :: more := by
    cases chars : path.toList with
    | nil => simp [chars] at first
    | cons c more =>
      obtain rfl : c = '/' := by simpa [chars] using first
      exact ⟨more, rfl⟩
  unfold segments Text.split at shape
  rw [chars, Text.splitChars, if_pos rfl, List.map_cons] at shape
  exact nonempty (List.cons.inj shape).1.symm

theorem segments_rooted (l : List String) (free : ∀ s ∈ l, '/' ∉ s.toList) (below : List String) :
    cleanOnto true below (segments ("/" ++ Text.joinWith "/" l)) = cleanOnto true below l := by
  have split : segments ("" ++ "/" ++ Text.joinWith "/" l) =
      "" :: segments (Text.joinWith "/" l) := by
    rw [segments_across]
    rfl
  rw [String.empty_append] at split
  rw [split, cleanOnto_empty]
  cases l with
  | nil => exact cleanOnto_empty true below []
  | cons s rest => rw [segments_joinWith free]

/-- A path written from clean segments leads where the segments lead, and is rooted if it is
    written so. -/
theorem ofSegments_leads (rooted : Bool) {l : List String} (free : ∀ s ∈ l, '/' ∉ s.toList)
    (nonempty : ∀ s ∈ l, s ≠ "") (below : List String) :
    isRooted (ofSegments rooted l) = rooted ∧
      cleanOnto true below (segments (ofSegments rooted l)) = cleanOnto true below l := by
  cases rooted with
  | true => exact ⟨by simp [ofSegments, isRooted], segments_rooted l free below⟩
  | false =>
    cases l with
    | nil => exact ⟨rfl, rfl⟩
    | cons s rest =>
      have parts : segments (ofSegments false (s :: rest)) = s :: rest := segments_joinWith free
      exact ⟨not_rooted parts (nonempty s List.mem_cons_self), by rw [parts]⟩

/-! ### Paths that lead below -/

/-- A path that leads down from where it is taken, by a name at each step, in its one spelling. -/
structure Descends (path : String) : Prop where
  names : ∀ s ∈ segments path, IsName s
  spelled : Text.joinWith "/" (segments path) = path

theorem segments_ne_nil (path : String) : segments path ≠ [] := by
  unfold segments Text.split
  simpa using Text.splitChars_ne_nil '/' path.toList

/-- What is no fault leads below, or it is the single point, which leads nowhere. -/
theorem descends_of_valid {name : String} (valid : fault? name = none) (other : name ≠ ".") :
    Descends name := by
  unfold fault? at valid
  split at valid <;> try cases valid
  split at valid <;> try cases valid
  rename_i relative
  split at valid <;> try cases valid
  split at valid <;> try cases valid
  rename_i down
  split at valid <;> try cases valid
  rename_i clean
  have relative : isRooted name = false := by simp_all
  have down : ".." ∉ segments name := by simpa using down
  have clean : ofSegments false (cleanOnto false [] (segments name)) = name := by
    simpa [Path.clean, relative] using clean
  cases kept : cleanOnto false [] (segments name) with
  | nil =>
    rw [kept] at clean
    exact absurd clean.symm other
  | cons s rest =>
    rw [kept] at clean
    have clean : Text.joinWith "/" (s :: rest) = name := clean
    have free : ∀ u ∈ s :: rest, '/' ∉ u.toList := fun u member =>
      cleaned_free (by rw [kept]; exact member)
    have same : segments name = s :: rest := by
      rw [← clean]
      exact segments_joinWith free
    refine ⟨fun u member => ?_, by rw [same, clean]⟩
    have inside : u ∈ (segments name).foldl (push false) [] := by
      rw [← List.mem_reverse, ← cleanOnto_eq, kept, ← same]
      exact member
    obtain ⟨nonempty, not_point⟩ := pushes_kept (by simp [Kept]) _ u inside
    exact ⟨nonempty, not_point, fun points => down (points ▸ member), free u (same ▸ member)⟩

theorem Descends.eq_of_segments {a b : String} (first : Descends a) (second : Descends b)
    (same : segments a = segments b) : a = b := by
  rw [← first.spelled, same, second.spelled]

theorem Descends.segments_eq {path : String} (descends : Descends path) :
    segments path = (segments path).dropLast ++ [base path] := by
  have last := List.dropLast_concat_getLast (segments_ne_nil path)
  have nonempty : path.isEmpty = false := by
    by_contra empty
    obtain rfl : path = "" := by simpa using empty
    exact (descends.names "" (by decide)).nonempty rfl
  have all : (segments path).filter (fun s => !s.isEmpty) = segments path :=
    List.filter_eq_self.mpr fun s member => by simpa using (descends.names s member).nonempty
  have named : base path = (segments path).getLast (segments_ne_nil path) := by
    rw [base, if_neg (by simp [nonempty]), all,
      List.getLast?_eq_some_getLast (segments_ne_nil path)]
  rw [named, last]

end Path

namespace FileTree

theorem locate_clean (t : FileTree) (path : String) :
    t.locate (Path.clean path) = t.locate path := by
  unfold locate Path.clean
  obtain ⟨rooted, leads⟩ := Path.ofSegments_leads (Path.isRooted path)
    (fun _ member => Path.cleaned_free member) (fun _ member => Path.cleaned_kept member)
    (if Path.isRooted path then [] else t.here.tail.reverse)
  rw [rooted, leads, Path.cleanOnto_cleaned fun isRooted => if_pos isRooted]

/-- A relative path leads on from the place of the directory that it is joined to. -/
theorem locate_onto (t : FileTree) (root : String) {name : String} (whole : name.isEmpty = false)
    (relative : Path.isRooted name = false) :
    t.locate (Path.join [root, name]) =
      "" :: Path.cleanOnto true (t.locate root).tail.reverse (Path.segments name) := by
  by_cases empty : root = ""
  · subst empty
    have joined : Path.join ["", name] = Path.clean name := by
      simp [Path.join, whole, Text.joinWith]
    have start : (t.locate "").tail.reverse = t.here.tail.reverse := by
      simp [locate, Path.isRooted, Path.segments, Text.split, Text.splitChars, Path.cleanOnto]
    rw [joined, locate_clean, start]
    unfold locate
    rw [relative]
    rfl
  · have joined : Path.join [root, name] = Path.clean (root ++ "/" ++ name) := by
      simp [Path.join, whole, empty, Text.joinWith]
    have rooted : Path.isRooted (root ++ "/" ++ name) = Path.isRooted root := by
      cases chars : root.toList with
      | nil => exact absurd (String.toList_eq_nil_iff.mp chars) empty
      | cons c more => simp [Path.isRooted, chars]
    rw [joined, locate_clean]
    unfold locate
    rw [rooted, Path.segments_across, List.tail_cons, Path.cleanOnto_eq, Path.cleanOnto_eq,
      Path.cleanOnto_eq, List.foldl_append, List.reverse_reverse]

/-- A path below a directory leads on from the place of the directory. -/
theorem locate_below (t : FileTree) (root : String) {name : String}
    (names : ∀ s ∈ Path.segments name, Path.IsName s) :
    t.locate (Path.join [root, name]) = t.locate root ++ Path.segments name := by
  obtain ⟨first, rest, parts⟩ := List.exists_cons_of_ne_nil (Path.segments_ne_nil name)
  have whole : name.isEmpty = false := by
    by_contra empty
    obtain rfl : name = "" := by simpa using empty
    exact (names "" (by decide)).nonempty rfl
  have relative := Path.not_rooted parts (names first (by simp [parts])).nonempty
  have down : Path.cleanOnto true (t.locate root).tail.reverse ([] ++ Path.segments name) =
      (t.locate root).tail ++ Path.segments name := by
    rw [Path.cleanOnto_names names, Path.cleanOnto, List.reverse_reverse]
  rw [t.locate_onto root whole relative, ← List.nil_append (Path.segments name), down]
  rfl

/-- A name below a directory leads into the place of the directory. -/
theorem locate_join (t : FileTree) (root : String) {name : String} (isName : Path.IsName name) :
    t.locate (Path.join [root, name]) = t.locate root ++ [name] := by
  have own : Path.segments name = [name] := Path.segments_of_free isName.one
  rw [locate_below t root (by simpa [own] using isName), own]

end FileTree

end SchemaForge
