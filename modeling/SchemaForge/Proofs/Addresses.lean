import SchemaForge.Proofs.KeyOrder
import SchemaForge.Proofs.Pointer

/-!
Pointers as addresses. Escaping and unescaping do in one pass what two replacements do one after the
other, and a pointer is read back to the segments it was written from. So the pointer of an entry
leads to that entry, and a reference is accepted exactly if its segments are those of the section
and then the name of a kept entry.
-/
namespace SchemaForge

namespace Text

/-- Replaces a character wherever it stands. -/
def replaceChar (old : Char) (new cs : List Char) : List Char :=
  cs.flatMap fun c => if c = old then new else [c]

/-- Replaces two characters in a row by one, from left to right. What is put in is not looked at
    again. -/
def replacePair (first second new : Char) : List Char → List Char
  | c :: d :: rest =>
    if c = first ∧ d = second then new :: replacePair first second new rest
    else c :: replacePair first second new (d :: rest)
  | cs => cs

section Pairs
variable {first second new : Char}

theorem replacePair_hit (rest : List Char) :
    replacePair first second new (first :: second :: rest) =
      new :: replacePair first second new rest := by
  rw [replacePair, if_pos ⟨rfl, rfl⟩]

theorem replacePair_miss {c : Char} {cs : List Char}
    (other : c = first → cs.head? ≠ some second) :
    replacePair first second new (c :: cs) = c :: replacePair first second new cs := by
  cases cs with
  | nil => simp [replacePair]
  | cons d rest =>
    have apart : ¬(c = first ∧ d = second) := by
      rintro ⟨here, there⟩
      exact other here (by rw [there]; rfl)
    rw [replacePair, if_neg apart]

/-- A replacement changes the first character only into the one that it puts in. -/
theorem replacePair_head (first second new : Char) (cs : List Char) :
    (replacePair first second new cs).head? = cs.head? ∨
      (replacePair first second new cs).head? = some new := by
  match cs with
  | [] | [c] => exact .inl (by simp [replacePair])
  | c :: d :: rest =>
    rw [replacePair]
    split
    · exact .inr rfl
    · exact .inl rfl

end Pairs

end Text

namespace Pointer
open Text (replaceChar replacePair replacePair_hit replacePair_miss replacePair_head)

theorem escape_two_passes (cs : List Char) :
    escapeChars cs = replaceChar '/' ['~', '1'] (replaceChar '~' ['~', '0'] cs) := by
  rw [replaceChar, replaceChar, List.flatMap_assoc]
  refine congrArg (List.flatMap · cs) (funext fun c => ?_)
  unfold escapeChar
  by_cases tilde : c = '~'
  · simp [tilde]
  · by_cases slash : c = '/' <;> simp [tilde, slash]

/-- Slashes are read before tildes, or the tilde of `~01` would be taken for the mark of a slash. -/
theorem unescape_two_passes (cs : List Char) :
    unescapeChars cs = replacePair '~' '0' '~' (replacePair '~' '1' '/' cs) := by
  fun_induction unescapeChars cs with
  | case1 rest ih => rw [replacePair_hit, replacePair_miss (by simp), ih]
  | case2 rest ih =>
    have kept : replacePair '~' '1' '/' ('~' :: '0' :: rest) =
        '~' :: '0' :: replacePair '~' '1' '/' rest := by
      rw [replacePair_miss (by simp), replacePair_miss (by simp)]
    rw [kept, replacePair_hit, ih]
  | case3 c rest notSlash notTilde ih =>
    have plain : ∀ d ∈ ['0', '1'], c = '~' → rest.head? ≠ some d := by
      intro d marked tilde found
      obtain ⟨more, rfl⟩ := List.head?_eq_some_iff.mp found
      simp only [List.mem_cons, List.not_mem_nil, or_false] at marked
      rcases marked with rfl | rfl
      · exact notTilde more tilde rfl
      · exact notSlash more tilde rfl
    have later : c = '~' → (replacePair '~' '1' '/' rest).head? ≠ some '0' := by
      intro tilde found
      rcases replacePair_head '~' '1' '/' rest with same | slash
      · exact plain '0' (by simp) tilde (same ▸ found)
      · simp [slash] at found
    rw [replacePair_miss (plain '1' (by simp)), replacePair_miss later, ih]
  | case4 => simp [replacePair]

theorem unescape_some {cs : List Char} (some_ : cs ≠ []) : unescapeChars cs ≠ [] := by
  fun_cases unescapeChars cs with
  | case4 => exact absurd rfl some_
  | _ => simp

/-- A reference never has one segment without a text and nothing else. -/
theorem split_ne_empty (ref : String) : split ref ≠ [""] := by
  rw [split]
  generalize Text.trimStart ['/'] (Text.trimStart ['#'] ref.toList) = body
  by_cases none : body.isEmpty = true
  · simp [none]
  · intro alone
    simp only [none, Bool.false_eq_true, if_false] at alone
    obtain ⟨piece, single, read⟩ := List.map_eq_singleton_iff.mp alone
    obtain ⟨-, ⟨-, rfl⟩ | ⟨more, -, rest⟩⟩ := Text.splitChars_cases single
    · exact unescape_some (by simpa using none) (by simpa using read)
    · exact Text.splitChars_ne_nil '/' more rest

theorem split_normal (ref : String) : split (normal ref) = split ref :=
  split_render (split_ne_empty ref)

theorem name_last {ref : String} (some_ : split ref ≠ []) :
    (split ref).getLast? = some (name ref) := by
  rw [name, List.getLast?_eq_some_getLast some_, Option.getD_some]

end Pointer

namespace Code.Package
variable {τ δ κ : Type}

theorem checkReferences_ok_iff {p : Package τ δ κ} {compiled : List String} :
    p.checkReferences compiled = .ok () ↔
      ∀ r ∈ p.references, Pointer.normal r.path ∈ compiled := by
  refine ⟨references_compiled, fun all => ?_⟩
  have none : (p.references.find? fun r => !compiled.contains (Pointer.normal r.path)) = none := by
    simpa using all
  rw [checkReferences, none]

end Code.Package

namespace Compile

/-- What the pointers of a selection say about its entries. -/
structure Addressed (d : Document) (path : String) (members : List (String × Json))
    (plans : List Glob.Plan) (s : Selection) : Prop where
  /-- The entries are the members of the section that no pattern matches. -/
  entries : ∀ e, e ∈ s.entries ↔ ∃ m ∈ members, ignores plans m.1 = false ∧
    e = entryOf (Pointer.splitSection path) m.1 m.2
  /-- The pointer of an entry leads to it, unless it has no name and the section is the root. -/
  found : ∀ e ∈ s.entries, Pointer.splitSection path ≠ [] ∨ e.name ≠ "" →
    Document.lookup (Pointer.split e.pointer) d.root = some e.tree
  once : ∀ e ∈ s.entries, ∀ e' ∈ s.entries, e.pointer = e'.pointer → e = e'
  /-- The references of a package are accepted if each leads to the name of an entry. -/
  accepted : ∀ p : Package, p.checkReferences (s.entries.map (·.pointer)) = .ok () ↔
    ∀ r ∈ p.references, ∃ name ∈ Members.keys members, ignores plans name = false ∧
      Pointer.split r.path = Pointer.splitSection path ++ [name]

section Section
variable {d : Document} {path : String} {ignore : List String} {members : List (String × Json)}
  {plans : List Glob.Plan} {s : Selection}

theorem entry_iff (located : d.section? path = .ok members) (read : Ignore.plans ignore = .ok plans)
    (selected : select d path ignore = .ok s) (e : Entry) :
    e ∈ s.entries ↔ ∃ m ∈ members, ignores plans m.1 = false ∧
      e = entryOf (Pointer.splitSection path) m.1 m.2 := by
  obtain ⟨ks, chosen, entries⟩ := select_ok selected
  obtain ⟨plans', read', kept⟩ := (kept_ok_iff located).mp chosen
  obtain rfl := Except.ok.inj (read.symm.trans read')
  obtain ⟨-, rfl⟩ := keep_ok_iff.mp kept
  simp only [entries, entriesOf, List.mem_map, List.mem_filter, Bool.not_eq_true', and_assoc,
    eq_comm (b := e)]

theorem lookup_entry (located : d.section? path = .ok members)
    (distinct : (Members.keys members).Nodup) {m : String × Json} (member : m ∈ members)
    (named : Pointer.splitSection path ≠ [] ∨ m.1 ≠ "") :
    Document.lookup (Pointer.split (entryOf (Pointer.splitSection path) m.1 m.2).pointer) d.root =
      some m.2 := by
  have some_ : Pointer.splitSection path ++ [m.1] ≠ [""] := by
    intro alone
    obtain ⟨root, last⟩ := List.append_eq_singleton_iff.mp alone |>.resolve_right (by simp)
    exact named.elim (· root) (· (List.cons.inj last).1)
  have inside := Members.get_of_mem distinct member
  rw [entryOf, Pointer.split_render some_, Document.lookup_append,
    Document.section_lookup located, Option.bind_some, Document.lookup, Document.child?, inside]
  rfl

theorem select_addressed (located : d.section? path = .ok members)
    (distinct : (Members.keys members).Nodup) (read : Ignore.plans ignore = .ok plans)
    (selected : select d path ignore = .ok s) : Addressed d path members plans s := by
  have entries := entry_iff located read selected
  refine ⟨entries, fun e inside named => ?_, fun e inside e' inside' same => ?_, fun p => ?_⟩
  · obtain ⟨m, member, -, rfl⟩ := (entries e).mp inside
    exact lookup_entry located distinct member named
  · obtain ⟨m, member, -, rfl⟩ := (entries e).mp inside
    obtain ⟨m', member', -, rfl⟩ := (entries e').mp inside'
    have names : m.1 = m'.1 := by
      have segments := Pointer.render_injective same
      exact (List.cons.inj (List.append_cancel_left segments)).1
    rw [List.inj_on_of_nodup_map distinct member member' names]
  · rw [Code.Package.checkReferences_ok_iff]
    refine forall₂_congr fun r _ => ?_
    simp only [List.mem_map, entries]
    constructor
    · rintro ⟨-, ⟨m, member, free, rfl⟩, spelled⟩
      exact ⟨m.1, List.mem_map_of_mem member, free, Pointer.split_of_normal spelled.symm⟩
    · rintro ⟨name, known, free, segments⟩
      obtain ⟨m, member, rfl⟩ := List.mem_map.mp known
      exact ⟨_, ⟨m, member, free, rfl⟩, by rw [entryOf, Pointer.normal, segments]⟩

end Section

end Compile

namespace Pointer
open Text (replaceChar replacePair)

/-- Pointers round-trip. Escaping is two replacements in a row, and unescaping two others in the
    opposite order; what is written from segments is read back to them, each list of segments has a
    spelling of its own, all spellings of a reference have one normal form under which its target
    keeps its name, and by their pointers the entries of a section are found and references to them
    accepted. -/
theorem pointers_round_trip :
    (∀ s, (escape s).toList = replaceChar '/' ['~', '1'] (replaceChar '~' ['~', '0'] s.toList) ∧
      (unescape s).toList = replacePair '~' '0' '~' (replacePair '~' '1' '/' s.toList)) ∧
    (∀ segments, segments ≠ [""] → split (render segments) = segments) ∧
    (∀ a b, render a = render b → a = b) ∧
    (∀ ref, normal (normal ref) = normal ref) ∧
    (∀ ref, split ref ≠ [] → (split (normal ref)).getLast? = some (name ref)) ∧
    ∀ (d : Document) path ignore members plans s, d.section? path = .ok members →
      (Members.keys members).Nodup → Ignore.plans ignore = .ok plans →
        Compile.select d path ignore = .ok s → Compile.Addressed d path members plans s := by
  refine ⟨fun s => ?_, fun _ => split_render, fun _ _ => render_injective, fun ref => ?_,
    fun ref some_ => ?_, fun d path ignore members plans s located distinct read selected => ?_⟩
  · rw [escape, unescape, String.toList_ofList, String.toList_ofList]
    exact ⟨escape_two_passes _, unescape_two_passes _⟩
  · rw [normal, split_normal, normal]
  · rw [split_normal, name_last some_]
  · exact Compile.select_addressed located distinct read selected

namespace Sample

/-- Entries under names that hold what a pointer is made of. -/
def entries : List (String × Json) :=
  [("~1/0", .bool true), ("", .null), ("#/~0", .bool false)]

def members : List (String × Json) := entries ++ [("Draft", .null)]

def document : Document := ⟨.obj [("a~b", .obj members)]⟩

end Sample

theorem awkward_entries_addressed :
    split (render ["", "~1/0", "#"]) = ["", "~1/0", "#"] ∧
      ∃ s, Compile.select Sample.document "a~b" ["Draft*"] = .ok s ∧
        ∀ m ∈ Sample.entries, ∃ e ∈ s.entries, e.name = m.1 ∧
          Document.lookup (split e.pointer) Sample.document.root = some m.2 := by
  obtain ⟨-, reads, -, -, -, sections⟩ := pointers_round_trip
  obtain ⟨s, selected, -⟩ := toOption_any_iff.mp (show
    (Compile.select Sample.document "a~b" ["Draft*"]).toOption.any (fun _ => true) from by
      decide +kernel)
  obtain ⟨plans, read, free⟩ := toOption_any_iff.mp (show
    (Ignore.plans ["Draft*"]).toOption.any (fun plans =>
      (Members.keys Sample.entries).all fun name => !Compile.ignores plans name) from by
        decide +kernel)
  have addressed := sections Sample.document "a~b" ["Draft*"] Sample.members plans s rfl
    (by decide) read selected
  refine ⟨reads _ (by decide), s, selected, fun m listed => ?_⟩
  have inside : m ∈ Sample.members := List.mem_append_left _ listed
  have kept : Compile.ignores plans m.1 = false := by
    simpa using List.all_eq_true.mp free m.1 (List.mem_map_of_mem listed)
  have entry := (addressed.entries _).mpr ⟨m, inside, kept, rfl⟩
  exact ⟨_, entry, rfl, addressed.found _ entry (.inl (by decide))⟩

-- The one list that is not read back: it is taken for the document itself.
example : split (render [""]) = [] := by decide

-- In the other order of the replacements a tilde before a digit would be lost.
example : replacePair '~' '1' '/' (replacePair '~' '0' '~' (escape "~1").toList) = ['/'] := by
  decide

end Pointer

end SchemaForge
