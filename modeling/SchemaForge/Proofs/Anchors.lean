import Mathlib.Data.List.Nodup
import SchemaForge.Proofs.Decoding
import SchemaForge.Yaml.Graph

/-!
What a node graph may rely on. An anchor is known from the start of its node on, and the node itself
is recorded at its end; so while a collection is open an alias may refer to a node that does not
exist yet, but once the root is complete every alias in reach of it has its node.
-/
namespace SchemaForge.Yaml

mutual

/-- The anchors that the aliases inside a node refer to. -/
def targets : Node → List Nat
  | .scalar .. => []
  | .alias _ target => [target]
  | .sequence _ items => itemTargets items
  | .mapping _ entries => entryTargets entries

def itemTargets : List Node → List Nat
  | [] => []
  | n :: rest => targets n ++ itemTargets rest

def entryTargets : List (Node × Node) → List Nat
  | [] => []
  | (key, value) :: rest => targets key ++ targets value ++ entryTargets rest

end

theorem mem_itemTargets {id : Nat} {items : List Node} :
    id ∈ itemTargets items ↔ ∃ n ∈ items, id ∈ targets n := by
  induction items with
  | nil => simp [itemTargets]
  | cons n rest ih => simp [itemTargets, ih]

theorem mem_entryTargets {id : Nat} {entries : List (Node × Node)} :
    id ∈ entryTargets entries ↔ ∃ e ∈ entries, id ∈ targets e.1 ∨ id ∈ targets e.2 := by
  induction entries with
  | nil => simp [entryTargets]
  | cons e rest ih => simp [entryTargets, ih, or_assoc]

/-- The node of an anchor. -/
def lookup (anchored : List (Nat × Node)) (id : Nat) : Option Node :=
  (anchored.find? (·.1 == id)).map (·.2)

theorem lookup_cons (id : Nat) (n : Node) (anchored : List (Nat × Node)) (other : Nat) :
    lookup ((id, n) :: anchored) other = if id = other then some n else lookup anchored other := by
  by_cases same : id = other <;> simp [lookup, same]

theorem lookup_mem {anchored : List (Nat × Node)} {id : Nat} {n : Node}
    (found : lookup anchored id = some n) : (id, n) ∈ anchored := by
  obtain ⟨⟨id', n'⟩, here, rfl⟩ := Option.map_eq_some_iff.mp found
  have same : id' = id := by simpa using List.find?_some here
  exact same ▸ List.mem_of_find?_eq_some here

theorem lookup_isSome {anchored : List (Nat × Node)} {id : Nat}
    (member : id ∈ anchored.map (·.1)) : ∃ n, lookup anchored id = some n := by
  obtain ⟨entry, there, rfl⟩ := List.mem_map.mp member
  have found : (anchored.find? (·.1 == entry.1)).isSome := by
    rw [List.find?_isSome]
    exact ⟨entry, there, by simp⟩
  obtain ⟨result, here⟩ := Option.isSome_iff_exists.mp found
  exact ⟨result.2, by rw [lookup, here]; rfl⟩

/-- Each of these anchors has its node, and the node refers to these anchors only. -/
def Grounded (anchored : List (Nat × Node)) (ids : List Nat) : Prop :=
  ∀ id ∈ ids, ∃ n, lookup anchored id = some n ∧ targets n ⊆ ids

theorem Grounded.cons {anchored : List (Nat × Node)} {ids : List Nat} {id : Nat} {n : Node}
    (grounded : Grounded anchored ids) (new : id ∉ anchored.map (·.1)) :
    Grounded ((id, n) :: anchored) ids := by
  intro other member
  obtain ⟨there, found, inside⟩ := grounded other member
  have different : id ≠ other := by
    rintro rfl
    exact new (List.mem_map.mpr ⟨_, lookup_mem found, rfl⟩)
  exact ⟨there, by rw [lookup_cons, if_neg different, found], inside⟩

namespace Builder

def Frame.anchor? : Frame → Option Nat
  | .sequence _ anchor _ | .mapping _ anchor _ _ => anchor

def Frame.targets : Frame → List Nat
  | .sequence _ _ items => itemTargets items
  | .mapping _ _ entries key => entryTargets entries ++ key.toList.flatMap Yaml.targets

/-- The anchors given out so far: of open collections, and of complete nodes. -/
def State.known (s : State) : List Nat :=
  s.stack.filterMap Frame.anchor? ++ s.anchored.map (·.1)

/-- No anchor is given out twice, and aliases refer to anchors that were given out. A complete root
    does not depend on what is still open. -/
structure State.Sound (s : State) : Prop where
  distinct : s.known.Nodup
  below : ∀ id ∈ s.known, id < s.fresh
  names : ∀ entry ∈ s.names, entry.2 ∈ s.known
  frames : ∀ f ∈ s.stack, f.targets ⊆ s.known
  nodes : ∀ entry ∈ s.anchored, targets entry.2 ⊆ s.known
  root : ∀ n, s.root = some n → ∃ ids, targets n ⊆ ids ∧ Grounded s.anchored ids

theorem State.Sound.start : State.Sound {} where
  distinct := List.nodup_nil
  below := by simp [State.known]
  names := by simp
  frames := by simp
  nodes := by simp
  root := by simp

theorem State.known_deliver (s : State) (n : Node) : (s.deliver n).known = s.known := by
  unfold State.deliver State.known
  split <;> simp_all [List.filterMap_cons, Frame.anchor?]

theorem State.Sound.deliver {s : State} (sound : s.Sound) {n : Node}
    (inside : targets n ⊆ s.known) : (s.deliver n).Sound := by
  have known := s.known_deliver n
  obtain ⟨distinct, below, names, frames, nodes, root⟩ := sound
  unfold State.deliver at known ⊢
  split
  case h_1 stack =>
    -- The root is complete while nothing is open: what is known is what is recorded.
    refine ⟨distinct, below, names, frames, nodes, ?_⟩
    rintro m ⟨⟩
    refine ⟨s.known, inside, fun id member => ?_⟩
    have recorded : id ∈ s.anchored.map (·.1) := by simpa [State.known, stack] using member
    obtain ⟨there, found⟩ := lookup_isSome recorded
    exact ⟨there, found, nodes _ (lookup_mem found)⟩
  all_goals
    rename_i stack
    simp only [stack] at known
    refine ⟨known ▸ distinct, known ▸ below, known ▸ names, ?_, known ▸ nodes, root⟩
    have first := frames _ (stack ▸ List.mem_cons_self)
    have others := fun f member => frames f (stack ▸ List.mem_cons_of_mem _ member)
    simp only [known, List.forall_mem_cons]
    refine ⟨?_, others⟩
    simp only [Frame.targets, itemTargets, entryTargets, Option.toList_some, Option.toList_none,
      List.flatMap_cons, List.flatMap_nil, List.append_nil, List.append_subset] at first ⊢
  · exact ⟨inside, first⟩
  · exact ⟨first, inside⟩
  · exact ⟨⟨first.2, inside⟩, first.1⟩

/-- A new collection holds nothing, and its anchor is new. -/
theorem State.Sound.push {s : State} (sound : s.Sound) (name : Option String) {f : Frame}
    (anchor : f.anchor? = (s.anchor name).1) (empty : f.targets = []) :
    State.Sound { (s.anchor name).2 with stack := f :: s.stack } := by
  obtain ⟨distinct, below, names, frames, nodes, root⟩ := sound
  cases name with
  | none =>
    have known : State.known { s with stack := f :: s.stack } = s.known := by
      simp [State.known, anchor, State.anchor]
    refine ⟨known ▸ distinct, known ▸ below, known ▸ names, ?_, known ▸ nodes, root⟩
    exact List.forall_mem_cons.mpr ⟨by simp [empty], known ▸ frames⟩
  | some name =>
    have known : State.known { (s.anchor (some name)).2 with stack := f :: s.stack } =
        s.fresh :: s.known := by
      simp [State.known, anchor, State.anchor]
    have more : s.known ⊆ s.fresh :: s.known := List.subset_cons_self ..
    refine ⟨?_, ?_, ?_, ?_, ?_, root⟩ <;> simp only [known]
    · exact List.nodup_cons.mpr ⟨fun member => Nat.lt_irrefl _ (below _ member), distinct⟩
    · refine List.forall_mem_cons.mpr ⟨Nat.lt_succ_self _, fun id member => ?_⟩
      exact Nat.lt_succ_of_lt (below id member)
    · exact List.forall_mem_cons.mpr ⟨List.mem_cons_self, fun e member => more (names e member)⟩
    · exact List.forall_mem_cons.mpr
        ⟨by simp [empty], fun g member => List.Subset.trans (frames g member) more⟩
    · exact fun e member => List.Subset.trans (nodes e member) more

/-- At the end of a collection its anchor passes from the open to the recorded ones. -/
theorem State.Sound.close {s : State} (sound : s.Sound) {f : Frame} {rest : List Frame}
    (stack : s.stack = f :: rest) {n : Node} (inside : targets n ⊆ f.targets) :
    State.Sound (({ s with stack := rest } : State).record f.anchor? n |>.deliver n) := by
  obtain ⟨distinct, below, names, frames, nodes, root⟩ := sound
  have first : targets n ⊆ s.known :=
    List.Subset.trans inside (frames f (stack ▸ List.mem_cons_self))
  have others : ∀ g ∈ rest, g.targets ⊆ s.known :=
    fun g member => frames g (stack ▸ List.mem_cons_of_mem _ member)
  cases anchor : f.anchor? with
  | none =>
    have known : State.known { s with stack := rest } = s.known := by
      simp [State.known, stack, anchor]
    refine State.Sound.deliver ?_ (known ▸ first)
    exact ⟨known ▸ distinct, known ▸ below, known ▸ names, known ▸ others, known ▸ nodes, root⟩
  | some id =>
    have moved : (State.known { s with stack := rest, anchored := (id, n) :: s.anchored }).Perm
        s.known := by
      simp only [State.known, stack, List.filterMap_cons, anchor, List.map_cons, List.cons_append]
      exact List.perm_middle
    have kept := moved.symm.subset
    refine State.Sound.deliver ?_ (List.Subset.trans first kept)
    refine ⟨moved.nodup_iff.mpr distinct, fun i member => below i (moved.subset member),
      fun e member => kept (names e member),
      fun g member => List.Subset.trans (others g member) kept, ?_, ?_⟩
    · exact List.forall_mem_cons.mpr
        ⟨List.Subset.trans first kept, fun e member => List.Subset.trans (nodes e member) kept⟩
    · intro m complete
      obtain ⟨ids, within, grounded⟩ := root m complete
      refine ⟨ids, within, grounded.cons fun recorded => ?_⟩
      simp only [State.known, stack, List.filterMap_cons, anchor, List.cons_append,
        List.nodup_cons] at distinct
      exact distinct.1 (List.mem_append_right _ recorded)

theorem step_sound {s s' : State} {event : Event} (sound : s.Sound)
    (stepped : step s event = .ok s') : s'.Sound := by
  cases event with
  | documentStart | documentEnd | streamEnd => cases stepped; exact sound
  | «alias» line name =>
    simp only [step] at stepped
    split at stepped
    case h_1 named id found =>
      cases stepped
      refine sound.deliver ?_
      simpa [targets] using sound.names _ (List.mem_of_find?_eq_some found)
    case h_2 => cases stepped
  | scalar line name tag text plain =>
    -- A scalar is a collection that ends where it starts.
    cases stepped
    have opened := sound.push name (f := .sequence line (s.anchor name).1 []) rfl rfl
    have closed := opened.close rfl (n := .scalar line (scalarType tag text plain) text)
      (by simp [targets])
    cases name <;> exact closed
  | sequenceStart line name =>
    cases stepped
    have opened := sound.push name (f := .sequence line (s.anchor name).1 []) rfl rfl
    cases name <;> exact opened
  | mappingStart line name =>
    cases stepped
    have opened := sound.push name (f := .mapping line (s.anchor name).1 [] none) rfl rfl
    cases name <;> exact opened
  | sequenceEnd | mappingEnd =>
    simp only [step] at stepped
    split at stepped <;> cases stepped
    case h_1 line id items rest stack =>
      refine sound.close stack fun i member => ?_
      simpa [targets, Frame.targets, mem_itemTargets] using member
    case h_2 line id entries key rest stack =>
      refine sound.close stack fun i member => List.mem_append_left _ ?_
      simpa [targets, mem_entryTargets] using member
    case h_3 => exact sound

theorem run_sound {s s' : State} {es : List Event} (sound : s.Sound) (ran : run s es = .ok s') :
    s'.Sound := by
  induction es generalizing s with
  | nil => cases ran; exact sound
  | cons event rest ih =>
    simp only [run] at ran
    split at ran
    · cases ran
    case h_2 next stepped => exact ih (step_sound sound stepped) ran

end Builder

/-- In the graph of a text every alias in reach of the root has its node. -/
theorem Graph.ofText_grounded {cs : List Char} {g : Graph}
    (built : Graph.ofText cs = .ok (some g)) :
    ∃ ids, targets g.root ⊆ ids ∧ Grounded g.anchored ids := by
  simp only [Graph.ofText, bind_ok_iff] at built
  obtain ⟨s, ran, built⟩ := built
  split at built
  · cases built
  · obtain ⟨root, complete, rfl⟩ : ∃ root, s.root = some root ∧ ⟨root, s.anchored⟩ = g := by
      simpa using built
    exact (Builder.run_sound .start ran).root root complete

end SchemaForge.Yaml
