import SchemaForge.Proofs.Anchors
import SchemaForge.Proofs.Cycles

/-!
When the expansion of a node graph ends. Expanding a node asks for its parts one after the other, as
long as the ones before came out. An outcome at some depth stays at every larger one, and nodes that
are asked for have theirs at a smaller one; so an expansion that comes back to a node has none at
all. An expansion that is still open at a depth has passed that many nodes, and in a graph of fewer
nodes it has come back to one of them.
-/
namespace SchemaForge.Yaml.Graph

open Relation (ReflTransGen TransGen)

/-- The values of the entries before the first key that is no scalar. -/
def values : List (Node × Node) → List Node
  | (.scalar .., value) :: rest => value :: values rest
  | _ => []

/-- What a node is expanded from, in order. -/
def parts (g : Graph) : Node → List Node
  | .scalar .. => []
  | .alias _ target => (lookup g.anchored target).toList
  | .sequence _ items => items
  | .mapping _ entries => values entries

def expandEach (g : Graph) (depth : Nat) : List Node → Expansion (List Json)
  | [] => some (.ok [])
  | n :: rest =>
    match g.expand depth n with
    | none => none
    | some (.error e) => some (.error e)
    | some (.ok v) => (expandEach g depth rest).map (Except.map (v :: ·))

def keyed (members : List (String × Json)) : List (Node × Node) → List Json → Except Error Json
  | [], _ => .ok (.obj members)
  | (.scalar _ _ name, _) :: rest, v :: vs => keyed (Members.set name v members) rest vs
  | (key, _) :: _, _ => .error (.keyNotScalar key.line)

/-- The tree of a node from those of its parts. -/
def assemble : Node → List Json → Except Error Json
  | .scalar line type text, _ => scalar line type text
  | .alias .., vs => .ok (vs.headD .null)
  | .sequence .., vs => .ok (.arr vs)
  | .mapping _ entries, vs => keyed [] entries vs

theorem expandItems_eq (g : Graph) (depth : Nat) (acc : List Json) (items : List Node) :
    g.expandItems depth acc items =
      (g.expandEach depth items).map (Except.map fun vs => .arr (acc.reverse ++ vs)) := by
  induction items generalizing acc with
  | nil => simp [expandItems, expandEach, Except.map]
  | cons n rest ih =>
    rw [expandItems, expandEach]
    rcases g.expand depth n with _ | e | v
    · rfl
    · rfl
    · simp only [ih, Option.map_map]
      congr 1
      funext r
      cases r <;> simp [Except.map]

theorem expandEntries_eq (g : Graph) (depth : Nat) (members : List (String × Json))
    (entries : List (Node × Node)) :
    g.expandEntries depth members entries =
      (g.expandEach depth (values entries)).map (·.bind (keyed members entries)) := by
  induction entries generalizing members with
  | nil => simp [expandEntries, expandEach, values, keyed, Except.bind]
  | cons entry rest ih =>
    obtain ⟨key, n⟩ := entry
    cases key with
    | scalar line type name =>
      rw [expandEntries, values, expandEach]
      rcases g.expand depth n with _ | e | v
      · rfl
      · rfl
      · simp only [ih, Option.map_map]
        congr 1
        funext r
        cases r <;> rfl
    | _ => simp [expandEntries, values, expandEach, keyed, Except.bind]

theorem mem_values {entries : List (Node × Node)} {m : Node} (member : m ∈ values entries) :
    ∃ entry ∈ entries, entry.2 = m := by
  induction entries with
  | nil => simp [values] at member
  | cons entry rest ih =>
    obtain ⟨key, n⟩ := entry
    cases key with
    | scalar line type name =>
      rcases List.mem_cons.mp member with rfl | later
      · exact ⟨_, List.mem_cons_self, rfl⟩
      · obtain ⟨entry, there, same⟩ := ih later
        exact ⟨entry, List.mem_cons_of_mem _ there, same⟩
    | _ => simp [values] at member

variable {g : Graph} {ids : List Nat} (grounded : Grounded g.anchored ids)

section
include grounded

/-- One step of an expansion: the parts in order, put together. -/
theorem expand_succ (depth : Nat) {n : Node} (inside : targets n ⊆ ids) :
    g.expand (depth + 1) n = (g.expandEach depth (g.parts n)).map (·.bind (assemble n)) := by
  cases n with
  | scalar line type text => simp [expand, parts, expandEach, assemble, Except.bind]
  | «alias» line target =>
    obtain ⟨m, found, -⟩ := grounded target (inside (by simp [targets]))
    obtain ⟨entry, there, rfl⟩ := Option.map_eq_some_iff.mp found
    simp only [expand, there, parts, found, Option.toList_some, expandEach]
    rcases g.expand depth entry.2 with _ | e | v <;> rfl
  | sequence line items =>
    rw [expand, expandItems_eq, parts]
    rfl
  | mapping line entries => rw [expand, expandEntries_eq, parts]; rfl

theorem parts_inside {n m : Node} (inside : targets n ⊆ ids) (member : m ∈ g.parts n) :
    targets m ⊆ ids := by
  cases n with
  | scalar line type text => simp [parts] at member
  | «alias» line target =>
    obtain ⟨there, found, within⟩ := grounded target (inside (by simp [targets]))
    obtain rfl : m = there := by simpa [parts, found] using member
    exact within
  | sequence line items =>
    exact fun id there => inside (mem_itemTargets.mpr ⟨m, member, there⟩)
  | mapping line entries =>
    obtain ⟨entry, there, rfl⟩ := mem_values member
    exact fun id here => inside (mem_entryTargets.mpr ⟨entry, there, .inr here⟩)

omit grounded in
theorem each_deeper {depth more : Nat} {ns : List Node} {r : Except Error (List Json)}
    (kept : ∀ n ∈ ns, ∀ r, g.expand depth n = some r → g.expand more n = some r)
    (ended : g.expandEach depth ns = some r) : g.expandEach more ns = some r := by
  induction ns generalizing r with
  | nil => exact ended
  | cons n rest ih =>
    have first := kept n List.mem_cons_self
    have later := fun m member => kept m (List.mem_cons_of_mem n member)
    rw [expandEach] at ended ⊢
    rcases expanded : g.expand depth n with _ | e | v
    · simp [expanded] at ended
    · simpa [expanded, first _ expanded] using ended
    · simp only [expanded, Option.map_eq_some_iff] at ended
      obtain ⟨r', ended, rfl⟩ := ended
      simp [first _ expanded, ih later ended]

/-- An outcome is kept at every larger depth. -/
theorem expand_deeper {depth more : Nat} (le : depth ≤ more) {n : Node} (inside : targets n ⊆ ids)
    {r : Except Error Json} (ended : g.expand depth n = some r) : g.expand more n = some r := by
  induction depth generalizing more n r with
  | zero => simp [expand] at ended
  | succ depth ih =>
    obtain ⟨more, rfl⟩ : ∃ k, more = k + 1 := ⟨more - 1, by omega⟩
    rw [expand_succ grounded _ inside, Option.map_eq_some_iff] at ended ⊢
    obtain ⟨r', ended, same⟩ := ended
    refine ⟨r', each_deeper ?_ ended, same⟩
    intro m member r outcome
    exact ih (by omega) (parts_inside grounded inside member) outcome

theorem expand_unique {depth depth' : Nat} {n : Node} (inside : targets n ⊆ ids)
    {r r' : Except Error Json} (ended : g.expand depth n = some r)
    (ended' : g.expand depth' n = some r') : r = r' := by
  have first := expand_deeper grounded (le_max_left depth depth') inside ended
  have second := expand_deeper grounded (le_max_right depth depth') inside ended'
  exact Option.some.inj (first.symm.trans second)

end

/-- The node comes out as a tree. -/
def Yields (g : Graph) (n : Node) : Prop := ∃ depth v, g.expand depth n = some (.ok v)

/-- The first node is expanded from the second one, among others. -/
def Holds (g : Graph) (n m : Node) : Prop := m ∈ g.parts n

/-- The expansion of the first node comes to the second one, as all parts before it come out. -/
def Asks (g : Graph) (n m : Node) : Prop :=
  ∃ before after, g.parts n = before ++ m :: after ∧ ∀ x ∈ before, g.Yields x

theorem Asks.holds {n m : Node} (asks : g.Asks n m) : g.Holds n m := by
  obtain ⟨before, after, parts, -⟩ := asks
  simp [Holds, parts]

/-- Where a list of parts is still open, the ones before the open part came out. -/
theorem each_open {depth : Nat} {ns : List Node} (unended : g.expandEach depth ns = none) :
    ∃ before m after, ns = before ++ m :: after ∧ (∀ x ∈ before, g.Yields x) ∧
      g.expand depth m = none := by
  induction ns with
  | nil => simp [expandEach] at unended
  | cons n rest ih =>
    rw [expandEach] at unended
    rcases expanded : g.expand depth n with _ | e | v
    · exact ⟨[], n, rest, rfl, by simp, expanded⟩
    · simp [expanded] at unended
    · simp only [expanded, Option.map_eq_none_iff] at unended
      obtain ⟨before, m, after, rfl, passed, here⟩ := ih unended
      exact ⟨n :: before, m, after, rfl, List.forall_mem_cons.mpr ⟨⟨_, _, expanded⟩, passed⟩, here⟩

theorem each_yields {depth : Nat} {ns : List Node} {vs : List Json}
    (ended : g.expandEach depth ns = some (.ok vs)) : ∀ n ∈ ns, g.Yields n := by
  induction ns generalizing vs with
  | nil => simp
  | cons n rest ih =>
    rw [expandEach] at ended
    rcases expanded : g.expand depth n with _ | e | v
    · simp [expanded] at ended
    · simp [expanded] at ended
    · simp only [expanded, Option.map_eq_some_iff] at ended
      obtain ⟨_ | vs', ended, same⟩ := ended
      · cases same
      · exact List.forall_mem_cons.mpr ⟨⟨_, _, expanded⟩, ih ended⟩

section
include grounded

theorem each_ended {depth : Nat} {before after : List Node} {m : Node}
    {r : Except Error (List Json)} (inside : ∀ x ∈ before, targets x ⊆ ids)
    (passed : ∀ x ∈ before, g.Yields x)
    (ended : g.expandEach depth (before ++ m :: after) = some r) :
    ∃ r', g.expand depth m = some r' := by
  induction before generalizing r with
  | nil =>
    rw [List.nil_append, expandEach] at ended
    rcases expanded : g.expand depth m with _ | r'
    · simp [expanded] at ended
    · exact ⟨r', rfl⟩
  | cons n rest ih =>
    rw [List.cons_append, expandEach] at ended
    obtain ⟨k, v, yielded⟩ := passed n List.mem_cons_self
    rcases expanded : g.expand depth n with _ | r'
    · simp [expanded] at ended
    · obtain rfl := expand_unique grounded (inside n List.mem_cons_self) expanded yielded
      simp only [expanded, Option.map_eq_some_iff] at ended
      obtain ⟨r', ended, -⟩ := ended
      exact ih (fun x member => inside x (List.mem_cons_of_mem _ member))
        (fun x member => passed x (List.mem_cons_of_mem _ member)) ended

/-- A node that is asked for has its outcome one step earlier. -/
theorem Asks.ended {n m : Node} (asks : g.Asks n m) (inside : targets n ⊆ ids) {depth : Nat}
    {r : Except Error Json} (ended : g.expand (depth + 1) n = some r) :
    ∃ r', g.expand depth m = some r' := by
  obtain ⟨before, after, parts, passed⟩ := asks
  rw [expand_succ grounded _ inside, Option.map_eq_some_iff, parts] at ended
  obtain ⟨r', ended, -⟩ := ended
  refine each_ended grounded (fun x member => ?_) passed ended
  exact parts_inside grounded inside (parts ▸ List.mem_append_left _ member)

theorem asked_inside {n m : Node} (inside : targets n ⊆ ids) (asks : g.Asks n m) :
    targets m ⊆ ids :=
  parts_inside grounded inside asks.holds

/-- An expansion that is open one step later is open at a node it asks for. -/
theorem open_asks {n : Node} (inside : targets n ⊆ ids) {depth : Nat}
    (unended : g.expand (depth + 1) n = none) : ∃ m, g.Asks n m ∧ g.expand depth m = none := by
  rw [expand_succ grounded _ inside, Option.map_eq_none_iff] at unended
  obtain ⟨before, m, after, parts, passed, here⟩ := each_open unended
  exact ⟨m, ⟨before, after, parts, passed⟩, here⟩

theorem asked_inside_along {n m : Node} (inside : targets n ⊆ ids)
    (reached : ReflTransGen g.Asks n m) : targets m ⊆ ids := by
  induction reached with
  | refl => exact inside
  | tail _ asks ih => exact asked_inside grounded ih asks

theorem ended_along {n m : Node} (inside : targets n ⊆ ids) (reached : ReflTransGen g.Asks n m)
    {depth : Nat} {r : Except Error Json} (ended : g.expand depth n = some r) :
    ∃ k ≤ depth, ∃ r', g.expand k m = some r' := by
  induction reached using ReflTransGen.head_induction_on generalizing depth r with
  | refl => exact ⟨depth, le_rfl, r, ended⟩
  | head asks _ ih =>
    cases depth with
    | zero => simp [expand] at ended
    | succ depth =>
      obtain ⟨r', ended⟩ := asks.ended grounded inside ended
      obtain ⟨k, le, ended⟩ := ih (asked_inside grounded inside asks) ended
      exact ⟨k, by omega, ended⟩

/-- An expansion that comes back to a node has no outcome at any depth. -/
theorem cycle_open {n : Node} (inside : targets n ⊆ ids) (cycle : TransGen g.Asks n n)
    (depth : Nat) : g.expand depth n = none := by
  -- The depths of the outcomes would descend for ever.
  induction depth using Nat.strong_induction_on with
  | _ depth ih =>
    by_contra some_
    obtain ⟨r, ended⟩ := Option.ne_none_iff_exists'.mp some_
    obtain ⟨next, asks, back⟩ := TransGen.head'_iff.mp cycle
    cases depth with
    | zero => simp [expand] at ended
    | succ depth =>
      obtain ⟨r', ended⟩ := asks.ended grounded inside ended
      have within := asked_inside grounded inside asks
      obtain ⟨k, le, r'', ended⟩ := ended_along grounded within back ended
      rw [ih k (by omega)] at ended
      cases ended

theorem endless_open {n : Node} (inside : targets n ⊆ ids) (endless : Endless g.Asks n)
    (depth : Nat) : g.expand depth n = none := by
  obtain ⟨m, reached, cycle⟩ := endless
  by_contra some_
  obtain ⟨r, ended⟩ := Option.ne_none_iff_exists'.mp some_
  obtain ⟨k, -, r', ended⟩ := ended_along grounded inside reached ended
  rw [cycle_open grounded (asked_inside_along grounded inside reached) cycle] at ended
  cases ended

/-- An expansion that is open at a depth has passed that many nodes. -/
theorem open_chain {n : Node} (inside : targets n ⊆ ids) {depth : Nat}
    (unended : g.expand depth n = none) :
    ∃ path : List Node, path.length = depth ∧ (n :: path).IsChain g.Asks := by
  induction depth generalizing n with
  | zero => exact ⟨[], rfl, List.isChain_singleton n⟩
  | succ depth ih =>
    obtain ⟨m, asks, unended⟩ := open_asks grounded inside unended
    obtain ⟨path, length, chain⟩ := ih (asked_inside grounded inside asks) unended
    exact ⟨m :: path, by simp [length], List.isChain_cons_cons.mpr ⟨asks, chain⟩⟩

/-- Where a tree comes out, everything inside comes out, and all of it was asked for. -/
theorem Yields.parts {n : Node} (inside : targets n ⊆ ids) (yields : g.Yields n) :
    ∀ m ∈ g.parts n, g.Yields m ∧ g.Asks n m := by
  obtain ⟨depth, v, ended⟩ := yields
  cases depth with
  | zero => simp [expand] at ended
  | succ depth =>
    rw [expand_succ grounded _ inside, Option.map_eq_some_iff] at ended
    obtain ⟨_ | vs, ended, same⟩ := ended
    · cases same
    · have all := each_yields ended
      intro m member
      obtain ⟨before, after, parts⟩ := List.append_of_mem member
      refine ⟨all m member, before, after, parts, fun x earlier => all x ?_⟩
      exact parts ▸ List.mem_append_left _ earlier

theorem Yields.not_endless {n : Node} (inside : targets n ⊆ ids) (yields : g.Yields n) :
    ¬ Endless g.Holds n := by
  intro endless
  have asked : Endless g.Asks n := by
    refine endless_along (R := g.Holds) (fun x y => x = y ∧ g.Yields x ∧ targets x ⊆ ids) ?_ ?_
      ⟨rfl, yields, inside⟩ endless
    · rintro x y x' ⟨rfl, yields, inside⟩ holds
      obtain ⟨part, asks⟩ := yields.parts grounded inside y holds
      exact ⟨y, ⟨rfl, part, parts_inside grounded inside holds⟩, asks⟩
    · rintro x y y' ⟨rfl, -⟩ ⟨rfl, -⟩
      rfl
  obtain ⟨depth, v, ended⟩ := yields
  rw [endless_open grounded inside asked] at ended
  cases ended

end

mutual

def subnodes : Node → List Node
  | .scalar line type text => [.scalar line type text]
  | .alias line target => [.alias line target]
  | .sequence line items => .sequence line items :: itemNodes items
  | .mapping line entries => .mapping line entries :: entryNodes entries

def itemNodes : List Node → List Node
  | [] => []
  | n :: rest => subnodes n ++ itemNodes rest

def entryNodes : List (Node × Node) → List Node
  | [] => []
  | (_, value) :: rest => subnodes value ++ entryNodes rest

end

mutual

theorem length_subnodes : ∀ n : Node, (subnodes n).length ≤ nodeCount n
  | .scalar .. | .alias .. => by simp [subnodes, nodeCount]
  | .sequence _ items => by simpa [subnodes, nodeCount] using length_itemNodes items
  | .mapping _ entries => by simpa [subnodes, nodeCount] using length_entryNodes entries

theorem length_itemNodes : ∀ items : List Node, (itemNodes items).length ≤ itemCount items
  | [] => by simp [itemNodes, itemCount]
  | n :: rest => by
    have first := length_subnodes n
    have others := length_itemNodes rest
    simp only [itemNodes, itemCount, List.length_append]
    omega

theorem length_entryNodes :
    ∀ entries : List (Node × Node), (entryNodes entries).length ≤ entryCount entries
  | [] => by simp [entryNodes, entryCount]
  | (key, value) :: rest => by
    have first := length_subnodes value
    have others := length_entryNodes rest
    simp only [entryNodes, entryCount, List.length_append]
    omega

end

theorem self_mem_subnodes (n : Node) : n ∈ subnodes n := by
  cases n <;> simp [subnodes]

theorem mem_itemNodes {m : Node} {items : List Node} :
    m ∈ itemNodes items ↔ ∃ n ∈ items, m ∈ subnodes n := by
  induction items with
  | nil => simp [itemNodes]
  | cons n rest ih => simp [itemNodes, ih]

theorem mem_entryNodes {m : Node} {entries : List (Node × Node)} :
    m ∈ entryNodes entries ↔ ∃ e ∈ entries, m ∈ subnodes e.2 := by
  induction entries with
  | nil => simp [entryNodes]
  | cons e rest ih => simp [entryNodes, ih]

mutual

theorem subnodes_trans {m k : Node} (inner : k ∈ subnodes m) :
    ∀ n : Node, m ∈ subnodes n → k ∈ subnodes n
  | .scalar .., member | .alias .., member => by
    obtain rfl := List.mem_singleton.mp member
    exact inner
  | .sequence _ items, member => by
    rcases List.mem_cons.mp member with rfl | below
    · exact inner
    · exact List.mem_cons_of_mem _ (itemNodes_trans inner items below)
  | .mapping _ entries, member => by
    rcases List.mem_cons.mp member with rfl | below
    · exact inner
    · exact List.mem_cons_of_mem _ (entryNodes_trans inner entries below)

theorem itemNodes_trans {m k : Node} (inner : k ∈ subnodes m) :
    ∀ items : List Node, m ∈ itemNodes items → k ∈ itemNodes items
  | [], member => absurd member List.not_mem_nil
  | n :: rest, member => by
    rcases List.mem_append.mp member with first | later
    · exact List.mem_append_left _ (subnodes_trans inner n first)
    · exact List.mem_append_right _ (itemNodes_trans inner rest later)

theorem entryNodes_trans {m k : Node} (inner : k ∈ subnodes m) :
    ∀ entries : List (Node × Node), m ∈ entryNodes entries → k ∈ entryNodes entries
  | [], member => absurd member List.not_mem_nil
  | (_, value) :: rest, member => by
    rcases List.mem_append.mp member with first | later
    · exact List.mem_append_left _ (subnodes_trans inner value first)
    · exact List.mem_append_right _ (entryNodes_trans inner rest later)

end

/-- All nodes of a graph. -/
def places (g : Graph) : List Node :=
  subnodes g.root ++ g.anchored.flatMap fun entry => subnodes entry.2

theorem length_places (g : Graph) : g.places.length < g.depthBound := by
  have anchored : ∀ entries : List (Nat × Node), ∀ start : Nat,
      start + (entries.flatMap fun entry => subnodes entry.2).length ≤
        (entries.map fun entry => nodeCount entry.2).foldl (· + ·) start := by
    intro entries
    induction entries with
    | nil => simp
    | cons entry rest ih =>
      intro start
      have first := length_subnodes entry.2
      have others := ih (start + nodeCount entry.2)
      simp only [List.flatMap_cons, List.length_append, List.map_cons, List.foldl_cons]
      omega
  have root := length_subnodes g.root
  have below := anchored g.anchored 0
  simp only [places, depthBound, List.length_append]
  omega

theorem subnodes_places {n k : Node} (member : n ∈ g.places) (inner : k ∈ subnodes n) :
    k ∈ g.places := by
  rcases List.mem_append.mp member with inRoot | inAnchored
  · exact List.mem_append_left _ (subnodes_trans inner _ inRoot)
  · obtain ⟨entry, there, here⟩ := List.mem_flatMap.mp inAnchored
    exact List.mem_append_right _
      (List.mem_flatMap.mpr ⟨entry, there, subnodes_trans inner _ here⟩)

theorem parts_places {n m : Node} (member : n ∈ g.places) (part : m ∈ g.parts n) :
    m ∈ g.places := by
  cases n with
  | scalar line type text => simp [parts] at part
  | «alias» line target =>
    have found : lookup g.anchored target = some m := by simpa [parts] using part
    exact List.mem_append_right _
      (List.mem_flatMap.mpr ⟨_, lookup_mem found, self_mem_subnodes m⟩)
  | sequence line items =>
    refine subnodes_places member (List.mem_cons_of_mem _ ?_)
    exact mem_itemNodes.mpr ⟨m, part, self_mem_subnodes m⟩
  | mapping line entries =>
    obtain ⟨entry, there, rfl⟩ := mem_values part
    refine subnodes_places member (List.mem_cons_of_mem _ ?_)
    exact mem_entryNodes.mpr ⟨entry, there, self_mem_subnodes _⟩

theorem chain_places {n : Node} {path : List Node} (member : n ∈ g.places)
    (chain : (n :: path).IsChain g.Asks) : n :: path ⊆ g.places := by
  induction path generalizing n with
  | nil => simpa using member
  | cons m rest ih =>
    obtain ⟨asks, chain⟩ := List.isChain_cons_cons.mp chain
    exact List.cons_subset.mpr ⟨member, ih (parts_places member asks.holds) chain⟩

/-- With as many steps as there are nodes the root is expanded, unless it never is. -/
theorem open_endless (grounded : Grounded g.anchored ids) (inside : targets g.root ⊆ ids)
    (unended : g.expand g.depthBound g.root = none) : Endless g.Asks g.root := by
  obtain ⟨path, length, chain⟩ := open_chain grounded inside unended
  have member : g.root ∈ g.places := List.mem_append_left _ (self_mem_subnodes _)
  refine endless_of_chain chain (chain_places member chain) ?_
  have few := g.length_places
  omega

/-- The graph of a text has a tree or an error exactly if its expansion never comes back to a node
    that it is inside of, and then after fewer nested steps than its bound. A graph without cycles
    is always expanded, and a tree comes out of no other. -/
theorem expansion_ends_iff {cs : List Char} {g : Graph} (built : Graph.ofText cs = .ok (some g)) :
    ((∃ depth r, g.expand depth g.root = some r) ↔ ¬ Endless g.Asks g.root) ∧
    (∀ depth r, g.expand depth g.root = some r →
      g.expand g.depthBound g.root = some r ∧ g.tree = r) ∧
    (¬ Endless g.Holds g.root → ∃ r, g.expand g.depthBound g.root = some r) ∧
    (∀ v, g.tree = .ok v → ¬ Endless g.Holds g.root) := by
  obtain ⟨ids, inside, grounded⟩ := Graph.ofText_grounded built
  have ends : ¬ Endless g.Asks g.root → ∃ r, g.expand g.depthBound g.root = some r := by
    intro free
    rw [← Option.ne_none_iff_exists']
    exact fun unended => free (open_endless grounded inside unended)
  have never : ∀ depth r, g.expand depth g.root = some r → ¬ Endless g.Asks g.root := by
    intro depth r ended endless
    rw [endless_open grounded inside endless] at ended
    cases ended
  refine ⟨⟨fun ⟨depth, r, ended⟩ => never depth r ended, fun free => ⟨_, ends free⟩⟩, ?_, ?_, ?_⟩
  · intro depth r ended
    obtain ⟨r', bounded⟩ := ends (never depth r ended)
    obtain rfl := expand_unique grounded inside ended bounded
    exact ⟨bounded, by rw [tree, bounded, Option.getD_some]⟩
  · exact fun free => ends fun endless => free (endless.mono fun _ _ asks => asks.holds)
  · intro v result
    rw [tree] at result
    rcases ended : g.expand g.depthBound g.root with _ | r
    · simp [ended] at result
    · obtain rfl : r = .ok v := by simpa [ended] using result
      exact Yields.not_endless grounded inside ⟨_, v, ended⟩

/-- An anchor that is used next to its node, and twice in a list, does no harm. -/
theorem shared_anchor_ends :
    ∃ g, Graph.ofText "{x: &a [1], y: *a, z: [*a, *a]}".toList = .ok (some g) ∧
      g.tree = .ok (.obj [("x", .arr [.num "1"]), ("y", .arr [.num "1"]),
        ("z", .arr [.arr [.num "1"], .arr [.num "1"]])]) ∧
      ¬ Endless g.Asks g.root ∧ ¬ Endless g.Holds g.root := by
  let shared : Node := .sequence 1 [.scalar 1 .int "1"]
  let g : Graph :=
    ⟨.mapping 1 [(.scalar 1 .str "x", shared), (.scalar 1 .str "y", .alias 1 0),
      (.scalar 1 .str "z", .sequence 1 [.alias 1 0, .alias 1 0])], [(0, shared)]⟩
  have built : Graph.ofText "{x: &a [1], y: *a, z: [*a, *a]}".toList = .ok (some g) := rfl
  have ended : g.expand 5 g.root = some (.ok (.obj [("x", .arr [.num "1"]),
      ("y", .arr [.num "1"]), ("z", .arr [.arr [.num "1"], .arr [.num "1"]])])) := by
    cbv
  obtain ⟨iff, bounded, -, acyclic⟩ := expansion_ends_iff built
  exact ⟨g, built, (bounded _ _ ended).2, iff.mp ⟨_, _, ended⟩, acyclic _ (bounded _ _ ended).2⟩

/-- An anchor around its own alias: the expansion of a list with itself as its item never ends. -/
theorem self_containing_anchor_never_ends :
    ∃ g, Graph.ofText "&a [*a]".toList = .ok (some g) ∧ ∀ depth, g.expand depth g.root = none := by
  let inner : Node := .alias 1 0
  let g : Graph := ⟨.sequence 1 [inner], [(0, .sequence 1 [inner])]⟩
  have built : Graph.ofText "&a [*a]".toList = .ok (some g) := rfl
  obtain ⟨ids, inside, grounded⟩ := Graph.ofText_grounded built
  have item : g.Asks g.root inner := ⟨[], [], rfl, by simp⟩
  have back : g.Asks inner g.root := ⟨[], [], rfl, by simp⟩
  exact ⟨g, built, cycle_open grounded inside (.tail (.single item) back)⟩

end SchemaForge.Yaml.Graph
