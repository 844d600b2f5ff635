import SchemaForge.Proofs.Checks
import SchemaForge.Proofs.Linking

/-!
Compilation keeps the meaning of schemas: running the validator of a kept schema ends on every
value, and gives what reading the schema itself finds. The argument goes by the size of the value;
only aliases hand the same value on, and their chains are as finite as the types they have.
-/
namespace SchemaForge

open Code (verdict Apply Call)

section Parts

theorem others_agree {declared : List String} {item : Validator Unit}
    {read : Json → Option Failure} {members : List (String × Json)}
    (agree : ∀ m ∈ members, item m.2 = outcome (read m.2)) (acc : List (String × Unit)) :
    Outcome.within .additional (verdict (Validate.others declared item acc members)) =
      outcome (Schema.undeclaredFailure declared read members) := by
  induction members generalizing acc with
  | nil => rfl
  | cons head rest ih =>
    obtain ⟨key, v⟩ := head
    have later := fun acc => ih (fun m inside => agree m (List.mem_cons_of_mem _ inside)) acc
    rw [Validate.others, Schema.undeclaredFailure, List.findSome?_cons]
    split
    · exact later acc
    · rw [agree (key, v) List.mem_cons_self, within_outcome]
      cases read v with
      | some f => rfl
      | none => exact later _

theorem typedMap_agrees {declared : List String} {item : Validator Unit}
    {read : Json → Option Failure} {members : List (String × Json)}
    (agree : ∀ m ∈ members, item m.2 = outcome (read m.2)) :
    Outcome.within .additional (verdict (Validate.typedMap declared item (.obj members))) =
      outcome (Schema.undeclaredFailure declared read members) :=
  others_agree agree []

end Parts

namespace Compile

theorem primitive_agrees {p : Package} {name : String} {s : Schema} {call : Call}
    {sets : List Code.StringSet} (distinct : (p.sets.map (·.name)).Nodup)
    (found : primitive? name s = some (call, sets)) (kept : sets ⊆ p.sets) (good : s.boundsRead)
    (apply : Apply) (follow : String → Json → Option Failure) (v : Json) :
    p.runCall apply call v = outcome (s.firstFailure follow name v) := by
  cases s with
  | boolean =>
    simp only [primitive?, Option.some.injEq, Prod.mk.injEq] at found
    rw [← found.1]
    exact Schema.boolean_agrees v
  | integer lo hi =>
    simp only [primitive?, Option.some.injEq, Prod.mk.injEq] at found
    rw [← found.1]
    exact Schema.integer_agrees good v
  | number lo hi =>
    simp only [primitive?, Option.some.injEq, Prod.mk.injEq] at found
    rw [← found.1]
    exact Schema.number_agrees good v
  | string lo hi enum format =>
    simp only [primitive?, Option.some.injEq, Prod.mk.injEq] at found
    obtain ⟨rfl, rfl⟩ := found
    cases enum with
    | none => exact Schema.string_agrees lo hi none _ v
    | some values =>
      have listed := Code.Package.set_declared distinct (kept List.mem_cons_self)
      simp only [Option.map_some, Code.Package.runCall, Code.Package.withSet, listed]
      exact Schema.string_agrees lo hi (some values) _ v
  | _ => simp [primitive?] at found

theorem steps_agree {c : Compiler} {p : Package} {owner : String} {required : List String}
    {properties : List (String × Schema)} {fs : List Field} {steps : List Step} {apply : Apply}
    {follow : String → Json → Option Failure} {members : List (String × Json)}
    (each : Steps c p owner required properties fs steps)
    (agree : ∀ x ∈ properties, ∀ v, Members.get? x.1 members = some v →
      ∀ call, CallFor c p (Ident.propertyOf owner x.1) x.2 call →
        p.runCall apply call v =
          outcome (x.2.firstFailure follow (Ident.propertyOf owner x.1) v)) :
    p.runSteps apply owner members steps =
      outcome ((properties.map fun x =>
        (x.1, x.2.firstFailure follow (Ident.propertyOf owner x.1))).findSome?
          (Schema.propertyFailure owner required members)) := by
  induction each with
  | nil fs => rfl
  | @cons key s call properties f fs steps head tail ih =>
    have later := ih fun x inside => agree x (List.mem_cons_of_mem _ inside)
    rw [List.map_cons, List.findSome?_cons, Code.Package.runSteps, Schema.propertyFailure]
    cases present : Members.get? key members with
    | none =>
      simp only [demand]
      cases required.contains key with
      | true => rfl
      | false => exact later
    | some v =>
      simp only [agree (key, s) List.mem_cons_self v present call head, within_outcome]
      cases s.firstFailure follow (Ident.propertyOf owner key) v with
      | none => exact later
      | some f => rfl

/-- At the given depth a validator gives what reading the schema finds, whatever lies deeper. -/
def AgreesAt (d : Document) (p : Package) (validator name : String) (s : Schema) (depth : Nat)
    (v : Json) : Prop :=
  ∀ limit limit', p.unroll^[depth] limit validator v =
    outcome (s.firstFailure (d.unroll^[depth] limit') name v)

theorem AgreesAt.deeper {d : Document} {p : Package} {validator name : String} {s : Schema}
    {depth more : Nat} {v : Json} (agrees : AgreesAt d p validator name s depth v)
    (deeper : depth ≤ more) : AgreesAt d p validator name s more v := by
  intro limit limit'
  obtain ⟨extra, rfl⟩ := Nat.exists_eq_add_of_le deeper
  rw [Function.iterate_add_apply, Function.iterate_add_apply]
  exact agrees _ _

theorem common_depth {α : Type} {P : Nat → α → Prop} {as : List α}
    (deeper : ∀ {depth more a}, depth ≤ more → P depth a → P more a)
    (each : ∀ a ∈ as, ∃ depth, P depth a) : ∃ depth, ∀ a ∈ as, P depth a := by
  induction as with
  | nil => exact ⟨0, by simp⟩
  | cons head rest ih =>
    obtain ⟨first, atHead⟩ := each head List.mem_cons_self
    obtain ⟨second, atRest⟩ := ih fun a inside => each a (List.mem_cons_of_mem _ inside)
    refine ⟨max first second, ?_⟩
    intro a member
    rcases List.mem_cons.mp member with rfl | later
    · exact deeper (Nat.le_max_left _ _) atHead
    · exact deeper (Nat.le_max_right _ _) (atRest a later)

/-- Reading a reference once more unrolled is reading its target. -/
theorem reference_read {d : Document} {path : String} {target : Schema}
    (resolved : d.resolve path = .ok target) (name : String) (depth : Nat)
    (limit : String → Json → Option Failure) (v : Json) :
    (Schema.ref path).firstFailure (d.unroll^[depth + 1] limit) name v =
      target.firstFailure (d.unroll^[depth] limit) (Pointer.name path) v := by
  rw [Schema.firstFailure, Function.iterate_succ_apply', Document.unroll, resolved]

/-- The parts of a schema give what reading them finds, at one depth for all the values. -/
def PartsAgree (c : Compiler) (p : Package) (parts : List (String × Schema)) (depth : Nat)
    (v : Json) : Prop :=
  ∀ x ∈ parts, Placed c p x.1 x.2 →
    AgreesAt c.document p (validatorFor c x.1 x.2) x.1 x.2 depth v

theorem PartsAgree.deeper {c : Compiler} {p : Package} {parts : List (String × Schema)}
    {depth more : Nat} {v : Json} (agree : PartsAgree c p parts depth v)
    (deeper : depth ≤ more) : PartsAgree c p parts more v :=
  fun x inside placed => (agree x inside placed).deeper deeper

section Linked
variable {c : Compiler} {named : List (String × Schema)} {p : Package} (linked : Linked c named p)
include linked

/-- A validator agrees with a schema one level above its body. -/
theorem agrees_of_body {validator owner name : String} {t : Code.Ty} {body : Code.Body Call}
    {s : Schema} {depth : Nat} {v : Json} (member : ⟨validator, owner, t, body⟩ ∈ p.functions)
    (agree : ∀ limit limit',
      p.runFunction (p.unroll^[depth] limit) ⟨validator, owner, t, body⟩ v =
        outcome (s.firstFailure (c.document.unroll^[depth + 1] limit') name v)) :
    AgreesAt c.document p validator name s (depth + 1) v := by
  intro limit limit'
  have found := Code.Package.function_declared linked.functions_distinct member
  rw [Function.iterate_succ_apply', Code.Package.unroll, found]
  exact agree limit limit'

/-- The members that are not declared are mapped through the validator of their schema. -/
theorem others_step_agrees {name : String} {o : ObjectParts} {step : Option Code.MapStep}
    {apply : Apply} {follow : String → Json → Option Failure} {members : List (String × Json)}
    (stands : OthersStep c p name o o.additional step) (kept : declaredSet name o ⊆ p.sets)
    (agree : ∀ s, o.additional = some s → Placed c p (Ident.additionalOf name) s →
      ∀ m ∈ members, apply (validatorFor c (Ident.additionalOf name) s) m.2 =
        outcome (s.firstFailure follow (Ident.additionalOf name) m.2)) :
    p.runOthers apply step (.obj members) =
      outcome ((o.additional.map (Schema.firstFailure follow (Ident.additionalOf name))).bind
        fun item => Schema.undeclaredFailure (o.properties.map (·.1)) item members) := by
  obtain ⟨properties, required, additional⟩ := o
  cases stands with
  | none => rfl
  | @some s placed =>
    have same := agree s rfl placed
    cases properties with
    | nil => exact typedMap_agrees same
    | cons first rest =>
      have listed := Code.Package.set_declared linked.sets_distinct (kept List.mem_cons_self)
      simp only [Code.Package.runOthers, mapStep, declaredSet, Option.isSome_some,
        List.isEmpty_cons, Bool.not_false, Bool.and_true, if_true, List.head?_cons, Option.map_some,
        Code.Package.withSet, listed]
      exact typedMap_agrees same

theorem call_agrees {name : String} {s : Schema} {call : Call} {apply : Apply}
    {follow : String → Json → Option Failure} {v : Json} (stands : CallFor c p name s call)
    (good : s.boundsRead)
    (agree : Placed c p name s →
      apply (validatorFor c name s) v = outcome (s.firstFailure follow name v)) :
    p.runCall apply call v = outcome (s.firstFailure follow name v) := by
  cases stands with
  | primitive found kept =>
    exact primitive_agrees linked.sets_distinct found kept good apply follow v
  | validator _ placed => exact agree placed

theorem array_ends {name : String} {items : Schema} {lo hi : Option Nat} {t : Code.Ty} {v : Json}
    (member : ⟨c.validator name, name, t,
      .result (.array lo hi (validatorFor c (Ident.itemOf name) items))⟩ ∈ p.functions)
    (placed : Placed c p (Ident.itemOf name) items)
    (smaller : ∀ w, w.size < v.size →
      ∃ depth, PartsAgree c p [(Ident.itemOf name, items)] depth w) :
    ∃ depth, AgreesAt c.document p (c.validator name) name (.array items lo hi) depth v := by
  cases v with
  | arr values =>
    obtain ⟨depth, each⟩ := common_depth (fun deeper agree => agree.deeper deeper)
      fun w inside => smaller w (Json.size_of_item inside)
    refine ⟨depth + 1, agrees_of_body linked member ?_⟩
    intro limit limit'
    rw [Function.iterate_succ_apply]
    refine Schema.array_agrees _ fun values' same w inside => ?_
    rw [← Json.arr.inj same] at inside
    exact each w inside _ List.mem_cons_self placed _ _
  | _ => exact ⟨1, agrees_of_body linked member fun _ _ => rfl⟩

theorem object_ends {name constructor : String} {properties : Option (List (String × Schema))}
    {required : List String} {additional : Option Schema} {t : Code.Ty} {fs : List Field}
    {step : Option Code.MapStep} {steps : List Step} {v : Json}
    (member : ⟨c.validator name, name, t, .object ⟨constructor, step, steps⟩⟩ ∈ p.functions)
    (sets : declaredSet name ⟨properties.getD [], required, additional⟩ ⊆ p.sets)
    (others : OthersStep c p name ⟨properties.getD [], required, additional⟩ additional step)
    (declared : Steps c p name required (properties.getD []) fs steps)
    (good : ∀ x ∈ (Schema.object properties required additional).children name, x.2.boundsRead)
    (smaller : ∀ w, w.size < v.size → ∃ depth,
      PartsAgree c p ((Schema.object properties required additional).children name) depth w) :
    ∃ depth, AgreesAt c.document p (c.validator name) name
      (.object properties required additional) depth v := by
  cases v with
  | obj members =>
    -- Each member is settled at a depth of its own; the largest of these does for all.
    obtain ⟨depth, each⟩ := common_depth (fun deeper agree => agree.deeper deeper)
      fun m (inside : m ∈ members) => smaller m.2 (Json.size_of_member inside)
    refine ⟨depth + 1, agrees_of_body linked member ?_⟩
    intro limit limit'
    have undeclared := others_step_agrees linked others sets
      fun s present placed m inside =>
        each m inside (Ident.additionalOf name, s) (by
          subst present
          exact Schema.additional_mem_children) placed limit (c.document.unroll limit')
    have inOrder : p.runSteps (p.unroll^[depth] limit) name members steps = _ :=
      steps_agree declared (by
        intro x listed w found call stands
        have child : (Ident.propertyOf name x.1, x.2) ∈
            (Schema.object properties required additional).children name :=
          Schema.property_mem_children listed
        have bounds := good _ child
        exact call_agrees linked stands bounds fun placed =>
          each _ (Members.mem_of_get found) _ child placed limit (c.document.unroll limit'))
    rw [Function.iterate_succ_apply, Schema.firstFailure, Schema.othersReading_eq,
      Schema.declaredReadings_eq, Schema.objectFailure, outcome_or]
    simp only [List.map_map, Function.comp_def]
    rw [← inOrder, ← undeclared]
    rfl
  | _ => exact ⟨1, agrees_of_body linked member fun _ _ => rfl⟩

/-- Parts have a validator or lead to one. -/
theorem parts_end {parts : List (String × Schema)} {v : Json}
    (nodes : ∀ x ∈ parts, x ∈ nodesOf named)
    (ends : ∀ x ∈ nodesOf named, ∀ f ∈ p.functions, Heads c p x.1 x.2 f →
      ∃ depth, AgreesAt c.document p (c.validator x.1) x.1 x.2 depth v) :
    ∃ depth, PartsAgree c p parts depth v := by
  refine common_depth (fun deeper agree placed => (agree placed).deeper deeper) ?_
  rintro ⟨name, s⟩ inside
  by_cases placed : Placed c p name s
  · suffices ∃ depth, AgreesAt c.document p (validatorFor c name s) name s depth v by
      obtain ⟨depth, agree⟩ := this
      exact ⟨depth, fun _ => agree⟩
    cases s with
    | ref path =>
      obtain ⟨target, node, resolved, f, member, heads⟩ := linked.target placed
      obtain ⟨depth, agree⟩ := ends _ node f member heads
      refine ⟨depth + 1, fun limit limit' => ?_⟩
      rw [reference_read resolved, Function.iterate_succ_apply]
      exact agree _ _
    | _ =>
      obtain ⟨q, compiled, within⟩ := placed
      obtain ⟨f, -, member, heads⟩ := compile_heads compiled within
      have direct := ends _ (nodes _ inside) f member heads
      exact direct
  · exact ⟨0, fun present => absurd present placed⟩

theorem headed_ends {v : Json}
    (smaller : ∀ w, w.size < v.size → ∀ x ∈ nodesOf named,
      ∃ depth, PartsAgree c p (x.2.children x.1) depth w)
    {fuel : Nat} {met : List String} {name : String} {s : Schema} {t : Code.Ty} {f : Function}
    (node : (name, s) ∈ nodesOf named) (typed : typeVia c.document fuel met name s = .ok t)
    (member : f ∈ p.functions) (heads : Heads c p name s f) :
    ∃ depth, AgreesAt c.document p (c.validator name) name s depth v := by
  -- An alias hands on the value as it is, so its size does not help. But the alias has a type, and
  -- the type of its target follows one reference less.
  induction fuel using Nat.strongRecOn generalizing met name s t f with
  | ind fuel shorter =>
    have inner := fun w less => smaller w less _ node
    cases heads with
    | reference _ used =>
      obtain ⟨target, there, resolved, f', member', heads'⟩ := linked.target used
      obtain ⟨-, target', k, resolved', rfl, followed⟩ := typeVia_ref_ok typed
      rw [resolved, Except.ok.injEq] at resolved'
      subst resolved'
      obtain ⟨depth, agree⟩ := shorter k (by omega) there followed member' heads'
      refine ⟨depth + 1, agrees_of_body linked member ?_⟩
      intro limit limit'
      rw [reference_read resolved]
      exact agree limit limit'
    | array _ placed => exact array_ends linked member placed inner
    | object _ _ sets others declared =>
      refine object_ends linked member sets others declared ?_ inner
      exact fun child inside => linked.boundsRead (child_mem_nodesOf node inside)
    | primitive found kept =>
      refine ⟨1, agrees_of_body linked member ?_⟩
      intro limit limit'
      exact primitive_agrees linked.sets_distinct found kept (linked.boundsRead node) _ _ v

/-- Every validator agrees with its schema on every value. -/
theorem node_ends (v : Json) :
    ∀ x ∈ nodesOf named, ∀ f ∈ p.functions, Heads c p x.1 x.2 f →
      ∃ depth, AgreesAt c.document p (c.validator x.1) x.1 x.2 depth v := by
  -- By the size of the value: parts of a schema are asked for parts of the value only.
  induction size : v.size using Nat.strongRecOn generalizing v with
  | ind n smaller =>
    subst size
    intro x node f member heads
    refine headed_ends linked ?_ node heads.typed.2.2 member heads
    intro w less y there
    exact parts_end linked (fun child inside => child_mem_nodesOf there inside)
      (smaller w.size less w rfl)

end Linked

theorem outcome_injective {a b : Option Failure} (same : outcome a = outcome b) : a = b := by
  cases a <;> cases b <;> simp_all [outcome, refuse]

/-- Agreement at any depth settles both what is found and how the validator ends. -/
theorem AgreesAt.settles {d : Document} {p : Package} {validator name : String} {s : Schema}
    {depth : Nat} {v : Json} (agrees : AgreesAt d p validator name s depth v) :
    ∃ found, d.Finds name s v found ∧ p.Runs validator v (outcome found) := by
  refine ⟨s.firstFailure (d.unroll^[depth] fun _ _ => none) name v, ⟨depth, ?_⟩, ⟨depth, ?_⟩⟩
  · intro limit'
    exact outcome_injective
      ((agrees (fun _ _ => .ok ()) limit').symm.trans (agrees (fun _ _ => .ok ()) _))
  · intro limit
    exact agrees limit _

/-- The validator that is reported for an entry ends on every value. It accepts the value when
    reading the decoded schema finds nothing, and otherwise refuses it with what is found. -/
def KeepsMeaning (d : Document) (p : Package) (e : Entry) (reported : SchemaSummary) : Prop :=
  reported.name = e.name ∧ ∃ s, Schema.decodeAt e.pointer e.tree = .ok s ∧
    ∀ v, ∃ found, d.Finds e.name s v found ∧ p.Runs reported.validator v (outcome found)

theorem validators_keep_meaning {d : Document} {o : CompileOptions} {canceled : Bool}
    {r : CompiledDocument} (compiled : document d o canceled = .ok r) :
    ∃ selection, select d o.section_ o.ignore = .ok selection ∧
      List.Forall₂ (KeepsMeaning d r.package) selection.entries r.schemas := by
  obtain ⟨selection, named, selected, decoded, linked, reported⟩ := document_linked compiled
  refine ⟨selection, selected, related_through decoded reported ?_⟩
  rintro e ⟨name, s⟩ present summary ⟨same, tree⟩ ⟨title, validator, -⟩
  obtain ⟨f, member, heads⟩ := linked.headed present
  refine ⟨title.trans same, s, decodeAt_ok_iff.mpr tree, ?_⟩
  intro v
  obtain ⟨depth, agrees⟩ := node_ends linked v _ (named_mem_nodesOf present) f member heads
  rw [validator, ← same]
  exact agrees.settles

namespace Sample

def treeSchema : Schema :=
  .object (some [("label", .string none none (some ["a", "b"]) ""),
      ("children", .array (.ref "#/schemas/Tree") none none), ("owner", .ref "#/schemas/Owner")])
    ["label", "owner"] (some (.ref "#/schemas/Count"))

/-- A tree with an owner whose age is below the minimum. -/
def tree : Json := .obj [("label", .str "a"), ("owner", .obj [("age", .num "-1")])]

theorem tree_read :
    document.Finds "Tree" treeSchema tree
      (some (.property "owner" (.property "age" (.integerBelow 0)))) :=
  ⟨3, fun _ => rfl⟩

theorem entry_decoded {selection : Selection} {e : Entry}
    (selected : select document options.section_ options.ignore = .ok selection)
    (member : e ∈ selection.entries) (name : e.name = "Tree") :
    Schema.decodeTree e.tree = .ok treeSchema := by
  obtain ⟨ks, chosen, entries⟩ := select_ok selected
  obtain ⟨members, plans, found, choice⟩ := kept_ok chosen
  rw [entries] at member
  obtain ⟨m, listed, rfl⟩ := List.mem_map.mp member
  have inside : m ∈ schemas := by
    have same : document.section? options.section_ = .ok schemas := rfl
    rw [same, Except.ok.injEq] at found
    exact found ▸ mem_of_keep choice listed
  simp only [schemas, List.mem_cons, List.not_mem_nil, or_false] at inside
  rcases inside with rfl | rfl | rfl | rfl | rfl
  · rfl
  all_goals simp [entryOf] at name

end Sample

set_option maxRecDepth 100000 in
theorem sample_tree_refused :
    ∃ r, document Sample.document Sample.options false = .ok r ∧
      ∃ reported ∈ r.schemas, reported.name = "Tree" ∧
        r.package.Runs reported.validator Sample.tree
          (refuse (.property "owner" (.property "age" (.integerBelow 0)))) := by
  obtain ⟨r, compiled, listed⟩ :=
    Sample.compiles (P := fun r => r.schemas.any (·.name = "Tree")) (by decide +kernel)
  obtain ⟨reported, member, name⟩ : ∃ s ∈ r.schemas, s.name = "Tree" := by simpa using listed
  obtain ⟨selection, selected, each⟩ := validators_keep_meaning compiled
  obtain ⟨e, entry, same, s, decoded, ends⟩ := related_of_mem_right each member
  rw [name] at same
  obtain ⟨found, finds, runs⟩ := ends Sample.tree
  rw [decodeAt_ok_iff, Sample.entry_decoded selected entry same.symm, Except.ok.injEq] at decoded
  rw [← same, ← decoded] at finds
  rw [Document.finds_unique finds Sample.tree_read] at runs
  exact ⟨r, compiled, reported, member, name, runs⟩

end Compile

end SchemaForge
