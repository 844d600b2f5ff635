import SchemaForge.Proofs.Cycles
import SchemaForge.Proofs.Linking

/-!
Emitted constructors end, and are cut short only where they have to be. Construction is decided by
a search along required objects that keeps the names it is inside of. The search succeeds only if
all that it can reach is well-founded, and fails only if it can reach a cycle; objects and records
correspond one to one, so the same holds for the fields of the emitted records.
-/
namespace SchemaForge

open Relation (ReflTransGen TransGen)

namespace Compile

/-- A required property of the first object leads to the second one. -/
def Leads (d : Document) (x y : String × ObjectParts) : Prop :=
  ∃ property ∈ x.2.properties, x.2.required.contains property.1 = true ∧
    objectTarget d maxHops (Ident.propertyOf x.1 property.1) property.2 = .ok (some y)

section Search
variable {d : Document}

theorem required_objects_true {name : String} {required : List String}
    {test : String → ObjectParts → Except SchemaError Bool} {properties : List (String × Schema)}
    (passed : requiredObjects d name required test properties = .ok true)
    {property : String × Schema} (member : property ∈ properties)
    (needed : required.contains property.1 = true) {y : String × ObjectParts}
    (found : objectTarget d maxHops (Ident.propertyOf name property.1) property.2 = .ok (some y)) :
    test y.1 y.2 = .ok true := by
  induction properties with
  | nil => simp at member
  | cons head rest ih =>
    rw [requiredObjects] at passed
    rcases List.mem_cons.mp member with rfl | later
    · rw [if_pos needed, found] at passed
      simp only at passed
      split at passed
      · simp at passed
      · simp at passed
      · assumption
    · split at passed
      · split at passed
        · simp at passed
        · exact ih passed later
        · split at passed
          · simp at passed
          · simp at passed
          · exact ih passed later
      · exact ih passed later

theorem required_objects_false {name : String} {required : List String}
    {test : String → ObjectParts → Except SchemaError Bool} {properties : List (String × Schema)}
    (failed : requiredObjects d name required test properties = .ok false) :
    ∃ property ∈ properties, required.contains property.1 = true ∧ ∃ y,
      objectTarget d maxHops (Ident.propertyOf name property.1) property.2 = .ok (some y) ∧
        test y.1 y.2 = .ok false := by
  induction properties with
  | nil => simp [requiredObjects] at failed
  | cons head rest ih =>
    have later : requiredObjects d name required test rest = .ok false →
        ∃ property ∈ head :: rest, required.contains property.1 = true ∧ ∃ y,
          objectTarget d maxHops (Ident.propertyOf name property.1) property.2 = .ok (some y) ∧
            test y.1 y.2 = .ok false := by
      intro rest_failed
      obtain ⟨property, member, facts⟩ := ih rest_failed
      exact ⟨property, List.mem_cons_of_mem _ member, facts⟩
    rw [requiredObjects] at failed
    split at failed
    · rename_i needed
      split at failed
      · simp at failed
      · exact later failed
      · rename_i target child found
        split at failed
        · simp at failed
        · rename_i tested
          exact ⟨head, List.mem_cons_self, needed, (target, child), found, tested⟩
        · exact later failed
    · exact later failed

/-- A search that succeeds has gone through everything that can be reached. -/
theorem acc_of_finite {fuel : Nat} {active : List String} {x : String × ObjectParts}
    (finite : finiteWithin d fuel active x.1 x.2 = .ok true) : Acc (fun y x => Leads d x y) x := by
  induction fuel generalizing active x with
  | zero => simp [finiteWithin] at finite
  | succ fuel ih =>
    rw [finiteWithin] at finite
    split at finite
    · simp at finite
    · refine Acc.intro x ?_
      rintro y ⟨property, member, needed, found⟩
      exact ih (required_objects_true finite member needed found)

variable {nodes : List (String × Schema)} (region : Region d nodes)
include region

theorem leads_object {x y : String × ObjectParts} (object : x ∈ objects nodes)
    (edge : Leads d x y) : y ∈ objects nodes := by
  obtain ⟨property, member, -, found⟩ := edge
  exact region.target_object (region.property object member) found

/-- A search that fails has come back to a name it is inside of. The names it is inside of are
    distinct, so they cannot use up its fuel. -/
theorem back_of_not_finite (unique : ∀ x ∈ objects nodes, ∀ y ∈ objects nodes, x.1 = y.1 → x = y)
    {fuel : Nat} {active : List String} {x : String × ObjectParts} (object : x ∈ objects nodes)
    (distinct : active.Nodup) (known : active ⊆ (objects nodes).map (·.1))
    (enough : nodes.length < fuel + active.length)
    (endless : finiteWithin d fuel active x.1 x.2 = .ok false) :
    ∃ y ∈ objects nodes, ReflTransGen (Leads d) x y ∧ (y.1 ∈ active ∨ TransGen (Leads d) y y) := by
  induction fuel generalizing active x with
  | zero =>
    have bound := active_length distinct known
    omega
  | succ fuel ih =>
    rw [finiteWithin] at endless
    split at endless
    · rename_i inside
      exact ⟨x, object, .refl, Or.inl (by simpa using inside)⟩
    · rename_i fresh
      obtain ⟨property, member, needed, y, found, failed⟩ := required_objects_false endless
      have edge : Leads d x y := ⟨property, member, needed, found⟩
      obtain ⟨z, there, reached, back⟩ := ih (leads_object region object edge)
        (List.nodup_cons.mpr ⟨by simpa using fresh, distinct⟩)
        (List.cons_subset.mpr ⟨List.mem_map.mpr ⟨_, object, rfl⟩, known⟩)
        (by rw [List.length_cons]; omega) failed
      -- Back at this very object the way there is a cycle; back at an outer name it stays open.
      rcases back with again | cycle
      · rcases List.mem_cons.mp again with same | outer
        · have closed := unique z there x object same
          subst closed
          exact ⟨z, object, .refl, Or.inr (TransGen.head' edge reached)⟩
        · exact ⟨z, there, .head edge reached, Or.inl outer⟩
      · exact ⟨z, there, .head edge reached, Or.inr cycle⟩

/-- Construction is cut short exactly where a cycle can be reached. -/
theorem endless_iff_not_finite
    (unique : ∀ x ∈ objects nodes, ∀ y ∈ objects nodes, x.1 = y.1 → x = y)
    {x : String × ObjectParts} {finite : Bool} (object : x ∈ objects nodes)
    (searched : finiteConstruction d x.1 x.2 = .ok finite) :
    Endless (Leads d) x ↔ finite = false := by
  rw [finiteConstruction] at searched
  cases finite with
  | true => simp [not_endless_of_acc (acc_of_finite searched)]
  | false =>
    obtain ⟨y, -, reached, back⟩ := back_of_not_finite region unique object List.nodup_nil
      (List.nil_subset _) (construction_enough region.small) searched
    have cycle := back.resolve_left (by simp)
    simpa using ⟨y, reached, cycle⟩

end Search

end Compile

namespace Code

/-- The steps of a body that fills the record with the given constructor. -/
def Body.stepsFilling (constructor : String) : Body Call → List (PropertyStep Call)
  | .object b => if b.constructor = constructor then b.properties else []
  | .result _ => []

namespace Package
variable (p : Package Ty Init Call)

/-- A field of the record for which its validator demands a member. -/
def Demands (r : Record Ty Init) (f : Field Ty Init) : Prop :=
  f ∈ r.fields ∧ ∃ g ∈ p.functions, ∃ step ∈ g.body.stepsFilling r.constructor,
    step.field = f.name ∧ step.required = true

instance (r : Record Ty Init) (f : Field Ty Init) : Decidable (p.Demands r f) :=
  inferInstanceAs (Decidable (_ ∧ _))

/-- A required field of the first record is of the type of the second one. -/
def Requires (r r' : Record Ty Init) : Prop :=
  r ∈ p.records ∧ r' ∈ p.records ∧ ∃ f, p.Demands r f ∧ f.type = .record r'.name

/-- The constructor of the first record calls that of the second one. -/
def Constructs (r r' : Record Ty Init) : Prop :=
  r ∈ p.records ∧ r' ∈ p.records ∧ ∃ f ∈ r.fields, f.default = .construct r'.constructor

end Package

end Code

namespace Compile
open Code (Ty Init)

section Records
variable {c : Compiler} {named : List (String × Schema)} {p : Package}

/-- The record of an object of the section. -/
def RecordOf (c : Compiler) (named : List (String × Schema)) (p : Package)
    (x : String × ObjectParts) (r : Record) : Prop :=
  x ∈ objects (nodesOf named) ∧ r ∈ p.records ∧ record c.document x.1 x.2 = .ok r

theorem RecordOf.made {x : String × ObjectParts} {r : Record} (stands : RecordOf c named p x r) :
    RecordFor c.document x.1 x.2 r :=
  record_made stands.2.2

/-- What a step for a property of the object has to do with the fields of its record. -/
def StepFor (d : Document) (x : String × ObjectParts) (r : Record) (property : String × Schema)
    (step : Step) : Prop :=
  ∃ f ∈ r.fields, FieldFor d x.1 x.2.required property f ∧ step.field = f.name ∧
    step.required = x.2.required.contains property.1

theorem steps_for {x : String × ObjectParts} {r : Record} {steps : List Step}
    (stands : RecordOf c named p x r)
    (each : Steps c p x.1 x.2.required x.2.properties r.fields steps) :
    List.Forall₂ (StepFor c.document x r) x.2.properties steps := by
  obtain ⟨own, extra, fields, held, -⟩ := stands.made.fields
  have inside : own ⊆ r.fields := fields ▸ List.subset_append_left own extra
  rw [fields] at each
  clear fields
  generalize x.2.properties = properties at held each ⊢
  induction held generalizing steps with
  | nil =>
    cases each
    exact .nil
  | cons head _ ih =>
    cases each with
    | cons _ tail =>
      obtain ⟨first, rest⟩ := List.cons_subset.mp inside
      exact .cons ⟨_, first, head, rfl, rfl⟩ (ih rest tail)

variable (linked : Linked c named p)
include linked

theorem record_of_object {x : String × ObjectParts} (object : x ∈ objects (nodesOf named)) :
    ∃ r, RecordOf c named p x r := by
  obtain ⟨r, member, made⟩ := related_of_mem_left linked.records object
  exact ⟨r, object, member, made⟩

theorem object_of_record {r : Record} (member : r ∈ p.records) :
    ∃ x, RecordOf c named p x r := by
  obtain ⟨x, object, made⟩ := related_of_mem_right linked.records member
  exact ⟨x, object, member, made⟩

theorem object_unique {x y : String × ObjectParts} {r : Record} (first : RecordOf c named p x r)
    (second : RecordOf c named p y r) : x = y :=
  linked.object_of_type first.1 second.1 (first.made.name.symm.trans second.made.name)

/-- The steps of a validator that fills the record of an object follow its properties. -/
theorem steps_of_validator {x : String × ObjectParts} {r : Record} {g : Function} {step : Step}
    (stands : RecordOf c named p x r) (emitted : g ∈ p.functions)
    (listed : step ∈ g.body.stepsFilling r.constructor) :
    ∃ property ∈ x.2.properties, StepFor c.document x r property step := by
  obtain ⟨⟨name, s⟩, node, heads⟩ := linked.origin emitted
  cases heads with
  | object made kept sets others declared =>
    rw [Code.Body.stepsFilling] at listed
    split at listed
    · rename_i fills
      obtain rfl := linked.record_of_constructor kept stands.2.1 fills
      obtain rfl := object_unique linked ⟨object_mem.mpr ⟨_, node, rfl⟩, kept, made⟩ stands
      exact related_of_mem_right (steps_for stands declared) listed
    · simp at listed
  | _ => simp [Code.Body.stepsFilling] at listed

/-- A demanded field belongs to a required property. -/
theorem property_of_demand {x : String × ObjectParts} {r : Record} {f : Field}
    (stands : RecordOf c named p x r) (demanded : p.Demands r f) :
    ∃ property ∈ x.2.properties, x.2.required.contains property.1 = true ∧
      FieldFor c.document x.1 x.2.required property f := by
  obtain ⟨member, g, emitted, step, listed, field, needed⟩ := demanded
  obtain ⟨property, present, f', member', held, field', required⟩ :=
    steps_of_validator linked stands emitted listed
  have same : f' = f :=
    List.inj_on_of_nodup_map stands.made.distinct member' member (field'.symm.trans field)
  subst same
  exact ⟨property, present, required.symm.trans needed, held⟩

theorem demand_of_property {x : String × ObjectParts} {r : Record} {property : String × Schema}
    (stands : RecordOf c named p x r) (present : property ∈ x.2.properties)
    (needed : x.2.required.contains property.1 = true) :
    ∃ f, p.Demands r f ∧ FieldFor c.document x.1 x.2.required property f := by
  obtain ⟨name, o⟩ := x
  obtain ⟨s, node, parts⟩ := object_mem.mp stands.1
  cases s <;> simp only [ObjectParts.ofSchema?, Option.some.injEq, reduceCtorEq] at parts
  subst parts
  obtain ⟨q, compiled, within⟩ := linked.placed node rfl
  obtain ⟨g, -, emitted, heads⟩ := compile_heads compiled within
  cases heads with
  | object made kept sets others declared =>
    obtain rfl := Except.ok.inj (made.symm.trans stands.2.2)
    obtain ⟨step, listed, f, member, held, field, required⟩ :=
      related_of_mem_left (steps_for stands declared) present
    refine ⟨f, ⟨member, _, emitted, step, ?_, field, required.trans needed⟩, held⟩
    simpa [Code.Body.stepsFilling] using listed
  | primitive found kept => simp [primitive?] at found

/-- A required field is of a record type if an object is found for it, and then it starts with
    the constructor of that record unless construction is cut short. -/
theorem required_field_cases {x : String × ObjectParts} {r : Record} {property : String × Schema}
    {f : Field} (stands : RecordOf c named p x r) (present : property ∈ x.2.properties)
    (needed : x.2.required.contains property.1 = true)
    (held : FieldFor c.document x.1 x.2.required property f) :
    (f.default = .zero f.type ∧ ∀ name, f.type ≠ .record name) ∨
      ∃ y target finite, RecordOf c named p y target ∧ Leads c.document x y ∧
        f.type = .record target.name ∧ finiteConstruction c.document y.1 y.2 = .ok finite ∧
        f.default = if finite then .construct target.constructor else .zero f.type := by
  obtain ⟨t, typed, start, -⟩ := held.typed
  obtain ⟨type, -, init⟩ := start needed
  have node := linked.region.property stands.1 present
  rcases required_init_cases init with ⟨found, zero⟩ | ⟨name, o, finite, found, searched, default⟩
  · refine Or.inl ⟨by rw [zero, type], ?_⟩
    simpa [type] using (target_typed found (typeVia_typed typed)).2 rfl
  · obtain ⟨target, there⟩ := record_of_object linked (linked.region.target_object node found)
    refine Or.inr ⟨(name, o), target, finite, there, ⟨property, present, needed, found⟩, ?_,
      searched, ?_⟩
    · rw [type, there.made.name]
      exact (target_typed found (typeVia_typed typed)).1 name o rfl
    · rw [default, type, there.made.constructor]

theorem leads_of_requires {x : String × ObjectParts} {r r' : Record}
    (stands : RecordOf c named p x r) (edge : p.Requires r r') :
    ∃ y, RecordOf c named p y r' ∧ Leads c.document x y := by
  obtain ⟨-, member', f, demanded, type⟩ := edge
  obtain ⟨property, present, needed, held⟩ := property_of_demand linked stands demanded
  rcases required_field_cases linked stands present needed held with
    ⟨-, other⟩ | ⟨y, target, finite, there, leads, type', -⟩
  · exact absurd type (other _)
  · rw [type, Ty.record.injEq] at type'
    obtain rfl := linked.record_of_name member' there.2.1 type'
    exact ⟨y, there, leads⟩

theorem requires_of_leads {x y : String × ObjectParts} {r : Record}
    (stands : RecordOf c named p x r) (edge : Leads c.document x y) :
    ∃ r', RecordOf c named p y r' ∧ p.Requires r r' := by
  obtain ⟨r', there⟩ := record_of_object linked (leads_object linked.region stands.1 edge)
  obtain ⟨property, present, needed, found⟩ := edge
  obtain ⟨f, demanded, held⟩ := demand_of_property linked stands present needed
  obtain ⟨t, typed, start, -⟩ := held.typed
  refine ⟨r', there, stands.2.1, there.2.1, f, demanded, ?_⟩
  rw [(start needed).1, there.made.name]
  exact (target_typed found (typeVia_typed typed)).1 _ _ rfl

theorem endless_iff {x : String × ObjectParts} {r : Record} (stands : RecordOf c named p x r) :
    Endless p.Requires r ↔ Endless (Leads c.document) x := by
  constructor
  · exact endless_along (fun r x => RecordOf c named p x r)
      (fun r r' x there edge => leads_of_requires linked there edge)
      (fun r x y first second => object_unique linked first second) stands
  · exact endless_along (fun x r => RecordOf c named p x r)
      (fun x y r there edge => requires_of_leads linked there edge)
      (fun x r r' first second => Except.ok.inj (first.2.2.symm.trans second.2.2)) stands

/-- A constructor is called only where construction ends. -/
theorem leads_of_constructs {x : String × ObjectParts} {r r' : Record}
    (stands : RecordOf c named p x r) (edge : p.Constructs r r') :
    ∃ y, RecordOf c named p y r' ∧ Leads c.document x y ∧
      Acc (fun b a => Leads c.document a b) y := by
  obtain ⟨-, member', f, field, default⟩ := edge
  obtain ⟨property, present, held⟩ | ⟨s, t, -, -, rfl⟩ := stands.made.field_cases field
  · cases needed : x.2.required.contains property.1 with
    | false =>
      obtain ⟨t, -, -, free⟩ := held.typed
      simp [(free needed).2] at default
    | true =>
      rcases required_field_cases linked stands present needed held with
        ⟨zero, -⟩ | ⟨y, target, finite, there, leads, -, searched, start⟩
      · simp [zero] at default
      · rw [default] at start
        cases finite with
        | false => simp at start
        | true =>
          simp only [if_true, Init.construct.injEq] at start
          obtain rfl := linked.record_of_constructor member' there.2.1 start
          exact ⟨y, there, leads, acc_of_finite searched⟩
  · simp at default

theorem constructs_acyclic (r : Record) : ¬ TransGen p.Constructs r r := by
  intro cycle
  obtain ⟨next, edge, back⟩ := TransGen.head'_iff.mp cycle
  obtain ⟨x, stands⟩ := object_of_record linked edge.1
  -- The first call of the cycle is made only because its target is well-founded, but the calls lead
  -- back to that target.
  obtain ⟨y, there, -, acc⟩ := leads_of_constructs linked stands edge
  have around : TransGen (Leads c.document) y y :=
    cycle_along (fun r x => RecordOf c named p x r)
      (fun r r' x here call => by
        obtain ⟨z, beyond, leads, -⟩ := leads_of_constructs linked here call
        exact ⟨z, beyond, leads⟩)
      (fun r x y first second => object_unique linked first second) there (.tail' back edge)
  exact not_endless_of_acc acc ⟨y, .refl, around⟩

end Records

/-- Constructors call each other without cycles. A required field of a record type starts with the
    constructor of that record exactly when no cycle of required records can be reached from it,
    and with an empty record otherwise. -/
theorem constructors_end {d : Document} {o : CompileOptions} {canceled : Bool}
    {r : CompiledDocument} (compiled : document d o canceled = .ok r) :
    (∀ a, ¬ TransGen r.package.Constructs a a) ∧
      ∀ owner ∈ r.package.records, ∀ target ∈ r.package.records, ∀ f,
        r.package.Demands owner f → f.type = .record target.name →
          (f.default = .construct target.constructor ↔ ¬ Endless r.package.Requires target) ∧
          (f.default = .zero (.record target.name) ↔ Endless r.package.Requires target) := by
  obtain ⟨selection, named, -, -, linked, -⟩ := document_linked compiled
  refine ⟨constructs_acyclic linked, ?_⟩
  intro owner member target member' f demanded type
  obtain ⟨x, stands⟩ := object_of_record linked member
  obtain ⟨property, present, needed, held⟩ := property_of_demand linked stands demanded
  rcases required_field_cases linked stands present needed held with
    ⟨-, other⟩ | ⟨y, target', finite, there, -, type', searched, default⟩
  · exact absurd type (other _)
  · rw [type, Ty.record.injEq] at type'
    obtain rfl := linked.record_of_name member' there.2.1 type'
    have unique : ∀ a ∈ objects (nodesOf named), ∀ b ∈ objects (nodesOf named),
        a.1 = b.1 → a = b :=
      fun a here b also same => linked.object_of_type here also (congrArg Ident.typeName same)
    rw [endless_iff linked there, endless_iff_not_finite linked.region unique there.1 searched,
      default, type]
    cases finite <;> simp

/-- A required field of a record type that starts in the given way. -/
def StartsWith (p : Package) (start : Record → Init) : Prop :=
  ∃ owner ∈ p.records, ∃ target ∈ p.records, ∃ f ∈ owner.fields, p.Demands owner f ∧
    f.type = .record target.name ∧ f.default = start target

instance (p : Package) (start : Record → Init) : Decidable (StartsWith p start) :=
  inferInstanceAs (Decidable (∃ owner ∈ p.records, _))

set_option maxRecDepth 100000 in
theorem sample_construction :
    ∃ r, document Sample.document Sample.options false = .ok r ∧
      (∀ a, ¬ TransGen r.package.Constructs a a) ∧
      (∃ owner ∈ r.package.records, ∃ target ∈ r.package.records, ∃ f,
        r.package.Demands owner f ∧ f.type = .record target.name ∧
        f.default = .zero (.record target.name) ∧ Endless r.package.Requires target) ∧
      ∃ owner ∈ r.package.records, ∃ target ∈ r.package.records, ∃ f,
        r.package.Demands owner f ∧ f.type = .record target.name ∧
        f.default = .construct target.constructor ∧ ¬ Endless r.package.Requires target := by
  obtain ⟨r, compiled, holds⟩ := Sample.compiles
    (P := fun r => decide (StartsWith r.package (fun target => .zero (.record target.name)) ∧
      StartsWith r.package (fun target => .construct target.constructor))) (by decide +kernel)
  obtain ⟨⟨owner, member, target, there, f, -, demanded, type, zero⟩,
    owner', member', target', there', f', -, demanded', type', start⟩ := of_decide_eq_true holds
  obtain ⟨acyclic, starts⟩ := constructors_end compiled
  refine ⟨r, compiled, acyclic, ⟨owner, member, target, there, f, demanded, type, zero, ?_⟩,
    owner', member', target', there', f', demanded', type', start, ?_⟩
  · exact (starts owner member target there f demanded type).2.mp zero
  · exact (starts owner' member' target' there' f' demanded' type').1.mp start

end Compile

end SchemaForge
