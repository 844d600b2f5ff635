import SchemaForge.Proofs.Bounds
import SchemaForge.Proofs.Identity

/-!
Required members. The names that an object schema requires and the names that it declares are read
apart from each other, and they meet in the steps of the emitted validator: a step is made for each
declared name and is marked where the name is required. So exactly the required names that are
declared are enforced, at every place inside a schema.
-/
namespace SchemaForge

/-- The name is in the list of required names. -/
def Requires (members : List (String × Json)) (name : String) : Prop :=
  ∃ items, Members.get? "required" members = some (.arr items) ∧ .str name ∈ items

def Declares (members : List (String × Json)) (name : String) : Prop :=
  ∃ values, Members.get? "properties" members = some (.obj values) ∧ name ∈ Members.keys values

namespace Schema
open Decode

variable {members : List (String × Json)} {name : String}

theorem required_iff {listed : Option (List String)}
    (read : strings members "required" = .ok listed) :
    name ∈ listed.getD [] ↔ Requires members name := by
  cases strings_under read with
  | absent missing => simp [Requires, missing]
  | present given same => simp [Requires, given, same]

theorem declared_iff {properties : Option (List (String × Schema))}
    (read : decodeProperties members = .ok properties) :
    name ∈ Members.keys (properties.getD []) ↔ Declares members name := by
  cases properties_under read with
  | absent missing => simp [Declares, missing, Members.keys]
  | present given same =>
    obtain ⟨values, rfl, each⟩ := same
    simp [Declares, given, properties_keys each]

theorem schemaType_iff {type : String} :
    (Json.obj members).schemaType? = some type ↔
      Members.get? "$ref" members = none ∧ Members.get? "type" members = some (.str type) := by
  rw [Json.schemaType?]
  split <;> simp_all

end Schema

namespace Code.Package
variable {τ δ : Type} {p : Package τ δ Call}

/-- A required member that is missing is never passed over. -/
theorem runSteps_missing {apply : Apply} {owner : String} {members : List (String × Json)}
    {steps : List (PropertyStep Call)} {step : PropertyStep Call} (listed : step ∈ steps)
    (required : step.required = true) (missing : Members.get? step.key members = none) :
    p.runSteps apply owner members steps ≠ .ok () := by
  induction steps with
  | nil => cases listed
  | cons head rest ih =>
    rw [runSteps]
    rcases List.mem_cons.mp listed with rfl | later
    · simp [missing, required, refuse]
    · split
      · split
        · simp [refuse]
        · exact ih later
      · intro passed
        obtain ⟨_, -, passed⟩ := bind_ok_iff.mp passed
        exact ih later passed

theorem runObject_missing {apply : Apply} {owner : String} {body : ObjectBody Call}
    {members : List (String × Json)} {step : PropertyStep Call} (listed : step ∈ body.properties)
    (required : step.required = true) (missing : Members.get? step.key members = none) :
    p.runObject apply owner body (.obj members) ≠ .ok () := by
  intro passed
  obtain ⟨_, object, passed⟩ := bind_ok_iff.mp passed
  obtain rfl := Except.ok.inj object
  obtain ⟨_, -, passed⟩ := bind_ok_iff.mp passed
  exact runSteps_missing listed required missing passed

/-- An outcome of a validator is one of its body. -/
theorem Runs.of_body {name : String} {f : Function τ Call} {v : Json} {r : Outcome Unit}
    (runs : p.Runs name v r) (found : p.function? name = some f) :
    ∃ apply, p.runFunction apply f v = r := by
  obtain ⟨depth, ends⟩ := runs
  -- Unrolled once more, the name stands for its body.
  have reached : p.unroll^[depth] (p.unroll fun _ _ => .ok ()) name v = r := ends _
  rw [← Function.iterate_succ_apply, Function.iterate_succ_apply', unroll, found] at reached
  exact ⟨_, reached⟩

theorem object_body_iff {p : Package Ty Init Call} {call : Call} {body : ObjectBody Call} :
    p.bodyOf call = some (.object body) ↔
      ∃ name f, call = .validator name ∧ p.function? name = some f ∧ f.body = .object body := by
  cases call <;> simp [bodyOf]

end Code.Package

namespace Compile
open Code (Call)

variable {c : Compiler} {named : List (String × Schema)} {p : Package}

theorem steps_required_iff {owner name : String} {required : List String}
    {properties : List (String × Schema)} {fs : List Field} {steps : List Step}
    (each : Steps c p owner required properties fs steps) :
    (∃ step ∈ steps, step.key = name ∧ step.required = true) ↔
      name ∈ required ∧ name ∈ Members.keys properties := by
  induction each with
  | nil fs => simp [Members.keys]
  | @cons key s call properties f fs steps head _ ih =>
    rw [List.exists_mem_cons_iff, ih]
    simp only [Members.keys, List.map_cons, List.mem_cons, List.contains_iff_mem]
    constructor
    · rintro (⟨rfl, listed⟩ | ⟨listed, declared⟩)
      · exact ⟨listed, .inl rfl⟩
      · exact ⟨listed, .inr declared⟩
    · rintro ⟨listed, rfl | declared⟩
      · exact .inl ⟨rfl, listed⟩
      · exact .inr ⟨listed, declared⟩

/-- The validator has a step that asks for a member exactly if its name is both required and
    declared, and it refuses every object without such a member. -/
structure Enforced (p : Package) (validator : String) (members : List (String × Json)) : Prop where
  steps : ∃ body, p.bodyOf (.validator validator) = some (.object body) ∧
    ∀ name, (∃ step ∈ body.properties, step.key = name ∧ step.required = true) ↔
      Requires members name ∧ Declares members name
  refuses : ∀ name, Requires members name → Declares members name →
    ∀ values, Members.get? name values = none →
      ∃ failure, p.Runs validator (.obj values) (refuse failure)

/-- Required members are asked for at every place inside the tree that is an object schema. -/
def EnforcesRequired (p : Package) (tree : Json) (validator : String) : Prop :=
  ∀ path members, tree.follow path = some (.obj members) →
    (Json.obj members).schemaType? = some "object" →
      ∃ inner, p.follow (.validator validator) path = some (.validator inner) ∧
        Enforced p inner members

/-- The call that serves an object schema has the steps of that schema. -/
theorem Serves.object_steps {members : List (String × Json)} {call : Call}
    (serves : Serves c p (.obj members) call)
    (typed : (Json.obj members).schemaType? = some "object") :
    ∃ body, p.bodyOf call = some (.object body) ∧
      ∀ name, (∃ step ∈ body.properties, step.key = name ∧ step.required = true) ↔
        Requires members name ∧ Declares members name := by
  obtain ⟨name, s, f, decoded, heads, body⟩ := serves
  obtain ⟨direct, given⟩ := Schema.schemaType_iff.mp typed
  obtain ⟨properties, listed, additional, declared, required, -, rfl⟩ :=
    Schema.object_parts direct decoded given
  cases heads with
  | object _ _ _ _ steps =>
    refine ⟨_, body, fun name => ?_⟩
    rw [← Schema.required_iff required, ← Schema.declared_iff declared]
    exact steps_required_iff steps
  | primitive found => cases found

theorem Linked.runs_found (linked : Linked c named p) {f : Function} (member : f ∈ p.functions)
    (v : Json) : ∃ found, p.Runs f.name v (outcome found) := by
  obtain ⟨x, node, heads⟩ := linked.origin member
  obtain ⟨depth, agrees⟩ := node_ends linked v x node f member heads
  obtain ⟨found, -, runs⟩ := agrees.settles
  rw [heads.typed.1]
  exact ⟨found, runs⟩

theorem Linked.enforced (linked : Linked c named p) {members : List (String × Json)} {call : Call}
    (serves : Serves c p (.obj members) call)
    (typed : (Json.obj members).schemaType? = some "object") :
    ∃ inner, call = .validator inner ∧ Enforced p inner members := by
  obtain ⟨body, stands, steps⟩ := serves.object_steps typed
  obtain ⟨inner, f, rfl, found, same⟩ := Code.Package.object_body_iff.mp stands
  refine ⟨inner, rfl, ⟨body, stands, steps⟩, fun name required declared values missing => ?_⟩
  obtain ⟨step, listed, rfl, asked⟩ := (steps name).mpr ⟨required, declared⟩
  obtain rfl : f.name = inner := by simpa using List.find?_some found
  -- The run ends without a crash, so it is enough that it does not end with success.
  obtain ⟨result, runs⟩ := linked.runs_found (List.mem_of_find?_eq_some found) (.obj values)
  cases result with
  | some failure => exact ⟨failure, runs⟩
  | none =>
    obtain ⟨apply, passed⟩ := runs.of_body found
    simp only [Code.Package.runFunction, same] at passed
    exact absurd passed (Code.Package.runObject_missing listed asked missing)

/-- Of the required names of an object schema, at any place inside a kept schema, the validator that
    is emitted for that place enforces those that are declared, and it asks for no others. -/
theorem declared_required_enforced {d : Document} {o : CompileOptions} {canceled : Bool}
    {r : CompiledDocument} (compiled : document d o canceled = .ok r) :
    ∃ selection, select d o.section_ o.ignore = .ok selection ∧
      List.Forall₂ (fun e reported => reported.name = e.name ∧
        EnforcesRequired r.package e.tree reported.validator) selection.entries r.schemas := by
  obtain ⟨selection, named, selected, decoded, linked, reported⟩ := document_linked compiled
  refine ⟨selection, selected, related_through decoded reported ?_⟩
  rintro e ⟨name, s⟩ present summary ⟨same, tree⟩ ⟨title, validator, -⟩
  obtain ⟨f, member, heads⟩ := linked.headed present
  refine ⟨title.trans same, fun path members followed typed => ?_⟩
  rw [validator]
  obtain ⟨call, reached, there⟩ :=
    linked.serves_follow (linked.serves_of_heads tree member heads) followed typed
  obtain ⟨inner, rfl, enforced⟩ := linked.enforced there typed
  exact ⟨inner, reached, enforced⟩

namespace Sample

def point : List (String × Json) :=
  object [("x", .obj [("type", .str "integer")])] ["x", "y"]

/-- The same schema as a property, as an item and for undeclared members. -/
def shape : Json :=
  .obj (object [("start", .obj point), ("rest", list (.obj point))] ["start"] ++
    [("additionalProperties", .obj point)])

def shapes : Document := ⟨.obj [("schemas", .obj [("Shape", shape)])]⟩

def everything : CompileOptions := ⟨"schemas", [], true⟩

theorem shapes_selected : select shapes everything.section_ everything.ignore =
    .ok ⟨[⟨"Shape", shape, "#/schemas/Shape"⟩], []⟩ := rfl

def pet : List (String × Json) := [("type", .str "object"), ("required", .arr [.str "name"])]

def pets : Document := ⟨.obj [("schemas", .obj [("Pet", .obj pet)])]⟩

end Sample

set_option maxRecDepth 100000 in
theorem shape_points_enforced :
    ∃ r, document Sample.shapes Sample.everything false = .ok r ∧
      ∃ reported ∈ r.schemas, ∀ path ∈ [[Turn.property "start"], [.property "rest", .item],
        [.additional]], ∃ inner,
          r.package.follow (.validator reported.validator) path = some (.validator inner) ∧
            ∃ failure, r.package.Runs inner (.obj [("y", .null)]) (refuse failure) := by
  obtain ⟨r, compiled, -⟩ := toOption_any_iff.mp (show
    (document Sample.shapes Sample.everything false).toOption.any (fun _ => true) from by
      decide +kernel)
  obtain ⟨selection, selected, each⟩ := declared_required_enforced compiled
  rw [Sample.shapes_selected, Except.ok.injEq] at selected
  rw [← selected] at each
  obtain ⟨reported, inside, -, enforces⟩ := related_of_mem_left each List.mem_cons_self
  refine ⟨r, compiled, reported, inside, fun path listed => ?_⟩
  have point : Sample.shape.follow path = some (.obj Sample.point) := by
    simp only [List.mem_cons, List.not_mem_nil, or_false] at listed
    rcases listed with rfl | rfl | rfl <;> rfl
  obtain ⟨inner, reached, enforced⟩ := enforces path Sample.point point rfl
  exact ⟨inner, reached, enforced.refuses "x" ⟨_, rfl, List.mem_cons_self⟩
    ⟨_, rfl, List.mem_cons_self⟩ _ rfl⟩

set_option maxRecDepth 100000 in
/-- A required name that is not declared is not asked for. -/
theorem undeclared_name_not_enforced : Requires Sample.pet "name" ∧
    ∃ r, document Sample.pets Sample.everything false = .ok r ∧
      r.package.bodyOf (.validator "ValidatePet") = some (.object ⟨"newPet", none, []⟩) ∧
        r.package.Runs "ValidatePet" (.obj []) (.ok ()) := by
  refine ⟨⟨_, rfl, List.mem_cons_self⟩, ?_⟩
  obtain ⟨r, compiled, listed⟩ := toOption_any_iff.mp (show
    (document Sample.pets Sample.everything false).toOption.any (fun r =>
      r.package.bodyOf (.validator "ValidatePet") = some (.object ⟨"newPet", none, []⟩)) from by
        decide +kernel)
  have body : r.package.bodyOf (.validator "ValidatePet") = some (.object ⟨"newPet", none, []⟩) := by
    simpa using listed
  refine ⟨r, compiled, body, 1, fun limit => ?_⟩
  obtain ⟨_, f, same, found, object⟩ := Code.Package.object_body_iff.mp body
  obtain rfl := Call.validator.inj same
  change r.package.unroll limit "ValidatePet" (.obj []) = .ok ()
  rw [Code.Package.unroll, found]
  simp only [Code.Package.runFunction, object]
  rfl

end Compile

end SchemaForge
