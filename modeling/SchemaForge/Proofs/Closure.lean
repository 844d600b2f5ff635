import SchemaForge.Proofs.Linking
import SchemaForge.Proofs.Running

/-!
Emitted packages are closed and well typed. Every name that is used is declared exactly once, and
the type of a validator is the type that its body yields: of the record it fills, field by field,
or of the call it returns. Types, fields and calls are made along different recursions; what ties
them together is that each node of the section has one type.
-/
namespace SchemaForge.Code

/-- The struct types that occur in a type. -/
def Ty.records : Ty → List String
  | .record name => [name]
  | .slice t | .pointer t | .ordered t => t.records
  | _ => []

/-- The struct types that occur in an initial value. -/
def Init.records : Init → List String
  | .zero t | .emptyMap t => t.records
  | _ => []

def Init.constructors : Init → List String
  | .construct name => [name]
  | _ => []

namespace Call

def formatValidators : Option Schema.Format → List String
  | none => []
  | some .integer => ["validateStringResultInteger"]
  | some .number => ["validateStringResultNumber"]
  | some .hex => ["validateBytesFromStringResult"]
  | some .dateTime => ["validateDateTimeFromStringResult"]

/-- The validators that a call names. -/
def validators : Call → List String
  | .boolean => ["validateBoolean"]
  | .string _ _ _ format => "validateString" :: formatValidators format
  | .integer .. => ["validateInteger"]
  | .number .. => ["validateNumber"]
  | .array _ _ item => ["validateArray", item]
  | .validator name => [name]

def sets : Call → List String
  | .string _ _ (some set) _ => [set]
  | _ => []

end Call

namespace Body

def validators : Body Call → List String
  | .object b => b.additional.toList.map (·.validator) ++ b.properties.flatMap (·.call.validators)
  | .result call => call.validators

def sets : Body Call → List String
  | .object b => b.additional.toList.filterMap (·.exclude) ++ b.properties.flatMap (·.call.sets)
  | .result call => call.sets

def constructors : Body Call → List String
  | .object b => [b.constructor]
  | .result _ => []

end Body

namespace Package
variable (p : Package Ty Init Call)

/-- A validator of the library, or one that is emitted exactly once. -/
def Validates (name : String) : Prop :=
  name ∈ Support.declarations ∨ (p.functions.map (·.name)).count name = 1

def HasRecord (name : String) : Prop := (p.records.map (·.name)).count name = 1

def HasConstructor (name : String) : Prop := (p.records.map (·.constructor)).count name = 1

def HasSet (name : String) : Prop := (p.sets.map (·.name)).count name = 1

/-- What a validator names is declared. -/
structure ClosedFunction (f : Function Ty Call) : Prop where
  validators : ∀ name ∈ f.body.validators, p.Validates name
  sets : ∀ name ∈ f.body.sets, p.HasSet name
  constructors : ∀ name ∈ f.body.constructors, p.HasConstructor name
  records : ∀ name ∈ f.type.records, p.HasRecord name

/-- What a field names is declared. -/
structure ClosedField (f : Field Ty Init) : Prop where
  records : ∀ name ∈ f.type.records ++ f.default.records, p.HasRecord name
  constructors : ∀ name ∈ f.default.constructors, p.HasConstructor name

/-- The type of what a call yields. -/
def callType? : Call → Option Ty
  | .boolean => some .bool
  | .string _ _ _ format => some (Compile.formatType format)
  | .integer .. => some .integer
  | .number .. => some .decimal
  | .array _ _ item => (p.function? item).map fun f => .slice f.type
  | .validator name => (p.function? name).map (·.type)

/-- A step assigns what its call yields to a field of that type. The value of a property that may
    be missing is boxed unless it can be absent as it is. -/
structure StepFits (step : PropertyStep Call) (f : Field Ty Init) : Prop where
  key : step.key = f.key
  field : step.field = f.name
  boxed : step.boxed = f.boxed
  required : step.required = true ↔ f.default ≠ .absent
  typed : ∃ t, p.callType? step.call = some t ∧
    if step.required || t.isPointer || t.isSlice then f.type = t ∧ f.boxed = false
    else f.type = .pointer t ∧ f.boxed = true

/-- The map of the members that are not declared goes to a field of its own. -/
inductive OthersFit : Option MapStep → List (Field Ty Init) → Prop
  | none : OthersFit none []
  | some {step : MapStep} {g : Function Ty Call} {f : Field Ty Init}
      (found : p.function? step.validator = some g) (field : step.field = f.name)
      (typed : f.type = .ordered g.type) : OthersFit (some step) [f]

/-- A validator yields what its type says: a filled record, or the result of a call. -/
def TypedFunction (f : Function Ty Call) : Prop :=
  match f.body with
  | .object b => ∃ r ∈ p.records, b.constructor = r.constructor ∧ f.type = .record r.name ∧
      ∃ declared others, r.fields = declared ++ others ∧
        List.Forall₂ p.StepFits b.properties declared ∧ p.OthersFit b.additional others
  | .result call => p.callType? call = some f.type

end Package

end SchemaForge.Code

namespace SchemaForge.Compile
open Code (Ty Init Call)

theorem optional_records (t : Ty) : t.optional.1.records = t.records := by
  rw [Ty.optional]
  split <;> rfl

theorem CallFor.reference {c : Compiler} {p : Package} {name path : String}
    (used : ⟨name, path⟩ ∈ p.references) :
    CallFor c p name (.ref path) (.validator (c.validator (Pointer.name path))) :=
  .validator (s := .ref path) rfl used

theorem primitive_records (s : Schema) : (primitiveType s).records = [] := by
  cases s with
  | string lo hi enum format =>
    rw [primitiveType]
    cases Schema.Format.ofName? format with
    | none => rfl
    | some known => cases known <;> rfl
  | _ => rfl

theorem primitive_typed {p : Package} {name : String} {s : Schema} {call : Call}
    {sets : List Code.StringSet} (found : primitive? name s = some (call, sets)) :
    p.callType? call = some (primitiveType s) := by
  cases s <;> simp only [primitive?, Option.some.injEq, Prod.mk.injEq, reduceCtorEq] at found
  all_goals
    rw [← found.1]
    rfl

theorem required_init_present {d : Document} {name : String} {s : Schema} {t : Ty} {init : Init}
    (start : requiredInit d name s t = .ok init) : init ≠ .absent := by
  obtain ⟨-, rfl⟩ | ⟨target, o, finite, -, -, rfl⟩ := required_init_cases start
  · simp
  · split <;> simp

theorem format_validators (format : Option Schema.Format) :
    ∀ name ∈ Call.formatValidators format, name ∈ Support.declarations := by
  cases format with
  | none => simp [Call.formatValidators]
  | some known => cases known <;> simp [Call.formatValidators, Support.declarations]

/-- A primitive is validated by the library alone, with the sets it brings. -/
theorem primitive_closed {name : String} {s : Schema} {call : Call} {sets : List Code.StringSet}
    (found : primitive? name s = some (call, sets)) :
    (∀ validator ∈ call.validators, validator ∈ Support.declarations) ∧
      ∀ set ∈ call.sets, set ∈ sets.map (·.name) := by
  cases s <;> simp only [primitive?, Option.some.injEq, Prod.mk.injEq, reduceCtorEq] at found
  case string lo hi enum format =>
    obtain ⟨rfl, rfl⟩ := found
    refine ⟨?_, ?_⟩
    · intro validator used
      rcases List.mem_cons.mp used with rfl | later
      · simp [Support.declarations]
      · exact format_validators _ validator later
    · cases enum <;> simp [Call.sets]
  all_goals
    rw [← found.1]
    simp [Call.validators, Call.sets, Support.declarations]

section
variable {c : Compiler} {named : List (String × Schema)} {p : Package} (linked : Linked c named p)
include linked

theorem validator_declared {f : Function} (member : f ∈ p.functions) : p.Validates f.name :=
  .inr (List.count_eq_one_of_mem linked.functions_distinct (List.mem_map_of_mem member))

theorem set_once {sets : List Code.StringSet} (kept : sets ⊆ p.sets) {name : String}
    (listed : name ∈ sets.map (·.name)) : p.HasSet name :=
  List.count_eq_one_of_mem linked.sets_distinct (List.map_subset _ kept listed)

theorem record_once {r : Record} (member : r ∈ p.records) :
    p.HasRecord r.name ∧ p.HasConstructor r.constructor := by
  refine ⟨List.count_eq_one_of_mem ?_ (List.mem_map_of_mem member),
    List.count_eq_one_of_mem ?_ (List.mem_map_of_mem member)⟩
  · exact Code.Package.record_part_distinct linked.distinct _ (by simp)
  · exact Code.Package.record_part_distinct linked.distinct _ (by simp)

theorem object_declared {name : String} {o : ObjectParts}
    (object : (name, o) ∈ objects (nodesOf named)) :
    p.HasRecord (Ident.typeName name) ∧ p.HasConstructor (Ident.constructorName name) := by
  obtain ⟨r, member, made⟩ := related_of_mem_left linked.records object
  have stands := record_made made
  rw [← stands.name, ← stands.constructor]
  exact record_once linked member

/-- The types of nodes name records of the package only. -/
theorem type_declared {name : String} {s : Schema} {t : Ty} (node : (name, s) ∈ nodesOf named)
    (typed : Typed c.document name s t) : ∀ record ∈ t.records, p.HasRecord record := by
  induction typed with
  | array _ ih => exact ih (child_mem_nodesOf node Schema.item_mem_children)
  | ref resolved _ ih =>
    obtain ⟨target, resolved', there⟩ := linked.region.targets node
    cases resolved.symm.trans resolved'
    exact ih there
  | object name properties required additional =>
    simp only [Ty.records, List.mem_singleton, forall_eq]
    exact (object_declared linked (object_mem.mpr ⟨_, node, rfl⟩)).1
  | @primitive name s kind => simp [primitive_records s]

/-- The validator of a schema inside another one has the type of that schema. -/
theorem part_function {name : String} {s : Schema} (placed : Placed c p name s) :
    ∃ f ∈ p.functions, f.name = validatorFor c name s ∧
      ∀ t, typeOf c.document name s = .ok t → f.type = t := by
  cases s with
  | ref path =>
    obtain ⟨target, there, resolved, f, member, heads⟩ := linked.target placed
    obtain ⟨called, -, typed⟩ := heads.typed
    have whole : Typed c.document name (.ref path) f.type := .ref resolved (typeVia_typed typed)
    exact ⟨f, member, called, fun t followed => whole.unique (typeVia_typed followed)⟩
  | _ =>
    obtain ⟨q, compiled, within⟩ := placed
    obtain ⟨f, -, member, heads⟩ := compile_heads compiled within
    obtain ⟨called, -, typed⟩ := heads.typed
    exact ⟨f, member, called, fun t same => Except.ok.inj (typed.symm.trans same)⟩

theorem call_typed {name : String} {s : Schema} {call : Call} {t : Ty}
    (stands : CallFor c p name s call) (typed : typeOf c.document name s = .ok t) :
    p.callType? call = some t := by
  cases stands with
  | primitive found kept =>
    rw [primitive_typed found, Option.some.injEq]
    exact Except.ok.inj ((typeVia_primitive (primitive_of_some found)).symm.trans typed)
  | validator compound placed =>
    obtain ⟨f, member, called, same⟩ := part_function linked placed
    rw [Code.Package.callType?, ← called,
      Code.Package.function_declared linked.functions_distinct member, Option.map_some,
      same t typed]

theorem call_closed {name : String} {s : Schema} {call : Call} (stands : CallFor c p name s call) :
    (∀ validator ∈ call.validators, p.Validates validator) ∧
      ∀ set ∈ call.sets, p.HasSet set := by
  cases stands with
  | primitive found kept =>
    obtain ⟨library, sets⟩ := primitive_closed found
    exact ⟨fun validator used => .inl (library validator used),
      fun set used => set_once linked kept (sets set used)⟩
  | validator compound placed =>
    obtain ⟨f, member, called, -⟩ := part_function linked placed
    refine ⟨?_, by simp [Call.sets]⟩
    simp only [Call.validators, List.mem_singleton, forall_eq, ← called]
    exact validator_declared linked member

/-- A property's step and field agree, since both follow the type of the property. -/
theorem step_fits {owner key : String} {required : List String} {s : Schema} {call : Call}
    {f : Field} (stands : CallFor c p (Ident.propertyOf owner key) s call)
    (held : FieldFor c.document owner required (key, s) f) :
    p.StepFits ⟨key, f.name, required.contains key, call, f.boxed⟩ f := by
  obtain ⟨t, typed, needed, free⟩ := held.typed
  have yields := call_typed linked stands typed
  cases listed : required.contains key with
  | true =>
    obtain ⟨type, boxed, start⟩ := needed listed
    refine ⟨held.key.symm, rfl, rfl, ?_, t, yields, ?_⟩
    · simp [required_init_present start]
    · simp [type, boxed]
  | false =>
    obtain ⟨type, absent⟩ := free listed
    refine ⟨held.key.symm, rfl, rfl, by simp [absent], t, yields, ?_⟩
    rw [Ty.optional] at type
    simp only [Bool.false_or]
    split at type
    · rename_i plain
      obtain ⟨rfl, boxed⟩ := Prod.mk.inj type
      simp [plain, boxed]
    · rename_i plain
      obtain ⟨same, boxed⟩ := Prod.mk.inj type
      simp [plain, same, boxed]

theorem steps_fit {owner : String} {required : List String} {properties : List (String × Schema)}
    {declared others : List Field} {steps : List Step}
    (each : Steps c p owner required properties (declared ++ others) steps)
    (held : List.Forall₂ (FieldFor c.document owner required) properties declared) :
    List.Forall₂ p.StepFits steps declared := by
  induction held generalizing steps with
  | nil =>
    cases each
    exact .nil
  | cons head _ ih =>
    cases each with
    | cons stands tail => exact .cons (step_fits linked stands head) (ih tail)

theorem others_fit {owner : String} {o : ObjectParts} {additional : Option Schema}
    {step : Option Code.MapStep} {others : List Field}
    (stands : OthersStep c p owner o additional step)
    (held : ExtraFor c.document owner additional others) : p.OthersFit step others := by
  cases stands with
  | none =>
    cases held
    exact .none
  | some placed =>
    cases held with
    | some typed =>
      obtain ⟨g, member, called, same⟩ := part_function linked placed
      have found := Code.Package.function_declared linked.functions_distinct member
      rw [called] at found
      exact .some found rfl (by rw [same _ typed])

theorem steps_closed {owner : String} {required : List String}
    {properties : List (String × Schema)} {fs : List Field} {steps : List Step}
    (each : Steps c p owner required properties fs steps) :
    ∀ step ∈ steps, (∀ validator ∈ step.call.validators, p.Validates validator) ∧
      ∀ set ∈ step.call.sets, p.HasSet set := by
  induction each with
  | nil => simp
  | cons head _ ih =>
    intro step member
    rcases List.mem_cons.mp member with rfl | later
    · exact call_closed linked head
    · exact ih step later

theorem others_closed {owner : String} {o : ObjectParts} {additional : Option Schema}
    {step : Option Code.MapStep} (stands : OthersStep c p owner o additional step)
    (sets : declaredSet owner o ⊆ p.sets) :
    (∀ validator ∈ step.toList.map (·.validator), p.Validates validator) ∧
      ∀ set ∈ step.toList.filterMap (·.exclude), p.HasSet set := by
  cases stands with
  | none => simp
  | some placed =>
    obtain ⟨g, member, called, -⟩ := part_function linked placed
    refine ⟨?_, ?_⟩
    · simp only [Option.toList_some, List.map_cons, List.map_nil, List.mem_singleton, forall_eq,
        mapStep, ← called]
      exact validator_declared linked member
    · intro set used
      simp only [Option.toList_some, List.mem_filterMap, List.mem_singleton, exists_eq_left,
        mapStep, Option.map_eq_some_iff] at used
      obtain ⟨own, first, rfl⟩ := used
      exact set_once linked sets (List.mem_map_of_mem (List.mem_of_mem_head? first))

theorem function_typed {name : String} {s : Schema} {f : Function} (heads : Heads c p name s f) :
    p.TypedFunction f := by
  cases heads with
  | object made kept sets others declared =>
    have stands := record_made made
    obtain ⟨own, extra, fields, held, more⟩ := stands.fields
    rw [fields] at declared
    exact ⟨_, kept, rfl, by rw [stands.name], own, extra, fields, steps_fit linked declared held,
      others_fit linked others more⟩
  | array typed placed =>
    obtain ⟨item, inner, rfl⟩ := typeOf_array typed
    obtain ⟨g, member, called, same⟩ := part_function linked placed
    have found := Code.Package.function_declared linked.functions_distinct member
    rw [called] at found
    simp only [Code.Package.TypedFunction, Code.Package.callType?, found, Option.map_some,
      same item inner]
  | reference typed used => exact call_typed linked (CallFor.reference used) typed
  | primitive found kept => exact primitive_typed found

theorem function_closed {name : String} {s : Schema} {f : Function}
    (node : (name, s) ∈ nodesOf named) (heads : Heads c p name s f) : p.ClosedFunction f := by
  have records := type_declared linked node (typeVia_typed heads.typed.2.2)
  cases heads with
  | object made kept sets others declared =>
    have steps := steps_closed linked declared
    obtain ⟨validator, set⟩ := others_closed linked others sets
    refine ⟨?_, ?_, ?_, records⟩
    · intro used inside
      simp only [Code.Body.validators, List.mem_append, List.mem_flatMap] at inside
      rcases inside with first | ⟨step, member, later⟩
      · exact validator used first
      · exact (steps step member).1 used later
    · intro used inside
      simp only [Code.Body.sets, List.mem_append, List.mem_flatMap] at inside
      rcases inside with first | ⟨step, member, later⟩
      · exact set used first
      · exact (steps step member).2 used later
    · simp only [Code.Body.constructors, List.mem_singleton, forall_eq]
      exact (record_once linked kept).2
  | array typed placed =>
    obtain ⟨g, member, called, -⟩ := part_function linked placed
    refine ⟨?_, by simp [Code.Body.sets, Call.sets], by simp [Code.Body.constructors], records⟩
    have item := validator_declared linked member
    rw [called] at item
    simp only [Code.Body.validators, Call.validators, List.mem_cons, List.not_mem_nil, or_false,
      forall_eq_or_imp, forall_eq]
    exact ⟨.inl (by simp [Support.declarations]), item⟩
  | reference typed used =>
    obtain ⟨validators, sets⟩ := call_closed linked (CallFor.reference used)
    exact ⟨validators, sets, by simp [Code.Body.constructors], records⟩
  | primitive found kept =>
    obtain ⟨validators, sets⟩ := call_closed linked (CallFor.primitive found kept)
    exact ⟨validators, sets, by simp [Code.Body.constructors], records⟩

theorem field_closed {name : String} {o : ObjectParts} {r : Record} {f : Field}
    (object : (name, o) ∈ objects (nodesOf named)) (made : RecordFor c.document name o r)
    (member : f ∈ r.fields) : p.ClosedField f := by
  obtain ⟨property, present, held⟩ | ⟨s, t, present, typed, rfl⟩ := made.field_cases member
  · obtain ⟨t, typed, needed, free⟩ := held.typed
    have node := linked.region.property object present
    have records := type_declared linked node (typeVia_typed typed)
    cases listed : o.required.contains property.1 with
    | true =>
      obtain ⟨type, -, start⟩ := needed listed
      obtain ⟨-, zero⟩ | ⟨target, parts, finite, found, -, init⟩ := required_init_cases start
      · exact ⟨by simpa [type, zero, Init.records] using records,
          by simp [zero, Init.constructors]⟩
      · have there := (object_declared linked (linked.region.target_object node found)).2
        cases finite with
        | true =>
          exact ⟨by simpa [type, init, Init.records] using records,
            by simpa [init, Init.constructors] using there⟩
        | false =>
          exact ⟨by simpa [type, init, Init.records] using records,
            by simp [init, Init.constructors]⟩
    | false =>
      obtain ⟨type, absent⟩ := free listed
      have same : f.type.records = t.records := by
        rw [← optional_records t, ← type]
      exact ⟨by simpa [same, absent, Init.records] using records,
        by simp [absent, Init.constructors]⟩
  · have node := linked.region.additional object present
    have records := type_declared linked node (typeVia_typed typed)
    exact ⟨by simpa [Ty.records, Init.records] using records, by simp [Init.constructors]⟩

end

/-- A compiled section is closed: what its validators and fields name is declared once. It is also
    well typed: every validator yields what its type says. -/
theorem closed_and_typed {d : Document} {o : CompileOptions} {canceled : Bool}
    {r : CompiledDocument} (compiled : document d o canceled = .ok r) :
    (∀ f ∈ r.package.functions, r.package.ClosedFunction f ∧ r.package.TypedFunction f) ∧
      ∀ record ∈ r.package.records, ∀ f ∈ record.fields, r.package.ClosedField f := by
  obtain ⟨selection, named, -, -, linked, -⟩ := document_linked compiled
  refine ⟨?_, ?_⟩
  · intro f member
    obtain ⟨x, node, heads⟩ := linked.origin member
    exact ⟨function_closed linked node heads, function_typed linked heads⟩
  · intro record member f field
    obtain ⟨x, object, made⟩ := related_of_mem_right linked.records member
    exact field_closed linked object (record_made made) field

set_option maxRecDepth 100000 in
theorem sample_closed_and_typed :
    ∃ r, document Sample.document Sample.options false = .ok r ∧
      (∃ f ∈ r.package.functions, f.name = "ValidateTree" ∧ r.package.ClosedFunction f ∧
        r.package.TypedFunction f) ∧
      ∃ record ∈ r.package.records, ∃ f ∈ record.fields, f.default = .construct "newPerson" ∧
        r.package.ClosedField f := by
  obtain ⟨r, compiled, holds⟩ := Sample.compiles
    (P := fun r => r.package.functions.any (·.name = "ValidateTree") &&
      r.package.records.any (·.fields.any (·.default = .construct "newPerson")))
    (by decide +kernel)
  obtain ⟨⟨f, function, name⟩, record, member, g, field, default⟩ :
      (∃ f ∈ r.package.functions, f.name = "ValidateTree") ∧
        ∃ record ∈ r.package.records, ∃ f ∈ record.fields, f.default = .construct "newPerson" := by
    simpa using holds
  obtain ⟨functions, fields⟩ := closed_and_typed compiled
  exact ⟨r, compiled, ⟨f, function, name, functions f function⟩, record, member, g, field, default,
    fields record member g field⟩

end SchemaForge.Compile
