import SchemaForge.Compile.Schema
import SchemaForge.Proofs.Region

/-!
The package of a schema, read back. A compiled schema puts one validator in front of what the
schemas directly inside it add; of these, references add only themselves and primitive properties
only their sets. Everything that is later said of a whole package follows from this decomposition
and from the facts about a single node.
-/
namespace SchemaForge.Code.Package
variable {τ δ κ : Type} {p q r : Package τ δ κ}

@[simp] theorem functions_append : (p ++ q).functions = p.functions ++ q.functions := rfl

@[simp] theorem records_append : (p ++ q).records = p.records ++ q.records := rfl

@[simp] theorem sets_append : (p ++ q).sets = p.sets ++ q.sets := rfl

theorem append_empty (p : Package τ δ κ) : p ++ empty = p := by
  show append p empty = p
  simp [append, empty]

theorem append_assoc (p q r : Package τ δ κ) : p ++ q ++ r = p ++ (q ++ r) := by
  show append (append p q) r = append p (append q r)
  simp [append]

def joined (qs : List (Package τ δ κ)) : Package τ δ κ := qs.foldr (· ++ ·) empty

theorem joined_cons (q : Package τ δ κ) (qs : List (Package τ δ κ)) :
    joined (q :: qs) = q ++ joined qs := rfl

theorem joined_append (qs rs : List (Package τ δ κ)) :
    joined (qs ++ rs) = joined qs ++ joined rs := by
  induction qs with
  | nil => rfl
  | cons q qs ih => rw [List.cons_append, joined_cons, joined_cons, ih, append_assoc]

theorem functions_joined (qs : List (Package τ δ κ)) :
    (joined qs).functions = qs.flatMap (·.functions) := by
  induction qs with
  | nil => rfl
  | cons q qs ih => rw [joined_cons, functions_append, ih, List.flatMap_cons]

theorem records_joined (qs : List (Package τ δ κ)) :
    (joined qs).records = qs.flatMap (·.records) := by
  induction qs with
  | nil => rfl
  | cons q qs ih => rw [joined_cons, records_append, ih, List.flatMap_cons]

theorem sets_joined (qs : List (Package τ δ κ)) : (joined qs).sets = qs.flatMap (·.sets) := by
  induction qs with
  | nil => rfl
  | cons q qs ih => rw [joined_cons, sets_append, ih, List.flatMap_cons]

/-- All of the first package is part of the second. -/
structure Within (q p : Package τ δ κ) : Prop where
  functions : q.functions ⊆ p.functions
  records : q.records ⊆ p.records
  sets : q.sets ⊆ p.sets
  references : q.references ⊆ p.references

theorem Within.refl (p : Package τ δ κ) : p.Within p :=
  ⟨List.Subset.refl _, List.Subset.refl _, List.Subset.refl _, List.Subset.refl _⟩

theorem Within.trans (first : p.Within q) (second : q.Within r) : p.Within r :=
  ⟨List.Subset.trans first.functions second.functions,
    List.Subset.trans first.records second.records, List.Subset.trans first.sets second.sets,
    List.Subset.trans first.references second.references⟩

theorem within_append_left (p q : Package τ δ κ) : p.Within (p ++ q) :=
  ⟨List.subset_append_left _ _, List.subset_append_left _ _, List.subset_append_left _ _,
    List.subset_append_left _ _⟩

theorem within_append_right (p q : Package τ δ κ) : q.Within (p ++ q) :=
  ⟨List.subset_append_right _ _, List.subset_append_right _ _, List.subset_append_right _ _,
    List.subset_append_right _ _⟩

theorem within_lead (f : Function τ κ) (p : Package τ δ κ) : p.Within (p.lead f) :=
  ⟨List.subset_cons_self _ _, List.Subset.refl _, List.Subset.refl _, List.Subset.refl _⟩

theorem within_joined {qs : List (Package τ δ κ)} (member : q ∈ qs) : q.Within (joined qs) := by
  induction qs with
  | nil => simp at member
  | cons head rest ih =>
    rw [joined_cons]
    rcases List.mem_cons.mp member with rfl | later
    · exact within_append_left _ _
    · exact (ih later).trans (within_append_right _ _)

end SchemaForge.Code.Package

namespace SchemaForge.Compile
open Code (Ty Init Call)

theorem declared_eq (c : Compiler) (name : String) (required : List String) (fs : List Field)
    (properties : Option (List (String × Schema))) :
    compileDeclared c name required fs properties =
      compileProperties c name required fs (properties.getD []) := by
  cases properties with
  | none => cases fs <;> rfl
  | some list => rfl

theorem compile_ref {c : Compiler} {name path : String} {q : Package}
    (compiled : compile c name (.ref path) = .ok q) :
    ∃ t, typeOf c.document name (.ref path) = .ok t ∧
      q = (Code.Package.ofReference ⟨name, path⟩).lead
        ⟨c.validator name, name, t, .result (.validator (c.validator (Pointer.name path)))⟩ := by
  rw [compile] at compiled
  split at compiled
  · simp at compiled
  · rename_i t typed
    exact ⟨t, typed, (Except.ok.inj compiled).symm⟩

-- A reference that leads nowhere has no type and is not compiled.
example : (compile ⟨⟨.null⟩, true⟩ "Box" (.ref "#/Lid")).toOption.isNone = true := by
  rw [compile]
  rfl

theorem compile_object {c : Compiler} {name : String} {required : List String}
    {properties : Option (List (String × Schema))} {additional : Option Schema} {q : Package}
    (compiled : compile c name (.object properties required additional) = .ok q) :
    ∃ r step others steps parts,
      record c.document name ⟨properties.getD [], required, additional⟩ = .ok r ∧
      compileAdditional c name ⟨properties.getD [], required, additional⟩ additional
        = .ok (step, others) ∧
      compileProperties c name required r.fields (properties.getD []) = .ok (steps, parts) ∧
      q = (Code.Package.ofRecord r
          ++ Code.Package.ofSets (declaredSet name ⟨properties.getD [], required, additional⟩)
          ++ others ++ parts).lead
        ⟨c.validator name, name, .record (Ident.typeName name),
          .object ⟨r.constructor, step, steps⟩⟩ := by
  have typed : typeOf c.document name (.object properties required additional) =
      .ok (.record (Ident.typeName name)) := typeVia_object ..
  rw [compile, typed] at compiled
  simp only at compiled
  split at compiled
  · simp at compiled
  · rename_i r made
    obtain ⟨⟨step, others⟩, first, rest⟩ := bind_ok_iff.mp compiled
    obtain ⟨⟨steps, parts⟩, second, same⟩ := bind_ok_iff.mp rest
    rw [declared_eq] at second
    exact ⟨r, step, others, steps, parts, made, first, second, (Except.ok.inj same).symm⟩

theorem compile_array {c : Compiler} {name : String} {items : Schema} {lo hi : Option Nat}
    {q : Package} (compiled : compile c name (.array items lo hi) = .ok q) :
    ∃ t item parts, typeOf c.document name (.array items lo hi) = .ok t ∧
      part c (Ident.itemOf name) items (fun _ => compile c (Ident.itemOf name) items)
        = .ok (item, parts) ∧
      q = parts.lead ⟨c.validator name, name, t, .result (.array lo hi item)⟩ := by
  rw [compile] at compiled
  split at compiled
  · simp at compiled
  · rename_i t typed
    obtain ⟨⟨item, parts⟩, inner, same⟩ := bind_ok_iff.mp compiled
    exact ⟨t, item, parts, typed, inner, (Except.ok.inj same).symm⟩

theorem primitive_some (name : String) {s : Schema} (kind : s.isPrimitive = true) :
    ∃ call sets, primitive? name s = some (call, sets) := by
  cases s <;> simp only [Schema.isPrimitive, Bool.false_eq_true] at kind
  all_goals exact ⟨_, _, rfl⟩

theorem primitive_of_some {name : String} {s : Schema} {r : Call × List Code.StringSet}
    (found : primitive? name s = some r) : s.isPrimitive = true := by
  cases s <;> simp [primitive?] at found <;> rfl

theorem compile_of_primitive {c : Compiler} {name : String} {s : Schema} {call : Call}
    {sets : List Code.StringSet} (found : primitive? name s = some (call, sets)) :
    compile c name s = .ok ((Code.Package.ofSets sets).lead
      ⟨c.validator name, name, primitiveType s, .result call⟩) := by
  have kind := primitive_of_some found
  have typed : typeOf c.document name s = .ok (primitiveType s) := typeVia_primitive kind
  have made : primitive name (some s) = .ok (call, sets) := by simp [primitive, found]
  cases s <;> simp only [Schema.isPrimitive, Bool.false_eq_true] at kind
  all_goals
    rw [compile.eq_4 _ _ _ (by simp) (by simp) (by simp), typed, made]
    rfl

theorem compile_primitive {c : Compiler} {name : String} {s : Schema} {q : Package}
    (kind : s.isPrimitive = true) (compiled : compile c name s = .ok q) :
    ∃ call sets, primitive? name s = some (call, sets) ∧
      q = (Code.Package.ofSets sets).lead
        ⟨c.validator name, name, primitiveType s, .result call⟩ := by
  obtain ⟨call, sets, found⟩ := primitive_some name kind
  rw [compile_of_primitive found, Except.ok.injEq] at compiled
  exact ⟨call, sets, found, compiled.symm⟩

/-- What a package holds for a schema inside another one: a reference to follow, or the package of
    the schema. -/
def Placed (c : Compiler) (p : Package) (name : String) : Schema → Prop
  | .ref path => ⟨name, path⟩ ∈ p.references
  | s => ∃ q, compile c name s = .ok q ∧ q.Within p

/-- The validator that is called for a schema inside another one. -/
def validatorFor (c : Compiler) (name : String) : Schema → String
  | .ref path => c.validator (Pointer.name path)
  | _ => c.validator name

/-- What a schema inside another one adds to the package. -/
inductive Adds (c : Compiler) : String × Schema → Package → Prop
  | reference (name path : String) :
      Adds c (name, .ref path) (Code.Package.ofReference ⟨name, path⟩)
  | sets {name : String} {s : Schema} {call : Call} {sets : List Code.StringSet}
      (found : primitive? name s = some (call, sets)) :
      Adds c (name, s) (Code.Package.ofSets sets)
  | package {name : String} {s : Schema} {q : Package} (compiled : compile c name s = .ok q) :
      Adds c (name, s) q

theorem part_ok {c : Compiler} {name validator : String} {s : Schema} {q : Package}
    (made : part c name s (fun _ => compile c name s) = .ok (validator, q)) :
    validator = validatorFor c name s ∧ Adds c (name, s) q ∧
      ∀ p, q.Within p → Placed c p name s := by
  cases s with
  | ref path =>
    rw [part, Except.ok.injEq, Prod.mk.injEq] at made
    obtain ⟨rfl, rfl⟩ := made
    exact ⟨rfl, .reference name path, fun p inside => inside.references List.mem_cons_self⟩
  | _ =>
    simp only [part] at made
    obtain ⟨q', compiled, same⟩ := map_ok_iff.mp made
    rw [Prod.mk.injEq] at same
    obtain ⟨rfl, rfl⟩ := same
    exact ⟨rfl, .package compiled, fun p inside => ⟨q', compiled, inside⟩⟩

/-- The call for a property: of a primitive in place, of any other through its validator. -/
inductive CallFor (c : Compiler) (p : Package) (name : String) (s : Schema) : Call → Prop
  | primitive {call : Call} {sets : List Code.StringSet}
      (found : primitive? name s = some (call, sets)) (kept : sets ⊆ p.sets) :
      CallFor c p name s call
  | validator (compound : s.isPrimitive = false) (placed : Placed c p name s) :
      CallFor c p name s (.validator (validatorFor c name s))

theorem propertyCall_ok {c : Compiler} {name : String} {s : Schema} {call : Call} {q : Package}
    (made : propertyCall c name s (fun _ => compile c name s) = .ok (call, q)) :
    Adds c (name, s) q ∧ ∀ p, q.Within p → CallFor c p name s call := by
  rw [propertyCall] at made
  split at made
  · rename_i call' sets found
    rw [Except.ok.injEq, Prod.mk.injEq] at made
    obtain ⟨rfl, rfl⟩ := made
    exact ⟨.sets found, fun p inside => .primitive found inside.sets⟩
  · rename_i none
    obtain ⟨⟨validator, q'⟩, inner, same⟩ := map_ok_iff.mp made
    rw [Prod.mk.injEq] at same
    obtain ⟨rfl, rfl⟩ := same
    obtain ⟨rfl, adds, placed⟩ := part_ok inner
    have compound : s.isPrimitive = false := by
      cases kind : s.isPrimitive with
      | false => rfl
      | true =>
        obtain ⟨call, sets, found⟩ := primitive_some name kind
        simp [none] at found
    exact ⟨adds, fun p inside => .validator compound (placed p inside)⟩

/-- One step for each property, with the field at the same place. -/
inductive Steps (c : Compiler) (p : Package) (owner : String) (required : List String) :
    List (String × Schema) → List Field → List Step → Prop
  | nil (fs : List Field) : Steps c p owner required [] fs []
  | cons {key : String} {s : Schema} {call : Call} {properties : List (String × Schema)} {f : Field}
      {fs : List Field} {steps : List Step}
      (head : CallFor c p (Ident.propertyOf owner key) s call)
      (tail : Steps c p owner required properties fs steps) :
      Steps c p owner required ((key, s) :: properties) (f :: fs)
        (⟨key, f.name, required.contains key, call, f.boxed⟩ :: steps)

theorem properties_ok {c : Compiler} {owner : String} {required : List String}
    {properties : List (String × Schema)} {fs : List Field} {steps : List Step} {parts : Package}
    (enough : properties.length ≤ fs.length)
    (made : compileProperties c owner required fs properties = .ok (steps, parts)) :
    (∃ qs, List.Forall₂ (Adds c)
        (properties.map fun p => (Ident.propertyOf owner p.1, p.2)) qs ∧
      parts = Code.Package.joined qs) ∧
    ∀ p, parts.Within p → Steps c p owner required properties fs steps := by
  induction properties generalizing fs steps parts with
  | nil =>
    have empty : compileProperties c owner required fs [] = .ok ([], .empty) := by
      cases fs <;> rfl
    rw [empty, Except.ok.injEq, Prod.mk.injEq] at made
    obtain ⟨rfl, rfl⟩ := made
    exact ⟨⟨[], List.Forall₂.nil, rfl⟩, fun p _ => .nil fs⟩
  | cons head rest ih =>
    obtain ⟨key, s⟩ := head
    cases fs with
    | nil => simp at enough
    | cons f fs =>
      rw [compileProperties] at made
      obtain ⟨⟨call, q⟩, first, later⟩ := bind_ok_iff.mp made
      obtain ⟨⟨steps', parts'⟩, second, same⟩ := bind_ok_iff.mp later
      simp only [pure, Except.pure, Except.ok.injEq, Prod.mk.injEq] at same
      obtain ⟨rfl, rfl⟩ := same
      obtain ⟨adds, calls⟩ := propertyCall_ok first
      obtain ⟨⟨qs, each, rfl⟩, tail⟩ := ih (Nat.le_of_succ_le_succ enough) second
      refine ⟨⟨q :: qs, List.Forall₂.cons adds each, rfl⟩, ?_⟩
      intro p inside
      exact .cons (calls p ((Code.Package.within_append_left _ _).trans inside))
        (tail p ((Code.Package.within_append_right _ _).trans inside))

/-- The step for the members that are not declared. -/
inductive OthersStep (c : Compiler) (p : Package) (owner : String) (o : ObjectParts) :
    Option Schema → Option Code.MapStep → Prop
  | none : OthersStep c p owner o none none
  | some {s : Schema} (placed : Placed c p (Ident.additionalOf owner) s) :
      OthersStep c p owner o (some s)
        (some (mapStep owner o (validatorFor c (Ident.additionalOf owner) s)))

theorem additional_ok {c : Compiler} {owner : String} {o : ObjectParts} {additional : Option Schema}
    {step : Option Code.MapStep} {others : Package}
    (made : compileAdditional c owner o additional = .ok (step, others)) :
    (∃ qs, List.Forall₂ (Adds c)
        (additional.toList.map fun s => (Ident.additionalOf owner, s)) qs ∧
      others = Code.Package.joined qs) ∧
    ∀ p, others.Within p → OthersStep c p owner o additional step := by
  cases additional with
  | none =>
    rw [compileAdditional, Except.ok.injEq, Prod.mk.injEq] at made
    obtain ⟨rfl, rfl⟩ := made
    exact ⟨⟨[], List.Forall₂.nil, rfl⟩, fun p _ => .none⟩
  | some s =>
    rw [compileAdditional] at made
    obtain ⟨⟨validator, q⟩, inner, same⟩ := map_ok_iff.mp made
    rw [Prod.mk.injEq] at same
    obtain ⟨rfl, rfl⟩ := same
    obtain ⟨rfl, adds, placed⟩ := part_ok inner
    refine ⟨⟨[q], List.Forall₂.cons adds List.Forall₂.nil, ?_⟩, ?_⟩
    · exact (Code.Package.append_empty q).symm
    · exact fun p inside => .some (placed p inside)

/-- The record of a node itself: objects have one. -/
def OwnRecords (d : Document) (name : String) (s : Schema) (rs : List Record) : Prop :=
  match ObjectParts.ofSchema? s with
  | some o => ∃ r, record d name o = .ok r ∧ rs = [r]
  | none => rs = []

/-- What is appended to the name of a node for its sets. -/
def setSuffixes : List String := ["EnumSet", "PropertiesSet"]

/-- Sets are named after the node that they belong to. -/
def OwnSets (name : String) (sets : List Code.StringSet) : Prop :=
  ∀ set ∈ sets, ∃ suffix ∈ setSuffixes, set.name = Ident.typeName (name ++ suffix)

theorem declaredSet_own (name : String) (o : ObjectParts) : OwnSets name (declaredSet name o) := by
  intro set member
  unfold declaredSet at member
  split at member
  · rw [List.mem_singleton.mp member]
    exact ⟨"PropertiesSet", by simp [setSuffixes], by rw [Ident.propertiesSetOf]⟩
  · simp at member

theorem primitive_own {name : String} {s : Schema} {call : Call} {sets : List Code.StringSet}
    (found : primitive? name s = some (call, sets)) : OwnSets name sets := by
  cases s with
  | string lo hi enum format =>
    simp only [primitive?, Option.some.injEq, Prod.mk.injEq] at found
    obtain ⟨-, rfl⟩ := found
    intro set member
    obtain ⟨values, -, rfl⟩ := List.mem_map.mp member
    exact ⟨"EnumSet", by simp [setSuffixes], by rw [Ident.enumSetOf]⟩
  | _ => simp_all [primitive?, OwnSets]

/-- A package is the node's own part with what its children add, in order, after the validator of
    the node. -/
theorem compile_adds {c : Compiler} {name : String} {s : Schema} {q : Package}
    (compiled : compile c name s = .ok q) :
    ∃ f own qs, List.Forall₂ (Adds c) (s.children name) qs ∧
      q = (own ++ Code.Package.joined qs).lead f ∧ own.functions = [] ∧
      OwnRecords c.document name s own.records ∧ OwnSets name own.sets := by
  cases s with
  | object properties required additional =>
    obtain ⟨r, step, others, steps, parts, made, first, second, rfl⟩ := compile_object compiled
    obtain ⟨⟨qs, each, rfl⟩, -⟩ := additional_ok first
    obtain ⟨⟨qs', each', rfl⟩, -⟩ := properties_ok (record_made made).fields_length second
    have regrouped : ∀ own : Package, own ++ Code.Package.joined qs ++ Code.Package.joined qs' =
        own ++ Code.Package.joined (qs ++ qs') := by
      intro own
      rw [Code.Package.joined_append, ← Code.Package.append_assoc]
    exact ⟨_, _, qs ++ qs', List.rel_append each each',
      congrArg (Code.Package.lead _) (regrouped _), rfl, ⟨r, made, rfl⟩, declaredSet_own name _⟩
  | array items lo hi =>
    obtain ⟨t, item, parts, -, inner, rfl⟩ := compile_array compiled
    obtain ⟨-, adds, -⟩ := part_ok inner
    exact ⟨_, .empty, [parts], List.Forall₂.cons adds List.Forall₂.nil,
      congrArg (Code.Package.lead _) (Code.Package.append_empty parts).symm, rfl, rfl, nofun⟩
  | ref path =>
    obtain ⟨t, -, rfl⟩ := compile_ref compiled
    exact ⟨_, _, [], List.Forall₂.nil,
      congrArg (Code.Package.lead _) (Code.Package.append_empty _).symm, rfl, rfl, nofun⟩
  | _ =>
    obtain ⟨call, sets, found, rfl⟩ := compile_primitive rfl compiled
    exact ⟨_, _, [], List.Forall₂.nil,
      congrArg (Code.Package.lead _) (Code.Package.append_empty _).symm, rfl, rfl,
      primitive_own found⟩

/-- The validator of a schema, with what it needs of the package it stands in. -/
inductive Heads (c : Compiler) (p : Package) (name : String) : Schema → Function → Prop
  | object {properties : Option (List (String × Schema))} {required : List String}
      {additional : Option Schema} {r : Record} {step : Option Code.MapStep} {steps : List Step}
      (made : record c.document name ⟨properties.getD [], required, additional⟩ = .ok r)
      (kept : r ∈ p.records)
      (sets : declaredSet name ⟨properties.getD [], required, additional⟩ ⊆ p.sets)
      (others : OthersStep c p name ⟨properties.getD [], required, additional⟩ additional step)
      (declared : Steps c p name required (properties.getD []) r.fields steps) :
      Heads c p name (.object properties required additional)
        ⟨c.validator name, name, .record (Ident.typeName name),
          .object ⟨r.constructor, step, steps⟩⟩
  | array {items : Schema} {lo hi : Option Nat} {t : Ty}
      (typed : typeOf c.document name (.array items lo hi) = .ok t)
      (placed : Placed c p (Ident.itemOf name) items) :
      Heads c p name (.array items lo hi)
        ⟨c.validator name, name, t,
          .result (.array lo hi (validatorFor c (Ident.itemOf name) items))⟩
  | reference {path : String} {t : Ty} (typed : typeOf c.document name (.ref path) = .ok t)
      (used : ⟨name, path⟩ ∈ p.references) :
      Heads c p name (.ref path)
        ⟨c.validator name, name, t, .result (.validator (c.validator (Pointer.name path)))⟩
  | primitive {s : Schema} {call : Call} {sets : List Code.StringSet}
      (found : primitive? name s = some (call, sets)) (kept : sets ⊆ p.sets) :
      Heads c p name s ⟨c.validator name, name, primitiveType s, .result call⟩

/-- The first validator of a package is that of its schema. -/
theorem compile_heads {c : Compiler} {name : String} {s : Schema} {q p : Package}
    (compiled : compile c name s = .ok q) (within : q.Within p) :
    ∃ f, q.functions.head? = some f ∧ f ∈ p.functions ∧ Heads c p name s f := by
  have lead : ∀ f, q.functions.head? = some f → f ∈ p.functions :=
    fun f front => within.functions (List.mem_of_mem_head? front)
  suffices ∃ f, q.functions.head? = some f ∧ Heads c p name s f by
    obtain ⟨f, front, heads⟩ := this
    exact ⟨f, front, lead f front, heads⟩
  clear lead
  cases s with
  | object properties required additional =>
    obtain ⟨r, step, others, steps, parts, made, first, second, rfl⟩ := compile_object compiled
    have inner := (Code.Package.within_lead _ _).trans within
    have inParts := (Code.Package.within_append_right _ parts).trans inner
    have rest := (Code.Package.within_append_left _ _).trans inner
    have inOthers := (Code.Package.within_append_right _ others).trans rest
    have own := (Code.Package.within_append_left _ _).trans rest
    refine ⟨_, rfl, .object made ?_ ?_ ((additional_ok first).2 p inOthers)
      ((properties_ok (record_made made).fields_length second).2 p inParts)⟩
    · exact own.records (List.mem_append_left _ List.mem_cons_self)
    · exact List.Subset.trans (List.subset_append_right _ _) own.sets
  | array items lo hi =>
    obtain ⟨t, item, parts, typed, inner, rfl⟩ := compile_array compiled
    obtain ⟨rfl, -, placed⟩ := part_ok inner
    exact ⟨_, rfl, .array typed (placed p ((Code.Package.within_lead _ _).trans within))⟩
  | ref path =>
    obtain ⟨t, typed, rfl⟩ := compile_ref compiled
    exact ⟨_, rfl, .reference typed (within.references List.mem_cons_self)⟩
  | _ =>
    obtain ⟨call, sets, found, rfl⟩ := compile_primitive rfl compiled
    exact ⟨_, rfl, .primitive found within.sets⟩

theorem Heads.typed {c : Compiler} {p : Package} {name : String} {s : Schema} {f : Function}
    (heads : Heads c p name s f) :
    f.name = c.validator name ∧ f.schema = name ∧ typeOf c.document name s = .ok f.type := by
  cases heads with
  | object made kept sets others declared => exact ⟨by simp only, by simp only, typeVia_object ..⟩
  | array typed placed => exact ⟨by simp only, by simp only, typed⟩
  | reference typed used => exact ⟨by simp only, by simp only, typed⟩
  | primitive found kept =>
    exact ⟨by simp only, by simp only, typeVia_primitive (primitive_of_some found)⟩

theorem child_adds {c : Compiler} {name : String} {s : Schema} {q : Package}
    (compiled : compile c name s = .ok q) {child : String × Schema}
    (inside : child ∈ s.children name) : ∃ q', Adds c child q' ∧ q'.Within q := by
  obtain ⟨f, own, qs, each, rfl, -⟩ := compile_adds compiled
  obtain ⟨q', member, adds⟩ := related_of_mem_left each inside
  exact ⟨q', adds, (Code.Package.within_joined member).trans
    ((Code.Package.within_append_right _ _).trans (Code.Package.within_lead _ _))⟩

/-- Everything but primitive properties is placed in the package, at any depth. -/
theorem node_placed {c : Compiler} {name : String} {s : Schema} {q p : Package}
    (compiled : compile c name s = .ok q) (inside : q.Within p) {x : String × Schema}
    (member : x ∈ s.nodes name) (compound : x.2.isPrimitive = false) : Placed c p x.1 x.2 := by
  induction name, s using Schema.children_induction generalizing q with
  | step name s ih =>
    rw [Schema.nodes_eq] at member
    rcases List.mem_cons.mp member with rfl | below
    · cases s with
      | ref path =>
        obtain ⟨t, -, rfl⟩ := compile_ref compiled
        exact inside.references List.mem_cons_self
      | object properties required additional => exact ⟨q, compiled, inside⟩
      | array items lo hi => exact ⟨q, compiled, inside⟩
      | _ => simp [Schema.isPrimitive] at compound
    · obtain ⟨⟨inner, t⟩, child, deeper⟩ := List.mem_flatMap.mp below
      obtain ⟨q', adds, within⟩ := child_adds compiled child
      cases adds with
      | reference inner path =>
        rw [nodes_of_leaf rfl, List.mem_singleton] at deeper
        subst deeper
        exact (within.trans inside).references List.mem_cons_self
      | sets found =>
        have kind := primitive_of_some found
        rw [nodes_of_leaf (children_primitive _ kind), List.mem_singleton] at deeper
        subst deeper
        simp [kind] at compound
      | package compiled' => exact ih inner t child compiled' (within.trans inside) deeper

/-- Every validator of a package is that of some node. -/
theorem function_origin {c : Compiler} {name : String} {s : Schema} {q p : Package}
    (compiled : compile c name s = .ok q) (within : q.Within p) {f : Function}
    (member : f ∈ q.functions) : ∃ x ∈ s.nodes name, Heads c p x.1 x.2 f := by
  induction name, s using Schema.children_induction generalizing q with
  | step name s ih =>
    obtain ⟨f', front, -, heads⟩ := compile_heads compiled within
    obtain ⟨lead, own, qs, each, rfl, none, -⟩ := compile_adds compiled
    simp only [Code.Package.lead, Code.Package.functions_append, none, List.nil_append,
      Code.Package.functions_joined] at member front
    rcases List.mem_cons.mp member with rfl | below
    · rw [Option.some.inj front]
      exact ⟨(name, s), Schema.self_mem_nodes _ _, heads⟩
    · obtain ⟨q', inside, deeper⟩ := List.mem_flatMap.mp below
      obtain ⟨⟨inner, t⟩, child, adds⟩ := related_of_mem_right each inside
      have within' := (Code.Package.within_joined inside).trans
        ((Code.Package.within_append_right _ _).trans
          ((Code.Package.within_lead _ _).trans within))
      cases adds with
      | reference inner path => simp [Code.Package.ofReference] at deeper
      | sets found => simp [Code.Package.ofSets] at deeper
      | package compiled' =>
        obtain ⟨x, node, heads⟩ := ih inner t child compiled' within' deeper
        exact ⟨x, Schema.nodes_of_child child node, heads⟩

/-- Every set of a package is named after some node. -/
theorem set_origin {c : Compiler} {name : String} {s : Schema} {q : Package}
    (compiled : compile c name s = .ok q) :
    ∀ set ∈ q.sets, ∃ inner, ∃ suffix ∈ setSuffixes,
      set.name = Ident.typeName (inner ++ suffix) := by
  induction name, s using Schema.children_induction generalizing q with
  | step name s ih =>
    obtain ⟨lead, own, qs, each, rfl, -, -, sets⟩ := compile_adds compiled
    intro set member
    simp only [Code.Package.lead, Code.Package.sets_append, Code.Package.sets_joined] at member
    rcases List.mem_append.mp member with here | below
    · exact ⟨name, sets set here⟩
    · obtain ⟨q', inside, deeper⟩ := List.mem_flatMap.mp below
      obtain ⟨⟨inner, t⟩, child, adds⟩ := related_of_mem_right each inside
      cases adds with
      | reference inner path => simp [Code.Package.ofReference] at deeper
      | sets found => exact ⟨inner, primitive_own found set deeper⟩
      | package compiled' => exact ih inner t child compiled' set deeper

/-- One record for each object, in order. -/
theorem objects_records {c : Compiler} {name : String} {s : Schema} {q : Package}
    (compiled : compile c name s = .ok q) :
    List.Forall₂ (fun x r => record c.document x.1 x.2 = .ok r) (objects (s.nodes name))
      q.records := by
  induction name, s using Schema.children_induction generalizing q with
  | step name s ih =>
    obtain ⟨lead, own, qs, each, rfl, -, records, -⟩ := compile_adds compiled
    rw [objects_nodes]
    simp only [Code.Package.lead, Code.Package.records_append, Code.Package.records_joined]
    apply List.rel_append
    · unfold OwnRecords at records
      split at records
      · rename_i o object
        obtain ⟨r, made, same⟩ := records
        rw [object, same]
        exact List.Forall₂.cons made List.Forall₂.nil
      · rename_i other
        rw [other, records]
        exact List.Forall₂.nil
    · apply related_flatMap each
      rintro ⟨inner, t⟩ child q' adds
      cases adds with
      | reference inner path =>
        rw [objects_of_leaf rfl rfl]
        exact List.Forall₂.nil
      | sets found =>
        have kind := primitive_of_some found
        rw [objects_of_leaf (children_primitive _ kind) (primitive_not_object kind)]
        exact List.Forall₂.nil
      | package compiled' => exact ih inner t child compiled'

end SchemaForge.Compile
