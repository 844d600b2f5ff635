import SchemaForge.Proofs.Names

/-!
Names that a package can declare and refer to. Two identifiers are spelled well and still cannot
name a type: nothing refers to the blank one, and the one for functions that run at the start is
kept for them. Validators, constructors and sets have leads or endings of their own and never get
these names. A struct type gets one of them exactly if the section keeps an object schema under a
name without letters and digits of at most one character, or under the kept name itself; schemas
inside others never do.
-/
namespace SchemaForge

namespace Ident

/-- The empty name, and names of one character that is no letter and no digit. -/
def IsBlank (name : String) : Prop :=
  name.toList.length ≤ 1 ∧ ∀ c ∈ name.toList, Text.isLetter c = false ∧ Text.isDigit c = false

/-- An identifier that can be declared, and that denotes what it is declared as. -/
structure Usable (name : String) : Prop where
  declarable : Declarable name
  named : name ≠ "_"
  unclaimed : name ≠ "init"

theorem isPart_iff (c : Char) :
    isPart c = true ↔ Text.isLetter c = true ∨ c = '_' ∨ Text.isDigit c = true := by
  simp [isPart, isLetter, or_assoc]

/-- A character becomes an underscore exactly if it is no letter and no digit. -/
theorem replaced_iff (c : Char) :
    (if isPart c then c else '_') = '_' ↔ Text.isLetter c = false ∧ Text.isDigit c = false := by
  have plain : Text.isLetter '_' = false ∧ Text.isDigit '_' = false := by decide
  constructor
  · intro same
    split at same
    · rw [same]
      exact plain
    · next other =>
      rw [isPart_iff] at other
      simp only [not_or, Bool.not_eq_true] at other
      exact ⟨other.1, other.2.2⟩
  · intro other
    split
    · next part =>
      rw [isPart_iff, other.1, other.2] at part
      simpa using part
    · rfl

theorem kept_of_ne {c : Char} (other : (if isPart c then c else '_') ≠ '_') :
    (if isPart c then c else '_') = c := by
  split
  · rfl
  · next foreign => simp [foreign] at other

/-- Characters that are no underscores are kept as they are. -/
theorem map_kept {cs ds : List Char} (mapped : cs.map (fun c => if isPart c then c else '_') = ds)
    (free : '_' ∉ ds) : cs = ds := by
  induction cs generalizing ds with
  | nil => exact mapped
  | cons c cs ih =>
    rw [List.map_cons] at mapped
    subst mapped
    rw [List.mem_cons, not_or] at free
    obtain ⟨first, later⟩ := free
    rw [kept_of_ne (Ne.symm first), ← ih rfl later]

theorem sanitize_blank_iff (name : String) : sanitize name = "_" ↔ IsBlank name := by
  have chars : sanitize name = "_" ↔ sanitizeChars name.toList = ['_'] := by
    rw [sanitize, ← String.toList_inj, String.toList_ofList]
    exact Iff.rfl
  rw [chars, IsBlank]
  generalize name.toList = cs
  cases cs with
  | nil => simp [sanitizeChars]
  | cons c rest =>
    simp only [sanitizeChars, List.map_cons]
    split
    · next digit =>
      constructor
      · intro same
        simp at same
      · rintro ⟨-, foreign⟩
        rw [(foreign c List.mem_cons_self).2] at digit
        cases digit
    · rw [List.cons.injEq, List.map_eq_nil_iff, replaced_iff]
      constructor
      · rintro ⟨foreign, rfl⟩
        simpa using foreign
      · rintro ⟨short, foreign⟩
        refine ⟨foreign c List.mem_cons_self, ?_⟩
        rw [List.length_cons] at short
        exact List.eq_nil_of_length_eq_zero (by omega)

/-- What has no underscore in it stands for itself alone. -/
theorem eq_of_sanitize {name word : String} (free : '_' ∉ word.toList)
    (same : sanitize name = word) : name = word := by
  rw [sanitize, ← String.toList_inj, String.toList_ofList] at same
  rw [← String.toList_inj]
  cases chars : name.toList with
  | nil =>
    rw [chars] at same
    rw [← same] at free
    simp [sanitizeChars] at free
  | cons c rest =>
    rw [chars, sanitizeChars] at same
    split at same
    · rw [← same] at free
      simp at free
    · exact map_kept same free

/-- Escaping gives a name without an underscore at its end only where it changes nothing. -/
theorem escapeReserved_iff {word : String} (free : isReserved word = false)
    (ends : word = "_" ∨ word.toList.getLast? ≠ some '_') {name : String} (some_ : name ≠ "") :
    escapeReserved name = word ↔ name = word := by
  rw [escapeReserved_eq]
  constructor
  · intro same
    split at same
    · rcases ends with rfl | other
      · have chars := congrArg String.toList same
        rw [String.toList_append] at chars
        refine absurd (String.toList_inj.mp (List.append_left_eq_self.mp chars)) some_
      · refine absurd ?_ other
        rw [← same]
        simp
    · exact same
  · rintro rfl
    rw [free]
    rfl

theorem sanitize_ne_empty (name : String) : sanitize name ≠ "" := by
  intro empty
  have spelled := spelled_sanitized name.toList
  rw [← String.toList_ofList (l := sanitizeChars name.toList)] at spelled
  rw [show String.ofList (sanitizeChars name.toList) = "" from empty] at spelled
  cases spelled

theorem typeName_blank_iff (name : String) : typeName name = "_" ↔ IsBlank name := by
  rw [typeName, escapeReserved_iff (by decide) (.inl rfl) (sanitize_ne_empty name)]
  exact sanitize_blank_iff name

theorem typeName_init_iff (name : String) : typeName name = "init" ↔ name = "init" := by
  rw [typeName, escapeReserved_iff (by decide) (.inr (by decide)) (sanitize_ne_empty name)]
  constructor
  · exact eq_of_sanitize (by decide)
  · rintro rfl
    decide

/-- A long name gives an identifier that can be used. -/
theorem usable_typeName {name : String} (long : 4 < name.toList.length) :
    Usable (typeName name) where
  declarable := declarable_typeName name
  named := by
    intro same
    have blank := (typeName_blank_iff name).mp same
    have short := blank.1
    omega
  unclaimed := by
    intro same
    rw [(typeName_init_iff name).mp same] at long
    exact absurd long (by decide)

theorem escapeReserved_head {name : String} (some_ : name.toList ≠ []) :
    (escapeReserved name).toList.head? = name.toList.head? := by
  rw [escapeReserved_eq]
  split
  · rw [String.toList_append, List.head?_append_of_ne_nil _ some_]
  · rfl

/-- A lead of its own tells a name from the two that cannot be used. -/
theorem usable_prefixed {lead : String} (spelled : isIdentifierChars lead.toList = true)
    (apart : lead.toList.head? ≠ some '_' ∧ lead.toList.head? ≠ some 'i') (name : String) :
    Usable (escapeReserved (lead ++ typeName name)) := by
  have some_ : lead.toList ≠ [] := by
    intro empty
    rw [empty] at spelled
    cases spelled
  have head : (escapeReserved (lead ++ typeName name)).toList.head? = lead.toList.head? := by
    rw [escapeReserved_head (by simp [some_]), String.toList_append,
      List.head?_append_of_ne_nil _ some_]
  refine ⟨declarable_prefixed spelled name, ?_, ?_⟩
  · intro same
    rw [same] at head
    exact apart.1 head.symm
  · intro same
    rw [same] at head
    exact apart.2 head.symm

theorem usable_constructorName (name : String) : Usable (constructorName name) :=
  usable_prefixed (by decide) (by decide) name

theorem usable_validatorName (exported : Bool) (name : String) :
    Usable (validatorName exported name) := by
  unfold validatorName
  cases exported with
  | false => exact usable_prefixed (by decide) (by decide) name
  | true => exact usable_prefixed (by decide) (by decide) name

end Ident

namespace Schema

/-- A node is the schema itself or stands directly inside a node. -/
theorem nodes_cases {name : String} {s : Schema} {x : String × Schema}
    (member : x ∈ s.nodes name) :
    x = (name, s) ∨ ∃ y ∈ s.nodes name, x ∈ y.2.children y.1 := by
  induction name, s using children_induction with
  | step name s ih =>
    rw [nodes_eq] at member
    rcases List.mem_cons.mp member with same | below
    · exact .inl same
    · obtain ⟨child, inside, deeper⟩ := List.mem_flatMap.mp below
      rcases ih child.1 child.2 inside deeper with same | ⟨y, node, part⟩
      · exact .inr ⟨(name, s), self_mem_nodes name s, same ▸ inside⟩
      · exact .inr ⟨y, nodes_of_child inside node, part⟩

end Schema

namespace Compile

/-- The type of a schema inside another one can be used, unless both names are as short as they can
    be: then the outer schema is an object without a name. -/
theorem child_usable {name inner : String} {s t : Schema} (child : (inner, t) ∈ s.children name) :
    Ident.Usable (Ident.typeName inner) ∨
      (name = "" ∧ inner = "_" ∧ ∃ o, ObjectParts.ofSchema? s = some o) := by
  cases s with
  | array items lo hi =>
    simp only [Schema.children, List.mem_singleton, Prod.mk.injEq] at child
    obtain ⟨rfl, -⟩ := child
    refine .inl ⟨Ident.declarable_typeName _, ?_, ?_⟩
    · intro same
      have short := ((Ident.typeName_blank_iff _).mp same).1
      simp [Ident.itemOf] at short
    · intro same
      have last : (Ident.itemOf name).toList.getLast? = some 'm' := by simp [Ident.itemOf]
      rw [(Ident.typeName_init_iff _).mp same] at last
      exact absurd last (by decide)
  | object properties required additional =>
    simp only [Schema.children, List.mem_append, List.mem_map, Prod.mk.injEq] at child
    rcases child with ⟨a, -, rfl, -⟩ | ⟨property, -, rfl, -⟩
    · refine .inl (Ident.usable_typeName ?_)
      simp [Ident.additionalOf]
    · have free : Ident.typeName (Ident.propertyOf name property.1) ≠ "init" := by
        intro same
        have inside : '_' ∈ (Ident.propertyOf name property.1).toList := by
          simp [Ident.propertyOf]
        rw [(Ident.typeName_init_iff _).mp same] at inside
        exact absurd inside (by decide)
      by_cases same : Ident.typeName (Ident.propertyOf name property.1) = "_"
      · have short := ((Ident.typeName_blank_iff _).mp same).1
        simp only [Ident.propertyOf, String.toList_append, List.length_append] at short
        have one : "_".toList.length = 1 := by decide
        have outer : name = "" :=
          String.toList_inj.mp (List.eq_nil_of_length_eq_zero (by omega))
        have own : property.1 = "" :=
          String.toList_inj.mp (List.eq_nil_of_length_eq_zero (by omega))
        exact .inr ⟨outer, by rw [outer, own]; decide, _, rfl⟩
      · exact .inl ⟨Ident.declarable_typeName _, same, free⟩
  | _ => simp [Schema.children] at child

section
variable {c : Compiler} {named : List (String × Schema)} {p : Package} (linked : Linked c named p)
include linked

/-- A struct type that cannot be used is that of an object schema of the section itself. -/
theorem Linked.object_usable {name : String} {o : ObjectParts}
    (object : (name, o) ∈ objects (nodesOf named)) :
    Ident.Usable (Ident.typeName name) ∨ ∃ s, (name, s) ∈ named ∧
      ObjectParts.ofSchema? s = some o := by
  obtain ⟨s, node, parts⟩ := object_mem.mp object
  obtain ⟨top, present, inside⟩ := List.mem_flatMap.mp node
  rcases Schema.nodes_cases inside with same | ⟨outer, above, child⟩
  · exact .inr ⟨s, same ▸ present, parts⟩
  · rcases child_usable child with usable | ⟨empty, blank, o', object'⟩
    · exact .inl usable
    · -- The outer object would have the same type name, and names are distinct.
      have whole : outer ∈ nodesOf named := List.mem_flatMap.mpr ⟨top, present, above⟩
      have first : ("", o') ∈ objects (nodesOf named) :=
        object_mem.mpr ⟨outer.2, empty ▸ whole, object'⟩
      have same : Ident.typeName "" = Ident.typeName name := by
        rw [blank]
        decide +kernel
      have equal := linked.object_of_type first object same
      have names := congrArg Prod.fst equal
      rw [blank] at names
      exact absurd names (by simp)

theorem Linked.record_usable {r : Record} (member : r ∈ p.records) :
    Ident.Usable r.name ∨ ∃ name s, (name, s) ∈ named ∧
      (∃ o, ObjectParts.ofSchema? s = some o) ∧ r.name = Ident.typeName name := by
  obtain ⟨x, object, made⟩ := related_of_mem_right linked.records member
  rw [(record_made made).name]
  rcases linked.object_usable object with usable | ⟨s, present, parts⟩
  · exact .inl usable
  · exact .inr ⟨x.1, s, present, ⟨x.2, parts⟩, rfl⟩

theorem Linked.constructor_usable {r : Record} (member : r ∈ p.records) :
    Ident.Usable r.constructor := by
  obtain ⟨owner, o, made⟩ := linked.record_origin member
  rw [made.constructor]
  exact Ident.usable_constructorName owner

theorem Linked.validator_usable {f : Function} (member : f ∈ p.functions) :
    Ident.Usable f.name := by
  obtain ⟨x, -, heads⟩ := linked.origin member
  rw [heads.typed.1]
  exact Ident.usable_validatorName c.exported x.1

theorem Linked.set_usable {set : Code.StringSet} (member : set ∈ p.sets) :
    Ident.Usable set.name := by
  obtain ⟨inner, suffix, known, named⟩ := linked.set_origin member
  have long : 4 < suffix.toList.length := by
    simp only [setSuffixes, List.mem_cons, List.not_mem_nil, or_false] at known
    rcases known with rfl | rfl
    · decide
    · decide
  rw [named]
  apply Ident.usable_typeName
  rw [String.toList_append, List.length_append]
  omega

/-- Records whose names cannot be used are those of the kept object schemas with such names. -/
theorem Linked.unusable_iff {word : String} (other : ¬ Ident.Usable word) :
    word ∈ p.records.map (·.name) ↔ ∃ name s, (name, s) ∈ named ∧
      (∃ o, ObjectParts.ofSchema? s = some o) ∧ Ident.typeName name = word := by
  constructor
  · intro listed
    obtain ⟨r, member, rfl⟩ := List.mem_map.mp listed
    rcases linked.record_usable member with usable | ⟨name, s, present, object, same⟩
    · exact absurd usable other
    · exact ⟨name, s, present, object, same.symm⟩
  · rintro ⟨name, s, present, ⟨o, object⟩, rfl⟩
    have there : (name, o) ∈ objects (nodesOf named) :=
      object_mem.mpr ⟨s, named_mem_nodesOf present, object⟩
    obtain ⟨r, inside, made⟩ := related_of_mem_left linked.records there
    exact List.mem_map.mpr ⟨r, inside, (record_made made).name⟩

end

/-- The section keeps an object schema under the name. -/
def KeepsObject (d : Document) (o : CompileOptions) (name : String) : Prop :=
  ∃ ks tree s, kept d o.section_ o.ignore = .ok ks ∧ (name, tree) ∈ ks ∧
    Schema.decodeTree tree = .ok s ∧ ∃ parts, ObjectParts.ofSchema? s = some parts

theorem keeps_iff {d : Document} {o : CompileOptions} {selection : Selection}
    {named : List (String × Schema)} (selected : select d o.section_ o.ignore = .ok selection)
    (decoded : List.Forall₂ NamedFor selection.entries named) (name : String) :
    KeepsObject d o name ↔
      ∃ s, (name, s) ∈ named ∧ ∃ parts, ObjectParts.ofSchema? s = some parts := by
  obtain ⟨ks, chosen, entries⟩ := select_ok selected
  rw [entries] at decoded
  constructor
  · rintro ⟨ks', tree, s, chosen', member, decodes, object⟩
    rw [chosen, Except.ok.injEq] at chosen'
    subst chosen'
    have entry : entryOf (Pointer.splitSection o.section_) name tree ∈
        entriesOf (Pointer.splitSection o.section_) ks :=
      List.mem_map.mpr ⟨(name, tree), member, rfl⟩
    obtain ⟨⟨n, s'⟩, present, same, decodes'⟩ := related_of_mem_left decoded entry
    simp only [entryOf] at same decodes'
    subst same
    rw [decodes, Except.ok.injEq] at decodes'
    subst decodes'
    exact ⟨s, present, object⟩
  · rintro ⟨s, present, object⟩
    obtain ⟨e, entry, same, decodes⟩ := related_of_mem_right decoded present
    obtain ⟨⟨n, tree⟩, member, rfl⟩ := List.mem_map.mp entry
    simp only [entryOf] at same decodes
    subst same
    exact ⟨ks, tree, s, chosen, member, decodes, object⟩

/-- Validators, constructors and sets of a compiled section have names that can be used. A struct
    type has none exactly if it belongs to an object schema that the section keeps under a blank
    name, or under the name that is kept for functions. Without such a schema, all identifiers are
    distinct and can be used. -/
theorem names_usable_unless_blank {d : Document} {o : CompileOptions} {canceled : Bool}
    {r : CompiledDocument} (compiled : document d o canceled = .ok r) :
    (∀ f ∈ r.package.functions, Ident.Usable f.name) ∧
    (∀ record ∈ r.package.records, Ident.Usable record.constructor) ∧
    (∀ set ∈ r.package.sets, Ident.Usable set.name) ∧
    ("_" ∈ r.package.records.map (·.name) ↔
      ∃ name, KeepsObject d o name ∧ Ident.IsBlank name) ∧
    ("init" ∈ r.package.records.map (·.name) ↔ KeepsObject d o "init") ∧
    ((∀ name, KeepsObject d o name → ¬ Ident.IsBlank name ∧ name ≠ "init") →
      r.package.identifiers.Nodup ∧ ∀ name ∈ r.package.identifiers, Ident.Usable name) := by
  obtain ⟨selection, named, selected, decoded, linked, -⟩ := document_linked compiled
  have keeps := keeps_iff selected decoded
  refine ⟨fun f member => linked.validator_usable member,
    fun record member => linked.constructor_usable member,
    fun set member => linked.set_usable member, ?_, ?_, ?_⟩
  · rw [linked.unusable_iff fun usable => usable.named rfl]
    constructor
    · rintro ⟨name, s, present, object, same⟩
      exact ⟨name, (keeps name).mpr ⟨s, present, object⟩, (Ident.typeName_blank_iff name).mp same⟩
    · rintro ⟨name, keep, blank⟩
      obtain ⟨s, present, object⟩ := (keeps name).mp keep
      exact ⟨name, s, present, object, (Ident.typeName_blank_iff name).mpr blank⟩
  · rw [linked.unusable_iff fun usable => usable.unclaimed rfl, keeps]
    constructor
    · rintro ⟨name, s, present, object, same⟩
      rw [(Ident.typeName_init_iff name).mp same] at present
      exact ⟨s, present, object⟩
    · rintro ⟨s, present, object⟩
      exact ⟨"init", s, present, object, (Ident.typeName_init_iff "init").mpr rfl⟩
  · intro good
    refine ⟨r.package.declared_perm.nodup_iff.mp linked.distinct, ?_⟩
    intro name member
    simp only [Code.Package.identifiers, List.mem_append, List.mem_map] at member
    rcases member with ((⟨record, inside, rfl⟩ | ⟨record, inside, rfl⟩) | ⟨f, inside, rfl⟩)
      | ⟨set, inside, rfl⟩
    · rcases linked.record_usable inside with usable | ⟨name, s, present, object, same⟩
      · exact usable
      · obtain ⟨spoken, free⟩ := good name ((keeps name).mpr ⟨s, present, object⟩)
        rw [same]
        refine ⟨Ident.declarable_typeName name, ?_, ?_⟩
        · intro blank
          exact spoken ((Ident.typeName_blank_iff name).mp blank)
        · intro claimed
          exact free ((Ident.typeName_init_iff name).mp claimed)
    · exact linked.constructor_usable inside
    · exact linked.validator_usable inside
    · exact linked.set_usable inside

/-- A string and an array under the two names, and an object with a part that has no name. -/
def Sample.nameless : Document :=
  ⟨.obj [("schemas", .obj [("init", Sample.label), ("", Sample.list Sample.label),
    ("Box", .obj (Sample.object [("", .obj (Sample.object [] []))] [""]))])]⟩

set_option maxRecDepth 100000 in
theorem nameless_names_usable :
    ∃ r, document Sample.nameless Sample.options false = .ok r ∧
      r.package.identifiers = ["Box", "Box_", "newBox", "newBox_", "Validateinit", "Validate_",
        "ValidateItem", "ValidateBox", "ValidateBox_", "initEnumSet", "ItemEnumSet"] ∧
      ∀ name ∈ r.package.identifiers, Ident.Usable name := by
  obtain ⟨r, compiled, holds⟩ := toOption_any_iff.mp (show
    (document Sample.nameless Sample.options false).toOption.any (fun r =>
      r.package.records.map (·.name) == ["Box", "Box_"] &&
      r.package.identifiers == ["Box", "Box_", "newBox", "newBox_", "Validateinit", "Validate_",
        "ValidateItem", "ValidateBox", "ValidateBox_", "initEnumSet", "ItemEnumSet"])
    from by decide +kernel)
  simp only [Bool.and_eq_true, beq_iff_eq] at holds
  obtain ⟨records, names⟩ := holds
  obtain ⟨-, -, -, blank, kept, all⟩ := names_usable_unless_blank compiled
  rw [records] at blank kept
  refine ⟨r, compiled, names, (all ?_).2⟩
  intro name keep
  refine ⟨?_, ?_⟩
  · intro short
    exact absurd (blank.mpr ⟨name, keep, short⟩) (by decide)
  · rintro rfl
    exact absurd (kept.mpr keep) (by decide)

/-- One object schema under the empty name and one under the kept name. -/
def Sample.unnamed : Document :=
  ⟨.obj [("schemas", .obj [("", .obj (Sample.object [] [])),
    ("init", .obj (Sample.object [] []))])]⟩

set_option maxRecDepth 100000 in
/-- Objects under these names are compiled to struct types that cannot be declared or used. -/
theorem unnamed_types_unusable :
    ∃ r, document Sample.unnamed Sample.options false = .ok r ∧
      r.package.records.map (·.name) = ["_", "init"] := by
  obtain ⟨r, compiled, holds⟩ := toOption_any_iff.mp (show
    (document Sample.unnamed Sample.options false).toOption.any (fun r =>
      r.package.records.map (·.name) == ["_", "init"]) from by decide +kernel)
  exact ⟨r, compiled, by simpa using holds⟩

end Compile

end SchemaForge
