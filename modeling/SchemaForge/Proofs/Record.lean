import SchemaForge.Proofs.Types

/-!
Struct types, read back: one field for each declared property in order, and one more for the
members that are not declared. A field has a record type exactly when the references of its
property end at an object, and then it is the record of that object.
-/
namespace SchemaForge.Compile
open Code (Ty Init)

section
variable {d : Document}

/-- What the field of a property holds and starts with. -/
structure FieldFor (d : Document) (owner : String) (required : List String)
    (property : String × Schema) (f : Field) : Prop where
  name : f.name = Ident.fieldName property.1
  key : f.key = property.1
  typed : ∃ t, typeOf d (Ident.propertyOf owner property.1) property.2 = .ok t ∧
    (required.contains property.1 = true → f.type = t ∧ f.boxed = false ∧
      requiredInit d (Ident.propertyOf owner property.1) property.2 t = .ok f.default) ∧
    (required.contains property.1 = false → (f.type, f.boxed) = t.optional ∧ f.default = .absent)

theorem field_made {owner key : String} {required : List String} {taken : List (String × String)}
    {s : Schema} {f : Field} (made : field d owner required taken key s = .ok f) :
    FieldFor d owner required (key, s) f := by
  rw [field] at made
  split at made
  · simp at made
  · rename_i t typed
    split at made
    · simp at made
    · split at made
      · rename_i needed
        split at made
        · simp at made
        · rename_i init start
          rw [← Except.ok.inj made]
          exact ⟨rfl, rfl, t, typed, fun _ => ⟨rfl, rfl, start⟩, fun free => by simp_all⟩
      · rename_i free
        rw [← Except.ok.inj made]
        exact ⟨rfl, rfl, t, typed, fun needed => absurd needed free, fun _ => ⟨rfl, rfl⟩⟩

theorem fields_made {owner : String} {required : List String} {taken : List (String × String)}
    {properties : List (String × Schema)} {fs : List Field}
    (made : fields d owner required taken properties = .ok fs) :
    List.Forall₂ (FieldFor d owner required) properties fs := by
  induction properties generalizing taken fs with
  | nil =>
    rw [fields, Except.ok.injEq] at made
    rw [← made]
    exact List.Forall₂.nil
  | cons head rest ih =>
    obtain ⟨key, s⟩ := head
    rw [fields] at made
    split at made
    · simp at made
    · rename_i f first
      obtain ⟨others, later, rfl⟩ := map_ok_iff.mp made
      exact List.Forall₂.cons (field_made first) (ih later)

/-- A field takes a name that is free. -/
theorem field_free {owner key : String} {required : List String} {taken : List (String × String)}
    {s : Schema} {f : Field} (made : field d owner required taken key s = .ok f) :
    f.name ∉ taken.map (·.1) := by
  rw [(field_made made).name]
  rw [field] at made
  split at made
  · simp at made
  · split at made
    · simp at made
    · rename_i free
      exact Members.get_none_iff.mp free

theorem fields_distinct {owner : String} {required : List String}
    {taken : List (String × String)} {properties : List (String × Schema)} {fs : List Field}
    (made : fields d owner required taken properties = .ok fs) :
    (fs.map (·.name)).Nodup ∧ ∀ f ∈ fs, f.name ∉ taken.map (·.1) := by
  induction properties generalizing taken fs with
  | nil =>
    rw [fields, Except.ok.injEq] at made
    simp [← made]
  | cons head rest ih =>
    obtain ⟨key, s⟩ := head
    rw [fields] at made
    split at made
    · simp at made
    · rename_i f first
      obtain ⟨others, later, rfl⟩ := map_ok_iff.mp made
      obtain ⟨distinct, apart⟩ := ih later
      simp only [List.map_cons, List.mem_cons, not_or] at apart
      refine ⟨List.nodup_cons.mpr ⟨?_, distinct⟩, ?_⟩
      · intro again
        obtain ⟨g, member, same⟩ := List.mem_map.mp again
        exact (apart g member).1 same
      · intro g member
        rcases List.mem_cons.mp member with rfl | inside
        · exact field_free first
        · exact (apart g inside).2

/-- The field for the members that are not declared, if there is one. -/
inductive ExtraFor (d : Document) (owner : String) : Option Schema → List Field → Prop
  | none : ExtraFor d owner none []
  | some {s : Schema} {t : Ty} (typed : typeOf d (Ident.additionalOf owner) s = .ok t) :
      ExtraFor d owner (some s) [⟨additionalField, "", .ordered t, .emptyMap t, false⟩]

structure RecordFor (d : Document) (owner : String) (o : ObjectParts) (r : Record) : Prop where
  name : r.name = Ident.typeName owner
  constructor : r.constructor = Ident.constructorName owner
  distinct : (r.fields.map (·.name)).Nodup
  fields : ∃ declared extra, r.fields = declared ++ extra ∧
    List.Forall₂ (FieldFor d owner o.required) o.properties declared ∧
    ExtraFor d owner o.additional extra

theorem record_made {name : String} {o : ObjectParts} {r : Record}
    (made : record d name o = .ok r) : RecordFor d name o r := by
  rw [record] at made
  split at made
  · rename_i absent
    obtain ⟨fs, declared, rfl⟩ := map_ok_iff.mp made
    constructor
    · simp only
    · simp only
    · exact (fields_distinct declared).1
    · refine ⟨fs, [], (List.append_nil fs).symm, fields_made declared, ?_⟩
      rw [absent]
      exact .none
  · rename_i s present
    split at made
    · simp at made
    · rename_i fs declared
      split at made
      · simp at made
      · rename_i t typed
        rw [← Except.ok.inj made]
        constructor
        · simp only
        · simp only
        · obtain ⟨distinct, apart⟩ := fields_distinct declared
          rw [List.map_append]
          refine List.nodup_append.mpr ⟨distinct, by simp, ?_⟩
          simpa using apart
        · refine ⟨fs, _, rfl, fields_made declared, ?_⟩
          rw [present]
          exact .some typed

theorem RecordFor.fields_length {name : String} {o : ObjectParts} {r : Record}
    (made : RecordFor d name o r) : o.properties.length ≤ r.fields.length := by
  obtain ⟨declared, extra, same, each, -⟩ := made.fields
  rw [same, List.length_append, each.length_eq]
  omega

/-- A field of a record stands for a property or for the members that are not declared. -/
theorem RecordFor.field_cases {name : String} {o : ObjectParts} {r : Record}
    (made : RecordFor d name o r) {f : Field} (member : f ∈ r.fields) :
    (∃ property ∈ o.properties, FieldFor d name o.required property f) ∨
      ∃ s t, o.additional = some s ∧ typeOf d (Ident.additionalOf name) s = .ok t ∧
        f = ⟨additionalField, "", .ordered t, .emptyMap t, false⟩ := by
  obtain ⟨declared, extra, same, each, more⟩ := made.fields
  rw [same] at member
  rcases List.mem_append.mp member with inside | inside
  · obtain ⟨property, present, stands⟩ := related_of_mem_right each inside
    exact Or.inl ⟨property, present, stands⟩
  · cases more' : o.additional with
    | none =>
      rw [more'] at more
      cases more
      simp at inside
    | some s =>
      rw [more'] at more
      cases more with
      | some typed =>
        exact Or.inr ⟨s, _, rfl, typed, List.mem_singleton.mp inside⟩

theorem target_ref {hops : Nat} {name path : String} {end_ : Option (String × ObjectParts)}
    (found : objectTarget d hops name (.ref path) = .ok end_) :
    ∃ k target, hops = k + 1 ∧ d.resolve path = .ok target ∧
      objectTarget d k (Pointer.name path) target = .ok end_ := by
  cases hops with
  | zero => simp [objectTarget] at found
  | succ k =>
    rw [objectTarget] at found
    split at found
    · simp at found
    · rename_i target resolved
      exact ⟨k, target, rfl, resolved, found⟩

theorem target_direct {hops : Nat} {name : String} {s : Schema} (direct : ∀ path, s ≠ .ref path) :
    objectTarget d hops name s = .ok ((ObjectParts.ofSchema? s).map fun o => (name, o)) := by
  cases hops <;> rw [objectTarget] <;> intros <;> exact direct _ ‹_›

/-- A required field starts with its constructor if there is an object to construct and its
    construction ends, and with the zero value of its type otherwise. -/
theorem required_init_cases {name : String} {s : Schema} {t : Ty} {init : Init}
    (start : requiredInit d name s t = .ok init) :
    (objectTarget d maxHops name s = .ok none ∧ init = .zero t) ∨
      ∃ target o finite, objectTarget d maxHops name s = .ok (some (target, o)) ∧
        finiteConstruction d target o = .ok finite ∧
        init = if finite then .construct (Ident.constructorName target) else .zero t := by
  rw [requiredInit] at start
  split at start
  · simp at start
  · rename_i other
    exact Or.inl ⟨other, (Except.ok.inj start).symm⟩
  · rename_i target o found
    split at start
    · simp at start
    · rename_i finite ends
      exact Or.inr ⟨target, o, finite, found, ends, (Except.ok.inj start).symm⟩

theorem primitive_not_object {s : Schema} (kind : s.isPrimitive = true) :
    ObjectParts.ofSchema? s = none := by
  cases s <;> simp [Schema.isPrimitive] at kind <;> rfl

/-- The object at the end of the references gives the field its record type. -/
theorem target_typed {hops : Nat} {name : String} {s : Schema} {t : Ty}
    {end_ : Option (String × ObjectParts)} (found : objectTarget d hops name s = .ok end_)
    (typed : Typed d name s t) :
    (∀ target o, end_ = some (target, o) → t = .record (Ident.typeName target)) ∧
      (end_ = none → ∀ x, t ≠ .record x) := by
  induction typed generalizing hops with
  | ref resolved _ ih =>
    obtain ⟨k, target, rfl, resolved', rest⟩ := target_ref found
    cases resolved.symm.trans resolved'
    exact ih rest
  | object name properties required additional =>
    rw [target_direct (by simp), Except.ok.injEq] at found
    subst found
    simp [ObjectParts.ofSchema?]
  | array =>
    rw [target_direct (by simp), Except.ok.injEq] at found
    subst found
    simp [ObjectParts.ofSchema?]
  | @primitive name s kind =>
    have direct : ∀ path, s ≠ .ref path := by
      rintro path rfl
      simp [Schema.isPrimitive] at kind
    rw [target_direct direct, primitive_not_object kind, Except.ok.injEq] at found
    subst found
    simp [primitiveType_ne_record]

end

end SchemaForge.Compile
