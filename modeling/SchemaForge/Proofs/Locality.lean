import SchemaForge.Proofs.Linking

/-!
What is compiled depends on the kept schemas only. Types and initial values are found by following
references through the document, before it is known that every reference leads to a kept schema;
in a document that compiles all of them do, so another document with the same kept schemas gives
the same answers. The bounds on how far references are followed differ with the documents, but
both are large enough for the region of the kept schemas.
-/
namespace SchemaForge.Compile
open Code (Ty Init)

/-- A region whose references lead to the same schemas in another document. -/
structure Shared (d e : Document) (nodes : List (String × Schema)) : Prop where
  region : Region d nodes
  same : ∀ {name path : String}, (name, .ref path) ∈ nodes → e.resolve path = d.resolve path
  small : nodes.length ≤ e.root.size

/-- The paths of the references in a list of nodes. -/
def paths (nodes : List (String × Schema)) : List String :=
  nodes.filterMap fun x =>
    match x.2 with
    | .ref path => some path
    | _ => none

theorem path_mem {nodes : List (String × Schema)} {name path : String}
    (node : (name, Schema.ref path) ∈ nodes) : path ∈ paths nodes :=
  List.mem_filterMap.mpr ⟨_, node, rfl⟩

theorem met_length {nodes : List (String × Schema)} {met : List String} (distinct : met.Nodup)
    (known : met ⊆ paths nodes) : met.length ≤ nodes.length :=
  Nat.le_trans (List.subperm_of_subset distinct known).length_le
    (List.length_filterMap_le _ nodes)

section
variable {d e : Document} {exported : Bool}

theorem part_shared {name : String} {s : Schema} {r : String × Package}
    (made : part ⟨d, exported⟩ name s (fun _ => compile ⟨d, exported⟩ name s) = .ok r)
    (inner : ∀ q, compile ⟨d, exported⟩ name s = .ok q → compile ⟨e, exported⟩ name s = .ok q) :
    part ⟨e, exported⟩ name s (fun _ => compile ⟨e, exported⟩ name s) = .ok r := by
  cases s with
  | ref path => exact made
  | _ =>
    simp only [part] at made ⊢
    obtain ⟨q, compiled, rfl⟩ := map_ok_iff.mp made
    rw [inner q compiled]
    rfl

theorem additional_shared {owner : String} {o : ObjectParts} {additional : Option Schema}
    {r : Option Code.MapStep × Package}
    (made : compileAdditional ⟨d, exported⟩ owner o additional = .ok r)
    (inner : ∀ s, additional = some s → ∀ q,
      compile ⟨d, exported⟩ (Ident.additionalOf owner) s = .ok q →
        compile ⟨e, exported⟩ (Ident.additionalOf owner) s = .ok q) :
    compileAdditional ⟨e, exported⟩ owner o additional = .ok r := by
  cases additional with
  | none => exact made
  | some s =>
    rw [compileAdditional] at made ⊢
    obtain ⟨x, first, rfl⟩ := map_ok_iff.mp made
    rw [part_shared first (inner s rfl)]
    rfl

theorem property_call_shared {name : String} {s : Schema} {r : Code.Call × Package}
    (made : propertyCall ⟨d, exported⟩ name s (fun _ => compile ⟨d, exported⟩ name s) = .ok r)
    (inner : ∀ q, compile ⟨d, exported⟩ name s = .ok q → compile ⟨e, exported⟩ name s = .ok q) :
    propertyCall ⟨e, exported⟩ name s (fun _ => compile ⟨e, exported⟩ name s) = .ok r := by
  rw [propertyCall] at made ⊢
  split at made
  · exact made
  · obtain ⟨x, first, rfl⟩ := map_ok_iff.mp made
    rw [part_shared first inner]
    rfl

theorem properties_shared {owner : String} {required : List String} {fs : List Field}
    {properties : List (String × Schema)} {r : List Step × Package}
    (made : compileProperties ⟨d, exported⟩ owner required fs properties = .ok r)
    (inner : ∀ x ∈ properties, ∀ q,
      compile ⟨d, exported⟩ (Ident.propertyOf owner x.1) x.2 = .ok q →
        compile ⟨e, exported⟩ (Ident.propertyOf owner x.1) x.2 = .ok q) :
    compileProperties ⟨e, exported⟩ owner required fs properties = .ok r := by
  induction properties generalizing fs r with
  | nil => cases fs <;> exact made
  | cons head rest ih =>
    obtain ⟨key, s⟩ := head
    cases fs with
    | nil => exact made
    | cons f fs =>
      rw [compileProperties] at made ⊢
      obtain ⟨x, first, later⟩ := bind_ok_iff.mp made
      obtain ⟨y, second, same⟩ := bind_ok_iff.mp later
      have first' := property_call_shared first (inner _ List.mem_cons_self)
      have second' := ih second fun x member => inner x (List.mem_cons_of_mem _ member)
      exact bind_ok_iff.mpr ⟨x, first', bind_ok_iff.mpr ⟨y, second', same⟩⟩

end

section
variable {d e : Document} {nodes : List (String × Schema)} (shared : Shared d e nodes)
include shared

theorem type_shared {fuel other : Nat} {met : List String} {name : String} {s : Schema} {t : Ty}
    (node : (name, s) ∈ nodes) (typed : typeVia d fuel met name s = .ok t)
    (distinct : met.Nodup) (known : met ⊆ paths nodes)
    (enough : nodes.length ≤ other + met.length) : typeVia e other met name s = .ok t := by
  induction fuel using Nat.strongRecOn generalizing other met name s t with
  | ind fuel shorter =>
    induction name, s using Schema.children_induction generalizing t with
    | step name s ih =>
      cases s with
      | array items lo hi =>
        rw [typeVia_array] at typed ⊢
        obtain ⟨item, inner, rfl⟩ := map_ok_iff.mp typed
        have child := shared.region.parts node Schema.item_mem_children
        rw [ih _ _ Schema.item_mem_children child inner]
        rfl
      | ref path =>
        obtain ⟨fresh, target, k, resolved, rfl, followed⟩ := typeVia_ref_ok typed
        obtain ⟨target', resolved', there⟩ := shared.region.targets node
        have alike := shared.same node
        rw [resolved] at alike resolved'
        cases resolved'
        -- The references met so far are distinct and stand in the region, so there is fuel left.
        have longer : (met ++ [path]).Nodup := by
          rw [← List.concat_eq_append]
          exact distinct.concat fresh
        have inside : met ++ [path] ⊆ paths nodes := by
          simpa using ⟨known, path_mem node⟩
        have bound := met_length longer inside
        rw [List.length_append, List.length_singleton] at bound
        obtain ⟨more, rfl⟩ : ∃ more, other = more + 1 := ⟨other - 1, by omega⟩
        rw [typeVia_ref fresh alike]
        refine shorter k (by omega) there followed longer inside ?_
        rw [List.length_append, List.length_singleton]
        omega
      | object properties required additional =>
        rw [typeVia_object] at typed ⊢
        exact typed
      | _ =>
        rw [typeVia_primitive rfl] at typed ⊢
        exact typed

theorem typeOf_shared {name : String} {s : Schema} {t : Ty} (node : (name, s) ∈ nodes)
    (typed : typeOf d name s = .ok t) : typeOf e name s = .ok t := by
  refine type_shared shared node typed List.nodup_nil (List.nil_subset _) ?_
  have small := shared.small
  rw [referenceBound]
  omega

theorem target_shared {hops : Nat} {name : String} {s : Schema} (node : (name, s) ∈ nodes) :
    objectTarget e hops name s = objectTarget d hops name s := by
  induction hops generalizing name s with
  | zero => cases s <;> rfl
  | succ hops ih =>
    cases s with
    | ref path =>
      obtain ⟨target, resolved, there⟩ := shared.region.targets node
      rw [objectTarget, objectTarget, shared.same node, resolved]
      exact ih there
    | _ => rfl

theorem required_objects_shared {name : String} {required : List String}
    {test test' : String → ObjectParts → Except SchemaError Bool}
    {properties : List (String × Schema)}
    (inside : ∀ x ∈ properties, (Ident.propertyOf name x.1, x.2) ∈ nodes)
    (agree : ∀ target o, (target, o) ∈ objects nodes → test' target o = test target o) :
    requiredObjects e name required test' properties =
      requiredObjects d name required test properties := by
  induction properties with
  | nil => rfl
  | cons head rest ih =>
    obtain ⟨key, s⟩ := head
    have node := inside _ List.mem_cons_self
    have later := ih fun x member => inside x (List.mem_cons_of_mem _ member)
    rw [requiredObjects, requiredObjects, target_shared shared node, later]
    cases found : objectTarget d maxHops (Ident.propertyOf name key) s with
    | error err => rfl
    | ok end_ =>
      cases end_ with
      | none => rfl
      | some target =>
        simp only [agree _ _ (shared.region.target_object node found)]

/-- With enough fuel for the region, how much there is does not matter. -/
theorem finite_shared {fuel other : Nat} {active : List String} {name : String} {o : ObjectParts}
    (object : (name, o) ∈ objects nodes) (distinct : active.Nodup)
    (known : active ⊆ (objects nodes).map (·.1)) (enough : nodes.length < fuel + active.length)
    (enough' : nodes.length < other + active.length) :
    finiteWithin e other active name o = finiteWithin d fuel active name o := by
  induction fuel generalizing other active name o with
  | zero =>
    -- The names under construction are distinct and stand in the region.
    have bound := active_length distinct known
    omega
  | succ fuel ih =>
    have bound := active_length distinct known
    obtain ⟨other, rfl⟩ : ∃ more, other = more + 1 := ⟨other - 1, by omega⟩
    rw [finiteWithin, finiteWithin]
    split
    · rfl
    · rename_i fresh
      refine required_objects_shared shared (fun x => shared.region.property object) ?_
      intro target parts there
      refine ih there ?_ ?_ ?_ ?_
      · exact List.nodup_cons.mpr ⟨by simpa using fresh, distinct⟩
      · exact List.cons_subset.mpr ⟨List.mem_map.mpr ⟨_, object, rfl⟩, known⟩
      · rw [List.length_cons]
        omega
      · rw [List.length_cons]
        omega

theorem finite_construction_shared {name : String} {o : ObjectParts}
    (object : (name, o) ∈ objects nodes) :
    finiteConstruction e name o = finiteConstruction d name o := by
  have small := shared.region.small
  have small' := shared.small
  refine finite_shared shared object List.nodup_nil (List.nil_subset _) ?_ ?_
  · exact construction_enough small
  · exact construction_enough small'

theorem required_init_shared {name : String} {s : Schema} {t : Ty} (node : (name, s) ∈ nodes) :
    requiredInit e name s t = requiredInit d name s t := by
  rw [requiredInit, requiredInit, target_shared shared node]
  cases found : objectTarget d maxHops name s with
  | error err => rfl
  | ok end_ =>
    cases end_ with
    | none => rfl
    | some target =>
      simp only [finite_construction_shared shared (shared.region.target_object node found)]

theorem field_shared {owner key : String} {required : List String}
    {taken : List (String × String)} {s : Schema} {f : Field}
    (node : (Ident.propertyOf owner key, s) ∈ nodes)
    (made : field d owner required taken key s = .ok f) :
    field e owner required taken key s = .ok f := by
  rw [field] at made ⊢
  split at made
  · simp at made
  · rename_i t typed
    rw [typeOf_shared shared node typed]
    simpa only [required_init_shared shared node] using made

theorem fields_shared {owner : String} {required : List String}
    {taken : List (String × String)} {properties : List (String × Schema)} {fs : List Field}
    (inside : ∀ x ∈ properties, (Ident.propertyOf owner x.1, x.2) ∈ nodes)
    (made : fields d owner required taken properties = .ok fs) :
    fields e owner required taken properties = .ok fs := by
  induction properties generalizing taken fs with
  | nil => exact made
  | cons head rest ih =>
    obtain ⟨key, s⟩ := head
    rw [fields] at made ⊢
    split at made
    · simp at made
    · rename_i f first
      obtain ⟨others, later, rfl⟩ := map_ok_iff.mp made
      rw [field_shared shared (inside _ List.mem_cons_self) first]
      simp only [ih (fun x member => inside x (List.mem_cons_of_mem _ member)) later]
      rfl

theorem record_shared {name : String} {o : ObjectParts} {r : Record}
    (object : (name, o) ∈ objects nodes) (made : record d name o = .ok r) :
    record e name o = .ok r := by
  have inside : ∀ x ∈ o.properties, (Ident.propertyOf name x.1, x.2) ∈ nodes :=
    fun x member => shared.region.property object member
  rw [record] at made ⊢
  split at made
  · obtain ⟨fs, declared, rfl⟩ := map_ok_iff.mp made
    rw [fields_shared shared inside declared]
    rfl
  · rename_i s present
    split at made
    · simp at made
    · rename_i fs declared
      split at made
      · simp at made
      · rename_i t typed
        rw [fields_shared shared inside declared]
        simp only [typeOf_shared shared (shared.region.additional object present) typed]
        exact made

theorem compile_shared {exported : Bool} {name : String} {s : Schema} {q : Package}
    (node : (name, s) ∈ nodes) (compiled : compile ⟨d, exported⟩ name s = .ok q) :
    compile ⟨e, exported⟩ name s = .ok q := by
  induction name, s using Schema.children_induction generalizing q with
  | step name s ih =>
    have inner : ∀ child ∈ s.children name, ∀ q,
        compile ⟨d, exported⟩ child.1 child.2 = .ok q →
          compile ⟨e, exported⟩ child.1 child.2 = .ok q :=
      fun child inside q => ih child.1 child.2 inside (shared.region.parts node inside)
    cases s with
    | object properties required additional =>
      obtain ⟨r, step, others, steps, parts, made, first, second, rfl⟩ := compile_object compiled
      have typed : typeOf e name (.object properties required additional) =
          .ok (.record (Ident.typeName name)) := typeVia_object ..
      have made' := record_shared shared (object_mem.mpr ⟨_, node, rfl⟩) made
      have first' := additional_shared (e := e) first fun s present =>
        inner (Ident.additionalOf name, s) (by
          subst present
          exact Schema.additional_mem_children)
      have second' := properties_shared (e := e) second fun x listed =>
        inner (Ident.propertyOf name x.1, x.2) (Schema.property_mem_children listed)
      rw [compile, typed]
      simp only [made', declared_eq, first', second']
      rfl
    | array items lo hi =>
      obtain ⟨t, item, parts, typed, made, rfl⟩ := compile_array compiled
      rw [compile, typeOf_shared shared node typed]
      simp only [part_shared (e := e) made (inner (Ident.itemOf name, items) List.mem_cons_self)]
      rfl
    | ref path =>
      obtain ⟨t, typed, rfl⟩ := compile_ref compiled
      rw [compile, typeOf_shared shared node typed]
      rfl
    | _ =>
      obtain ⟨call, sets, found, rfl⟩ := compile_primitive rfl compiled
      exact compile_of_primitive found

end

theorem join_shared {c c' : Compiler} {entries : List Entry} {r : Package × List SchemaSummary}
    (each : ∀ e ∈ entries, ∀ q, compileEntry c e = .ok q → compileEntry c' e = .ok q)
    (joined : join (compileAll c entries) = .ok r) : join (compileAll c' entries) = .ok r := by
  induction entries generalizing r with
  | nil =>
    rw [compileAll, List.map_nil] at joined ⊢
    exact joined
  | cons e rest ih =>
    rw [join_cons] at joined ⊢
    obtain ⟨q, compiled, later⟩ := bind_ok_iff.mp joined
    obtain ⟨x, others, same⟩ := map_ok_iff.mp later
    refine bind_ok_iff.mpr ⟨q, each e List.mem_cons_self q compiled, ?_⟩
    exact map_ok_iff.mpr
      ⟨x, ih (fun e member => each e (List.mem_cons_of_mem _ member)) others, same⟩

theorem entry_shared {d e : Document} {exported : Bool} {entries : List Entry}
    {named : List (String × Schema)} (shared : Shared d e (nodesOf named))
    (decoded : List.Forall₂ NamedFor entries named) {entry : Entry} (member : entry ∈ entries)
    {q : Package} (compiled : compileEntry ⟨d, exported⟩ entry = .ok q) :
    compileEntry ⟨e, exported⟩ entry = .ok q := by
  obtain ⟨s, tree, made⟩ := compileEntry_ok compiled
  obtain ⟨⟨name, s'⟩, present, same, tree'⟩ := related_of_mem_left decoded member
  rw [tree, Except.ok.injEq] at tree'
  simp only at same tree'
  subst tree' same
  rw [compileEntry, decodeAt_ok_iff.mpr tree]
  exact mapError_ok_iff.mpr (compile_shared shared (named_mem_nodesOf present) made)

/-- The kept schemas of a document that compiles resolve alike wherever they are kept. -/
theorem kept_shared {d e : Document} {exported : Bool} {path : String} {ignore : List String}
    {ks : List (String × Json)} {named : List (String × Schema)} {p : Package}
    (chosen : kept d path ignore = .ok ks) (chosen' : kept e path ignore = .ok ks)
    (decoded : List.Forall₂ NamedFor (entriesOf (Pointer.splitSection path) ks) named)
    (linked : Linked ⟨d, exported⟩ named p)
    (references : p.checkReferences
      ((entriesOf (Pointer.splitSection path) ks).map (·.pointer)) = .ok ()) :
    Shared d e (nodesOf named) := by
  refine ⟨linked.region, ?_, kept_small chosen' decoded⟩
  intro name ref node
  have target := Code.Package.references_compiled references _ (linked.placed node rfl)
  obtain ⟨v, s, found, tree, -, resolved⟩ := resolve_entry chosen decoded target
  obtain ⟨v', s', found', tree', -, resolved'⟩ := resolve_entry chosen' decoded target
  rw [found, Option.some.injEq] at found'
  subst found'
  rw [tree, Except.ok.injEq] at tree'
  subst tree'
  rw [resolved, resolved']

theorem document_shared {d e : Document} {o : CompileOptions} {r : CompiledDocument}
    (same : kept d o.section_ o.ignore = kept e o.section_ o.ignore)
    (compiled : document d o false = .ok r) :
    ∃ r', document e o false = .ok r' ∧ r'.package = r.package ∧ r'.schemas = r.schemas := by
  obtain ⟨selection, selected, finished⟩ := document_ok compiled
  obtain ⟨ks, chosen, entries⟩ := select_ok selected
  obtain ⟨named, decoded, linked, -⟩ := finish_linked chosen entries finished
  obtain ⟨joined, references, names, -⟩ := finish_ok finished
  have chosen' := same.symm.trans chosen
  have selected' := select_kept e o.section_ o.ignore
  rw [chosen'] at selected'
  obtain ⟨selection', selected', entries'⟩ := map_ok_iff.mp selected'
  rw [← entries] at entries'
  have shared : Shared d e (nodesOf named) := by
    rw [entries] at decoded references
    exact kept_shared chosen chosen' decoded linked references
  have joined' := join_shared (fun entry member q => entry_shared shared decoded member) joined
  refine ⟨⟨r.package, r.schemas, selection'.ignored⟩, ?_, rfl, rfl⟩
  rw [document, selected']
  simp only [Bool.false_and, Bool.false_eq_true, if_false, finish, entries', joined', bind,
    Except.bind, references, names, pure, Except.pure, Except.mapError]

/-- Whether a section compiles, and what it compiles to, is settled by the schemas it keeps. -/
theorem output_depends_on_kept {d e : Document} {o : CompileOptions}
    (same : kept d o.section_ o.ignore = kept e o.section_ o.ignore) :
    ((∃ r, document d o false = .ok r) ↔ ∃ r, document e o false = .ok r) ∧
      ∀ r r', document d o false = .ok r → document e o false = .ok r' →
        r.package = r'.package ∧ r.schemas = r'.schemas := by
  refine ⟨⟨?_, ?_⟩, ?_⟩
  · rintro ⟨r, compiled⟩
    obtain ⟨r', compiled', -⟩ := document_shared same compiled
    exact ⟨r', compiled'⟩
  · rintro ⟨r, compiled⟩
    obtain ⟨r', compiled', -⟩ := document_shared same.symm compiled
    exact ⟨r', compiled'⟩
  · intro r r' compiled compiled'
    obtain ⟨s, again, package, schemas⟩ := document_shared same compiled
    rw [compiled', Except.ok.injEq] at again
    subst again
    exact ⟨package.symm, schemas.symm⟩

/-- The sample with another section in front, and with a schema that is not kept. -/
def Sample.drafted : Document :=
  ⟨.obj [("info", .null), ("schemas", .obj (("Draft2", .num "1") :: Sample.schemas))]⟩

theorem drafted_keeps_sample :
    kept Sample.document Sample.options.section_ Sample.options.ignore =
      kept Sample.drafted Sample.options.section_ Sample.options.ignore := by
  have ignored : (Ignore.plans ["Draft*"]).map (Ignore.matchesAny "Draft2") = .ok (.ok true) := by
    decide +kernel
  obtain ⟨plans, read, verdict⟩ := map_ok_iff.mp ignored
  have plain : Sample.document.section? "schemas" = .ok Sample.schemas := by rfl
  have drafted : Sample.drafted.section? "schemas" =
      .ok (("Draft2", .num "1") :: Sample.schemas) := by rfl
  simp only [Sample.options, kept, plain, drafted, read, keep_ignored verdict]

set_option maxRecDepth 100000 in
theorem drafted_gives_sample_output :
    kept Sample.document Sample.options.section_ Sample.options.ignore =
        kept Sample.drafted Sample.options.section_ Sample.options.ignore ∧
      ∃ r r', document Sample.document Sample.options false = .ok r ∧
        document Sample.drafted Sample.options false = .ok r' ∧
        r.package = r'.package ∧ r.schemas = r'.schemas := by
  obtain ⟨r, compiled, -⟩ := Sample.compiles (P := fun _ => true) (by decide +kernel)
  obtain ⟨both, same⟩ := output_depends_on_kept drafted_keeps_sample
  obtain ⟨r', compiled'⟩ := both.mp ⟨r, compiled⟩
  exact ⟨drafted_keeps_sample, r, r', compiled, compiled', same r r' compiled compiled'⟩

end SchemaForge.Compile
