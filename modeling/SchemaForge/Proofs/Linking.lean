import Mathlib.Data.List.Nodup
import SchemaForge.Compile.Document
import SchemaForge.Proofs.Emission
import SchemaForge.Proofs.Pointer

/-!
What a compiled section is: the packages of its kept schemas, joined in order, with distinct names
and with every reference leading to one of the kept schemas. All statements about whole documents
start from this.
-/
namespace SchemaForge

namespace Code.Package
variable {τ δ κ : Type}

theorem no_clash {seen declared : List (String × Owner)} (clear : firstClash seen declared = none) :
    (declared.map (·.1)).Nodup ∧ ∀ x ∈ declared, x.1 ∉ seen.map (·.1) := by
  induction declared generalizing seen with
  | nil => simp
  | cons head rest ih =>
    obtain ⟨name, owner⟩ := head
    rw [firstClash] at clear
    split at clear
    · simp at clear
    · rename_i unseen
      obtain ⟨distinct, apart⟩ := ih clear
      refine ⟨?_, ?_⟩
      · rw [List.map_cons, List.nodup_cons]
        refine ⟨?_, distinct⟩
        intro again
        obtain ⟨x, member, same⟩ := List.mem_map.mp again
        exact apart x member (by simp [same])
      · intro x member
        rcases List.mem_cons.mp member with rfl | later
        · exact Members.get_none_iff.mp unseen
        · intro before
          exact apart x later (List.mem_cons_of_mem _ before)

theorem names_distinct {p : Package τ δ κ} (checked : p.checkNames = .ok ()) :
    (p.declared.map (·.1)).Nodup := by
  rw [checkNames] at checked
  split at checked
  · simp at checked
  · rename_i clear
    exact (no_clash clear).1

section Distinct
variable {p : Package τ δ κ} (distinct : (p.declared.map (·.1)).Nodup)
include distinct

/-- The identifiers of records, validators and sets, each kind by itself. -/
theorem declared_parts :
    ((p.records.flatMap fun r => [r.name, r.constructor]).Nodup ∧
      (p.functions.map (·.name)).Nodup) ∧ (p.sets.map (·.name)).Nodup := by
  simp only [declared, List.map_append, List.map_flatMap, List.map_map, List.map_cons,
    List.map_nil] at distinct
  obtain ⟨front, sets, -⟩ := List.nodup_append.mp distinct
  obtain ⟨records, functions, -⟩ := List.nodup_append.mp front
  exact ⟨⟨records, functions⟩, sets⟩

theorem record_part_distinct (part : Record τ δ → String)
    (own : ∀ r, part r ∈ [r.name, r.constructor]) : (p.records.map part).Nodup := by
  have apart := (List.nodup_flatMap.mp (declared_parts distinct).1.1).2
  refine List.pairwise_map.mpr (apart.imp ?_)
  intro r r' disjoint same
  exact disjoint (own r) (same ▸ own r')

end Distinct

theorem references_compiled {p : Package τ δ κ} {compiled : List String}
    (checked : p.checkReferences compiled = .ok ()) :
    ∀ r ∈ p.references, Pointer.normal r.path ∈ compiled := by
  intro r member
  rw [checkReferences] at checked
  split at checked
  · simp at checked
  · rename_i none
    simpa using List.find?_eq_none.mp none r member

end Code.Package

namespace Document

theorem lookup_append (first second : List String) (v : Json) :
    lookup (first ++ second) v = (lookup first v).bind (lookup second) := by
  induction first generalizing v with
  | nil => rfl
  | cons segment rest ih =>
    rw [List.cons_append, lookup, lookup]
    cases child? segment v with
    | none => rfl
    | some w => exact ih w

theorem child_size {segment : String} {v w : Json} (found : child? segment v = some w) :
    w.size ≤ v.size := by
  cases v with
  | obj members =>
    exact Nat.le_of_lt (Json.size_of_member (Members.mem_of_get found))
  | arr items =>
    rw [child?] at found
    obtain ⟨i, -, rest⟩ := Option.bind_eq_some_iff.mp found
    split at rest
    · simp at rest
    · exact Nat.le_of_lt (Json.size_of_item (List.mem_of_getElem? rest))
  | _ => simp [child?] at found

theorem lookup_size {segments : List String} {v w : Json} (found : lookup segments v = some w) :
    w.size ≤ v.size := by
  induction segments generalizing v with
  | nil =>
    rw [lookup, Option.some.injEq] at found
    subst found
    exact Nat.le_refl _
  | cons segment rest ih =>
    rw [lookup] at found
    obtain ⟨u, first, later⟩ := Option.bind_eq_some_iff.mp found
    exact Nat.le_trans (ih later) (child_size first)

theorem section_lookup {d : Document} {path : String} {members : List (String × Json)}
    (found : d.section? path = .ok members) :
    lookup (Pointer.splitSection path) d.root = some (.obj members) := by
  rw [section?] at found
  split at found
  · simp at found
  · rename_i inner here
    rw [here, Except.ok.inj found]
  · simp at found

/-- A reference to a member of the section resolves to the schema decoded from it. -/
theorem resolve_member {d : Document} {path name : String} {base : List String}
    {members : List (String × Json)} {v : Json} {s : Schema}
    (segments : Pointer.split path = base ++ [name])
    (inside : lookup base d.root = some (.obj members))
    (found : Members.get? name members = some v) (decoded : Schema.decodeTree v = .ok s) :
    d.resolve path = .ok s := by
  have target : lookup (base ++ [name]) d.root = some v := by
    rw [lookup_append, inside, Option.bind_some, lookup, child?, found]
    rfl
  obtain ⟨inner, rfl, -⟩ := Schema.decoded_cases decoded
  rw [resolve, segments]
  cases whole : base ++ [name] with
  | nil => simp at whole
  | cons first rest =>
    simp only
    rw [← whole, target]
    simp only [Schema.decodeAt, decoded]

end Document

namespace Compile
open Code (Ty)

/-- The members of a section that no pattern matches, in order. -/
def keep (plans : List Glob.Plan) : List (String × Json) → Glob.Verdict (List (String × Json))
  | [] => .ok []
  | (name, tree) :: rest => do
    let ignored ← Ignore.matchesAny name plans
    let others ← keep plans rest
    return if ignored then others else (name, tree) :: others

def entriesOf (base : List String) (kept : List (String × Json)) : List Entry :=
  kept.map fun m => entryOf base m.1 m.2

/-- The entries of a section are the members it keeps. -/
theorem select_keep (base : List String) (plans : List Glob.Plan) (members : List (String × Json)) :
    (selectMembers base plans members).map (·.entries) =
      (keep plans members).map (entriesOf base) := by
  induction members with
  | nil => rfl
  | cons head rest ih =>
    obtain ⟨name, tree⟩ := head
    rw [selectMembers, keep]
    cases Ignore.matchesAny name plans with
    | error e => rfl
    | ok ignored =>
      cases chosen : selectMembers base plans rest with
      | error e =>
        rw [chosen] at ih
        cases others : keep plans rest with
        | error e' =>
          rw [others] at ih
          cases ignored <;> exact ih
        | ok kept => simp [others, Except.map] at ih
      | ok selection =>
        rw [chosen] at ih
        cases others : keep plans rest with
        | error e' => simp [others, Except.map] at ih
        | ok kept =>
          simp only [others, Except.map, Except.ok.injEq] at ih
          cases ignored <;>
            simp [bind, Except.bind, pure, Except.pure, Except.map, Selection.leave, Selection.keep,
              entriesOf, ih]

theorem keep_cons {plans : List Glob.Plan} {name : String} {tree : Json}
    {rest kept : List (String × Json)} (chosen : keep plans ((name, tree) :: rest) = .ok kept) :
    ∃ ignored others, Ignore.matchesAny name plans = .ok ignored ∧ keep plans rest = .ok others ∧
      kept = if ignored then others else (name, tree) :: others := by
  rw [keep] at chosen
  obtain ⟨ignored, verdict, later⟩ := bind_ok_iff.mp chosen
  obtain ⟨others, choice, same⟩ := bind_ok_iff.mp later
  exact ⟨ignored, others, verdict, choice, (Except.ok.inj same).symm⟩

theorem keep_ignored {plans : List Glob.Plan} {name : String} {tree : Json}
    {rest : List (String × Json)} (ignored : Ignore.matchesAny name plans = .ok true) :
    keep plans ((name, tree) :: rest) = keep plans rest := by
  rw [keep, ignored]
  cases keep plans rest <;> rfl

theorem mem_of_keep {plans : List Glob.Plan} {members kept : List (String × Json)}
    (chosen : keep plans members = .ok kept) : kept ⊆ members := by
  induction members generalizing kept with
  | nil =>
    rw [keep, Except.ok.injEq] at chosen
    subst chosen
    exact List.Subset.refl _
  | cons head rest ih =>
    obtain ⟨ignored, others, -, choice, rfl⟩ := keep_cons chosen
    cases ignored with
    | true => exact List.subset_cons_of_subset _ (ih choice)
    | false => exact List.cons_subset_cons _ (ih choice)

theorem keep_verdict {plans : List Glob.Plan} {members kept : List (String × Json)}
    (chosen : keep plans members = .ok kept) {x : String × Json} (member : x ∈ kept) :
    Ignore.matchesAny x.1 plans = .ok false := by
  induction members generalizing kept with
  | nil =>
    rw [keep, Except.ok.injEq] at chosen
    subst chosen
    simp at member
  | cons head rest ih =>
    obtain ⟨ignored, others, verdict, choice, rfl⟩ := keep_cons chosen
    cases ignored with
    | true => exact ih choice member
    | false =>
      rcases List.mem_cons.mp member with rfl | later
      · exact verdict
      · exact ih choice later

/-- A kept name is found among the kept members where it is found in the section. -/
theorem get_keep {plans : List Glob.Plan} {members kept : List (String × Json)} {name : String}
    (chosen : keep plans members = .ok kept)
    (free : Ignore.matchesAny name plans = .ok false) :
    Members.get? name members = Members.get? name kept := by
  induction members generalizing kept with
  | nil =>
    rw [keep, Except.ok.injEq] at chosen
    rw [← chosen]
  | cons head rest ih =>
    obtain ⟨k, tree⟩ := head
    obtain ⟨ignored, others, verdict, choice, rfl⟩ := keep_cons chosen
    rw [Members.get?]
    cases ignored with
    | true =>
      have apart : k ≠ name := by
        intro same
        rw [same, free] at verdict
        simp at verdict
      rw [if_neg apart]
      exact ih choice
    | false =>
      rw [if_neg Bool.false_ne_true, Members.get?, ih choice]

theorem keep_size {plans : List Glob.Plan} {members kept : List (String × Json)}
    (chosen : keep plans members = .ok kept) :
    Json.sizeMembers kept ≤ Json.sizeMembers members := by
  induction members generalizing kept with
  | nil =>
    rw [keep, Except.ok.injEq] at chosen
    subst chosen
    exact Nat.le_refl _
  | cons head rest ih =>
    obtain ⟨k, tree⟩ := head
    obtain ⟨ignored, others, verdict, choice, rfl⟩ := keep_cons chosen
    have bound := ih choice
    rw [Json.sizeMembers]
    cases ignored with
    | true =>
      simp only [if_true]
      omega
    | false =>
      rw [if_neg Bool.false_ne_true, Json.sizeMembers]
      omega

def NamedFor (e : Entry) (x : String × Schema) : Prop :=
  x.1 = e.name ∧ Schema.decodeTree e.tree = .ok x.2

/-- How a compiled schema is reported. -/
def SummaryFor (c : Compiler) (x : String × Schema) (summary : SchemaSummary) : Prop :=
  summary.name = x.1 ∧ summary.validator = c.validator x.1 ∧
    ∃ t, typeOf c.document x.1 x.2 = .ok t ∧ summary.type = t.text

/-- The packages of the named schemas. -/
def Packages (c : Compiler) : List (String × Schema) → List Package → Prop :=
  List.Forall₂ fun x q => compile c x.1 x.2 = .ok q

theorem decodeAt_ok_iff {base : String} {v : Json} {s : Schema} :
    Schema.decodeAt base v = .ok s ↔ Schema.decodeTree v = .ok s := by
  rw [Schema.decodeAt]
  cases Schema.decodeTree v <;> simp

theorem compileEntry_ok {c : Compiler} {e : Entry} {q : Package}
    (compiled : compileEntry c e = .ok q) :
    ∃ s, Schema.decodeTree e.tree = .ok s ∧ compile c e.name s = .ok q := by
  rw [compileEntry] at compiled
  split at compiled
  · simp at compiled
  · rename_i s decoded
    exact ⟨s, decodeAt_ok_iff.mp decoded, mapError_ok_iff.mp compiled⟩

theorem join_cons (c : Compiler) (e : Entry) (rest : List Entry) :
    join (compileAll c (e :: rest)) = (compileEntry c e >>= fun q =>
      (join (compileAll c rest)).map fun x => (q ++ x.1, (summary e q).toList ++ x.2)) := by
  rw [compileAll, List.map_cons, ← compileAll]
  cases compiled : compileEntry c e <;> simp only [join] <;> rfl

theorem join_ok {c : Compiler} {entries : List Entry} {p : Package}
    {summaries : List SchemaSummary}
    (joined : join (compileAll c entries) = .ok (p, summaries)) :
    ∃ named qs, List.Forall₂ NamedFor entries named ∧ Packages c named qs ∧
      p = Code.Package.joined qs ∧ List.Forall₂ (SummaryFor c) named summaries := by
  induction entries generalizing p summaries with
  | nil =>
    simp only [compileAll, List.map_nil, join, Except.ok.injEq, Prod.mk.injEq] at joined
    obtain ⟨rfl, rfl⟩ := joined
    exact ⟨[], [], .nil, .nil, rfl, .nil⟩
  | cons e rest ih =>
    rw [join_cons] at joined
    obtain ⟨q, compiled, later⟩ := bind_ok_iff.mp joined
    obtain ⟨⟨p', summaries'⟩, others, same⟩ := map_ok_iff.mp later
    obtain ⟨rfl, rfl⟩ := Prod.mk.inj same
    obtain ⟨named, qs, decoded, packages, rfl, reported⟩ := ih others
    obtain ⟨s, tree, compiled⟩ := compileEntry_ok compiled
    obtain ⟨f, front, -, heads⟩ := compile_heads compiled (Code.Package.Within.refl q)
    obtain ⟨name, -, typed⟩ := heads.typed
    refine ⟨(e.name, s) :: named, q :: qs, .cons ⟨rfl, tree⟩ decoded, .cons compiled packages,
      rfl, ?_⟩
    rw [summary, front]
    exact .cons ⟨rfl, name, f.type, typed, rfl⟩ reported

theorem finish_ok {selection : Selection} {c : Compiler} {r : CompiledDocument}
    (finished : finish selection (compileAll c selection.entries) = .ok r) :
    join (compileAll c selection.entries) = .ok (r.package, r.schemas) ∧
      r.package.checkReferences (selection.entries.map (·.pointer)) = .ok () ∧
      r.package.checkNames = .ok () ∧ r.ignored = selection.ignored := by
  rw [finish] at finished
  obtain ⟨⟨p, summaries⟩, joined, later⟩ := bind_ok_iff.mp finished
  obtain ⟨⟨⟩, references, later⟩ := bind_ok_iff.mp later
  obtain ⟨⟨⟩, names, same⟩ := bind_ok_iff.mp later
  rw [← Except.ok.inj same]
  exact ⟨joined, references, names, rfl⟩

theorem document_ok {d : Document} {o : CompileOptions} {canceled : Bool} {r : CompiledDocument}
    (compiled : document d o canceled = .ok r) :
    ∃ selection, select d o.section_ o.ignore = .ok selection ∧
      finish selection (compileAll ⟨d, o.exported⟩ selection.entries) = .ok r := by
  rw [document] at compiled
  split at compiled
  · simp at compiled
  · rename_i selection selected
    split at compiled
    · simp at compiled
    · exact ⟨selection, selected, mapError_ok_iff.mp compiled⟩

/-- The members of the section that are compiled. -/
def kept (d : Document) (path : String) (ignore : List String) :
    Except CompileError (List (String × Json)) :=
  match d.section? path with
  | .error e => .error (.schema e)
  | .ok members =>
    match Ignore.plans ignore with
    | .error e => .error (.ignore e)
    | .ok plans => (keep plans members).mapError .overrun

theorem kept_ok {d : Document} {path : String} {ignore : List String} {ks : List (String × Json)}
    (chosen : kept d path ignore = .ok ks) :
    ∃ members plans, d.section? path = .ok members ∧ keep plans members = .ok ks := by
  rw [kept] at chosen
  split at chosen
  · simp at chosen
  · rename_i members found
    split at chosen
    · simp at chosen
    · rename_i plans read
      exact ⟨members, plans, found, mapError_ok_iff.mp chosen⟩

theorem select_kept (d : Document) (path : String) (ignore : List String) :
    (select d path ignore).map (·.entries) =
      (kept d path ignore).map (entriesOf (Pointer.splitSection path)) := by
  rw [select, kept]
  cases d.section? path with
  | error e => rfl
  | ok members =>
    cases Ignore.plans ignore with
    | error e => rfl
    | ok plans =>
      have chosen := select_keep (Pointer.splitSection path) plans members
      cases both : selectMembers (Pointer.splitSection path) plans members <;>
        cases others : keep plans members <;> simp_all [Except.map, Except.mapError]

theorem select_ok {d : Document} {path : String} {ignore : List String} {selection : Selection}
    (selected : select d path ignore = .ok selection) :
    ∃ ks, kept d path ignore = .ok ks ∧
      selection.entries = entriesOf (Pointer.splitSection path) ks := by
  have chosen := select_kept d path ignore
  rw [selected] at chosen
  obtain ⟨ks, choice, same⟩ := map_ok_iff.mp chosen.symm
  exact ⟨ks, choice, same.symm⟩

/-- All schemas of a section, at any depth, with the names they are compiled under. -/
def nodesOf (named : List (String × Schema)) : List (String × Schema) :=
  named.flatMap fun x => x.2.nodes x.1

/-- A package that is made of named schemas, has distinct names and leads every reference to one of
    the schemas. Together the schemas are no larger than the document. -/
structure Linked (c : Compiler) (named : List (String × Schema)) (p : Package) : Prop where
  packages : ∃ qs, Packages c named qs ∧ p = Code.Package.joined qs
  decoded : ∀ x ∈ named, ∃ v, Schema.decodeTree v = .ok x.2
  resolved : ∀ r ∈ p.references, ∃ s, (Pointer.name r.path, s) ∈ named ∧
    c.document.resolve r.path = .ok s
  distinct : (p.declared.map (·.1)).Nodup
  small : (nodesOf named).length ≤ c.document.root.size

theorem named_size {base : List String} {ks : List (String × Json)}
    {named : List (String × Schema)} (decoded : List.Forall₂ NamedFor (entriesOf base ks) named) :
    (nodesOf named).length ≤ Json.sizeMembers ks := by
  induction ks generalizing named with
  | nil =>
    cases decoded
    exact Nat.le_refl 0
  | cons head rest ih =>
    cases decoded with
    | @cons _ x _ named first later =>
      have one := Schema.nodes_le_size x.1 first.2
      have more := ih later
      rw [nodesOf, List.flatMap_cons, List.length_append]
      exact Nat.add_le_add one more

section Kept
variable {d : Document} {path : String} {ignore : List String} {ks : List (String × Json)}
  {named : List (String × Schema)} (chosen : kept d path ignore = .ok ks)
  (decoded : List.Forall₂ NamedFor (entriesOf (Pointer.splitSection path) ks) named)
include chosen decoded

/-- Together the kept schemas are no larger than the document. -/
theorem kept_small : (nodesOf named).length ≤ d.root.size := by
  obtain ⟨members, plans, found, choice⟩ := kept_ok chosen
  have inside := Document.lookup_size (Document.section_lookup found)
  rw [Json.size] at inside
  have fewer := keep_size choice
  have small := named_size decoded
  omega

/-- The schema that a reference to an entry resolves to. -/
theorem resolve_entry {ref : String}
    (target : Pointer.normal ref ∈
      (entriesOf (Pointer.splitSection path) ks).map (·.pointer)) :
    ∃ v s, Members.get? (Pointer.name ref) ks = some v ∧ Schema.decodeTree v = .ok s ∧
      (Pointer.name ref, s) ∈ named ∧ d.resolve ref = .ok s := by
  obtain ⟨members, plans, found, choice⟩ := kept_ok chosen
  simp only [entriesOf, List.map_map, List.mem_map, Function.comp_apply] at target
  obtain ⟨⟨name, tree⟩, member, spelled⟩ := target
  have segments := Pointer.split_of_normal spelled.symm
  rw [Pointer.name_of_split segments]
  -- A name may stand in the section twice; the reference leads to the first one.
  have known : name ∈ ks.map (·.1) := List.mem_map.mpr ⟨_, member, rfl⟩
  cases first : Members.get? name ks with
  | none => exact absurd known (Members.get_none_iff.mp first)
  | some v =>
    have entry : entryOf (Pointer.splitSection path) name v ∈
        entriesOf (Pointer.splitSection path) ks :=
      List.mem_map.mpr ⟨_, Members.mem_of_get first, rfl⟩
    obtain ⟨⟨n, s⟩, present, same, decodes⟩ := related_of_mem_left decoded entry
    simp only [entryOf] at same decodes
    subst same
    have free := keep_verdict choice member
    refine ⟨v, s, rfl, decodes, present, ?_⟩
    exact Document.resolve_member segments (Document.section_lookup found)
      ((get_keep choice free).trans first) decodes

end Kept

theorem finish_linked {d : Document} {exported : Bool} {path : String} {ignore : List String}
    {ks : List (String × Json)} {selection : Selection} {r : CompiledDocument}
    (chosen : kept d path ignore = .ok ks)
    (entries : selection.entries = entriesOf (Pointer.splitSection path) ks)
    (finished : finish selection (compileAll ⟨d, exported⟩ selection.entries) = .ok r) :
    ∃ named, List.Forall₂ NamedFor selection.entries named ∧ Linked ⟨d, exported⟩ named r.package ∧
      List.Forall₂ (SummaryFor ⟨d, exported⟩) named r.schemas := by
  obtain ⟨joined, references, names, -⟩ := finish_ok finished
  obtain ⟨named, qs, decoded, packages, whole, reported⟩ := join_ok joined
  refine ⟨named, decoded, ?_, reported⟩
  rw [entries] at decoded references
  constructor
  · exact ⟨qs, packages, whole⟩
  · intro x member
    obtain ⟨e, -, stands⟩ := related_of_mem_right decoded member
    exact ⟨e.tree, stands.2⟩
  · intro reference member
    have target := Code.Package.references_compiled references reference member
    obtain ⟨-, s, -, -, present, resolves⟩ := resolve_entry chosen decoded target
    exact ⟨s, present, resolves⟩
  · exact Code.Package.names_distinct names
  · exact kept_small chosen decoded

theorem document_linked {d : Document} {o : CompileOptions} {canceled : Bool}
    {r : CompiledDocument} (compiled : document d o canceled = .ok r) :
    ∃ selection named, select d o.section_ o.ignore = .ok selection ∧
      List.Forall₂ NamedFor selection.entries named ∧
      Linked ⟨d, o.exported⟩ named r.package ∧
      List.Forall₂ (SummaryFor ⟨d, o.exported⟩) named r.schemas := by
  obtain ⟨selection, selected, finished⟩ := document_ok compiled
  obtain ⟨ks, chosen, entries⟩ := select_ok selected
  obtain ⟨named, facts⟩ := finish_linked chosen entries finished
  exact ⟨selection, named, selected, facts⟩

section Nodes
variable {c : Compiler} {named : List (String × Schema)} {p : Package} {x : String × Schema}

theorem named_mem_nodesOf (member : x ∈ named) : x ∈ nodesOf named :=
  List.mem_flatMap.mpr ⟨x, member, Schema.self_mem_nodes x.1 x.2⟩

theorem child_mem_nodesOf {child : String × Schema} (member : x ∈ nodesOf named)
    (inside : child ∈ x.2.children x.1) : child ∈ nodesOf named := by
  obtain ⟨top, present, node⟩ := List.mem_flatMap.mp member
  refine List.mem_flatMap.mpr ⟨top, present, Schema.nodes_trans node ?_⟩
  exact Schema.child_mem_nodes inside

theorem Linked.functions_distinct (linked : Linked c named p) :
    (p.functions.map (·.name)).Nodup :=
  (Code.Package.declared_parts linked.distinct).1.2

theorem Linked.sets_distinct (linked : Linked c named p) : (p.sets.map (·.name)).Nodup :=
  (Code.Package.declared_parts linked.distinct).2

theorem Linked.compiled (linked : Linked c named p) (member : x ∈ named) :
    ∃ q, compile c x.1 x.2 = .ok q ∧ q.Within p := by
  obtain ⟨qs, packages, rfl⟩ := linked.packages
  obtain ⟨q, inside, compiled⟩ := related_of_mem_left packages member
  exact ⟨q, compiled, Code.Package.within_joined inside⟩

theorem Linked.placed (linked : Linked c named p) (member : x ∈ nodesOf named)
    (compound : x.2.isPrimitive = false) : Placed c p x.1 x.2 := by
  obtain ⟨top, present, node⟩ := List.mem_flatMap.mp member
  obtain ⟨q, compiled, within⟩ := linked.compiled present
  exact node_placed compiled within node compound

theorem Linked.boundsRead (linked : Linked c named p) (member : x ∈ nodesOf named) :
    x.2.boundsRead := by
  obtain ⟨top, present, node⟩ := List.mem_flatMap.mp member
  obtain ⟨v, decoded⟩ := linked.decoded top present
  exact Schema.nodes_boundsRead decoded x node

theorem Linked.headed (linked : Linked c named p) (member : x ∈ named) :
    ∃ f ∈ p.functions, Heads c p x.1 x.2 f := by
  obtain ⟨q, compiled, within⟩ := linked.compiled member
  obtain ⟨f, -, inside, heads⟩ := compile_heads compiled within
  exact ⟨f, inside, heads⟩

theorem Linked.target (linked : Linked c named p) {holder path : String}
    (used : ⟨holder, path⟩ ∈ p.references) :
    ∃ s, (Pointer.name path, s) ∈ nodesOf named ∧ c.document.resolve path = .ok s ∧
      ∃ f ∈ p.functions, Heads c p (Pointer.name path) s f := by
  obtain ⟨s, present, resolves⟩ := linked.resolved _ used
  exact ⟨s, named_mem_nodesOf present, resolves, linked.headed present⟩

theorem Linked.origin (linked : Linked c named p) {f : Function} (member : f ∈ p.functions) :
    ∃ x ∈ nodesOf named, Heads c p x.1 x.2 f := by
  obtain ⟨qs, packages, rfl⟩ := linked.packages
  rw [Code.Package.functions_joined] at member
  obtain ⟨q, inside, here⟩ := List.mem_flatMap.mp member
  obtain ⟨top, present, compiled⟩ := related_of_mem_right packages inside
  obtain ⟨x, node, heads⟩ :=
    function_origin compiled (Code.Package.within_joined inside) here
  exact ⟨x, List.mem_flatMap.mpr ⟨top, present, node⟩, heads⟩

theorem Linked.records (linked : Linked c named p) :
    List.Forall₂ (fun x r => record c.document x.1 x.2 = .ok r) (objects (nodesOf named))
      p.records := by
  obtain ⟨qs, packages, rfl⟩ := linked.packages
  rw [Code.Package.records_joined, nodesOf, objects, List.filterMap_flatMap]
  exact related_flatMap packages fun _ _ _ compiled => objects_records compiled

theorem Linked.region (linked : Linked c named p) : Region c.document (nodesOf named) := by
  constructor
  · exact fun member inside => child_mem_nodesOf member inside
  · intro name path member
    obtain ⟨s, there, resolved, -⟩ := linked.target (linked.placed member rfl)
    exact ⟨s, resolved, there⟩
  · exact linked.small

theorem Linked.record_of_name (linked : Linked c named p) {r r' : Record} (member : r ∈ p.records)
    (member' : r' ∈ p.records) (same : r.name = r'.name) : r = r' :=
  List.inj_on_of_nodup_map
    (Code.Package.record_part_distinct linked.distinct (·.name) (by simp)) member member' same

theorem Linked.record_of_constructor (linked : Linked c named p) {r r' : Record}
    (member : r ∈ p.records) (member' : r' ∈ p.records)
    (same : r.constructor = r'.constructor) : r = r' :=
  List.inj_on_of_nodup_map
    (Code.Package.record_part_distinct linked.distinct (·.constructor) (by simp)) member member'
    same

/-- Objects of the section differ in their type names. -/
theorem Linked.object_of_type (linked : Linked c named p) {x y : String × ObjectParts}
    (object : x ∈ objects (nodesOf named)) (object' : y ∈ objects (nodesOf named))
    (same : Ident.typeName x.1 = Ident.typeName y.1) : x = y := by
  have names : (objects (nodesOf named)).map (fun x => Ident.typeName x.1) =
      p.records.map (·.name) :=
    related_map linked.records fun x r made => (record_made made).name.symm
  have distinct := Code.Package.record_part_distinct linked.distinct (·.name) (by simp)
  rw [← names] at distinct
  exact List.inj_on_of_nodup_map distinct object object' same

end Nodes

namespace Sample

def reference (name : String) : Json := .obj [("$ref", .str ("#/schemas/" ++ name))]

def object (properties : List (String × Json)) (required : List String) : List (String × Json) :=
  [("type", .str "object"), ("properties", .obj properties),
    ("required", .arr (required.map .str))]

def label : Json := .obj [("type", .str "string"), ("enum", .arr [.str "a", .str "b"])]

def list (item : Json) : Json := .obj [("type", .str "array"), ("items", item)]

/-- A recursive schema, an alias, undeclared members, and a schema that requires itself. -/
def schemas : List (String × Json) :=
  [("Tree", .obj (object
      [("label", label), ("children", list (reference "Tree")), ("owner", reference "Owner")]
      ["label", "owner"] ++ [("additionalProperties", reference "Count")])),
    ("Owner", reference "Person"),
    ("Person", .obj (object [("age", reference "Count")] ["age"])),
    ("Count", .obj [("type", .str "integer"), ("minimum", .num "0")]),
    ("Loop", .obj (object [("next", reference "Loop"), ("owner", reference "Owner")]
      ["next", "owner"]))]

def document : Document := ⟨.obj [("schemas", .obj schemas)]⟩

def options : CompileOptions := ⟨"schemas", ["Draft*"], true⟩

theorem compiles {P : CompiledDocument → Bool}
    (holds : (Compile.document document options false).toOption.any P = true) :
    ∃ r, Compile.document document options false = .ok r ∧ P r = true :=
  toOption_any_iff.mp holds

end Sample

end Compile

end SchemaForge
