import Mathlib.Data.List.TakeWhile
import SchemaForge.Proofs.Linking

/-!
The identifiers of a compiled section. Whatever characters schema and property names are made of,
the identifiers formed from them are spelled as identifiers; no reserved name ends in an underscore,
so one appended underscore makes any of them free. That they are distinct is what the last check of
a section decides.
-/
namespace SchemaForge

namespace Text

/-- What is left of sorted ranges when each of some wider ranges takes those inside it. -/
def leftOver (wide narrow : List (Nat × Nat)) : List (Nat × Nat) :=
  wide.foldl (fun rest s => rest.dropWhile fun r => s.1 ≤ r.1 && r.2 ≤ s.2) narrow

theorem covered_or_left (wide : List (Nat × Nat)) {narrow : List (Nat × Nat)} {r : Nat × Nat}
    (member : r ∈ narrow) :
    (∃ s ∈ wide, s.1 ≤ r.1 ∧ r.2 ≤ s.2) ∨ r ∈ leftOver wide narrow := by
  induction wide generalizing narrow with
  | nil => exact .inr member
  | cons s rest ih =>
    rw [leftOver, List.foldl_cons, ← leftOver]
    rw [← List.takeWhile_append_dropWhile (p := fun r => s.1 ≤ r.1 && r.2 ≤ s.2) (l := narrow)]
      at member
    rcases List.mem_append.mp member with taken | left
    · have inside := List.mem_takeWhile_imp taken
      simp only [Bool.and_eq_true, decide_eq_true_eq] at inside
      exact .inl ⟨s, List.mem_cons_self, inside⟩
    · rcases ih left with ⟨t, there, inside⟩ | left
      · exact .inl ⟨t, List.mem_cons_of_mem s there, inside⟩
      · exact .inr left

theorem upper_in_letters : leftOver letterRanges upperRanges = [] := by decide +kernel

theorem isLetter_of_isUpper {c : Char} (upper : isUpper c = true) : isLetter c = true := by
  unfold isUpper at upper
  split at upper
  · rename_i small
    refine isLetter_of_isAsciiLetter ?_ small
    simp [isAsciiLetter, upper]
  · rename_i large
    rw [isLetter, if_neg large]
    obtain ⟨r, member, low, high⟩ := (inRanges_iff _ c).mp upper
    obtain ⟨s, there, below, above⟩ : ∃ s ∈ letterRanges, s.1 ≤ r.1 ∧ r.2 ≤ s.2 := by
      simpa [upper_in_letters] using covered_or_left letterRanges member
    exact (inRanges_iff _ c).mpr ⟨s, there, by omega, by omega⟩

end Text

namespace Ident

/-- An identifier that emitted code can declare at package level. -/
structure Declarable (name : String) : Prop where
  spelled : isIdentifierChars name.toList = true
  keyword : name ∉ keywords
  predeclared : name ∉ predeclared
  bound : name ∉ locals
  imported : name ∉ Support.imports
  declared : name ∉ Support.declarations

/-- An identifier that begins with an upper-case letter. -/
def IsExported (name : String) : Prop :=
  isIdentifierChars name.toList = true ∧ ∃ c rest, name.toList = c :: rest ∧ Text.isUpper c = true

theorem isLetter_underscore : isLetter '_' = true := by simp [isLetter]

theorem isPart_underscore : isPart '_' = true := by simp [isPart, isLetter_underscore]

theorem spelled_underscore : isIdentifierChars ['_'] = true := by
  simp [isIdentifierChars, isLetter_underscore]

theorem all_isPart {cs : List Char} (spelled : isIdentifierChars cs = true) :
    cs.all isPart = true := by
  cases cs with
  | nil => rfl
  | cons c rest =>
    simp only [isIdentifierChars, Bool.and_eq_true] at spelled
    simp [isPart, spelled.1, spelled.2]

theorem spelled_append {as bs : List Char} (first : isIdentifierChars as = true)
    (second : bs.all isPart = true) : isIdentifierChars (as ++ bs) = true := by
  cases as with
  | nil => cases first
  | cons a as =>
    simp only [isIdentifierChars, Bool.and_eq_true] at first
    simp only [List.cons_append, isIdentifierChars, List.all_append, Bool.and_eq_true]
    exact ⟨first.1, first.2, second⟩

theorem spelled_sanitized (cs : List Char) : isIdentifierChars (sanitizeChars cs) = true := by
  cases cs with
  | nil => exact spelled_underscore
  | cons c rest =>
    have parts : ∀ x : Char, isPart (if isPart x then x else '_') = true := by
      intro x
      split
      · assumption
      · exact isPart_underscore
    have all : ∀ xs : List Char,
        (xs.map fun x => if isPart x then x else '_').all isPart = true := by
      simp [parts]
    simp only [sanitizeChars]
    split
    · -- A digit in front gets an underscore as its lead.
      exact spelled_append spelled_underscore (all (c :: rest))
    · rename_i noDigit
      have first : isLetter (if isPart c then c else '_') = true := by
        split
        · rename_i part
          simpa [isPart, noDigit] using part
        · exact isLetter_underscore
      simp only [List.map_cons, isIdentifierChars, Bool.and_eq_true]
      exact ⟨first, all rest⟩

/-- Names that end in an underscore are free. -/
theorem free_of_underscore (name : String) : isReserved (name ++ "_") = false := by
  have ends : ∀ word ∈ reserved, word.toList.getLast? ≠ some '_' := by decide +kernel
  cases found : isReserved (name ++ "_") with
  | false => rfl
  | true =>
    refine absurd ?_ (ends _ (List.contains_iff_mem.mp found))
    simp

theorem escapeReserved_eq (name : String) :
    escapeReserved name = if isReserved name then name ++ "_" else name := by
  obtain ⟨more, length⟩ : ∃ more, reserved.length + 1 = more + 2 := ⟨_, rfl⟩
  rw [escapeReserved, length, escapeWithin, escapeWithin, free_of_underscore]
  rfl

theorem declarable_escaped {name : String} (spelled : isIdentifierChars name.toList = true) :
    Declarable (escapeReserved name) := by
  have free : isReserved (escapeReserved name) = false := by
    rw [escapeReserved_eq]
    split
    · exact free_of_underscore name
    · simp_all
  have kept : isIdentifierChars (escapeReserved name).toList = true := by
    rw [escapeReserved_eq]
    split
    · rw [String.toList_append]
      exact spelled_append spelled (all_isPart spelled_underscore)
    · exact spelled
  have apart : escapeReserved name ∉ reserved := by
    simpa [isReserved] using free
  simp only [reserved, Support.names, List.mem_append, not_or] at apart
  obtain ⟨⟨⟨keyword, predeclared⟩, bound⟩, imported, declared⟩ := apart
  exact ⟨kept, keyword, predeclared, bound, imported, declared⟩

theorem declarable_typeName (name : String) : Declarable (typeName name) := by
  refine declarable_escaped ?_
  rw [sanitize, String.toList_ofList]
  exact spelled_sanitized _

theorem declarable_prefixed {lead : String} (spelled : isIdentifierChars lead.toList = true)
    (name : String) : Declarable (escapeReserved (lead ++ typeName name)) := by
  refine declarable_escaped ?_
  rw [String.toList_append]
  exact spelled_append spelled (all_isPart (declarable_typeName name).spelled)

theorem declarable_constructorName (name : String) : Declarable (constructorName name) :=
  declarable_prefixed (by decide) name

theorem declarable_validatorName (exported : Bool) (name : String) :
    Declarable (validatorName exported name) := by
  refine declarable_prefixed ?_ name
  cases exported <;> decide

/-- A property's field keeps the property's first letter in upper case, or is led by one. -/
theorem isExported_fieldName (property : String) : IsExported (fieldName property) := by
  have spelled := spelled_sanitized property.toList
  unfold fieldName
  split
  · rename_i empty
    rw [empty] at spelled
    cases spelled
  · rename_i c rest same
    rw [same] at spelled
    have parts := all_isPart spelled
    simp only [isIdentifierChars, Bool.and_eq_true] at spelled
    rw [IsExported, String.toList_ofList]
    split
    · rename_i upper
      refine ⟨?_, _, _, rfl, upper⟩
      simp [isIdentifierChars, isLetter, Text.isLetter_of_isUpper upper, spelled.2]
    · have upper : Text.isUpper 'X' = true := by decide
      refine ⟨?_, _, _, rfl, upper⟩
      simp [isIdentifierChars, isLetter, Text.isLetter_of_isUpper upper, parts]

theorem isExported_additionalField : IsExported Compile.additionalField :=
  ⟨by decide, 'A', "dditionalProperties".toList, by decide, by decide⟩

end Ident

namespace Code.Package
variable {τ δ κ : Type}

/-- All identifiers that a package declares. -/
def identifiers (p : Package τ δ κ) : List String :=
  p.records.map (·.name) ++ p.records.map (·.constructor) ++ p.functions.map (·.name)
    ++ p.sets.map (·.name)

theorem declared_perm (p : Package τ δ κ) : (p.declared.map (·.1)).Perm p.identifiers := by
  have records : (p.records.flatMap fun r => [r.name, r.constructor]).Perm
      (p.records.map (·.name) ++ p.records.map (·.constructor)) := by
    have pairs := List.flatMap_append_perm p.records (fun r => [r.name]) (fun r => [r.constructor])
    rw [← List.flatMap_pure_eq_map, ← List.flatMap_pure_eq_map]
    exact pairs.symm
  simp only [declared, identifiers, List.map_append, List.map_flatMap, List.map_map, List.map_cons,
    List.map_nil]
  exact (records.append_right _).append_right _

/-- A clash is between two declarations of one name, the earlier of them first. -/
theorem clash_declared {seen declared : List (String × Owner)} {e : SchemaError}
    (clash : firstClash seen declared = some e) :
    ∃ name first second, [(name, first), (name, second)].Sublist (seen.reverse ++ declared) ∧
      e = .located "" (.sameIdentifier name first.label second.label) := by
  induction declared generalizing seen with
  | nil => cases clash
  | cons head rest ih =>
    obtain ⟨name, owner⟩ := head
    rw [firstClash] at clash
    split at clash
    · rename_i first taken
      refine ⟨name, first, owner, ?_, (Option.some.inj clash).symm⟩
      have earlier : (name, first) ∈ seen.reverse := by
        simpa using Members.mem_of_get taken
      exact (List.singleton_sublist.mpr earlier).append
        (List.singleton_sublist.mpr List.mem_cons_self)
    · obtain ⟨name', first, second, pair, same⟩ := ih clash
      exact ⟨name', first, second, by simpa using pair, same⟩

theorem checkNames_error {p : Package τ δ κ} {e : SchemaError} (failed : p.checkNames = .error e) :
    ∃ name first second, [(name, first), (name, second)].Sublist p.declared ∧
      e = .located "" (.sameIdentifier name first.label second.label) := by
  rw [checkNames] at failed
  split at failed
  · rename_i e' clash
    obtain rfl : e' = e := by simpa using failed
    simpa using clash_declared clash
  · cases failed

theorem checkNames_error_iff (p : Package τ δ κ) :
    (∃ e, p.checkNames = .error e ∧ e.fault.group.code = "duplicate_name") ↔
      ¬ p.identifiers.Nodup := by
  rw [← p.declared_perm.nodup_iff]
  constructor
  · rintro ⟨e, failed, -⟩ distinct
    obtain ⟨name, first, second, pair, -⟩ := checkNames_error failed
    have again := (pair.map (·.1)).nodup distinct
    simp at again
  · intro repeated
    cases checked : p.checkNames with
    | ok => exact absurd (names_distinct checked) repeated
    | error e =>
      obtain ⟨name, first, second, -, rfl⟩ := checkNames_error checked
      exact ⟨_, rfl, rfl⟩

end Code.Package

namespace Compile
variable {c : Compiler} {named : List (String × Schema)} {p : Package}

theorem Linked.record_origin (linked : Linked c named p) {r : Record} (member : r ∈ p.records) :
    ∃ name o, RecordFor c.document name o r := by
  obtain ⟨x, -, made⟩ := related_of_mem_right linked.records member
  exact ⟨x.1, x.2, record_made made⟩

theorem Linked.set_origin (linked : Linked c named p) {set : Code.StringSet}
    (member : set ∈ p.sets) :
    ∃ inner, ∃ suffix ∈ setSuffixes, set.name = Ident.typeName (inner ++ suffix) := by
  obtain ⟨qs, packages, rfl⟩ := linked.packages
  rw [Code.Package.sets_joined] at member
  obtain ⟨q, inside, here⟩ := List.mem_flatMap.mp member
  obtain ⟨x, -, compiled⟩ := related_of_mem_right packages inside
  exact Compile.set_origin compiled set here

theorem Linked.declarable (linked : Linked c named p) {name : String}
    (member : name ∈ p.identifiers) : Ident.Declarable name := by
  simp only [Code.Package.identifiers, List.mem_append, List.mem_map] at member
  rcases member with ((⟨r, inside, rfl⟩ | ⟨r, inside, rfl⟩) | ⟨f, inside, rfl⟩) | ⟨set, inside, rfl⟩
  · obtain ⟨owner, o, made⟩ := linked.record_origin inside
    rw [made.name]
    exact Ident.declarable_typeName owner
  · obtain ⟨owner, o, made⟩ := linked.record_origin inside
    rw [made.constructor]
    exact Ident.declarable_constructorName owner
  · obtain ⟨x, -, heads⟩ := linked.origin inside
    rw [heads.typed.1]
    exact Ident.declarable_validatorName c.exported x.1
  · obtain ⟨inner, suffix, -, named⟩ := linked.set_origin inside
    rw [named]
    exact Ident.declarable_typeName (inner ++ suffix)

theorem RecordFor.exported {d : Document} {name : String} {o : ObjectParts} {r : Record}
    (made : RecordFor d name o r) {f : Field} (member : f ∈ r.fields) :
    Ident.IsExported f.name := by
  rcases made.field_cases member with ⟨property, -, stands⟩ | ⟨s, t, -, -, rfl⟩
  · rw [stands.name]
    exact Ident.isExported_fieldName property.1
  · exact Ident.isExported_additionalField

/-- What a compiled section declares are distinct identifiers that it can declare, and the fields of
    each record are distinct and exported. The check of names fails exactly on packages that declare
    an identifier twice, and names both declarations. -/
theorem identifiers_sound {d : Document} {o : CompileOptions} {canceled : Bool}
    {r : CompiledDocument} (compiled : document d o canceled = .ok r) :
    r.package.identifiers.Nodup ∧ (∀ name ∈ r.package.identifiers, Ident.Declarable name) ∧
    (∀ record ∈ r.package.records, (record.fields.map (·.name)).Nodup ∧
      ∀ f ∈ record.fields, Ident.IsExported f.name) ∧
    ∀ p : Package,
      ((∃ e, p.checkNames = .error e ∧ e.fault.group.code = "duplicate_name") ↔
        ¬ p.identifiers.Nodup) ∧
      ∀ e, p.checkNames = .error e →
        ∃ name first second, [(name, first), (name, second)].Sublist p.declared ∧
          e = .located "" (.sameIdentifier name first.label second.label) := by
  obtain ⟨selection, named, -, -, linked, -⟩ := document_linked compiled
  refine ⟨?_, fun name member => linked.declarable member, ?_, ?_⟩
  · exact r.package.declared_perm.nodup_iff.mp linked.distinct
  · intro record member
    obtain ⟨owner, parts, made⟩ := linked.record_origin member
    exact ⟨made.distinct, fun f inside => made.exported inside⟩
  · exact fun p => ⟨p.checkNames_error_iff, fun e failed => Code.Package.checkNames_error failed⟩

/-- A keyword as a schema name, and properties that are no identifiers. -/
def Sample.awkward : Document :=
  ⟨.obj [("schemas", .obj [("type", .obj (Sample.object
    [("2nd part", Sample.label), ("größe", .obj [("type", .str "boolean")])] ["größe"]))])]⟩

set_option maxRecDepth 100000 in
theorem awkward_identifiers_sound :
    ∃ r, document Sample.awkward Sample.options false = .ok r ∧
      r.package.identifiers = ["type_", "newtype_", "Validatetype_", "type_2nd_partEnumSet"] ∧
      Ident.Declarable "Validatetype_" ∧
      ∃ record ∈ r.package.records, record.fields.map (·.name) = ["X_2nd_part", "Größe"] ∧
        ∀ f ∈ record.fields, Ident.IsExported f.name := by
  obtain ⟨r, compiled, holds⟩ := toOption_any_iff.mp (show
    (document Sample.awkward Sample.options false).toOption.any (fun r =>
      r.package.identifiers == ["type_", "newtype_", "Validatetype_", "type_2nd_partEnumSet"] &&
      r.package.records.any fun record => record.fields.map (·.name) == ["X_2nd_part", "Größe"])
    from by decide +kernel)
  simp only [Bool.and_eq_true, beq_iff_eq, List.any_eq_true] at holds
  obtain ⟨names, record, member, fields⟩ := holds
  obtain ⟨-, declarable, exported, -⟩ := identifiers_sound compiled
  exact ⟨r, compiled, names, declarable _ (by rw [names]; decide), record, member, fields,
    (exported record member).2⟩

end Compile

end SchemaForge
