import SchemaForge.Proofs.Refusals
import SchemaForge.Proofs.Twins

/-!
What the strict check promises to the decoder. The check accepts a tree exactly if the value that it
stands for lies in the subset, whose rules are stated here one by one. A tree in the subset is a
schema, or a number in it is spelled in a way that is not supported, as long as its number literals
stand for numbers.
-/
namespace SchemaForge.Subset

open Schema (countKeys boundKeys listKeys)

/-- A whole number that is not negative, however it is spelled. -/
def IsCount (v : Json) : Prop :=
  ∃ text, v = .num text ∧ Literal.isWholeNumber text = true ∧
    ((Literal.parts text).negative = true → (Literal.parts text).coefficient = 0)

/-- The rules of the subset. A reference needs no more than a text; any other schema has a type,
    and each keyword that it has obeys its own rule. -/
inductive InSubset : Json → Prop
  | reference {members : List (String × Json)} {path : String}
      (given : Members.get? "$ref" members = some (.str path)) (some_ : path ≠ "") :
      InSubset (.obj members)
  | schema {members : List (String × Json)} {type : String}
      (direct : Members.get? "$ref" members = none)
      (typed : Members.get? "type" members = some (.str type))
      (types : ∀ v, ("type", v) ∈ members → ∃ name ∈ Problem.schemaTypes, v = .str name)
      (properties : ∀ v, ("properties", v) ∈ members → v.kind = .object)
      (property : ∀ values, ("properties", Json.obj values) ∈ members → ∀ m ∈ values, InSubset m.2)
      (additional : ∀ v, ("additionalProperties", v) ∈ members → v.kind ≠ .boolean →
        v ≠ .obj [] → InSubset v)
      (items : ∀ v, ("items", v) ∈ members → InSubset v)
      (lists : ∀ key ∈ listKeys, ∀ v, (key, v) ∈ members →
        ∃ items, v = .arr items ∧ ∀ item ∈ items, item.kind = .string)
      (counts : ∀ key ∈ countKeys, ∀ v, (key, v) ∈ members → IsCount v)
      (bounds : ∀ key ∈ boundKeys, ∀ v, (key, v) ∈ members → v.kind = .number ∨ v.kind = .string)
      (format : ∀ v, ("format", v) ∈ members → v.kind = .string)
      (array : type = "array" → Members.has "items" members = true) : InSubset (.obj members)

theorem InSubset.kind {v : Json} (inside : InSubset v) : v.kind = .object := by
  cases inside <;> rfl

section Findings
variable {path : List String} {v : Json}

theorem gathered_nil_iff {findings : List Finding} :
    gathered path findings = [] ↔ findings = [] := by
  match findings with
  | [] | [_] | _ :: _ :: _ => simp [gathered]

theorem stringAt_nil_iff : stringAt path v = [] ↔ v.kind = .string := by
  cases v <;> simp [stringAt, wrongType, Json.kind]

theorem stringsFrom_nil_iff {index : Nat} {items : List Json} :
    stringsFrom path index items = [] ↔ ∀ v ∈ items, v.kind = .string := by
  induction items generalizing index with
  | nil => simp [stringsFrom]
  | cons v rest ih => simp [stringsFrom, stringAt_nil_iff, ih]

theorem strings_nil_iff :
    strings path v = [] ↔ ∃ items, v = .arr items ∧ ∀ v ∈ items, v.kind = .string := by
  cases v <;> simp [strings, wrongType, gathered_nil_iff, stringsFrom_nil_iff]

theorem count_nil_iff : count path v = [] ↔ IsCount v := by
  unfold IsCount
  cases v with
  | num text =>
    rw [count]
    by_cases whole : Literal.isWholeNumber text = true
    · rw [if_pos whole]
      by_cases negative : (Literal.parts text).negative = true <;> simp [whole, negative]
    · simp [whole, wrongType]
  | _ => simp [count, wrongType]

theorem bound_nil_iff : bound path v = [] ↔ v.kind = .number ∨ v.kind = .string := by
  cases v <;> simp [bound, wrongType, Json.kind]

theorem schemaType_nil_iff :
    schemaType path v = [] ↔ ∃ name ∈ Problem.schemaTypes, v = .str name := by
  cases v <;> simp [schemaType]

theorem reference_nil_iff : reference path v = [] ↔ ∃ text, v = .str text ∧ text ≠ "" := by
  cases v <;> simp [reference, wrongType]

/-- What is wrong with the value of one keyword. -/
def keyword (path : List String) (key : String) (v : Json) : List Finding :=
  if key = "items" then node path v
  else if key = "additionalProperties" then additional path v (node path v)
  else if key = "properties" then
    match v with
    | .obj members => gathered path (nodes path members)
    | v => wrongType path v .object
  else plainKeyword path key v

theorem keywords_nil_iff {members : List (String × Json)} :
    keywords path members = [] ↔ ∀ m ∈ members, keyword (path ++ [m.1]) m.1 m.2 = [] := by
  induction members with
  | nil => simp [keywords]
  | cons m rest ih =>
    obtain ⟨key, v⟩ := m
    have first : keywords path ((key, v) :: rest) =
        keyword (path ++ [key]) key v ++ keywords path rest := by
      cases v <;> simp only [keywords, keyword]
    rw [first, List.append_eq_nil_iff, ih, List.forall_mem_cons]

theorem nodes_nil_iff {members : List (String × Json)} :
    nodes path members = [] ↔ ∀ m ∈ members, node (path ++ [m.1]) m.2 = [] := by
  induction members with
  | nil => simp [nodes]
  | cons m rest ih =>
    obtain ⟨key, v⟩ := m
    rw [nodes, List.append_eq_nil_iff, ih, List.forall_mem_cons]

theorem additional_nil_iff {asSchema : List Finding} : additional path v asSchema = [] ↔
    (v.kind ≠ .boolean → v ≠ .obj [] → asSchema = []) := by
  cases v with
  | obj members => cases members <;> cases asSchema <;> simp [additional, Json.kind]
  | bool b => simp [additional, Json.kind]
  | _ => cases asSchema <;> simp [additional, Json.kind]

theorem properties_nil_iff : keyword path "properties" v = [] ↔
    v.kind = .object ∧ ∀ values, v = .obj values → ∀ m ∈ values, node (path ++ [m.1]) m.2 = [] := by
  cases v <;> simp [keyword, wrongType, Json.kind, gathered_nil_iff, nodes_nil_iff]

theorem keyword_list {key : String} (named : key ∈ listKeys) :
    keyword path key v = strings path v := by
  simp only [listKeys, List.mem_cons, List.not_mem_nil, or_false] at named
  rcases named with rfl | rfl <;> simp [keyword, plainKeyword]

theorem keyword_count {key : String} (named : key ∈ countKeys) :
    keyword path key v = count path v := by
  simp only [countKeys, List.mem_cons, List.not_mem_nil, or_false] at named
  rcases named with rfl | rfl | rfl | rfl <;> simp [keyword, plainKeyword]

theorem keyword_bound {key : String} (named : key ∈ boundKeys) :
    keyword path key v = bound path v := by
  simp only [boundKeys, List.mem_cons, List.not_mem_nil, or_false] at named
  rcases named with rfl | rfl <;> simp [keyword, plainKeyword]

/-- Every other keyword has a rule of its own, or none. -/
theorem keyword_other {key : String} (list : key ∉ listKeys) (count : key ∉ countKeys)
    (bound : key ∉ boundKeys) (properties : key ≠ "properties") :
    keyword path key v =
      if key = "items" then node path v
      else if key = "additionalProperties" then additional path v (node path v)
      else if key = "type" then schemaType path v
      else if key = "format" then stringAt path v
      else [] := by
  simp only [listKeys, countKeys, boundKeys, List.mem_cons, List.not_mem_nil, or_false, not_or]
    at list count bound
  simp [keyword, plainKeyword, list, count, bound, properties]

end Findings

/-- What is known of the schemas inside an object settles the object. -/
theorem object_nil_iff {members : List (String × Json)}
    (inner : ∀ key w, (key, w) ∈ members → ∀ path, node path w = [] ↔ InSubset w)
    (deeper : ∀ key values, (key, Json.obj values) ∈ members → ∀ m ∈ values, ∀ path,
      node path m.2 = [] ↔ InSubset m.2)
    (direct : Members.get? "$ref" members = none) (path : List String) :
    node path (.obj members) = [] ↔ InSubset (.obj members) := by
  rw [node, direct]
  simp only
  rw [gathered_nil_iff, List.append_eq_nil_iff, List.append_eq_nil_iff, keywords_nil_iff]
  constructor
  · rintro ⟨⟨typed, fine⟩, array⟩
    have types : ∀ v, ("type", v) ∈ members → ∃ name ∈ Problem.schemaTypes, v = .str name :=
      fun v member => schemaType_nil_iff.mp (by simpa [keyword, plainKeyword] using fine _ member)
    obtain ⟨v, given⟩ : ∃ v, Members.get? "type" members = some v := by
      refine Option.ne_none_iff_exists'.mp fun absent => ?_
      simp [missingType, Members.has, absent] at typed
    obtain ⟨name, -, rfl⟩ := types v (Members.mem_of_get given)
    refine .schema direct given types
      (fun v member => (properties_nil_iff.mp (fine _ member)).1) (fun values member m inside => ?_)
      (fun v member other some_ => ?_) (fun v member => ?_) (fun key named v member => ?_)
      (fun key named v member => ?_) (fun key named v member => ?_) (fun v member => ?_) ?_
    · have each := (properties_nil_iff.mp (fine _ member)).2 values rfl m inside
      exact (deeper _ _ member m inside _).mp each
    · have allowed : additional (path ++ ["additionalProperties"]) v
          (node (path ++ ["additionalProperties"]) v) = [] := by simpa [keyword] using fine _ member
      exact (inner _ _ member _).mp (additional_nil_iff.mp allowed other some_)
    · exact (inner _ _ member _).mp (by simpa [keyword] using fine _ member)
    · exact strings_nil_iff.mp ((keyword_list named).symm.trans (fine _ member))
    · exact count_nil_iff.mp ((keyword_count named).symm.trans (fine _ member))
    · exact bound_nil_iff.mp ((keyword_bound named).symm.trans (fine _ member))
    · exact stringAt_nil_iff.mp (by simpa [keyword, plainKeyword] using fine _ member)
    · simpa [missingItems, mayBeArray, given] using array
  · intro inside
    cases inside with
    | reference given => cases direct.symm.trans given
    | schema _ typed types properties property additional items lists counts bounds format array =>
      refine ⟨⟨by simp [missingType, Members.has, typed], ?_⟩,
        by simpa [missingItems, mayBeArray, typed] using array⟩
      rintro ⟨key, v⟩ member
      by_cases list : key ∈ listKeys
      · exact (keyword_list list).trans (strings_nil_iff.mpr (lists key list v member))
      by_cases count : key ∈ countKeys
      · exact (keyword_count count).trans (count_nil_iff.mpr (counts key count v member))
      by_cases bound : key ∈ boundKeys
      · exact (keyword_bound bound).trans (bound_nil_iff.mpr (bounds key bound v member))
      by_cases holder : key = "properties"
      · subst holder
        refine properties_nil_iff.mpr ⟨properties v member, fun values same m inside => ?_⟩
        subst same
        exact (deeper _ _ member m inside _).mpr (property values member m inside)
      simp only [keyword_other list count bound holder]
      split
      · next named =>
        subst named
        exact (inner _ _ member _).mpr (items v member)
      split
      · next named =>
        subst named
        exact additional_nil_iff.mpr fun other some_ =>
          (inner _ _ member _).mpr (additional v member other some_)
      split
      · next named =>
        subst named
        exact schemaType_nil_iff.mpr (types v member)
      split
      · next named =>
        subst named
        exact stringAt_nil_iff.mpr (format v member)
      · rfl

/-- The check finds nothing exactly in what the subset allows. -/
theorem node_nil_iff (v : Json) (path : List String) : node path v = [] ↔ InSubset v := by
  induction measure : v.size using Nat.strongRecOn generalizing v path with
  | ind size smaller =>
    cases v with
    | obj members =>
      have small : ∀ m ∈ members, m.2.size < size := fun m member =>
        measure ▸ Json.size_of_member member
      cases ref : Members.get? "$ref" members with
      | some r =>
        rw [node, ref]
        simp only
        rw [reference_nil_iff]
        constructor
        · rintro ⟨text, rfl, some_⟩
          exact .reference ref some_
        · intro inside
          cases inside with
          | reference given some_ => exact ⟨_, Option.some.inj (ref.symm.trans given), some_⟩
          | schema direct => cases ref.symm.trans direct
      | none =>
        refine object_nil_iff (fun key w member path => ?_)
          (fun key values member m inside path => ?_) ref path
        · exact smaller w.size (small _ member) w path rfl
        · exact smaller m.2.size (Nat.lt_trans (Json.size_of_member inside) (small _ member)) m.2
            path rfl
    | _ => exact iff_of_false (by simp [node, wrongType]) nofun

theorem check_ok_iff {name : String} {tree : Json} : check name tree = .ok () ↔
    (∀ text ∈ tree.literals, Encode.Digestible text) ∧ InSubset (Encode.meant tree) := by
  rw [← node_nil_iff _ []]
  unfold check
  cases encoded : Encode.json tree with
  | error e =>
    have refused : ¬ ∀ text ∈ tree.literals, Encode.Digestible text := fun all => by
      rw [Encode.json_ok_iff.mpr ⟨rfl, all⟩] at encoded
      cases encoded
    simp [refused]
  | ok v =>
    obtain ⟨rfl, readable⟩ := Encode.json_ok_iff.mp encoded
    cases findings : node [] (Encode.meant tree) with
    | nil => simpa [findings] using readable
    | cons f rest => simp [findings]

/-! ### Trees whose literals are numbers -/

/-- Every number literal of a tree is read as a number. A document may have others: a tag can make
    a literal of any text. -/
def Plain (tree : Json) : Prop := ∀ text ∈ tree.literals, (Encode.scalar text).kind = .number

section Plain
variable {v : Json} {members : List (String × Json)}

theorem Plain.member (plain : Plain (.obj members)) {m : String × Json} (member : m ∈ members) :
    Plain m.2 := by
  intro text inside
  refine plain text ?_
  rw [Json.literals, Json.memberLiterals_eq]
  exact List.mem_flatMap.mpr ⟨m, member, inside⟩

theorem Plain.item {items : List Json} (plain : Plain (.arr items)) (member : v ∈ items) :
    Plain v := by
  intro text inside
  refine plain text ?_
  rw [Json.literals, Json.itemLiterals_eq]
  exact List.mem_flatMap.mpr ⟨v, member, inside⟩

theorem Plain.kind (plain : Plain v) : (Encode.meant v).kind = v.kind := by
  cases v with
  | num text => exact plain text (by simp [Json.literals])
  | _ => rfl

theorem Plain.str (plain : Plain v) {text : String} (same : Encode.meant v = .str text) :
    v = .str text := by
  have kind := plain.kind
  rw [same] at kind
  cases v with
  | str => exact same
  | _ => cases kind

theorem Plain.empty_object (plain : Plain v) (same : Encode.meant v = .obj []) :
    Schema.Decode.isEmptyObject v = true := by
  have kind := plain.kind
  rw [same] at kind
  cases v with
  | obj members =>
    cases members with
    | nil => rfl
    | cons m rest => cases same
  | _ => cases kind

theorem not_boolean (other : Schema.Decode.isBool v = false) : v.kind ≠ .boolean := by
  cases v <;> simp_all [Json.kind, Schema.Decode.isBool]

theorem get_meant (key : String) : Members.get? key (Encode.meantMembers members) =
    (Members.get? key members).map Encode.meant := by
  rw [Encode.meantMembers_eq, Members.get_map]

theorem mem_meant {key : String} (given : Members.get? key members = some v) :
    (key, Encode.meant v) ∈ Encode.meantMembers members :=
  Members.mem_of_get (by rw [get_meant, given]; rfl)

end Plain

/-- A number under a keyword for numbers, spelled as the keyword does not take it. -/
inductive BadNumber : String → Fault → Prop
  | count {key text : String} (named : key ∈ countKeys)
      (unread : Number.parseIntIn 0 Number.int64Max text.toList = none) :
      BadNumber key (.notCount text)
  | integer {key text : String} (named : key ∈ boundKeys)
      (unread : Number.parseInt text.toList = none) : BadNumber key (.notInteger text)
  | decimal {key text : String} (named : key ∈ boundKeys)
      (unread : Number.Decimal.parse? text = none) : BadNumber key (.notDecimal text)

/-- What the rules say of the keywords of a tree, in the tree's own terms. -/
structure Shaped (members : List (String × Json)) : Prop where
  type : ∃ name ∈ Problem.schemaTypes, Members.get? "type" members = some (.str name)
  array : Members.get? "type" members = some (.str "array") →
    Members.get? "items" members ≠ none
  properties : ∀ v, Members.get? "properties" members = some v → v.kind = .object
  property : ∀ values m, Members.get? "properties" members = some (.obj values) → m ∈ values →
    InSubset (Encode.meant m.2)
  additional : ∀ v, Members.get? "additionalProperties" members = some v →
    Schema.Decode.isBool v = false → Schema.Decode.isEmptyObject v = false →
      InSubset (Encode.meant v)
  items : ∀ v, Members.get? "items" members = some v → InSubset (Encode.meant v)
  keyword : ∀ key v segments fault, Members.get? key members = some v →
    Schema.BadValue key v segments fault → segments = [] ∧ BadNumber key fault

theorem InSubset.shaped {members : List (String × Json)} (plain : Plain (.obj members))
    (inside : InSubset (Encode.meant (.obj members)))
    (direct : Members.get? "$ref" members = none) : Shaped members := by
  rw [Encode.meant] at inside
  have plain_get : ∀ {key v}, Members.get? key members = some v → Plain v := fun given =>
    plain.member (Members.mem_of_get given)
  cases inside with
  | reference given =>
    rw [get_meant, direct] at given
    cases given
  | schema _ typed types properties property additional items lists counts bounds format array =>
    obtain ⟨v, given, same⟩ := Option.map_eq_some_iff.mp ((get_meant "type").symm.trans typed)
    obtain rfl := (plain_get given).str same
    obtain ⟨name, known, named⟩ := types _ (mem_meant given)
    refine ⟨⟨_, ?_, given⟩, fun isArray absent => ?_, fun v given => ?_,
      fun values m given member => ?_, fun v given noBool some_ => ?_,
      fun v given => items _ (mem_meant given), fun key v segments fault given bad => ?_⟩
    · rw [Json.str.inj named]
      exact known
    · obtain rfl := Json.str.inj (Option.some.inj (given.symm.trans isArray))
      have there := array rfl
      rw [Members.has, get_meant, absent] at there
      cases there
    · rw [← (plain_get given).kind]
      exact properties _ (mem_meant given)
    · refine property _ (mem_meant given) (m.1, Encode.meant m.2) ?_
      rw [Encode.meantMembers_eq]
      exact List.mem_map.mpr ⟨m, member, rfl⟩
    · refine additional _ (mem_meant given) ?_ fun same => ?_
      · rw [(plain_get given).kind]
        exact not_boolean noBool
      · rw [(plain_get given).empty_object same] at some_
        cases some_
    · have kind := (plain_get given).kind
      cases bad with
      | format other => exact absurd (kind ▸ format _ (mem_meant given)) other
      | list named other =>
        obtain ⟨items, same, -⟩ := lists key named _ (mem_meant given)
        exact absurd (kind ▸ same ▸ rfl) other
      | @item _ values _ item named stands other =>
        obtain ⟨items, same, texts⟩ := lists key named _ (mem_meant given)
        rw [Encode.meant, Encode.meantItems_eq] at same
        obtain rfl := Json.arr.inj same
        have member := List.mem_of_getElem? stands
        have text := texts _ (List.mem_map.mpr ⟨item, member, rfl⟩)
        rw [((plain_get given).item member).kind] at text
        exact absurd text other
      | count named unread => exact ⟨rfl, .count named unread⟩
      | notCount named other =>
        obtain ⟨text, same, -⟩ := counts key named _ (mem_meant given)
        exact absurd (kind ▸ same ▸ rfl) other
      | integer named spelled unread => exact ⟨rfl, .integer named unread⟩
      | decimal named spelled unread => exact ⟨rfl, .decimal named unread⟩
      | notBound named number text =>
        have scalar := bounds key named _ (mem_meant given)
        rw [kind] at scalar
        exact absurd scalar (not_or.mpr ⟨number, text⟩)

/-- What the decoder refuses in a tree of the subset is a number. -/
theorem refused_number {tree : Json} {segments : List String} {fault : Fault}
    (refused : Schema.Refused tree segments fault) (plain : Plain tree)
    (inside : InSubset (Encode.meant tree)) :
    ∃ above key, segments = above ++ [key] ∧ BadNumber key fault := by
  induction refused with
  | @notSchema v other =>
    refine absurd ?_ other
    rw [← plain.kind]
    exact inside.kind
  | @reference members v given other =>
    rw [Encode.meant] at inside
    have named : Members.get? "$ref" (Encode.meantMembers members) = some (Encode.meant v) := by
      rw [get_meant, given]
      rfl
    cases inside with
    | reference text =>
      have same := Option.some.inj (named.symm.trans text)
      have kind := (plain.member (Members.mem_of_get given)).kind
      exact absurd (kind ▸ same ▸ rfl) other
    | schema direct => cases named.symm.trans direct
  | noType direct absent =>
    obtain ⟨name, -, given⟩ := (inside.shaped plain direct).type
    cases absent.symm.trans given
  | typeKind direct given other =>
    obtain ⟨name, -, text⟩ := (inside.shaped plain direct).type
    obtain rfl := Option.some.inj (given.symm.trans text)
    exact absurd rfl other
  | typeName has unknown =>
    obtain ⟨name, known, text⟩ := (inside.shaped plain has.direct).type
    obtain rfl := Json.str.inj (Option.some.inj (has.typed.symm.trans text))
    exact absurd known unknown
  | noItems has absent => exact absurd absent ((inside.shaped plain has.direct).array has.typed)
  | keyword has read given bad =>
    obtain ⟨rfl, number⟩ := (inside.shaped plain has.direct).keyword _ _ _ _ given bad
    exact ⟨[], _, rfl, number⟩
  | properties has given other =>
    exact absurd ((inside.shaped plain has.direct).properties _ given) other
  | property has given member _ ih =>
    have below := (plain.member (Members.mem_of_get given)).member member
    obtain ⟨above, key, rfl, number⟩ :=
      ih below ((inside.shaped plain has.direct).property _ _ given member)
    exact ⟨_ :: _ :: above, key, rfl, number⟩
  | additional has given schema _ ih =>
    obtain ⟨above, key, rfl, number⟩ := ih (plain.member (Members.mem_of_get given))
      ((inside.shaped plain has.direct).additional _ given schema.1 schema.2)
    exact ⟨_ :: above, key, rfl, number⟩
  | items has given _ ih =>
    obtain ⟨above, key, rfl, number⟩ := ih (plain.member (Members.mem_of_get given))
      ((inside.shaped plain has.direct).items _ given)
    exact ⟨_ :: above, key, rfl, number⟩

theorem BadNumber.group {key : String} {fault : Fault} (bad : BadNumber key fault) :
    fault.group = .invalidSchemaValue := by
  cases bad <;> rfl

theorem BadNumber.named {key : String} {fault : Fault} (bad : BadNumber key fault) :
    key ∈ countKeys ++ boundKeys := by
  cases bad with
  | count named => exact List.mem_append_left _ named
  | integer named | decimal named => exact List.mem_append_right _ named

/-- Literals that start like numbers are numbers, if they can be encoded at all. -/
theorem plain_of_starts {tree : Json}
    (starts : ∀ text ∈ tree.literals, Literal.StartsNumber text)
    (digestible : ∀ text ∈ tree.literals, Encode.Digestible text) : Plain tree := by
  intro text member
  obtain ⟨cs, ws, -, spelled, number, blank, -⟩ :=
    (Encode.digestible_iff_inRange (starts text member)).mp (digestible text member)
  have read := Encode.literal_number spelled number blank
  rw [← (Encode.literal_ok_iff.mp read).1]
  rfl

theorem suffix_snoc {key : String} (named : key ∈ countKeys ++ boundKeys) (above : List String) :
    Pointer.suffix (above ++ [key]) = Pointer.suffix above ++ "/" ++ key := by
  have escaped : ∀ key ∈ countKeys ++ boundKeys, Pointer.escape key = key := by decide
  rw [Pointer.suffix, List.foldl_append, List.foldl_cons, List.foldl_nil, escaped key named]
  rfl

/-- What the strict check accepts can be decoded, but for numbers that are not supported, wherever
    its literals are numbers; and in JSON documents they are. -/
theorem accepted_decodes {name : String} {tree : Json} (accepted : check name tree = .ok ()) :
    (∀ text root path, Json.load text = .ok root → Document.lookup path root = some tree →
      Plain tree) ∧
    (Plain tree → ∀ base, (∃ s, Schema.decodeAt base tree = .ok s) ∨
      ∃ above key fault, Schema.decodeAt base tree =
          .error (.located (base ++ (Pointer.suffix above ++ "/" ++ key)) fault) ∧
        key ∈ ["minLength", "maxLength", "minItems", "maxItems", "minimum", "maximum"] ∧
        fault.group = .invalidSchemaValue ∧ BadNumber key fault) := by
  obtain ⟨digestible, inside⟩ := check_ok_iff.mp accepted
  refine ⟨fun text root path loaded found => ?_, fun plain base => ?_⟩
  · refine plain_of_starts (fun literal member => ?_) digestible
    exact Json.load_numbers loaded literal (Document.lookup_literals found member)
  · rw [Schema.decodeAt]
    cases decoded : Schema.decodeTree tree with
    | ok s => exact .inl ⟨s, rfl⟩
    | error e =>
      obtain ⟨above, key, place, bad⟩ :=
        refused_number (Schema.decode_refused decoded) plain inside
      refine .inr ⟨above, key, e.fault, ?_, bad.named, bad.group, bad⟩
      rw [← suffix_snoc bad.named, ← place]

namespace Sample

/-- The literal is what a text becomes that is tagged as a number. -/
def tagged : Json := .obj [("type", .num "\"string\"")]

def nested : Json :=
  .obj [("type", .str "object"), ("additionalProperties", .obj []),
    ("properties", .obj [("p", .obj [("type", .str "array"),
      ("items", .obj [("type", .str "integer"), ("minimum", .num "1e2")])])])]

end Sample

/-- A literal that is no number passes the check as the text that it is read as, and then it is no
    type. -/
theorem tagged_type_refused : check "A" Sample.tagged = .ok () ∧
    Schema.decode Sample.tagged = .error (.located "#" (.unsupportedType .number)) ∧
    (Fault.unsupportedType .number).group = .unknownSchemaType :=
  ⟨by rfl, by rfl, by rfl⟩

theorem nested_minimum_refused : check "A" Sample.nested = .ok () ∧ Plain Sample.nested ∧
    ∃ above key fault, Schema.decodeAt "#/A" Sample.nested =
        .error (.located ("#/A" ++ (Pointer.suffix above ++ "/" ++ key)) fault) ∧
      BadNumber key fault := by
  have accepted : check "A" Sample.nested = .ok () := by rfl
  have plain : Plain Sample.nested := by
    intro text member
    obtain rfl : text = "1e2" := by
      simpa [Sample.nested, Json.literals, Json.memberLiterals] using member
    decide
  refine ⟨accepted, plain, ?_⟩
  rcases (accepted_decodes accepted).2 plain "#/A" with ⟨s, decoded⟩ | failed
  · cases decoded
  · obtain ⟨above, key, fault, failed, -, -, bad⟩ := failed
    exact ⟨above, key, fault, failed, bad⟩

end SchemaForge.Subset
