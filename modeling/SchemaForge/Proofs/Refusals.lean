import SchemaForge.Proofs.Decoding
import SchemaForge.Schema.Subset

/-!
Why a tree is refused as a schema. Every error of the decoder belongs to one broken rule: about the
tree itself, about the value of a keyword that its type reads, or about a schema further inside. The
error leads to the place by the names that are passed on the way.
-/
namespace SchemaForge.Schema
open Decode

def countKeys : List String := ["minLength", "maxLength", "minItems", "maxItems"]

def boundKeys : List String := ["minimum", "maximum"]

def listKeys : List String := ["required", "enum"]

/-- Keywords without schemas in their values, by the type that reads them. -/
def plainKeys (type : String) : List String :=
  if type = "object" then ["required"]
  else if type = "array" then ["minItems", "maxItems"]
  else if type = "string" then ["minLength", "maxLength", "enum", "format"]
  else if type = "number" || type = "integer" then boundKeys
  else []

/-- A bound as it is read: a number as spelled, a text without the blanks around it. -/
inductive BoundText : Json → String → Prop
  | num (text : String) : BoundText (.num text) text
  | str (text : String) : BoundText (.str text) (Text.trimSpace text)

/-- What is wrong with the value of a keyword without schemas in it. -/
inductive BadValue : String → Json → List String → Fault → Prop
  | format {v : Json} (other : v.kind ≠ .string) : BadValue "format" v [] (.notString v.kind)
  | list {key : String} {v : Json} (named : key ∈ listKeys) (other : v.kind ≠ .array) :
      BadValue key v [] (.notStringList v.kind)
  | item {key : String} {items : List Json} {i : Nat} {v : Json} (named : key ∈ listKeys)
      (stands : items[i]? = some v) (other : v.kind ≠ .string) :
      BadValue key (.arr items) [Number.renderNat i] (.notString v.kind)
  | count {key text : String} (named : key ∈ countKeys)
      (unread : Number.parseIntIn 0 Number.int64Max text.toList = none) :
      BadValue key (.num text) [] (.notCount text)
  | notCount {key : String} {v : Json} (named : key ∈ countKeys) (other : v.kind ≠ .number) :
      BadValue key v [] (.notCount v.kind.name)
  | integer {key text : String} {v : Json} (named : key ∈ boundKeys) (spelled : BoundText v text)
      (unread : Number.parseInt text.toList = none) : BadValue key v [] (.notInteger text)
  | decimal {key text : String} {v : Json} (named : key ∈ boundKeys) (spelled : BoundText v text)
      (unread : Number.Decimal.parse? text = none) : BadValue key v [] (.notDecimal text)
  | notBound {key : String} {v : Json} (named : key ∈ boundKeys) (number : v.kind ≠ .number)
      (text : v.kind ≠ .string) : BadValue key v [] (.notNumber v.kind)

/-- A schema of the given type that is no reference. -/
structure HasType (members : List (String × Json)) (type : String) : Prop where
  direct : Members.get? "$ref" members = none
  typed : Members.get? "type" members = some (.str type)

/-- A tree breaks a rule for schemas at a place inside it. -/
inductive Refused : Json → List String → Fault → Prop
  | notSchema {v : Json} (other : v.kind ≠ .object) : Refused v [] (.notSchema v.kind)
  | reference {members : List (String × Json)} {v : Json}
      (given : Members.get? "$ref" members = some v) (other : v.kind ≠ .string) :
      Refused (.obj members) ["$ref"] (.notString v.kind)
  | noType {members : List (String × Json)} (direct : Members.get? "$ref" members = none)
      (absent : Members.get? "type" members = none) : Refused (.obj members) [] .noType
  | typeKind {members : List (String × Json)} {v : Json}
      (direct : Members.get? "$ref" members = none)
      (given : Members.get? "type" members = some v) (other : v.kind ≠ .string) :
      Refused (.obj members) [] (.unsupportedType v.kind)
  | typeName {members : List (String × Json)} {type : String} (has : HasType members type)
      (unknown : type ∉ Subset.Problem.schemaTypes) :
      Refused (.obj members) [] (.unexpectedType type)
  | noItems {members : List (String × Json)} (has : HasType members "array")
      (absent : Members.get? "items" members = none) : Refused (.obj members) [] .noItems
  | keyword {members : List (String × Json)} {type key : String} {v : Json}
      {segments : List String} {fault : Fault} (has : HasType members type)
      (read : key ∈ plainKeys type) (given : Members.get? key members = some v)
      (bad : BadValue key v segments fault) : Refused (.obj members) (key :: segments) fault
  | properties {members : List (String × Json)} {v : Json} (has : HasType members "object")
      (given : Members.get? "properties" members = some v) (other : v.kind ≠ .object) :
      Refused (.obj members) ["properties"] (.notObject v.kind)
  | property {members values : List (String × Json)} {m : String × Json} {segments : List String}
      {fault : Fault} (has : HasType members "object")
      (given : Members.get? "properties" members = some (.obj values)) (member : m ∈ values)
      (inner : Refused m.2 segments fault) :
      Refused (.obj members) ("properties" :: m.1 :: segments) fault
  | additional {members : List (String × Json)} {v : Json} {segments : List String} {fault : Fault}
      (has : HasType members "object")
      (given : Members.get? "additionalProperties" members = some v)
      (schema : isBool v = false ∧ isEmptyObject v = false) (inner : Refused v segments fault) :
      Refused (.obj members) ("additionalProperties" :: segments) fault
  | items {members : List (String × Json)} {v : Json} {segments : List String} {fault : Fault}
      (has : HasType members "array") (given : Members.get? "items" members = some v)
      (inner : Refused v segments fault) : Refused (.obj members) ("items" :: segments) fault

section Steps
variable {ε α β : Type} {x : Except ε α} {e : ε}

theorem bind_error_iff {f : α → Except ε β} :
    (x >>= f) = .error e ↔ x = .error e ∨ ∃ a, x = .ok a ∧ f a = .error e := by
  cases x with
  | error e => simp [bind, Except.bind]
  | ok a => simp [bind, Except.bind]

theorem map_error_iff {f : α → β} : x.map f = .error e ↔ x = .error e := by
  cases x with
  | error e => simp [Except.map]
  | ok a => simp [Except.map]

end Steps

theorem under_error {α : Type} {segment : String} {x : Decoded α} {e : Located}
    (failed : under segment x = .error e) :
    ∃ inner, x = .error inner ∧ e = ⟨segment :: inner.segments, inner.fault⟩ := by
  cases x with
  | error inner => exact ⟨inner, rfl, (Except.error.inj failed).symm⟩
  | ok a => cases failed

section Keywords
variable {members : List (String × Json)} {key : String} {e : Located}

/-- An error about the value of a keyword. -/
def AtKeyword (members : List (String × Json)) (key : String) (e : Located) : Prop :=
  ∃ v segments, Members.get? key members = some v ∧ e.segments = key :: segments ∧
    BadValue key v segments e.fault

theorem count_error (named : key ∈ countKeys) (failed : count members key = .error e) :
    AtKeyword members key e := by
  unfold count at failed
  split at failed
  · cases failed
  · next text given =>
    split at failed
    · cases failed
    · next unread =>
      obtain rfl := Except.error.inj failed
      exact ⟨_, [], given, rfl, .count named unread⟩
  · next v other given =>
    obtain rfl := Except.error.inj failed
    refine ⟨v, [], given, rfl, .notCount named ?_⟩
    cases v <;> simp_all [Json.kind]

theorem stringsFrom_error {index : Nat} {items : List Json}
    (failed : Decode.stringsFrom index items = .error e) :
    ∃ i v, items[i]? = some v ∧ v.kind ≠ .string ∧
      e = ⟨[Number.renderNat (index + i)], .notString v.kind⟩ := by
  induction items generalizing index with
  | nil => cases failed
  | cons head rest ih =>
    cases head with
    | str s =>
      rw [Decode.stringsFrom] at failed
      obtain ⟨i, v, stands, other, place⟩ := ih (map_error_iff.mp failed)
      exact ⟨i + 1, v, stands, other, by rw [place, Nat.add_assoc, Nat.add_comm 1 i]⟩
    | _ =>
      obtain rfl := Except.error.inj failed
      exact ⟨0, _, rfl, by simp [Json.kind], rfl⟩

theorem strings_error (named : key ∈ listKeys) (failed : strings members key = .error e) :
    AtKeyword members key e := by
  unfold strings at failed
  split at failed
  · cases failed
  · next items given =>
    obtain ⟨inner, inside, rfl⟩ := under_error (map_error_iff.mp failed)
    obtain ⟨i, v, stands, other, rfl⟩ := stringsFrom_error inside
    rw [Nat.zero_add]
    exact ⟨_, _, given, rfl, .item named stands other⟩
  · next v other given =>
    obtain rfl := Except.error.inj failed
    refine ⟨v, [], given, rfl, .list named ?_⟩
    cases v <;> simp_all [Json.kind]

theorem format_error (failed : formatName members = .error e) :
    AtKeyword members "format" e := by
  unfold formatName at failed
  split at failed
  · cases failed
  · cases failed
  · next v other given =>
    obtain rfl := Except.error.inj failed
    refine ⟨v, [], given, rfl, .format ?_⟩
    cases v <;> simp_all [Json.kind]

/-- A bound that is spelled in one way or the other fails only over its text. -/
theorem spelled_error {integer : Bool} {v : Json} {text : String} (named : key ∈ boundKeys)
    (spelled : BoundText v text) (given : Members.get? key members = some v)
    (failed : bound integer members key = .error e) : AtKeyword members key e := by
  have unread : (if integer then
        if (Number.parseInt text.toList).isSome then .ok (some text)
        else inMember key (.notInteger text)
      else
        if (Number.Decimal.parse? text).isSome then .ok (some text)
        else inMember key (.notDecimal text)) = Except.error e := by
    cases spelled <;> simpa [bound, given] using failed
  split at unread
  · split at unread
    · cases unread
    · next refused =>
      obtain rfl := Except.error.inj unread
      exact ⟨v, [], given, rfl, .integer named spelled (by simpa using refused)⟩
  · split at unread
    · cases unread
    · next refused =>
      obtain rfl := Except.error.inj unread
      exact ⟨v, [], given, rfl, .decimal named spelled (by simpa using refused)⟩

theorem bound_error {integer : Bool} (named : key ∈ boundKeys)
    (failed : bound integer members key = .error e) : AtKeyword members key e := by
  cases given : Members.get? key members with
  | none => simp [bound, given] at failed
  | some v =>
    cases v with
    | num text => exact spelled_error named (.num text) given failed
    | str text => exact spelled_error named (.str text) given failed
    | _ =>
      simp only [bound, given] at failed
      obtain rfl := Except.error.inj failed
      exact ⟨_, [], given, rfl, .notBound named (by simp [Json.kind]) (by simp [Json.kind])⟩

theorem bounds_error {integer : Bool} (failed : bounds integer members = .error e) :
    ∃ key ∈ boundKeys, AtKeyword members key e := by
  rcases bind_error_iff.mp failed with low | ⟨lo, -, rest⟩
  · exact ⟨"minimum", by decide, bound_error (by decide) low⟩
  · rcases bind_error_iff.mp rest with high | ⟨hi, -, done⟩
    · exact ⟨"maximum", by decide, bound_error (by decide) high⟩
    · cases done

theorem stringSchema_error (failed : stringSchema members = .error e) :
    ∃ key ∈ plainKeys "string", AtKeyword members key e := by
  rcases bind_error_iff.mp failed with low | ⟨lo, -, rest⟩
  · exact ⟨"minLength", by decide, count_error (by decide) low⟩
  rcases bind_error_iff.mp rest with high | ⟨hi, -, rest⟩
  · exact ⟨"maxLength", by decide, count_error (by decide) high⟩
  rcases bind_error_iff.mp rest with listed | ⟨enum, -, rest⟩
  · exact ⟨"enum", by decide, strings_error (by decide) listed⟩
  rcases bind_error_iff.mp rest with formatted | ⟨format, -, done⟩
  · exact ⟨"format", by decide, format_error formatted⟩
  · cases done

theorem AtKeyword.refused {type : String} (at_ : AtKeyword members key e)
    (has : HasType members type) (read : key ∈ plainKeys type) :
    Refused (.obj members) e.segments e.fault := by
  obtain ⟨v, segments, given, place, bad⟩ := at_
  rw [place]
  exact .keyword has read given bad

end Keywords

section Inside
variable {members : List (String × Json)} {e : Located}

theorem each_error {values : List (String × Json)} (failed : decodeEach values = .error e) :
    ∃ m ∈ values, ∃ inner, decodeTree m.2 = .error inner ∧
      e = ⟨m.1 :: inner.segments, inner.fault⟩ := by
  induction values with
  | nil => cases failed
  | cons head rest ih =>
    obtain ⟨key, v⟩ := head
    rw [decodeEach] at failed
    split at failed
    · next e' first =>
      obtain rfl := Except.error.inj failed
      obtain ⟨inner, inside, place⟩ := under_error first
      exact ⟨(key, v), List.mem_cons_self, inner, inside, place⟩
    · obtain ⟨m, member, found⟩ := ih (map_error_iff.mp failed)
      exact ⟨m, List.mem_cons_of_mem _ member, found⟩

theorem properties_error (failed : decodeProperties members = .error e) :
    ∃ v, Members.get? "properties" members = some v ∧
      ((v.kind ≠ .object ∧ e = ⟨["properties"], .notObject v.kind⟩) ∨
        ∃ values, v = .obj values ∧ ∃ m ∈ values, ∃ inner, decodeTree m.2 = .error inner ∧
          e = ⟨"properties" :: m.1 :: inner.segments, inner.fault⟩) := by
  induction members with
  | nil => simp [decodeProperties] at failed
  | cons head rest ih =>
    obtain ⟨key, v⟩ := head
    rw [Members.get?]
    by_cases here : key = "properties"
    · rw [if_pos here]
      refine ⟨v, rfl, ?_⟩
      cases v with
      | obj values =>
        rw [decodeProperties, if_pos here] at failed
        obtain ⟨middle, inside, rfl⟩ := under_error (map_error_iff.mp failed)
        obtain ⟨m, member, inner, deeper, rfl⟩ := each_error inside
        exact .inr ⟨values, rfl, m, member, inner, deeper, rfl⟩
      | _ =>
        simp only [decodeProperties, if_pos here] at failed
        exact .inl ⟨by simp [Json.kind], (Except.error.inj failed).symm⟩
    · rw [if_neg here]
      apply ih
      cases v <;> simpa only [decodeProperties, if_neg here] using failed

theorem additional_error (failed : decodeAdditional members = .error e) :
    ∃ v inner, Members.get? "additionalProperties" members = some v ∧
      (isBool v = false ∧ isEmptyObject v = false) ∧ decodeTree v = .error inner ∧
        e = ⟨"additionalProperties" :: inner.segments, inner.fault⟩ := by
  induction members with
  | nil => simp [decodeAdditional] at failed
  | cons head rest ih =>
    obtain ⟨key, v⟩ := head
    rw [Members.get?]
    rw [decodeAdditional] at failed
    split at failed
    · next here =>
      rw [if_pos here]
      split at failed
      · cases failed
      · next schema =>
        obtain ⟨inner, inside, place⟩ := under_error (map_error_iff.mp failed)
        exact ⟨v, inner, rfl, by simpa using schema, inside, place⟩
    · next elsewhere =>
      rw [if_neg elsewhere]
      exact ih failed

theorem items_error (failed : decodeItems members = .error e) :
    (Members.get? "items" members = none ∧ e = ⟨[], .noItems⟩) ∨
      ∃ v inner, Members.get? "items" members = some v ∧ decodeTree v = .error inner ∧
        e = ⟨"items" :: inner.segments, inner.fault⟩ := by
  induction members with
  | nil => exact .inl ⟨rfl, (Except.error.inj failed).symm⟩
  | cons head rest ih =>
    obtain ⟨key, v⟩ := head
    rw [Members.get?]
    rw [decodeItems] at failed
    split at failed
    · next here =>
      rw [if_pos here]
      obtain ⟨inner, inside, place⟩ := under_error failed
      exact .inr ⟨v, inner, rfl, inside, place⟩
    · next elsewhere =>
      rw [if_neg elsewhere]
      exact ih failed

end Inside

/-- Errors of the decoder are broken rules. -/
theorem decode_refused {v : Json} {e : Located} (failed : decodeTree v = .error e) :
    Refused v e.segments e.fault := by
  induction measure : v.size using Nat.strongRecOn generalizing v e with
  | ind size smaller =>
    cases v with
    | obj members =>
      have inside : ∀ {key : String} {w : Json} {inner : Located},
          Members.get? key members = some w → decodeTree w = .error inner →
            Refused w inner.segments inner.fault := by
        intro key w inner given deeper
        have fits := Json.size_of_member (Members.mem_of_get given)
        exact smaller w.size (by rw [← measure]; exact fits) deeper rfl
      rw [decodeTree] at failed
      split at failed
      · cases failed
      · next v other given =>
        obtain rfl := Except.error.inj failed
        refine .reference given ?_
        cases v <;> simp_all [Json.kind]
      · next direct =>
        split at failed
        · next absent =>
          obtain rfl := Except.error.inj failed
          exact .noType direct absent
        · next type typed =>
          split at failed
          · next object =>
            subst object
            have has : HasType members "object" := ⟨direct, typed⟩
            rcases bind_error_iff.mp failed with declared | ⟨properties, -, rest⟩
            · obtain ⟨v, given, ⟨other, rfl⟩ | ⟨values, rfl, m, member, inner, deeper, rfl⟩⟩ :=
                properties_error declared
              · exact .properties has given other
              · have outer := Json.size_of_member (Members.mem_of_get given)
                have fits := Json.size_of_member member
                exact .property has given member
                  (smaller m.2.size (by rw [← measure]; exact Nat.lt_trans fits outer) deeper rfl)
            rcases bind_error_iff.mp rest with listed | ⟨required, -, rest⟩
            · exact (strings_error (by decide) listed).refused has (by decide)
            rcases bind_error_iff.mp rest with others | ⟨additional, -, done⟩
            · obtain ⟨v, inner, given, schema, deeper, rfl⟩ := additional_error others
              exact .additional has given schema (inside given deeper)
            · cases done
          split at failed
          · next array =>
            subst array
            have has : HasType members "array" := ⟨direct, typed⟩
            rcases bind_error_iff.mp failed with inner | ⟨items, -, rest⟩
            · rcases items_error inner with ⟨absent, rfl⟩ | ⟨v, inner, given, deeper, rfl⟩
              · exact .noItems has absent
              · exact .items has given (inside given deeper)
            rcases bind_error_iff.mp rest with low | ⟨lo, -, rest⟩
            · exact (count_error (by decide) low).refused has (by decide)
            rcases bind_error_iff.mp rest with high | ⟨hi, -, done⟩
            · exact (count_error (by decide) high).refused has (by decide)
            · cases done
          split at failed
          · next string =>
            subst string
            obtain ⟨key, read, at_⟩ := stringSchema_error failed
            exact at_.refused ⟨direct, typed⟩ read
          split at failed
          · next number =>
            subst number
            obtain ⟨key, read, at_⟩ := bounds_error (map_error_iff.mp failed)
            exact at_.refused ⟨direct, typed⟩ (by simpa [plainKeys] using read)
          split at failed
          · next integer =>
            subst integer
            obtain ⟨key, read, at_⟩ := bounds_error (map_error_iff.mp failed)
            exact at_.refused ⟨direct, typed⟩ (by simpa [plainKeys] using read)
          split at failed
          · cases failed
          · next notObject notArray notString notNumber notInteger notBoolean =>
            obtain rfl := Except.error.inj failed
            exact .typeName ⟨direct, typed⟩ (by simp [Subset.Problem.schemaTypes, *])
        · next v other given =>
          obtain rfl := Except.error.inj failed
          refine .typeKind direct given ?_
          cases v <;> simp_all [Json.kind]
    | _ =>
      obtain rfl := Except.error.inj failed
      exact .notSchema (by simp [Json.kind])

end SchemaForge.Schema
