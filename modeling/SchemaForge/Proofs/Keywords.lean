import SchemaForge.Proofs.KeyOrder
import SchemaForge.Proofs.Refusals

/-!
Which keywords count. A schema object is read by looking keywords up: its reference if it has one,
else its type and the keywords of that type. Neither their order nor any other keyword makes a
difference to what is decoded, or to the error that is found first, at any depth of the schema.
-/
namespace SchemaForge

theorem Members.get_append_left {α : Type} {members more : List (String × α)} {key : String}
    (absent : ∀ m ∈ more, m.1 ≠ key) : get? key (members ++ more) = get? key members := by
  induction members with
  | nil =>
    rw [List.nil_append, get?, get_none_iff]
    intro known
    obtain ⟨m, member, same⟩ := List.mem_map.mp known
    exact absent m member same
  | cons head rest ih =>
    obtain ⟨k, v⟩ := head
    rw [List.cons_append, get?, get?, ih]

namespace Schema
open Decode

/-! ### The keywords of a schema -/

/-- Keywords with schemas in their values, by the type that reads them. -/
def schemaKeys (type : String) : List String :=
  if type = "object" then ["properties", "additionalProperties"]
  else if type = "array" then ["items"]
  else []

/-- The keywords that are read in a schema object. Beside a reference nothing is, and without a
    type that is a text no more than its reference and its type. -/
def readKeys (members : List (String × Json)) : List String :=
  match Members.get? "$ref" members, Members.get? "type" members with
  | some _, _ => ["$ref"]
  | none, some (.str type) => "$ref" :: "type" :: (schemaKeys type ++ plainKeys type)
  | none, _ => ["$ref", "type"]

mutual

/-- Schemas that differ in the order of keywords and in keywords that are not read, in the schema
    object itself or in any that is inside it. An object of `additionalProperties` is empty in both
    or in neither. -/
inductive Redrafted : Json → Json → Prop
  | same (v : Json) : Redrafted v v
  | schema {members others kept kept' dropped added : List (String × Json)}
      (before : members.Perm (kept ++ dropped)) (after : others.Perm (kept' ++ added))
      (each : RedraftedMembers kept kept')
      (unread : ∀ m ∈ dropped ++ added, m.1 ∉ readKeys members) :
      Redrafted (.obj members) (.obj others)

/-- The same keywords in the same order. Where a value is or holds schemas these may be
    redrafted. -/
inductive RedraftedMembers : List (String × Json) → List (String × Json) → Prop
  | nil : RedraftedMembers [] []
  | same (m : String × Json) {members others : List (String × Json)}
      (rest : RedraftedMembers members others) : RedraftedMembers (m :: members) (m :: others)
  | properties {values values' members others : List (String × Json)}
      (inner : RedraftedProperties values values') (rest : RedraftedMembers members others) :
      RedraftedMembers (("properties", .obj values) :: members)
        (("properties", .obj values') :: others)
  | items {v w : Json} {members others : List (String × Json)} (inner : Redrafted v w)
      (rest : RedraftedMembers members others) :
      RedraftedMembers (("items", v) :: members) (("items", w) :: others)
  | additional {v w : Json} {members others : List (String × Json)} (inner : Redrafted v w)
      (bare : v = .obj [] ↔ w = .obj []) (rest : RedraftedMembers members others) :
      RedraftedMembers (("additionalProperties", v) :: members)
        (("additionalProperties", w) :: others)

/-- The same properties in the same order, with schemas that are redrafted. -/
inductive RedraftedProperties : List (String × Json) → List (String × Json) → Prop
  | nil : RedraftedProperties [] []
  | cons (name : String) {v w : Json} {values others : List (String × Json)}
      (inner : Redrafted v w) (rest : RedraftedProperties values others) :
      RedraftedProperties ((name, v) :: values) ((name, w) :: others)

end

/-! ### Decoding by lookups -/

def propertiesAt : Option Json → Decoded (Option (List (String × Schema)))
  | none => .ok none
  | some (.obj values) => (under "properties" (decodeEach values)).map some
  | some v => inMember "properties" (.notObject v.kind)

def additionalAt : Option Json → Decoded (Option Schema)
  | none => .ok none
  | some v =>
    if isBool v || isEmptyObject v then .ok none
    else (under "additionalProperties" (decodeTree v)).map some

def itemsAt : Option Json → Decoded Schema
  | none => here .noItems
  | some v => under "items" (decodeTree v)

theorem decodeProperties_eq (members : List (String × Json)) :
    decodeProperties members = propertiesAt (Members.get? "properties" members) := by
  induction members with
  | nil => rfl
  | cons head rest ih =>
    obtain ⟨key, v⟩ := head
    rw [Members.get?]
    by_cases found : key = "properties"
    · cases v <;> simp only [decodeProperties, found, if_true] <;> rfl
    · cases v <;> simp only [decodeProperties, found, if_false, ih]

theorem decodeAdditional_eq (members : List (String × Json)) :
    decodeAdditional members = additionalAt (Members.get? "additionalProperties" members) := by
  induction members with
  | nil => rfl
  | cons head rest ih =>
    obtain ⟨key, v⟩ := head
    rw [Members.get?, decodeAdditional]
    by_cases found : key = "additionalProperties"
    · rw [if_pos found, if_pos found, additionalAt]
    · rw [if_neg found, if_neg found, ih]

theorem decodeItems_eq (members : List (String × Json)) :
    decodeItems members = itemsAt (Members.get? "items" members) := by
  induction members with
  | nil => rfl
  | cons head rest ih =>
    obtain ⟨key, v⟩ := head
    rw [Members.get?, decodeItems]
    by_cases found : key = "items"
    · rw [if_pos found, if_pos found, itemsAt]
    · rw [if_neg found, if_neg found, ih]

/-- What stands under a keyword in two schema objects makes no difference to the decoder. -/
structure ReadAlike (key : String) (a b : Option Json) : Prop where
  plain : key ∉ ["properties", "additionalProperties", "items"] → a = b
  properties : key = "properties" → propertiesAt a = propertiesAt b
  additional : key = "additionalProperties" → additionalAt a = additionalAt b
  items : key = "items" → itemsAt a = itemsAt b

theorem ReadAlike.of_eq {key : String} {a b : Option Json} (same : a = b) : ReadAlike key a b := by
  subst same
  exact ⟨fun _ => rfl, fun _ => rfl, fun _ => rfl, fun _ => rfl⟩

theorem ReadAlike.ofProperties {values others : List (String × Json)}
    (each : decodeEach values = decodeEach others) :
    ReadAlike "properties" (some (.obj values)) (some (.obj others)) := by
  refine ⟨by simp, fun _ => ?_, by simp, by simp⟩
  rw [propertiesAt, propertiesAt, each]

theorem ReadAlike.ofItems {v w : Json} (inner : decodeTree v = decodeTree w) :
    ReadAlike "items" (some v) (some w) := by
  refine ⟨by simp, by simp, by simp, fun _ => ?_⟩
  rw [itemsAt, itemsAt, inner]

theorem ReadAlike.ofAdditional {v w : Json} (inner : decodeTree v = decodeTree w)
    (none : (isBool v || isEmptyObject v) = (isBool w || isEmptyObject w)) :
    ReadAlike "additionalProperties" (some v) (some w) := by
  refine ⟨by simp, by simp, fun _ => ?_, by simp⟩
  rw [additionalAt, additionalAt, inner, none]

/-- Looking a keyword up stops at the first member or goes on behind it, in both objects. -/
theorem ReadAlike.cons {k key : String} {v w : Json} {members others : List (String × Json)}
    (first : ReadAlike k (some v) (some w))
    (later : ReadAlike key (Members.get? key members) (Members.get? key others)) :
    ReadAlike key (Members.get? key ((k, v) :: members)) (Members.get? key ((k, w) :: others)) := by
  rw [Members.get?, Members.get?]
  by_cases here : k = key
  · rw [if_pos here, if_pos here, ← here]
    exact first
  · rw [if_neg here, if_neg here]
    exact later

section Keys
variable {members others : List (String × Json)} {key type : String}

theorem reference_read (members : List (String × Json)) : "$ref" ∈ readKeys members := by
  unfold readKeys
  split <;> simp

theorem type_read (direct : Members.get? "$ref" members = none) : "type" ∈ readKeys members := by
  unfold readKeys
  rw [direct]
  split
  · contradiction
  · simp
  · simp

theorem readKeys_typed (has : HasType members type) :
    readKeys members = "$ref" :: "type" :: (schemaKeys type ++ plainKeys type) := by
  rw [readKeys, has.direct, has.typed]

theorem plainKeys_plain (read : key ∈ plainKeys type) :
    key ∉ ["properties", "additionalProperties", "items"] := by
  have apart : ∀ key ∈ ["required", "minItems", "maxItems", "minLength", "maxLength", "enum",
      "format", "minimum", "maximum"], key ∉ ["properties", "additionalProperties", "items"] := by
    decide
  apply apart
  unfold plainKeys at read
  split_ifs at read <;> simp [boundKeys] at read ⊢ <;> tauto

theorem count_congr (same : Members.get? key members = Members.get? key others) :
    count members key = count others key := by
  rw [count, count, same]

theorem strings_congr (same : Members.get? key members = Members.get? key others) :
    strings members key = strings others key := by
  rw [strings, strings, same]

theorem bound_congr (integer : Bool) (same : Members.get? key members = Members.get? key others) :
    bound integer members key = bound integer others key := by
  rw [bound, bound, same]

theorem formatName_congr (same : Members.get? "format" members = Members.get? "format" others) :
    formatName members = formatName others := by
  rw [formatName, formatName, same]

theorem bounds_congr (integer : Bool) (same : ∀ key ∈ boundKeys,
      Members.get? key members = Members.get? key others) :
    bounds integer members = bounds integer others := by
  rw [bounds, bounds, bound_congr integer (same "minimum" (by decide)),
    bound_congr integer (same "maximum" (by decide))]

theorem stringSchema_congr (same : ∀ key ∈ plainKeys "string",
      Members.get? key members = Members.get? key others) :
    stringSchema members = stringSchema others := by
  rw [stringSchema, stringSchema, count_congr (same "minLength" (by decide)),
    count_congr (same "maxLength" (by decide)), strings_congr (same "enum" (by decide)),
    formatName_congr (same "format" (by decide))]

/-- A schema object is decoded from what stands under the keywords that are read. -/
theorem decode_alike (alike : ∀ key ∈ readKeys members,
      ReadAlike key (Members.get? key members) (Members.get? key others)) :
    decodeTree (.obj members) = decodeTree (.obj others) := by
  have reference := (alike "$ref" (reference_read members)).plain (by decide)
  rw [decodeTree, decodeTree, ← reference]
  cases direct : Members.get? "$ref" members with
  | some v => cases v <;> rfl
  | none =>
    simp only
    rw [← (alike "type" (type_read direct)).plain (by decide)]
    cases typed : Members.get? "type" members with
    | none => rfl
    | some v =>
      cases v with
      | str type =>
        rw [readKeys_typed ⟨direct, typed⟩] at alike
        have plain : ∀ key ∈ plainKeys type,
            Members.get? key members = Members.get? key others := fun key read =>
          (alike key (by simp [read])).plain (plainKeys_plain read)
        simp only
        by_cases object : type = "object"
        · subst object
          rw [if_pos rfl, if_pos rfl, decodeProperties_eq, decodeProperties_eq,
            (alike "properties" (by decide)).properties rfl, decodeAdditional_eq,
            decodeAdditional_eq, (alike "additionalProperties" (by decide)).additional rfl,
            strings_congr (plain "required" (by decide))]
        rw [if_neg object, if_neg object]
        by_cases array : type = "array"
        · subst array
          rw [if_pos rfl, if_pos rfl, decodeItems_eq, decodeItems_eq,
            (alike "items" (by decide)).items rfl, count_congr (plain "minItems" (by decide)),
            count_congr (plain "maxItems" (by decide))]
        rw [if_neg array, if_neg array]
        by_cases string : type = "string"
        · subst string
          rw [if_pos rfl, if_pos rfl, stringSchema_congr plain]
        rw [if_neg string, if_neg string]
        by_cases number : type = "number"
        · subst number
          rw [if_pos rfl, if_pos rfl, bounds_congr false plain]
        rw [if_neg number, if_neg number]
        by_cases integer : type = "integer"
        · subst integer
          rw [if_pos rfl, if_pos rfl, bounds_congr true plain]
        rw [if_neg integer, if_neg integer]
      | _ => rfl

end Keys

/-! ### Redrafted schemas -/

/-- Whether additional members have a schema is the same in both. -/
theorem Redrafted.open_eq {v w : Json} (redrafted : Redrafted v w)
    (bare : v = .obj [] ↔ w = .obj []) :
    (isBool v || isEmptyObject v) = (isBool w || isEmptyObject w) := by
  cases redrafted with
  | same => rfl
  | @schema members others =>
    have empty : ∀ ms : List (String × Json), isEmptyObject (.obj ms) = decide (ms = []) := by
      intro ms
      cases ms <;> rfl
    have same : members = [] ↔ others = [] := by simpa using bare
    simp only [isBool, empty, same]

theorem get_kept {kept more : List (String × Json)} {read : List String}
    (unread : ∀ m ∈ more, m.1 ∉ read) {key : String} (listed : key ∈ read) :
    Members.get? key (kept ++ more) = Members.get? key kept :=
  Members.get_append_left fun m member same => unread m member (same ▸ listed)

-- The recursion is on the derivations, which share members on both sides: `cases` loses sight of it
-- there, so the cases are matched.
mutual

theorem Redrafted.decoded : ∀ {v w : Json}, Redrafted v w → v.unambiguous = true →
    w.unambiguous = true → decodeTree v = decodeTree w
  | _, _, .same _, _, _ => rfl
  | _, _, .schema before after each unread, distinct, distinct' => by
    obtain ⟨once, values⟩ := Json.unambiguous_obj.mp distinct
    obtain ⟨once', values'⟩ := Json.unambiguous_obj.mp distinct'
    have alike := each.alike
      (fun m member => values m (before.mem_iff.mpr (List.mem_append_left _ member)))
      (fun m member => values' m (after.mem_iff.mpr (List.mem_append_left _ member)))
    refine decode_alike fun key read => ?_
    rw [Members.get_perm before once, Members.get_perm after once',
      get_kept (fun m member => unread m (List.mem_append_left _ member)) read,
      get_kept (fun m member => unread m (List.mem_append_right _ member)) read]
    exact alike key

theorem RedraftedMembers.alike : ∀ {members others : List (String × Json)},
    RedraftedMembers members others → (∀ m ∈ members, m.2.unambiguous = true) →
      (∀ m ∈ others, m.2.unambiguous = true) → ∀ key,
        ReadAlike key (Members.get? key members) (Members.get? key others)
  | _, _, .nil, _, _, _ => .of_eq rfl
  | _, _, .same _ rest, distinct, distinct', key =>
    .cons (.of_eq rfl) (rest.alike (List.forall_mem_cons.mp distinct).2
      (List.forall_mem_cons.mp distinct').2 key)
  | _, _, .properties inner rest, distinct, distinct', key => by
    obtain ⟨first, distinct⟩ := List.forall_mem_cons.mp distinct
    obtain ⟨first', distinct'⟩ := List.forall_mem_cons.mp distinct'
    have same := inner.decoded (Json.unambiguous_obj.mp first).2 (Json.unambiguous_obj.mp first').2
    exact .cons (.ofProperties same) (rest.alike distinct distinct' key)
  | _, _, .items inner rest, distinct, distinct', key => by
    obtain ⟨first, distinct⟩ := List.forall_mem_cons.mp distinct
    obtain ⟨first', distinct'⟩ := List.forall_mem_cons.mp distinct'
    exact .cons (.ofItems (inner.decoded first first')) (rest.alike distinct distinct' key)
  | _, _, .additional inner bare rest, distinct, distinct', key => by
    obtain ⟨first, distinct⟩ := List.forall_mem_cons.mp distinct
    obtain ⟨first', distinct'⟩ := List.forall_mem_cons.mp distinct'
    exact .cons (.ofAdditional (inner.decoded first first') (inner.open_eq bare))
      (rest.alike distinct distinct' key)

theorem RedraftedProperties.decoded : ∀ {values others : List (String × Json)},
    RedraftedProperties values others → (∀ m ∈ values, m.2.unambiguous = true) →
      (∀ m ∈ others, m.2.unambiguous = true) → decodeEach values = decodeEach others
  | _, _, .nil, _, _ => rfl
  | _, _, .cons _ inner rest, distinct, distinct' => by
    obtain ⟨first, distinct⟩ := List.forall_mem_cons.mp distinct
    obtain ⟨first', distinct'⟩ := List.forall_mem_cons.mp distinct'
    rw [decodeEach, decodeEach, inner.decoded first first', rest.decoded distinct distinct']

end

/-! ### No keyword is listed in vain -/

section Null
variable {members : List (String × Json)} {key : String} {s : Schema}

theorem read_of_reference {v : Json} (given : Members.get? "$ref" members = some v)
    (read : key ∈ readKeys members) : key = "$ref" := by
  unfold readKeys at read
  rw [given] at read
  exact List.mem_singleton.mp read

-- Null is no value for any keyword, so a schema that is decoded has none under those of its type.
section Typed
variable (direct : Members.get? "$ref" members = none) (done : decodeTree (.obj members) = .ok s)
  (null : Members.get? key members = some .null)
include direct done null

theorem object_keyword (typed : Members.get? "type" members = some (.str "object")) :
    key ∉ ["properties", "additionalProperties", "required"] := by
  obtain ⟨properties, required, additional, declared, listed, others, -⟩ :=
    object_parts direct done typed
  intro named
  simp only [List.mem_cons, List.not_mem_nil, or_false] at named
  rcases named with rfl | rfl | rfl
  · simp [decodeProperties_eq, null, propertiesAt, inMember] at declared
  · simp [decodeAdditional_eq, null, additionalAt, isBool, isEmptyObject, decodeTree, here, under,
      Except.map] at others
  · simp [strings, null, inMember] at listed

theorem array_keyword (typed : Members.get? "type" members = some (.str "array")) :
    key ∉ ["items", "minItems", "maxItems"] := by
  obtain ⟨items, lo, hi, inner, least, most, -⟩ := array_parts direct done typed
  intro named
  simp only [List.mem_cons, List.not_mem_nil, or_false] at named
  rcases named with rfl | rfl | rfl
  · simp [decodeItems_eq, null, itemsAt, decodeTree, here, under] at inner
  · simp [count, null, inMember] at least
  · simp [count, null, inMember] at most

theorem string_keyword (typed : Members.get? "type" members = some (.str "string")) :
    key ∉ ["minLength", "maxLength", "enum", "format"] := by
  obtain ⟨lo, hi, enum, format, least, most, listed, formatted, -⟩ := string_parts direct done typed
  intro named
  simp only [List.mem_cons, List.not_mem_nil, or_false] at named
  rcases named with rfl | rfl | rfl | rfl
  · simp [count, null, inMember] at least
  · simp [count, null, inMember] at most
  · simp [strings, null, inMember] at listed
  · simp [formatName, null, inMember] at formatted

theorem range_keyword {integer : Bool}
    (typed : Members.get? "type" members = some (.str (if integer then "integer" else "number"))) :
    key ∉ boundKeys := by
  obtain ⟨lo, hi, read⟩ := range_parts direct done typed
  obtain ⟨lower, least, rest⟩ := bind_ok_iff.mp read
  obtain ⟨upper, most, -⟩ := bind_ok_iff.mp rest
  intro named
  simp only [boundKeys, List.mem_cons, List.not_mem_nil, or_false] at named
  rcases named with rfl | rfl
  · simp [bound, null, inMember] at least
  · simp [bound, null, inMember] at most

end Typed

/-- No keyword that is read may be null. -/
theorem null_refused (read : key ∈ readKeys members)
    (null : Members.get? key members = some .null) : decodeTree (.obj members) ≠ .ok s := by
  intro done
  cases direct : Members.get? "$ref" members with
  | some v =>
    obtain rfl := read_of_reference direct read
    obtain ⟨path, rfl, -⟩ := decoded_ref direct done
    cases direct.symm.trans null
  | none =>
    obtain ⟨type, typed⟩ := decoded_type direct done
    have own : key ∈ schemaKeys type ++ plainKeys type := by
      rw [readKeys_typed ⟨direct, typed⟩, List.mem_cons, List.mem_cons] at read
      rcases read with rfl | rfl | own
      · cases direct.symm.trans null
      · cases typed.symm.trans null
      · exact own
    by_cases object : type = "object"
    · subst object
      exact object_keyword direct done null typed own
    by_cases array : type = "array"
    · subst array
      exact array_keyword direct done null typed own
    by_cases string : type = "string"
    · subst string
      exact string_keyword direct done null typed own
    by_cases number : type = "number"
    · subst number
      exact @range_keyword _ _ _ direct done null false typed own
    by_cases integer : type = "integer"
    · subst integer
      exact @range_keyword _ _ _ direct done null true typed own
    · simp [schemaKeys, plainKeys, object, array, string, number, integer] at own

/-- A keyword that is read is still read when it is null. -/
theorem read_set (read : key ∈ readKeys members) (v : Json) :
    key ∈ readKeys (Members.set key v members) := by
  by_cases reference : key = "$ref"
  · rw [reference]
    exact reference_read _
  have direct : Members.get? "$ref" members = none := by
    by_contra given
    obtain ⟨w, given⟩ := Option.ne_none_iff_exists'.mp given
    exact reference (read_of_reference given read)
  have kept := Members.get?_set_of_ne (Ne.symm reference) v members
  by_cases typed : key = "type"
  · rw [typed] at kept ⊢
    exact type_read (kept.trans direct)
  · rw [readKeys, kept, Members.get?_set_of_ne (Ne.symm typed) v members]
    exact read

/-- In a schema that decodes, the keywords that are read are those whose values matter. -/
theorem read_iff (decoded : decodeTree (.obj members) = .ok s) (key : String) :
    key ∈ readKeys members ↔
      ∃ v, decodeTree (.obj (Members.set key v members)) ≠ decodeTree (.obj members) := by
  constructor
  · intro read
    refine ⟨.null, ?_⟩
    rw [decoded]
    exact null_refused (read_set read .null) (Members.get?_set_self key _ members)
  · rintro ⟨v, changed⟩
    by_contra unread
    refine changed (decode_alike fun other read => .of_eq ?_).symm
    have apart : other ≠ key := fun same => unread (same ▸ read)
    rw [Members.get?_set_of_ne apart]

end Null

/-- Decoding ignores the order of keywords, and those that are not read: schemas that differ in
    nothing else, at any depth, give the same schema or fail with the same error. The keywords that
    are read are those that make a difference. -/
theorem decoding_ignores_unread :
    (∀ v w : Json, v.unambiguous = true → w.unambiguous = true → Redrafted v w →
      decode v = decode w ∧ ∀ base, decodeAt base v = decodeAt base w) ∧
    ∀ members s, decodeTree (.obj members) = .ok s → ∀ key, key ∈ readKeys members ↔
      ∃ v, decodeTree (.obj (Members.set key v members)) ≠ decodeTree (.obj members) := by
  refine ⟨fun v w distinct distinct' redrafted => ?_, fun members s => read_iff⟩
  have same := redrafted.decoded distinct distinct'
  have located : ∀ base, decodeAt base v = decodeAt base w := fun base => by
    rw [decodeAt, decodeAt, same]
  exact ⟨located "#", located⟩

namespace Drafts

/-- An array of references, before and after what stands beside the reference is dropped. -/
def lines : List (String × Json) :=
  [("type", .str "array"), ("items", .obj [("$ref", .str "#/Line"), ("type", .null)])]

def lines' : List (String × Json) :=
  [("type", .str "array"), ("items", .obj [("$ref", .str "#/Line")])]

/-- Numbers from zero, before and after a list of texts is added, which is not for numbers. -/
def numbers : List (String × Json) := [("type", .str "integer"), ("minimum", .num "0")]

def numbers' : List (String × Json) :=
  [("enum", .null), ("minimum", .num "0"), ("type", .str "integer")]

def order : List (String × Json) :=
  [("title", .str "Order"), ("type", .str "object"),
    ("properties", .obj [("lines", .obj lines)]), ("required", .arr [.str "lines"]),
    ("additionalProperties", .obj numbers)]

def order' : List (String × Json) :=
  [("items", .bool false), ("additionalProperties", .obj numbers'),
    ("required", .arr [.str "lines"]), ("properties", .obj [("lines", .obj lines')]),
    ("type", .str "object")]

theorem lines_redrafted : Redrafted (.obj lines) (.obj lines') := by
  have item : Redrafted (.obj [("$ref", .str "#/Line"), ("type", .null)])
      (.obj [("$ref", .str "#/Line")]) :=
    @Redrafted.schema _ _ [("$ref", .str "#/Line")] _ [("type", .null)] [] (.refl _) (.refl _)
      (.same _ .nil) (by decide)
  exact @Redrafted.schema _ _ lines lines' [] [] (.refl _) (.refl _) (.same _ (.items item .nil))
    (by decide)

theorem numbers_redrafted : Redrafted (.obj numbers) (.obj numbers') :=
  @Redrafted.schema _ _ numbers numbers [] [("enum", .null)] (.refl _)
    (List.reverse_perm _).symm (.same _ (.same _ .nil)) (by decide)

end Drafts

theorem reordered_order_decoded :
    decode (.obj Drafts.order) = decode (.obj Drafts.order') ∧
      (decode (.obj Drafts.order)).isOk = true ∧
      ∀ key, key ∈ ["$ref", "type", "properties", "additionalProperties", "required"] ↔
        ∃ v, decodeTree (.obj (Members.set key v Drafts.order)) ≠
          decodeTree (.obj Drafts.order) := by
  obtain ⟨ignored, exactly⟩ := decoding_ignores_unread
  have inner := RedraftedProperties.cons "lines" Drafts.lines_redrafted .nil
  have bare : Json.obj Drafts.numbers = .obj [] ↔ Json.obj Drafts.numbers' = .obj [] := by
    simp [Drafts.numbers, Drafts.numbers']
  have redrafted : Redrafted (.obj Drafts.order) (.obj Drafts.order') :=
    @Redrafted.schema _ _ Drafts.order.tail
      [("type", .str "object"), ("properties", .obj [("lines", .obj Drafts.lines')]),
        ("required", .arr [.str "lines"]), ("additionalProperties", .obj Drafts.numbers')]
      [("title", .str "Order")] [("items", .bool false)]
      (List.perm_append_singleton _ _).symm (List.reverse_perm _).symm
      (.same _ (.properties inner (.same _ (.additional Drafts.numbers_redrafted bare .nil))))
      (by decide)
  obtain ⟨s, decoded, -⟩ := toOption_any_iff.mp (show
    (decodeTree (.obj Drafts.order)).toOption.any (fun _ => true) from by decide +kernel)
  exact ⟨(ignored _ _ (by decide) (by decide) redrafted).1, by decide,
    exactly Drafts.order s decoded⟩

end Schema

end SchemaForge
