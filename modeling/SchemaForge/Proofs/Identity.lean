import SchemaForge.Proofs.Bounds
import SchemaForge.Proofs.Twins

/-!
What a digest says about schemas. Schemas that are decoded from trees with one canonical text are
the same but for the order of properties and for numbers that doubles do not tell apart.
-/
namespace SchemaForge

namespace Schema
open Decode
open Number (Numeral)

/-- Bounds that denote numbers which are not told apart. -/
def SameBound (near : ℚ → ℚ → Prop) (a b : String) : Prop :=
  ∃ q r, Numeral a.toList q ∧ Numeral b.toList r ∧ near q r

def SameCount (near : ℚ → ℚ → Prop) (m n : Nat) : Prop := near m n

/-- Schemas that differ in the order of their properties, and in numbers only as far as these are
    not told apart. -/
inductive Alike (near : ℚ → ℚ → Prop) : Schema → Schema → Prop
  | boolean : Alike near .boolean .boolean
  | string {lo lo' hi hi' : Option Nat} (enum : Option (List String)) (format : String)
      (lower : Option.Rel (SameCount near) lo lo') (upper : Option.Rel (SameCount near) hi hi') :
      Alike near (.string lo hi enum format) (.string lo' hi' enum format)
  | integer {lo lo' hi hi' : Option String} (lower : Option.Rel (SameBound near) lo lo')
      (upper : Option.Rel (SameBound near) hi hi') : Alike near (.integer lo hi) (.integer lo' hi')
  | number {lo lo' hi hi' : Option String} (lower : Option.Rel (SameBound near) lo lo')
      (upper : Option.Rel (SameBound near) hi hi') : Alike near (.number lo hi) (.number lo' hi')
  | array {items items' : Schema} {lo lo' hi hi' : Option Nat} (inner : Alike near items items')
      (lower : Option.Rel (SameCount near) lo lo') (upper : Option.Rel (SameCount near) hi hi') :
      Alike near (.array items lo hi) (.array items' lo' hi')
  | object {xs ys : Option (List (String × Schema))} {more more' : Option Schema}
      (required : List String) (given : xs.isSome = ys.isSome)
      (once : (Members.keys (xs.getD [])).Nodup)
      (names : (Members.keys (xs.getD [])).Perm (Members.keys (ys.getD [])))
      (each : ∀ key s t, Members.get? key (xs.getD []) = some s →
        Members.get? key (ys.getD []) = some t → Alike near s t)
      (unnamed : more.isSome = more'.isSome)
      (others : ∀ s t, more = some s → more' = some t → Alike near s t) :
      Alike near (.object xs required more) (.object ys required more')
  | ref (path : String) : Alike near (.ref path) (.ref path)

structure SameProperties (near : ℚ → ℚ → Prop) (ps qs : List (String × Schema)) : Prop where
  once : (Members.keys ps).Nodup
  names : (Members.keys ps).Perm (Members.keys qs)
  each (key : String) (s t : Schema) : Members.get? key ps = some s →
    Members.get? key qs = some t → Alike near s t

section Twins
variable {fair : String → Prop} {v w : Json} {members others : List (String × Json)}

/-- What is read under a keyword that may be missing. -/
inductive Under {α : Type} (members : List (String × Json)) (key : String) (P : Json → α → Prop) :
    Option α → Prop
  | absent (missing : Members.get? key members = none) : Under members key P none
  | present {v : Json} {a : α} (given : Members.get? key members = some v) (read : P v a) :
      Under members key P (some a)

/-- What is read of twins is related as far as reading relates what it makes of twins. -/
theorem Twins.under {α : Type} {P : Json → α → Prop} {R : α → α → Prop} {key : String}
    {x y : Option α} (twins : Twins fair (.obj members) (.obj others))
    (first : Under members key P x) (second : Under others key P y)
    (related : ∀ v w a b, Members.get? key members = some v → Twins fair v w → P v a → P w b →
      R a b) : Option.Rel R x y := by
  cases first with
  | absent missing =>
    cases second with
    | absent => exact .none
    | present given =>
      rw [twins.absent_iff] at missing
      cases given.symm.trans missing
  | present given read =>
    cases second with
    | absent missing =>
      rw [← twins.absent_iff] at missing
      cases given.symm.trans missing
    | present given' read' => exact .some (related _ _ _ _ given (twins.at given given') read read')

theorem Twins.under_eq {α : Type} {P : Json → α → Prop} {key : String} {x y : Option α}
    (twins : Twins fair (.obj members) (.obj others)) (first : Under members key P x)
    (second : Under others key P y)
    (same : ∀ v w a b, Twins fair v w → P v a → P w b → a = b) : x = y := by
  have related : Option.Rel (· = ·) x y :=
    twins.under first second fun v w a b _ inner => same v w a b inner
  cases related with
  | none => rfl
  | some equal => rw [equal]

/-- What declares nothing is no twin of a schema. -/
theorem Twins.not_declared {m : String × Json} {rest : List (String × Json)}
    (nothing : (isBool v || isEmptyObject v) = true) : ¬ Twins fair v (.obj (m :: rest)) := by
  intro twins
  cases v with
  | bool b =>
    have same := twins.same
    rw [form_meant_obj] at same
    cases same
  | obj members =>
    cases members with
    | nil => exact absurd twins.keys.length_eq (by simp [Members.keys])
    | cons => cases nothing
  | _ => cases nothing

end Twins

section Keywords
variable {members : List (String × Json)} {key : String}

/-- A count is not negative, so nothing is lost when it is taken for a natural number. -/
theorem count_under {found : Option Nat} (decoded : count members key = .ok found) :
    Under members key (fun v (n : Nat) => ∃ text, v = .num text ∧ Numeral text.toList n) found := by
  unfold count at decoded
  split at decoded
  · next missing =>
    obtain rfl := Except.ok.inj decoded
    exact .absent missing
  · next text given =>
    split at decoded
    · next z read =>
      obtain rfl := Except.ok.inj decoded
      obtain ⟨parsed, range⟩ := Option.filter_eq_some_iff.mp read
      have natural : ((z.toNat : Int) : ℚ) = z := by
        rw [Int.toNat_of_nonneg (by simpa using (Bool.and_eq_true_iff.mp range).1)]
      exact .present given ⟨text, rfl, (Number.integer_value_iff parsed _).mpr natural⟩
    · cases decoded
  · cases decoded

theorem bound_under {integer : Bool} {found : Option String}
    (decoded : bound integer members key = .ok found) :
    Under members key (fun v a => (∃ q, Numeral a.toList q) ∧
      (v = .num a ∨ ∃ text, v = .str text ∧ a = Text.trimSpace text)) found := by
  have numeral : ∀ a ∈ found, ∃ q, Numeral a.toList q := by
    intro a member
    have readable := bound_reads decoded a member
    cases integer with
    | true =>
      obtain ⟨n, -, same⟩ := integer_accepts a readable
      exact ⟨_, (same _).mpr rfl⟩
    | false =>
      obtain ⟨x, -, same⟩ := decimal_accepts a readable
      exact ⟨_, (same _).mpr rfl⟩
  rcases bound_given decoded with ⟨missing, rfl⟩ | ⟨text, given, rfl⟩ | ⟨text, given, rfl⟩
  · exact .absent missing
  · exact .present given ⟨numeral _ rfl, .inl rfl⟩
  · exact .present given ⟨numeral _ rfl, .inr ⟨text, rfl, rfl⟩⟩

theorem stringsFrom_ok {index : Nat} {items : List Json} {texts : List String}
    (decoded : stringsFrom index items = .ok texts) : items = texts.map .str := by
  induction items generalizing index texts with
  | nil =>
    obtain rfl := Except.ok.inj decoded
    rfl
  | cons v rest ih =>
    cases v with
    | str s =>
      obtain ⟨others, tail, rfl⟩ := map_ok_iff.mp decoded
      rw [ih tail, List.map_cons]
    | _ => cases decoded

theorem strings_under {found : Option (List String)} (decoded : strings members key = .ok found) :
    Under members key (fun v texts => v = .arr (texts.map .str)) found := by
  unfold strings at decoded
  split at decoded
  · next missing =>
    obtain rfl := Except.ok.inj decoded
    exact .absent missing
  · next items given =>
    obtain ⟨texts, read, rfl⟩ := map_ok_iff.mp decoded
    exact .present given (congrArg Json.arr (stringsFrom_ok (under_ok_iff.mp read)))
  · cases decoded

theorem format_under {name : String} (decoded : formatName members = .ok name) :
    ∃ found, Under members "format" (fun v s => v = .str s) found ∧ name = found.getD "" := by
  unfold formatName at decoded
  split at decoded
  · next missing => exact ⟨none, .absent missing, (Except.ok.inj decoded).symm⟩
  · next s given => exact ⟨some s, .present given rfl, (Except.ok.inj decoded).symm⟩
  · cases decoded

theorem properties_under {found : Option (List (String × Schema))}
    (decoded : decodeProperties members = .ok found) :
    Under members "properties" (fun v properties => ∃ values, v = .obj values ∧
      List.Forall₂ PropertyFrom values properties) found := by
  cases found with
  | some properties =>
    obtain ⟨values, given, each⟩ := properties_decoded decoded
    exact .present given ⟨values, rfl, each⟩
  | none =>
    refine .absent ?_
    induction members with
    | nil => rfl
    | cons m rest ih =>
      obtain ⟨name, v⟩ := m
      rw [Members.get?]
      by_cases here : name = "properties"
      · cases v with
        | obj values =>
          rw [decodeProperties, if_pos here] at decoded
          obtain ⟨properties, -, same⟩ := map_ok_iff.mp decoded
          cases same
        | _ => simp [decodeProperties, here, inMember] at decoded
      · rw [if_neg here]
        apply ih
        cases v <;> simpa only [decodeProperties, if_neg here] using decoded

/-- Nothing is declared by a missing keyword, a boolean and an empty object. -/
theorem additional_absent (decoded : decodeAdditional members = .ok none) :
    Members.get? "additionalProperties" members = none ∨
      ∃ v, Members.get? "additionalProperties" members = some v ∧
        (isBool v || isEmptyObject v) = true := by
  induction members with
  | nil => exact .inl rfl
  | cons m rest ih =>
    obtain ⟨name, v⟩ := m
    rw [Members.get?]
    rw [decodeAdditional] at decoded
    by_cases here : name = "additionalProperties"
    · rw [if_pos here] at decoded ⊢
      refine .inr ⟨v, rfl, ?_⟩
      by_contra declares
      rw [if_neg declares] at decoded
      obtain ⟨s, -, same⟩ := map_ok_iff.mp decoded
      cases same
    · rw [if_neg here] at decoded ⊢
      exact ih decoded

end Keywords

theorem decoded_object {v : Json} {s : Schema} (decoded : decodeTree v = .ok s) :
    ∃ m rest, v = .obj (m :: rest) := by
  cases v with
  | obj members =>
    cases members with
    | nil => cases decoded
    | cons m rest => exact ⟨m, rest, rfl⟩
  | _ => cases decoded

theorem Twins.undeclared {fair : String → Prop} {members others : List (String × Json)} {t : Schema}
    (twins : Twins fair (.obj members) (.obj others))
    (first : decodeAdditional members = .ok none) : decodeAdditional others ≠ .ok (some t) := by
  intro second
  obtain ⟨w, given', tree⟩ := additional_decoded second
  obtain ⟨m, rest, rfl⟩ := decoded_object tree
  obtain missing | ⟨v, given, empty⟩ := additional_absent first
  · rw [twins.absent_iff] at missing
    cases given'.symm.trans missing
  · exact Twins.not_declared empty (twins.at given given')

theorem property_read {key : String} {values : List (String × Json)}
    {properties : List (String × Schema)} {s : Schema}
    (each : List.Forall₂ PropertyFrom values properties)
    (found : Members.get? key properties = some s) :
    ∃ v, Members.get? key values = some v ∧ decodeTree v = .ok s := by
  induction each with
  | nil => cases found
  | cons head _ ih =>
    obtain ⟨same, tree⟩ := head
    rw [Members.get?, same] at found
    rw [Members.get?]
    split at found
    · next here =>
      obtain rfl := Option.some.inj found
      exact ⟨_, if_pos here, tree⟩
    · next elsewhere =>
      rw [if_neg elsewhere]
      exact ih found

theorem properties_keys {values : List (String × Json)} {properties : List (String × Schema)}
    (each : List.Forall₂ PropertyFrom values properties) :
    Members.keys properties = Members.keys values := by
  refine (related_map each ?_).symm
  exact fun _ _ from_ => from_.1.symm

section Numbers
variable {fair : String → Prop} {near : ℚ → ℚ → Prop} (compares : Compares fair near)
  {members others : List (String × Json)} (twins : Twins fair (.obj members) (.obj others))
  {key : String}
include compares twins

theorem Twins.counts {m n : Option Nat} (first : count members key = .ok m)
    (second : count others key = .ok n) : Option.Rel (SameCount near) m n := by
  refine twins.under (count_under first) (count_under second) ?_
  rintro - - i j - inner ⟨a, rfl, numeral⟩ ⟨b, rfl, numeral'⟩
  exact inner.numbers compares numeral numeral'

theorem Twins.bound {integer : Bool} {x y : Option String}
    (first : bound integer members key = .ok x) (second : bound integer others key = .ok y) :
    Option.Rel (SameBound near) x y := by
  refine twins.under (bound_under first) (bound_under second) ?_
  rintro - - a b - inner ⟨⟨q, numeral⟩, rfl | ⟨text, rfl, rfl⟩⟩
    ⟨⟨r, numeral'⟩, rfl | ⟨text', rfl, rfl⟩⟩
  · exact ⟨q, r, numeral, numeral', inner.numbers compares numeral numeral'⟩
  · exact absurd inner (Twins.number_not_text compares numeral)
  · exact absurd inner.symm (Twins.number_not_text compares numeral')
  · -- A bound that is given as a text may be too large for a double, but then the texts agree.
    rw [inner.text]
    exact ⟨r, r, numeral', numeral', compares.refl r⟩

theorem Twins.bounds {integer : Bool} {lo hi lo' hi' : Option String}
    (first : bounds integer members = .ok (lo, hi))
    (second : bounds integer others = .ok (lo', hi')) :
    Option.Rel (SameBound near) lo lo' ∧ Option.Rel (SameBound near) hi hi' := by
  obtain ⟨x, lower, rest⟩ := bind_ok_iff.mp first
  obtain ⟨y, upper, rest⟩ := bind_ok_iff.mp rest
  obtain ⟨x', lower', rest'⟩ := bind_ok_iff.mp second
  obtain ⟨y', upper', rest'⟩ := bind_ok_iff.mp rest'
  obtain ⟨rfl, rfl⟩ := Prod.mk.inj (Except.ok.inj rest)
  obtain ⟨rfl, rfl⟩ := Prod.mk.inj (Except.ok.inj rest')
  exact ⟨twins.bound compares lower lower', twins.bound compares upper upper'⟩

omit compares in
theorem Twins.strings {x y : Option (List String)} (first : strings members key = .ok x)
    (second : strings others key = .ok y) : x = y := by
  refine twins.under_eq (strings_under first) (strings_under second) ?_
  rintro - - as bs inner rfl rfl
  exact inner.texts

omit compares in
theorem Twins.format {x y : String} (first : formatName members = .ok x)
    (second : formatName others = .ok y) : x = y := by
  obtain ⟨m, under, rfl⟩ := format_under first
  obtain ⟨n, under', rfl⟩ := format_under second
  have same : m = n := by
    refine twins.under_eq under under' ?_
    rintro - - a b inner rfl rfl
    exact inner.text
  rw [same]

end Numbers

theorem objects_alike {near : ℚ → ℚ → Prop} {xs ys : Option (List (String × Schema))}
    {more more' : Option Schema} {required : List String}
    (named : Option.Rel (SameProperties near) xs ys)
    (unnamed : Option.Rel (Alike near) more more') :
    Alike near (.object xs required more) (.object ys required more') := by
  have rest : more.isSome = more'.isSome ∧
      ∀ s t, more = some s → more' = some t → Alike near s t := by
    cases unnamed with
    | none => exact ⟨rfl, nofun⟩
    | some alike =>
      refine ⟨rfl, fun s t first second => ?_⟩
      rwa [← Option.some.inj first, ← Option.some.inj second]
  cases named with
  | none => exact .object required rfl List.nodup_nil (.refl _) nofun rest.1 rest.2
  | some same => exact .object required rfl same.once same.names same.each rest.1 rest.2

theorem Twins.alike_ref {fair : String → Prop} {near : ℚ → ℚ → Prop}
    {members others : List (String × Json)} {v : Json} {s t : Schema}
    (twins : Twins fair (.obj members) (.obj others))
    (given : Members.get? "$ref" members = some v) (first : decodeTree (.obj members) = .ok s)
    (second : decodeTree (.obj others) = .ok t) : Alike near s t := by
  obtain ⟨path, rfl, rfl⟩ := decoded_ref given first
  cases given' : Members.get? "$ref" others with
  | none => cases given.symm.trans (twins.absent_iff.mpr given')
  | some w =>
    obtain ⟨path', rfl, rfl⟩ := decoded_ref given' second
    rw [(twins.at given given').text]
    exact .ref path'

section Inside
variable {fair : String → Prop} {near : ℚ → ℚ → Prop} {members others : List (String × Json)}
  (twins : Twins fair (.obj members) (.obj others))
  (smaller : ∀ {v w : Json} {s t : Schema}, v.size < (Json.obj members).size → Twins fair v w →
    decodeTree v = .ok s → decodeTree w = .ok t → Alike near s t)
include twins smaller

theorem Twins.properties {xs ys : Option (List (String × Schema))}
    (first : decodeProperties members = .ok xs) (second : decodeProperties others = .ok ys) :
    Option.Rel (SameProperties near) xs ys := by
  refine twins.under (properties_under first) (properties_under second) ?_
  rintro - - ps qs given inner ⟨values, rfl, each⟩ ⟨values', rfl, each'⟩
  obtain ⟨once, -⟩ := Json.unambiguous_obj.mp inner.distinct
  rw [← properties_keys each] at once
  have names := inner.keys
  rw [← properties_keys each, ← properties_keys each'] at names
  refine ⟨once, names, fun key s t found found' => ?_⟩
  obtain ⟨v, here, tree⟩ := property_read each found
  obtain ⟨w, here', tree'⟩ := property_read each' found'
  have outer := Json.size_of_member (Members.mem_of_get given)
  have deep := Json.size_of_member (Members.mem_of_get here)
  exact smaller (deep.trans outer) (inner.at here here') tree tree'

theorem Twins.additional {x y : Option Schema} (first : decodeAdditional members = .ok x)
    (second : decodeAdditional others = .ok y) : Option.Rel (Alike near) x y := by
  cases x with
  | none =>
    cases y with
    | none => exact .none
    | some t => exact absurd second (twins.undeclared first)
  | some s =>
    cases y with
    | none => exact absurd first (twins.symm.undeclared second)
    | some t =>
      obtain ⟨v, given, tree⟩ := additional_decoded first
      obtain ⟨w, given', tree'⟩ := additional_decoded second
      have inside := Json.size_of_member (Members.mem_of_get given)
      exact .some (smaller inside (twins.at given given') tree tree')

theorem Twins.items {s t : Schema} (first : decodeItems members = .ok s)
    (second : decodeItems others = .ok t) : Alike near s t := by
  obtain ⟨v, given, tree⟩ := items_decoded first
  obtain ⟨w, given', tree'⟩ := items_decoded second
  have inside := Json.size_of_member (Members.mem_of_get given)
  exact smaller inside (twins.at given given') tree tree'

theorem Twins.alike_typed (compares : Compares fair near) {s t : Schema}
    (direct : Members.get? "$ref" members = none) (first : decodeTree (.obj members) = .ok s)
    (second : decodeTree (.obj others) = .ok t) : Alike near s t := by
  have direct' := twins.absent_iff.mp direct
  obtain ⟨type, typed⟩ := decoded_type direct first
  obtain ⟨type', typed'⟩ := decoded_type direct' second
  obtain rfl := (twins.at typed typed').text
  -- The type is one on both sides, so both schemas are decoded in the same way.
  have from_ := typed_from (by rw [Json.schemaType?, direct, typed]) first
  have from' := typed_from (by rw [Json.schemaType?, direct', typed']) second
  cases from_ with
  | object =>
    obtain ⟨xs, required, more, declared, listed, unnamed, same⟩ := object_parts direct first typed
    obtain ⟨ys, required', more', declared', listed', unnamed', rfl⟩ :=
      object_parts direct' second typed'
    rw [same, twins.strings listed listed']
    exact objects_alike (twins.properties smaller declared declared')
      (twins.additional smaller unnamed unnamed')
  | array =>
    obtain ⟨items, lo, hi, inner, least, most, same⟩ := array_parts direct first typed
    obtain ⟨items', lo', hi', inner', least', most', rfl⟩ := array_parts direct' second typed'
    rw [same]
    exact .array (twins.items smaller inner inner') (twins.counts compares least least')
      (twins.counts compares most most')
  | string =>
    obtain ⟨lo, hi, enum, format, least, most, listed, named, same⟩ :=
      string_parts direct first typed
    obtain ⟨lo', hi', enum', format', least', most', listed', named', rfl⟩ :=
      string_parts direct' second typed'
    rw [same, twins.strings listed listed', twins.format named named']
    exact .string _ _ (twins.counts compares least least') (twins.counts compares most most')
  | number pair =>
    obtain ⟨lo', hi', rfl, pair'⟩ := from'.of_number
    obtain ⟨lower, upper⟩ := twins.bounds compares pair pair'
    exact .number lower upper
  | integer pair =>
    obtain ⟨lo', hi', rfl, pair'⟩ := from'.of_integer
    obtain ⟨lower, upper⟩ := twins.bounds compares pair pair'
    exact .integer lower upper
  | boolean =>
    rw [decodeTree, direct', typed'] at second
    simp only [String.reduceEq, if_false, if_true] at second
    rw [← Except.ok.inj second]
    exact .boolean

end Inside

/-- Schemas that are decoded from twins are alike. -/
theorem Twins.alike {fair : String → Prop} {near : ℚ → ℚ → Prop} (compares : Compares fair near)
    {v w : Json} {s t : Schema} (twins : Twins fair v w) (first : decodeTree v = .ok s)
    (second : decodeTree w = .ok t) : Alike near s t := by
  -- The schemas inside are decoded from smaller trees.
  generalize size : v.size = n
  induction n using Nat.strong_induction_on generalizing v w s t with
  | _ n ih =>
    obtain ⟨m, rest, rfl⟩ := decoded_object first
    obtain ⟨m', rest', rfl⟩ := decoded_object second
    cases given : Members.get? "$ref" (m :: rest) with
    | some path => exact twins.alike_ref given first second
    | none =>
      refine twins.alike_typed (fun less inner tree tree' => ?_) compares given first second
      exact ih _ (size ▸ less) inner tree tree' rfl

end Schema

namespace Number.Double

/-- Numbers that are equal or rounded to one double. -/
def Indistinct (q r : ℚ) : Prop := q = r ∨ ∃ x, Nearest x q ∧ Nearest x r

end Number.Double

namespace Digest
open Schema (Twins Compares)
open Encode (Digestible meant)
open Number.Double (Indistinct)

/-- Sections with the same names, and under each name schemas that are not told apart. -/
structure SameSchemas (near : ℚ → ℚ → Prop) (xs ys : List (String × Json)) : Prop where
  names : (Members.keys xs).Perm (Members.keys ys)
  alike (name : String) (v w : Json) (s t : Schema) : Members.get? name xs = some v →
    Members.get? name ys = some w → Schema.decodeTree v = .ok s → Schema.decodeTree w = .ok t →
      Schema.Alike near s t

/-- Literals whose number is a double. -/
def Exact (text : String) : Prop :=
  ∀ q, Number.Numeral text.toList q → Number.Double.IsDouble q

theorem compares_indistinct : Compares Digestible Indistinct where
  digestible fair := fair
  refl _ := .inl rfl
  close _ _ _ _ nearest nearest' := .inr ⟨_, nearest, nearest'⟩

theorem compares_exact : Compares (fun text => Digestible text ∧ Exact text) (· = ·) where
  digestible fair := fair.1
  refl _ := rfl
  close fair fair' numeral numeral' nearest nearest' :=
    (nearest.exact (fair.2 _ numeral)).symm.trans (nearest'.exact (fair'.2 _ numeral'))

theorem twins_same {fair : String → Prop} {near : ℚ → ℚ → Prop} (compares : Compares fair near)
    {xs ys : List (String × Json)} (twins : Twins fair (.obj xs) (.obj ys)) :
    SameSchemas near xs ys :=
  ⟨twins.keys, fun _ _ _ _ _ given given' first second =>
    (twins.at given given').alike compares first second⟩

theorem form_of_text {xs ys : List (String × Json)} {text : String}
    (distinct : (Json.obj xs).unambiguous = true) (distinct' : (Json.obj ys).unambiguous = true)
    (first : canonicalText xs = .ok text) (second : canonicalText ys = .ok text) :
    Canonical.form (meant (.obj xs)) = Canonical.form (meant (.obj ys)) := by
  obtain ⟨spelled, digestible⟩ := canonicalText_ok_iff.mp first
  obtain ⟨spelled', digestible'⟩ := canonicalText_ok_iff.mp second
  refine Canonical.form_eq_of_text ?_ ?_ (Encode.meant_unambiguous _ distinct)
    (Encode.meant_unambiguous _ distinct') (spelled.symm.trans spelled')
  · exact (Encode.meant_inRange_iff _).mpr fun literal member =>
      (Encode.digestible_iff.mp (digestible literal member)).2
  · exact (Encode.meant_inRange_iff _).mpr fun literal member =>
      (Encode.digestible_iff.mp (digestible' literal member)).2

theorem hash_of_digest {a b : String} (same : ofText a = ofText b) :
    Sha256.hexText (Utf8.encode a) = Sha256.hexText (Utf8.encode b) := by
  have chars := congrArg String.toList same
  rw [ofText, ofText, String.toList_append, String.toList_append,
    List.append_cancel_left_eq] at chars
  exact String.toList_injective chars

/-- Sections whose schemas have one canonical text have the same names, and under each name schemas
    that agree but for the order of properties and for numbers that doubles do not tell apart. Where
    all numbers are doubles the schemas agree in every number. Sections share a digest without
    sharing a text only if the hash takes their texts for one another. -/
theorem digest_identifies_schemas {xs ys : List (String × Json)} {a b : String}
    (distinct : (Json.obj xs).unambiguous = true) (distinct' : (Json.obj ys).unambiguous = true)
    (first : canonicalText xs = .ok a) (second : canonicalText ys = .ok b) :
    (a = b → SameSchemas Indistinct xs ys ∧
      ((∀ literal ∈ (Json.obj xs).literals ++ (Json.obj ys).literals, Exact literal) →
        SameSchemas (· = ·) xs ys)) ∧
    (ofSchemas xs = ofSchemas ys → a ≠ b →
      Utf8.encode a ≠ Utf8.encode b ∧
        Sha256.hexText (Utf8.encode a) = Sha256.hexText (Utf8.encode b)) := by
  obtain ⟨-, digestible⟩ := canonicalText_ok_iff.mp first
  obtain ⟨-, digestible'⟩ := canonicalText_ok_iff.mp second
  constructor
  · rintro rfl
    have same := form_of_text distinct distinct' first second
    refine ⟨twins_same compares_indistinct ⟨same, distinct, distinct', digestible, digestible'⟩, ?_⟩
    intro exactly
    obtain ⟨here, there⟩ := List.forall_mem_append.mp exactly
    exact twins_same compares_exact ⟨same, distinct, distinct',
      fun literal member => ⟨digestible literal member, here literal member⟩,
      fun literal member => ⟨digestible' literal member, there literal member⟩⟩
  · intro shared apart
    have digests : ofText a = ofText b := by
      simpa [ofSchemas, first, second, Except.map] using shared
    refine ⟨fun same => apart ?_, hash_of_digest digests⟩
    rw [Literal.encode_eq, Literal.encode_eq] at same
    exact String.toList_injective (Utf8.encodeChars_injective same)

namespace Sample

def floor (kind number : String) : Json := .obj [("type", .str kind), ("minimum", .num number)]

def flag : Json := .obj [("type", .str "boolean")]

def levels (kind number : String) : List (String × Json) :=
  [("Level", floor kind number), ("Flag", flag)]

/-- In another order, and with a number in another spelling. -/
def turnedLevels : List (String × Json) :=
  [("Flag", flag), ("Level", .obj [("minimum", .num "100"), ("type", .str "number")])]

theorem levels_text {kind a b : String}
    (same : Canonical.text (meant (.num a)) = Canonical.text (meant (.num b))) :
    Canonical.text (meant (.obj (levels kind a))) =
      Canonical.text (meant (.obj (levels kind b))) := by
  simp only [levels, floor, Json.text_meant_obj, List.map_cons, List.map_nil, same]

theorem levels_canonical {kind number : String} (digestible : Digestible number) :
    canonicalText (levels kind number) =
      .ok (Canonical.text (meant (.obj (levels kind number)))) := by
  refine canonicalText_ok_iff.mpr ⟨rfl, fun literal member => ?_⟩
  obtain rfl := List.mem_singleton.mp member
  exact digestible

theorem turnedLevels_canonical : canonicalText turnedLevels =
    .ok (Canonical.text (meant (.obj (levels "number" "1e2")))) := by
  have turned : Json.Rearranged (.obj (levels "number" "100")) (.obj turnedLevels) :=
    .obj (.cons (.obj (.cons (.str _) (.cons (.num _) .nil)) (.swap ..))
      (.cons (.obj (.cons (.str _) .nil) (.refl _)) .nil)) (.swap ..)
  have respelled : Canonical.text (meant (.num "1e2")) = Canonical.text (meant (.num "100")) := by
    decide
  refine canonicalText_ok_iff.mpr ⟨?_, fun literal member => ?_⟩
  · exact (levels_text respelled).trans (turned.text (by decide))
  · obtain rfl := List.mem_singleton.mp member
    exact ⟨.num "100", rfl, rfl⟩

theorem hundred_exact {text : String} (spelled : text = "1e2" ∨ text = "100") : Exact text := by
  have hundred : Number.Double.IsDouble 100 :=
    ⟨⟨7036874417766400, -46⟩, ⟨⟨by decide, by decide, by decide⟩, by decide⟩,
      by norm_num [Number.Double.value]⟩
  intro q numeral
  have value : q = 100 := by
    rcases spelled with rfl | rfl
    · rw [(Number.Decimal.value_iff (d := ⟨1, 2⟩) (by decide) q).mp numeral]
      norm_num [Number.Decimal.value]
    · rw [(Number.Decimal.value_iff (d := ⟨100, 0⟩) (by decide) q).mp numeral]
      norm_num [Number.Decimal.value]
  rwa [value]

end Sample

theorem respelled_same_schemas : ∃ text,
    (Json.obj (Sample.levels "number" "1e2")).unambiguous = true ∧
      (Json.obj Sample.turnedLevels).unambiguous = true ∧
      canonicalText (Sample.levels "number" "1e2") = .ok text ∧
      canonicalText Sample.turnedLevels = .ok text ∧
      SameSchemas (· = ·) (Sample.levels "number" "1e2") Sample.turnedLevels ∧
      Schema.Alike (· = ·) (.number (some "1e2") none) (.number (some "100") none) := by
  have distinct : (Json.obj (Sample.levels "number" "1e2")).unambiguous = true := by decide
  have distinct' : (Json.obj Sample.turnedLevels).unambiguous = true := by decide
  have first := @Sample.levels_canonical "number" "1e2" ⟨.num "1e2", rfl, rfl⟩
  have second := Sample.turnedLevels_canonical
  obtain ⟨agree, -⟩ := digest_identifies_schemas distinct distinct' first second
  have same := (agree rfl).2 fun literal member => Sample.hundred_exact (by
    simpa [Sample.levels, Sample.turnedLevels, Sample.floor, Sample.flag, Json.literals,
      Json.memberLiterals] using member)
  exact ⟨_, distinct, distinct', first, second, same, same.alike "Level" _ _ _ _ rfl rfl rfl rfl⟩

/-- Two whole numbers next to each other are rounded to one double, and then two different schemas
    have one digest. -/
theorem rounded_minimum_collides : ∃ text digest,
    (Json.obj (Sample.levels "integer" "9007199254740992")).unambiguous = true ∧
      (Json.obj (Sample.levels "integer" "9007199254740993")).unambiguous = true ∧
      canonicalText (Sample.levels "integer" "9007199254740992") = .ok text ∧
      canonicalText (Sample.levels "integer" "9007199254740993") = .ok text ∧
      ofSchemas (Sample.levels "integer" "9007199254740992") = .ok digest ∧
      ofSchemas (Sample.levels "integer" "9007199254740993") = .ok digest ∧
      ¬ SameSchemas (· = ·) (Sample.levels "integer" "9007199254740992")
        (Sample.levels "integer" "9007199254740993") := by
  have first := @Sample.levels_canonical "integer" "9007199254740992" ⟨.num _, rfl, rfl⟩
  have second := @Sample.levels_canonical "integer" "9007199254740993" ⟨.num _, rfl, rfl⟩
  have rounded : Canonical.text (meant (.num "9007199254740993")) =
      Canonical.text (meant (.num "9007199254740992")) := by decide
  rw [Sample.levels_text rounded] at second
  refine ⟨_, _, by decide, by decide, first, second, map_ok_iff.mpr ⟨_, first, rfl⟩,
    map_ok_iff.mpr ⟨_, second, rfl⟩, fun same => ?_⟩
  have alike := same.alike "Level" _ _ _ _ rfl rfl rfl rfl
  cases alike with
  | integer lower =>
    cases lower with
    | some bound =>
      obtain ⟨q, r, numeral, numeral', equal⟩ := bound
      rw [Number.integer_value_iff (n := 9007199254740992) (by decide)] at numeral
      rw [Number.integer_value_iff (n := 9007199254740993) (by decide)] at numeral'
      rw [numeral, numeral'] at equal
      norm_num at equal

end Digest

end SchemaForge
