import SchemaForge.Proofs.CanonicalForm
import SchemaForge.Proofs.Digestible

/-!
Trees with one canonical form. They have the same members, with twins under each name, and the same
texts; and where both have a number, the numbers share a nearest double.
-/
namespace SchemaForge

namespace Members

variable {α : Type}

theorem get_map {β : Type} (f : α → β) (key : String) (members : List (String × α)) :
    get? key (members.map fun m => (m.1, f m.2)) = (get? key members).map f := by
  induction members with
  | nil => rfl
  | cons m rest ih =>
    rw [List.map_cons, get?, get?, ih]
    by_cases same : m.1 = key <;> simp [same]

theorem nodup_settled (members : List (String × α)) : (keys (settled members)).Nodup := by
  induction members using List.reverseRecOn with
  | nil => simp [settled, keys]
  | append_singleton members m ih =>
    rw [settled_snoc, keys_set]
    split
    · exact ih
    · next fresh => simpa using ih.concat fresh

end Members

namespace Json

mutual

theorem Loose.unambiguous {used : List Lexeme} {v : Json} (loose : Loose used v) :
    v.unambiguous = true := by
  cases loose with
  | null | bool | number | string => rfl
  | array elements => exact unambiguous_arr.mpr elements.unambiguous
  | object entries =>
    refine unambiguous_obj.mpr ⟨Members.nodup_settled _, fun m member => ?_⟩
    exact entries.unambiguous m (mem_of_mem_settled member)
termination_by 2 * used.length
decreasing_by all_goals simp only [List.length_append, List.length_cons]; omega

theorem LooseItems.unambiguous {used : List Lexeme} {items : List Json}
    (loose : LooseItems used items) : ∀ v ∈ items, v.unambiguous = true := by
  cases loose with
  | nil => exact nofun
  | cons value rest =>
    have taken := List.length_pos_of_ne_nil value.ne_nil
    exact List.forall_mem_cons.mpr ⟨value.unambiguous, rest.unambiguous⟩
termination_by 2 * used.length + 1
decreasing_by all_goals simp only [List.length_append] at *; omega

theorem LooseMembers.unambiguous {used : List Lexeme} {members : List (String × Json)}
    (loose : LooseMembers used members) : ∀ m ∈ members, m.2.unambiguous = true := by
  cases loose with
  | nil => exact nofun
  | cons value rest => exact List.forall_mem_cons.mpr ⟨value.unambiguous, rest.unambiguous⟩
termination_by 2 * used.length + 1
decreasing_by all_goals simp only [List.length_append, List.length_cons]; omega

end

theorem parse_unambiguous {text : Bytes} {v : Json} (parsed : parse text = .ok v) :
    v.unambiguous = true := by
  rw [parse_eq_load] at parsed
  obtain ⟨items, separated, -, loose⟩ := load_ok_iff.mp parsed
  exact loose.unambiguous

end Json

namespace Encode
open Number (Numeral)

theorem scalar_unambiguous (text : String) : (scalar text).unambiguous = true := by
  rw [scalar]
  cases read : literal text with
  | error e => rfl
  | ok v =>
    simp only [literal] at read
    split at read
    · cases read
    · split at read
      · next parsed =>
        obtain rfl := Except.ok.inj read
        exact Json.parse_unambiguous parsed
      · cases read

theorem meant_unambiguous (v : Json) (distinct : v.unambiguous = true) :
    (meant v).unambiguous = true := by
  match v with
  | .null | .bool _ | .str _ => rfl
  | .num text => exact scalar_unambiguous text
  | .arr items =>
    rw [meant, meantItems_eq, Json.unambiguous_arr, List.forall_mem_map]
    exact fun v member => meant_unambiguous v (Json.unambiguous_arr.mp distinct v member)
  | .obj members =>
    obtain ⟨once, values⟩ := Json.unambiguous_obj.mp distinct
    rw [meant, meantMembers_eq, Json.unambiguous_obj, List.forall_mem_map]
    refine ⟨?_, fun m member => meant_unambiguous m.2 (values m member)⟩
    rwa [Members.keys, List.map_map]
termination_by v.size
decreasing_by
  · exact Json.size_of_item member
  · exact Json.size_of_member member

theorem startsNumber_of_numeral {text : String} {q : ℚ} (numeral : Numeral text.toList q) :
    Literal.StartsNumber text := by
  have head : ∀ cs ds q, Number.Fixed cs q →
      ∃ c ∈ (cs ++ ds).head?, c ∈ "0123456789+-.".toList := by
    intro cs ds q fixed
    obtain ⟨nonempty, chars⟩ := fixed.chars
    obtain ⟨c, cs, rfl⟩ := List.exists_cons_of_ne_nil nonempty
    exact ⟨c, rfl, chars c List.mem_cons_self⟩
  unfold Literal.StartsNumber
  generalize text.toList = cs at numeral
  cases numeral with
  | fixed spelled => simpa using head _ [] _ spelled
  | scaled spelled => exact head _ _ _ spelled

/-- A numeral that can be digested is a JSON number, and stands for itself. -/
theorem numeral_literal {text : String} {q : ℚ} (numeral : Numeral text.toList q)
    (digestible : Digestible text) :
    scalar text = .num text ∧ Json.Grammar.Number text.toList ∧
      (Literal.double? text).isSome = true := by
  have starts := startsNumber_of_numeral numeral
  obtain ⟨cs, ws, r, spelled, number, blank, numeral', small⟩ :=
    (digestible_iff_inRange starts).mp digestible
  obtain rfl : ws = [] := by
    have plain : "0123456789+-.eE".toList.all (!Json.Grammar.isSpace ·) = true := by decide
    refine List.eq_nil_iff_forall_not_mem.mpr fun c member => ?_
    have char := numeral.chars.2 c (by rw [spelled]; exact List.mem_append_right _ member)
    have visible := List.all_eq_true.mp plain c char
    rw [blank c member] at visible
    cases visible
  rw [List.append_nil] at spelled
  subst spelled
  have read := literal_number (List.append_nil _).symm number blank
  rw [String.ofList_toList] at read
  exact ⟨(literal_ok_iff.mp read).1.symm, number,
    (Literal.double_isSome_iff number numeral').mpr small⟩

end Encode

namespace Schema
open Number (Numeral)
open Encode (Digestible scalar meant)
open Canonical (form)

/-- Trees with one canonical form whose literals are all fair. -/
structure Twins (fair : String → Prop) (v w : Json) : Prop where
  same : form (meant v) = form (meant w)
  distinct : v.unambiguous = true
  distinct' : w.unambiguous = true
  literals : ∀ text ∈ v.literals, fair text
  literals' : ∀ text ∈ w.literals, fair text

/-- Numbers that share a nearest double are not told apart if their literals are fair. -/
structure Compares (fair : String → Prop) (near : ℚ → ℚ → Prop) : Prop where
  digestible {text : String} : fair text → Digestible text
  refl (q : ℚ) : near q q
  close {a b : String} {q r x : ℚ} : fair a → fair b → Numeral a.toList q → Numeral b.toList r →
    Number.Double.Nearest x q → Number.Double.Nearest x r → near q r

section Trees
variable {fair : String → Prop} {v w : Json}

theorem Twins.symm (twins : Twins fair v w) : Twins fair w v :=
  ⟨twins.same.symm, twins.distinct', twins.distinct, twins.literals', twins.literals⟩

theorem Twins.text {a b : String} (twins : Twins fair (.str a) (.str b)) : a = b :=
  Json.str.inj twins.same

theorem Twins.texts {as bs : List String}
    (twins : Twins fair (.arr (as.map .str)) (.arr (bs.map .str))) : as = bs := by
  have plain : ∀ cs : List String, form (meant (.arr (cs.map .str))) = .arr (cs.map .str) := by
    intro cs
    rw [meant, form, Encode.meantItems_eq, Canonical.formItems_eq, List.map_map, List.map_map]
    rfl
  have same := twins.same
  rw [plain, plain] at same
  exact List.map_injective_iff.mpr (fun _ _ => Json.str.inj) (Json.arr.inj same)

theorem form_meant_obj (members : List (String × Json)) :
    form (meant (.obj members)) =
      .obj ((members.map fun m => (m.1, form (meant m.2))).mergeSort fun a b =>
        Canonical.keyLe a.1 b.1) := by
  rw [meant, form, Encode.meantMembers_eq, Canonical.formMembers_eq, List.map_map]
  rfl

variable {members others : List (String × Json)}

theorem Twins.perm (twins : Twins fair (.obj members) (.obj others)) :
    (members.map fun m => (m.1, form (meant m.2))).Perm
      (others.map fun m => (m.1, form (meant m.2))) := by
  have same := twins.same
  rw [form_meant_obj, form_meant_obj] at same
  have sorted := List.mergeSort_perm (members.map fun m => (m.1, form (meant m.2))) fun a b =>
    Canonical.keyLe a.1 b.1
  rw [Json.obj.inj same] at sorted
  exact sorted.symm.trans (List.mergeSort_perm _ _)

theorem Twins.keys (twins : Twins fair (.obj members) (.obj others)) :
    (Members.keys members).Perm (Members.keys others) := by
  simpa [Members.keys, Function.comp_def] using twins.perm.map (·.1)

/-- Under each name both objects have nothing, or twins. -/
theorem Twins.get (twins : Twins fair (.obj members) (.obj others)) (key : String) :
    (Members.get? key members = none ∧ Members.get? key others = none) ∨
      ∃ v w, Members.get? key members = some v ∧ Members.get? key others = some w ∧
        Twins fair v w := by
  obtain ⟨once, values⟩ := Json.unambiguous_obj.mp twins.distinct
  obtain ⟨-, values'⟩ := Json.unambiguous_obj.mp twins.distinct'
  have once' : (Members.keys (members.map fun m => (m.1, form (meant m.2)))).Nodup := by
    rwa [Members.keys, List.map_map]
  have found := Members.get_perm twins.perm once' key
  rw [Members.get_map (fun v => form (meant v)), Members.get_map (fun v => form (meant v))] at found
  have inside : ∀ {ms : List (String × Json)} {v : Json}, Members.get? key ms = some v →
      (∀ text ∈ (Json.obj ms).literals, fair text) → ∀ text ∈ v.literals, fair text := by
    intro ms v given all text member
    refine all text ?_
    rw [Json.literals, Json.memberLiterals_eq]
    exact List.mem_flatMap.mpr ⟨_, Members.mem_of_get given, member⟩
  cases first : Members.get? key members with
  | none =>
    rw [first, Option.map_none, eq_comm, Option.map_eq_none_iff] at found
    exact .inl ⟨rfl, found⟩
  | some v =>
    rw [first, Option.map_some, eq_comm, Option.map_eq_some_iff] at found
    obtain ⟨w, second, same⟩ := found
    exact .inr ⟨v, w, rfl, second, same.symm, values _ (Members.mem_of_get first),
      values' _ (Members.mem_of_get second), inside first twins.literals,
      inside second twins.literals'⟩

theorem Twins.absent_iff {key : String} (twins : Twins fair (.obj members) (.obj others)) :
    Members.get? key members = none ↔ Members.get? key others = none := by
  obtain ⟨missing, missing'⟩ | ⟨v, w, found, found', -⟩ := twins.get key
  · exact iff_of_true missing missing'
  · exact iff_of_false (by simp [found]) (by simp [found'])

theorem Twins.at {key : String} (twins : Twins fair (.obj members) (.obj others))
    (given : Members.get? key members = some v) (given' : Members.get? key others = some w) :
    Twins fair v w := by
  obtain ⟨missing, -⟩ | ⟨v', w', found, found', inner⟩ := twins.get key
  · cases given.symm.trans missing
  obtain rfl := Option.some.inj (given.symm.trans found)
  obtain rfl := Option.some.inj (given'.symm.trans found')
  exact inner

end Trees

section Numbers
variable {fair : String → Prop} {near : ℚ → ℚ → Prop} (compares : Compares fair near)
include compares

theorem Twins.numbers {a b : String} {q r : ℚ} (twins : Twins fair (.num a) (.num b))
    (numeral : Numeral a.toList q) (numeral' : Numeral b.toList r) : near q r := by
  have first : fair a := twins.literals a List.mem_cons_self
  have second : fair b := twins.literals' b List.mem_cons_self
  obtain ⟨itself, number, inRange⟩ := Encode.numeral_literal numeral (compares.digestible first)
  obtain ⟨itself', number', inRange'⟩ :=
    Encode.numeral_literal numeral' (compares.digestible second)
  have same : form (scalar a) = form (scalar b) := twins.same
  rw [itself, itself', form, form] at same
  obtain ⟨x, nearest, nearest'⟩ := Literal.nearest_of_literalText number number' numeral numeral'
    inRange inRange' (Json.num.inj same)
  exact compares.close first second numeral numeral' nearest nearest'

theorem Twins.number_not_text {a b : String} {q : ℚ} (numeral : Numeral a.toList q) :
    ¬ Twins fair (.num a) (.str b) := by
  intro twins
  obtain ⟨itself, -⟩ := Encode.numeral_literal numeral
    (compares.digestible (twins.literals a List.mem_cons_self))
  have same : form (scalar a) = .str b := twins.same
  rw [itself] at same
  cases same

end Numbers

end Schema

end SchemaForge
