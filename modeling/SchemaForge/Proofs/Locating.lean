import SchemaForge.Proofs.KeyOrder
import SchemaForge.Proofs.Pointer
import SchemaForge.Proofs.Refusals
import SchemaForge.Proofs.Spelling

/-!
Errors of the decoder lead to the place at fault. The names that an error has passed are read back
from its pointer, whatever characters they hold, and looked up in the tree they lead to the value
that the error is about.
-/
namespace SchemaForge

namespace Pointer

/-- What follows the base of a pointer is read back like a whole pointer. -/
theorem split_suffix {segments : List String} (some_ : segments ≠ [""]) :
    split (suffix segments) = segments := by
  have chars : (suffix segments).toList = suffixChars segments := by
    rw [suffix, suffix_onto]
    rfl
  -- It is empty or starts with a slash, so no mark can be dropped from it by mistake.
  have unmarked : Text.trimStart ['#'] (suffixChars segments) =
      Text.trimStart ['#'] ('#' :: suffixChars segments) := by
    cases segments <;> rfl
  rw [split, chars, unmarked, ← render_toList]
  exact split_render some_

end Pointer

namespace Json

theorem size_pos (v : Json) : 0 < v.size := by
  cases v <;> simp [size]

theorem length_lt_size (items : List Json) : items.length < (Json.arr items).size := by
  rw [size]
  induction items with
  | nil => simp [sizeItems]
  | cons v rest ih =>
    have first := size_pos v
    rw [sizeItems, List.length_cons]
    omega

end Json

namespace Document

theorem renderNat_child {items : List Json} {i : Nat} {v : Json} (stands : items[i]? = some v)
    (fits : ((Json.arr items).size : Int) ≤ Number.int64Max) :
    child? (Number.renderNat i) (.arr items) = some v := by
  have inside : i < items.length := (List.getElem?_eq_some_iff.mp stands).1
  have bounded := Json.length_lt_size items
  have read : Number.parseInt (Number.renderNat i).toList = some (i : Int) := by
    rw [Number.renderNat, String.toList_ofList]
    exact Number.parseInt_iff.mpr (.plain (Number.digits_toDigits i))
  have low : Number.int64Min ≤ (i : Int) := le_trans (by decide) (Int.natCast_nonneg i)
  have high : (i : Int) ≤ Number.int64Max := by omega
  have inRange : Number.parseIntIn Number.int64Min Number.int64Max (Number.renderNat i).toList =
      some (i : Int) :=
    Option.filter_eq_some_iff.mpr ⟨read, by simp only [low, high, decide_true, Bool.and_self]⟩
  simp [child?, inRange, stands]

end Document

namespace Schema

/-- What an error says of the value at its place: which kind or text it has in place of the one
    that is asked for, or what the schema that it is lacks. -/
inductive Breaks : Json → Fault → Prop
  | notSchema {v : Json} (other : v.kind ≠ .object) : Breaks v (.notSchema v.kind)
  | notObject {v : Json} (other : v.kind ≠ .object) : Breaks v (.notObject v.kind)
  | notString {v : Json} (other : v.kind ≠ .string) : Breaks v (.notString v.kind)
  | notStringList {v : Json} (other : v.kind ≠ .array) : Breaks v (.notStringList v.kind)
  | notNumber {v : Json} (number : v.kind ≠ .number) (text : v.kind ≠ .string) :
      Breaks v (.notNumber v.kind)
  | notInteger {v : Json} {text : String} (spelled : BoundText v text)
      (unread : Number.parseInt text.toList = none) : Breaks v (.notInteger text)
  | notDecimal {v : Json} {text : String} (spelled : BoundText v text)
      (unread : Number.Decimal.parse? text = none) : Breaks v (.notDecimal text)
  | count {text : String} (unread : Number.parseIntIn 0 Number.int64Max text.toList = none) :
      Breaks (.num text) (.notCount text)
  | notCount {v : Json} (other : v.kind ≠ .number) : Breaks v (.notCount v.kind.name)
  | noType {members : List (String × Json)} (direct : Members.get? "$ref" members = none)
      (absent : Members.get? "type" members = none) : Breaks (.obj members) .noType
  | unsupportedType {members : List (String × Json)} {v : Json}
      (direct : Members.get? "$ref" members = none)
      (given : Members.get? "type" members = some v) (other : v.kind ≠ .string) :
      Breaks (.obj members) (.unsupportedType v.kind)
  | unexpectedType {members : List (String × Json)} {type : String} (has : HasType members type)
      (unknown : type ∉ Subset.Problem.schemaTypes) :
      Breaks (.obj members) (.unexpectedType type)
  | noItems {members : List (String × Json)} (has : HasType members "array")
      (absent : Members.get? "items" members = none) : Breaks (.obj members) .noItems

/-- The names lead to a value, and the error is about that value. -/
def LeadsTo (segments : List String) (v : Json) (fault : Fault) : Prop :=
  ∃ w, Document.lookup segments v = some w ∧ Breaks w fault

section Places
variable {v w : Json} {members : List (String × Json)} {key : String} {segments : List String}
  {fault : Fault}

theorem LeadsTo.member (inner : LeadsTo segments w fault)
    (given : Members.get? key members = some w) : LeadsTo (key :: segments) (.obj members) fault := by
  obtain ⟨found, reached, broken⟩ := inner
  exact ⟨found, by rw [Document.lookup, Document.child?, given, Option.bind_some, reached], broken⟩

theorem BadValue.leads (bad : BadValue key v segments fault)
    (fits : (v.size : Int) ≤ Number.int64Max) : LeadsTo segments v fault := by
  cases bad with
  | format other => exact ⟨v, rfl, .notString other⟩
  | list _ other => exact ⟨v, rfl, .notStringList other⟩
  | item _ stands other =>
    refine ⟨_, ?_, .notString other⟩
    rw [Document.lookup, Document.renderNat_child stands fits]
    rfl
  | count _ unread => exact ⟨_, rfl, .count unread⟩
  | notCount _ other => exact ⟨v, rfl, .notCount other⟩
  | integer _ spelled unread => exact ⟨v, rfl, .notInteger spelled unread⟩
  | decimal _ spelled unread => exact ⟨v, rfl, .notDecimal spelled unread⟩
  | notBound _ number text => exact ⟨v, rfl, .notNumber number text⟩

/-- What is asked of a tree holds of its members too. -/
theorem member_kept (distinct : (Json.obj members).unambiguous = true)
    (fits : ((Json.obj members).size : Int) ≤ Number.int64Max)
    {m : String × Json} (member : m ∈ members) :
    m.2.unambiguous = true ∧ (m.2.size : Int) ≤ Number.int64Max := by
  have smaller := Json.size_of_member member
  exact ⟨(Json.unambiguous_obj.mp distinct).2 m member, by omega⟩

theorem Refused.leads (refused : Refused v segments fault) (distinct : v.unambiguous = true)
    (fits : (v.size : Int) ≤ Number.int64Max) : LeadsTo segments v fault := by
  induction refused with
  | notSchema other => exact ⟨_, rfl, .notSchema other⟩
  | reference given other => exact LeadsTo.member ⟨_, rfl, .notString other⟩ given
  | noType direct absent => exact ⟨_, rfl, .noType direct absent⟩
  | typeKind direct given other => exact ⟨_, rfl, .unsupportedType direct given other⟩
  | typeName has unknown => exact ⟨_, rfl, .unexpectedType has unknown⟩
  | noItems has absent => exact ⟨_, rfl, .noItems has absent⟩
  | keyword has read given bad =>
    obtain ⟨-, fits⟩ := member_kept distinct fits (Members.mem_of_get given)
    exact (bad.leads fits).member given
  | properties has given other => exact LeadsTo.member ⟨_, rfl, .notObject other⟩ given
  | property has given member _ ih =>
    obtain ⟨distinct, fits⟩ := member_kept distinct fits (Members.mem_of_get given)
    obtain ⟨distinctInner, fitsInner⟩ := member_kept distinct fits member
    -- The fault was found in some member of that name; looking the name up has to find the same one.
    have named := Members.get_of_mem (Json.unambiguous_obj.mp distinct).1 member
    exact ((ih distinctInner fitsInner).member named).member given
  | additional has given _ _ ih | items has given _ ih =>
    obtain ⟨distinct, fits⟩ := member_kept distinct fits (Members.mem_of_get given)
    exact (ih distinct fits).member given

/-- The first name on the way to a fault is a keyword. -/
theorem Refused.place_some (refused : Refused v segments fault) : segments ≠ [""] := by
  intro empty
  cases refused with
  | keyword has read given bad =>
    obtain ⟨rfl, -⟩ := List.cons.inj empty
    unfold plainKeys at read
    split_ifs at read <;> simp [boundKeys] at read
  | _ => simp at empty

end Places

/-- The pointer of an error is the given one and then names that lead, in the tree that was read,
    to a value for which the error is right, at a place where the rule applies. Objects have each of
    their names once, and the size of the tree can be counted in an index. -/
theorem error_at_fault {base : String} {v : Json} {e : SchemaError} (distinct : v.unambiguous = true)
    (fits : (v.size : Int) ≤ Number.int64Max) (failed : decodeAt base v = .error e) :
    ∃ suffix w, e.path = base ++ suffix ∧
      Document.lookup (Pointer.split suffix) v = some w ∧ Breaks w e.fault ∧
        Refused v (Pointer.split suffix) e.fault := by
  unfold decodeAt at failed
  split at failed
  · cases failed
  · next inner stopped =>
    obtain rfl := Except.error.inj failed
    have refused := decode_refused stopped
    have back := Pointer.split_suffix refused.place_some
    obtain ⟨w, found, broken⟩ := refused.leads distinct fits
    exact ⟨Pointer.suffix inner.segments, w, rfl, by rw [back, found], broken, by rwa [back]⟩

namespace Sample

/-- A schema whose second choice is no text, under names with slashes, tildes and nothing. -/
def awkward : Json :=
  .obj [("type", .str "object"), ("properties", .obj [("~1/0", .obj [("type", .str "object"),
    ("properties", .obj [("", .obj [("type", .str "string"),
      ("enum", .arr [.str "a", .null])])])])])]

def awkwardError : SchemaError :=
  ⟨"", "#/definitions/X/properties/~01~10/properties//enum/1", .notString .null⟩

theorem awkward_refused : decodeAt "#/definitions/X" awkward = .error awkwardError := by
  rfl

end Sample

theorem awkward_names_at_fault :
    Sample.awkward.unambiguous = true ∧ (Sample.awkward.size : Int) ≤ Number.int64Max ∧
      decodeAt "#/definitions/X" Sample.awkward = .error Sample.awkwardError ∧
      ∃ suffix w, Sample.awkwardError.path = "#/definitions/X" ++ suffix ∧
        Document.lookup (Pointer.split suffix) Sample.awkward = some w ∧
          Breaks w Sample.awkwardError.fault ∧
            Refused Sample.awkward (Pointer.split suffix) Sample.awkwardError.fault := by
  have distinct : Sample.awkward.unambiguous = true := by decide
  have fits : (Sample.awkward.size : Int) ≤ Number.int64Max := by decide
  exact ⟨distinct, fits, Sample.awkward_refused,
    error_at_fault distinct fits Sample.awkward_refused⟩

end Schema

end SchemaForge
