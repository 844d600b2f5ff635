import SchemaForge.Code.Source
import SchemaForge.Proofs.Closure
import SchemaForge.Proofs.Numerals

/-!
What an encoder reads from the tags of struct fields. A tag holds the key of a property between
quotes, with a comma before options. Names without commas and without characters that would need an
escape are read back as they are. A dash alone has a meaning of its own: it is written for the
members that are not declared, but it is also what a required property named by a dash gets, and a
property with an empty name.
-/
namespace SchemaForge.Code

namespace Tag

/-- What an encoder does with a field: it leaves it out, or writes it under a key, in every case or
    only if it is not empty. -/
inductive Reading where
  | skipped
  | member (key : String) (omitEmpty : Bool)
  deriving DecidableEq

/-- Characters that stand for themselves between quotes in a raw text. -/
def isPlain (c : Char) : Bool := !(['"', '\\', '\x60', '\n', '\r'].contains c)

/-- The value of a tag that is one pair of the key `json` and a quoted text. -/
def value? (tag : String) : Option String :=
  let inner := (tag.toList.drop 6).dropLast
  if tag.toList = "json:\"".toList ++ inner ++ ['"'] ∧ inner.all isPlain = true then
    some (String.ofList inner)
  else none

/-- A dash alone leaves the field out. Otherwise the key ends at the first comma, an empty one
    stands for the name of the field, and options follow. -/
def read (field value : String) : Reading :=
  if value = "-" then .skipped
  else
    match Text.split ',' value with
    | [] => .member field false
    | key :: options =>
      .member (if key.isEmpty then field else key) (options.contains "omitempty")

/-- What is read from a tag, if it is well-formed. -/
def read? (field tag : String) : Option Reading := (value? tag).map (read field)

theorem value_iff {tag value : String} : value? tag = some value ↔
    tag = "json:\"" ++ value ++ "\"" ∧ ∀ c ∈ value.toList, isPlain c = true := by
  unfold value?
  constructor
  · intro found
    simp only at found
    split at found
    · next formed =>
      obtain rfl := Option.some.inj found
      refine ⟨?_, by simpa using formed.2⟩
      rw [← String.toList_inj, formed.1]
      simp
    · cases found
  · rintro ⟨rfl, plain⟩
    have chars : ("json:\"" ++ value ++ "\"").toList =
        "json:\"".toList ++ (value.toList ++ ['"']) := by
      simp
    have inner : (("json:\"" ++ value ++ "\"").toList.drop 6).dropLast = value.toList := by
      rw [chars]
      exact List.dropLast_concat
    simp only [inner]
    rw [if_pos ⟨by simp, by simpa using plain⟩, String.ofList_toList]

theorem read_value {field value : String} (plain : ∀ c ∈ value.toList, isPlain c = true) :
    read? field ("json:\"" ++ value ++ "\"") = some (read field value) := by
  rw [read?, value_iff.mpr ⟨rfl, plain⟩, Option.map_some]

theorem read_dash (field : String) : read? field "json:\"-\"" = some .skipped :=
  @read_value field "-" (by simp [isPlain])

/-! ### Keys in tags -/

theorem plain_of_isTagChar {c : Char} (fit : isTagChar c = true) : isPlain c = true ∧ c ≠ ',' := by
  have unfit : ['"', '\\', '\x60', '\n', '\r', ','].all (fun c => !isTagChar c) = true := by decide
  have apart : c ∉ ['"', '\\', '\x60', '\n', '\r', ','] := by
    intro listed
    have refused := List.all_eq_true.mp unfit c listed
    rw [fit] at refused
    cases refused
  constructor
  · simp_all [isPlain]
  · rintro rfl
    exact apart (by decide)

section Keys
variable {field key : String} (fit : ∀ c ∈ key.toList, isTagChar c = true)
include fit

theorem key_plain : ∀ c ∈ key.toList, isPlain c = true :=
  fun c inside => (plain_of_isTagChar (fit c inside)).1

theorem key_free : ',' ∉ key.toList :=
  fun comma => (plain_of_isTagChar (fit ',' comma)).2 rfl

theorem read_key (some_ : key ≠ "") (named : key ≠ "-") :
    read? field ("json:\"" ++ key ++ "\"") = some (.member key false) := by
  rw [read_value (key_plain fit), read, if_neg named, Text.split,
    Text.splitChars_plain (key_free fit)]
  simp [some_]

theorem read_optional (some_ : key ≠ "") :
    read? field ("json:\"" ++ (key ++ ",omitempty") ++ "\"") = some (.member key true) := by
  have chars : (key ++ ",omitempty").toList = key.toList ++ ',' :: "omitempty".toList := by simp
  have plain : ∀ c ∈ (key ++ ",omitempty").toList, isPlain c = true := by
    have option : ",omitempty".toList.all isPlain = true := by decide
    intro c inside
    rw [String.toList_append] at inside
    rcases List.mem_append.mp inside with own | later
    · exact key_plain fit c own
    · exact List.all_eq_true.mp option c later
  have named : key ++ ",omitempty" ≠ "-" := by
    intro same
    have comma : ',' ∈ (key ++ ",omitempty").toList := by simp
    rw [same] at comma
    exact absurd comma (by decide)
  rw [read_value plain, read, if_neg named, Text.split, chars,
    Text.splitChars_append (key_free fit), Text.splitChars_plain (by decide)]
  simp [some_]

end Keys

end Tag

/-! ### The tag of a field -/

/-- The tag of the field of a property. There is none if the name has a character that a tag cannot
    hold. Otherwise it is read as the name, and empty values may be left out if the property is
    optional; but an empty name, and a dash for a required property, are not read as names. -/
structure TagFor (key : String) (required : Bool) (f : Field String String) : Prop where
  absent : f.tag? = none ↔ ∃ c ∈ key.toList, isTagChar c = false
  reads : ∀ tag, f.tag? = some tag → Tag.read? f.name tag =
    some (if key = "" ∨ (key = "-" ∧ required = true) then .skipped else .member key (!required))

namespace Field
variable {f : Field String String}

theorem tag_empty (empty : f.key = "") : f.tag? = some "json:\"-\"" := by
  simp [tag?, empty]

theorem tag_unfit {c : Char} (inside : c ∈ f.key.toList) (unfit : isTagChar c = false) :
    f.tag? = none := by
  have some_ : f.key ≠ "" := by
    intro empty
    simp [empty] at inside
  have refused : f.key.toList.all isTagChar = false :=
    List.all_eq_false.mpr ⟨c, inside, by simp [unfit]⟩
  simp [tag?, some_, refused]

theorem tag_fit (some_ : f.key ≠ "") (fit : ∀ c ∈ f.key.toList, isTagChar c = true) :
    f.tag? = some ("json:\"" ++
      (if f.default = "nil" then f.key ++ ",omitempty" else f.key) ++ "\"") := by
  have accepted : f.key.toList.all isTagChar = true := List.all_eq_true.mpr fit
  simp only [tag?, String.isEmpty_iff, some_, if_false, accepted, Bool.not_true,
    Bool.false_eq_true]
  split <;> simp [String.append_assoc]

theorem tagFor {required : Bool} (optional : f.default = "nil" ↔ required = false) :
    TagFor f.key required f := by
  by_cases empty : f.key = ""
  · have tag := tag_empty empty
    refine ⟨by simp [tag, empty], fun other same => ?_⟩
    obtain rfl := Option.some.inj (tag.symm.trans same)
    rw [if_pos (.inl empty), Tag.read_dash]
  by_cases unfit : ∃ c ∈ f.key.toList, isTagChar c = false
  · obtain ⟨c, inside, refused⟩ := unfit
    have tag := tag_unfit inside refused
    exact ⟨iff_of_true tag ⟨c, inside, refused⟩, by simp [tag]⟩
  have fit : ∀ c ∈ f.key.toList, isTagChar c = true := by simpa using unfit
  have tag := tag_fit empty fit
  refine ⟨iff_of_false (by simp [tag]) unfit, fun other same => ?_⟩
  obtain rfl := Option.some.inj (tag.symm.trans same)
  cases required with
  | false =>
    rw [if_pos (optional.mpr rfl), Tag.read_optional fit empty, if_neg (by simp [empty])]
    rfl
  | true =>
    have needed : ¬ f.default = "nil" := by simp [optional]
    rw [if_neg needed]
    by_cases dash : f.key = "-"
    · rw [dash, if_pos (.inr ⟨rfl, rfl⟩)]
      exact Tag.read_dash f.name
    · rw [Tag.read_key fit empty dash, if_neg (by simp [empty, dash])]
      rfl

end Field

/-! ### Initial values as texts -/

theorem ne_nil_of_first {a b c : String} {first : Char} {rest : List Char}
    (starts : a.toList = first :: rest) (other : first ≠ 'n') : a ++ b ++ c ≠ "nil" := by
  intro same
  have chars := congrArg String.toList same
  rw [String.toList_append, String.toList_append, starts] at chars
  exact other (List.cons.inj chars).1

theorem Ty.zeroText_ne_nil (t : Ty) : t.zeroText ≠ "nil" := by
  cases t with
  | bool | string | integer | decimal | time | bytes => decide
  | record name => exact ne_nil_of_first (a := "&") rfl (by decide)
  | pointer target => exact ne_nil_of_first (a := "&") rfl (by decide)
  | ordered item =>
    exact ne_nil_of_first (a := "&orderedmap.OrderedMap[string, ") rfl (by decide)
  | slice item => exact ne_nil_of_first (a := "[]") rfl (by decide)

/-- Only what starts absent is written as nil. -/
theorem Init.text_nil_iff {init : Init} : init.text = "nil" ↔ init = .absent := by
  constructor
  · intro same
    cases init with
    | absent => rfl
    | zero t => exact absurd same t.zeroText_ne_nil
    | construct name =>
      have last : (name ++ "()").toList.getLast? = some ')' := by simp
      rw [show name ++ "()" = "nil" from same] at last
      exact absurd last (by decide)
    | emptyMap item =>
      exact absurd same (ne_nil_of_first (a := "orderedmap.New[string, ") rfl (by decide))
  · rintro rfl
    rfl

/-! ### Lines of a struct -/

namespace Layout

def blanks (n : Nat) : String := String.ofList (List.replicate n ' ')

/-- A line shows a row if it has the name, the type and the tag, if there is one, with blanks
    between them. -/
def Row.Shown (r : Row) (line : String) : Prop :=
  ∃ m n, line = r.name ++ blanks (m + 1) ++ r.type ++ r.tag.elim "" (blanks (n + 1) ++ ·)

theorem pad_blank (n : Nat) (s : String) : pad n s ++ " " = s ++ blanks (n - width s + 1) := by
  rw [← String.toList_inj]
  simp [pad, blanks, List.replicate_succ']

theorem rowLines_shown (names : Nat) (types : Option Nat) (rows : List Row) :
    List.Forall₂ Row.Shown rows (rowLines names types rows) := by
  induction rows generalizing types with
  | nil => exact .nil
  | cons r rest ih =>
    rw [rowLines]
    split
    · next bare =>
      refine .cons ⟨names - width r.name, 0, ?_⟩ (ih none)
      rw [pad_blank, bare]
      simp
    · next tag tagged =>
      refine .cons ⟨names - width r.name,
        types.getD (runWidth (r :: rest)) - width r.type, ?_⟩ (ih _)
      simp only [pad_blank, tagged, Option.elim_some, String.append_assoc]

theorem structLines_shown (rows : List Row) : List.Forall₂ Row.Shown rows (structLines rows) := by
  unfold structLines
  split
  · next r =>
    refine .cons ⟨0, 0, ?_⟩ .nil
    cases tagged : r.tag <;> simp [Row.bare, tagged, blanks, String.append_assoc]
  · exact rowLines_shown _ _ rows

end Layout

/-- The line of a field in its struct. -/
def Field.Shown (f : Field String String) (line : String) : Prop :=
  ∃ row, Layout.Row.Shown ⟨f.name, f.type, f.tag?.map quoteTag⟩ row ∧ line = "\t" ++ row

theorem Record.lines_shown {r : Record String String} (some_ : r.fields ≠ []) :
    ∃ lines, r.lines = ("type " ++ r.name ++ " struct \x7b") :: (lines ++ ["\x7d"]) ∧
      List.Forall₂ Field.Shown r.fields lines := by
  have shown := Layout.structLines_shown
    (r.fields.map fun f => ⟨f.name, f.type, f.tag?.map quoteTag⟩)
  refine ⟨(Layout.structLines (r.fields.map fun f => ⟨f.name, f.type, f.tag?.map quoteTag⟩)).map
    ("\t" ++ ·), ?_, ?_⟩
  · rw [Record.lines, if_neg (by simpa using some_)]
    rfl
  · rw [List.forall₂_map_left_iff] at shown
    rw [List.forall₂_map_right_iff]
    exact shown.imp fun f row shows => ⟨row, shows, rfl⟩

end SchemaForge.Code

namespace SchemaForge.Compile
open Code (Ty Init)

theorem FieldFor.tagged {d : Document} {owner : String} {required : List String}
    {property : String × Schema} {f : Field} (made : FieldFor d owner required property f) :
    Code.TagFor property.1 (required.contains property.1) f.print := by
  obtain ⟨t, -, needed, free⟩ := made.typed
  have optional : f.print.default = "nil" ↔ required.contains property.1 = false := by
    rw [Code.Field.print, Code.Init.text_nil_iff]
    cases listed : required.contains property.1 with
    | true => simpa using required_init_present (needed listed).2.2
    | false => simpa using (free listed).2
  exact made.key ▸ Code.Field.tagFor optional

namespace Awkward

/-- Names that mean something to a tag: one holds a comma, one a colon and a blank, and the name of
    an optional property is a dash. -/
def parts : ObjectParts :=
  ⟨[("id", .boolean), ("a,b", .boolean), ("größe: [x]", .integer none none), ("-", .boolean)],
    ["id", "größe: [x]"], some .boolean⟩

def unnamed : ObjectParts := ⟨[("", .boolean)], [], none⟩

end Awkward

end SchemaForge.Compile
