import SchemaForge.Proofs.Pieces
import SchemaForge.Proofs.Spelling
import SchemaForge.Proofs.Tags

/-!
The declarations of a package as lines of pieces. Types, initial values and calls are parts with
tokens of their own; sets, structs, constructors and validators are lines made of them. What is
printed is read as the tokens of these lines, provided that the names in the package are spelled as
identifiers. Columns do not matter: a reader passes over blanks.
-/
namespace SchemaForge.Code
open Source (Token Part Fixed Line Calm lex)

/-- Names that are read as one word. -/
def Spelled (name : String) : Prop := Ident.isIdentifierChars name.toList = true

instance (name : String) : Decidable (Spelled name) := inferInstanceAs (Decidable (_ = true))

/-! ### Types and initial values -/

/-- A name in a package. -/
def member (package name : String) : List Token :=
  [.word package.toList, Source.dot, .word name.toList]

def Ty.tokens : Ty → List Token
  | .bool => [.word "bool".toList]
  | .string => [.word "string".toList]
  | .integer => .mark '*' :: member "big" "Int"
  | .decimal => member "decimal" "Decimal"
  | .time => member "time" "Time"
  | .bytes => [.mark '[', .mark ']', .word "byte".toList]
  | .record name => [.mark '*'] ++ [.word name.toList]
  | .slice item => [.mark '[', .mark ']'] ++ item.tokens
  | .pointer target => [.mark '*'] ++ target.tokens
  | .ordered item =>
    .mark '*' :: member "orderedmap" "OrderedMap" ++ [.mark '[', .word "string".toList, .mark ',']
      ++ item.tokens ++ [.mark ']']

def braces : List Token := [.mark '\x7b', .mark '\x7d']

def Ty.zeroTokens : Ty → List Token
  | .bool => [.word "false".toList]
  | .string => [.literal []]
  | .integer => [.word "new".toList, .mark '('] ++ member "big" "Int" ++ [.mark ')']
  | .decimal => member "decimal" "Zero"
  | .time => member "time" "Time" ++ braces
  | .record name => [.mark '&'] ++ [.word name.toList] ++ braces
  | .pointer target => [.mark '&'] ++ target.tokens ++ braces
  | .ordered item =>
    .mark '&' :: member "orderedmap" "OrderedMap" ++ [.mark '[', .word "string".toList, .mark ',']
      ++ item.tokens ++ .mark ']' :: braces
  | .bytes => [.mark '[', .mark ']', .word "byte".toList] ++ braces
  | .slice item => [.mark '[', .mark ']'] ++ item.tokens ++ braces

def Init.tokens : Init → List Token
  | .absent => [.word "nil".toList]
  | .zero type => type.zeroTokens
  | .construct constructor => [.word constructor.toList] ++ [.mark '(', .mark ')']
  | .emptyMap item =>
    member "orderedmap" "New" ++ [.mark '[', .word "string".toList, .mark ','] ++ item.tokens
      ++ [.mark ']', .mark '(', .mark ')']

def Ty.part (t : Ty) : Part := ⟨t.text, t.tokens⟩

def Init.part (init : Init) : Part := ⟨init.text, init.tokens⟩

/-- The tokens around a part are those of texts that it does not run into. -/
theorem Source.Part.Sound.between {x : Part} (sound : x.Sound) {a c : String} {ts us : List Token}
    (front : lex a = some ts ∧ Calm ts ∧ Source.endsWord a = false)
    (back : lex c = some us ∧ Calm us ∧ Source.startsWord c = false) :
    Part.Sound ⟨a ++ x.text ++ c, ts ++ x.tokens ++ us⟩ :=
  ⟨Source.lex_between front.1 sound.lexed back.1 front.2.2 back.2.2,
    (front.2.1.append sound.calm).append back.2.1⟩

theorem Source.Part.Sound.behind {x : Part} (sound : x.Sound) {a : String} {ts : List Token}
    (front : lex a = some ts ∧ Calm ts ∧ Source.endsWord a = false) :
    Part.Sound ⟨a ++ x.text, ts ++ x.tokens⟩ := by
  refine ⟨Source.lex_append front.1 sound.lexed ?_, front.2.1.append sound.calm⟩
  rw [front.2.2, Bool.false_and]

theorem Ty.part_sound {t : Ty} (spelled : ∀ name ∈ t.records, Spelled name) : t.part.Sound := by
  induction t with
  | bool | string | integer | decimal | time | bytes => exact ⟨by decide, by decide⟩
  | record name =>
    exact (Part.name_sound (spelled name List.mem_cons_self)).behind (by decide)
  | slice item ih => exact (ih spelled).behind (by decide)
  | pointer target ih => exact (ih spelled).behind (by decide)
  | ordered item ih => exact (ih spelled).between (by decide) (by decide)

theorem Ty.zero_sound {t : Ty} (spelled : ∀ name ∈ t.records, Spelled name) :
    Part.Sound ⟨t.zeroText, t.zeroTokens⟩ := by
  cases t with
  | bool | string | integer | decimal | time | bytes => exact ⟨by decide, by decide⟩
  | record name =>
    exact (Part.name_sound (spelled name List.mem_cons_self)).between (by decide)
      (by decide)
  | slice item | pointer item | ordered item =>
    have inner := Ty.part_sound (t := item) spelled
    exact inner.between (by decide) (by decide)

theorem Init.part_sound {init : Init} (spelled : ∀ name ∈ init.records, Spelled name)
    (constructed : ∀ name ∈ init.constructors, Spelled name) : init.part.Sound := by
  cases init with
  | absent => exact ⟨by decide, by decide⟩
  | zero type => exact Ty.zero_sound spelled
  | construct constructor =>
    have named := Part.name_sound (constructed constructor List.mem_cons_self)
    have nothing : lex "" = some [] ∧ Calm [] ∧ Source.endsWord "" = false := by decide
    exact named.between nothing (by decide)
  | emptyMap item => exact (Ty.part_sound spelled).between (by decide) (by decide)

/-! ### Calls -/

namespace Call

def countTokens : Option Nat → List Token
  | none => [.mark '-', .word "1".toList]
  | some n => [.word (Number.renderNat n).toList]

def count (n : Option Nat) : Part := ⟨countText n, countTokens n⟩

def bound (reader : String) : Option String → Part
  | none => .name "nil"
  | some literal => (Line.parts (.mk "") [(.name reader, .mk "(")] (.quote literal) (.mk ")")).part

def formatted (l : Line) : Option Schema.Format → Line
  | none => l
  | some .integer => .parts (.mk "validateStringResultInteger(") [] l.part (.mk ")")
  | some .number => .parts (.mk "validateStringResultNumber(") [] l.part (.mk ")")
  | some .hex => .parts (.mk "validateBytesFromStringResult(") [] l.part (.mk ")")
  | some .dateTime => .parts (.mk "validateDateTimeFromStringResult(") [] l.part (.mk ")")

def string_ (subject : String) (lo hi : Option Nat) (enum : Option String) : Line :=
  .parts (.mk "validateString(")
    [(.name subject, .mk ", "), (count lo, .mk ", "), (count hi, .mk ", ")]
    (.name (enum.getD "nil")) (.mk ")")

/-- The call applied to a name. -/
def line (subject : String) : Call → Line
  | .boolean => .parts (.mk "validateBoolean(") [] (.name subject) (.mk ")")
  | .string lo hi enum format => formatted (string_ subject lo hi enum) format
  | .integer lo hi =>
    .parts (.mk "validateInteger(")
      [(.name subject, .mk ", "), (bound "bigIntFromString" lo, .mk ", ")]
      (bound "bigIntFromString" hi) (.mk ")")
  | .number lo hi =>
    .parts (.mk "validateNumber(")
      [(.name subject, .mk ", "), (bound "bigDecimalFromString" lo, .mk ", ")]
      (bound "bigDecimalFromString" hi) (.mk ")")
  | .array lo hi item =>
    .parts (.mk "validateArray(")
      [(.name subject, .mk ", "), (count lo, .mk ", "), (count hi, .mk ", ")]
      (.name item) (.mk ")")
  | .validator name => .parts (.mk "") [(.name name, .mk "(")] (.name subject) (.mk ")")

theorem bound_text (reader : String) (literal : Option String) :
    (bound reader literal).text = boundText reader literal := by
  cases literal with
  | none => rfl
  | some literal => simp [bound, Line.part, Line.print, boundText, Part.name, Part.quote]

theorem formatted_print (l : Line) (format : Option Schema.Format) :
    (formatted l format).print = formatText l.print format := by
  cases format with
  | none => rfl
  | some format => cases format <;> rfl

theorem line_print (subject : String) (c : Call) : (c.line subject).print = c.text subject := by
  cases c with
  | boolean => rfl
  | string lo hi enum format => exact formatted_print (string_ subject lo hi enum) format
  | integer lo hi | number lo hi =>
    change _ ++ (bound _ lo).text ++ _ ++ (bound _ hi).text ++ _ = _
    rw [bound_text, bound_text]
    rfl
  | array lo hi item => rfl
  | validator name =>
    change "" ++ name ++ _ ++ _ ++ _ = _
    rw [String.empty_append]
    rfl

theorem count_sound (n : Option Nat) : (count n).Sound := by
  cases n with
  | none => exact ⟨by decide, by decide⟩
  | some n =>
    have digit : ∀ d < 10, Ident.isPart (Nat.digitChar d) = true := by decide
    obtain ⟨ds, some_, small, chars, -⟩ := Number.digits_toDigits n
    have text : (Number.renderNat n).toList = ds.map Nat.digitChar := by
      rw [Number.renderNat, String.toList_ofList, chars]
    have parts : ∀ c ∈ (Number.renderNat n).toList, Ident.isPart c = true := by
      intro c inside
      rw [text] at inside
      obtain ⟨d, member, rfl⟩ := List.mem_map.mp inside
      exact digit d (small d member)
    have chars_ : (Number.renderNat n).toList ≠ [] := by simpa [text] using some_
    exact ⟨Source.lex_word chars_ parts, Source.calm_single (by simp [Source.dot])⟩

theorem bound_sound {reader : String} (spelled : Spelled reader) (literal : Option String) :
    (bound reader literal).Sound := by
  cases literal with
  | none => exact Part.name_sound (by decide)
  | some literal =>
    apply Line.part_sound
    simp [Part.name_sound spelled, Part.quote_sound]

theorem formatted_sound {l : Line} (sound : l.Sound) (format : Option Schema.Format) :
    (formatted l format).Sound := by
  cases format with
  | none => exact sound
  | some format => cases format <;> simp [formatted, Line.part_sound sound]

theorem string_sound {subject : String} (spelled : Spelled subject) (lo hi : Option Nat)
    {enum : Option String} (listed : ∀ name ∈ enum, Spelled name) :
    (string_ subject lo hi enum).Sound := by
  have set : (Part.name (enum.getD "nil")).Sound := by
    cases enum with
    | none => exact Part.name_sound (by decide)
    | some set => exact Part.name_sound (listed set rfl)
  simp [string_, Part.name_sound spelled, count_sound, set]

theorem line_sound {subject : String} (spelled : Spelled subject) {c : Call}
    (called : ∀ name ∈ c.validators, Spelled name) (listed : ∀ name ∈ c.sets, Spelled name) :
    (c.line subject).Sound := by
  have subject_ := Part.name_sound spelled
  cases c with
  | boolean => simp [line, subject_]
  | string lo hi enum format =>
    refine formatted_sound (string_sound spelled lo hi ?_) format
    intro name used
    exact listed name (by simp_all [sets])
  | integer lo hi =>
    have reader : Spelled "bigIntFromString" := by decide
    simp [line, subject_, bound_sound reader]
  | number lo hi =>
    have reader : Spelled "bigDecimalFromString" := by decide
    simp [line, subject_, bound_sound reader]
  | array lo hi item =>
    have named := Part.name_sound (called item (by simp [validators]))
    simp [line, subject_, count_sound, named]
  | validator name =>
    have named := Part.name_sound (called name List.mem_cons_self)
    simp [line, subject_, named]

end Call

/-! ### Sets -/

def quotes (values : List String) : Part :=
  ⟨Text.joinWith ", " (values.map Text.quoted),
    match values with
    | [] => []
    | v :: rest =>
      .literal (Utf8.encode v) :: rest.flatMap fun w => [.mark ',', .literal (Utf8.encode w)]⟩

def StringSet.line (s : StringSet) : Line :=
  .parts (.mk "var ") [(.name s.name, .mk " = toSet(")] (quotes s.values) (.mk ")")

theorem quotes_sound (values : List String) : (quotes values).Sound := by
  cases values with
  | nil => exact ⟨rfl, by decide⟩
  | cons v rest =>
    have general : ∀ x : Part, x.Sound →
        Part.Sound ⟨(rest.map Text.quoted).foldl (fun acc t => acc ++ ", " ++ t) x.text,
          x.tokens ++ rest.flatMap fun w => [.mark ',', .literal (Utf8.encode w)]⟩ := by
      induction rest with
      | nil =>
        intro x sound
        simpa using sound
      | cons w rest ih =>
        intro x sound
        have comma : lex ", " = some [.mark ','] ∧ Calm [.mark ','] ∧
            Source.endsWord ", " = false := by decide
        have next := (Part.quote_sound w).behind comma
        have joined : Part.Sound ⟨x.text ++ ", " ++ Text.quoted w,
            x.tokens ++ [.mark ',', .literal (Utf8.encode w)]⟩ := by
          refine ⟨?_, sound.calm.append next.calm⟩
          rw [String.append_assoc]
          refine Source.lex_append sound.lexed next.lexed ?_
          simp [Source.startsWord, show Ident.isPart ',' = false by decide]
        simpa using ih _ joined
    exact general _ (Part.quote_sound v)

theorem StringSet.line_sound {s : StringSet} (spelled : Spelled s.name) : s.line.Sound := by
  simp [line, Part.name_sound spelled, quotes_sound]

/-! ### Columns -/

namespace Layout

theorem blanks_read (n : Nat) : Source.Reads .code (blanks n).toList [] .code := by
  rw [blanks, String.toList_ofList]
  induction n with
  | zero => exact .nil _
  | succ n ih =>
    have step : Source.State.next .code ' ' = some ([], .code) := by
      simp [Source.State.next, Source.enter]
    exact .cons step ih

theorem blanks_apart (n : Nat) (before : String) :
    Source.startsWord (blanks (n + 1)) = false ∧
      Source.endsWord (before ++ blanks (n + 1)) = false := by
  have space : Ident.isPart ' ' = false := by decide
  have chars : (blanks (n + 1)).toList = List.replicate n ' ' ++ [' '] := by
    simp [blanks, List.replicate_succ']
  refine ⟨by simp [Source.startsWord, blanks, List.replicate_succ, space], ?_⟩
  rw [Source.endsWord, String.toList_append, chars, ← List.append_assoc, List.getLast?_concat,
    Option.any_some, space]

theorem lex_spaced (c : Fixed false true) (n : Nat) :
    lex (c.text ++ blanks (n + 1)) = some c.tokens := by
  have apart := (blanks_apart n "").1
  have read := Source.lex_append c.lexed (Source.lex_of_reads (blanks_read (n + 1)))
    (by rw [apart, Bool.and_false])
  rwa [List.append_nil] at read

/-- Code with one blank or more after it. -/
def spaced (c : Fixed false true) (n : Nat) : Fixed false false :=
  ⟨c.text ++ blanks (n + 1), by
    obtain ⟨code, calm, local_, -⟩ := c.checks
    have starts : Source.startsWord (c.text ++ blanks (n + 1)) = false := by
      cases chars : c.text.toList with
      | nil =>
        rw [String.toList_eq_nil_iff.mp chars, String.empty_append]
        exact (blanks_apart n "").1
      | cons first rest =>
        have own := c.apart_before
        rw [Source.startsWord, chars] at own
        rw [Source.startsWord, String.toList_append, chars]
        exact own
    have ends := (blanks_apart n c.text).2
    have some_ : c.text ++ blanks (n + 1) ≠ "" := by
      intro empty
      have last := congrArg (fun text => text.toList.length) empty
      simp [blanks] at last
    simp [Source.isFixed, lex_spaced, starts, ends, some_, code, calm, local_]⟩

@[simp] theorem spaced_text (c : Fixed false true) (n : Nat) :
    (spaced c n).text = c.text ++ blanks (n + 1) := rfl

@[simp] theorem spaced_tokens (c : Fixed false true) (n : Nat) :
    (spaced c n).tokens = c.tokens := by
  rw [Fixed.tokens, spaced, lex_spaced]
  rfl

/-- A line shows an entry if it has the key and the value, with a colon and blanks between them. -/
def Entry.Shown (e : Entry) (line : String) : Prop :=
  ∃ n, line = e.key ++ (":" ++ blanks (n + 1)) ++ e.value ++ ","

theorem sectionsFrom_flatten (current : Section) (es : List Entry) :
    (sectionsFrom current es).flatten = current.entries.reverse ++ es := by
  induction es generalizing current with
  | nil => simp [sectionsFrom]
  | cons e rest ih =>
    rw [sectionsFrom]
    split
    · rw [ih, Section.add, List.reverse_cons, List.append_assoc]
      rfl
    · rw [List.flatten_cons, ih]
      rfl

theorem sectionLines_shown (es : List Entry) :
    List.Forall₂ Entry.Shown es (sectionLines es) := by
  rw [sectionLines, List.forall₂_map_right_iff, List.forall₂_same]
  intro e _
  refine ⟨widest (es.map (·.key)) + 1 - width (e.key ++ ":"), ?_⟩
  rw [pad_blank, @String.append_assoc e.key ":"]

theorem keyedLines_shown (es : List Entry) : List.Forall₂ Entry.Shown es (keyedLines es) := by
  have general : ∀ groups : List (List Entry),
      List.Forall₂ Entry.Shown groups.flatten (groups.flatMap sectionLines) := by
    intro groups
    induction groups with
    | nil => exact .nil
    | cons group groups ih => exact List.rel_append (sectionLines_shown group) ih
  unfold keyedLines
  split
  · next e =>
    refine .cons ⟨0, ?_⟩ .nil
    rw [show ":" ++ blanks (0 + 1) = ": " by decide]
  · have whole : (sections es).flatten = es := by
      cases es with
      | nil => rfl
      | cons e rest => exact sectionsFrom_flatten (.start e) rest
    simpa only [whole] using general (sections es)

end Layout

/-! ### Structs and their constructors -/

/-- The line is read as the tokens of the pieces. -/
def Reads (line : String) (l : Line) : Prop := lex line = some l.tokens

theorem printed_reads {lines : List Line} (sound : ∀ l ∈ lines, l.Sound) :
    List.Forall₂ Reads (lines.map Line.print) lines := by
  rw [List.forall₂_map_left_iff, List.forall₂_same]
  exact fun l member => Line.lexed (sound l member)

theorem line_reads {text : String} {l : Line} (same : l.print = text) (sound : l.Sound) :
    List.Forall₂ Reads [text] [l] :=
  .cons (same ▸ Line.lexed sound) .nil

theorem reads_append {as bs : List String} {ls ms : List Line} (first : List.Forall₂ Reads as ls)
    (second : List.Forall₂ Reads bs ms) : List.Forall₂ Reads (as ++ bs) (ls ++ ms) :=
  List.rel_append first second

theorem each_reads {α : Type} {P : α → Prop} {R : α → String → Prop} {line : α → Line}
    (read : ∀ a text, P a → R a text → Reads text (line a)) {as : List α} {lines : List String}
    (clean : ∀ a ∈ as, P a) (shown : List.Forall₂ R as lines) :
    List.Forall₂ Reads lines (as.map line) := by
  induction shown with
  | nil => exact .nil
  | cons first _ ih =>
    refine .cons (read _ _ (clean _ List.mem_cons_self) first) (ih ?_)
    exact fun a member => clean a (List.mem_cons_of_mem _ member)

namespace Field

def row (f : Field Ty Init) : Line :=
  match f.print.tag? with
  | none => .parts (.mk "\t") [(.name f.name, Layout.spaced (.mk "") 0)] f.type.part (.mk "")
  | some tag =>
    .parts (.mk "\t")
      [(.name f.name, Layout.spaced (.mk "") 0), (f.type.part, Layout.spaced (.mk "") 0)]
      (.tag tag) (.mk "")

def entry (f : Field Ty Init) : Line :=
  .parts (.mk "\t\t") [(.name f.name, Layout.spaced (.mk ":") 0)] f.default.part (.mk ",")

/-- The names in a field can be read back, and so can its tag. -/
structure Clean (f : Field Ty Init) : Prop where
  name : Spelled f.name
  records : ∀ name ∈ f.type.records ++ f.default.records, Spelled name
  constructors : ∀ name ∈ f.default.constructors, Spelled name
  tag : ∀ tag, f.print.tag? = some tag → byteOrderMark ∉ tag.toList

variable {f : Field Ty Init}

theorem Clean.type (clean : f.Clean) : f.type.part.Sound :=
  Ty.part_sound fun name used => clean.records name (List.mem_append_left _ used)

theorem Clean.default (clean : f.Clean) : f.default.part.Sound :=
  Init.part_sound (fun name used => clean.records name (List.mem_append_right _ used))
    clean.constructors

/-- A tag is made of letters of its own and the characters of a name that it can hold. -/
theorem tag_letters {f : Field String String} {tag : String} (tagged : f.tag? = some tag) {c : Char}
    (inside : c ∈ tag.toList) : c ∈ "json:\"-,omitempty".toList ∨ isTagChar c = true := by
  have letters : ∀ text : String,
      (text.toList.all fun d => "json:\"-,omitempty".toList.contains d) = true →
        c ∈ text.toList → c ∈ "json:\"-,omitempty".toList := by
    intro text known own
    exact List.contains_iff_mem.mp (List.all_eq_true.mp known c own)
  by_cases empty : f.key = ""
  · obtain rfl := Option.some.inj ((tag_empty empty).symm.trans tagged)
    exact .inl (letters _ (by decide) inside)
  · have fit : ∀ d ∈ f.key.toList, isTagChar d = true := by
      intro d own
      by_contra unfit
      rw [tag_unfit own (by simpa using unfit)] at tagged
      cases tagged
    rw [tag_fit empty fit] at tagged
    obtain rfl := Option.some.inj tagged
    simp only [String.toList_append, List.mem_append] at inside
    rcases inside with (front | middle) | back
    · exact .inl (letters _ (by decide) front)
    · split at middle
      · rw [String.toList_append, List.mem_append] at middle
        rcases middle with own | option
        · exact .inr (fit c own)
        · exact .inl (letters _ (by decide) option)
      · exact .inr (fit c middle)
    · exact .inl (letters _ (by decide) back)

theorem tag_plain {f : Field String String} {tag : String} (tagged : f.tag? = some tag) :
    ∀ c ∈ tag.toList, c ∉ ['\x60', '\n', '\x00'] := by
  have unfit : ['\x60', '\n', '\x00'].all (!isTagChar ·) = true := by decide
  have fixed : ['\x60', '\n', '\x00'].all (!"json:\"-,omitempty".toList.contains ·) = true := by
    decide
  intro c inside listed
  rcases tag_letters tagged inside with known | fit
  · have other := List.all_eq_true.mp fixed c listed
    simp only [List.contains_iff_mem.mpr known, Bool.not_true] at other
    cases other
  · have other := List.all_eq_true.mp unfit c listed
    rw [fit] at other
    cases other

theorem Clean.free (clean : f.Clean) {tag : String} (tagged : f.print.tag? = some tag) :
    (Part.tag tag).Sound := by
  apply Part.tag_sound
  intro c inside
  obtain ⟨closed, line, null⟩ : c ≠ '\x60' ∧ c ≠ '\n' ∧ c ≠ '\x00' := by
    simpa using tag_plain tagged c inside
  refine ⟨closed, ?_⟩
  have marked : c ≠ byteOrderMark := by
    rintro rfl
    exact clean.tag tag tagged inside
  simp [Source.isBarred, line, null, marked]

theorem row_sound (clean : f.Clean) : f.row.Sound := by
  have named := Part.name_sound clean.name
  unfold row
  split
  · simp [named, clean.type]
  · next tag tagged => simp [named, clean.type, clean.free tagged]

theorem row_reads {line : String} (clean : f.Clean) (shown : f.print.Shown line) :
    Reads line f.row := by
  have named := Part.name_sound clean.name
  obtain ⟨_, ⟨m, n, rfl⟩, rfl⟩ := shown
  change lex ("\t" ++ (f.name ++ Layout.blanks (m + 1) ++ f.type.text ++
    (f.print.tag?.map quoteTag).elim "" (Layout.blanks (n + 1) ++ ·))) = _
  unfold row
  split
  · next bare =>
    let l : Line := .parts (.mk "\t") [(.name f.name, Layout.spaced (.mk "") m)] f.type.part
      (.mk "")
    have sound : l.Sound := by simp [l, named, clean.type]
    rw [bare]
    simpa [l, Line.print, Line.tokens, Part.name, Ty.part, String.append_assoc]
      using Line.lexed sound
  · next tag tagged =>
    let l : Line := .parts (.mk "\t")
      [(.name f.name, Layout.spaced (.mk "") m), (f.type.part, Layout.spaced (.mk "") n)]
      (.tag tag) (.mk "")
    have sound : l.Sound := by simp [l, named, clean.type, clean.free tagged]
    rw [tagged]
    simpa [l, Line.print, Line.tokens, Part.name, Part.tag, Ty.part, String.append_assoc]
      using Line.lexed sound

theorem entry_sound (clean : f.Clean) : f.entry.Sound := by
  simp [entry, Part.name_sound clean.name, clean.default]

theorem entry_reads {line : String} (clean : f.Clean)
    (shown : ∃ shown, Layout.Entry.Shown ⟨f.name, f.default.text⟩ shown ∧ line = "\t\t" ++ shown) :
    Reads line f.entry := by
  obtain ⟨_, ⟨n, rfl⟩, rfl⟩ := shown
  let l : Line := .parts (.mk "\t\t") [(.name f.name, Layout.spaced (.mk ":") n)] f.default.part
    (.mk ",")
  have sound : l.Sound := by simp [l, Part.name_sound clean.name, clean.default]
  simpa [l, entry, Reads, Line.print, Line.tokens, Part.name, Init.part, String.append_assoc]
    using Line.lexed sound

end Field

namespace Record

def block (r : Record Ty Init) : List Line :=
  if r.fields.isEmpty then [.parts (.mk "type ") [] (.name r.name) (.mk " struct\x7b\x7d")]
  else
    [.parts (.mk "type ") [] (.name r.name) (.mk " struct \x7b")] ++ r.fields.map (·.row)
      ++ [.fixed (.mk "\x7d")]

def constructorBlock (r : Record Ty Init) : List Line :=
  [.parts (.mk "func ") [(.name r.constructor, .mk "() *")] (.name r.name) (.mk " \x7b")]
    ++ (if r.fields.isEmpty then
        [.parts (.mk "\treturn &") [] (.name r.name) (.mk "\x7b\x7d")]
      else
        [.parts (.mk "\treturn &") [] (.name r.name) (.mk "\x7b")] ++ r.fields.map (·.entry)
          ++ [.fixed (.mk "\t\x7d")])
    ++ [.fixed (.mk "\x7d")]

structure Clean (r : Record Ty Init) : Prop where
  name : Spelled r.name
  constructor : Spelled r.constructor
  fields : ∀ f ∈ r.fields, f.Clean

variable {r : Record Ty Init}

theorem block_sound (clean : r.Clean) : ∀ l ∈ r.block, l.Sound := by
  have named := Part.name_sound clean.name
  have rows := fun f member => Field.row_sound (clean.fields f member)
  unfold block
  split
  · simp [named]
  · simpa [named, or_imp, forall_and] using rows

theorem constructor_sound (clean : r.Clean) : ∀ l ∈ r.constructorBlock, l.Sound := by
  have named := Part.name_sound clean.name
  have made := Part.name_sound clean.constructor
  have entries := fun f member => Field.entry_sound (clean.fields f member)
  unfold constructorBlock
  split
  · simp [named, made]
  · simpa [named, made, or_imp, forall_and] using entries

theorem lines_read (clean : r.Clean) : List.Forall₂ Reads r.print.lines r.block := by
  have named := Part.name_sound clean.name
  unfold block
  cases empty : r.fields.isEmpty with
  | true =>
    have none : r.print.fields.isEmpty = true := by simpa [print] using empty
    rw [Record.lines, if_pos none]
    exact line_reads rfl (by simp [named])
  | false =>
    have some_ : r.print.fields ≠ [] := by simpa [print] using empty
    obtain ⟨rows, lines, shown⟩ := Record.lines_shown some_
    rw [print, List.forall₂_map_left_iff] at shown
    have inner := each_reads (fun _ _ => Field.row_reads) clean.fields shown
    rw [lines]
    change List.Forall₂ Reads ([_] ++ rows ++ [_]) _
    exact reads_append (reads_append (line_reads rfl (by simp [named])) inner)
      (line_reads rfl (by simp))

theorem constructor_read (clean : r.Clean) :
    List.Forall₂ Reads r.print.constructorLines r.constructorBlock := by
  have named := Part.name_sound clean.name
  have made := Part.name_sound clean.constructor
  unfold Record.constructorLines constructorBlock
  refine reads_append (reads_append (line_reads rfl (by simp [named, made])) ?_)
    (line_reads rfl (by simp))
  cases empty : r.fields.isEmpty with
  | true =>
    have none : r.print.fields.isEmpty = true := by simpa [print] using empty
    rw [if_pos none]
    exact line_reads rfl (by simp [named])
  | false =>
    have some_ : ¬ r.print.fields.isEmpty = true := by simpa [print] using empty
    have shown := Layout.keyedLines_shown (r.print.fields.map fun f => ⟨f.name, f.default⟩)
    rw [List.forall₂_map_left_iff, print, List.forall₂_map_left_iff] at shown
    have inner := each_reads (fun _ _ => Field.entry_reads) clean.fields
      (List.forall₂_map_right_iff.mpr (shown.imp fun _ text here => ⟨text, here, rfl⟩))
    rw [if_neg some_]
    exact reads_append (reads_append (line_reads rfl (by simp [named])) inner)
      (line_reads rfl (by simp))

end Record

end SchemaForge.Code
