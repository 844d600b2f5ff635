import SchemaForge.Proofs.SourceText

/-!
Imports and the packages that the code uses. The import block is decided by a search for texts like
`big.` in the types and initial values that are declared. Such a text can only be a qualifier: names
made from a document have no dots, so none of them can contain one. Conversely, every word before a
dot in the whole file is a local name or comes from a declared type or initial value. Hence what is
imported is what is used.
-/
namespace SchemaForge

namespace Text

theorem startsWith_iff (lead s : List Char) : startsWith lead s = true ↔ lead <+: s := by
  unfold startsWith
  induction lead generalizing s with
  | nil => simp [dropPrefix?]
  | cons c lead ih =>
    cases s with
    | nil => simp [dropPrefix?]
    | cons d s =>
      rw [dropPrefix?, List.cons_prefix_cons]
      split
      · next same => simp [same, ih]
      · next other => simp [other]

theorem contains_iff (needle s : List Char) : contains needle s = true ↔ needle <:+: s := by
  induction s with
  | nil => simp [contains]
  | cons c s ih => rw [contains, Bool.or_eq_true, startsWith_iff, ih, List.infix_cons_iff]

end Text

namespace Code
open Source (Token Part Line Calm lex foreign)

/-- The packages that code may use. -/
def packageNames : List String := ["big", "time", "decimal", "orderedmap"]

/-- A text has the name of a package with a dot after it somewhere. -/
def Occurs (name text : String) : Prop :=
  Text.contains (name.toList ++ ['.']) text.toList = true

instance (name text : String) : Decidable (Occurs name text) := inferInstanceAs (Decidable (_ = _))

def Ty.packages : Ty → List String
  | .integer => ["big"]
  | .decimal => ["decimal"]
  | .time => ["time"]
  | .slice item => item.packages
  | .pointer target => target.packages
  | .ordered item => "orderedmap" :: item.packages
  | _ => []

def Init.packages : Init → List String
  | .zero type => type.packages
  | .emptyMap item => "orderedmap" :: item.packages
  | _ => []

/-! ### Where a qualifier can occur -/

theorem dotted_split {name front back : List Char} (more : back ≠ [])
    (whole : name ++ ['.'] = front ++ back) :
    ∃ inner, back = inner ++ ['.'] ∧ name = front ++ inner := by
  obtain ⟨inner, last, rfl⟩ := (List.eq_nil_or_concat' back).resolve_left more
  rw [← List.append_assoc] at whole
  obtain ⟨names, ends⟩ := List.append_inj' whole rfl
  obtain rfl : '.' = last := by simpa using ends
  exact ⟨inner, rfl, names⟩

theorem parts_of_known {name : String} (known : name ∈ packageNames) :
    ∀ c ∈ name.toList, Ident.isPart c = true := by
  have all : packageNames.all (·.toList.all Ident.isPart) = true := by decide
  exact List.all_eq_true.mp (List.all_eq_true.mp all name known)

/-- A qualifier does not reach over the end of a text that no word can run out of. -/
theorem occurs_append {name a b : String} (known : name ∈ packageNames)
    (apart : Source.endsWord a = false) :
    Occurs name (a ++ b) ↔ Occurs name a ∨ Occurs name b := by
  unfold Occurs
  rw [Text.contains_iff, Text.contains_iff, Text.contains_iff, String.toList_append,
    List.infix_append_iff_ne_nil]
  constructor
  · rintro (first | second | ⟨front, back, some_, more, whole, ⟨before, ends⟩, -⟩)
    · exact .inl first
    · exact .inr second
    · -- The last character before the border belongs to the name, so a word runs over it.
      obtain ⟨inner, -, split⟩ := dotted_split more whole
      obtain ⟨init, c, rfl⟩ := (List.eq_nil_or_concat' front).resolve_left some_
      have part : Ident.isPart c = true := parts_of_known known c (by simp [split])
      rw [Source.endsWord, ← ends, ← List.append_assoc, List.getLast?_concat, Option.any_some,
        part] at apart
      cases apart
  · rintro (first | second)
    · exact .inl first
    · exact .inr (.inl second)

theorem occurs_before {name a b : String} (free : '.' ∉ b.toList) :
    Occurs name (a ++ b) ↔ Occurs name a := by
  unfold Occurs
  rw [Text.contains_iff, Text.contains_iff, String.toList_append, List.infix_append_iff_ne_nil]
  constructor
  · rintro (first | second | ⟨front, back, -, more, whole, -, starts⟩)
    · exact first
    · exact absurd (second.subset (by simp)) free
    · obtain ⟨inner, rfl, -⟩ := dotted_split more whole
      exact absurd (starts.subset (by simp)) free
  · exact .inl

/-! ### The packages of types and initial values -/

/-- The search for qualifiers in the text of a part finds the packages that its tokens use. -/
structure Exposes (x : Part) (packages : List String) : Prop where
  calm : Calm x.tokens
  found : ∀ name ∈ packageNames, Occurs name x.text ↔ name ∈ packages
  used : foreign x.tokens = packages.map String.toList

namespace Exposes
variable {x a c : Part} {packages outer : List String}

/-- What is to be checked of a part that is known beforehand. -/
def check (packages : List String) (x : Part) : Bool :=
  decide (Calm x.tokens) && (foreign x.tokens == packages.map String.toList)
    && packageNames.all fun n => decide (Occurs n x.text) == packages.contains n

theorem of_check (checked : check packages x = true) : Exposes x packages := by
  simp only [check, Bool.and_eq_true, decide_eq_true_eq, beq_iff_eq, List.all_eq_true] at checked
  refine ⟨checked.1.1, fun name known => ?_, checked.1.2⟩
  rw [← List.contains_iff_mem, ← checked.2 name known, decide_eq_true_eq]

theorem behind (inner : Exposes x packages) (front : Exposes a outer)
    (apart : Source.endsWord a.text = false) :
    Exposes ⟨a.text ++ x.text, a.tokens ++ x.tokens⟩ (outer ++ packages) where
  calm := front.calm.append inner.calm
  found name known := by
    rw [occurs_append known apart, front.found name known, inner.found name known, List.mem_append]
  used := by
    rw [Source.foreign_append front.calm inner.calm, front.used, inner.used, List.map_append]

theorem before (inner : Exposes x packages)
    (back : (check [] c && !c.text.toList.contains '.') = true) :
    Exposes ⟨x.text ++ c.text, x.tokens ++ c.tokens⟩ packages := by
  obtain ⟨checked, free⟩ := Bool.and_eq_true_iff.mp back
  have last := of_check checked
  refine ⟨inner.calm.append last.calm, fun name known => ?_, ?_⟩
  · rw [occurs_before (by simpa using free), inner.found name known]
  · rw [Source.foreign_append inner.calm last.calm, inner.used, last.used]
    simp

theorem name {n : String} (spelled : Spelled n) : Exposes (.name n) [] := by
  refine ⟨(Part.name_sound spelled).calm, fun name _ => ?_, rfl⟩
  rw [Occurs, Text.contains_iff, List.mem_nil_iff, iff_false]
  intro found
  have part := List.all_eq_true.mp (Ident.all_isPart spelled) '.' (found.subset (by simp))
  exact absurd part (by decide)

end Exposes

theorem Ty.exposes {t : Ty} (spelled : ∀ n ∈ t.records, Spelled n) :
    Exposes t.part t.packages := by
  have star : Exposes ⟨"*", [.mark '*']⟩ [] := .of_check (by decide)
  induction t with
  | bool | string | integer | decimal | time | bytes => exact .of_check (by decide)
  | record n => exact (Exposes.name (spelled n List.mem_cons_self)).behind star (by decide)
  | pointer target ih => exact (ih spelled).behind star (by decide)
  | slice item ih =>
    have front : Exposes ⟨"[]", [.mark '[', .mark ']']⟩ [] := .of_check (by decide)
    exact (ih spelled).behind front (by decide)
  | ordered item ih =>
    have front : Exposes ⟨"*orderedmap.OrderedMap[string, ",
        .mark '*' :: member "orderedmap" "OrderedMap" ++
          [.mark '[', .word "string".toList, .mark ',']⟩ ["orderedmap"] :=
      .of_check (by decide)
    exact ((ih spelled).behind front (by decide)).before (c := ⟨"]", [.mark ']']⟩)
      (by decide)

theorem Ty.zero_exposes {t : Ty} (spelled : ∀ n ∈ t.records, Spelled n) :
    Exposes ⟨t.zeroText, t.zeroTokens⟩ t.packages := by
  have address : Exposes ⟨"&", [.mark '&']⟩ [] := .of_check (by decide)
  cases t with
  | bool | string | integer | decimal | time | bytes => exact .of_check (by decide)
  | record n =>
    exact ((Exposes.name (spelled n List.mem_cons_self)).behind address (by decide)).before
      (c := ⟨"\x7b\x7d", braces⟩) (by decide)
  | pointer item =>
    exact ((Ty.exposes (t := item) spelled).behind address (by decide)).before
      (c := ⟨"\x7b\x7d", braces⟩) (by decide)
  | slice item =>
    have front : Exposes ⟨"[]", [.mark '[', .mark ']']⟩ [] := .of_check (by decide)
    exact ((Ty.exposes (t := item) spelled).behind front (by decide)).before
      (c := ⟨"\x7b\x7d", braces⟩) (by decide)
  | ordered item =>
    have front : Exposes ⟨"&orderedmap.OrderedMap[string, ",
        .mark '&' :: member "orderedmap" "OrderedMap" ++
          [.mark '[', .word "string".toList, .mark ',']⟩ ["orderedmap"] :=
      .of_check (by decide)
    exact ((Ty.exposes (t := item) spelled).behind front (by decide)).before
      (c := ⟨"]\x7b\x7d", .mark ']' :: braces⟩) (by decide)

theorem Init.exposes {init : Init} (spelled : ∀ n ∈ init.records, Spelled n)
    (constructed : ∀ n ∈ init.constructors, Spelled n) : Exposes init.part init.packages := by
  cases init with
  | absent => exact .of_check (by decide)
  | zero type => exact Ty.zero_exposes spelled
  | construct constructor =>
    exact (Exposes.name (constructed constructor List.mem_cons_self)).before
      (c := ⟨"()", [.mark '(', .mark ')']⟩) (by decide)
  | emptyMap item =>
    have front : Exposes ⟨"orderedmap.New[string, ",
        member "orderedmap" "New" ++ [.mark '[', .word "string".toList, .mark ',']⟩
        ["orderedmap"] := .of_check (by decide)
    exact ((Ty.exposes (t := item) spelled).behind front (by decide)).before
      (c := ⟨"]()", [.mark ']', .mark '(', .mark ')']⟩) (by decide)

/-! ### The packages of declarations -/

/-- The packages that the parts of lines use. -/
def usedIn (lines : List Line) : List (List Char) :=
  lines.flatMap fun l => l.pieces.flatMap fun x => foreign x.tokens

@[simp] theorem usedIn_nil : usedIn [] = [] := rfl

@[simp] theorem usedIn_cons (l : Line) (ls : List Line) :
    usedIn (l :: ls) = (l.pieces.flatMap fun x => foreign x.tokens) ++ usedIn ls :=
  rfl

@[simp] theorem usedIn_append (ls ms : List Line) : usedIn (ls ++ ms) = usedIn ls ++ usedIn ms :=
  List.flatMap_append

theorem usedIn_map {α : Type} (line : α → Line) (as : List α) :
    usedIn (as.map line) = as.flatMap fun a => usedIn [line a] := by
  simp [usedIn, List.flatMap_map]

theorem usedIn_flatMap {α : Type} (lines : α → List Line) (as : List α) :
    usedIn (as.flatMap lines) = as.flatMap fun a => usedIn (lines a) :=
  List.flatMap_assoc

theorem broken_used {lines : List Line} (sound : ∀ l ∈ lines, l.Sound) :
    Calm (Source.broken (lines.map (·.tokens))) ∧
      foreign (Source.broken (lines.map (·.tokens))) = usedIn lines := by
  induction lines with
  | nil => exact ⟨by decide, rfl⟩
  | cons l lines ih =>
    obtain ⟨calm, used⟩ := ih fun m member => sound m (List.mem_cons_of_mem l member)
    have own := Line.calm (sound l List.mem_cons_self)
    have break_ : Calm [.newline] := by decide
    rw [List.map_cons, Source.broken, List.flatMap_cons, ← Source.broken]
    refine ⟨(own.append break_).append calm, ?_⟩
    rw [Source.foreign_append (own.append break_) calm, Source.foreign_append own break_, used,
      Line.foreign_eq (sound l List.mem_cons_self), usedIn_cons]
    simp [show foreign [.newline] = [] from rfl]

theorem blocks_used {blocks : List (List Line)} (sound : ∀ block ∈ blocks, ∀ l ∈ block, l.Sound) :
    Calm (blockTokens blocks) ∧ foreign (blockTokens blocks) = blocks.flatMap usedIn := by
  induction blocks with
  | nil => exact ⟨by decide, rfl⟩
  | cons block blocks ih =>
    obtain ⟨calm, used⟩ := ih fun b member => sound b (List.mem_cons_of_mem block member)
    obtain ⟨own, here⟩ := broken_used (sound block List.mem_cons_self)
    have break_ : Calm [.newline] := by decide
    have head : Calm (.newline :: Source.broken (block.map (·.tokens))) := break_.append own
    rw [blockTokens, List.flatMap_cons, ← blockTokens, List.flatMap_cons, ← here, ← used]
    refine ⟨head.append calm, ?_⟩
    rw [Source.foreign_append head calm]
    exact congrArg (· ++ _) (Source.foreign_append break_ own)

theorem name_used (n : String) : foreign (Part.name n).tokens = [] := rfl

theorem quote_used (content : String) : foreign (Part.quote content).tokens = [] := rfl

theorem assigned_used (field : String) : foreign (assigned field).tokens = [] := by
  have tokens : Source.qualifiers (assigned field).tokens = ["value".toList] := by
    simp [assigned, member, Source.qualifiers, Source.qualifiersFrom, Source.dot,
      Source.Token.word?]
  rw [foreign, tokens]
  decide

theorem wordless_used {after : Bool} {ts : List Token} (wordless : ∀ t ∈ ts, t.word? = none) :
    Source.qualifiersFrom after ts = [] := by
  induction ts generalizing after with
  | nil => rfl
  | cons t ts ih =>
    rw [Source.qualifiersFrom, wordless t List.mem_cons_self,
      ih fun u later => wordless u (List.mem_cons_of_mem t later)]
    simp

theorem quotes_used (values : List String) : foreign (quotes values).tokens = [] := by
  have wordless : ∀ t ∈ (quotes values).tokens, t.word? = none := by
    cases values with
    | nil => simp [quotes]
    | cons v rest =>
      intro t member
      simp only [quotes, List.mem_cons, List.mem_flatMap, List.not_mem_nil, or_false] at member
      rcases member with rfl | ⟨w, -, rfl | rfl⟩ <;> rfl
  rw [foreign, Source.qualifiers, wordless_used wordless]
  rfl

namespace Call

theorem count_used (n : Option Nat) : foreign (count n).tokens = [] := by
  cases n <;> rfl

theorem bound_used {reader : String} (spelled : Spelled reader) (literal : Option String) :
    foreign (bound reader literal).tokens = [] := by
  cases literal with
  | none => rfl
  | some literal =>
    rw [bound, Line.part, Line.foreign_eq (by simp [Part.name_sound spelled, Part.quote_sound])]
    simp [Line.pieces, name_used, quote_used]

theorem formatted_used {l : Line} (sound : l.Sound) (format : Option Schema.Format) :
    foreign (formatted l format).tokens = foreign l.tokens := by
  cases format with
  | none => rfl
  | some format =>
    rw [Line.foreign_eq (formatted_sound sound _)]
    cases format <;> simp [formatted, Line.pieces, Line.part]

/-- Calls name functions only. -/
theorem line_used {subject : String} (spelled : Spelled subject) {c : Call}
    (called : ∀ name ∈ c.validators, Spelled name) (listed : ∀ name ∈ c.sets, Spelled name) :
    foreign (c.line subject).tokens = [] := by
  have sound := line_sound spelled called listed
  cases c with
  | string lo hi enum format =>
    have inner : (string_ subject lo hi enum).Sound := by
      refine string_sound spelled lo hi fun name used => ?_
      exact listed name (by simp_all [sets])
    rw [line, formatted_used inner, Line.foreign_eq inner]
    simp [string_, Line.pieces, name_used, count_used]
  | integer lo hi =>
    have reader : Spelled "bigIntFromString" := by decide
    rw [Line.foreign_eq sound]
    simp [line, Line.pieces, name_used, bound_used reader]
  | number lo hi =>
    have reader : Spelled "bigDecimalFromString" := by decide
    rw [Line.foreign_eq sound]
    simp [line, Line.pieces, name_used, bound_used reader]
  | boolean | array lo hi item | validator name =>
    rw [Line.foreign_eq sound]
    simp [line, Line.pieces, name_used, count_used]

end Call

theorem StringSet.line_used (s : StringSet) : usedIn [s.line] = [] := by
  simp [line, Line.pieces, name_used, quotes_used]

theorem Field.row_used (f : Field Ty Init) : usedIn [f.row] = foreign f.type.tokens := by
  have tag : ∀ t, foreign (Part.tag t).tokens = [] := fun _ => rfl
  unfold row
  split <;> simp [Line.pieces, name_used, Ty.part, tag]

theorem Field.entry_used (f : Field Ty Init) : usedIn [f.entry] = foreign f.default.tokens := by
  simp [entry, Line.pieces, name_used, Init.part]

theorem Record.block_used (r : Record Ty Init) :
    usedIn r.block = r.fields.flatMap fun f => foreign f.type.tokens := by
  have rows : usedIn (r.fields.map (·.row)) = r.fields.flatMap fun f => foreign f.type.tokens := by
    rw [usedIn_map]
    exact List.flatMap_congr fun f _ => f.row_used
  unfold block
  split
  · next empty =>
    have none : r.fields = [] := by simpa using empty
    simp [Line.pieces, name_used, none]
  · simp [Line.pieces, name_used, rows]

theorem Record.constructor_used (r : Record Ty Init) :
    usedIn r.constructorBlock = r.fields.flatMap fun f => foreign f.default.tokens := by
  have entries : usedIn (r.fields.map (·.entry)) =
      r.fields.flatMap fun f => foreign f.default.tokens := by
    rw [usedIn_map]
    exact List.flatMap_congr fun f _ => f.entry_used
  unfold constructorBlock
  split
  · next empty =>
    have none : r.fields = [] := by simpa using empty
    simp [Line.pieces, name_used, none]
  · simp [Line.pieces, name_used, entries]

theorem MapStep.block_used (fail : Part) (m : MapStep) :
    usedIn (m.block fail) = foreign fail.tokens := by
  simp [block, Line.pieces, name_used, quote_used, assigned_used]

theorem PropertyStep.block_used {fail : Part} (schema : String) {s : PropertyStep Call}
    (calls : foreign (s.call.line propertyArgument).tokens = []) :
    usedIn (s.block fail schema) ⊆ foreign fail.tokens := by
  unfold block
  split <;> simp [Line.pieces, Line.part, quote_used, assigned_used, calls]

/-- The body of a validator uses packages only where it fails, for its own type. -/
theorem Body.block_used {fail : Part} (schema : String) {b : Body Call}
    (called : ∀ name ∈ b.validators, Spelled name) (listed : ∀ name ∈ b.sets, Spelled name) :
    usedIn (b.block fail schema) ⊆ foreign fail.tokens := by
  have argument_ : Spelled argument := by decide
  have property : Spelled propertyArgument := by decide
  cases b with
  | result call =>
    simp [block, Line.pieces, Line.part, Call.line_used argument_ called listed]
  | object b =>
    simp only [validators, sets, List.mem_append, List.mem_flatMap] at called listed
    have opening : usedIn (b.opening fail) = foreign fail.tokens := by
      simp [ObjectBody.opening, Line.pieces, name_used, quote_used]
    have opened : usedIn (if b.properties.isEmpty then [] else
        [.fixed (.mk "\tobj := objResult.Value")]) = [] := by
      split <;> rfl
    intro w member
    simp only [block, ObjectBody.block, usedIn_append, opening, opened, usedIn_flatMap,
      MapStep.block_used, List.mem_append, List.mem_flatMap, List.not_mem_nil, or_false] at member
    rcases member with ((first | ⟨m, -, inside⟩) | ⟨s, here, inside⟩) | last
    · exact first
    · exact inside
    · have calls := Call.line_used property
        (fun name used => called name (.inr ⟨s, here, used⟩))
        (fun name used => listed name (.inr ⟨s, here, used⟩))
      exact PropertyStep.block_used schema calls inside
    · cases last

theorem Function.block_used {f : Function Ty Call} (clean : f.Clean) {w : List Char} :
    w ∈ usedIn f.block ↔ w ∈ foreign f.type.tokens := by
  have typed := Ty.part_sound clean.records
  have failed : foreign (failure f.type).tokens = foreign f.type.tokens := by
    rw [failure, Line.part, Line.foreign_eq (by simp [typed])]
    simp [Line.pieces, Ty.part]
  have inner : usedIn (f.body.block (failure f.type) f.schema) ⊆ foreign f.type.tokens := by
    rw [← failed]
    exact Body.block_used f.schema clean.validators clean.sets
  simp only [block, usedIn_append, usedIn_cons, usedIn_nil, Line.pieces, List.map_cons,
    List.map_nil, List.cons_append, List.nil_append, List.flatMap_cons, List.flatMap_nil,
    name_used, List.append_nil, List.mem_append]
  constructor
  · rintro (first | inside)
    · exact first
    · exact inner inside
  · exact .inl

namespace Package
variable {p : Package Ty Init Call}

/-- A package is used by the types and initial values of fields, or by the types of validators. -/
def Uses (p : Package Ty Init Call) (name : String) : Prop :=
  (∃ r ∈ p.records, ∃ f ∈ r.fields, name ∈ f.type.packages ∨ name ∈ f.default.packages) ∨
    ∃ f ∈ p.functions, name ∈ f.type.packages

theorem Clean.exposed (clean : p.Clean) {r : Record Ty Init} (record : r ∈ p.records)
    {f : Field Ty Init} (field : f ∈ r.fields) :
    Exposes f.type.part f.type.packages ∧ Exposes f.default.part f.default.packages := by
  have names := (clean.records r record).fields f field
  constructor
  · exact Ty.exposes fun n used => names.records n (List.mem_append_left _ used)
  · exact Init.exposes (fun n used => names.records n (List.mem_append_right _ used))
      names.constructors

/-- The words before dots that are no local names are those of the packages in use. -/
theorem Clean.foreign_iff (clean : p.Clean) (name : String) :
    name.toList ∈ foreign p.tokens ↔ p.Uses name := by
  have types : ∀ {x : Part} {packages : List String}, Exposes x packages →
      (name.toList ∈ foreign x.tokens ↔ name ∈ packages) := by
    intro x packages exposed
    rw [exposed.used, List.mem_map]
    simp [String.toList_inj]
  have lines : name.toList ∈ p.blocks.flatMap usedIn ↔
      (∃ r ∈ p.records, ∃ f ∈ r.fields, name.toList ∈ foreign f.type.tokens ∨
        name.toList ∈ foreign f.default.tokens) ∨
      ∃ f ∈ p.functions, name.toList ∈ usedIn f.block := by
    simp only [blocks, List.flatMap_append, List.mem_append, List.flatMap_map, List.flatMap_assoc,
      List.mem_flatMap, StringSet.line_used, List.flatMap_cons, List.flatMap_nil,
      Record.block_used, Record.constructor_used, List.append_nil, List.not_mem_nil]
    simp only [and_false, exists_false, false_or, ← exists_or, ← and_or_left]
  rw [tokens, (blocks_used clean.sound).2, lines, Uses]
  refine or_congr ?_ ?_
  · refine exists_congr fun r => and_congr_right fun record => exists_congr fun f =>
      and_congr_right fun field => ?_
    obtain ⟨typed, starts⟩ := clean.exposed record field
    exact or_congr (types typed) (types starts)
  · refine exists_congr fun f => and_congr_right fun member => ?_
    have names := clean.functions f member
    rw [Function.block_used names]
    exact types (Ty.exposes names.records)

theorem mem_declaredTexts {text : String} : text ∈ p.print.declaredTexts ↔
    (∃ r ∈ p.records, ∃ f ∈ r.fields, text = f.type.text ∨ text = f.default.text) ∨
      ∃ f ∈ p.functions, text = f.type.text := by
  simp [PackageText.declaredTexts, print, Record.print, Field.print, Function.print,
    List.flatMap_map, eq_comm]

/-- The search for qualifiers finds the packages in use. -/
theorem Clean.occurs_iff (clean : p.Clean) {name : String} (known : name ∈ packageNames) :
    (∃ text ∈ p.print.declaredTexts, Occurs name text) ↔ p.Uses name := by
  have functions : ∀ f ∈ p.functions, (Occurs name f.type.text ↔ name ∈ f.type.packages) :=
    fun f member => (Ty.exposes (clean.functions f member).records).found name known
  constructor
  · rintro ⟨text, declared, occurs⟩
    rcases mem_declaredTexts.mp declared with ⟨r, record, f, field, rfl | rfl⟩ | ⟨f, member, rfl⟩
    · have found := (clean.exposed record field).1.found name known
      exact .inl ⟨r, record, f, field, .inl (found.mp occurs)⟩
    · have found := (clean.exposed record field).2.found name known
      exact .inl ⟨r, record, f, field, .inr (found.mp occurs)⟩
    · exact .inr ⟨f, member, (functions f member).mp occurs⟩
  · rintro (⟨r, record, f, field, typed | starts⟩ | ⟨f, member, typed⟩)
    · have found := (clean.exposed record field).1.found name known
      exact ⟨_, mem_declaredTexts.mpr (.inl ⟨r, record, f, field, .inl rfl⟩), found.mpr typed⟩
    · have found := (clean.exposed record field).2.found name known
      exact ⟨_, mem_declaredTexts.mpr (.inl ⟨r, record, f, field, .inr rfl⟩), found.mpr starts⟩
    · exact ⟨_, mem_declaredTexts.mpr (.inr ⟨f, member, rfl⟩), (functions f member).mpr typed⟩

theorem uses_known {name : String} (uses : p.Uses name) : name ∈ packageNames := by
  have types : ∀ t : Ty, ∀ n ∈ t.packages, n ∈ packageNames := by
    intro t
    induction t with
    | slice item ih | pointer target ih => exact ih
    | ordered item ih =>
      intro n member
      rcases List.mem_cons.mp member with rfl | later
      · simp [packageNames]
      · exact ih n later
    | _ => simp [Ty.packages, packageNames]
  rcases uses with ⟨r, -, f, -, typed | starts⟩ | ⟨f, -, typed⟩
  · exact types f.type name typed
  · cases init : f.default with
    | absent => simp [init, Init.packages] at starts
    | construct constructor => simp [init, Init.packages] at starts
    | zero t =>
      rw [init] at starts
      exact types t name starts
    | emptyMap t =>
      rw [init] at starts
      exact types (.ordered t) name starts
  · exact types f.type name typed

end Package

/-! ### Import lines -/

/-- The name that an import line gives to a package, and the path. Without a name of its own, the
    package has the last part of the path. -/
def imported? (line : String) : Option (String × String) :=
  match lex line with
  | some [.word name, .literal path] => some (String.ofList name, Utf8.decode path)
  | some [.literal path] =>
    ((Text.split '/' (Utf8.decode path)).getLast?).map fun last => (last, Utf8.decode path)
  | _ => none

/-- The packages that can be imported, by name and path. -/
def importable : List (String × String) :=
  [("big", "math/big"), ("time", "time"), ("decimal", "github.com/shopspring/decimal"),
    ("orderedmap", "github.com/wk8/go-ordered-map/v2")]

/-- The line of an import binds the name that is searched for. -/
def Import.Binds (i : Import) (e : String × String) : Prop :=
  i.qualifier = e.1 ++ "." ∧ imported? ("\t" ++ i.path) = some e

theorem known_imported : List.Forall₂ Import.Binds knownImports importable := by
  refine .cons ?_ (.cons ?_ (.cons ?_ (.cons ?_ .nil))) <;> unfold Import.Binds <;> decide

theorem standard_first (p : Import → Bool) :
    (knownImports.filter p).filter (·.standard) ++ (knownImports.filter p).filter (!·.standard) =
      knownImports.filter p := by
  simp only [knownImports, List.filter_cons, List.filter_nil]
  split_ifs <;> rfl

theorem lines_imported (texts : List String) :
    (importLines texts).filterMap imported? =
      (knownImports.filter (·.isUsed texts)).filterMap fun i => imported? ("\t" ++ i.path) := by
  have other : imported? "import (" = none ∧ imported? "" = none ∧ imported? ")" = none := by
    decide
  unfold importLines
  dsimp only
  split
  · next none =>
    rw [List.isEmpty_iff.mp none]
    rfl
  · have gap : ∀ c : Bool, (if c then [] else [""]).filterMap imported? = [] := by
      intro c
      cases c <;> simp [other]
    simp only [List.filterMap_append, List.filterMap_map, List.filterMap_cons, List.filterMap_nil,
      other, gap, List.nil_append, List.append_nil]
    rw [← List.filterMap_append, standard_first]
    rfl

/-- What is imported, in order: the packages of which the qualifier is found. -/
theorem imported_lines (texts : List String) :
    (importLines texts).filterMap imported? =
      importable.filter fun e => texts.any fun text => decide (Occurs e.1 text) := by
  have each : ∀ (is : List Import) (es : List (String × String)),
      List.Forall₂ Import.Binds is es →
      (is.filter (·.isUsed texts)).filterMap (fun i => imported? ("\t" ++ i.path)) =
        es.filter fun e => texts.any fun text => decide (Occurs e.1 text) := by
    intro is es related
    induction related with
    | nil => rfl
    | @cons i e is es both _ ih =>
      have same : i.isUsed texts = texts.any fun text => decide (Occurs e.1 text) := by
        unfold Import.isUsed
        congr 1
        funext text
        rw [Bool.eq_iff_iff, decide_eq_true_eq, Occurs, both.1, String.toList_append]
        rfl
      rw [List.filter_cons, List.filter_cons, same]
      split
      · rw [List.filterMap_cons, both.2, ih]
      · exact ih
  rw [lines_imported, each _ _ known_imported]

theorem mem_importLines {texts : List String} {line : String} (member : line ∈ importLines texts) :
    line ∈ ["import (", "", ")"] ∨ (imported? line).isSome = true := by
  have known : ∀ i ∈ knownImports, (imported? ("\t" ++ i.path)).isSome = true := by
    intro i here
    obtain ⟨e, -, -, read⟩ := related_of_mem_left known_imported here
    rw [read]
    rfl
  unfold importLines at member
  dsimp only at member
  split at member
  · cases member
  · simp only [List.mem_append, List.mem_map, List.mem_filter, List.mem_singleton] at member
    rcases member with (((rfl | ⟨i, here, rfl⟩) | gap) | ⟨i, here, rfl⟩) | rfl
    · exact .inl (by simp)
    · exact .inr (known i here.1.1)
    · split at gap
      · cases gap
      · exact .inl (by simp_all)
    · exact .inr (known i here.1.1)
    · exact .inl (by simp)

theorem Package.Clean.qualifiers_iff {p : Package Ty Init Call} (clean : p.Clean) {name : String}
    (known : name ∈ packageNames) :
    (∃ text ∈ p.print.declaredTexts, Occurs name text) ↔
      name.toList ∈ Source.qualifiers p.tokens := by
  have apart : packageNames.all (!Ident.locals.contains ·) = true := by decide
  have free : name ∉ Ident.locals := by simpa using List.all_eq_true.mp apart name known
  rw [clean.occurs_iff known, ← clean.foreign_iff, foreign, List.mem_filter]
  simp [free]

end Code

namespace Compile
open Code.Source (lex qualifiers)

/-- A file imports exactly the packages that its declarations use: those with a name that stands
    before a dot outside literals and tags. Every other word before a dot is a local name. -/
theorem imports_match_uses {d : Document} {o : CompileOptions} {canceled : Bool}
    {r : CompiledDocument} (compiled : document d o canceled = .ok r)
    {package header text : String} (rendered : r.package.print.render package header = .ok text) :
    ∃ head tokens imports,
      Code.formattedHeader? (if header.isEmpty then Support.header else header) = some head ∧
      text = r.package.print.front head package ++ r.package.print.code ∧
      lex r.package.print.code = some tokens ∧
      imports = (Code.importLines r.package.print.declaredTexts).filterMap Code.imported? ∧
      imports = Code.importable.filter (fun e => (qualifiers tokens).contains e.1.toList) ∧
      (∀ word ∈ qualifiers tokens, String.ofList word ∈ Ident.locals ∨
        ∃ path, (String.ofList word, path) ∈ imports) ∧
      ∀ line ∈ Code.importLines r.package.print.declaredTexts,
        line ∈ ["import (", "", ")"] ∨ (Code.imported? line).isSome = true := by
  obtain ⟨formed, head, formatted, same⟩ := Code.PackageText.render_ok rendered
  obtain ⟨-, named, -, -, linked, -⟩ := document_linked compiled
  have clean := linked.clean formed
  have names : Code.importable.map (·.1) = Code.packageNames := rfl
  have imports := Code.imported_lines r.package.print.declaredTexts
  have exact_ : (Code.importLines r.package.print.declaredTexts).filterMap Code.imported? =
      Code.importable.filter fun e => (qualifiers r.package.tokens).contains e.1.toList := by
    rw [imports]
    refine List.filter_congr fun e member => ?_
    have known : e.1 ∈ Code.packageNames := names ▸ List.mem_map_of_mem member
    rw [Bool.eq_iff_iff, List.any_eq_true, List.contains_iff_mem, ← clean.qualifiers_iff known]
    simp
  refine ⟨head, r.package.tokens, _, formatted, same, clean.code_read, rfl, exact_, ?_,
    fun line member => Code.mem_importLines member⟩
  intro word member
  by_cases bound : String.ofList word ∈ Ident.locals
  · exact .inl bound
  · have used : (String.ofList word).toList ∈ Code.Source.foreign r.package.tokens := by
      rw [String.toList_ofList, Code.Source.foreign, List.mem_filter]
      exact ⟨member, by simpa using bound⟩
    have known := Code.Package.uses_known ((clean.foreign_iff _).mp used)
    rw [← names] at known
    obtain ⟨e, listed, same⟩ := List.mem_map.mp known
    refine .inr ⟨e.2, ?_⟩
    rw [exact_, List.mem_filter, ← same]
    exact ⟨listed, by simp [same, member]⟩

/-- Names and texts that look like qualifiers, next to types that have some inside others. -/
def Sample.qualified : Document :=
  ⟨.obj [("schemas", .obj [("decimal.Decimal", .obj (Sample.object
    [("time.Time", .obj [("type", .str "string"), ("enum", .arr [.str "time.Now()"])]),
      ("counts", Sample.list (.obj [("type", .str "integer")]))] [] ++
    [("additionalProperties", .obj [("type", .str "boolean")])]))])]⟩

set_option maxRecDepth 100000 in
theorem qualified_imports :
    ∃ r text tokens, document Sample.qualified Sample.options false = .ok r ∧
      r.package.print.render "gen" "" = .ok text ∧
      lex r.package.print.code = some tokens ∧
      "decimal_Decimal" ∈ r.package.identifiers ∧
      (Code.importLines r.package.print.declaredTexts).filterMap Code.imported? =
        [("big", "math/big"), ("orderedmap", "github.com/wk8/go-ordered-map/v2")] ∧
      Code.importable.filter (fun e => (qualifiers tokens).contains e.1.toList) =
        [("big", "math/big"), ("orderedmap", "github.com/wk8/go-ordered-map/v2")] := by
  obtain ⟨r, compiled, holds⟩ := toOption_any_iff.mp (show
    (document Sample.qualified Sample.options false).toOption.any (fun r =>
      r.package.identifiers.contains "decimal_Decimal" &&
      (Code.importLines r.package.print.declaredTexts).filterMap Code.imported? ==
        [("big", "math/big"), ("orderedmap", "github.com/wk8/go-ordered-map/v2")] &&
      (r.package.print.render "gen" "").toOption.any fun _ => true) from by decide +kernel)
  simp only [Bool.and_eq_true, beq_iff_eq, List.contains_iff_mem] at holds
  obtain ⟨⟨declared, imports⟩, printed⟩ := holds
  obtain ⟨text, rendered, -⟩ := toOption_any_iff.mp printed
  obtain ⟨-, tokens, _, -, -, read, rfl, used, -⟩ := imports_match_uses compiled rendered
  exact ⟨r, text, tokens, compiled, rendered, read, declared, imports, used ▸ imports⟩

end Compile

end SchemaForge
