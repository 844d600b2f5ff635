import SchemaForge.Proofs.Names
import SchemaForge.Proofs.Printing

/-!
The text of a package as tokens. Validators are lines of pieces like the other declarations, and the
text of all declarations is read as the tokens of their lines. Compiled packages have only names
that are read as words, so this holds of every file that is emitted.
-/
namespace SchemaForge.Code
open Source (Token Part Line Calm lex)

/-- The lines are printed as the texts. -/
def Prints (texts : List String) (lines : List Line) : Prop :=
  List.Forall₂ (fun text l => l.print = text) texts lines

namespace Prints

theorem append {as bs : List String} {ls ms : List Line} (first : Prints as ls)
    (second : Prints bs ms) : Prints (as ++ bs) (ls ++ ms) :=
  List.rel_append first second

theorem reads {texts : List String} {lines : List Line} (prints : Prints texts lines)
    (sound : ∀ l ∈ lines, l.Sound) : List.Forall₂ Reads texts lines := by
  have same : texts = lines.map Line.print := by
    induction prints with
    | nil => rfl
    | cons first _ ih =>
      rw [List.map_cons, first, ← ih fun l member => sound l (List.mem_cons_of_mem _ member)]
  rw [same]
  exact printed_reads sound

end Prints

/-! ### Validators -/

/-- The failure of a validator. -/
def failure (t : Ty) : Part := (Line.parts (.mk "failure[") [] t.part (.mk "]")).part

/-- A field of the value under construction. -/
def assigned (field : String) : Part := ⟨"value." ++ field, member "value" field⟩

def MapStep.block (fail : Part) (m : MapStep) : List Line :=
  [.parts (.mk "\taddPropertiesResult := validateTypedMap(json, ")
      [(.name (m.exclude.getD "nil"), .mk ", ")] (.name m.validator) (.mk ")"),
    .parts (.mk "\tif addPropertiesResult.Error != ") [] (.quote "") (.mk " \x7b"),
    .parts (.mk "\t\treturn ") [(fail, .mk "(")] (.quote "Error in mapping additionalProperties: ")
      (.mk " + addPropertiesResult.Error)"),
    .fixed (.mk "\t\x7d"),
    .parts (.mk "\t") [] (assigned m.field) (.mk " = addPropertiesResult.Value")]

def PropertyStep.block (fail : Part) (schema : String) (s : PropertyStep Call) : List Line :=
  (if s.required then
    [.fixed (.mk "\t\x7b"),
      .parts (.mk "\t\tpropJSON, ok := obj.Get(") [] (.quote s.key) (.mk ")"),
      .fixed (.mk "\t\tif !ok \x7b"),
      .parts (.mk "\t\t\treturn ") [(fail, .mk "(")] (.quote (missingMessage s.key schema))
        (.mk ")"),
      .fixed (.mk "\t\t\x7d")]
  else [.parts (.mk "\tif propJSON, ok := obj.Get(") [] (.quote s.key) (.mk "); ok \x7b")])
    ++ [.parts (.mk "\t\tpropResult := ") [] (s.call.line propertyArgument).part (.mk ""),
      .parts (.mk "\t\tif propResult.Error != ") [] (.quote "") (.mk " \x7b"),
      .parts (.mk "\t\t\treturn ") [(fail, .mk "(")] (.quote (mappingMessage s.key))
        (.mk " + propResult.Error)"),
      .fixed (.mk "\t\t\x7d"),
      .parts (.mk "\t\t") [] (assigned s.field)
        (if s.boxed then .mk " = &propResult.Value" else .mk " = propResult.Value"),
      .fixed (.mk "\t\x7d")]

def ObjectBody.opening (fail : Part) (b : ObjectBody Call) : List Line :=
  [.parts (.mk "\tvalue := ") [] (.name b.constructor) (.mk "()"),
    .fixed (.mk "\tobjResult := validateObject(json)"),
    .parts (.mk "\tif objResult.Error != ") [] (.quote "") (.mk " \x7b"),
    .parts (.mk "\t\treturn ") [] fail (.mk "(objResult.Error)"),
    .fixed (.mk "\t\x7d")]

def ObjectBody.block (fail : Part) (schema : String) (b : ObjectBody Call) : List Line :=
  b.opening fail
    ++ (if b.properties.isEmpty then [] else [.fixed (.mk "\tobj := objResult.Value")])
    ++ b.additional.toList.flatMap (·.block fail)
    ++ b.properties.flatMap (·.block fail schema)
    ++ [.fixed (.mk "\treturn success(value)")]

def Body.block (fail : Part) (schema : String) : Body Call → List Line
  | .object b => b.block fail schema
  | .result call => [.parts (.mk "\treturn ") [] (call.line argument).part (.mk "")]

def Function.block (f : Function Ty Call) : List Line :=
  [.parts (.mk "func ") [(.name f.name, .mk "(json *JSONValue) Result[")] f.type.part
      (.mk "] \x7b")]
    ++ f.body.block (failure f.type) f.schema ++ [.fixed (.mk "\x7d")]

theorem assigned_print (lead field : String) (last : Source.Fixed false true)
    (first : Source.Fixed true false) (same : first.text ++ "value." = lead) :
    (Line.parts first [] (assigned field) last).print = lead ++ field ++ last.text := by
  rw [← same, @String.append_assoc first.text]
  rfl

theorem MapStep.prints (fail : Part) (m : MapStep) : Prints (m.lines fail.text) (m.block fail) := by
  have message : "(" ++ Text.quoted "Error in mapping additionalProperties: " ++
      " + addPropertiesResult.Error)" =
      "(\"Error in mapping additionalProperties: \" + addPropertiesResult.Error)" := by
    decide
  refine .cons rfl (.cons (by decide) (.cons ?_ (.cons rfl (.cons ?_ .nil))))
  · rw [← message, ← String.append_assoc, ← String.append_assoc]
    rfl
  · exact assigned_print _ _ _ _ (by decide)

theorem PropertyStep.prints (fail : Part) (schema : String) (s : PropertyStep Call) :
    Prints (s.print.lines fail.text schema) (s.block fail schema) := by
  refine Prints.append ?_ (.cons ?_ (.cons ?_ (.cons rfl (.cons rfl (.cons ?_ (.cons rfl .nil))))))
  · change Prints (if s.required = true then _ else _) (if s.required = true then _ else _)
    split
    · exact .cons rfl (.cons rfl (.cons rfl (.cons rfl (.cons rfl .nil))))
    · exact .cons rfl .nil
  · change "\t\tpropResult := " ++ (s.call.line propertyArgument).print ++ "" = _
    rw [String.append_empty, Call.line_print]
    rfl
  · decide
  · change _ = "\t\tvalue." ++ s.field ++ " = " ++ (if s.boxed = true then "&" else "") ++
      "propResult.Value"
    rw [assigned_print "\t\tvalue." s.field _ _ (by decide), String.append_assoc,
      String.append_assoc, String.append_assoc]
    split <;> rfl

theorem ObjectBody.prints (fail : Part) (schema : String) (b : ObjectBody Call) :
    Prints (ObjectBody.lines fail.text schema
        ⟨b.constructor, b.additional, b.properties.map PropertyStep.print⟩)
      (b.block fail schema) := by
  refine (((Prints.append ?_ ?_).append ?_).append ?_).append (.cons rfl .nil)
  · exact .cons rfl (.cons rfl (.cons (by decide) (.cons rfl (.cons rfl .nil))))
  · cases b.properties with
    | nil => exact .nil
    | cons first rest => exact .cons rfl .nil
  · cases b.additional with
    | none => exact .nil
    | some m => simpa using m.prints fail
  · induction b.properties with
    | nil => exact .nil
    | cons first rest ih => exact (first.prints fail schema).append ih

theorem Call.text_some (subject : String) (c : Call) : (c.text subject).isEmpty = false := by
  have closed : ∃ front, c.text subject = front ++ ")" := by
    cases c with
    | string lo hi enum format =>
      cases format with
      | none => exact ⟨_, rfl⟩
      | some format => cases format <;> exact ⟨_, rfl⟩
    | _ => exact ⟨_, rfl⟩
  obtain ⟨front, same⟩ := closed
  simp [same]

theorem Function.prints (f : Function Ty Call) : Prints f.print.lines f.block := by
  unfold Function.lines block
  refine (Prints.append ?_ ?_).append ?_
  · exact .cons rfl .nil
  · cases body : f.body with
    | object b =>
      simp only [print, body, Body.print]
      exact b.prints (failure f.type) f.schema
    | result c =>
      simp only [print, body, Body.print]
      rw [if_neg (by simp [Call.text_some])]
      refine .cons ?_ .nil
      change "\treturn " ++ (c.line argument).print ++ "" = _
      rw [String.append_empty, Call.line_print]
  · exact .cons rfl .nil

/-! ### Names in validators -/

/-- The fields that a body assigns to. -/
def Body.fields : Body Call → List String
  | .object b => b.additional.toList.map (·.field) ++ b.properties.map (·.field)
  | .result _ => []

structure Function.Clean (f : Function Ty Call) : Prop where
  name : Spelled f.name
  records : ∀ name ∈ f.type.records, Spelled name
  validators : ∀ name ∈ f.body.validators, Spelled name
  sets : ∀ name ∈ f.body.sets, Spelled name
  constructors : ∀ name ∈ f.body.constructors, Spelled name
  fields : ∀ name ∈ f.body.fields, Spelled name

theorem failure_sound {t : Ty} (sound : t.part.Sound) : (failure t).Sound :=
  Line.part_sound (by simp [sound])

theorem assigned_sound {field : String} (spelled : Spelled field) : (assigned field).Sound := by
  have lead : lex "value." = some [.word "value".toList, Source.dot] ∧
      Source.endsWord "value." = false := by decide
  constructor
  · refine Source.lex_append lead.1 (Part.name_sound spelled).lexed ?_
    rw [lead.2, Bool.false_and]
  · constructor <;> simp [assigned, member, Source.dotAfter, Source.dot]

theorem MapStep.block_sound {fail : Part} (failed : fail.Sound) {m : MapStep}
    (set : ∀ name ∈ m.exclude, Spelled name) (called : Spelled m.validator)
    (field : Spelled m.field) : ∀ l ∈ m.block fail, l.Sound := by
  have excluded : (Part.name (m.exclude.getD "nil")).Sound := by
    cases none : m.exclude with
    | none => exact Part.name_sound (by decide)
    | some name => exact Part.name_sound (set name none)
  simp [block, excluded, failed, Part.quote_sound, Part.name_sound called, assigned_sound field]

theorem PropertyStep.block_sound {fail : Part} (failed : fail.Sound) (schema : String)
    {s : PropertyStep Call} (called : (s.call.line propertyArgument).Sound)
    (field : Spelled s.field) : ∀ l ∈ s.block fail schema, l.Sound := by
  have call := Line.part_sound called
  have quoted := Part.quote_sound
  unfold block
  split <;> simp [failed, quoted, call, assigned_sound field]

theorem ObjectBody.block_sound {fail : Part} (failed : fail.Sound) (schema : String)
    {b : ObjectBody Call} (made : Spelled b.constructor)
    (additional : ∀ m ∈ b.additional, ∀ l ∈ m.block fail, l.Sound)
    (properties : ∀ s ∈ b.properties, ∀ l ∈ s.block fail schema, l.Sound) :
    ∀ l ∈ b.block fail schema, l.Sound := by
  have head : ∀ l ∈ b.opening fail, l.Sound := by
    simp [opening, Part.name_sound made, Part.quote_sound, failed]
  intro l member
  simp only [block, List.mem_append, List.mem_flatMap, Option.mem_toList] at member
  rcases member with (((first | opened) | ⟨m, here, inside⟩) | ⟨s, here, inside⟩) | last
  · exact head l first
  · split at opened
    · cases opened
    · simp_all
  · exact additional m here l inside
  · exact properties s here l inside
  · simp_all

theorem Body.block_sound {fail : Part} (failed : fail.Sound) (schema : String) {b : Body Call}
    (called : ∀ name ∈ b.validators, Spelled name) (listed : ∀ name ∈ b.sets, Spelled name)
    (made : ∀ name ∈ b.constructors, Spelled name) (held : ∀ name ∈ b.fields, Spelled name) :
    ∀ l ∈ b.block fail schema, l.Sound := by
  cases b with
  | object b =>
    simp only [validators, sets, fields, List.mem_append, List.mem_map, List.mem_flatMap,
      List.mem_filterMap, Option.mem_toList] at called listed held
    apply ObjectBody.block_sound failed
    · exact made _ (List.mem_singleton_self _)
    · intro m here
      apply MapStep.block_sound failed
      · exact fun name set => listed name (.inl ⟨m, here, set⟩)
      · exact called _ (.inl ⟨m, here, rfl⟩)
      · exact held _ (.inl ⟨m, here, rfl⟩)
    · intro s here
      apply PropertyStep.block_sound failed
      · apply Call.line_sound (by decide)
        · exact fun name used => called name (.inr ⟨s, here, used⟩)
        · exact fun name used => listed name (.inr ⟨s, here, used⟩)
      · exact held _ (.inr ⟨s, here, rfl⟩)
  | result call =>
    have applied := Call.line_sound (show Spelled argument by decide) called listed
    simp [block, Line.part_sound applied]

theorem Function.block_sound {f : Function Ty Call} (clean : f.Clean) : ∀ l ∈ f.block, l.Sound := by
  have typed := Ty.part_sound clean.records
  have inner := Body.block_sound (failure_sound typed) f.schema clean.validators clean.sets
    clean.constructors clean.fields
  intro l member
  simp only [block, List.mem_append, List.mem_singleton] at member
  rcases member with (rfl | inside) | rfl
  · simp [Part.name_sound clean.name, typed]
  · exact inner l inside
  · simp

/-! ### Packages -/

def blockTokens (blocks : List (List Line)) : List Token :=
  blocks.flatMap fun block => .newline :: Source.broken (block.map (·.tokens))

theorem blocks_reads {texts : List (List String)} {blocks : List (List Line)}
    (read : List.Forall₂ (List.Forall₂ Reads) texts blocks) :
    Source.Reads .code (texts.flatMap fun lines => '\n' :: (joinLines lines).toList)
      (blockTokens blocks) .code := by
  unfold blockTokens
  induction read with
  | nil => exact .nil _
  | cons first _ ih =>
    have break_ : Source.State.next .code '\n' = some ([.newline], .code) := by
      simp [Source.State.next, Source.enter]
    have lines := Source.lines_read (List.forall₂_map_right_iff.mpr first)
    rw [List.flatMap_cons, List.flatMap_cons]
    exact (Source.Reads.cons break_ lines).append ih

namespace PackageText

/-- The declarations other than the imports. -/
def codeBlocks (p : PackageText) : List (List String) :=
  p.sets.map (·.lines) ++ (p.records.flatMap fun r => [r.lines, r.constructorLines])
    ++ p.functions.map (·.lines)

def joinBlocks (before : String) (blocks : List (List String)) : String :=
  blocks.foldl (fun acc lines => acc ++ "\n" ++ joinLines lines) before

/-- What follows the imports in a file. -/
def code (p : PackageText) : String := joinBlocks "" p.codeBlocks

/-- The lines of the import block, if there is one. -/
def importBlock (p : PackageText) : List (List String) :=
  if (importLines p.declaredTexts).isEmpty then [] else [importLines p.declaredTexts]

theorem toList_joinBlocks (before : String) (blocks : List (List String)) :
    (joinBlocks before blocks).toList =
      before.toList ++ blocks.flatMap fun lines => '\n' :: (joinLines lines).toList := by
  unfold joinBlocks
  induction blocks generalizing before with
  | nil => simp
  | cons lines blocks ih =>
    rw [List.foldl_cons, ih]
    simp

theorem joinBlocks_append (before : String) (first second : List (List String)) :
    joinBlocks before (first ++ second) = joinBlocks before first ++ joinBlocks "" second := by
  rw [← String.toList_inj, String.toList_append]
  simp [toList_joinBlocks]

/-- What precedes the other declarations: the header, the package clause and the imports. -/
def front (head package : String) (p : PackageText) : String :=
  joinBlocks (head ++ "package " ++ package ++ "\n") p.importBlock

theorem render_ok {p : PackageText} {package header text : String}
    (rendered : p.render package header = .ok text) :
    p.wellFormed = true ∧
      ∃ head, formattedHeader? (if header.isEmpty then Support.header else header) = some head ∧
        text = p.front head package ++ p.code := by
  unfold render at rendered
  split at rendered
  · cases rendered
  · split at rendered
    · cases rendered
    · next head formatted =>
      split at rendered
      · next formed =>
        refine ⟨formed, head, formatted, ?_⟩
        rw [← Except.ok.inj rendered, front, code, ← joinBlocks_append]
        simp [declarations, joinBlocks, importBlock, codeBlocks]
      · cases rendered

end PackageText

namespace Package
variable {p : Package Ty Init Call}

def blocks (p : Package Ty Init Call) : List (List Line) :=
  p.sets.map (fun s => [s.line]) ++ (p.records.flatMap fun r => [r.block, r.constructorBlock])
    ++ p.functions.map (·.block)

def tokens (p : Package Ty Init Call) : List Token := blockTokens p.blocks

/-- Every name in a package is read as one word. -/
structure Clean (p : Package Ty Init Call) : Prop where
  sets : ∀ s ∈ p.sets, Spelled s.name
  records : ∀ r ∈ p.records, r.Clean
  functions : ∀ f ∈ p.functions, f.Clean

theorem Clean.sound (clean : p.Clean) : ∀ block ∈ p.blocks, ∀ l ∈ block, l.Sound := by
  intro block member
  simp only [blocks, List.mem_append, List.mem_map, List.mem_flatMap, List.mem_cons,
    List.not_mem_nil, or_false] at member
  rcases member with (⟨s, here, rfl⟩ | ⟨r, here, rfl | rfl⟩) | ⟨f, here, rfl⟩
  · simpa using StringSet.line_sound (clean.sets s here)
  · exact Record.block_sound (clean.records r here)
  · exact Record.constructor_sound (clean.records r here)
  · exact Function.block_sound (clean.functions f here)

theorem Clean.blocks_read (clean : p.Clean) :
    List.Forall₂ (List.Forall₂ Reads) p.print.codeBlocks p.blocks := by
  have sets : List.Forall₂ (List.Forall₂ Reads) (p.sets.map (·.lines))
      (p.sets.map fun s => [s.line]) := by
    rw [List.forall₂_map_left_iff, List.forall₂_map_right_iff, List.forall₂_same]
    exact fun s here => line_reads rfl (StringSet.line_sound (clean.sets s here))
  have functions : List.Forall₂ (List.Forall₂ Reads) (p.print.functions.map (·.lines))
      (p.functions.map (·.block)) := by
    rw [print, List.map_map, List.forall₂_map_left_iff, List.forall₂_map_right_iff,
      List.forall₂_same]
    intro f here
    exact f.prints.reads (Function.block_sound (clean.functions f here))
  have records : List.Forall₂ (List.Forall₂ Reads)
      (p.print.records.flatMap fun r => [r.lines, r.constructorLines])
      (p.records.flatMap fun r => [r.block, r.constructorBlock]) := by
    rw [print, List.flatMap_map]
    refine related_flatMap (List.forall₂_same.mpr fun r _ => (rfl : r = r)) ?_
    rintro r here _ rfl
    exact .cons (Record.lines_read (clean.records r here))
      (.cons (Record.constructor_read (clean.records r here)) .nil)
  exact List.rel_append (List.rel_append sets records) functions

/-- The declarations are read as the tokens of their lines. -/
theorem Clean.code_read (clean : p.Clean) : lex p.print.code = some p.tokens := by
  apply Source.lex_of_reads
  rw [PackageText.code, PackageText.toList_joinBlocks, String.toList_empty, List.nil_append]
  exact blocks_reads clean.blocks_read

end Package

end SchemaForge.Code

/-! ### Compiled packages -/

namespace SchemaForge.Compile
open Code (Spelled)

variable {c : Compiler} {named : List (String × Schema)} {p : Package}

theorem mem_of_once {names : List String} {name : String} (once : names.count name = 1) :
    name ∈ names :=
  List.count_pos_iff.mp (by omega)

/-- What a compiled package declares once is spelled as an identifier, and so are the validators of
    the library. -/
theorem Linked.spelled (linked : Linked c named p) {name : String}
    (declared : p.HasRecord name ∨ p.HasConstructor name ∨ p.HasSet name ∨ p.Validates name) :
    Spelled name := by
  have own : name ∈ p.identifiers → Spelled name := fun member => (linked.declarable member).spelled
  simp only [Code.Package.identifiers, List.mem_append] at own
  rcases declared with once | once | once | library | once
  · exact own (.inl (.inl (.inl (mem_of_once once))))
  · exact own (.inl (.inl (.inr (mem_of_once once))))
  · exact own (.inr (mem_of_once once))
  · have all : Support.declarations.all (fun name => decide (Spelled name)) = true := by
      decide
    exact of_decide_eq_true (List.all_eq_true.mp all name library)
  · exact own (.inl (.inr (mem_of_once once)))

theorem spelled_of_plain {name : String} (plain : Code.isPlainName name = true) : Spelled name := by
  unfold Code.isPlainName Ident.isIdentifier at plain
  exact (Bool.and_eq_true_iff.mp plain).1

theorem fields_spelled {b : Code.Body Code.Call} (formed : b.print.wellFormed = true) :
    ∀ name ∈ b.fields, Spelled name := by
  intro name member
  cases b with
  | result call => cases member
  | object b =>
    simp only [Code.Body.print, Code.Body.wellFormed, Bool.and_eq_true, List.all_eq_true,
      Option.all_eq_true] at formed
    simp only [Code.Body.fields, List.mem_append, List.mem_map, Option.mem_toList] at member
    rcases member with ⟨m, here, rfl⟩ | ⟨s, here, rfl⟩
    · have plain := formed.1.2 m here
      simp only [Code.MapStep.wellFormed, Bool.and_eq_true] at plain
      exact spelled_of_plain plain.1.1
    · have plain := formed.2 s.print (List.mem_map_of_mem here)
      simp only [Code.PropertyStep.wellFormed, Bool.and_eq_true] at plain
      exact spelled_of_plain plain.1

theorem Linked.field_clean (linked : Linked c named p) {name : String} {o : ObjectParts}
    {r : Record} (object : (name, o) ∈ objects (nodesOf named))
    (made : RecordFor c.document name o r) {f : Field} (member : f ∈ r.fields)
    (formed : f.print.wellFormed = true) : f.Clean := by
  have closed := field_closed linked object made member
  refine ⟨(made.exported member).1, ?_, ?_, ?_⟩
  · exact fun used inside => linked.spelled (.inl (closed.records used inside))
  · exact fun used inside => linked.spelled (.inr (.inl (closed.constructors used inside)))
  · intro tag tagged
    unfold Code.Field.wellFormed at formed
    rw [tagged] at formed
    simpa using (Bool.and_eq_true_iff.mp formed).2

theorem Linked.function_clean (linked : Linked c named p) {f : Function} (member : f ∈ p.functions)
    (formed : f.print.wellFormed = true) : f.Clean := by
  obtain ⟨x, node, heads⟩ := linked.origin member
  have closed := function_closed linked node heads
  simp only [Code.Function.wellFormed, Bool.and_eq_true] at formed
  refine ⟨spelled_of_plain formed.1.1, ?_, ?_, ?_, ?_, fields_spelled formed.2⟩
  · exact fun used inside => linked.spelled (.inl (closed.records used inside))
  · exact fun used inside => linked.spelled (.inr (.inr (.inr (closed.validators used inside))))
  · exact fun used inside => linked.spelled (.inr (.inr (.inl (closed.sets used inside))))
  · exact fun used inside => linked.spelled (.inr (.inl (closed.constructors used inside)))

/-- Whatever names a document has, the names in the package made of it are read as words. -/
theorem Linked.clean (linked : Linked c named p) (formed : p.print.wellFormed = true) :
    p.Clean := by
  simp only [Code.PackageText.wellFormed, Code.Package.print, Bool.and_eq_true, List.all_eq_true,
    List.forall_mem_map] at formed
  obtain ⟨⟨sets, records⟩, functions⟩ := formed
  constructor
  · exact fun s here => spelled_of_plain (sets s here)
  · intro r here
    obtain ⟨x, object, made⟩ := related_of_mem_right linked.records here
    have formed := records r here
    simp only [Code.Record.wellFormed, Code.Record.print, Bool.and_eq_true, List.all_eq_true,
      List.forall_mem_map] at formed
    refine ⟨spelled_of_plain formed.1.1, spelled_of_plain formed.1.2, fun f member => ?_⟩
    exact linked.field_clean object (record_made made) member (formed.2 f member)
  · exact fun f here => linked.function_clean here (functions f here)

end SchemaForge.Compile
