import SchemaForge.Proofs.SourceText

/-!
What a document says stands in literals of the emitted code: the values of enumerations, the names
of properties and schemas, and bounds. Each is one literal whose value is the text itself, or the
message made of it, whatever characters it has. The rest of the file does not depend on these texts:
with other texts in their places it has the same tokens up to the values of literals.
-/
namespace SchemaForge.Code
open Source (Token Part Line literals skeleton lex)

/-! ### The texts in a package -/

def Init.contents : Init → List String
  | .zero .string => [""]
  | _ => []

def Call.contents : Call → List String
  | .integer lo hi | .number lo hi => lo.toList ++ hi.toList
  | _ => []

def MapStep.contents (_ : MapStep) : List String := ["", "Error in mapping additionalProperties: "]

def PropertyStep.contents (schema : String) (s : PropertyStep Call) : List String :=
  [s.key] ++ (if s.required then [missingMessage s.key schema] else []) ++ s.call.contents
    ++ ["", mappingMessage s.key]

def Body.contents (schema : String) : Body Call → List String
  | .object b =>
    [""] ++ b.additional.toList.flatMap (·.contents) ++ b.properties.flatMap (·.contents schema)
  | .result call => call.contents

def Record.contents (r : Record Ty Init) : List String := r.fields.flatMap (·.default.contents)

/-- The texts that stand in literals, in the order of the file. -/
def Package.contents (p : Package Ty Init Call) : List String :=
  p.sets.flatMap (·.values) ++ p.records.flatMap (·.contents)
    ++ p.functions.flatMap fun f => f.body.contents f.schema

/-! ### The same package without them -/

def Call.blank : Call → Call
  | .integer lo hi => .integer (lo.map fun _ => "") (hi.map fun _ => "")
  | .number lo hi => .number (lo.map fun _ => "") (hi.map fun _ => "")
  | call => call

def PropertyStep.blank (s : PropertyStep Call) : PropertyStep Call :=
  { s with key := "", call := s.call.blank }

def Body.blank : Body Call → Body Call
  | .object b => .object { b with properties := b.properties.map PropertyStep.blank }
  | .result call => .result call.blank

def Function.blank (f : Function Ty Call) : Function Ty Call :=
  { f with schema := "", body := f.body.blank }

def StringSet.blank (s : StringSet) : StringSet := { s with values := s.values.map fun _ => "" }

/-- The package with nothing in the values of its sets, in the names of schemas and properties that
    validators check and report, and in bounds. -/
def Package.blank (p : Package Ty Init Call) : Package Ty Init Call :=
  { p with sets := p.sets.map StringSet.blank, functions := p.functions.map Function.blank }

/-! ### Literals of the declarations -/

theorem Ty.literals_tokens (t : Ty) : literals t.tokens = [] := by
  induction t with
  | slice item ih | pointer target ih => simpa [tokens] using ih
  | ordered item ih => simp [tokens, ih, member, Source.dot]
  | _ => rfl

theorem Init.literals_tokens (init : Init) :
    literals init.tokens = init.contents.map Utf8.encode := by
  cases init with
  | absent => rfl
  | construct constructor => rfl
  | emptyMap item => simp [tokens, contents, member, Source.dot, item.literals_tokens]
  | zero type =>
    cases type with
    | slice item | pointer item | ordered item =>
      simp [tokens, Ty.zeroTokens, contents, member, braces, Source.dot, item.literals_tokens]
    | _ => rfl

theorem Call.literals_count (n : Option Nat) : literals (count n).tokens = [] := by
  cases n <;> rfl

theorem Call.literals_bound (reader : String) (literal : Option String) :
    literals (bound reader literal).tokens = literal.toList.map Utf8.encode := by
  cases literal with
  | none => rfl
  | some literal => simp [bound, Line.part, Line.literals_eq, Line.pieces, Part.name, Part.quote]

theorem Call.literals_formatted (l : Line) (format : Option Schema.Format) :
    literals (formatted l format).tokens = literals l.tokens := by
  cases format with
  | none => rfl
  | some format =>
    rw [Line.literals_eq]
    cases format <;> simp [formatted, Line.pieces, Line.part]

theorem Call.literals_line (subject : String) (c : Call) :
    literals (c.line subject).tokens = c.contents.map Utf8.encode := by
  cases c with
  | string lo hi enum format =>
    rw [line, literals_formatted, Line.literals_eq]
    simp [string_, Line.pieces, Part.name, literals_count, contents]
  | integer lo hi | number lo hi =>
    rw [Line.literals_eq]
    simp [line, Line.pieces, Part.name, literals_bound, contents]
  | boolean | array lo hi item | validator name =>
    rw [Line.literals_eq]
    simp [line, Line.pieces, Part.name, literals_count, contents]

/-- The values of the literals in lines. -/
def lineLiterals (lines : List Line) : List Bytes := lines.flatMap fun l => literals l.tokens

@[simp] theorem lineLiterals_append (ls ms : List Line) :
    lineLiterals (ls ++ ms) = lineLiterals ls ++ lineLiterals ms :=
  List.flatMap_append

@[simp] theorem lineLiterals_cons (l : Line) (ls : List Line) :
    lineLiterals (l :: ls) = l.pieces.flatMap (fun x => literals x.tokens) ++ lineLiterals ls := by
  rw [lineLiterals, List.flatMap_cons, Line.literals_eq]
  rfl

@[simp] theorem lineLiterals_nil : lineLiterals [] = [] := rfl

theorem lineLiterals_flatMap {α : Type} (lines : α → List Line) (as : List α) :
    lineLiterals (as.flatMap lines) = as.flatMap fun a => lineLiterals (lines a) :=
  List.flatMap_assoc

theorem literals_blocks (blocks : List (List Line)) :
    literals (blockTokens blocks) = blocks.flatMap lineLiterals := by
  have broken : ∀ lines : List Line,
      literals (Source.broken (lines.map (·.tokens))) = lineLiterals lines := by
    intro lines
    induction lines with
    | nil => rfl
    | cons l lines ih =>
      rw [List.map_cons, Source.broken, List.flatMap_cons, ← Source.broken,
        Source.literals_append, ih]
      simp [lineLiterals]
  induction blocks with
  | nil => rfl
  | cons block blocks ih =>
    rw [blockTokens, List.flatMap_cons, ← blockTokens, List.flatMap_cons]
    simp [ih, broken]

theorem literals_name (n : String) : literals (Part.name n).tokens = [] := rfl

theorem literals_quote (content : String) :
    literals (Part.quote content).tokens = [Utf8.encode content] := rfl

theorem literals_values (values : List String) :
    literals (quotes values).tokens = values.map Utf8.encode := by
  cases values with
  | nil => rfl
  | cons v rest =>
    have later : literals (rest.flatMap fun w => [.mark ',', .literal (Utf8.encode w)]) =
        rest.map Utf8.encode := by
      induction rest with
      | nil => rfl
      | cons w rest ih => simp [ih]
    simp [quotes, later]

theorem StringSet.literals_line (s : StringSet) :
    lineLiterals [s.line] = s.values.map Utf8.encode := by
  simp [line, Line.pieces, literals_name, literals_values]

theorem Field.literals_row (f : Field Ty Init) : lineLiterals [f.row] = [] := by
  unfold row
  split <;> simp [Line.pieces, literals_name, Ty.part, Ty.literals_tokens, Part.tag]

theorem Field.literals_entry (f : Field Ty Init) :
    lineLiterals [f.entry] = f.default.contents.map Utf8.encode := by
  simp [entry, Line.pieces, literals_name, Init.part, Init.literals_tokens]

theorem Record.literals_block (r : Record Ty Init) : lineLiterals r.block = [] := by
  have rows : lineLiterals (r.fields.map (·.row)) = [] := by
    rw [← List.flatMap_pure_eq_map, lineLiterals_flatMap]
    simpa using fun f _ => Field.literals_row f
  unfold block
  split <;> simp [Line.pieces, literals_name, rows]

theorem Record.literals_constructor (r : Record Ty Init) :
    lineLiterals r.constructorBlock = r.contents.map Utf8.encode := by
  have entries : lineLiterals (r.fields.map (·.entry)) = r.contents.map Utf8.encode := by
    rw [← List.flatMap_pure_eq_map, lineLiterals_flatMap, contents, List.map_flatMap]
    exact List.flatMap_congr fun f _ => Field.literals_entry f
  unfold constructorBlock
  split
  · next empty =>
    have none : r.fields = [] := by simpa using empty
    simp [Line.pieces, literals_name, contents, none]
  · simp [Line.pieces, literals_name, entries]

theorem MapStep.literals_block {fail : Part} (failed : literals fail.tokens = []) (m : MapStep) :
    lineLiterals (m.block fail) = m.contents.map Utf8.encode := by
  simp [block, Line.pieces, literals_name, literals_quote, failed, assigned, member, Source.dot,
    contents]

theorem PropertyStep.literals_block {fail : Part} (failed : literals fail.tokens = [])
    (schema : String) (s : PropertyStep Call) :
    lineLiterals (s.block fail schema) = (s.contents schema).map Utf8.encode := by
  unfold block contents
  split <;> simp [Line.pieces, literals_quote, failed, assigned, member, Source.dot,
    Line.part, Call.literals_line]

theorem Body.literals_block {fail : Part} (failed : literals fail.tokens = []) (schema : String)
    (b : Body Call) : lineLiterals (b.block fail schema) = (b.contents schema).map Utf8.encode := by
  cases b with
  | result call => simp [block, contents, Line.pieces, Line.part, Call.literals_line]
  | object b =>
    have opening : lineLiterals (b.opening fail) = [Utf8.encode ""] := by
      simp [ObjectBody.opening, Line.pieces, literals_name, literals_quote, failed]
    have opened : lineLiterals (if b.properties = [] then [] else
        [.fixed (.mk "\tobj := objResult.Value")]) = [] := by
      split <;> simp [Line.pieces]
    have maps : lineLiterals (b.additional.toList.flatMap (·.block fail)) =
        (b.additional.toList.flatMap (·.contents)).map Utf8.encode := by
      rw [lineLiterals_flatMap, List.map_flatMap]
      exact List.flatMap_congr fun m _ => m.literals_block failed
    have steps : lineLiterals (b.properties.flatMap (·.block fail schema)) =
        (b.properties.flatMap (·.contents schema)).map Utf8.encode := by
      rw [lineLiterals_flatMap, List.map_flatMap]
      exact List.flatMap_congr fun s _ => s.literals_block failed schema
    simp [block, ObjectBody.block, contents, opening, opened, maps, steps, Line.pieces]

theorem Function.literals_block (f : Function Ty Call) :
    lineLiterals f.block = (f.body.contents f.schema).map Utf8.encode := by
  have typed := f.type.literals_tokens
  have failed : literals (failure f.type).tokens = [] := by
    simp [failure, Line.part, Line.literals_eq, Line.pieces, Ty.part, typed]
  simp [block, Line.pieces, literals_name, Ty.part, typed, f.body.literals_block failed]

/-- The literals of a file are its contents. -/
theorem Package.literals_tokens (p : Package Ty Init Call) :
    literals p.tokens = p.contents.map Utf8.encode := by
  have sets : (p.sets.map fun s => [s.line]).flatMap lineLiterals =
      (p.sets.flatMap (·.values)).map Utf8.encode := by
    rw [List.flatMap_map, List.map_flatMap]
    exact List.flatMap_congr fun s _ => s.literals_line
  have records : (p.records.flatMap fun r => [r.block, r.constructorBlock]).flatMap lineLiterals =
      (p.records.flatMap (·.contents)).map Utf8.encode := by
    rw [List.flatMap_assoc, List.map_flatMap]
    refine List.flatMap_congr fun r _ => ?_
    simp [r.literals_block, r.literals_constructor]
  have functions : (p.functions.map (·.block)).flatMap lineLiterals =
      (p.functions.flatMap fun f => f.body.contents f.schema).map Utf8.encode := by
    rw [List.flatMap_map, List.map_flatMap]
    exact List.flatMap_congr fun f _ => f.literals_block
  rw [tokens, literals_blocks, blocks, List.flatMap_append, List.flatMap_append, sets, records,
    functions, contents, List.map_append, List.map_append]

/-! ### The rest of the file -/

/-- Lines without the values of their literals. -/
def skeletons (lines : List Line) : List (List Token) := lines.map fun l => skeleton l.tokens

theorem skeleton_blocks (blocks : List (List Line)) :
    skeleton (blockTokens blocks) =
      (blocks.map skeletons).flatMap fun lines => .newline :: Source.broken lines := by
  have broken : ∀ lines : List Line,
      skeleton (Source.broken (lines.map (·.tokens))) = Source.broken (skeletons lines) := by
    intro lines
    induction lines with
    | nil => rfl
    | cons l lines ih =>
      rw [List.map_cons, Source.broken, List.flatMap_cons, ← Source.broken, Source.skeleton_append,
        ih]
      simp [Source.broken, skeletons, skeleton, Token.erased]
  induction blocks with
  | nil => rfl
  | cons block blocks ih =>
    rw [blockTokens, List.flatMap_cons, ← blockTokens, List.map_cons, List.flatMap_cons,
      Source.skeleton_append, ih, ← broken]
    rfl

@[simp] theorem skeletons_append (ls ms : List Line) :
    skeletons (ls ++ ms) = skeletons ls ++ skeletons ms :=
  List.map_append

@[simp] theorem skeletons_cons (l : Line) (ls : List Line) :
    skeletons (l :: ls) = skeleton l.tokens :: skeletons ls :=
  rfl

theorem skeletons_flatMap {α : Type} (lines : α → List Line) (as : List α) :
    skeletons (as.flatMap lines) = as.flatMap fun a => skeletons (lines a) :=
  List.map_flatMap

theorem skeleton_quote (content : String) :
    skeleton (Part.quote content).tokens = [.literal []] := rfl

theorem skeleton_quotes (values : List String) :
    skeleton (quotes (values.map fun _ => "")).tokens = skeleton (quotes values).tokens := by
  cases values with
  | nil => rfl
  | cons v rest =>
    have later : skeleton ((rest.map fun _ => "").flatMap fun w =>
        [.mark ',', .literal (Utf8.encode w)]) =
        skeleton (rest.flatMap fun w => [.mark ',', .literal (Utf8.encode w)]) := by
      induction rest with
      | nil => rfl
      | cons w rest ih =>
        rw [List.map_cons, List.flatMap_cons, List.flatMap_cons, Source.skeleton_append,
          Source.skeleton_append, ih]
        rfl
    exact congrArg (.literal [] :: ·) later

theorem StringSet.skeletons_blank (s : StringSet) :
    skeletons [s.blank.line] = skeletons [s.line] := by
  simp only [line, blank, Line.tokens_parts, skeletons_cons, Source.skeleton_append,
    skeleton_quotes]

theorem Call.skeleton_bound (reader : String) (literal : Option String) :
    skeleton (bound reader (literal.map fun _ => "")).tokens =
      skeleton (bound reader literal).tokens := by
  cases literal with
  | none => rfl
  | some literal => simp [bound, Line.part, Line.tokens, skeleton_quote]

theorem Call.skeleton_blank (subject : String) (c : Call) :
    skeleton (c.blank.line subject).tokens = skeleton (c.line subject).tokens := by
  cases c with
  | integer lo hi | number lo hi => simp [line, blank, Line.tokens, skeleton_bound]
  | _ => rfl

theorem PropertyStep.skeletons_blank (fail : Part) (schema : String) (s : PropertyStep Call) :
    skeletons (s.blank.block fail "") = skeletons (s.block fail schema) := by
  have call := s.call.skeleton_blank propertyArgument
  unfold block blank
  dsimp only
  split <;> simp [Line.tokens_parts, Line.part, skeleton_quote, call]

theorem Body.skeletons_blank (fail : Part) (schema : String) (b : Body Call) :
    skeletons (b.blank.block fail "") = skeletons (b.block fail schema) := by
  cases b with
  | result call =>
    simp [block, blank, Line.tokens_parts, Line.part, call.skeleton_blank argument]
  | object b =>
    have steps : skeletons ((b.properties.map PropertyStep.blank).flatMap (·.block fail "")) =
        skeletons (b.properties.flatMap (·.block fail schema)) := by
      rw [List.flatMap_map, skeletons_flatMap, skeletons_flatMap]
      exact List.flatMap_congr fun s _ => s.skeletons_blank fail schema
    simp only [block, blank, ObjectBody.block, skeletons_append, steps, List.isEmpty_map]
    rfl

theorem Function.skeletons_blank (f : Function Ty Call) :
    skeletons f.blank.block = skeletons f.block := by
  simp [block, blank, f.body.skeletons_blank (failure f.type) f.schema]

/-- Without the values of literals, a file has the same tokens whatever its contents are. -/
theorem Package.skeleton_blank (p : Package Ty Init Call) :
    skeleton p.blank.tokens = skeleton p.tokens := by
  have sets : (p.blank.sets.map fun s => [s.line]).map skeletons =
      (p.sets.map fun s => [s.line]).map skeletons := by
    rw [blank, List.map_map, List.map_map, List.map_map]
    exact List.map_congr_left fun s _ => s.skeletons_blank
  have functions : (p.blank.functions.map (·.block)).map skeletons =
      (p.functions.map (·.block)).map skeletons := by
    rw [blank, List.map_map, List.map_map, List.map_map]
    exact List.map_congr_left fun f _ => f.skeletons_blank
  have same : p.blank.blocks.map skeletons = p.blocks.map skeletons := by
    rw [blocks, List.map_append, List.map_append, sets, functions, ← List.map_append,
      ← List.map_append]
    rfl
  rw [tokens, tokens, skeleton_blocks, skeleton_blocks, same]

/-! ### Names do not depend on contents -/

theorem Call.names_blank (c : Call) :
    c.blank.validators = c.validators ∧ c.blank.sets = c.sets := by
  cases c <;> exact ⟨rfl, rfl⟩

theorem Body.names_blank (b : Body Call) :
    b.blank.validators = b.validators ∧ b.blank.sets = b.sets ∧
      b.blank.constructors = b.constructors ∧ b.blank.fields = b.fields := by
  cases b with
  | result call =>
    obtain ⟨validators, sets⟩ := call.names_blank
    exact ⟨validators, sets, rfl, rfl⟩
  | object b =>
    have calls := fun s : PropertyStep Call => s.call.names_blank
    refine ⟨?_, ?_, rfl, ?_⟩
    · simp [validators, blank, PropertyStep.blank, List.flatMap_map, calls]
    · simp [sets, blank, PropertyStep.blank, List.flatMap_map, calls]
    · simp [fields, blank, PropertyStep.blank]

theorem Function.clean_blank_iff (f : Function Ty Call) : f.blank.Clean ↔ f.Clean := by
  obtain ⟨validators, sets, constructors, fields⟩ := f.body.names_blank
  constructor
  · rintro ⟨name, records, called, listed, made, held⟩
    exact ⟨name, records, validators ▸ called, sets ▸ listed, constructors ▸ made, fields ▸ held⟩
  · rintro ⟨name, records, called, listed, made, held⟩
    exact ⟨name, records, validators.symm ▸ called, sets.symm ▸ listed, constructors.symm ▸ made,
      fields.symm ▸ held⟩

theorem Package.clean_blank_iff (p : Package Ty Init Call) : p.blank.Clean ↔ p.Clean := by
  constructor
  · intro clean
    refine ⟨?_, clean.records, ?_⟩
    · exact fun s here => clean.sets s.blank (List.mem_map_of_mem here)
    · exact fun f here => f.clean_blank_iff.mp (clean.functions f.blank (List.mem_map_of_mem here))
  · intro clean
    refine ⟨?_, clean.records, ?_⟩
    · exact List.forall_mem_map.mpr fun s here => clean.sets s here
    · exact List.forall_mem_map.mpr fun f here => f.clean_blank_iff.mpr (clean.functions f here)

theorem Package.front_blank (head package : String) (p : Package Ty Init Call) :
    p.blank.print.front head package = p.print.front head package := by
  have texts : p.blank.print.declaredTexts = p.print.declaredTexts := by
    simp [PackageText.declaredTexts, print, blank, Function.print, Function.blank]
  unfold PackageText.front PackageText.importBlock
  rw [texts]

end SchemaForge.Code

namespace SchemaForge.Compile
open Code.Source (lex literals skeleton)

/-- Every text is read back from its literal, so that distinct texts have distinct literals. The
    literals of a file are the contents of the package, in order; and any package that differs in
    its contents only is read as the same tokens, up to the values of literals. -/
theorem contents_stay_literal {d : Document} {o : CompileOptions} {canceled : Bool}
    {r : CompiledDocument} (compiled : document d o canceled = .ok r)
    {package header text : String} (rendered : r.package.print.render package header = .ok text) :
    (∀ s, lex (Text.quoted s) = some [.literal (Utf8.encode s)]) ∧
    (∀ s t, Text.quoted s = Text.quoted t → s = t) ∧
    ∃ head tokens,
      Code.formattedHeader? (if header.isEmpty then Support.header else header) = some head ∧
      text = r.package.print.front head package ++ r.package.print.code ∧
      lex r.package.print.code = some tokens ∧
      literals tokens = r.package.contents.map Utf8.encode ∧
      ∀ other : Package, other.blank = r.package.blank →
        other.print.front head package = r.package.print.front head package ∧
        ∃ others, lex other.print.code = some others ∧
          literals others = other.contents.map Utf8.encode ∧
          skeleton others = skeleton tokens := by
  obtain ⟨formed, head, formatted, same⟩ := Code.PackageText.render_ok rendered
  obtain ⟨-, named, -, -, linked, -⟩ := document_linked compiled
  have clean := linked.clean formed
  refine ⟨Code.Source.lex_quoted, fun _ _ => Code.Source.quoted_injective, head, r.package.tokens,
    formatted, same, clean.code_read, r.package.literals_tokens, ?_⟩
  intro other blank
  have clean' : other.Clean := by
    rw [← other.clean_blank_iff, blank, r.package.clean_blank_iff]
    exact clean
  refine ⟨?_, other.tokens, clean'.code_read, other.literals_tokens, ?_⟩
  · rw [← Code.Package.front_blank, blank, Code.Package.front_blank]
  · rw [← other.skeleton_blank, blank, r.package.skeleton_blank]

/-- Texts that look like the code around them. -/
def Sample.hostile : Document :=
  ⟨.obj [("schemas", .obj [("a\"(\n", .obj (Sample.object
    [("\\\" + x", .obj [("type", .str "string"),
        ("enum", .arr [.str "\") \x7d", .str "\x00\u2028"])]),
      ("big.", .obj [("type", .str "integer"), ("minimum", .num "-1")])] ["\\\" + x"]))])]⟩

set_option maxRecDepth 100000 in
theorem hostile_contents_literal :
    ∃ r text, document Sample.hostile Sample.options false = .ok r ∧
      r.package.print.render "gen" "" = .ok text ∧
      r.package.contents = ["\") \x7d", "\x00\u2028", "", "", "\\\" + x",
        "Expected '\\\" + x' to be present in a\"(\n", "", "Error in mapping '\\\" + x': ", "big.",
        "-1", "", "Error in mapping 'big.': "] ∧
      ∃ tokens, lex r.package.print.code = some tokens ∧
        literals tokens = r.package.contents.map Utf8.encode ∧
        (lex r.package.blank.print.code).map skeleton = some (skeleton tokens) := by
  obtain ⟨r, compiled, holds⟩ := toOption_any_iff.mp (show
    (document Sample.hostile Sample.options false).toOption.any (fun r =>
      r.package.contents == ["\") \x7d", "\x00\u2028", "", "", "\\\" + x",
        "Expected '\\\" + x' to be present in a\"(\n", "", "Error in mapping '\\\" + x': ", "big.",
        "-1", "", "Error in mapping 'big.': "] &&
      decide (r.package.blank.blank = r.package.blank) &&
      (r.package.print.render "gen" "").toOption.any fun _ => true) from by decide +kernel)
  simp only [Bool.and_eq_true, beq_iff_eq, decide_eq_true_eq] at holds
  obtain ⟨⟨contents, blank⟩, printed⟩ := holds
  obtain ⟨text, rendered, -⟩ := toOption_any_iff.mp printed
  obtain ⟨-, -, head, tokens, -, -, read, values, others⟩ := contents_stay_literal compiled rendered
  obtain ⟨-, erased, readBlank, -, same⟩ := others r.package.blank blank
  exact ⟨r, text, compiled, rendered, contents, tokens, read, values, by simp [readBlank, same]⟩

end SchemaForge.Compile
