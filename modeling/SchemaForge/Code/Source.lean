import SchemaForge.Code.Fragment
import SchemaForge.Code.Layout
import SchemaForge.Code.Text
import SchemaForge.Support.Files

/- The source text of a package: sets first, then each struct with its constructor, then the
   validators, all in order, in the standard layout. -/
namespace SchemaForge.Code

inductive RenderError where
  | invalidPackage (name : String)
  | malformed
  deriving DecidableEq, Repr

def RenderError.message : RenderError → String
  | .invalidPackage name => "invalid package name " ++ Text.quoted name
  | .malformed => "format generated source: "

/- Imports. -/

structure Import where
  qualifier : String
  path : String
  standard : Bool

def knownImports : List Import :=
  [⟨"big.", "\"math/big\"", true⟩, ⟨"time.", "\"time\"", true⟩,
    ⟨"decimal.", "decimal \"github.com/shopspring/decimal\"", false⟩,
    ⟨"orderedmap.", "orderedmap \"github.com/wk8/go-ordered-map/v2\"", false⟩]

/-- The declared types and initial values. Calls only name support functions. -/
def PackageText.declaredTexts (p : PackageText) : List String :=
  (p.records.flatMap fun r => r.fields.flatMap fun f => [f.type, f.default])
    ++ p.functions.map (·.type)

def Import.isUsed (texts : List String) (i : Import) : Bool :=
  texts.any fun t => Text.contains i.qualifier.toList t.toList

def importLines (texts : List String) : List String :=
  let used := knownImports.filter (·.isUsed texts)
  let standard := (used.filter (·.standard)).map fun i => "\t" ++ i.path
  let others := (used.filter fun i => !i.standard).map fun i => "\t" ++ i.path
  if used.isEmpty then []
  else
    let gap := if standard.isEmpty || others.isEmpty then [] else [""]
    ["import ("] ++ standard ++ gap ++ others ++ [")"]

/- Tags. -/

/-- Characters that a member name in a tag may have. -/
def isTagChar (c : Char) : Bool :=
  "!#$%&()*+-./:;<=>?@[]^_\x7b|\x7d~ ".toList.contains c || ('0' ≤ c && c ≤ '9')
    || ('a' ≤ c && c ≤ 'z') || ('A' ≤ c && c ≤ 'Z') || (0x7f < c.toNat && c ≠ Utf8.replacement)

/-- The tag of a field: none for a name that a tag cannot hold. -/
def Field.tag? (f : Field String String) : Option String :=
  if f.key.isEmpty then some "json:\"-\""
  else if !f.key.toList.all isTagChar then none
  else if f.default = "nil" then some ("json:\"" ++ f.key ++ ",omitempty\"")
  else some ("json:\"" ++ f.key ++ "\"")

def quoteTag (tag : String) : String := "\x60" ++ tag ++ "\x60"

/- Declarations, as lines. -/

def StringSet.lines (s : StringSet) : List String :=
  ["var " ++ s.name ++ " = toSet(" ++ Text.joinWith ", " (s.values.map Text.quoted) ++ ")"]

def Record.lines (r : Record String String) : List String :=
  if r.fields.isEmpty then ["type " ++ r.name ++ " struct\x7b\x7d"]
  else
    ["type " ++ r.name ++ " struct \x7b"]
      ++ (Layout.structLines (r.fields.map fun f => ⟨f.name, f.type, f.tag?.map quoteTag⟩)).map
        ("\t" ++ ·)
      ++ ["\x7d"]

def Record.constructorLines (r : Record String String) : List String :=
  ["func " ++ r.constructor ++ "() *" ++ r.name ++ " \x7b"]
    ++ (if r.fields.isEmpty then ["\treturn &" ++ r.name ++ "\x7b\x7d"]
      else
        ["\treturn &" ++ r.name ++ "\x7b"]
          ++ (Layout.keyedLines (r.fields.map fun f => ⟨f.name, f.default⟩)).map ("\t\t" ++ ·)
          ++ ["\t\x7d"])
    ++ ["\x7d"]

def missingMessage (key schema : String) : String :=
  "Expected '" ++ key ++ "' to be present in " ++ schema

def mappingMessage (key : String) : String := "Error in mapping '" ++ key ++ "': "

def MapStep.lines (fail : String) (m : MapStep) : List String :=
  ["\taddPropertiesResult := validateTypedMap(json, " ++ m.exclude.getD "nil" ++ ", " ++ m.validator
      ++ ")",
    "\tif addPropertiesResult.Error != \"\" \x7b",
    "\t\treturn " ++ fail ++ "(\"Error in mapping additionalProperties: \" + addPropertiesResult.Error)",
    "\t\x7d",
    "\tvalue." ++ m.field ++ " = addPropertiesResult.Value"]

def PropertyStep.lines (fail schema : String) (s : PropertyStep String) : List String :=
  let key := Text.quoted s.key
  (if s.required then
    ["\t\x7b",
      "\t\tpropJSON, ok := obj.Get(" ++ key ++ ")",
      "\t\tif !ok \x7b",
      "\t\t\treturn " ++ fail ++ "(" ++ Text.quoted (missingMessage s.key schema) ++ ")",
      "\t\t\x7d"]
  else ["\tif propJSON, ok := obj.Get(" ++ key ++ "); ok \x7b"])
    ++ ["\t\tpropResult := " ++ s.call,
      "\t\tif propResult.Error != \"\" \x7b",
      "\t\t\treturn " ++ fail ++ "(" ++ Text.quoted (mappingMessage s.key) ++ " + propResult.Error)",
      "\t\t\x7d",
      "\t\tvalue." ++ s.field ++ " = " ++ (if s.boxed then "&" else "") ++ "propResult.Value",
      "\t\x7d"]

def ObjectBody.lines (fail schema : String) (b : ObjectBody String) : List String :=
  ["\tvalue := " ++ b.constructor ++ "()",
    "\tobjResult := validateObject(json)",
    "\tif objResult.Error != \"\" \x7b",
    "\t\treturn " ++ fail ++ "(objResult.Error)",
    "\t\x7d"]
    ++ (if b.properties.isEmpty then [] else ["\tobj := objResult.Value"])
    ++ (match b.additional with | some m => m.lines fail | none => [])
    ++ b.properties.flatMap (·.lines fail schema)
    ++ ["\treturn success(value)"]

def Function.lines (f : Function String String) : List String :=
  ["func " ++ f.name ++ "(json *JSONValue) Result[" ++ f.type ++ "] \x7b"]
    ++ (match f.body with
      | .object b => b.lines ("failure[" ++ f.type ++ "]") f.schema
      | .result call => [if call.isEmpty then "\treturn" else "\treturn " ++ call])
    ++ ["\x7d"]

/-- All declarations in order. -/
def PackageText.declarations (p : PackageText) : List (List String) :=
  let imports := importLines p.declaredTexts
  (if imports.isEmpty then [] else [imports]) ++ p.sets.map (·.lines)
    ++ (p.records.flatMap fun r => [r.lines, r.constructorLines]) ++ p.functions.map (·.lines)

/- Texts that would not be read back as the declarations they stand in. -/

def isPlainName (name : String) : Bool := Ident.isIdentifier name

/-- The byte order mark is refused inside a file. -/
def byteOrderMark : Char := Char.ofNat 0xfeff

def Field.wellFormed (f : Field String String) : Bool :=
  isPlainName f.name && Fragment.isType f.type && Fragment.isExpression f.default
    && !(f.tag?.any fun t => t.toList.contains byteOrderMark)

def Record.wellFormed (r : Record String String) : Bool :=
  isPlainName r.name && isPlainName r.constructor && r.fields.all (·.wellFormed)

def PropertyStep.wellFormed (s : PropertyStep String) : Bool :=
  isPlainName s.field && Fragment.isExpression s.call

def MapStep.wellFormed (m : MapStep) : Bool :=
  isPlainName m.field && m.exclude.all Fragment.isExpression && Fragment.isExpression m.validator

def Body.wellFormed : Body String → Bool
  | .object b =>
    Fragment.isExpression b.constructor && b.additional.all (·.wellFormed)
      && b.properties.all (·.wellFormed)
  | .result call => call.isEmpty || Fragment.isExpression call

def Function.wellFormed (f : Function String String) : Bool :=
  isPlainName f.name && Fragment.isType f.type && f.body.wellFormed

def PackageText.wellFormed (p : PackageText) : Bool :=
  (p.sets.all fun s => isPlainName s.name) && p.records.all (·.wellFormed)
    && p.functions.all (·.wellFormed)

/- Headers: comments with blank lines between them. -/

inductive HeaderPart where
  | line (text : String)
  | block (text : String)
  | breaks (count : Nat)
  deriving DecidableEq, Repr

def trimRight (cs : List Char) : List Char :=
  (cs.reverse.dropWhile fun c => c = ' ' || c = '\t' || c = '\r').reverse

/-- The text of a block comment up to its end, and the rest. -/
def blockEnd : List Char → Option (List Char × List Char)
  | [] => none
  | '*' :: '/' :: rest => some (['*', '/'], rest)
  | c :: rest => (blockEnd rest).map fun (text, left) => (c :: text, left)

/-- Comments and line breaks; a text with anything else is no header. -/
def headerParts : Nat → List Char → Option (List HeaderPart)
  | 0, _ => none
  | _ + 1, [] => some []
  | fuel + 1, '/' :: '/' :: rest =>
    let text := rest.takeWhile (· ≠ '\n')
    match rest.dropWhile (· ≠ '\n') with
    | [] => none
    | left =>
      if text.contains byteOrderMark then none
      else
        (headerParts fuel left).map (.line (String.ofList ('/' :: '/' :: trimRight text)) :: ·)
  | fuel + 1, '/' :: '*' :: rest =>
    match blockEnd rest with
    | none => none
    | some (text, left) =>
      if text.contains byteOrderMark then none
      else (headerParts fuel left).map (.block (String.ofList ('/' :: '*' :: text)) :: ·)
  | fuel + 1, c :: rest =>
    if c = '\n' then
      let run := (c :: rest).takeWhile fun c => c = '\n' || c = ' ' || c = '\t' || c = '\r'
      (headerParts fuel ((c :: rest).drop run.length)).map (.breaks (run.count '\n') :: ·)
    else if c = ' ' || c = '\t' || c = '\r' then headerParts fuel rest
    else none

/-- Blank lines at the start are dropped, and several count as one. -/
def headerText : List HeaderPart → String
  | [] => ""
  | .breaks n :: rest => (if n = 1 then "\n" else "\n\n") ++ headerText rest
  | .line t :: rest => t ++ headerText rest
  | .block t :: .breaks n :: rest => t ++ (if n = 1 then "\n" else "\n\n") ++ headerText rest
  | .block t :: rest => t ++ " " ++ headerText rest

def dropBreaks : List HeaderPart → List HeaderPart
  | .breaks _ :: rest => rest
  | parts => parts

def formattedHeader? (header : String) : Option String :=
  (headerParts (header.toList.length + 1) header.toList).map fun parts =>
    headerText (dropBreaks parts)

def joinLines (lines : List String) : String :=
  lines.foldl (fun acc line => acc ++ line ++ "\n") ""

/-- The source file of a package. An empty header stands for the usual one. -/
def PackageText.render (package header : String) (p : PackageText) : Except RenderError String :=
  if !Ident.isIdentifier package then .error (.invalidPackage package)
  else
    match formattedHeader? (if header.isEmpty then Support.header else header) with
    | none => .error .malformed
    | some head =>
      if p.wellFormed then
        .ok (p.declarations.foldl (fun acc lines => acc ++ "\n" ++ joinLines lines)
          (head ++ "package " ++ package ++ "\n"))
      else .error .malformed

end SchemaForge.Code
