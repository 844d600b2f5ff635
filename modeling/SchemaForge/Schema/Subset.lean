import SchemaForge.Digest.Encode
import SchemaForge.Schema.Error

/- The check of a schema against the subset of keywords and value shapes that can be compiled.
   Unlike decoding it reports everything that is wrong with a schema at once. -/
namespace SchemaForge.Subset

/-- Types that a value is asked to have. -/
inductive Wanted where
  | object
  | array
  | string
  | boolean
  | integer
  | bound
  deriving DecidableEq, Repr

def Wanted.name : Wanted → String
  | .object => "object"
  | .array => "array"
  | .string => "string"
  | .boolean => "boolean"
  | .integer => "integer"
  | .bound => "number or string"

inductive Problem where
  | type (got : Json.Kind) (want : Wanted)
  | notSchemaType
  | missing (property : String)
  | emptyString
  | negative (got : String)
  | notEmpty (properties : Nat)
  deriving DecidableEq, Repr

/-- Digits with a comma in front of each group of three; `n` digits are left. -/
def groupDigits : Nat → List Char → List Char
  | _, [] => []
  | n, c :: rest =>
    let tail := groupDigits (n - 1) rest
    if 1 < n && n % 3 = 1 then c :: ',' :: tail else c :: tail

def groupedNat (n : Nat) : String :=
  let ds := Nat.toDigits 10 n
  String.ofList (groupDigits ds.length ds)

namespace Problem

def schemaTypes : List String := ["object", "array", "string", "number", "integer", "boolean"]

def message : Problem → String
  | .type got want => "got " ++ got.name ++ ", want " ++ want.name
  | .notSchemaType =>
    "value must be one of " ++ Text.joinWith ", " (schemaTypes.map fun t => "'" ++ t ++ "'")
  | .missing property => "missing property '" ++ property ++ "'"
  | .emptyString => "minLength: got 0, want 1"
  | .negative got => "minimum: got " ++ got ++ ", want 0"
  | .notEmpty n => "maxProperties: got " ++ groupedNat n ++ ", want 0"

end Problem

inductive Label where
  | several
  | allOf
  | anyOf
  deriving DecidableEq, Repr

def Label.message : Label → String
  | .several => "validation failed"
  | .allOf => "'allOf' failed"
  | .anyOf => "'anyOf' failed"

inductive Finding where
  | leaf (path : List String) (problem : Problem)
  | group (path : List String) (label : Label) (causes : List Finding)
  deriving Repr

/-- Several findings at one place are put together. -/
def gathered (path : List String) : List Finding → List Finding
  | [] => []
  | [f] => [f]
  | fs => [.group path .several fs]

def wrongType (path : List String) (v : Json) (want : Wanted) : List Finding :=
  [.leaf path (.type v.kind want)]

def stringAt (path : List String) : Json → List Finding
  | .str _ => []
  | v => wrongType path v .string

def stringsFrom (path : List String) (index : Nat) : List Json → List Finding
  | [] => []
  | v :: rest =>
    stringAt (path ++ [Number.renderNat index]) v ++ stringsFrom path (index + 1) rest

def strings (path : List String) : Json → List Finding
  | .arr items => gathered path (stringsFrom path 0 items)
  | v => wrongType path v .array

/-- The number in front of the point, with its sign. -/
def wholeText (p : Literal.Parts) : String :=
  let n := if 0 ≤ p.exponent then p.coefficient * Number.tenPow p.exponent.toNat
    else p.coefficient / Number.tenPow (-p.exponent).toNat
  (if p.negative then "-" else "") ++ groupedNat n

/-- A whole number that is not negative. -/
def count (path : List String) : Json → List Finding
  | .num text =>
    if Literal.isWholeNumber text then
      let p := Literal.parts text
      if p.negative && p.coefficient ≠ 0 then [.leaf path (.negative (wholeText p))] else []
    else wrongType path (.num text) .integer
  | v => wrongType path v .integer

def bound (path : List String) : Json → List Finding
  | .num _ | .str _ => []
  | v => wrongType path v .bound

def schemaType (path : List String) : Json → List Finding
  | .str s => if Problem.schemaTypes.contains s then [] else [.leaf path .notSchemaType]
  | _ => [.leaf path .notSchemaType]

def reference (path : List String) : Json → List Finding
  | .str s => if s.isEmpty then [.leaf path .emptyString] else []
  | v => wrongType path v .string

def mayBeArray (members : List (String × Json)) : Bool :=
  match Members.get? "type" members with
  | none => true
  | some (.str s) => s = "array"
  | some _ => false

def missingType (path : List String) (members : List (String × Json)) : List Finding :=
  if Members.has "type" members then [] else [.leaf path (.missing "type")]

/-- An array needs items; so does what has no type. -/
def missingItems (path : List String) (members : List (String × Json)) : List Finding :=
  if mayBeArray members && !Members.has "items" members then
    [.group path .allOf [.leaf path (.missing "items")]]
  else []

/-- A boolean, an empty object, or a schema. -/
def additional (path : List String) (v : Json) (asSchema : List Finding) : List Finding :=
  let failed (second : Problem) : List Finding :=
    if asSchema.isEmpty then []
    else
      [.group path .anyOf
        ([.leaf path (.type v.kind .boolean), .leaf path second] ++ asSchema)]
  match v with
  | .bool _ => []
  | .obj [] => []
  | .obj members => failed (.notEmpty members.length)
  | v => failed (.type v.kind .object)

/-- Keywords whose value holds no schema. -/
def plainKeyword (path : List String) (key : String) (v : Json) : List Finding :=
  if key = "type" then schemaType path v
  else if key = "required" || key = "enum" then strings path v
  else if ["minItems", "maxItems", "minLength", "maxLength"].contains key then count path v
  else if key = "format" then stringAt path v
  else if key = "minimum" || key = "maximum" then bound path v
  else []

mutual

/-- What is wrong with a schema: nothing, or one finding that may be a group. -/
def node (path : List String) : Json → List Finding
  | .obj members =>
    match Members.get? "$ref" members with
    | some v => reference (path ++ ["$ref"]) v
    | none =>
      gathered path (missingType path members ++ keywords path members ++ missingItems path members)
  | v => wrongType path v .object

def keywords (path : List String) : List (String × Json) → List Finding
  | [] => []
  | (key, v) :: rest =>
    let inner := path ++ [key]
    (if key = "items" then node inner v
      else if key = "additionalProperties" then additional inner v (node inner v)
      else if key = "properties" then
        match v with
        | .obj members => gathered inner (nodes inner members)
        | v => wrongType inner v .object
      else plainKeyword inner key v)
      ++ keywords path rest

def nodes (path : List String) : List (String × Json) → List Finding
  | [] => []
  | (key, v) :: rest => node (path ++ [key]) v ++ nodes path rest

end

/- The report. -/

def pointerText (path : List String) : String := Pointer.suffix path

/-- Single quotes around a text; inside it they are escaped, double quotes are not. -/
def quotedOnce (s : String) : String :=
  let escape (c : Char) : List Char :=
    if c = '"' then ['"'] else if c = '\'' then ['\\', '\''] else Text.escapeChar '"' c
  String.ofList ('\'' :: (s.toList.flatMap escape ++ ['\'']))

def lineText (indent : Nat) (path : List String) (message : String) : String :=
  "\n" ++ String.ofList (List.replicate (2 * indent) ' ') ++ "- at "
    ++ quotedOnce (pointerText path) ++ ": " ++ message

mutual

def report (indent : Nat) : Finding → String
  | .leaf path problem => lineText indent path problem.message
  | .group path label causes =>
    lineText indent path label.message ++ reports (indent + 1) causes

def reports (indent : Nat) : List Finding → String
  | [] => ""
  | f :: rest => report indent f ++ reports indent rest

end

mutual

/-- The place of the first leaf. -/
def firstPath : Finding → List String
  | .leaf path _ => path
  | .group path _ causes => firstPathOr path causes

def firstPathOr (path : List String) : List Finding → List String
  | [] => path
  | f :: _ => firstPath f

end

def heading : String := "jsonschema validation failed with 'https://jsvgen.dev/schemas/subset.json#'"

inductive Error where
  | encode (name : String) (error : EncodeError)
  | schema (error : SchemaError)
  deriving Repr

def Error.message : Error → String
  | .encode name e => "encode schema " ++ Text.quoted name ++ ": " ++ e.message
  | .schema e => e.message

/-- Checks one named schema as it stands in a document. -/
def check (name : String) (tree : Json) : Except Error Unit :=
  match Encode.json tree with
  | .error e => .error (.encode name e)
  | .ok v =>
    match node [] v with
    | [] => .ok ()
    | f :: rest =>
      .error (.schema ⟨name, Pointer.render (firstPath f),
        .notInSubset (heading ++ reports 0 (f :: rest))⟩)

/-- Checks schemas in order up to the first that fails. -/
def checkAll : List (String × Json) → Except Error Unit
  | [] => .ok ()
  | (name, tree) :: rest =>
    match check name tree with
    | .error e => .error e
    | .ok () => checkAll rest

end SchemaForge.Subset
