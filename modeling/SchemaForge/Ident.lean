import SchemaForge.Support.Names
import SchemaForge.Text.Digit
import SchemaForge.Text.Letter
import SchemaForge.Text.Upper

/- Identifiers of the emitted Go code. Every one is a function of a schema or property name, so
   the same document always gives the same code. -/
namespace SchemaForge.Ident

def keywords : List String :=
  ["break", "case", "chan", "const", "continue", "default", "defer", "else", "fallthrough", "for",
    "func", "go", "goto", "if", "import", "interface", "map", "package", "range", "return",
    "select", "struct", "switch", "type", "var"]

def predeclared : List String :=
  ["any", "bool", "byte", "comparable", "complex64", "complex128", "error", "float32", "float64",
    "int", "int8", "int16", "int32", "int64", "rune", "string", "uint", "uint8", "uint16", "uint32",
    "uint64", "uintptr", "true", "false", "iota", "nil", "append", "cap", "clear", "close",
    "complex", "copy", "delete", "imag", "len", "make", "max", "min", "new", "panic", "print",
    "println", "real", "recover"]

/-- The local names of every emitted validator. -/
def locals : List String :=
  ["json", "value", "obj", "objResult", "ok", "propJSON", "propResult", "addPropertiesResult"]

def reserved : List String := keywords ++ predeclared ++ locals ++ Support.names

def isReserved (name : String) : Bool := reserved.contains name

/- No reserved name ends in an underscore, so one round is enough for most names; the bound covers
   every reserved name at once. -/
def escapeWithin : Nat → String → String
  | 0, name => name
  | n + 1, name => if isReserved name then escapeWithin n (name ++ "_") else name

/-- Appends underscores until the name is free. -/
def escapeReserved (name : String) : String := escapeWithin (reserved.length + 1) name

def isLetter (c : Char) : Bool := Text.isLetter c || c = '_'

def isPart (c : Char) : Bool := isLetter c || Text.isDigit c

/-- A letter or underscore with letters, digits and underscores after it. -/
def isIdentifierChars : List Char → Bool
  | [] => false
  | c :: rest => isLetter c && rest.all isPart

/-- An identifier that is not a keyword. -/
def isIdentifier (name : String) : Bool :=
  isIdentifierChars name.toList && !keywords.contains name

def sanitizeChars : List Char → List Char
  | [] => ['_']
  | c :: rest =>
    let cs := (c :: rest).map fun c => if isPart c then c else '_'
    if Text.isDigit c then '_' :: cs else cs

/-- Every character that cannot stand in an identifier becomes an underscore. -/
def sanitize (name : String) : String := String.ofList (sanitizeChars name.toList)

/-- The identifier for a schema name: of its struct type, and the stem of other names. -/
def typeName (name : String) : String := escapeReserved (sanitize name)

/-- The exported field for a property. A first character without upper case gets a lead. -/
def fieldName (property : String) : String :=
  match sanitizeChars property.toList with
  | [] => "X"
  | c :: rest =>
    let upper := Text.toUpper c
    String.ofList (if Text.isUpper upper then upper :: rest else 'X' :: c :: rest)

def validatorName (exported : Bool) (name : String) : String :=
  escapeReserved ((if exported then "Validate" else "validate") ++ typeName name)

def constructorName (name : String) : String := escapeReserved ("new" ++ typeName name)

/-! Names for the schemas inside a schema. -/

def propertyOf (parent property : String) : String := parent ++ "_" ++ property

def itemOf (parent : String) : String := parent ++ "Item"

def additionalOf (parent : String) : String := parent ++ "AdditionalProperties"

def enumSetOf (parent : String) : String := parent ++ "EnumSet"

def propertiesSetOf (parent : String) : String := parent ++ "PropertiesSet"

end SchemaForge.Ident
