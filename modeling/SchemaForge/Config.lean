import SchemaForge.Document
import SchemaForge.Glob.Ignore
import SchemaForge.Ident
import SchemaForge.Path

/- The configuration of a run: its defaults and its rules. -/
namespace SchemaForge

/-- A document that is given takes the place of a source to fetch it from. -/
structure Config where
  source : String := ""
  document : Option Bytes := none
  format : String := ""
  section_ : String := ""
  ignore : List String := []
  outDir : String := ""
  outFile : String := ""
  package : String := ""
  exported : Bool := false
  withoutSupport : Bool := false
  strict : Bool := false
  concurrency : Int := 0
  deriving Repr

namespace Config

def defaultOutDir : String := "./json-schema"

def defaultOutFile : String := "validators.go"

def defaultPackage : String := "validators"

/-- Lower case, as far as the result is a letter of a package name. -/
def lower (c : Char) : Char :=
  if c.toNat = 0x130 then 'i' else if c.toNat = 0x212a then 'k' else Text.toLowerAscii c

/-- Letters and underscores are kept, digits not in front; the characters come last first. -/
def packageChars (kept : List Char) : List Char → List Char
  | [] => kept.reverse
  | c :: rest =>
    if ('a' ≤ c && c ≤ 'z') || c = '_' then packageChars (c :: kept) rest
    else if '0' ≤ c && c ≤ '9' && !kept.isEmpty then packageChars (c :: kept) rest
    else packageChars kept rest

/-- The package name for a directory. -/
def packageName (dir : String) : String :=
  let name := String.ofList (packageChars [] ((Path.base (Path.clean dir)).toList.map lower))
  if name = "" || name = "_" || Ident.keywords.contains name then defaultPackage else name

/-- JSON for a document that starts with a bracket after blanks; without a document the name of
    the source decides. -/
def detectFormat (c : Config) : DocumentFormat :=
  match c.document with
  | none => DocumentFormat.ofFileName c.source
  | some bytes =>
    match (Utf8.decode bytes).toList.dropWhile Text.isSpace with
    | '\x7b' :: _ => .json
    | '[' :: _ => .json
    | _ => .yaml

def orDefault (default : String) (s : String) : String := if s.isEmpty then default else s

def withDefaults (c : Config) : Config :=
  let outDir := orDefault defaultOutDir c.outDir
  { c with
    outDir := outDir
    outFile := orDefault defaultOutFile c.outFile
    package := orDefault (packageName outDir) c.package
    format := orDefault c.detectFormat.name c.format }

/-- How a run names its source. -/
def sourceName (c : Config) : String :=
  if c.document.isSome || c.source.isEmpty then "<inline>" else c.source

inductive Field where
  | source
  | format
  | ignore (index : Nat)
  | outFile
  | package
  | concurrency
  deriving DecidableEq, Repr

def Field.name : Field → String
  | .source => "Source"
  | .format => "Format"
  | .ignore index => "Ignore[" ++ Number.renderNat index ++ "]"
  | .outFile => "OutFile"
  | .package => "Package"
  | .concurrency => "Concurrency"

inductive Rule where
  | required
  | knownFormat
  | pattern
  | goFile
  | noSeparator
  | packageClause
  | notNegative
  | webAddress
  deriving DecidableEq, Repr

def Rule.message : Rule → String
  | .required => "required"
  | .knownFormat => "must be one of: json yaml"
  | .pattern => "must be a valid glob pattern"
  | .goFile => "must end with .go"
  | .noSeparator => "must not contain any of " ++ Text.quoted "/\\"
  | .packageClause => "must be a valid Go package name"
  | .notNegative => "must be at least 0"
  | .webAddress => "must be an http or https URL"

abbrev Violation := Field × Rule

def ruled (holds : Bool) (v : Violation) : List Violation := if holds then [] else [v]

def ignoreViolations (index : Nat) : List String → List Violation
  | [] => []
  | p :: rest =>
    ruled (match Glob.parse p with | .ok _ => true | .error _ => false) (.ignore index, .pattern)
      ++ ignoreViolations (index + 1) rest

def outFileViolations (name : String) : List Violation :=
  if name.isEmpty then []
  else if !Text.endsWith ".go".toList name.toList then [(.outFile, .goFile)]
  else ruled (!name.toList.any fun c => c = '/' || c = '\\') (.outFile, .noSeparator)

def formatViolations (format : String) : List Violation :=
  ruled (format.isEmpty || (DocumentFormat.ofName? format).isSome) (.format, .knownFormat)

def packageViolations (package : String) : List Violation :=
  ruled (package.isEmpty || (Ident.isIdentifier package && package ≠ "_")) (.package, .packageClause)

/-- The rules that a configuration breaks, one for each field at most. -/
def violations (c : Config) : List Violation :=
  ruled (!c.source.isEmpty || c.document.isSome) (.source, .required)
    ++ formatViolations c.format
    ++ ignoreViolations 0 c.ignore
    ++ outFileViolations c.outFile
    ++ packageViolations c.package
    ++ ruled (0 ≤ c.concurrency) (.concurrency, .notNegative)

/-- Applies the defaults and checks the result. -/
def check (c : Config) : Except (List Violation) Config :=
  let c := c.withDefaults
  match c.violations with
  | [] => .ok c
  | vs => .error vs

def violationsText (vs : List Violation) : String :=
  Text.joinWith "; " (vs.map fun (f, r) => f.name ++ ": " ++ r.message)

def violationsMessage (vs : List Violation) : String := "invalid config: " ++ violationsText vs

end Config

end SchemaForge
