import SchemaForge.Compile.Document
import SchemaForge.Digest.Canonical
import SchemaForge.Digest.Sha256

/- The digest of the compiled schemas. It depends on what the schemas say, not on how the document
   is laid out or in which order it gives their members. -/
namespace SchemaForge.Digest

inductive Error where
  | select (error : CompileError)
  | encode (error : EncodeError)
  deriving Repr

def Error.message : Error → String
  | .select e => e.message
  | .encode e => "encode schemas: " ++ e.message

def ofText (canonical : String) : String := "sha256:" ++ Sha256.hexText (Utf8.encode canonical)

/-- The canonical text of the schemas that are kept. -/
def canonicalText (kept : List (String × Json)) : Except EncodeError String :=
  (Encode.json (.obj kept)).map Canonical.text

def ofSchemas (kept : List (String × Json)) : Except EncodeError String :=
  (canonicalText kept).map ofText

def ofSection (d : Document) (path : String) (ignore : List String) : Except Error String :=
  match Compile.select d path ignore with
  | .error e => .error (.select e)
  | .ok s => (ofSchemas (s.entries.map fun e => (e.name, e.tree))).mapError .encode

end SchemaForge.Digest
