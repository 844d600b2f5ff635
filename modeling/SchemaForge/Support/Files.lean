import SchemaForge.Support.Value
import SchemaForge.Support.Result
import SchemaForge.Support.Validate
import SchemaForge.Support.Convert

/- The support files, which are copied next to the emitted validators and into their package. -/
namespace SchemaForge.Support

/-- Marks generated files. -/
def header : String := "// Code generated by jsvgen. DO NOT EDIT.\n\n"

structure File where
  name : String
  lines : List String

def files : List File :=
  [⟨"jsonrt_value.go", valueLines⟩, ⟨"jsonrt_result.go", resultLines⟩,
    ⟨"jsonrt_validate.go", validateLines⟩, ⟨"jsonrt_convert.go", convertLines⟩]

def fileNames : List String := files.map (·.name)

def File.text (package : String) (f : File) : String :=
  f.lines.foldl (fun acc line => acc ++ line ++ "\n") (header ++ "package " ++ package ++ "\n")

/-- The names and texts of all support files in a package. -/
def sources (package : String) : List (String × String) :=
  files.map fun f => (f.name, f.text package)

end SchemaForge.Support
