import SchemaForge.Json.Basic
import SchemaForge.Text.Chars

/- JSON text over several lines, two blanks for each level. -/
namespace SchemaForge.Json

def unicodeEscape (c : Char) : List Char := '\\' :: 'u' :: Text.hexDigits 4 c.toNat

/-- Characters that mean something in markup are escaped, and so are line separators. -/
def writtenChar (c : Char) : List Char :=
  if c = '"' || c = '\\' then ['\\', c]
  else if c = '\n' then ['\\', 'n']
  else if c = '\r' then ['\\', 'r']
  else if c = '\t' then ['\\', 't']
  else if c.toNat < 0x20 || "<>&".toList.contains c || c.toNat = 0x2028 || c.toNat = 0x2029 then
    unicodeEscape c
  else [c]

def writtenString (s : String) : String := "\"" ++ String.ofList (s.toList.flatMap writtenChar) ++ "\""

def margin (depth : Nat) : String := String.ofList (List.replicate (2 * depth) ' ')

/-- Brackets around lines of their own; nothing stands between the brackets of an empty list. -/
def bracketed (first last : String) (depth : Nat) : List String → String
  | [] => first ++ last
  | parts =>
    first ++ "\n" ++ Text.joinWith ",\n" (parts.map (margin (depth + 1) ++ ·)) ++ "\n"
      ++ margin depth ++ last

mutual

def written (depth : Nat) : Json → String
  | .null => "null"
  | .bool b => if b then "true" else "false"
  | .num text => text
  | .str text => writtenString text
  | .arr items => bracketed "[" "]" depth (writtenItems (depth + 1) items)
  | .obj members => bracketed "\x7b" "\x7d" depth (writtenMembers (depth + 1) members)

def writtenItems (depth : Nat) : List Json → List String
  | [] => []
  | v :: rest => written depth v :: writtenItems depth rest

def writtenMembers (depth : Nat) : List (String × Json) → List String
  | [] => []
  | (k, v) :: rest => (writtenString k ++ ": " ++ written depth v) :: writtenMembers depth rest

end

def indented (v : Json) : String := written 0 v

end SchemaForge.Json
