/- Splitting, trimming and replacing on character lists, with the same operations on strings. -/
namespace SchemaForge.Text

/-- The pieces between separators; there is always at least one. -/
def splitChars (sep : Char) : List Char → List (List Char)
  | [] => [[]]
  | c :: r =>
    if c = sep then [] :: splitChars sep r
    else
      match splitChars sep r with
      | [] => [[c]]
      | piece :: rest => (c :: piece) :: rest

def split (sep : Char) (s : String) : List String :=
  (splitChars sep s.toList).map String.ofList

def dropPrefix? : List Char → List Char → Option (List Char)
  | [], s => some s
  | _ :: _, [] => none
  | p :: ps, c :: cs => if p = c then dropPrefix? ps cs else none

/-- Removes one leading occurrence, if there is one. -/
def trimStart (lead s : List Char) : List Char := (dropPrefix? lead s).getD s

def trimEndsBy (p : Char → Bool) (s : List Char) : List Char :=
  ((s.dropWhile p).reverse.dropWhile p).reverse

def startsWith (lead s : List Char) : Bool := (dropPrefix? lead s).isSome

def endsWith (tail s : List Char) : Bool := startsWith tail.reverse s.reverse

def contains (needle : List Char) : List Char → Bool
  | [] => needle.isEmpty
  | c :: r => startsWith needle (c :: r) || contains needle r

/-- Characters with the white space property. -/
def isSpace (c : Char) : Bool :=
  c = ' ' || (0x09 ≤ c.toNat && c.toNat ≤ 0x0d) || c.toNat = 0x85 || c.toNat = 0xa0
    || c.toNat = 0x1680 || (0x2000 ≤ c.toNat && c.toNat ≤ 0x200a) || c.toNat = 0x2028
    || c.toNat = 0x2029 || c.toNat = 0x202f || c.toNat = 0x205f || c.toNat = 0x3000

def trimSpace (s : String) : String := String.ofList (trimEndsBy isSpace s.toList)

def toLowerAscii (c : Char) : Char :=
  if 'A' ≤ c && c ≤ 'Z' then Char.ofNat (c.toNat + 32) else c

def joinWith (sep : String) : List String → String
  | [] => ""
  | s :: rest => rest.foldl (fun acc t => acc ++ sep ++ t) s

/-- The value of a hexadecimal digit. -/
def hexValue? (c : Char) : Option Nat :=
  if '0' ≤ c && c ≤ '9' then some (c.toNat - '0'.toNat)
  else if 'a' ≤ c && c ≤ 'f' then some (c.toNat - 'a'.toNat + 10)
  else if 'A' ≤ c && c ≤ 'F' then some (c.toNat - 'A'.toNat + 10)
  else none

def hexDigit (n : Nat) : Char :=
  if n < 10 then Char.ofNat ('0'.toNat + n) else Char.ofNat ('a'.toNat + (n - 10))

/-- The lowest `width` hexadecimal digits, most significant first. -/
def hexDigits : Nat → Nat → List Char
  | 0, _ => []
  | width + 1, n => hexDigits width (n / 16) ++ [hexDigit (n % 16)]

def hexOfBytes (bytes : List UInt8) : String :=
  String.ofList (bytes.flatMap fun b => hexDigits 2 b.toNat)

end SchemaForge.Text
