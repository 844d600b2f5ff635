import SchemaForge.Text.Chars

/- Pointers into a document: a list of segments, written with a leading mark and one slash before
   each segment. Inside a segment a tilde is written `~0` and a slash `~1`. -/
namespace SchemaForge.Pointer

def escapeChar (c : Char) : List Char :=
  if c = '~' then ['~', '0'] else if c = '/' then ['~', '1'] else [c]

def escapeChars (cs : List Char) : List Char := cs.flatMap escapeChar

def unescapeChars : List Char → List Char
  | '~' :: '1' :: rest => '/' :: unescapeChars rest
  | '~' :: '0' :: rest => '~' :: unescapeChars rest
  | c :: rest => c :: unescapeChars rest
  | [] => []

def escape (segment : String) : String := String.ofList (escapeChars segment.toList)

def unescape (text : String) : String := String.ofList (unescapeChars text.toList)

/-- The part of a pointer that leads on through the given segments. -/
def suffix (segments : List String) : String :=
  segments.foldl (fun acc s => acc ++ "/" ++ escape s) ""

def render (segments : List String) : String := "#" ++ suffix segments

/-- The segments of a reference. The mark and the first slash may be missing. -/
def split (ref : String) : List String :=
  let body := Text.trimStart ['/'] (Text.trimStart ['#'] ref.toList)
  if body.isEmpty then []
  else (Text.splitChars '/' body).map fun s => String.ofList (unescapeChars s)

/-- The last segment of a reference, under which its target is known. -/
def name (ref : String) : String := (split ref).getLast?.getD ""

/-- One spelling for all references to the same place. -/
def normal (ref : String) : String := render (split ref)

/-- A section path is divided at slashes if it has any, else at points. -/
def splitSection (path : String) : List String :=
  let body := Text.trimEndsBy (fun c => c = '/' || c = '.') path.toList
  if body.isEmpty then []
  else
    (Text.splitChars (if body.contains '/' then '/' else '.') body).map String.ofList

end SchemaForge.Pointer
