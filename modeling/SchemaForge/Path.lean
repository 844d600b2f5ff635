import SchemaForge.Text.Quoted

/- Slash separated paths, taken as text: no file system is asked. -/
namespace SchemaForge.Path

def segments (path : String) : List String := Text.split '/' path

def isRooted (path : String) : Bool := path.toList.head? == some '/'

/-- Takes out empty and single point segments, and lets each double point remove the segment
    before it. At the root there is nothing above; otherwise leading double points stay. The
    segments kept so far come last first. -/
def cleanOnto (rooted : Bool) : List String → List String → List String
  | kept, [] => kept.reverse
  | kept, s :: rest =>
    if s.isEmpty || s = "." then cleanOnto rooted kept rest
    else if s = ".." then
      match kept with
      | [] => cleanOnto rooted (if rooted then [] else [".."]) rest
      | k :: above =>
        if k = ".." then cleanOnto rooted (".." :: k :: above) rest else cleanOnto rooted above rest
    else cleanOnto rooted (s :: kept) rest

def ofSegments (rooted : Bool) (segments : List String) : String :=
  let body := Text.joinWith "/" segments
  if rooted then "/" ++ body else if segments.isEmpty then "." else body

/-- The shortest path that leads to the same place. -/
def clean (path : String) : String :=
  ofSegments (isRooted path) (cleanOnto (isRooted path) [] (segments path))

/-- Joins parts that are not empty and cleans the result. -/
def join (parts : List String) : String :=
  match parts.filter fun p => !p.isEmpty with
  | [] => ""
  | ps => clean (Text.joinWith "/" ps)

/-- The last segment; slashes at the end do not count. -/
def base (path : String) : String :=
  if path.isEmpty then "."
  else
    match ((segments path).filter fun s => !s.isEmpty).getLast? with
    | some s => s
    | none => "/"

/-- The cleaned path without its last segment. -/
def dir (path : String) : String :=
  clean (Text.joinWith "/" ((segments path).dropLast) ++ (if isRooted path then "/" else ""))

/- Names of generated files, relative to an output directory. -/

inductive Fault where
  | empty
  | absolute
  | backslash
  | traversal
  | notClean (expected : String)
  deriving DecidableEq, Repr

def Fault.message : Fault → String
  | .empty => "path is empty"
  | .absolute => "absolute paths not allowed"
  | .backslash => "use / as the path separator"
  | .traversal => "path traversal not allowed"
  | .notClean expected => "path is not clean (expected " ++ Text.quoted expected ++ ")"

def isDrive : List Char → Bool
  | c :: ':' :: _ => ('a' ≤ c && c ≤ 'z') || ('A' ≤ c && c ≤ 'Z')
  | _ => false

/-- Why a name cannot be used below a directory. -/
def fault? (name : String) : Option Fault :=
  if name.isEmpty then some .empty
  else if isRooted name || isDrive name.toList then some .absolute
  else if name.toList.contains '\\' then some .backslash
  else if (segments name).contains ".." then some .traversal
  else if clean name ≠ name then some (.notClean (clean name))
  else none

end SchemaForge.Path
