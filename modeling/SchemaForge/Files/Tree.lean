import SchemaForge.Path
import SchemaForge.Text.Utf8

/- Trees of files and directories, seen from a working directory. A place in the tree is the list of
   names that leads to it. Directories hold whatever stands below them, so the tree is a table of
   places. -/
namespace SchemaForge

abbrev Location := List String

inductive FileEntry where
  | directory
  | file (content : Bytes) (mode : Nat)
  deriving DecidableEq, Repr

/-- Why the tree refuses an operation. -/
inductive FileFault where
  | notFound
  | notDirectory
  | isDirectory
  | taken
  deriving DecidableEq, Repr

def FileFault.message : FileFault → String
  | .notFound => "no such file or directory"
  | .notDirectory => "not a directory"
  | .isDirectory => "is a directory"
  | .taken => "file exists"

/-- A refused operation on a named file. -/
structure FileError where
  operation : String
  path : String
  fault : FileFault
  deriving DecidableEq, Repr

def FileError.message (e : FileError) : String :=
  e.operation ++ " " ++ e.path ++ ": " ++ e.fault.message

structure FileTree where
  here : Location
  entries : List (Location × FileEntry)
  deriving Repr

namespace FileTree

def defaultMode : Nat := 0o644

def directoryMode : Nat := 0o755

def pathOf (l : Location) : String := if l = [""] then "/" else Text.joinWith "/" l

/-- The working directory and all that it stands in are directories. -/
def entry? (t : FileTree) (l : Location) : Option FileEntry :=
  if l.isPrefixOf t.here then some .directory else t.entries.lookup l

def setEntry (l : Location) (e : FileEntry) :
    List (Location × FileEntry) → List (Location × FileEntry)
  | [] => [(l, e)]
  | (k, old) :: rest => if k = l then (k, e) :: rest else (k, old) :: setEntry l e rest

def put (t : FileTree) (l : Location) (e : FileEntry) : FileTree :=
  { t with entries := setEntry l e t.entries }

def erase (t : FileTree) (l : Location) : FileTree :=
  { t with entries := t.entries.filter fun (k, _) => k ≠ l }

/-- The place a path names by its text alone. Every place starts with the root, which has no name,
    and nothing is above it. -/
def locate (t : FileTree) (path : String) : Location :=
  "" :: Path.cleanOnto true (if Path.isRooted path then [] else t.here.tail.reverse)
    (Path.segments path)

def enter (l : Location) (name : String) : Location :=
  if name.isEmpty || name = "." then l
  else if name = ".." then (if l.tail.isEmpty then l else l.dropLast)
  else l ++ [name]

/-- Goes along the names of a path. Each but the last has to lead to a directory. -/
def walk (t : FileTree) : Location → List String → Except FileFault Location
  | l, [] => .ok l
  | l, name :: rest =>
    match t.entry? l with
    | none => .error .notFound
    | some (.file ..) => .error .notDirectory
    | some .directory => walk t (enter l name) rest

def entryAt (t : FileTree) (l : Location) (names : List String) : Except FileFault FileEntry :=
  match t.walk l names with
  | .error f => .error f
  | .ok l =>
    match t.entry? l with
    | none => .error .notFound
    | some e => .ok e

def find (t : FileTree) (path : String) : Except FileFault FileEntry :=
  if path.isEmpty then .error .notFound
  else if Path.isRooted path then t.entryAt [""] (Path.segments path)
  else t.entryAt t.here (Path.segments path)

/-- Fails, as a read does, in two ways: at the opening and at the reading. -/
def readFile (t : FileTree) (path : String) : Except FileError Bytes :=
  match t.find path with
  | .error f => .error ⟨"open", path, f⟩
  | .ok .directory => .error ⟨"read", path, .isDirectory⟩
  | .ok (.file content _) => .ok content

def modeOf (t : FileTree) (path : String) : Except FileError Nat :=
  match t.find path with
  | .error f => .error ⟨"stat", path, f⟩
  | .ok .directory => .ok directoryMode
  | .ok (.file _ mode) => .ok mode

def isFile (t : FileTree) (l : Location) : Bool :=
  match t.entry? l with
  | some (.file ..) => true
  | _ => false

/-- The entry of a place, with the reason if there is none: a file stands in the way, or nothing
    is there. -/
def status (t : FileTree) (l : Location) : Except FileFault FileEntry :=
  match t.entry? l with
  | some e => .ok e
  | none =>
    if (List.range l.length).any fun n => t.isFile (l.take n) then .error .notDirectory
    else .error .notFound

/-- Makes the directories that lead from one place to another, and fails where a file stands. -/
def makeDirectoriesFrom (t : FileTree) (above : Location) : List String → Except FileError FileTree
  | [] => .ok t
  | name :: rest =>
    let l := above ++ [name]
    match t.entry? l with
    | some (.file ..) => .error ⟨"mkdir", pathOf l, .notDirectory⟩
    | some .directory => makeDirectoriesFrom t l rest
    | none => makeDirectoriesFrom (t.put l .directory) l rest

def makeDirectories (t : FileTree) (l : Location) : Except FileError FileTree :=
  t.makeDirectoriesFrom [] l

/-- A file takes the place of what was there, unless that is a directory. -/
def rename (t : FileTree) (source target : Location) : Except FileFault FileTree :=
  match t.entry? source with
  | none => .error .notFound
  | some e =>
    match t.entry? target with
    | some .directory => .error .taken
    | _ => .ok ((t.erase source).put target e)

/-- A second name for a file, where there was none. -/
def link (t : FileTree) (source target : Location) : Except FileFault FileTree :=
  match t.entry? source with
  | none => .error .notFound
  | some e => if (t.entry? target).isSome then .error .taken else .ok (t.put target e)

/-- What stands below the working directory, by relative path; directories end in a slash. -/
def listing (t : FileTree) : List (String × Option Bytes) :=
  t.entries.filterMap fun (l, e) =>
    match l.drop t.here.length with
    | [] => none
    | names =>
      if t.here.isPrefixOf l then
        some (match e with
          | .directory => (pathOf names ++ "/", none)
          | .file content _ => (pathOf names, some content))
      else none

/-- Puts a file where a path says, with the directories that it needs. -/
def place (t : FileTree) (path : String) (content : Bytes) : FileTree :=
  let l := t.locate path
  match t.makeDirectories l.dropLast with
  | .error _ => t
  | .ok t => t.put l (.file content defaultMode)

def placeDirectory (t : FileTree) (path : String) : FileTree :=
  match t.makeDirectories (t.locate path) with
  | .error _ => t
  | .ok t => t

/-- Takes away a file, or a directory with all that it holds. -/
def remove (t : FileTree) (path : String) : FileTree :=
  let l := t.locate path
  { t with entries := t.entries.filter fun (k, _) => !l.isPrefixOf k }

end FileTree

end SchemaForge
