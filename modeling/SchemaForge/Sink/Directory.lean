import SchemaForge.Files.Tree
import SchemaForge.Number.Integer

/- Writing files below a directory. A file is written to a temporary neighbour first, which then
   takes its place in one step, so no reader meets half a file. A write is a sequence of steps on
   the tree; steps of several writes may come in any order. -/
namespace SchemaForge

inductive WriteError where
  | invalidPath (name : String) (fault : Path.Fault)
  | canceled
  | makeDirectory (error : FileError)
  | alreadyExists (name : String)
  | create (name : String) (fault : FileFault)
  | replace (name temporary target : String) (fault : FileFault)
  | read (name : String) (error : FileError)
  | refused (reason : String)
  deriving DecidableEq, Repr

def WriteError.message : WriteError → String
  | .invalidPath name fault => "invalid path " ++ Text.quoted name ++ ": " ++ fault.message
  | .canceled => "context canceled"
  | .makeDirectory e => "create output directory: " ++ e.message
  | .alreadyExists name => name ++ " already exists"
  | .create name fault => "create " ++ name ++ ": " ++ fault.message
  | .replace name temporary target fault =>
    "replace " ++ name ++ ": rename " ++ temporary ++ " " ++ target ++ ": " ++ fault.message
  | .read name e => "read " ++ name ++ ": " ++ e.message
  | .refused reason => reason

/-- An output directory. -/
structure OutputDirectory where
  root : String
  mode : Nat := 0
  noClobber : Bool := false
  deriving Repr

namespace OutputDirectory

/-- Mode zero stands for the default; only permission bits count. -/
def fileMode (d : OutputDirectory) : Nat :=
  if d.mode = 0 then FileTree.defaultMode else d.mode % 0o1000

def resolve (d : OutputDirectory) (t : FileTree) (name : String) : Except WriteError Location :=
  match Path.fault? name with
  | some fault => .error (.invalidPath name fault)
  | none => .ok (t.locate (Path.join [d.root, name]))

end OutputDirectory

namespace Temporary

def name (n : Nat) : String := ".jsvgen-" ++ Number.renderNat n ++ ".tmp"

/-- How messages name a temporary file, whose number means nothing. -/
def shownName : String := ".jsvgen-*.tmp"

def freshFrom (t : FileTree) (dir : Location) (n : Nat) : Nat → Location
  | 0 => dir ++ [name n]
  | fuel + 1 =>
    if (t.entry? (dir ++ [name n])).isSome then freshFrom t dir (n + 1) fuel else dir ++ [name n]

/-- A name in a directory that nothing has. The working directory may have one of the names and
    every entry another, so of two more than there are entries one is free. -/
def fresh (t : FileTree) (dir : Location) : Location := freshFrom t dir 0 (t.entries.length + 1)

end Temporary

/-- One file to be written. -/
structure Write where
  name : String
  target : Location
  content : Bytes
  mode : Nat
  noClobber : Bool
  deriving Repr

/-- How far a write has come. From `opened` to `closing` it holds a temporary file. -/
inductive Write.Progress where
  | begun
  | prepared
  | opened (temporary : Location)
  | filled (temporary : Location)
  | permitted (temporary : Location)
  | closing (temporary : Location) (outcome : Except WriteError Unit)
  | finished (outcome : Except WriteError Unit)
  deriving Repr

namespace Write

def directory (w : Write) : Location := w.target.dropLast

/-- The outcome of giving the target its new content. -/
def publish (w : Write) (temporary : Location) (t : FileTree) : Except WriteError FileTree :=
  if w.noClobber then
    match t.link temporary w.target with
    | .error .taken => .error (.alreadyExists w.name)
    | .error f => .error (.create w.name f)
    | .ok t => .ok t
  else
    match t.rename temporary w.target with
    | .error f =>
      .error (.replace w.name (FileTree.pathOf (w.directory ++ [Temporary.shownName]))
        (FileTree.pathOf w.target) f)
    | .ok t => .ok t

def step (w : Write) (canceled : Bool) (t : FileTree) : Progress → Progress × FileTree
  | .begun =>
    if canceled then (.finished (.error .canceled), t)
    else
      match t.makeDirectories w.directory with
      | .error e => (.finished (.error (.makeDirectory e)), t)
      | .ok t => (.prepared, t)
  | .prepared =>
    let temporary := Temporary.fresh t w.directory
    (.opened temporary, t.put temporary (.file [] 0o600))
  | .opened temporary => (.filled temporary, t.put temporary (.file w.content 0o600))
  | .filled temporary => (.permitted temporary, t.put temporary (.file w.content w.mode))
  | .permitted temporary =>
    if canceled then (.closing temporary (.error .canceled), t)
    else
      match w.publish temporary t with
      | .error e => (.closing temporary (.error e), t)
      | .ok t => (.closing temporary (.ok ()), t)
  | .closing temporary outcome => (.finished outcome, t.erase temporary)
  | .finished outcome => (.finished outcome, t)

def steps : Nat := 6

/-- Takes a number of steps with nothing between them. -/
def advance (w : Write) (canceled : Bool) : Nat → Progress × FileTree → Progress × FileTree
  | 0, s => s
  | n + 1, (p, t) => advance w canceled n (w.step canceled t p)

/-- A write that is alone is finished after its steps. -/
def run (w : Write) (canceled : Bool) (t : FileTree) : Except WriteError Unit × FileTree :=
  match w.advance canceled steps (.begun, t) with
  | (.finished outcome, t) => (outcome, t)
  | (_, t) => (.error .canceled, t)

end Write

def OutputDirectory.write (d : OutputDirectory) (canceled : Bool) (name : String) (content : Bytes)
    (t : FileTree) : Except WriteError Unit × FileTree :=
  match d.resolve t name with
  | .error e => (.error e, t)
  | .ok target => (Write.mk name target content d.fileMode d.noClobber).run canceled t

end SchemaForge
