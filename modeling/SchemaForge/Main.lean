import SchemaForge.Cli.Command

/- The command line tool. It loads the files that a command may look at, runs the command on them,
   and writes the files that came out different. -/
namespace SchemaForge.Tool

def readFile? (path : String) : IO (Option Bytes) := do
  try
    return some (← IO.FS.readBinFile path).data.toList
  catch _ => return none

/-- Adds a file to the tree, if there is one. -/
def load (t : FileTree) (path : String) : IO FileTree := do
  match ← readFile? path with
  | some content => return t.place path content
  | none => return t

/-- The files that a line may read: its source, and those that a run would write. -/
def inputs (l : Cli.Line) (t : FileTree) : List String :=
  let c := (l.config t).withDefaults
  (if (Url.scheme? c.source).isSome then [] else [c.source])
    ++ (c.outFile :: Support.fileNames).map fun name => Path.join [c.outDir, name]

/-- Writes a file beside its place and moves it there. -/
def store (l : Location) (content : Bytes) : IO Unit := do
  let path := FileTree.pathOf l
  let temporary := FileTree.pathOf (l.dropLast ++ [Temporary.name 0])
  IO.FS.createDirAll (FileTree.pathOf l.dropLast)
  IO.FS.writeBinFile temporary ⟨content.toArray⟩
  IO.FS.rename temporary path

def storeChanges (before after : FileTree) : IO Unit :=
  after.entries.forM fun (l, e) =>
    match e with
    | .directory => pure ()
    | .file content _ => if before.entry? l = some e then pure () else store l content

/-- No address can be reached from here. -/
def noWeb : Web := fun _ => .failure "no network"

def fail (message : String) (code : UInt32) : IO UInt32 := do
  IO.eprintln ("jsvgen: error: " ++ message)
  return code

/-- The service answers requests by `Service.handle`; nothing here can listen for them. -/
def isServe (l : Cli.Line) : Bool :=
  l.command.any (·.name = "serve") && !l.settings.isOn Cli.helpFlag.name

def runLine (l : Cli.Line) : IO UInt32 := do
  if isServe l then return ← fail "serve: no listener" 1
  let here := toString (← IO.currentDir)
  let tree ← (inputs l ⟨Path.segments here, []⟩).foldlM load ⟨Path.segments here, []⟩
  let result := Cli.run l ⟨tree, noWeb⟩
  storeChanges tree result.tree
  IO.print result.stdout
  match result.outcome with
  | .ok () => return 0
  | .error e => fail e.message 1

def run (args : List String) : IO UInt32 :=
  match Cli.parseLine args with
  | .error e => fail e.message 80
  | .ok l => runLine l

end SchemaForge.Tool

def main (args : List String) : IO UInt32 := SchemaForge.Tool.run args
