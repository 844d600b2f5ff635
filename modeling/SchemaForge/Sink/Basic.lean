import SchemaForge.Json.Basic
import SchemaForge.Sink.Directory

/- Where generated files go: into memory, below a directory, or nowhere but into a comparison with
   what a directory already holds. -/
namespace SchemaForge

inductive DriftStatus where
  | upToDate
  | modified
  | missing
  deriving DecidableEq, Repr

def DriftStatus.name : DriftStatus → String
  | .upToDate => "up-to-date"
  | .modified => "modified"
  | .missing => "missing"

structure Drift where
  path : String
  status : DriftStatus
  deriving DecidableEq, Repr

namespace Drift

def isStale (drifts : List Drift) : Bool := drifts.any fun d => d.status ≠ .upToDate

/-- By path; equal paths stay in the order in which they were compared. -/
def sorted (drifts : List Drift) : List Drift :=
  drifts.mergeSort fun a b => !byteLess b.path a.path

end Drift

/-- The status of a file against the content it should have. -/
def OutputDirectory.compare (d : OutputDirectory) (canceled : Bool) (name : String) (content : Bytes)
    (t : FileTree) : Except WriteError Drift :=
  match d.resolve t name with
  | .error e => .error e
  | .ok target =>
    if canceled then .error .canceled
    else
      let path := FileTree.pathOf target
      match t.status target with
      | .error .notFound => .ok ⟨name, .missing⟩
      | .error f => .error (.read name ⟨"open", path, f⟩)
      | .ok .directory => .error (.read name ⟨"read", path, .isDirectory⟩)
      | .ok (.file old _) => .ok ⟨name, if old = content then .upToDate else .modified⟩

inductive Sink where
  | memory (files : List (String × Bytes))
  | directory (dir : OutputDirectory) (tree : FileTree)
  | comparison (dir : OutputDirectory) (tree : FileTree) (drifts : List Drift)
  deriving Repr

namespace Sink

def write (canceled : Bool) (name : String) (content : Bytes) : Sink → Except WriteError Unit × Sink
  | .memory files =>
    match Path.fault? name with
    | some fault => (.error (.invalidPath name fault), .memory files)
    | none =>
      if canceled then (.error .canceled, .memory files)
      else (.ok (), .memory (Members.set name content files))
  | .directory dir tree =>
    let (outcome, tree) := dir.write canceled name content tree
    (outcome, .directory dir tree)
  | .comparison dir tree drifts =>
    match dir.compare canceled name content tree with
    | .error e => (.error e, .comparison dir tree drifts)
    | .ok d => (.ok (), .comparison dir tree (drifts ++ [d]))

/-- The files that a memory sink holds. -/
def files : Sink → List (String × Bytes)
  | .memory files => files
  | _ => []

def names (s : Sink) : List String := (s.files.map (·.1)).mergeSort fun a b => !byteLess b a

def get? (s : Sink) (name : String) : Option Bytes := Members.get? name s.files

def drifts : Sink → List Drift
  | .comparison _ _ drifts => Drift.sorted drifts
  | _ => []

def tree? : Sink → Option FileTree
  | .memory _ => none
  | .directory _ tree => some tree
  | .comparison _ tree _ => some tree

end Sink

/-- Anything that takes files, one at a time: it answers each, and may be changed by it. What is no
    sink of this library refuses files for reasons of its own. -/
class Receiver (σ : Type) where
  write (canceled : Bool) (name : String) (content : Bytes) : σ → Except WriteError Unit × σ

instance : Receiver Sink := ⟨Sink.write⟩

end SchemaForge
