import SchemaForge.Glob.Match

/- Which names of a section are left out. -/
namespace SchemaForge

structure IgnoreError where
  pattern : String
  fault : Glob.Fault
  deriving DecidableEq, Repr

def IgnoreError.message (e : IgnoreError) : String :=
  "invalid ignore pattern " ++ Text.quoted e.pattern ++ ": " ++ e.fault.message

namespace Ignore

/-- The plans of all patterns; the first pattern at fault is reported. -/
def plans : List String → Except IgnoreError (List Glob.Plan)
  | [] => .ok []
  | p :: rest =>
    match Glob.planOf p with
    | .error fault => .error ⟨p, fault⟩
    | .ok plan => (plans rest).map (plan :: ·)

def matchesAny (name : String) (plans : List Glob.Plan) : Glob.Verdict Bool :=
  Glob.Plan.runEither plans (Utf8.encode name)

end Ignore

end SchemaForge
