import SchemaForge.Number.Integer

/- What a run leaves for its observers: spans in the order in which they end, and measurements. -/
namespace SchemaForge

/-- One stage of a run; a stage that failed carries the message. -/
structure Span where
  name : String
  attributes : List (String × String)
  failure : Option String
  deriving DecidableEq, Repr

inductive Measurement where
  | compiled (mode : String) (schemas : Nat)
  | duration (mode : String) (succeeded : Bool)
  deriving DecidableEq, Repr

def Measurement.line : Measurement → String
  | .compiled mode schemas =>
    "jsvgen.schemas.compiled jsvgen.mode=" ++ mode ++ " sum=" ++ Number.renderNat schemas
  | .duration mode succeeded =>
    "jsvgen.generate.duration jsvgen.mode=" ++ mode ++ " jsvgen.outcome="
      ++ (if succeeded then "ok" else "error") ++ " count=1"

/-- A computation that may fail and that leaves spans either way. -/
structure Traced (ε α : Type) where
  outcome : Except ε α
  spans : List Span

namespace Traced

variable {ε α β : Type}

def next (t : Traced ε α) (f : α → Traced ε β) : Traced ε β :=
  match t.outcome with
  | .error e => ⟨.error e, t.spans⟩
  | .ok a =>
    let r := f a
    ⟨r.outcome, t.spans ++ r.spans⟩

instance : Monad (Traced ε) where
  pure a := ⟨.ok a, []⟩
  bind := next

def failureText (message : ε → String) : Except ε α → Option String
  | .error e => some (message e)
  | .ok _ => none

/-- A stage of its own, which ends after the spans inside it. -/
def stage (message : ε → String) (name : String) (inner : List Span) (outcome : Except ε α) :
    Traced ε α :=
  ⟨outcome, inner ++ [⟨"jsvgen." ++ name, [], failureText message outcome⟩]⟩

end Traced

end SchemaForge
