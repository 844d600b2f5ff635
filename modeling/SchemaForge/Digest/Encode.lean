import SchemaForge.Digest.Literal

/- Document trees as JSON: literals have to be JSON scalars, and numbers have to be in the range of
   doubles. -/
namespace SchemaForge

inductive EncodeError where
  | literal (objects : Nat) (fault : LiteralFault)
  | range (text : String)
  deriving DecidableEq, Repr

namespace EncodeError

def inObject : String :=
  "json: error calling MarshalJSON for type *orderedmap.OrderedMap[string,interface \x7b\x7d]: "

/-- A literal is reported with one step for each object around it. -/
def message : EncodeError → String
  | .literal objects fault =>
    (List.replicate objects inObject).foldl (· ++ ·) ""
      ++ "json: error calling MarshalJSON for type *schema.Literal: " ++ fault.message
  | .range text =>
    inObject ++ "strconv.ParseFloat: parsing " ++ Text.quoted text ++ ": value out of range"

def outward : EncodeError → EncodeError
  | .literal objects fault => .literal (objects + 1) fault
  | e => e

end EncodeError

namespace Encode

/-- What a literal stands for as JSON. -/
def literal (text : String) : Except EncodeError Json :=
  let bytes := Utf8.encode text
  match Literal.fault? bytes with
  | some fault => .error (.literal 0 fault)
  | none =>
    match Json.parse bytes with
    | .ok v => .ok v
    | .error _ => .error (.literal 0 .unexpectedEnd)

mutual

def tree : Json → Except EncodeError Json
  | .num text => literal text
  | .arr items => (treeItems items).map .arr
  | .obj members => ((treeMembers members).map Json.obj).mapError EncodeError.outward
  | v => .ok v

def treeItems : List Json → Except EncodeError (List Json)
  | [] => .ok []
  | v :: rest =>
    match tree v with
    | .error e => .error e
    | .ok a => (treeItems rest).map (a :: ·)

def treeMembers : List (String × Json) → Except EncodeError (List (String × Json))
  | [] => .ok []
  | (k, v) :: rest =>
    match tree v with
    | .error e => .error e
    | .ok a => (treeMembers rest).map ((k, a) :: ·)

end

mutual

/-- The first number beyond the range of doubles. -/
def outOfRange? : Json → Option String
  | .num text => if (Literal.double? text).isNone then some text else none
  | .arr items => outOfRangeItems? items
  | .obj members => outOfRangeMembers? members
  | _ => none

def outOfRangeItems? : List Json → Option String
  | [] => none
  | v :: rest => (outOfRange? v).orElse fun _ => outOfRangeItems? rest

def outOfRangeMembers? : List (String × Json) → Option String
  | [] => none
  | (_, v) :: rest => (outOfRange? v).orElse fun _ => outOfRangeMembers? rest

end

/-- The tree with its literals as JSON values. Every literal is looked at before any range. -/
def json (v : Json) : Except EncodeError Json :=
  match tree v with
  | .error e => .error e
  | .ok v =>
    match outOfRange? v with
    | some text => .error (.range text)
    | none => .ok v

end Encode

end SchemaForge
