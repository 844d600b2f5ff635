import SchemaForge.Schema.Basic
import SchemaForge.Schema.Error
import SchemaForge.Number.Decimal

/- Reading a schema from a document tree. An error carries the segments that lead from the tree
   to the place at fault. Keywords are looked up by name, so their order is of no account, and
   those of other types are not read. -/
namespace SchemaForge.Schema

structure Located where
  segments : List String
  fault : Fault
  deriving DecidableEq, Repr

abbrev Decoded (α : Type) := Except Located α

namespace Decode

def here {α : Type} (fault : Fault) : Decoded α := .error ⟨[], fault⟩

def inMember {α : Type} (segment : String) (fault : Fault) : Decoded α := .error ⟨[segment], fault⟩

/-- Puts a step in front of the place of an error. -/
def under {α : Type} (segment : String) : Decoded α → Decoded α
  | .error e => .error { e with segments := segment :: e.segments }
  | .ok a => .ok a

/-- A count: a whole number of 64 bits, not negative. -/
def count (members : List (String × Json)) (key : String) : Decoded (Option Nat) :=
  match Members.get? key members with
  | none => .ok none
  | some (.num text) =>
    match Number.parseIntIn 0 Number.int64Max text.toList with
    | some n => .ok (some n.toNat)
    | none => inMember key (.notCount text)
  | some v => inMember key (.notCount v.kind.name)

def stringsFrom (index : Nat) : List Json → Decoded (List String)
  | [] => .ok []
  | .str s :: rest => (stringsFrom (index + 1) rest).map (s :: ·)
  | v :: _ => inMember (Number.renderNat index) (.notString v.kind)

def strings (members : List (String × Json)) (key : String) : Decoded (Option (List String)) :=
  match Members.get? key members with
  | none => .ok none
  | some (.arr items) => (under key (stringsFrom 0 items)).map some
  | some v => inMember key (.notStringList v.kind)

def formatName (members : List (String × Json)) : Decoded String :=
  match Members.get? "format" members with
  | none => .ok ""
  | some (.str s) => .ok s
  | some v => inMember "format" (.notString v.kind)

/-- A bound: a number, or a text around which blanks are dropped. -/
def bound (integer : Bool) (members : List (String × Json)) (key : String) :
    Decoded (Option String) :=
  let checked (text : String) : Decoded (Option String) :=
    if integer then
      if (Number.parseInt text.toList).isSome then .ok (some text) else inMember key (.notInteger text)
    else
      if (Number.Decimal.parse? text).isSome then .ok (some text) else inMember key (.notDecimal text)
  match Members.get? key members with
  | none => .ok none
  | some (.num text) => checked text
  | some (.str text) => checked (Text.trimSpace text)
  | some v => inMember key (.notNumber v.kind)

def bounds (integer : Bool) (members : List (String × Json)) :
    Decoded (Option String × Option String) := do
  let lo ← bound integer members "minimum"
  let hi ← bound integer members "maximum"
  .ok (lo, hi)

def stringSchema (members : List (String × Json)) : Decoded Schema := do
  let lo ← count members "minLength"
  let hi ← count members "maxLength"
  let enum ← strings members "enum"
  let format ← formatName members
  .ok (.string lo hi enum format)

def isEmptyObject : Json → Bool
  | .obj [] => true
  | _ => false

def isBool : Json → Bool
  | .bool _ => true
  | _ => false

end Decode

open Decode in
mutual

def decodeTree : Json → Decoded Schema
  | .obj members =>
    match Members.get? "$ref" members with
    | some (.str path) => .ok (.ref path)
    | some v => inMember "$ref" (.notString v.kind)
    | none =>
      match Members.get? "type" members with
      | none => here .noType
      | some (.str type) =>
        if type = "object" then do
          let properties ← decodeProperties members
          let required ← strings members "required"
          let additional ← decodeAdditional members
          .ok (.object properties (required.getD []) additional)
        else if type = "array" then do
          let items ← decodeItems members
          let lo ← count members "minItems"
          let hi ← count members "maxItems"
          .ok (.array items lo hi)
        else if type = "string" then stringSchema members
        else if type = "number" then (bounds false members).map fun (lo, hi) => .number lo hi
        else if type = "integer" then (bounds true members).map fun (lo, hi) => .integer lo hi
        else if type = "boolean" then .ok .boolean
        else here (.unexpectedType type)
      | some v => here (.unsupportedType v.kind)
  | v => here (.notSchema v.kind)

/-- The value of the `properties` keyword among the members. -/
def decodeProperties : List (String × Json) → Decoded (Option (List (String × Schema)))
  | [] => .ok none
  | (key, v) :: rest =>
    if key = "properties" then
      match v with
      | .obj properties => (under "properties" (decodeEach properties)).map some
      | v => inMember "properties" (.notObject v.kind)
    else decodeProperties rest

def decodeEach : List (String × Json) → Decoded (List (String × Schema))
  | [] => .ok []
  | (key, v) :: rest =>
    match under key (decodeTree v) with
    | .error e => .error e
    | .ok s => (decodeEach rest).map ((key, s) :: ·)

/-- The value of `additionalProperties`; booleans and the empty object declare none. -/
def decodeAdditional : List (String × Json) → Decoded (Option Schema)
  | [] => .ok none
  | (key, v) :: rest =>
    if key = "additionalProperties" then
      if isBool v || isEmptyObject v then .ok none
      else (under "additionalProperties" (decodeTree v)).map some
    else decodeAdditional rest

def decodeItems : List (String × Json) → Decoded Schema
  | [] => here .noItems
  | (key, v) :: rest =>
    if key = "items" then under "items" (decodeTree v) else decodeItems rest

end

/-- Decodes a tree that stands at the given pointer of its document. -/
def decodeAt (base : String) (v : Json) : Except SchemaError Schema :=
  match decodeTree v with
  | .ok s => .ok s
  | .error e => .error (.located (base ++ Pointer.suffix e.segments) e.fault)

def decode (v : Json) : Except SchemaError Schema := decodeAt "#" v

end SchemaForge.Schema
