import SchemaForge.Validator.Failure
import SchemaForge.Json.Reader
import SchemaForge.Schema.Basic
import SchemaForge.Time.DateTime

/- The validators that emitted code is made of. Absent bounds and sets do not restrict. -/
namespace SchemaForge.Validate

open Number (Decimal)

def boolean : Validator Bool
  | .bool b => .ok b
  | v => refuse (.kind .boolean v.kind)

/-- The distinct elements, each at its first place. -/
def distinct (values : List String) : List String :=
  (values.foldl (fun seen v => if seen.contains v then seen else v :: seen) []).reverse

/-- Length counts characters. -/
def string (minLength maxLength : Option Nat) (enum : Option (List String)) : Validator String
  | .str s =>
    let length := s.toList.length
    if minLength.any (length < ·) then refuse (.shortString (minLength.getD 0))
    else if maxLength.any (· < length) then refuse (.longString (maxLength.getD 0))
    else
      match enum with
      | some values => if values.contains s then .ok s else refuse (.notOneOf (distinct values))
      | none => .ok s
  | v => refuse (.kind .string v.kind)

def number (minimum maximum : Option Decimal) : Validator Decimal
  | .num text =>
    match Decimal.parse? text with
    | none => refuse (.invalidNumber text)
    | some d =>
      match minimum, maximum with
      | some lo, hi =>
        if d.lt lo then refuse (.numberBelow lo)
        else
          match hi with
          | some hi => if hi.lt d then refuse (.numberAbove hi) else .ok d
          | none => .ok d
      | none, some hi => if hi.lt d then refuse (.numberAbove hi) else .ok d
      | none, none => .ok d
  | v => refuse (.kind .number v.kind)

def integer (minimum maximum : Option Int) : Validator Int
  | .num text =>
    match Number.parseInt text.toList with
    | none => refuse (.invalidInteger text)
    | some n =>
      match minimum, maximum with
      | some lo, hi =>
        if n < lo then refuse (.integerBelow lo)
        else
          match hi with
          | some hi => if hi < n then refuse (.integerAbove hi) else .ok n
          | none => .ok n
      | none, some hi => if hi < n then refuse (.integerAbove hi) else .ok n
      | none, none => .ok n
  | v => refuse (.kind .number v.kind)

/-- The results of the elements in order, up to the first failure. -/
def elements {α : Type} (item : Validator α) (index : Nat) (acc : List α) :
    List Json → Outcome (List α)
  | [] => .ok acc.reverse
  | v :: rest =>
    match Outcome.within (.element (Number.renderNat index)) (item v) with
    | .error stop => .error stop
    | .ok a => elements item (index + 1) (a :: acc) rest

def array {α : Type} (minItems maxItems : Option Nat) (item : Validator α) : Validator (List α)
  | .arr items =>
    if minItems.any (items.length < ·) then refuse (.shortArray (minItems.getD 0))
    else if maxItems.any (· < items.length) then refuse (.longArray (maxItems.getD 0))
    else elements item 0 [] items
  | v => refuse (.kind .array v.kind)

def object : Validator (List (String × Json))
  | .obj members => .ok members
  | v => refuse (.kind .object v.kind)

/-- The results of the members that are not excluded, in order. -/
def others {α : Type} (exclude : List String) (item : Validator α) (acc : List (String × α)) :
    List (String × Json) → Outcome (List (String × α))
  | [] => .ok acc.reverse
  | (key, v) :: rest =>
    if exclude.contains key then others exclude item acc rest
    else
      match Outcome.within (.element key) (item v) with
      | .error stop => .error stop
      | .ok a => others exclude item ((key, a) :: acc) rest

def typedMap {α : Type} (exclude : List String) (item : Validator α) :
    Validator (List (String × α)) := fun v =>
  match object v with
  | .error stop => .error stop
  | .ok members => others exclude item [] members

/-! Texts that are read on as something else. -/

def asInteger (s : String) : Outcome Int :=
  match Number.parseInt s.toList with
  | some n => .ok n
  | none => refuse (.invalidInteger s)

def asNumber (s : String) : Outcome Decimal :=
  match Decimal.parse? s with
  | some d => .ok d
  | none => refuse (.invalidNumber s)

def asDateTime (s : String) : Outcome DateTime :=
  match DateTime.parse? s with
  | some t => .ok t
  | none => refuse (.invalidDateTime s)

def hexBytes? : List Char → Option Bytes
  | [] => some []
  | [_] => none
  | a :: b :: rest =>
    match Text.hexValue? a, Text.hexValue? b, hexBytes? rest with
    | some high, some low, some bytes => some (UInt8.ofNat (high * 16 + low) :: bytes)
    | _, _, _ => none

def dropHexMark : List Char → List Char
  | '0' :: 'x' :: rest => rest
  | '0' :: 'X' :: rest => rest
  | cs => cs

/-- Pairs of hexadecimal digits after an optional mark. The number of bytes of the text is
    checked before its digits. -/
def asBytes (s : String) : Outcome Bytes :=
  let body := dropHexMark s.toList
  if (Utf8.encodeChars body).length % 2 ≠ 0 then refuse .oddHex
  else
    match hexBytes? body with
    | some bytes => .ok bytes
    | none => refuse (.invalidHex s)

/-! Bounds as they are written in a validator. -/

def integerBound (text : String) : Outcome Int :=
  match Number.parseInt text.toList with
  | some n => .ok n
  | none => .error (.crash (.integer text))

def decimalBound (text : String) : Outcome Decimal :=
  match Decimal.parse? text with
  | some d => .ok d
  | none => .error (.crash (.decimal text))

def optional {α β : Type} (read : α → Outcome β) : Option α → Outcome (Option β)
  | none => .ok none
  | some a => (read a).map some

/-- Reads JSON text and validates it; null is refused as such. -/
def text {α : Type} (validator : Validator α) (bytes : Bytes) : Outcome α :=
  match Json.parse bytes with
  | .error e => refuse (.invalidJson e)
  | .ok .null => refuse .nullJson
  | .ok v => validator v

end SchemaForge.Validate
