import SchemaForge.Document
import SchemaForge.Ident
import SchemaForge.Proofs.Running

/-!
The meaning of a schema, said on the schema itself: the first constraint that a value breaks, or
none. Constraints are read in a fixed order: the kind of the value; lengths and counts, the minimum
first; the allowed texts; numeric bounds; the format; items in order; members that are not declared,
in the order of the value; declared properties, in the order of the schema. References are followed
through the document.
-/
namespace SchemaForge

open Number (Decimal)

/-- A constraint that either holds or is broken in the given way. -/
def demand (holds : Bool) (f : Failure) : Option Failure := if holds then none else some f

namespace Schema

def lengthFailure (short long : Nat → Failure) (lo hi : Option Nat) (n : Nat) : Option Failure :=
  (lo.bind fun least => demand (least ≤ n) (short least)).or
    (hi.bind fun most => demand (n ≤ most) (long most))

def booleanFailure (v : Json) : Option Failure :=
  demand (v.kind = .boolean) (.kind .boolean v.kind)

def formatFailure : Option Format → String → Option Failure
  | none, _ => none
  | some .integer, text => demand (Number.parseInt text.toList).isSome (.invalidInteger text)
  | some .number, text => demand (Decimal.parse? text).isSome (.invalidNumber text)
  | some .hex, text =>
    let digits := Validate.dropHexMark text.toList
    (demand ((Utf8.encodeChars digits).length % 2 = 0) .oddHex).or
      (demand (Validate.hexBytes? digits).isSome (.invalidHex text))
  | some .dateTime, text => demand (DateTime.parse? text).isSome (.invalidDateTime text)

def stringFailure (lo hi : Option Nat) (enum : Option (List String)) (format : Option Format) :
    Json → Option Failure
  | .str text =>
    (lengthFailure .shortString .longString lo hi text.length).or
      ((enum.bind fun values =>
          demand (values.contains text) (.notOneOf (Validate.distinct values))).or
        (formatFailure format text))
  | v => some (.kind .string v.kind)

/-- The bounds count that read as integers. -/
def integerFailure (lo hi : Option String) : Json → Option Failure
  | .num text =>
    match Number.parseInt text.toList with
    | none => some (.invalidInteger text)
    | some n =>
      ((lo.bind fun t => Number.parseInt t.toList).bind fun least =>
          demand (least ≤ n) (.integerBelow least)).or
        ((hi.bind fun t => Number.parseInt t.toList).bind fun most =>
          demand (n ≤ most) (.integerAbove most))
  | v => some (.kind .number v.kind)

/-- The bounds count that read as decimals. -/
def numberFailure (lo hi : Option String) : Json → Option Failure
  | .num text =>
    match Decimal.parse? text with
    | none => some (.invalidNumber text)
    | some d =>
      ((lo.bind Decimal.parse?).bind fun least => demand (!d.lt least) (.numberBelow least)).or
        ((hi.bind Decimal.parse?).bind fun most => demand (!most.lt d) (.numberAbove most))
  | v => some (.kind .number v.kind)

def arrayFailure (lo hi : Option Nat) (item : Json → Option Failure) : Json → Option Failure
  | .arr items =>
    (lengthFailure .shortArray .longArray lo hi items.length).or
      (items.zipIdx.findSome? fun x => (item x.1).map (.element (Number.renderNat x.2)))
  | v => some (.kind .array v.kind)

def undeclaredFailure (declared : List String) (item : Json → Option Failure)
    (members : List (String × Json)) : Option Failure :=
  members.findSome? fun m =>
    if declared.contains m.1 then none
    else (item m.2).map fun f => .additional (.element m.1 f)

def propertyFailure (owner : String) (required : List String) (members : List (String × Json))
    (property : String × (Json → Option Failure)) : Option Failure :=
  match Members.get? property.1 members with
  | some v => (property.2 v).map (.property property.1)
  | none => demand (!required.contains property.1) (.missing property.1 owner)

def objectFailure (owner : String) (required : List String)
    (others : Option (Json → Option Failure)) (declared : List (String × (Json → Option Failure))) :
    Json → Option Failure
  | .obj members =>
    (others.bind fun item => undeclaredFailure (declared.map (·.1)) item members).or
      (declared.findSome? (propertyFailure owner required members))
  | v => some (.kind .object v.kind)

mutual

/-- The first constraint of the schema that a value breaks; what a reference finds is asked of
    `follow`. The name of the schema appears where a required property is missing. -/
def firstFailure (follow : String → Json → Option Failure) (name : String) :
    Schema → Json → Option Failure
  | .boolean => booleanFailure
  | .string lo hi enum format => stringFailure lo hi enum (Format.ofName? format)
  | .integer lo hi => integerFailure lo hi
  | .number lo hi => numberFailure lo hi
  | .array items lo hi => arrayFailure lo hi (firstFailure follow (Ident.itemOf name) items)
  | .object properties required additional =>
    objectFailure name required (othersReading follow name additional)
      (declaredReadings follow name properties)
  | .ref path => follow path

def othersReading (follow : String → Json → Option Failure) (name : String) :
    Option Schema → Option (Json → Option Failure)
  | none => none
  | some s => some (firstFailure follow (Ident.additionalOf name) s)

def declaredReadings (follow : String → Json → Option Failure) (name : String) :
    Option (List (String × Schema)) → List (String × (Json → Option Failure))
  | none => []
  | some properties => eachReading follow name properties

def eachReading (follow : String → Json → Option Failure) (name : String) :
    List (String × Schema) → List (String × (Json → Option Failure))
  | [] => []
  | (key, s) :: rest =>
    (key, firstFailure follow (Ident.propertyOf name key) s) :: eachReading follow name rest

end

theorem othersReading_eq (follow : String → Json → Option Failure) (name : String)
    (additional : Option Schema) :
    othersReading follow name additional =
      additional.map (firstFailure follow (Ident.additionalOf name)) := by
  cases additional <;> rfl

theorem eachReading_eq (follow : String → Json → Option Failure) (name : String)
    (properties : List (String × Schema)) :
    eachReading follow name properties =
      properties.map fun p => (p.1, firstFailure follow (Ident.propertyOf name p.1) p.2) := by
  induction properties with
  | nil => rfl
  | cons head rest ih => rw [eachReading, ih, List.map_cons]

theorem declaredReadings_eq (follow : String → Json → Option Failure) (name : String)
    (properties : Option (List (String × Schema))) :
    declaredReadings follow name properties =
      (properties.getD []).map fun p =>
        (p.1, firstFailure follow (Ident.propertyOf name p.1) p.2) := by
  cases properties with
  | none => rfl
  | some list => exact eachReading_eq follow name list

end Schema

namespace Document

/-- Every reference replaced by its target, read under the target's own name. -/
def unroll (d : Document) (follow : String → Json → Option Failure) :
    String → Json → Option Failure := fun path =>
  match d.resolve path with
  | .ok s => s.firstFailure follow (Pointer.name path)
  | .error _ => follow path

/-- What reading a named schema finds in a value. -/
def Finds (d : Document) (name : String) (s : Schema) (v : Json) (found : Option Failure) : Prop :=
  Settles d.unroll (fun follow => s.firstFailure follow name v) found

theorem finds_unique {d : Document} {name : String} {s : Schema} {v : Json}
    {found other : Option Failure} (first : d.Finds name s v found)
    (second : d.Finds name s v other) : found = other :=
  settles_unique first second

end Document

/-- Success when nothing is found. -/
def outcome : Option Failure → Outcome Unit
  | none => .ok ()
  | some f => refuse f

end SchemaForge
