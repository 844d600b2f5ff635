import SchemaForge.Validator.Basic

/- Validators put together from data. -/
namespace SchemaForge

/-- What a validated value is mapped to. -/
inductive Value where
  | bool (b : Bool)
  | str (s : String)
  | int (n : Int)
  | dec (d : Number.Decimal)
  | bytes (b : Bytes)
  | time (t : DateTime)
  | json (members : List (String × Json))
  | list (items : List Value)
  | map (entries : List (String × Value))
  deriving Repr, Inhabited

inductive Check where
  | boolean
  | string (minLength maxLength : Option Nat) (enum : Option (List String))
      (format : Option Schema.Format)
  | integer (minimum maximum : Option String)
  | number (minimum maximum : Option String)
  | array (minItems maxItems : Option Nat) (item : Check)
  | object
  | map (exclude : List String) (item : Check)
  deriving Repr, Inhabited

namespace Check

/-- The value of a text in a format. -/
def formatted : Option Schema.Format → String → Outcome Value
  | none, s => .ok (.str s)
  | some .integer, s => (Validate.asInteger s).map .int
  | some .number, s => (Validate.asNumber s).map .dec
  | some .hex, s => (Validate.asBytes s).map .bytes
  | some .dateTime, s => (Validate.asDateTime s).map .time

/-- Bounds are read each time the validator runs, the minimum first, before the value is
    looked at. -/
def run : Check → Validator Value
  | .boolean, v => (Validate.boolean v).map .bool
  | .string lo hi enum format, v => (Validate.string lo hi enum v).bind (formatted format)
  | .integer lo hi, v => do
    let lo ← Validate.optional Validate.integerBound lo
    let hi ← Validate.optional Validate.integerBound hi
    (Validate.integer lo hi v).map .int
  | .number lo hi, v => do
    let lo ← Validate.optional Validate.decimalBound lo
    let hi ← Validate.optional Validate.decimalBound hi
    (Validate.number lo hi v).map .dec
  | .array lo hi item, v => (Validate.array lo hi item.run v).map .list
  | .object, v => (Validate.object v).map .json
  | .map exclude item, v => (Validate.typedMap exclude item.run v).map .map

end Check

end SchemaForge
