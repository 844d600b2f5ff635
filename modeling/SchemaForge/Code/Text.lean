import SchemaForge.Code.Basic
import SchemaForge.Number.Integer
import SchemaForge.Text.Quoted

/- How types, initial values and calls are written. -/
namespace SchemaForge.Code

def Ty.text : Ty → String
  | .bool => "bool"
  | .string => "string"
  | .integer => "*big.Int"
  | .decimal => "decimal.Decimal"
  | .time => "time.Time"
  | .bytes => "[]byte"
  | .record name => "*" ++ name
  | .slice item => "[]" ++ item.text
  | .pointer target => "*" ++ target.text
  | .ordered item => "*orderedmap.OrderedMap[string, " ++ item.text ++ "]"

def Ty.zeroText : Ty → String
  | .bool => "false"
  | .string => "\"\""
  | .integer => "new(big.Int)"
  | .decimal => "decimal.Zero"
  | .time => "time.Time\x7b\x7d"
  | .record name => "&" ++ name ++ "\x7b\x7d"
  | .pointer target => "&" ++ target.text ++ "\x7b\x7d"
  | .ordered item => "&orderedmap.OrderedMap[string, " ++ item.text ++ "]\x7b\x7d"
  | .bytes => "[]byte\x7b\x7d"
  | .slice item => "[]" ++ item.text ++ "\x7b\x7d"

def Init.text : Init → String
  | .absent => "nil"
  | .zero type => type.zeroText
  | .construct constructor => constructor ++ "()"
  | .emptyMap item => "orderedmap.New[string, " ++ item.text ++ "]()"

namespace Call

/-- A missing length bound is written -1. -/
def countText : Option Nat → String
  | none => "-1"
  | some n => Number.renderNat n

def boundText (reader : String) : Option String → String
  | none => "nil"
  | some literal => reader ++ "(" ++ Text.quoted literal ++ ")"

def formatText (call : String) : Option Schema.Format → String
  | none => call
  | some .integer => "validateStringResultInteger(" ++ call ++ ")"
  | some .number => "validateStringResultNumber(" ++ call ++ ")"
  | some .hex => "validateBytesFromStringResult(" ++ call ++ ")"
  | some .dateTime => "validateDateTimeFromStringResult(" ++ call ++ ")"

/-- The call applied to an expression. -/
def text (subject : String) : Call → String
  | .boolean => "validateBoolean(" ++ subject ++ ")"
  | .string lo hi enum format =>
    formatText ("validateString(" ++ subject ++ ", " ++ countText lo ++ ", " ++ countText hi ++ ", "
      ++ enum.getD "nil" ++ ")") format
  | .integer lo hi =>
    "validateInteger(" ++ subject ++ ", " ++ boundText "bigIntFromString" lo ++ ", "
      ++ boundText "bigIntFromString" hi ++ ")"
  | .number lo hi =>
    "validateNumber(" ++ subject ++ ", " ++ boundText "bigDecimalFromString" lo ++ ", "
      ++ boundText "bigDecimalFromString" hi ++ ")"
  | .array lo hi item =>
    "validateArray(" ++ subject ++ ", " ++ countText lo ++ ", " ++ countText hi ++ ", " ++ item ++ ")"
  | .validator name => name ++ "(" ++ subject ++ ")"

end Call

/-- The argument of a validator, and the property inside an object validator. -/
def argument : String := "json"

def propertyArgument : String := "propJSON"

abbrev PackageText := Package String String String

def Field.print (f : Field Ty Init) : Field String String :=
  { name := f.name, key := f.key, type := f.type.text, default := f.default.text, boxed := f.boxed }

def Record.print (r : Record Ty Init) : Record String String :=
  { name := r.name, constructor := r.constructor, fields := r.fields.map Field.print }

def PropertyStep.print (s : PropertyStep Call) : PropertyStep String :=
  { key := s.key, field := s.field, required := s.required, call := s.call.text propertyArgument,
    boxed := s.boxed }

def Body.print : Body Call → Body String
  | .object b => .object ⟨b.constructor, b.additional, b.properties.map PropertyStep.print⟩
  | .result c => .result (c.text argument)

def Function.print (f : Function Ty Call) : Function String String :=
  { name := f.name, schema := f.schema, type := f.type.text, body := f.body.print }

def Package.print (p : Package Ty Init Call) : PackageText :=
  { functions := p.functions.map Function.print, records := p.records.map Record.print,
    sets := p.sets, references := p.references }

end SchemaForge.Code
