import SchemaForge.Json.Token
import SchemaForge.Number.Decimal

/- Why a value is refused. A failure inside a container names the element or member it was
   found in, around the inner failure. -/
namespace SchemaForge

inductive Failure where
  | invalidJson (error : Json.ReadError)
  | nullJson
  | kind (expected found : Json.Kind)
  | shortString (minimum : Nat)
  | longString (maximum : Nat)
  | notOneOf (values : List String)
  | invalidNumber (text : String)
  | invalidInteger (text : String)
  | numberBelow (minimum : Number.Decimal)
  | numberAbove (maximum : Number.Decimal)
  | integerBelow (minimum : Int)
  | integerAbove (maximum : Int)
  | shortArray (minimum : Nat)
  | longArray (maximum : Nat)
  | oddHex
  | invalidHex (text : String)
  | invalidDateTime (text : String)
  | element (key : String) (inner : Failure)
  | missing (property owner : String)
  | property (name : String) (inner : Failure)
  | additional (inner : Failure)
  deriving DecidableEq, Repr

namespace Failure

def message : Failure → String
  | .invalidJson e => "Invalid JSON: " ++ e.message
  | .nullJson => "Null JSON"
  | .kind expected found =>
    "Expected to be " ++ expected.name ++ ", found " ++ Text.quoted found.name
  | .shortString n => "Expected string length to be >= " ++ Number.renderNat n
  | .longString n => "Expected string length to be <= " ++ Number.renderNat n
  | .notOneOf values => "Expected string to be one of " ++ Text.joinWith ", " values
  | .invalidNumber text => "invalid floating point " ++ Text.quoted text
  | .invalidInteger text => "invalid integer " ++ Text.quoted text
  | .numberBelow d => "Expected number to be >= " ++ d.render
  | .numberAbove d => "Expected number to be <= " ++ d.render
  | .integerBelow n => "Expected integer to be >= " ++ Number.renderInt n
  | .integerAbove n => "Expected integer to be <= " ++ Number.renderInt n
  | .shortArray n => "Expected array length to be >= " ++ Number.renderNat n
  | .longArray n => "Expected array length to be <= " ++ Number.renderNat n
  | .oddHex => "String must be multiple of 2"
  | .invalidHex text => "invalid hex string " ++ Text.quoted text
  | .invalidDateTime text => "Expected RFC 3339 date-time, found " ++ Text.quoted text
  | .element key inner => "Error in mapping element '" ++ key ++ "' \"" ++ inner.message ++ "\""
  | .missing name owner => "Expected '" ++ name ++ "' to be present in " ++ owner
  | .property name inner => "Error in mapping '" ++ name ++ "': " ++ inner.message
  | .additional inner => "Error in mapping additionalProperties: " ++ inner.message

end Failure

/-- A bound written in a validator that is no number. -/
inductive BadLiteral where
  | integer (text : String)
  | decimal (text : String)
  deriving DecidableEq, Repr

def BadLiteral.message : BadLiteral → String
  | .integer text => "jsonrt: invalid integer literal " ++ Text.quoted text
  | .decimal text => "jsonrt: invalid decimal literal " ++ Text.quoted text

/-- A validator stops at the first failure, or at a bound that is no number. -/
inductive Stop where
  | failure (f : Failure)
  | crash (b : BadLiteral)
  deriving DecidableEq, Repr

abbrev Outcome (α : Type) := Except Stop α

abbrev Validator (α : Type) := Json → Outcome α

def refuse {α : Type} (f : Failure) : Outcome α := .error (.failure f)

/-- Wraps a failure; a crash passes through. -/
def Outcome.within {α : Type} (wrap : Failure → Failure) : Outcome α → Outcome α
  | .error (.failure f) => .error (.failure (wrap f))
  | r => r

end SchemaForge
