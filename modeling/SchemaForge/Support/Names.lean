/- What the support files declare and import. The emitted code shares their package, so none of
   these names can be declared again. -/
namespace SchemaForge.Support

def imports : List String :=
  ["bytes", "errors", "fmt", "io", "strconv", "json", "orderedmap", "strings", "big", "utf8",
    "decimal", "hex", "time"]

def declarations : List String :=
  ["Kind", "KindNull", "KindBool", "KindNumber", "KindString", "KindArray", "KindObject",
    "JSONValue", "ParseJSON", "readValue", "Result", "success", "failure", "stringSet", "toSet",
    "setHas", "joinSet", "DecodeAndValidate", "typeMismatch", "validateBoolean", "validateString",
    "validateNumber", "validateInteger", "validateArray", "validateObject", "validateTypedMap",
    "parseInteger", "parseDecimal", "parseDateTime", "validateStringResultInteger",
    "validateStringResultNumber", "validateBytes", "validateBytesFromStringResult",
    "validateDateTimeFromStringResult", "bigIntFromString", "bigDecimalFromString"]

def names : List String := imports ++ declarations

end SchemaForge.Support
