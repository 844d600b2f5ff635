/- Texts that are read on. -/
namespace SchemaForge.Support

def convertLines : List String := [
  "",
  "import (",
  "\t\"encoding/hex\"",
  "\t\"fmt\"",
  "\t\"math/big\"",
  "\t\"strings\"",
  "\t\"time\"",
  "",
  "\t\"github.com/shopspring/decimal\"",
  ")",
  "",
  "func parseInteger(s string) (*big.Int, bool) \x7b",
  "\tif s == \"\" \x7b",
  "\t\treturn nil, false",
  "\t\x7d",
  "\treturn new(big.Int).SetString(s, 10)",
  "\x7d",
  "",
  "func parseDecimal(s string) (decimal.Decimal, bool) \x7b",
  "\td, err := decimal.NewFromString(s)",
  "\tif err != nil \x7b",
  "\t\treturn decimal.Decimal\x7b\x7d, false",
  "\t\x7d",
  "\treturn d, true",
  "\x7d",
  "",
  "// parseDateTime accepts RFC 3339 with or without fractional seconds.",
  "func parseDateTime(s string) (time.Time, bool) \x7b",
  "\tt, err := time.Parse(time.RFC3339Nano, s)",
  "\tif err != nil \x7b",
  "\t\tif t2, err2 := time.Parse(time.RFC3339, s); err2 == nil \x7b",
  "\t\t\treturn t2, true",
  "\t\t\x7d",
  "\t\treturn time.Time\x7b\x7d, false",
  "\t\x7d",
  "\treturn t, true",
  "\x7d",
  "",
  "// validateStringResultInteger converts an already-validated string into an integer.",
  "func validateStringResultInteger(r Result[string]) Result[*big.Int] \x7b",
  "\tif r.Error != \"\" \x7b",
  "\t\treturn failure[*big.Int](r.Error)",
  "\t\x7d",
  "\tvalue, ok := parseInteger(r.Value)",
  "\tif !ok \x7b",
  "\t\treturn failure[*big.Int](fmt.Sprintf(\"invalid integer %q\", r.Value))",
  "\t\x7d",
  "\treturn success(value)",
  "\x7d",
  "",
  "// validateStringResultNumber converts an already-validated string into a decimal.",
  "func validateStringResultNumber(r Result[string]) Result[decimal.Decimal] \x7b",
  "\tif r.Error != \"\" \x7b",
  "\t\treturn failure[decimal.Decimal](r.Error)",
  "\t\x7d",
  "\tvalue, ok := parseDecimal(r.Value)",
  "\tif !ok \x7b",
  "\t\treturn failure[decimal.Decimal](fmt.Sprintf(\"invalid floating point %q\", r.Value))",
  "\t\x7d",
  "\treturn success(value)",
  "\x7d",
  "",
  "// validateBytes decodes a hex string with an optional 0x prefix.",
  "func validateBytes(s string) Result[[]byte] \x7b",
  "\tdigits := s",
  "\tif strings.HasPrefix(digits, \"0x\") || strings.HasPrefix(digits, \"0X\") \x7b",
  "\t\tdigits = digits[2:]",
  "\t\x7d",
  "\tif len(digits)%2 != 0 \x7b",
  "\t\treturn failure[[]byte](\"String must be multiple of 2\")",
  "\t\x7d",
  "\tvalue, err := hex.DecodeString(digits)",
  "\tif err != nil \x7b",
  "\t\treturn failure[[]byte](fmt.Sprintf(\"invalid hex string %q\", s))",
  "\t\x7d",
  "\treturn success(value)",
  "\x7d",
  "",
  "func validateBytesFromStringResult(r Result[string]) Result[[]byte] \x7b",
  "\tif r.Error != \"\" \x7b",
  "\t\treturn failure[[]byte](r.Error)",
  "\t\x7d",
  "\treturn validateBytes(r.Value)",
  "\x7d",
  "",
  "func validateDateTimeFromStringResult(r Result[string]) Result[time.Time] \x7b",
  "\tif r.Error != \"\" \x7b",
  "\t\treturn failure[time.Time](r.Error)",
  "\t\x7d",
  "\tvalue, ok := parseDateTime(r.Value)",
  "\tif !ok \x7b",
  "\t\treturn failure[time.Time](fmt.Sprintf(\"Expected RFC 3339 date-time, found %q\", r.Value))",
  "\t\x7d",
  "\treturn success(value)",
  "\x7d",
  "",
  "// bigIntFromString parses a bound literal emitted by the compiler.",
  "// The compiler validates literals, so a bad one is a generator bug.",
  "func bigIntFromString(s string) *big.Int \x7b",
  "\tvalue, ok := parseInteger(s)",
  "\tif !ok \x7b",
  "\t\tpanic(fmt.Sprintf(\"jsonrt: invalid integer literal %q\", s))",
  "\t\x7d",
  "\treturn value",
  "\x7d",
  "",
  "// bigDecimalFromString is bigIntFromString for decimal bounds.",
  "func bigDecimalFromString(s string) *decimal.Decimal \x7b",
  "\tvalue, ok := parseDecimal(s)",
  "\tif !ok \x7b",
  "\t\tpanic(fmt.Sprintf(\"jsonrt: invalid decimal literal %q\", s))",
  "\t\x7d",
  "\treturn &value",
  "\x7d"]

end SchemaForge.Support
