/- The validators. -/
namespace SchemaForge.Support

def validateLines : List String := [
  "",
  "import (",
  "\t\"fmt\"",
  "\t\"math/big\"",
  "\t\"strconv\"",
  "\t\"unicode/utf8\"",
  "",
  "\t\"github.com/shopspring/decimal\"",
  "\torderedmap \"github.com/wk8/go-ordered-map/v2\"",
  ")",
  "",
  "func typeMismatch[T any](want Kind, json *JSONValue) Result[T] \x7b",
  "\treturn failure[T](fmt.Sprintf(\"Expected to be %s, found %q\", want, json.Kind().String()))",
  "\x7d",
  "",
  "func validateBoolean(json *JSONValue) Result[bool] \x7b",
  "\tif json.Kind() != KindBool \x7b",
  "\t\treturn typeMismatch[bool](KindBool, json)",
  "\t\x7d",
  "\treturn success(json.Bool())",
  "\x7d",
  "",
  "// validateString checks kind, rune length and enum membership.",
  "// A negative length disables that bound; a nil set accepts any value.",
  "func validateString(json *JSONValue, minLength, maxLength int, enum *stringSet) Result[string] \x7b",
  "\tif json.Kind() != KindString \x7b",
  "\t\treturn typeMismatch[string](KindString, json)",
  "\t\x7d",
  "",
  "\tvalue := json.Text()",
  "\tlength := utf8.RuneCountInString(value)",
  "\tif minLength >= 0 && length < minLength \x7b",
  "\t\treturn failure[string](\"Expected string length to be >= \" + strconv.Itoa(minLength))",
  "\t\x7d",
  "\tif maxLength >= 0 && length > maxLength \x7b",
  "\t\treturn failure[string](\"Expected string length to be <= \" + strconv.Itoa(maxLength))",
  "\t\x7d",
  "\tif enum != nil && !setHas(enum, value) \x7b",
  "\t\treturn failure[string](\"Expected string to be one of \" + joinSet(enum))",
  "\t\x7d",
  "\treturn success(value)",
  "\x7d",
  "",
  "// validateNumber checks an arbitrary-precision decimal against inclusive bounds.",
  "func validateNumber(json *JSONValue, minimum, maximum *decimal.Decimal) Result[decimal.Decimal] \x7b",
  "\tif json.Kind() != KindNumber \x7b",
  "\t\treturn typeMismatch[decimal.Decimal](KindNumber, json)",
  "\t\x7d",
  "\tvalue, ok := parseDecimal(json.Text())",
  "\tif !ok \x7b",
  "\t\treturn failure[decimal.Decimal](fmt.Sprintf(\"invalid floating point %q\", json.Text()))",
  "\t\x7d",
  "\tif minimum != nil && value.LessThan(*minimum) \x7b",
  "\t\treturn failure[decimal.Decimal](\"Expected number to be >= \" + minimum.String())",
  "\t\x7d",
  "\tif maximum != nil && value.GreaterThan(*maximum) \x7b",
  "\t\treturn failure[decimal.Decimal](\"Expected number to be <= \" + maximum.String())",
  "\t\x7d",
  "\treturn success(value)",
  "\x7d",
  "",
  "// validateInteger checks an arbitrary-precision integer against inclusive bounds.",
  "func validateInteger(json *JSONValue, minimum, maximum *big.Int) Result[*big.Int] \x7b",
  "\tif json.Kind() != KindNumber \x7b",
  "\t\treturn typeMismatch[*big.Int](KindNumber, json)",
  "\t\x7d",
  "\tvalue, ok := parseInteger(json.Text())",
  "\tif !ok \x7b",
  "\t\treturn failure[*big.Int](fmt.Sprintf(\"invalid integer %q\", json.Text()))",
  "\t\x7d",
  "\tif minimum != nil && value.Cmp(minimum) < 0 \x7b",
  "\t\treturn failure[*big.Int](\"Expected integer to be >= \" + minimum.String())",
  "\t\x7d",
  "\tif maximum != nil && value.Cmp(maximum) > 0 \x7b",
  "\t\treturn failure[*big.Int](\"Expected integer to be <= \" + maximum.String())",
  "\t\x7d",
  "\treturn success(value)",
  "\x7d",
  "",
  "// validateArray checks the element count, then maps every element through item,",
  "// stopping at the first failure.",
  "func validateArray[T any](json *JSONValue, minItems, maxItems int, item func(*JSONValue) Result[T]) Result[[]T] \x7b",
  "\tif json.Kind() != KindArray \x7b",
  "\t\treturn typeMismatch[[]T](KindArray, json)",
  "\t\x7d",
  "",
  "\telements := json.Items()",
  "\tif minItems >= 0 && len(elements) < minItems \x7b",
  "\t\treturn failure[[]T](\"Expected array length to be >= \" + strconv.Itoa(minItems))",
  "\t\x7d",
  "\tif maxItems >= 0 && len(elements) > maxItems \x7b",
  "\t\treturn failure[[]T](\"Expected array length to be <= \" + strconv.Itoa(maxItems))",
  "\t\x7d",
  "",
  "\tvalue := make([]T, 0, len(elements))",
  "\tfor i, element := range elements \x7b",
  "\t\tr := item(element)",
  "\t\tif r.Error != \"\" \x7b",
  "\t\t\treturn failure[[]T](\"Error in mapping element '\" + strconv.Itoa(i) + \"' \\\"\" + r.Error + \"\\\"\")",
  "\t\t\x7d",
  "\t\tvalue = append(value, r.Value)",
  "\t\x7d",
  "\treturn success(value)",
  "\x7d",
  "",
  "func validateObject(json *JSONValue) Result[*orderedmap.OrderedMap[string, *JSONValue]] \x7b",
  "\tif json.Kind() != KindObject \x7b",
  "\t\treturn typeMismatch[*orderedmap.OrderedMap[string, *JSONValue]](KindObject, json)",
  "\t\x7d",
  "\treturn success(json.Fields())",
  "\x7d",
  "",
  "// validateTypedMap maps every member not in exclude through item.",
  "func validateTypedMap[T any](json *JSONValue, exclude *stringSet, item func(*JSONValue) Result[T]) Result[*orderedmap.OrderedMap[string, T]] \x7b",
  "\tobjResult := validateObject(json)",
  "\tif objResult.Error != \"\" \x7b",
  "\t\treturn failure[*orderedmap.OrderedMap[string, T]](objResult.Error)",
  "\t\x7d",
  "",
  "\tvalue := orderedmap.New[string, T]()",
  "\tfor pair := objResult.Value.Oldest(); pair != nil; pair = pair.Next() \x7b",
  "\t\tif setHas(exclude, pair.Key) \x7b",
  "\t\t\tcontinue",
  "\t\t\x7d",
  "\t\tr := item(pair.Value)",
  "\t\tif r.Error != \"\" \x7b",
  "\t\t\treturn failure[*orderedmap.OrderedMap[string, T]](\"Error in mapping element '\" + pair.Key + \"' \\\"\" + r.Error + \"\\\"\")",
  "\t\t\x7d",
  "\t\tvalue.Set(pair.Key, r.Value)",
  "\t\x7d",
  "\treturn success(value)",
  "\x7d"]

end SchemaForge.Support
