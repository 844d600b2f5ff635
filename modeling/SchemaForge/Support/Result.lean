/- Outcomes and sets of strings. -/
namespace SchemaForge.Support

def resultLines : List String := [
  "",
  "import (",
  "\t\"strings\"",
  "",
  "\torderedmap \"github.com/wk8/go-ordered-map/v2\"",
  ")",
  "",
  "// Result holds either a validated value or a human-readable error.",
  "// Error is empty on success.",
  "type Result[T any] struct \x7b",
  "\tValue T",
  "\tError string",
  "\x7d",
  "",
  "// OK reports whether validation succeeded.",
  "func (r Result[T]) OK() bool \x7b",
  "\treturn r.Error == \"\"",
  "\x7d",
  "",
  "func success[T any](value T) Result[T] \x7b",
  "\treturn Result[T]\x7bValue: value\x7d",
  "\x7d",
  "",
  "func failure[T any](message string) Result[T] \x7b",
  "\treturn Result[T]\x7bError: message\x7d",
  "\x7d",
  "",
  "type stringSet = orderedmap.OrderedMap[string, struct\x7b\x7d]",
  "",
  "// toSet builds an ordered set; iteration follows argument order.",
  "func toSet(values ...string) *stringSet \x7b",
  "\tset := orderedmap.New[string, struct\x7b\x7d]()",
  "\tfor _, v := range values \x7b",
  "\t\tset.Set(v, struct\x7b\x7d\x7b\x7d)",
  "\t\x7d",
  "\treturn set",
  "\x7d",
  "",
  "func setHas(set *stringSet, value string) bool \x7b",
  "\tif set == nil \x7b",
  "\t\treturn false",
  "\t\x7d",
  "\t_, ok := set.Get(value)",
  "\treturn ok",
  "\x7d",
  "",
  "func joinSet(set *stringSet) string \x7b",
  "\tvalues := make([]string, 0, set.Len())",
  "\tfor pair := set.Oldest(); pair != nil; pair = pair.Next() \x7b",
  "\t\tvalues = append(values, pair.Key)",
  "\t\x7d",
  "\treturn strings.Join(values, \", \")",
  "\x7d",
  "",
  "// DecodeAndValidate parses data as JSON and maps it through validate.",
  "func DecodeAndValidate[T any](data []byte, validate func(*JSONValue) Result[T]) Result[T] \x7b",
  "\tjson, err := ParseJSON(data)",
  "\tif err != nil \x7b",
  "\t\treturn failure[T](\"Invalid JSON: \" + err.Error())",
  "\t\x7d",
  "\tif json.Kind() == KindNull \x7b",
  "\t\treturn failure[T](\"Null JSON\")",
  "\t\x7d",
  "\treturn validate(json)",
  "\x7d"]

end SchemaForge.Support
