/- Values as they are read from JSON. -/
namespace SchemaForge.Support

def valueLines : List String := [
  "",
  "import (",
  "\t\"bytes\"",
  "\t\"errors\"",
  "\t\"fmt\"",
  "\t\"io\"",
  "\t\"strconv\"",
  "",
  "\tjson \"github.com/goccy/go-json\"",
  "\torderedmap \"github.com/wk8/go-ordered-map/v2\"",
  ")",
  "",
  "// Kind is the JSON type of a JSONValue.",
  "type Kind int",
  "",
  "const (",
  "\tKindNull Kind = iota",
  "\tKindBool",
  "\tKindNumber",
  "\tKindString",
  "\tKindArray",
  "\tKindObject",
  ")",
  "",
  "func (k Kind) String() string \x7b",
  "\tswitch k \x7b",
  "\tcase KindNull:",
  "\t\treturn \"null\"",
  "\tcase KindBool:",
  "\t\treturn \"boolean\"",
  "\tcase KindNumber:",
  "\t\treturn \"number\"",
  "\tcase KindString:",
  "\t\treturn \"string\"",
  "\tcase KindArray:",
  "\t\treturn \"array\"",
  "\tcase KindObject:",
  "\t\treturn \"object\"",
  "\t\x7d",
  "\treturn \"unknown\"",
  "\x7d",
  "",
  "// JSONValue is a parsed JSON value. Numbers keep their source text and",
  "// object members keep their source order.",
  "type JSONValue struct \x7b",
  "\tkind   Kind",
  "\tb      bool",
  "\ttext   string",
  "\titems  []*JSONValue",
  "\tfields *orderedmap.OrderedMap[string, *JSONValue]",
  "\x7d",
  "",
  "// Kind reports the JSON type. A nil value is null.",
  "func (v *JSONValue) Kind() Kind \x7b",
  "\tif v == nil \x7b",
  "\t\treturn KindNull",
  "\t\x7d",
  "\treturn v.kind",
  "\x7d",
  "",
  "// Bool returns the value of a boolean.",
  "func (v *JSONValue) Bool() bool \x7b",
  "\treturn v != nil && v.b",
  "\x7d",
  "",
  "// Text returns the contents of a string or the literal of a number.",
  "func (v *JSONValue) Text() string \x7b",
  "\tif v == nil \x7b",
  "\t\treturn \"\"",
  "\t\x7d",
  "\treturn v.text",
  "\x7d",
  "",
  "// Items returns the elements of an array.",
  "func (v *JSONValue) Items() []*JSONValue \x7b",
  "\tif v == nil \x7b",
  "\t\treturn nil",
  "\t\x7d",
  "\treturn v.items",
  "\x7d",
  "",
  "// Fields returns the members of an object.",
  "func (v *JSONValue) Fields() *orderedmap.OrderedMap[string, *JSONValue] \x7b",
  "\tif v == nil \x7b",
  "\t\treturn nil",
  "\t\x7d",
  "\treturn v.fields",
  "\x7d",
  "",
  "// ParseJSON parses a single JSON document.",
  "func ParseJSON(data []byte) (*JSONValue, error) \x7b",
  "\tdec := json.NewDecoder(bytes.NewReader(data))",
  "\tdec.UseNumber()",
  "",
  "\tv, err := readValue(dec)",
  "\tif err != nil \x7b",
  "\t\treturn nil, err",
  "\t\x7d",
  "\tif tok, err := dec.Token(); !errors.Is(err, io.EOF) \x7b",
  "\t\tif err != nil \x7b",
  "\t\t\treturn nil, err",
  "\t\t\x7d",
  "\t\treturn nil, fmt.Errorf(\"unexpected %v after top-level value\", tok)",
  "\t\x7d",
  "\treturn v, nil",
  "\x7d",
  "",
  "func readValue(dec *json.Decoder) (*JSONValue, error) \x7b",
  "\ttok, err := dec.Token()",
  "\tif err != nil \x7b",
  "\t\tif errors.Is(err, io.EOF) \x7b",
  "\t\t\treturn nil, io.ErrUnexpectedEOF",
  "\t\t\x7d",
  "\t\treturn nil, err",
  "\t\x7d",
  "",
  "\tswitch t := tok.(type) \x7b",
  "\tcase json.Delim:",
  "\t\tswitch t \x7b",
  "\t\tcase '\x7b':",
  "\t\t\tfields := orderedmap.New[string, *JSONValue]()",
  "\t\t\tfor dec.More() \x7b",
  "\t\t\t\tkeyTok, err := dec.Token()",
  "\t\t\t\tif err != nil \x7b",
  "\t\t\t\t\treturn nil, err",
  "\t\t\t\t\x7d",
  "\t\t\t\tkey, ok := keyTok.(string)",
  "\t\t\t\tif !ok \x7b",
  "\t\t\t\t\treturn nil, fmt.Errorf(\"expected object key, found %v\", keyTok)",
  "\t\t\t\t\x7d",
  "\t\t\t\tmember, err := readValue(dec)",
  "\t\t\t\tif err != nil \x7b",
  "\t\t\t\t\treturn nil, err",
  "\t\t\t\t\x7d",
  "\t\t\t\tfields.Set(key, member)",
  "\t\t\t\x7d",
  "\t\t\tif _, err := dec.Token(); err != nil \x7b",
  "\t\t\t\treturn nil, err",
  "\t\t\t\x7d",
  "\t\t\treturn &JSONValue\x7bkind: KindObject, fields: fields\x7d, nil",
  "\t\tcase '[':",
  "\t\t\titems := []*JSONValue\x7b\x7d",
  "\t\t\tfor dec.More() \x7b",
  "\t\t\t\titem, err := readValue(dec)",
  "\t\t\t\tif err != nil \x7b",
  "\t\t\t\t\treturn nil, err",
  "\t\t\t\t\x7d",
  "\t\t\t\titems = append(items, item)",
  "\t\t\t\x7d",
  "\t\t\tif _, err := dec.Token(); err != nil \x7b",
  "\t\t\t\treturn nil, err",
  "\t\t\t\x7d",
  "\t\t\treturn &JSONValue\x7bkind: KindArray, items: items\x7d, nil",
  "\t\t\x7d",
  "\t\treturn nil, fmt.Errorf(\"unexpected delimiter %q\", rune(t))",
  "\tcase json.Number:",
  "\t\treturn &JSONValue\x7bkind: KindNumber, text: string(t)\x7d, nil",
  "\tcase float64:",
  "\t\treturn &JSONValue\x7bkind: KindNumber, text: strconv.FormatFloat(t, 'g', -1, 64)\x7d, nil",
  "\tcase string:",
  "\t\treturn &JSONValue\x7bkind: KindString, text: t\x7d, nil",
  "\tcase bool:",
  "\t\treturn &JSONValue\x7bkind: KindBool, b: t\x7d, nil",
  "\tcase nil:",
  "\t\treturn &JSONValue\x7bkind: KindNull\x7d, nil",
  "\t\x7d",
  "\treturn nil, fmt.Errorf(\"unexpected token %v\", tok)",
  "\x7d"]

end SchemaForge.Support
