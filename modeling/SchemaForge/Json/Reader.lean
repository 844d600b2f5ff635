import SchemaForge.Json.Token

/- Two readers of JSON text over the same lexemes. Both accept any closing mark for any
   container and leave separators to the lexemes; an object member is a string and a value.
   `Json.parse` is the one that validators use: it descends from value to value. `Json.load`
   is the one for documents: it keeps the open containers on a stack and takes one lexeme at
   a time, so the nesting of a document is not limited by recursion. -/
namespace SchemaForge.Json

namespace Reader

abbrev Outcome := Except ReadError (Json × List Lexeme)

def failure (onEnd : ReadError) : Finish → ReadError
  | .ended _ => onEnd
  | .failed e => e

mutual

/-- One value from the front. A container's own elements follow in `array` and `object`. -/
def value (finish : Finish) : Nat → List Lexeme → Outcome
  | 0, _ => .error .unexpectedEnd
  | _, [] => .error (failure .unexpectedEnd finish)
  | fuel + 1, lexeme :: rest =>
    match lexeme.token with
    | .null => .ok (.null, rest)
    | .bool b => .ok (.bool b, rest)
    | .number text => .ok (.num text, rest)
    | .string text => .ok (.str text, rest)
    | .openArray => array finish fuel [] rest
    | .openObject => object finish fuel [] rest
    | .closeArray => .error (.strayDelimiter ']')
    | .closeObject => .error (.strayDelimiter '\x7d')

def array (finish : Finish) : Nat → List Json → List Lexeme → Outcome
  | 0, _, _ => .error .unexpectedEnd
  | _, _, [] =>
    match finish with
    | .ended true => .error .unexpectedEnd
    | .ended false => .error .endOfText
    | .failed e => .error e
  | fuel + 1, items, lexeme :: rest =>
    if lexeme.token.isCloser && !lexeme.separated then .ok (.arr items.reverse, rest)
    else
      match value finish fuel (lexeme :: rest) with
      | .error e => .error e
      | .ok (item, rest) => array finish fuel (item :: items) rest

def object (finish : Finish) : Nat → List (String × Json) → List Lexeme → Outcome
  | 0, _, _ => .error .unexpectedEnd
  | _, _, [] => .error (failure .endOfText finish)
  | fuel + 1, members, lexeme :: rest =>
    if lexeme.token.isCloser && !lexeme.separated then .ok (.obj members, rest)
    else
      match lexeme.token with
      | .string key =>
        match value finish fuel rest with
        | .error e => .error e
        | .ok (item, rest) => object finish fuel (Members.set key item members) rest
      | found => .error (.keyExpected found)

end

end Reader

def parse (text : Bytes) : Except ReadError Json :=
  let source := lexemes text
  match Reader.value source.finish (3 * source.items.length + 3) source.items with
  | .error e => .error e
  | .ok (v, []) =>
    match source.finish with
    | .ended _ => .ok v
    | .failed e => .error e
  | .ok (_, lexeme :: _) => .error (.trailing lexeme.token)

namespace Loader

/-- A container that is still open: items in reverse, members in order, or members with the
    key whose value comes next. -/
inductive Frame where
  | array (items : List Json)
  | object (members : List (String × Json))
  | member (members : List (String × Json)) (key : String)

inductive State where
  | reading (stack : List Frame)
  | complete (value : Json)
  | failed (error : ReadError)

/-- Hands a finished value to the innermost open container. -/
def deliver (v : Json) : List Frame → State
  | [] => .complete v
  | .array items :: stack => .reading (.array (v :: items) :: stack)
  | .member members key :: stack => .reading (.object (Members.set key v members) :: stack)
  | .object members :: stack => .reading (.object members :: stack)

/-- A token where a value is expected. -/
def acceptValue (stack : List Frame) : Token → State
  | .null => deliver .null stack
  | .bool b => deliver (.bool b) stack
  | .number text => deliver (.num text) stack
  | .string text => deliver (.str text) stack
  | .openArray => .reading (.array [] :: stack)
  | .openObject => .reading (.object [] :: stack)
  | .closeArray => .failed (.strayDelimiter ']')
  | .closeObject => .failed (.strayDelimiter '\x7d')

def step : State → Lexeme → State
  | .failed e, _ => .failed e
  | .complete _, lexeme => .failed (.trailing lexeme.token)
  | .reading (.array items :: stack), lexeme =>
    if lexeme.token.isCloser && !lexeme.separated then deliver (.arr items.reverse) stack
    else acceptValue (.array items :: stack) lexeme.token
  | .reading (.object members :: stack), lexeme =>
    if lexeme.token.isCloser && !lexeme.separated then deliver (.obj members) stack
    else
      match lexeme.token with
      | .string key => .reading (.member members key :: stack)
      | found => .failed (.keyExpected found)
  | .reading stack, lexeme => acceptValue stack lexeme.token

/-- What the end of the text means in each state. -/
def finished : State → Finish → Except ReadError Json
  | .failed e, _ => .error e
  | _, .failed e => .error e
  | .complete v, .ended _ => .ok v
  | .reading (.object _ :: _), .ended _ => .error .endOfText
  | .reading (.array _ :: _), .ended false => .error .endOfText
  | .reading _, .ended _ => .error .unexpectedEnd

end Loader

def load (text : Bytes) : Except ReadError Json :=
  let source := lexemes text
  Loader.finished (source.items.foldl Loader.step (.reading [])) source.finish

end SchemaForge.Json
