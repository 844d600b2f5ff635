import SchemaForge.Cli.Flags

/- Reading a command line. Arguments are read as a stack of tokens: an argument is looked at, cut
   into the tokens it stands for, and these take its place. -/
namespace SchemaForge.Cli

inductive TokenType where
  | untyped
  | flag
  | flagValue
  | shortFlag
  | shortTail
  | positional
  | ended
  deriving DecidableEq, Repr

def TokenType.name : TokenType → String
  | .untyped => "untyped"
  | .flag => "long flag"
  | .flagValue => "flag value"
  | .shortFlag => "short flag"
  | .shortTail => "short flag tail"
  | .positional => "positional argument"
  | .ended => "<EOL>"

structure Token where
  type : TokenType
  value : String
  deriving DecidableEq, Repr

namespace Token

def ended : Token := ⟨.ended, ""⟩

def text (t : Token) : String :=
  match t.type with
  | .flag => "--" ++ t.value
  | .shortFlag => "-" ++ t.value
  | .ended => "EOL"
  | _ => t.value

/-- The type that an argument has by its spelling. -/
def inferredType (t : Token) : TokenType :=
  match t.type, t.value.toList with
  | .untyped, '-' :: '-' :: _ => .flag
  | .untyped, ['-'] => .positional
  | .untyped, '-' :: _ => .shortFlag
  | type, _ => type

def isValue (t : Token) : Bool :=
  match t.inferredType with
  | .flagValue | .shortTail | .positional | .untyped => true
  | _ => false

def looksLikeFlag (t : Token) : Bool :=
  t.inferredType = .flag || t.inferredType = .shortFlag

end Token

inductive UsageError where
  | unknownFlag (given : String) (known : List String)
  | unexpectedArgument (given : String) (known : List String)
  | missing (names : List String)
  | choice (flag : String) (choices : List String) (given : String)
  | valueExpected (flag kind : String) (found : Token)
  | badInteger (flag given : String)
  | badToggle (flag given : String)
  | missingListValue (flag : String)
  deriving Repr

/-- At most five names are told. -/
def missingText : List String → String
  | [name] => "expected " ++ Text.quoted name
  | names =>
    let told := names.map Text.quoted
    "expected one of "
      ++ Text.joinWith ", " (if 5 < told.length then told.take 5 ++ ["..."] else told)

def UsageError.message : UsageError → String
  | .unknownFlag given known => "unknown flag " ++ given ++ suggestion given known
  | .unexpectedArgument given known => "unexpected argument " ++ given ++ suggestion given known
  | .missing names => missingText names
  | .choice flag choices given =>
    flag ++ " must be one of " ++ Text.joinWith "," (choices.map Text.quoted) ++ " but got "
      ++ Text.quoted given
  | .valueExpected flag kind found =>
    flag ++ ": expected " ++ kind ++ " value but got " ++ Text.quoted found.text ++ " ("
      ++ found.inferredType.name ++ ")"
      ++ (if found.looksLikeFlag then
        "; perhaps try " ++ flag ++ "=" ++ Text.quoted found.text ++ "?" else "")
  | .badInteger flag given => flag ++ ": expected a valid 64 bit int but got " ++ Text.quoted given
  | .badToggle flag given =>
    flag ++ ": bool value must be true, 1, yes, false, 0 or no but got " ++ Text.quoted given
  | .missingListValue flag => flag ++ ": missing value, expecting \"<arg>,...\""

/- Values. -/

/-- Digits in some base. -/
def natInBase? (base : Nat) (cs : List Char) : Option Nat :=
  if cs.isEmpty then none
  else
    cs.foldl (fun acc c => do
      let n ← acc
      let v ← Text.hexValue? c
      if v < base then some (n * base + v) else none) (some 0)

/-- The base of a number is told by how it starts. -/
def natLiteral? : List Char → Option Nat
  | '0' :: mark :: digits =>
    if mark = 'x' || mark = 'X' then natInBase? 16 digits
    else if mark = 'o' || mark = 'O' then natInBase? 8 digits
    else if mark = 'b' || mark = 'B' then natInBase? 2 digits
    else natInBase? 8 (mark :: digits)
  | cs => natInBase? 10 cs

/-- Underscores stand between digits, or between the mark of a base and a digit. -/
def underscoresFit (afterDigit : Bool) : List Char → Bool
  | [] => true
  | '_' :: rest => afterDigit && rest.head?.any (· ≠ '_') && underscoresFit false rest
  | c :: rest => underscoresFit (c.isAlphanum) rest

/-- An integer within 64 bits. -/
def integer? (s : String) : Option Int :=
  let plain := s.toList.filter (· ≠ '_')
  let value : Option Int :=
    match if underscoresFit false s.toList then plain else [] with
    | '-' :: digits => (natLiteral? digits).map fun n => -(n : Int)
    | '+' :: digits => (natLiteral? digits).map Int.ofNat
    | digits => (natLiteral? digits).map Int.ofNat
  value.filter fun n => Number.int64Min ≤ n && n ≤ Number.int64Max

/-- Cuts a list at its commas. A backslash keeps a comma, and an empty last part is left out. -/
def splitList (part : List Char) (escaped : Bool) : List Char → List String
  | [] => if part.isEmpty then [] else [String.ofList part.reverse]
  | c :: rest =>
    if escaped then
      splitList (if c = ',' then c :: part else c :: '\\' :: part) false rest
    else if c = '\\' && !rest.isEmpty then splitList part true rest
    else if c = ',' then String.ofList part.reverse :: splitList [] false rest
    else splitList (c :: part) false rest

def toggle? (s : String) : Option Bool :=
  let s := String.ofList (s.toList.map Text.toLowerAscii)
  if ["true", "1", "yes"].contains s then some true
  else if ["false", "0", "no"].contains s then some false
  else none

/-- The values given to flags so far, by name. -/
abbrev Settings := List (String × List String)

namespace Settings

def get (s : Settings) (name : String) : List String := (s.lookup name).getD []

def set (name : String) (values : List String) : Settings → Settings
  | [] => [(name, values)]
  | (k, old) :: rest => if k = name then (k, values) :: rest else (k, old) :: set name values rest

/-- Of several values the last counts. -/
def last? (s : Settings) (name : String) : Option String := (s.get name).getLast?

def isOn (s : Settings) (name : String) : Bool := s.last? name = some "true"

end Settings

def next : List Token → Token × List Token
  | [] => (Token.ended, [])
  | t :: rest => (t, rest)

def FlagKind.valueName : FlagKind → String
  | .integer => "int"
  | .duration => "duration"
  | _ => "string"

/-- Takes the value of a flag from the tokens that follow it. -/
def Flag.take (f : Flag) (s : Settings) (tokens : List Token) :
    Except UsageError (Settings × List Token) :=
  let (t, rest) := next tokens
  match f.kind with
  | .toggle =>
    if t.type = .flagValue then
      match toggle? t.value with
      | some b => .ok (Settings.set f.name [if b then "true" else "false"] s, rest)
      | none => .error (.badToggle f.long (String.ofList (t.value.toList.map Text.toLowerAscii)))
    else .ok (Settings.set f.name ["true"] s, tokens)
  | .list =>
    if t.type = .ended then .error (.missingListValue f.long)
    else
      let parts := splitList [] false t.value.toList
      match parts.find? fun p => !(Token.mk t.type p).isValue with
      | some p => .error (.valueExpected f.long "string" ⟨t.type, p⟩)
      | none => .ok (Settings.set f.name (s.get f.name ++ parts) s, rest)
  | kind =>
    if !t.isValue then .error (.valueExpected f.long kind.valueName t)
    else if kind = .integer && (integer? t.value).isNone then .error (.badInteger f.long t.value)
    else .ok (Settings.set f.name [t.value] s, rest)

/- The command line as a whole. -/

/-- What is read so far: the command, if one is chosen, its arguments and the flags. -/
structure Line where
  command : Option Command
  arguments : List String
  settings : Settings
  deriving Repr

namespace Line

def empty : Line := ⟨none, [], []⟩

def flags (l : Line) : List Flag := commonFlags ++ (l.command.map (·.flags)).getD []

def argument? (l : Line) (n : Nat) : Option String := l.arguments[n]?

end Line

def Line.flag (l : Line) (given : String) (tokens : List Token) :
    Except UsageError (Line × List Token) :=
  match l.flags.find? fun f => f.spellings.contains given with
  | none => .error (.unknownFlag given (l.flags.flatMap Flag.spellings))
  | some f => (f.take l.settings tokens).map fun (s, rest) => ({ l with settings := s }, rest)

/-- An argument goes to the command, or chooses it. -/
def Line.positional (l : Line) (value : String) : Except UsageError Line :=
  match l.command with
  | some c =>
    if l.arguments.length < c.positionals.length then
      .ok { l with arguments := l.arguments ++ [value] }
    else .error (.unexpectedArgument value [])
  | none =>
    match commands.find? fun c => c.name = value with
    | some c => .ok { l with command := some c }
    | none => .error (.unexpectedArgument value (commands.map (·.name)))

/-- The tokens that an argument stands for. After a double dash all are positional. -/
def cutArgument (value : String) (rest : List Token) : List Token :=
  match value.toList with
  | ['-', '-'] => rest.map fun t => ⟨.positional, t.text⟩
  | '-' :: '-' :: body =>
    let name := String.ofList (body.takeWhile (· ≠ '='))
    match body.dropWhile (· ≠ '=') with
    | [] => ⟨.flag, name⟩ :: rest
    | _ :: given => ⟨.flag, name⟩ :: ⟨.flagValue, String.ofList given⟩ :: rest
  | '-' :: c :: [] => ⟨.shortFlag, c.toString⟩ :: rest
  | '-' :: c :: tail => ⟨.shortFlag, c.toString⟩ :: ⟨.shortTail, String.ofList tail⟩ :: rest
  | _ => ⟨.positional, value⟩ :: rest

def cutTail (value : String) (rest : List Token) : List Token :=
  match value.toList with
  | [] => rest
  | [c] => ⟨.shortFlag, c.toString⟩ :: rest
  | c :: tail => ⟨.shortFlag, c.toString⟩ :: ⟨.shortTail, String.ofList tail⟩ :: rest

/-- Reads tokens until none is left. -/
def readTokens : Nat → Line → List Token → Except UsageError Line
  | 0, l, _ => .ok l
  | _ + 1, l, [] => .ok l
  | fuel + 1, l, t :: rest =>
    match t.type with
    | .untyped => readTokens fuel l (cutArgument t.value rest)
    | .shortTail => readTokens fuel l (cutTail t.value rest)
    | .flag | .shortFlag =>
      match l.flag t.text rest with
      | .error e => .error e
      | .ok (l, rest) => readTokens fuel l rest
    | _ =>
      match l.positional t.value with
      | .error e => .error e
      | .ok l => readTokens fuel l rest

/-- Each character of an argument takes two steps at most. -/
def fuelFor (args : List String) : Nat := (args.map fun a => 2 * a.length + 4).foldl (· + ·) 1

def Flag.checkChoice (s : Settings) (f : Flag) : Except UsageError Unit :=
  let value := (s.last? f.name).getD f.default
  if f.choices.isEmpty || f.choices.contains value then .ok ()
  else .error (.choice f.long f.choices value)

/-- What a line still lacks: a command, or arguments that its command needs. -/
def Line.missing (l : Line) : List String :=
  match l.command with
  | none => commands.map (·.name)
  | some c =>
    match (c.positionals.drop l.arguments.length).filter (·.required) with
    | [] => []
    | ps => [Text.joinWith " " (ps.map fun p => "<" ++ p.name ++ ">")]

def Line.check (l : Line) : Except UsageError Line := do
  l.flags.forM (Flag.checkChoice l.settings)
  match l.missing with
  | [] => return l
  | names => throw (.missing names)

/-- Reads a command line. Help is given on any line that can be read. -/
def parseLine (args : List String) : Except UsageError Line := do
  let l ← readTokens (fuelFor args) .empty (args.map (Token.mk .untyped))
  if l.settings.isOn helpFlag.name then return l else l.check

end SchemaForge.Cli
