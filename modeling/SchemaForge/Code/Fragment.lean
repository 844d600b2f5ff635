import SchemaForge.Ident

/- Whether a piece of text is one type or one expression of the emitted language, as far as
   declarations and validator calls need them. -/
namespace SchemaForge.Code.Fragment

inductive Lexeme where
  | word (text : String)
  | literal
  | mark (c : Char)
  deriving DecidableEq, Repr

/-- The rest after a quoted text. -/
def skipQuoted (quote : Char) : List Char → Option (List Char)
  | [] => none
  | '\\' :: _ :: rest => skipQuoted quote rest
  | c :: rest =>
    if c = quote then some rest else if c = '\n' then none else skipQuoted quote rest

def isMark (c : Char) : Bool :=
  ['(', ')', '[', ']', '\x7b', '\x7d', '*', '&', '.', ',', ':', '+', '-', '!'].contains c

def lex : Nat → List Char → Option (List Lexeme)
  | 0, _ => some []
  | _ + 1, [] => some []
  | fuel + 1, c :: rest =>
    if c = ' ' || c = '\t' then lex fuel rest
    else if Ident.isLetter c then
      (lex fuel (rest.dropWhile Ident.isPart)).map
        (.word (String.ofList (c :: rest.takeWhile Ident.isPart)) :: ·)
    else if '0' ≤ c && c ≤ '9' then
      (lex fuel (rest.dropWhile fun c => Ident.isPart c || c = '.')).map (.literal :: ·)
    else if c = '"' then
      match skipQuoted '"' rest with
      | none => none
      | some rest => (lex fuel rest).map (.literal :: ·)
    else if isMark c then (lex fuel rest).map (.mark c :: ·)
    else none

def lexemes (text : String) : Option (List Lexeme) := lex (text.toList.length + 1) text.toList

def isName (word : String) : Bool := !Ident.keywords.contains word

mutual

/-- The rest after a type. -/
def type? : Nat → List Lexeme → Option (List Lexeme)
  | 0, _ => none
  | fuel + 1, .mark '*' :: rest => type? fuel rest
  | fuel + 1, .mark '[' :: .mark ']' :: rest => type? fuel rest
  | fuel + 1, .mark '[' :: .literal :: .mark ']' :: rest => type? fuel rest
  | fuel + 1, .mark '(' :: rest =>
    match type? fuel rest with
    | some (.mark ')' :: rest) => some rest
    | _ => none
  | fuel + 1, .word w :: rest =>
    if w = "map" then
      match rest with
      | .mark '[' :: rest =>
        match type? fuel rest with
        | some (.mark ']' :: rest) => type? fuel rest
        | _ => none
      | _ => none
    else if w = "struct" || w = "interface" then
      match rest with
      | .mark '\x7b' :: .mark '\x7d' :: rest => some rest
      | _ => none
    else if isName w then
      match rest with
      | .mark '.' :: .word v :: rest => if isName v then typeArguments? fuel rest else none
      | rest => typeArguments? fuel rest
    else none
  | _ + 1, _ => none

def typeArguments? : Nat → List Lexeme → Option (List Lexeme)
  | 0, _ => none
  | fuel + 1, .mark '[' :: rest => typeList? fuel rest
  | _ + 1, rest => some rest

def typeList? : Nat → List Lexeme → Option (List Lexeme)
  | 0, _ => none
  | fuel + 1, rest =>
    match type? fuel rest with
    | some (.mark ',' :: rest) => typeList? fuel rest
    | some (.mark ']' :: rest) => some rest
    | _ => none

end

mutual

/-- The rest after an expression. -/
def expression? : Nat → List Lexeme → Option (List Lexeme)
  | 0, _ => none
  | fuel + 1, .mark '&' :: rest => expression? fuel rest
  | fuel + 1, .mark '*' :: rest => expression? fuel rest
  | fuel + 1, .mark '-' :: rest => expression? fuel rest
  | fuel + 1, .mark '+' :: rest => expression? fuel rest
  | fuel + 1, .mark '!' :: rest => expression? fuel rest
  | fuel + 1, .literal :: rest => suffix? fuel rest
  | fuel + 1, .mark '(' :: rest =>
    match expression? fuel rest with
    | some (.mark ')' :: rest) => suffix? fuel rest
    | _ => none
  | fuel + 1, .mark '[' :: rest =>
    match type? fuel (.mark '[' :: rest) with
    | some rest => suffix? fuel rest
    | none => none
  | fuel + 1, .word w :: rest =>
    if isName w then suffix? fuel rest
    else
      match type? fuel (.word w :: rest) with
      | some rest => suffix? fuel rest
      | none => none
  | _ + 1, _ => none

/-- The rest after selectors, calls, indexes, literals and operators. -/
def suffix? : Nat → List Lexeme → Option (List Lexeme)
  | 0, _ => none
  | fuel + 1, .mark '.' :: .word w :: rest => if isName w then suffix? fuel rest else none
  | _ + 1, .mark '.' :: _ => none
  | fuel + 1, .mark '(' :: .mark ')' :: rest => suffix? fuel rest
  | fuel + 1, .mark '(' :: rest => arguments? fuel ')' rest
  | fuel + 1, .mark '[' :: rest => arguments? fuel ']' rest
  | fuel + 1, .mark '\x7b' :: .mark '\x7d' :: rest => suffix? fuel rest
  | fuel + 1, .mark '\x7b' :: rest => arguments? fuel '\x7d' rest
  | fuel + 1, .mark '+' :: rest => expression? fuel rest
  | fuel + 1, .mark '-' :: rest => expression? fuel rest
  | fuel + 1, .mark '*' :: rest => expression? fuel rest
  | _ + 1, rest => some rest

def arguments? : Nat → Char → List Lexeme → Option (List Lexeme)
  | 0, _, _ => none
  | fuel + 1, close, rest =>
    match expression? fuel rest with
    | some (.mark ',' :: .mark c :: rest) =>
      if c = close then suffix? fuel rest else arguments? fuel close (.mark c :: rest)
    | some (.mark ',' :: rest) => arguments? fuel close rest
    | some (.mark ':' :: rest) =>
      if close = '\x7d' then arguments? fuel close rest else none
    | some (.mark c :: rest) => if c = close then suffix? fuel rest else none
    | _ => none

end

def whole (read : Nat → List Lexeme → Option (List Lexeme)) (text : String) : Bool :=
  match lexemes text with
  | none => false
  | some ls => read (4 * ls.length + 4) ls == some []

def isType (text : String) : Bool := whole type? text

def isExpression (text : String) : Bool := whole expression? text

end SchemaForge.Code.Fragment
