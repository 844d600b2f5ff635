/- What can be wrong with a YAML text. A place counts lines from zero; messages name a line
   only if it is not the first one. -/
namespace SchemaForge.Yaml

structure Mark where
  index : Nat
  line : Nat
  column : Nat
  deriving DecidableEq, Repr

def Mark.start : Mark := ⟨0, 0, 0⟩

/-- Faults of the byte sequence itself. -/
inductive TextFault where
  | leadingByte
  | incomplete
  | trailingByte
  | length
  | notCharacter
  | control
  | lowSurrogate
  | noLowSurrogate
  | halfUnit
  | halfPair
  deriving DecidableEq, Repr

def TextFault.message : TextFault → String
  | .leadingByte => "invalid leading UTF-8 octet"
  | .incomplete => "incomplete UTF-8 octet sequence"
  | .trailingByte => "invalid trailing UTF-8 octet"
  | .length => "invalid length of a UTF-8 sequence"
  | .notCharacter => "invalid Unicode character"
  | .control => "control characters are not allowed"
  | .lowSurrogate => "unexpected low surrogate area"
  | .noLowSurrogate => "expected low surrogate area"
  | .halfUnit => "incomplete UTF-16 character"
  | .halfPair => "incomplete UTF-16 surrogate pair"

/-- Faults found while characters are grouped into tokens. -/
inductive TokenFault where
  | colon
  | valueHere
  | keyHere
  | entryHere
  | noToken
  | documentMark
  | endOfStream
  | unknownEscape
  | escapeDigits
  | escapeValue
  | tab
  | blockTab
  | zeroIndent
  | commentOrBreak
  | unknownDirective
  | directiveName
  | directiveCharacter
  | versionPoint
  | versionLong
  | versionDigits
  | blank
  | blankOrBreak
  | anchorName
  | bang
  | tagText
  | tagClose
  | octet
  | leadingOctet
  | trailingOctet
  | tooDeep
  deriving DecidableEq, Repr

def TokenFault.message : TokenFault → String
  | .colon => "could not find expected ':'"
  | .valueHere => "mapping values are not allowed in this context"
  | .keyHere => "mapping keys are not allowed in this context"
  | .entryHere => "block sequence entries are not allowed in this context"
  | .noToken => "found character that cannot start any token"
  | .documentMark => "found unexpected document indicator"
  | .endOfStream => "found unexpected end of stream"
  | .unknownEscape => "found unknown escape character"
  | .escapeDigits => "did not find expected hexdecimal number"
  | .escapeValue => "found invalid Unicode character escape code"
  | .tab => "found a tab character that violates indentation"
  | .blockTab => "found a tab character where an indentation space is expected"
  | .zeroIndent => "found an indentation indicator equal to 0"
  | .commentOrBreak => "did not find expected comment or line break"
  | .unknownDirective => "found unknown directive name"
  | .directiveName => "could not find expected directive name"
  | .directiveCharacter => "found unexpected non-alphabetical character"
  | .versionPoint => "did not find expected digit or '.' character"
  | .versionLong => "found extremely long version number"
  | .versionDigits => "did not find expected version number"
  | .blank => "did not find expected whitespace"
  | .blankOrBreak => "did not find expected whitespace or line break"
  | .anchorName => "did not find expected alphabetic or numeric character"
  | .bang => "did not find expected '!'"
  | .tagText => "did not find expected tag URI"
  | .tagClose => "did not find the expected '>'"
  | .octet => "did not find URI escaped octet"
  | .leadingOctet => "found an incorrect leading UTF-8 octet"
  | .trailingOctet => "found an incorrect trailing UTF-8 octet"
  | .tooDeep => "exceeded max depth of 10000"

/-- Faults found while tokens are read as documents and nodes. -/
inductive GrammarFault where
  | documentStart
  | secondVersion
  | version
  | secondTag
  | unknownHandle
  | node
  | dash
  | key
  | flowSequence
  | flowMapping
  deriving DecidableEq, Repr

def GrammarFault.message : GrammarFault → String
  | .documentStart => "did not find expected <document start>"
  | .secondVersion => "found duplicate %YAML directive"
  | .version => "found incompatible YAML document"
  | .secondTag => "found duplicate %TAG directive"
  | .unknownHandle => "found undefined tag handle"
  | .node => "did not find expected node content"
  | .dash => "did not find expected '-' indicator"
  | .key => "did not find expected key"
  | .flowSequence => "did not find expected ',' or ']'"
  | .flowMapping => "did not find expected ',' or '\x7d'"

inductive Error where
  | text (fault : TextFault)
  | token (context : Mark) (fault : TokenFault) (place : Mark)
  | grammar (context : Mark) (fault : GrammarFault) (place : Mark)
  | unknownAnchor (name : String)
  | keyNotScalar (line : Nat)
  | notBoolean (line : Nat) (tag spelling : String)
  /-- Stands for an expansion that has no end, and so reports nothing. -/
  | endless
  deriving DecidableEq, Repr

namespace Error

def atLine (line : Nat) (text : String) : String :=
  if line = 0 then "yaml: " ++ text
  else "yaml: line " ++ toString line ++ ": " ++ text

/-- The line a message names: that of the context unless it is the first, else that of the
    place. -/
def lineOf (context place : Mark) : Nat := if context.line ≠ 0 then context.line else place.line

/-- Token faults count lines from one, grammar faults from zero; zero is not printed. -/
def message : Error → String
  | .text fault => "yaml: " ++ fault.message
  | .token context fault place =>
    let line := lineOf context place
    atLine (if line = 0 then 0 else line + 1) fault.message
  | .grammar context fault place => atLine (lineOf context place) fault.message
  | .unknownAnchor name => "yaml: unknown anchor '" ++ name ++ "' referenced"
  | .keyNotScalar line => "line " ++ toString line ++ ": mapping key must be a scalar"
  | .notBoolean line tag spelling =>
    "line " ++ toString line ++ ": yaml: cannot decode " ++ tag ++ " `" ++ spelling
      ++ "` as a !!bool"
  | .endless => "yaml: anchor value contains itself"

end Error

end SchemaForge.Yaml
