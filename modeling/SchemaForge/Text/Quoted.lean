import SchemaForge.Text.Chars
import SchemaForge.Text.Printable

/- Quoted text: printable characters stand for themselves, the quote and the backslash are
   escaped, control characters have names or two hexadecimal digits, and every other character
   is written by its code point. A quoted text holds no bare quote and no line break. -/
namespace SchemaForge.Text

def controlName? (c : Char) : Option Char :=
  if c.toNat = 7 then some 'a'
  else if c.toNat = 8 then some 'b'
  else if c.toNat = 12 then some 'f'
  else if c = '\n' then some 'n'
  else if c = '\r' then some 'r'
  else if c = '\t' then some 't'
  else if c.toNat = 11 then some 'v'
  else none

def escapeChar (quote c : Char) : List Char :=
  if c = quote || c = '\\' then ['\\', c]
  else if isPrintable c then [c]
  else
    match controlName? c with
    | some name => ['\\', name]
    | none =>
      if c.toNat < 0x20 || c.toNat = 0x7f then '\\' :: 'x' :: hexDigits 2 c.toNat
      else if c.toNat < 0x10000 then '\\' :: 'u' :: hexDigits 4 c.toNat
      else '\\' :: 'U' :: hexDigits 8 c.toNat

def quotedChars (cs : List Char) : List Char :=
  '"' :: (cs.flatMap (escapeChar '"') ++ ['"'])

def quoted (s : String) : String := String.ofList (quotedChars s.toList)

def quotedChar (c : Char) : String := String.ofList ('\'' :: (escapeChar '\'' c ++ ['\'']))

end SchemaForge.Text
