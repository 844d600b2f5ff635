/- Bytes and text. Reading is lossy: a byte that starts no well-formed sequence stands for the
   replacement character, so every byte sequence has a text. -/
namespace SchemaForge

abbrev Bytes := List UInt8

namespace Utf8

def replacement : Char := Char.ofNat 0xfffd

def isTrail (b : UInt8) : Bool := 0x80 ≤ b && b ≤ 0xbf

def pair? (a b : UInt8) : Option Char :=
  if 0xc2 ≤ a && a ≤ 0xdf && isTrail b then
    some (Char.ofNat ((a.toNat - 0xc0) * 0x40 + (b.toNat - 0x80)))
  else none

/- The second byte excludes long forms and surrogates. -/
def triple? (a b c : UInt8) : Option Char :=
  if 0xe0 ≤ a && a ≤ 0xef && isTrail b && isTrail c
      && (a != 0xe0 || 0xa0 ≤ b) && (a != 0xed || b ≤ 0x9f) then
    some (Char.ofNat ((a.toNat - 0xe0) * 0x1000 + (b.toNat - 0x80) * 0x40 + (c.toNat - 0x80)))
  else none

def quad? (a b c d : UInt8) : Option Char :=
  if 0xf0 ≤ a && a ≤ 0xf4 && isTrail b && isTrail c && isTrail d
      && (a != 0xf0 || 0x90 ≤ b) && (a != 0xf4 || b ≤ 0x8f) then
    some (Char.ofNat ((a.toNat - 0xf0) * 0x40000 + (b.toNat - 0x80) * 0x1000
      + (c.toNat - 0x80) * 0x40 + (d.toNat - 0x80)))
  else none

/-- The character that starts at a byte, and how many of the following bytes belong to it. -/
def lead (a : UInt8) (rest : Bytes) : Char × Nat :=
  if a < 0x80 then (Char.ofNat a.toNat, 0)
  else
    match rest with
    | [] => (replacement, 0)
    | b :: r =>
      match pair? a b, r with
      | some ch, _ => (ch, 1)
      | none, [] => (replacement, 0)
      | none, c :: r =>
        match triple? a b c, r with
        | some ch, _ => (ch, 2)
        | none, [] => (replacement, 0)
        | none, d :: _ =>
          match quad? a b c d with
          | some ch => (ch, 3)
          | none => (replacement, 0)

/-- Reads on after `skip` bytes that belong to the character read last. -/
def decodeOnto (acc : List Char) : Nat → Bytes → List Char
  | _, [] => acc.reverse
  | skip + 1, _ :: rest => decodeOnto acc skip rest
  | 0, a :: rest =>
    let (ch, skip) := lead a rest
    decodeOnto (ch :: acc) skip rest

def decode (bytes : Bytes) : String := String.ofList (decodeOnto [] 0 bytes)

def encode (s : String) : Bytes := s.toUTF8.data.toList

def encodeChars (cs : List Char) : Bytes := encode (String.ofList cs)

end Utf8

/- Order by bytes of the encoded form, which for text is the order by code point. -/
def byteLess (s t : String) : Bool := decide (s.toList < t.toList)

end SchemaForge
