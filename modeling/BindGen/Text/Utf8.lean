/-!
# UTF-8

The byte form of texts. Encoding writes each character in its one to four bytes; decoding accepts
exactly such forms: no stray or missing continuation byte, no longer form than needed, no surrogate
and nothing beyond U+10FFFF.
-/

namespace BindGen

/-- A sequence of bytes, such as the content of a file. -/
abbrev Bytes := List UInt8

namespace Utf8

/-- The bytes of a character. -/
def encodeChar (c : Char) : Bytes :=
  let n := c.toNat
  if n < 0x80 then [n.toUInt8]
  else if n < 0x800 then [(0xC0 + n / 0x40).toUInt8, (0x80 + n % 0x40).toUInt8]
  else if n < 0x10000 then
    [(0xE0 + n / 0x1000).toUInt8, (0x80 + n / 0x40 % 0x40).toUInt8, (0x80 + n % 0x40).toUInt8]
  else
    [(0xF0 + n / 0x40000).toUInt8, (0x80 + n / 0x1000 % 0x40).toUInt8,
      (0x80 + n / 0x40 % 0x40).toUInt8, (0x80 + n % 0x40).toUInt8]

/-- The bytes of a text. -/
def encode (s : List Char) : Bytes := s.flatMap encodeChar

/-- The payload of a continuation byte. -/
def continuation? (b : UInt8) : Option Nat :=
  if 0x80 ≤ b && b < 0xC0 then some (b.toNat - 0x80) else none

/-- The character of a code point that needs at least the given one. -/
def charFrom? (least n : Nat) : Option Char :=
  if h : n.isValidChar then
    if least ≤ n then some (Char.ofNatAux n h) else none
  else none

/-- The text of the bytes, if they are the encoding of one. -/
def decode? : Bytes → Option (List Char)
  | [] => some []
  | b :: rest =>
    if b < 0x80 then (decode? rest).map (Char.ofNat b.toNat :: ·)
    else if b < 0xC0 then none
    else if b < 0xE0 then
      match rest with
      | b₁ :: rest => do
        let c ← charFrom? 0x80 ((b.toNat - 0xC0) * 0x40 + (← continuation? b₁))
        (decode? rest).map (c :: ·)
      | _ => none
    else if b < 0xF0 then
      match rest with
      | b₁ :: b₂ :: rest => do
        let c ← charFrom? 0x800
          (((b.toNat - 0xE0) * 0x40 + (← continuation? b₁)) * 0x40 + (← continuation? b₂))
        (decode? rest).map (c :: ·)
      | _ => none
    else
      match rest with
      | b₁ :: b₂ :: b₃ :: rest => do
        let c ← charFrom? 0x10000
          ((((b.toNat - 0xF0) * 0x40 + (← continuation? b₁)) * 0x40 + (← continuation? b₂)) * 0x40
            + (← continuation? b₃))
        (decode? rest).map (c :: ·)
      | _ => none

end Utf8
end BindGen
