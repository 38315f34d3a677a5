import BindGen.Text.Broken
import BindGen.Text.Utf8

/-!
# Encodings of JSON

A JSON text may come as bytes in one of several encodings. A byte order mark tells which, or else
the zero bytes among the first four, as a JSON text starts with a character of the first 128. A pair
of surrogates is one character.
-/

namespace BindGen.Json

/-- The encodings of JSON texts. -/
inductive Encoding where
  | utf8
  | utf16 (bigEndian : Bool)
  | utf32 (bigEndian : Bool)
deriving DecidableEq

namespace Encoding

/-- The encoding that zero bytes at the start of a text without a mark tell. -/
def ofZeros : Bytes → Encoding
  | [0, _] => utf16 true
  | [_, 0] => utf16 false
  | 0 :: 0 :: _ :: _ :: _ => utf32 true
  | 0 :: _ :: _ :: _ :: _ => utf16 true
  | _ :: 0 :: 0 :: 0 :: _ => utf32 false
  | _ :: 0 :: _ :: _ :: _ => utf16 false
  | _ => utf8

/-- The encoding of bytes, and the bytes without a byte order mark. -/
def detect : Bytes → Encoding × Bytes
  | 0 :: 0 :: 0xFE :: 0xFF :: rest => (utf32 true, rest)
  | 0xFF :: 0xFE :: 0 :: 0 :: rest => (utf32 false, rest)
  | 0xFE :: 0xFF :: rest => (utf16 true, rest)
  | 0xFF :: 0xFE :: rest => (utf16 false, rest)
  | 0xEF :: 0xBB :: 0xBF :: rest => (utf8, rest)
  | b => (ofZeros b, b)

/-- The numbers that bytes write, two for each. -/
def pairs? (bigEndian : Bool) : Bytes → Option (List Nat)
  | [] => some []
  | a :: b :: rest => do
    let n := if bigEndian then a.toNat * 0x100 + b.toNat else b.toNat * 0x100 + a.toNat
    return n :: (← pairs? bigEndian rest)
  | _ => none

/-- The numbers that bytes write, four for each. -/
def quads? (bigEndian : Bool) (b : Bytes) : Option (List Nat) := do
  let rec join : List Nat → Option (List Nat)
    | [] => some []
    | x :: y :: rest => do
      let n := if bigEndian then x * 0x10000 + y else y * 0x10000 + x
      return n :: (← join rest)
    | _ => none
  let ns ← join (← pairs? bigEndian b)
  if ns.all (· < 0x110000) then return ns else none

/-- The character of a code point; a surrogate without its partner gives the replacement
character. -/
def charOf (n : CodePoint) : Char := n.char?.getD '\uFFFD'

/-- The text of bytes in an encoding. -/
def text? (e : Encoding) (b : Bytes) : Option (List Char) :=
  match e with
  | utf8 => Utf8.decode? b
  | utf16 bigEndian => (pairs? bigEndian b).map fun ns =>
    (CodePoint.joinPairs (ns.map .ofNat)).map charOf
  | utf32 bigEndian => (quads? bigEndian b).map fun ns => ns.map fun n => charOf (.ofNat n)

end Encoding

/-- The text of bytes, in the encoding that they tell. -/
def textOfBytes? (b : Bytes) : Option String :=
  let (e, rest) := Encoding.detect b
  (e.text? rest).map String.ofList

end BindGen.Json
