import BindGen.Text.WordTable
import BindGen.Text.PrintableTable

/-!
# Word and printable characters

Identifiers are made of word characters: letters, digits and numerals of every script, and the
underscore. Printable characters stand for themselves when a text is displayed in quotes.
-/

namespace BindGen.Text

/-- Whether one of the ranges holds the code point. -/
def inRanges (ranges : List (Nat × Nat)) (n : Nat) : Bool :=
  ranges.any fun (lo, hi) => lo ≤ n && n ≤ hi

/-- The word characters below U+0080. -/
def isAsciiWord (c : Char) : Bool :=
  c.isAlphanum || c == '_'

/-- A letter, digit or numeral of any script, or the underscore. -/
def isWord (c : Char) : Bool :=
  if c.toNat < 0x80 then isAsciiWord c else inRanges wordRanges c.toNat

/-- A character that is displayed as itself: no control, format or unassigned character, and no
separator but the space. -/
def isPrintable (c : Char) : Bool :=
  let n := c.toNat
  if n < 0x80 then 32 ≤ n && n ≤ 126 else inRanges printableRanges n

/-- The longest leading run of word characters, and what follows it. -/
def takeWord (s : List Char) : List Char × List Char := (s.takeWhile isWord, s.dropWhile isWord)

/-- Whether the text is a word: not empty, and of word characters only. -/
def isWordText (s : List Char) : Bool := !s.isEmpty && s.all isWord

end BindGen.Text
