import BindGen.Text.CaseTable
import BindGen.Text.Word

/-!
# Changing case

Upper and lower case of whole texts, with every character mapped to its full counterpart: one
character may become several, and a capital sigma at the end of a word becomes the final form.
-/

namespace BindGen.Text

/-- The counterpart of a code point: its own among the special ones, else that of its run, else
itself. -/
def mapped (special : List (Nat × List Nat)) (runs : List CaseRun) (n : Nat) :
    List Char :=
  match special.find? (·.1 == n) with
  | some (_, image) => image.map Char.ofNat
  | none =>
    match runs.findSome? (·.counterpart? n) with
    | some image => [Char.ofNat image]
    | none => [Char.ofNat n]

/-- The upper-case form of a character. -/
def upperChar (c : Char) : List Char :=
  if c.toNat < 0x80 then [c.toUpper] else mapped upperSpecial upperRuns c.toNat

/-- The lower-case form of a character that stands by itself. -/
def lowerChar (c : Char) : List Char :=
  if c.toNat < 0x80 then [c.toLower] else mapped lowerSpecial lowerRuns c.toNat

private def isCaseIgnorable (c : Char) : Bool := inRanges caseIgnorableRanges c.toNat

-- Whether the nearest character that counts for case is cased.
private def nextToCased (s : List Char) : Bool :=
  match s.dropWhile isCaseIgnorable with
  | [] => false
  | c :: _ => inRanges casedRanges c.toNat

/-- The upper-case form of a text. -/
def upper (s : List Char) : List Char := s.flatMap upperChar

/-- The lower-case form of a text that follows the given characters, nearest first. -/
def lowerAfter (before : List Char) : List Char → List Char
  | [] => []
  | c :: rest =>
    let image :=
      if c = 'Σ' then if nextToCased before && !nextToCased rest then ['ς'] else ['σ']
      else lowerChar c
    image ++ lowerAfter (c :: before) rest

/-- The lower-case form of a text; a capital sigma that ends a word takes its final form. -/
def lower (s : List Char) : List Char := lowerAfter [] s

end BindGen.Text
