import BindGen.Text.Blank
import BindGen.Text.Word
import BindGen.Udl.Attributes
import BindGen.Udl.Member

/-!
# Definitions

The top-level parts of an interface definition: a keyword, a name and a body in braces, or another
name for a type. Blanks may stand between the parts, and each definition ends with a semicolon.
Recognising a definition tells what follows it, which is always shorter.
-/

namespace BindGen.Udl

open Text

/-- The keywords of definitions with a body. -/
inductive Keyword where
  | namespaceDecl
  | dictionary
  | enum
  | interface
  | callbackInterface
deriving DecidableEq

/-- A definition with a body; the lengths count the characters from its name and from its body on to
the end of the text. -/
structure Block where
  attributes : Attributes
  keyword : Keyword
  name : List Char
  fromName : Nat
  body : List Char
  fromBody : Nat

/-- Another name for a type. -/
structure Alias where
  builtin : List Char
  name : List Char

/-- The text without its leading blanks, of which there has to be one. -/
def skipBlanks1 (s : List Char) : Option (List Char) :=
  match s with
  | c :: rest => if isBlank c then some (trimLeft rest) else none
  | [] => none

/-- A keyword and what follows the blanks behind it. -/
def takeKeyword (s : List Char) : Option (Keyword × List Char) :=
  let simple (word : String) (k : Keyword) : Option (Keyword × List Char) := do
    let after ← skipBlanks1 (← afterPrefix? word.toList s)
    return (k, after)
  let compound : Option (Keyword × List Char) := do
    let second ← skipBlanks1 (← afterPrefix? "callback".toList s)
    let after ← skipBlanks1 (← afterPrefix? "interface".toList second)
    return (.callbackInterface, after)
  simple "namespace" .namespaceDecl <|> simple "dictionary" .dictionary <|> simple "enum" .enum
    <|> simple "interface" .interface <|> compound

/-- What follows a character. -/
def takeChar (d : Char) : List Char → Option (List Char)
  | c :: rest => if c = d then some rest else none
  | [] => none

/-- The word that a text starts with, and what follows it. -/
def takeName (s : List Char) : Option (List Char × List Char) :=
  let found := takeWord s
  if found.1.isEmpty then none else some found

/-- Whether a character is a brace. -/
def isBrace (c : Char) : Bool := c == '\x7b' || c == '\x7d'

/-- The definition with a body that a text starts with, and what follows it. Models
`_DEFINITION`. -/
def block? (s : List Char) : Option (Block × List Char) := do
  let (brackets, afterBrackets) ← takeBrackets (trimLeft s)
  let (keyword, atName) ← takeKeyword (trimLeft afterBrackets)
  let (name, afterName) ← takeName atName
  let atBody ← takeChar '\x7b' (trimLeft afterName)
  let body := atBody.takeWhile (!isBrace ·)
  let afterBody ← takeChar '\x7d' (atBody.dropWhile (!isBrace ·))
  let rest ← takeChar ';' (trimLeft afterBody)
  return (⟨Attributes.ofText? brackets, keyword, name, atName.length, body, atBody.length⟩, rest)

/-- The other name for a type that a text starts with, and what follows it. Where three blanks or
more stand in front of a name without a type, the type is blank. Models `_TYPEDEF`. -/
def alias? (s : List Char) : Option (Alias × List Char) := do
  let (_, afterBrackets) ← takeBrackets (trimLeft s)
  let afterWord ← afterPrefix? "typedef".toList (trimLeft afterBrackets)
  let atType ← skipBlanks1 afterWord
  let margin := afterWord.length - atType.length ≥ 3
  let typed ← TypedName.split? margin (trimRight (atType.takeWhile isTypeChar))
  let rest ← takeChar ';' (atType.dropWhile isTypeChar)
  return (⟨typed.type, typed.name⟩, rest)

private theorem trimLeft_length (s : List Char) : (trimLeft s).length ≤ s.length := by
  simpa [trimLeft] using (List.dropWhile_sublist _).length_le

private theorem takeChar_length {d : Char} {s rest : List Char} (h : takeChar d s = some rest) :
    rest.length < s.length := by
  unfold takeChar at h
  split at h
  · split at h <;> simp_all
  · simp at h

private theorem takeBrackets_length {s rest : List Char} {b : Option (List Char)}
    (h : takeBrackets s = some (b, rest)) : rest.length ≤ s.length := by
  unfold takeBrackets at h
  split at h
  · next inner =>
    split at h
    · next c after hd =>
      cases h
      have := (List.dropWhile_sublist (· != ']') (l := inner)).length_le
      rw [hd] at this
      simp at this ⊢
      omega
    · simp at h
  · cases h; simp

private theorem skipBlanks1_length {s rest : List Char} (h : skipBlanks1 s = some rest) :
    rest.length < s.length := by
  unfold skipBlanks1 at h
  split at h
  · next c r =>
    have := trimLeft_length r
    split at h
    · cases h; simp; omega
    · simp at h
  · simp at h

private theorem takeKeyword_length {s rest : List Char} {k : Keyword}
    (h : takeKeyword s = some (k, rest)) : rest.length < s.length := by
  have simple {word : List Char} {k k' : Keyword}
      (h : (do
        let after ← skipBlanks1 (← afterPrefix? word s)
        return (k', after)) = some (k, rest)) : rest.length < s.length := by
    simp only [Option.bind_eq_bind, Option.bind_eq_some_iff] at h
    obtain ⟨a, ha, b, hb, h⟩ := h
    cases h
    have := afterPrefix?_length ha
    have := skipBlanks1_length hb
    omega
  simp only [takeKeyword, Option.orElse_eq_orElse, Option.orElse_eq_or, Option.or_eq_some_iff] at h
  rcases h with h | ⟨-, h | ⟨-, h | ⟨-, h | ⟨-, h⟩⟩⟩⟩
  iterate 4 exact simple h
  simp only [Option.bind_eq_bind, Option.bind_eq_some_iff] at h
  obtain ⟨a, ha, b, hb, c, hc, d, hd, h⟩ := h
  cases h
  have := afterPrefix?_length ha
  have := skipBlanks1_length hb
  have := afterPrefix?_length hc
  have := skipBlanks1_length hd
  omega

private theorem dropWhile_length (p : Char → Bool) (s : List Char) :
    (s.dropWhile p).length ≤ s.length := (List.dropWhile_sublist _).length_le

private theorem takeName_length {s name rest : List Char} (h : takeName s = some (name, rest)) :
    rest.length ≤ s.length := by
  unfold takeName takeWord at h
  dsimp only at h
  split at h
  · simp at h
  · cases h; exact dropWhile_length isWord s

/-- A definition with a body takes at least one character. -/
theorem block?_length {s rest : List Char} {b : Block} (h : block? s = some (b, rest)) :
    rest.length < s.length := by
  simp only [block?, Option.bind_eq_bind, Option.bind_eq_some_iff] at h
  obtain ⟨⟨brackets, afterBrackets⟩, h₁, ⟨keyword, atName⟩, h₂, ⟨name, afterName⟩, h₃,
    atBody, h₄, afterBody, h₅, rest', h₆, h⟩ := h
  cases h
  dsimp only at *
  have := takeBrackets_length h₁
  have := takeKeyword_length h₂
  have := takeName_length h₃
  have := takeChar_length h₄
  have := takeChar_length h₅
  have := takeChar_length h₆
  have := trimLeft_length s
  have := trimLeft_length afterBrackets
  have := trimLeft_length afterName
  have := dropWhile_length (!isBrace ·) atBody
  have := trimLeft_length afterBody
  omega

/-- Another name for a type takes at least one character. -/
theorem alias?_length {s rest : List Char} {a : Alias} (h : alias? s = some (a, rest)) :
    rest.length < s.length := by
  simp only [alias?, Option.bind_eq_bind, Option.bind_eq_some_iff] at h
  obtain ⟨⟨brackets, afterBrackets⟩, h₁, afterWord, h₂, atType, h₃, typed, -, rest', h₄, h⟩ := h
  cases h
  dsimp only at *
  have := takeBrackets_length h₁
  have := afterPrefix?_length h₂
  have := skipBlanks1_length h₃
  have := takeChar_length h₄
  have := trimLeft_length s
  have := trimLeft_length afterBrackets
  have := dropWhile_length isTypeChar atType
  omega

end BindGen.Udl
