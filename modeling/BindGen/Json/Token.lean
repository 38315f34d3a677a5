import BindGen.Text.Blank
import BindGen.Text.Numeral
import BindGen.Value.Basic

/-!
# JSON tokens

The lexemes of a JSON text: brackets, commas, colons, and scalars. Besides the standard's scalars
the words `NaN`, `Infinity` and `-Infinity` stand for the floats without digits. A character that
starts no lexeme gives the token `bad`, after which nothing is read.
-/

namespace BindGen.Json

open Text (afterPrefix? afterPrefix?_length)

/-- A lexeme of a JSON text. -/
inductive Token where
  | listOpen
  | listClose
  | tableOpen
  | tableClose
  | comma
  | colon
  | scalar (s : Scalar)
  /-- an integer with more digits than are read -/
  | hugeInteger (digits : Nat)
  | bad
deriving DecidableEq

/-- Whether a character may stand between the tokens of a JSON text. -/
def isSpace (c : Char) : Bool := c == ' ' || c == '\t' || c == '\n' || c == '\r'

/-- The number that four hexadecimal digits write. -/
def hexQuad? (a b c d : Char) : Option Nat := do
  return (((← hexValue? a) * 16 + (← hexValue? b)) * 16 + (← hexValue? c)) * 16 + (← hexValue? d)

/-- The character that a one-letter escape stands for. -/
def escaped? : Char → Option Char
  | '"' => some '"'
  | '\\' => some '\\'
  | '/' => some '/'
  | 'b' => some '\x08'
  | 'f' => some '\x0c'
  | 'n' => some '\n'
  | 'r' => some '\r'
  | 't' => some '\t'
  | _ => none

/-- The characters up to the quote that closes a text, with escapes as they stand, and what follows
that quote. -/
def textBody : List Char → Option (List Char × List Char)
  | [] => none
  | '"' :: rest => some ([], rest)
  | '\\' :: c :: rest => (textBody rest).map fun (s, after) => ('\\' :: c :: s, after)
  | c :: rest => (textBody rest).map fun (s, after) => (c :: s, after)

/-- The code points that the body of a text stands for. Escapes may write surrogates; control
characters have to be escaped. -/
def codePoints : List Char → Option (List CodePoint)
  | [] => some []
  | '\\' :: 'u' :: a :: b :: c :: d :: rest => do
    let n ← hexQuad? a b c d
    return .ofNat n :: (← codePoints rest)
  | '\\' :: c :: rest => do
    let c ← escaped? c
    return .ofChar c :: (← codePoints rest)
  | c :: rest =>
    if c.toNat < 0x20 || c == '\\' then none
    else (codePoints rest).map (CodePoint.ofChar c :: ·)

/-- The text in quotes whose body starts here, and what follows it. -/
def quotedText (s : List Char) : Option (Token × List Char) := do
  let (body, after) ← textBody s
  let codes ← codePoints body
  return (.scalar (LooseText.ofPoints codes).scalar, after)

/-- The natural that decimal digits write. -/
def digitsValue (ds : List Char) : Nat := ds.foldl (fun n c => n * 10 + (c.toNat - 48)) 0

/-- A run of digits and what follows it. -/
def takeDigits (s : List Char) : List Char × List Char :=
  (s.takeWhile Char.isDigit, s.dropWhile Char.isDigit)

/-- The digits after a point, if a point and a digit follow. -/
def fraction (s : List Char) : List Char × List Char :=
  match s with
  | '.' :: rest =>
    let digits := takeDigits rest
    if digits.1.isEmpty then ([], s) else digits
  | _ => ([], s)

/-- The exponent, if a complete one follows. -/
def exponent? (s : List Char) : Option (Int × List Char) :=
  match s with
  | c :: rest =>
    if c == 'e' || c == 'E' then
      let signed := Text.takeSign rest
      let digits := takeDigits signed.2
      if digits.1.isEmpty then none
      else
        let n : Int := digitsValue digits.1
        some (if signed.1 then -n else n, digits.2)
    else none
  | [] => none

/-- The digits of an integer: a single zero, or digits of which the first is not zero. -/
def integerDigits : List Char → List Char × List Char
  | '0' :: rest => (['0'], rest)
  | s => takeDigits s

/-- The number whose digits start here. -/
def number (negative : Bool) (s : List Char) : Option (Token × List Char) :=
  let whole := integerDigits s
  if whole.1.isEmpty then none
  else
    let frac := fraction whole.2
    match exponent? frac.2 with
    | some (e, after) =>
      let x := Double.ofDecimal negative (digitsValue (whole.1 ++ frac.1)) (e - frac.1.length)
      some (.scalar (.float x), after)
    | none =>
      if frac.1.isEmpty then
        if whole.1.length > Text.digitLimit then some (.hugeInteger whole.1.length, frac.2)
        else
          let n : Int := digitsValue whole.1
          some (.scalar (.int (if negative then -n else n)), frac.2)
      else
        let x := Double.ofDecimal negative (digitsValue (whole.1 ++ frac.1)) (-frac.1.length)
        some (.scalar (.float x), frac.2)

/-- The scalar words. -/
def wordScalars : List (List Char × Scalar) :=
  [("null".toList, .null), ("true".toList, .bool true), ("false".toList, .bool false),
    ("NaN".toList, .float .nan), ("Infinity".toList, .float (.infinite false)),
    ("-Infinity".toList, .float (.infinite true))]

/-- The scalar word that a text starts with. -/
def wordToken? (s : List Char) : Option (Token × List Char) :=
  wordScalars.findSome? fun (w, v) => (afterPrefix? w s).map fun rest => (.scalar v, rest)

/-- The lexeme that a text starts with, and what follows it. -/
def lexeme (c : Char) (rest : List Char) : Option (Token × List Char) :=
  match c with
  | '[' => some (.listOpen, rest)
  | ']' => some (.listClose, rest)
  | '\x7b' => some (.tableOpen, rest)
  | '\x7d' => some (.tableClose, rest)
  | ',' => some (.comma, rest)
  | ':' => some (.colon, rest)
  | '"' => quotedText rest
  | c =>
    match wordToken? (c :: rest) with
    | some found => some found
    | none => if c = '-' then number true rest else number false (c :: rest)

private theorem textBody_length {s body after : List Char} (h : textBody s = some (body, after)) :
    after.length < s.length := by
  fun_induction textBody s generalizing body after with
  | case1 => simp at h
  | case2 => simp_all
  | case3 | case4 =>
    simp only [Option.map_eq_some_iff, Prod.exists, Prod.mk.injEq] at h
    grind

private theorem takeDigits_length (s : List Char) : (takeDigits s).2.length ≤ s.length := by
  simpa [takeDigits] using (List.dropWhile_sublist _).length_le

private theorem takeDigits_length_lt {s : List Char} (h : (takeDigits s).1 ≠ []) :
    (takeDigits s).2.length < s.length := by
  cases s with
  | nil => simp [takeDigits] at h
  | cons c rest =>
    by_cases hc : c.isDigit
    · simpa [takeDigits, hc] using Nat.lt_succ_of_le (List.dropWhile_sublist _).length_le
    · simp [takeDigits, hc] at h

private theorem fraction_length (s : List Char) : (fraction s).2.length ≤ s.length := by
  unfold fraction
  split
  · next rest =>
    have := takeDigits_length rest
    dsimp only
    split
    · simp
    · simp; omega
  · simp

private theorem takeSign_length (s : List Char) :
    (Text.takeSign s).2.length ≤ s.length := by
  unfold Text.takeSign
  split <;> simp

private theorem exponent?_length {s after : List Char} {e : Int}
    (h : exponent? s = some (e, after)) :
    after.length ≤ s.length := by
  unfold exponent? at h
  split at h
  · next c rest =>
    have h₁ := takeSign_length rest
    have h₂ := takeDigits_length (Text.takeSign rest).2
    split at h
    · dsimp only at h
      split at h
      · simp at h
      · cases h
        simp
        omega
    · simp at h
  · simp at h

private theorem integerDigits_length {s : List Char} (h : (integerDigits s).1.isEmpty = false) :
    (integerDigits s).2.length < s.length := by
  unfold integerDigits at h ⊢
  split
  · simp
  · exact takeDigits_length_lt (by simpa using h)

private theorem number_length {negative : Bool} {s after : List Char} {t : Token}
    (h : number negative s = some (t, after)) : after.length < s.length := by
  unfold number at h
  dsimp only at h
  split at h
  · simp at h
  · next hd =>
    have h₁ := integerDigits_length (by simpa using hd)
    have h₂ := fraction_length (integerDigits s).2
    split at h
    · next he =>
      cases h
      have := exponent?_length he
      omega
    · split at h
      · split at h <;> cases h <;> omega
      · cases h; omega

private theorem wordToken?_length {s after : List Char} {t : Token}
    (h : wordToken? s = some (t, after)) : after.length < s.length := by
  unfold wordToken? at h
  obtain ⟨⟨w, v⟩, hm, hw⟩ := List.exists_of_findSome?_eq_some h
  simp only [Option.map_eq_some_iff, Prod.mk.injEq] at hw
  obtain ⟨rest, hr, -, rfl⟩ := hw
  have := afterPrefix?_length hr
  have : 0 < w.length := by
    simp only [wordScalars, List.mem_cons, Prod.mk.injEq, List.not_mem_nil, or_false] at hm
    rcases hm with ⟨rfl, -⟩ | ⟨rfl, -⟩ | ⟨rfl, -⟩ | ⟨rfl, -⟩ | ⟨rfl, -⟩ | ⟨rfl, -⟩ <;> decide
  omega

/-- A lexeme takes at least one character. -/
theorem lexeme_length {c : Char} {rest after : List Char} {t : Token}
    (h : lexeme c rest = some (t, after)) : after.length < rest.length + 1 := by
  unfold lexeme at h
  split at h
  case h_7 =>
    simp only [quotedText, Option.bind_eq_bind, Option.bind_eq_some_iff] at h
    obtain ⟨⟨body, r⟩, hb, codes, -, h⟩ := h
    cases h
    exact Nat.lt_succ_of_lt (textBody_length hb)
  case h_8 =>
    split at h
    · next hw => cases h; exact wordToken?_length hw
    · split at h
      · exact Nat.lt_succ_of_lt (number_length h)
      · exact number_length h
  all_goals cases h; simp

/-- The lexemes of a text. -/
def tokens (s : List Char) : List Token :=
  match s with
  | [] => []
  | c :: rest =>
    if isSpace c then tokens rest
    else
      match _h : lexeme c rest with
      | some (t, after) => t :: tokens after
      | none => [.bad]
termination_by s.length
decreasing_by
  · simp
  · exact lexeme_length _h

end BindGen.Json
