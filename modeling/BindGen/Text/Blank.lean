/-!
# White space and affixes

The characters that count as blank everywhere in this library, and the operations that only look at
them: trimming a text and cutting it into words. Trimming keeps a text without outer blanks as it
is, and a word has no blank in it. Other beginnings and ends that are known are cut off in the same
way.
-/

namespace BindGen.Text

/-- White space of every script: the separators, and the controls that move the cursor or separate
records. The byte order mark and the zero-width space are no white space. -/
def isBlank (c : Char) : Bool :=
  let n := c.toNat
  (9 ≤ n && n ≤ 13) || (28 ≤ n && n ≤ 32) || n == 0x85 || n == 0xA0 || n == 0x1680
    || (0x2000 ≤ n && n ≤ 0x200A) || n == 0x2028 || n == 0x2029 || n == 0x202F || n == 0x205F
    || n == 0x3000

/-- The text without its leading blanks. -/
def trimLeft (s : List Char) : List Char := s.dropWhile isBlank

/-- The text without its trailing blanks. -/
def trimRight (s : List Char) : List Char := (s.reverse.dropWhile isBlank).reverse

/-- The text without its leading and trailing blanks. -/
def trim (s : List Char) : List Char := trimRight (trimLeft s)

/-- Whether the text has blanks only. -/
def allBlank (s : List Char) : Bool := s.all isBlank

/-- The pieces between the characters of a class: `n` such characters give `n + 1` pieces. -/
def cut (p : Char → Bool) : List Char → List (List Char)
  | [] => [[]]
  | c :: rest =>
    if p c then [] :: cut p rest
    else match cut p rest with
      | [] => [[c]]
      | piece :: pieces => (c :: piece) :: pieces

/-- The maximal runs of characters that are not blank. -/
def words (s : List Char) : List (List Char) := (cut isBlank s).filter (· != [])

/-- Every text has a first piece. -/
theorem cut_ne_nil (p : Char → Bool) (s : List Char) : cut p s ≠ [] := by
  cases s with
  | nil => simp [cut]
  | cons c rest =>
    rw [cut]
    split
    · simp
    · split <;> simp

/-- Joining the pieces with the separator gives the text back. -/
theorem intercalate_cut (d : Char) (s : List Char) :
    [d].intercalate (cut (· == d) s) = s := by
  induction s with
  | nil => simp [cut]
  | cons c rest ih =>
    rw [cut]
    obtain ⟨piece, pieces, h⟩ := List.exists_cons_of_ne_nil (cut_ne_nil (· == d) rest)
    rw [h] at ih ⊢
    split
    · next hc =>
      have : c = d := by simpa using hc
      cases pieces <;> simp_all [List.intercalate, List.intersperse]
    · cases pieces <;> simp_all [List.intercalate, List.intersperse]

/-- No piece holds a separator. -/
theorem not_mem_of_mem_cut {p : Char → Bool} {s piece : List Char} (h : piece ∈ cut p s) :
    ∀ c ∈ piece, p c = false := by
  induction s generalizing piece with
  | nil => simp_all [cut]
  | cons c rest ih =>
    rw [cut] at h
    split at h
    · rcases List.mem_cons.1 h with rfl | h
      · simp
      · exact ih h
    · next hc =>
      split at h
      · next he => exact absurd he (cut_ne_nil p rest)
      · next first others he =>
        rcases List.mem_cons.1 h with rfl | h
        · intro d hd
          rcases List.mem_cons.1 hd with rfl | hd
          · simpa using hc
          · exact ih (he ▸ List.mem_cons_self) d hd
        · exact ih (he ▸ List.mem_cons_of_mem _ h)

/-- A trimmed text starts with no blank. -/
theorem trimLeft_eq_self {c : Char} {s : List Char} (h : isBlank c = false) :
    trimLeft (c :: s) = c :: s := by
  simp [trimLeft, h]

/-! ## Prefixes and suffixes -/

/-- What follows a prefix. -/
def afterPrefix? : List Char → List Char → Option (List Char)
  | [], s => some s
  | p :: ps, c :: s => if p = c then afterPrefix? ps s else none
  | _ :: _, [] => none

/-- What stands in front of a suffix. -/
def beforeSuffix? (suffix s : List Char) : Option (List Char) :=
  (afterPrefix? suffix.reverse s.reverse).map List.reverse

/-- The longest trailing run of characters of a class, and what stands in front of it. -/
def splitTail (p : Char → Bool) (s : List Char) : List Char × List Char :=
  ((s.reverse.dropWhile p).reverse, (s.reverse.takeWhile p).reverse)

/-- A prefix and what follows it make up the text. -/
theorem afterPrefix?_length {p s after : List Char} (h : afterPrefix? p s = some after) :
    after.length + p.length = s.length := by
  fun_induction afterPrefix? p s with
  | case1 => simp_all
  | case2 ps c s ih => simp [← ih h]; omega
  | case3 => simp at h
  | case4 => simp at h

/-- A text starts with a prefix if what follows it completes the text. -/
theorem afterPrefix?_append (p s : List Char) : afterPrefix? p (p ++ s) = some s := by
  induction p with
  | nil => simp [afterPrefix?]
  | cons c rest ih => simp [afterPrefix?, ih]

/-- The two parts make up the text. -/
theorem splitTail_append (p : Char → Bool) (s : List Char) :
    (splitTail p s).1 ++ (splitTail p s).2 = s := by
  rw [splitTail, ← List.reverse_append, List.takeWhile_append_dropWhile, List.reverse_reverse]

end BindGen.Text
