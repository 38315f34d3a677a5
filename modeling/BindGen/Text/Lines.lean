/-!
# Lines

Two views of line ends: reading a file turns every line end into a line feed, and listing the lines
of a text breaks at each character that any convention uses to end a line. The other way round,
words are put into lines of a given width, as many into each line as fit. A word that is wider than
a line stands by itself.
-/

namespace BindGen.Text

/-- The text with `\r\n` and `\r` written as `\n`. -/
def unifyLineEnds : List Char → List Char
  | [] => []
  | '\r' :: '\n' :: rest => '\n' :: unifyLineEnds rest
  | c :: rest => (if c = '\r' then '\n' else c) :: unifyLineEnds rest

/-- The characters that end a line: line feed, carriage return, vertical tab, form feed, the
information separators, next line, and the line and paragraph separators. -/
def isLineEnd (c : Char) : Bool :=
  let n := c.toNat
  (10 ≤ n && n ≤ 13) || (28 ≤ n && n ≤ 30) || n == 0x85 || n == 0x2028 || n == 0x2029

/-- The lines of the text without their ends. A line end at the very end starts no further line. -/
def lines : List Char → List (List Char)
  | [] => []
  | '\r' :: '\n' :: rest => [] :: lines rest
  | c :: rest =>
    if isLineEnd c then [] :: lines rest
    else match lines rest with
      | [] => [[c]]
      | line :: more => (c :: line) :: more

/-- The number of line feeds. -/
def lineFeeds (s : List Char) : Nat := s.count '\n'

/-- The lines that words make up behind the line begun. -/
def fillFrom (width : Nat) (line : String) : List String → List String
  | [] => [line]
  | w :: rest =>
    if line.length + 1 + w.length ≤ width then fillFrom width (line ++ " " ++ w) rest
    else line :: fillFrom width w rest

/-- The lines that words make up. -/
def fill (width : Nat) : List String → List String
  | [] => []
  | w :: rest => fillFrom width w rest

private theorem lines_cons_of_isLineEnd {c : Char} (h : isLineEnd c = true) {s : List Char}
    (hpair : ∀ t, c = '\r' → s = '\n' :: t → False) : lines (c :: s) = [] :: lines s := by
  rw [lines.eq_3 _ _ hpair, if_pos h]

private theorem lines_cons {c : Char} (h : isLineEnd c = false) (s : List Char) :
    lines (c :: s) = match lines s with
      | [] => [[c]]
      | line :: more => (c :: line) :: more := by
  have hpair (t : List Char) (hc : c = '\r') (_ : s = '\n' :: t) : False := by
    rw [hc] at h
    cases h
  rw [lines.eq_3 _ _ hpair, if_neg (Bool.eq_false_iff.mp h)]

private theorem lines_lineFeed (s : List Char) : lines ('\n' :: s) = [] :: lines s :=
  lines_cons_of_isLineEnd rfl nofun

private theorem lines_ne_nil {s : List Char} (h : s ≠ []) : lines s ≠ [] := by
  fun_cases lines s with
  | case1 => exact absurd rfl h
  | case2 => exact List.cons_ne_nil _ _
  | case3 => exact List.cons_ne_nil _ _
  | case4 => exact List.cons_ne_nil _ _
  | case5 => exact List.cons_ne_nil _ _

/-- A line feed ends whatever line it stands in. -/
theorem lines_append_lineFeed (a b : List Char) :
    lines (a ++ '\n' :: b) = lines (a ++ ['\n']) ++ lines b := by
  have hinside (c : Char) (rest : List Char) (hc : isLineEnd c = false)
      (ih : lines (rest ++ '\n' :: b) = lines (rest ++ ['\n']) ++ lines b) :
      lines (c :: (rest ++ '\n' :: b)) = lines (c :: (rest ++ ['\n'])) ++ lines b := by
    rw [lines_cons hc, lines_cons hc, ih]
    cases hfirst : lines (rest ++ ['\n']) with
    | nil => exact absurd hfirst (lines_ne_nil (by simp))
    | cons line more => rfl
  fun_induction lines a with
  | case1 => rw [List.nil_append, List.nil_append, lines_lineFeed, lines_lineFeed]; rfl
  | case2 rest ih =>
    rw [List.cons_append, List.cons_append, List.cons_append, List.cons_append, lines, lines, ih]
    rfl
  | case3 c rest hpair hend ih =>
    rcases rest with _ | ⟨d, rest⟩
    · by_cases hreturn : c = '\r'
      · rw [hreturn]
        rfl
      · rw [List.singleton_append, List.singleton_append,
          lines_cons_of_isLineEnd hend fun _ hc => absurd hc hreturn,
          lines_cons_of_isLineEnd hend fun _ hc => absurd hc hreturn, lines_lineFeed,
          lines_lineFeed]
        rfl
    · have hnext (t t' : List Char) (hc : c = '\r') (hs : (d :: rest) ++ t = '\n' :: t') : False :=
        hpair rest hc (by rw [(List.cons.inj hs).1])
      change lines (c :: (d :: rest ++ '\n' :: b)) = lines (c :: (d :: rest ++ ['\n'])) ++ _
      rw [lines_cons_of_isLineEnd hend (hnext _), lines_cons_of_isLineEnd hend (hnext _), ih]
      rfl
  | case4 c rest _ hend _ ih => exact hinside c rest (Bool.eq_false_iff.mpr hend) ih
  | case5 c rest _ hend _ _ _ ih => exact hinside c rest (Bool.eq_false_iff.mpr hend) ih

/-- A line without line ends is one line. -/
theorem lines_line {line : List Char} (h : ∀ c ∈ line, isLineEnd c = false) :
    lines (line ++ ['\n']) = [line] := by
  induction line with
  | nil => rfl
  | cons c line ih =>
    rw [List.cons_append, lines_cons (h c List.mem_cons_self),
      ih fun d hd => h d (List.mem_cons_of_mem c hd)]

end BindGen.Text
