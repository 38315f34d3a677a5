import BindGen.Proofs.Text.Pieces
import BindGen.Udl.Attributes

/-!
# Tokens of type texts

A type text is a sequence of tokens: marks, and runs of other characters between blanks. The normal
form writes the tokens of a text in one way and keeps them all, so that texts have one normal form
exactly if they have the same tokens.
-/

namespace BindGen.Udl

open Text (isBlank trimLeft words)

-- Whatever does not depend on a blank at the start does not depend on any of them there.
private theorem apply_trimLeft {β : Type} {f : List Char → β}
    (h : ∀ c s, isBlank c = true → f (c :: s) = f s) (s : List Char) : f (trimLeft s) = f s := by
  induction s with
  | nil => rfl
  | cons c s ih =>
    by_cases hc : isBlank c = true
    · rw [h c s hc, ← ih, trimLeft, List.dropWhile_cons_of_pos hc, trimLeft]
    · rw [Text.trimLeft_eq_self (by simpa using hc)]

private theorem isBlank_of_trimLeft {d : Char} {s rest : List Char} (h : trimLeft s = d :: rest) :
    isBlank d = false := by
  have hd := List.head?_dropWhile_not isBlank s
  rw [trimLeft] at h
  simpa [h] using hd

/-- A token of a type text. -/
inductive TypeToken where
  | mark (c : Char)
  | word (s : List Char)
deriving DecidableEq

namespace TypeToken

variable {c : Char} {s t : List Char} {tokens : List TypeToken}

-- Adds a character that is neither blank nor a mark in front of the tokens of the rest; `glued`
-- says whether the rest starts with the same word.
private def addChar (c : Char) (glued : Bool) : List TypeToken → List TypeToken
  | .word s :: rest => if glued then .word (c :: s) :: rest else .word [c] :: .word s :: rest
  | tokens => .word [c] :: tokens

/-- The tokens of a type text. -/
def scan : List Char → List TypeToken
  | [] => []
  | c :: rest =>
    if isBlank c then scan rest
    else if isMark c then .mark c :: scan rest
    else addChar c (rest.head?.any fun d => !isBlank d) (scan rest)

/-- The text of tokens in normal form. -/
def render : List TypeToken → List Char
  | [] => []
  | .mark c :: rest => (if c = ',' then [',', ' '] else [c]) ++ render rest
  | .word s :: .word t :: rest => s ++ ' ' :: render (.word t :: rest)
  | .word s :: rest => s ++ render rest

@[simp] private theorem addChar_apart (c : Char) (tokens : List TypeToken) :
    addChar c false tokens = .word [c] :: tokens := by
  rcases tokens with _ | ⟨_ | s, tokens⟩ <;> rfl

/-- The character is part of a word. -/
def InWord (c : Char) : Prop := isBlank c = false ∧ isMark c = false

/-- A mark is one, and a word has characters of words only and at least one of them. -/
def Proper : TypeToken → Prop
  | mark c => isMark c = true
  | word s => s ≠ [] ∧ ∀ c ∈ s, InWord c

/-! ## Scanning -/

private theorem isBlank_of_isMark (h : isMark c = true) : isBlank c = false := by
  simp only [isMark, Bool.or_eq_true, beq_iff_eq] at h
  obtain (rfl | rfl) | rfl := h <;> rfl

private theorem scan_blank (h : isBlank c = true) (s : List Char) : scan (c :: s) = scan s := by
  rw [scan, if_pos h]

private theorem scan_mark (h : isMark c = true) (s : List Char) :
    scan (c :: s) = .mark c :: scan s := by
  rw [scan, isBlank_of_isMark h, if_neg Bool.false_ne_true, if_pos h]

/-- Blanks in front of a text are no tokens. -/
theorem scan_trimLeft (s : List Char) : scan (trimLeft s) = scan s :=
  apply_trimLeft (fun _ s hc => scan_blank hc s) s

/-- A run of characters of words that ends where the text does, or at a blank or a mark, is a
word. -/
theorem scan_word (hs : s ≠ []) (h : ∀ c ∈ s, InWord c) (ht : ∀ c, t.head? = some c → ¬InWord c) :
    scan (s ++ t) = .word s :: scan t := by
  induction s with
  | nil => exact absurd rfl hs
  | cons c s ih =>
    obtain ⟨hblank, hmark⟩ := h c List.mem_cons_self
    rw [List.cons_append, scan, hblank, hmark, if_neg Bool.false_ne_true,
      if_neg Bool.false_ne_true]
    cases s with
    | nil =>
      rcases t with _ | ⟨d, t⟩
      · rfl
      · have hd : isBlank d = true ∨ isMark d = true := by
          have := ht d rfl
          simp only [InWord] at this
          grind
        obtain hd | hd := hd
        · simp [hd]
        · rw [List.nil_append, scan_mark hd]
          rfl
    | cons d s =>
      have hd : isBlank d = false := (h d (by simp)).1
      rw [ih (List.cons_ne_nil d s) fun c hc => h c (List.mem_cons_of_mem _ hc)]
      simp [addChar, hd]

private theorem proper_addChar (hc : InWord c) (glued : Bool) (h : ∀ x ∈ tokens, x.Proper) :
    ∀ x ∈ addChar c glued tokens, x.Proper := by
  have hone : Proper (.word [c]) := ⟨List.cons_ne_nil c [], by simpa using hc⟩
  rcases tokens with _ | ⟨_ | s, tokens⟩
  · simpa [addChar] using hone
  · simpa [addChar, hone] using h
  · have hs : Proper (.word s) := h _ List.mem_cons_self
    cases glued
    · simpa [addChar, hone] using h
    · have hlong : Proper (.word (c :: s)) := ⟨List.cons_ne_nil c s, by simpa [hc] using hs.2⟩
      simp only [List.forall_mem_cons] at h
      simpa [addChar, hlong] using h.2

/-- Every token that is scanned is proper. -/
theorem proper_of_mem_scan (s : List Char) : ∀ x ∈ scan s, x.Proper := by
  induction s with
  | nil => simp [scan]
  | cons c s ih =>
    rw [scan]
    split
    · exact ih
    · next hblank =>
      split
      · next hmark => exact List.forall_mem_cons.mpr ⟨hmark, ih⟩
      · next hmark => exact proper_addChar ⟨by simpa using hblank, by simpa using hmark⟩ _ ih

/-- Proper tokens are scanned out of the text that they are rendered to. -/
theorem scan_render (h : ∀ x ∈ tokens, x.Proper) : scan (render tokens) = tokens := by
  induction tokens using render.induct with
  | case1 => rfl
  | case2 c rest ih =>
    obtain ⟨hc, hrest⟩ := List.forall_mem_cons.mp h
    rw [render]
    split
    · next hcomma =>
      subst hcomma
      rw [List.cons_append, List.cons_append, List.nil_append, scan_mark rfl, scan_blank rfl,
        ih hrest]
    · rw [List.cons_append, List.nil_append, scan_mark hc, ih hrest]
  | case3 s t rest ih =>
    obtain ⟨hs, hrest⟩ := List.forall_mem_cons.mp h
    rw [render, scan_word hs.1 hs.2 (by simp [InWord, isBlank]), scan_blank rfl, ih hrest]
  | case4 s rest hlast ih =>
    obtain ⟨hs, hrest⟩ := List.forall_mem_cons.mp h
    rw [render, scan_word hs.1 hs.2, ih hrest]
    · rcases rest with _ | ⟨c | t, rest⟩
      · simp [render]
      · intro d hd
        have hc : isMark c = true := hrest _ List.mem_cons_self
        rw [render] at hd
        split at hd
        · obtain rfl : ',' = d := by simpa using hd
          simp [InWord, isMark]
        · obtain rfl : c = d := by simpa using hd
          simp [InWord, hc]
      · exact absurd rfl (hlast t rest)
    · exact hlast

end TypeToken

/-! ## The normal form -/

open TypeToken (scan render)

variable {c : Char} {s : List Char}

-- The text is empty or starts with a blank.
private def StartsApart (s : List Char) : Prop := s.head?.all isBlank = true

private theorem startsApart_nil : StartsApart [] := rfl

private theorem startsApart_cons_iff : StartsApart (c :: s) ↔ isBlank c = true := Iff.rfl

private theorem words_blank (hc : isBlank c = true) (s : List Char) : words (c :: s) = words s := by
  simp [words, Text.cut, hc]

private theorem words_apart (hc : isBlank c = false) (hs : StartsApart s) :
    words (c :: s) = [c] :: words s := by
  rcases s with _ | ⟨d, s⟩
  · simp [words, Text.cut, hc]
  · have hd : isBlank d = true := by simpa [StartsApart] using hs
    simp [words, Text.cut, hc, hd]

private theorem words_glued (hc : isBlank c = false) (hs : ¬StartsApart s) :
    words (c :: s) = (words s).modifyHead (c :: ·) := by
  rcases s with _ | ⟨d, s⟩
  · exact absurd rfl hs
  · have hd : isBlank d = false := by simpa [StartsApart] using hs
    obtain ⟨piece, pieces, h⟩ := List.exists_cons_of_ne_nil (Text.cut_ne_nil isBlank s)
    simp [words, Text.cut, hc, hd, h]

private theorem joinWords_blank (hc : isBlank c = true) (s : List Char) :
    joinWords (c :: s) = joinWords s := by
  rw [joinWords, joinWords, words_blank hc]

private theorem joinWords_glued (hc : isBlank c = false) (hs : ¬StartsApart s) :
    joinWords (c :: s) = c :: joinWords s := by
  rw [joinWords, joinWords, words_glued hc hs]
  rcases s with _ | ⟨d, s⟩
  · exact absurd rfl hs
  · have hd : isBlank d = false := by simpa [StartsApart] using hs
    obtain ⟨piece, pieces, h⟩ := List.exists_cons_of_ne_nil (Text.cut_ne_nil isBlank s)
    have hw : words (d :: s) = (d :: piece) :: pieces.filter (· != []) := by
      simp [words, Text.cut, hd, h]
    rw [hw]
    cases pieces.filter (· != []) <;> rfl

private theorem joinWords_apart (hc : isBlank c = false) (hs : StartsApart s) :
    joinWords (c :: s) = if words s = [] then [c] else c :: ' ' :: joinWords s := by
  rw [joinWords, joinWords, words_apart hc hs]
  cases words s <;> rfl

-- Joined words start where the text does, behind its blanks.
private theorem head?_joinWords (s : List Char) : (joinWords s).head? = (trimLeft s).head? := by
  rw [← apply_trimLeft (fun _ s hc => joinWords_blank hc s) s]
  cases ht : trimLeft s with
  | nil => rfl
  | cons c s =>
    have hc : isBlank c = false := isBlank_of_trimLeft ht
    by_cases hs : StartsApart s
    · rw [joinWords_apart hc hs]
      split <;> rfl
    · rw [joinWords_glued hc hs]
      rfl

-- Joined words do not start with a blank.
private theorem isBlank_of_joinWords {d : Char} {rest : List Char} (h : joinWords s = d :: rest) :
    isBlank d = false := by
  have hhead := head?_joinWords s
  rw [h, List.head?_cons] at hhead
  obtain ⟨rest', ht⟩ := List.head?_eq_some_iff.mp hhead.symm
  exact isBlank_of_trimLeft ht

private theorem startsWithMark_joinWords (s : List Char) :
    startsWithMark (joinWords s) = startsWithMark s := by
  rw [startsWithMark, startsWithMark, ← head?_joinWords s]
  cases hj : joinWords s with
  | nil => rfl
  | cons d rest => rw [Text.trimLeft_eq_self (isBlank_of_joinWords hj)]

/-! What tightening and spacing do to one character. -/

private theorem tighten_mark (hc : isMark c = true) (marked : Bool) (s : List Char) :
    tighten marked (c :: s) = c :: tighten true s := by
  rw [tighten, if_pos hc]

private theorem tighten_word (hc : TypeToken.InWord c) (marked : Bool) (s : List Char) :
    tighten marked (c :: s) = c :: tighten false s := by
  simp [tighten, hc.1, hc.2]

private theorem tighten_blank (marked : Bool) (s : List Char) : tighten marked (' ' :: s) =
    if marked || startsWithMark s then tighten marked s else ' ' :: tighten false s := rfl

private theorem spaceCommas_word (hc : TypeToken.InWord c) (s : List Char) :
    spaceCommas (c :: s) = c :: spaceCommas s := by
  have hcomma : c ≠ ',' := by
    rintro rfl
    cases hc.2
  simp [spaceCommas, hcomma]

private theorem spaceCommas_blank (s : List Char) : spaceCommas (' ' :: s) = ' ' :: spaceCommas s :=
  rfl

-- Behind a mark joined words are tightened as they are at the start.
private theorem tighten_joinWords (s : List Char) :
    tighten true (joinWords s) = tighten false (joinWords s) := by
  cases hj : joinWords s with
  | nil => rfl
  | cons d rest => simp [tighten, isBlank_of_joinWords hj]

/-! What the normal form does to one character. -/

private theorem normalType_blank (hc : isBlank c = true) (s : List Char) :
    normalType (c :: s) = normalType s := by
  rw [normalType, normalType, joinWords_blank hc]

private theorem normalType_mark (hc : isMark c = true) (s : List Char) :
    normalType (c :: s) = (if c = ',' then [',', ' '] else [c]) ++ normalType s := by
  have hblank := TypeToken.isBlank_of_isMark hc
  have htight : tighten false (joinWords (c :: s)) = c :: tighten false (joinWords s) := by
    by_cases hs : StartsApart s
    · rw [joinWords_apart hblank hs]
      split
      · next hw =>
        rw [tighten_mark hc, joinWords, hw]
        rfl
      · rw [tighten_mark hc, tighten_blank, Bool.true_or, if_pos rfl, tighten_joinWords]
    · rw [joinWords_glued hblank hs, tighten_mark hc, tighten_joinWords]
  rw [normalType, htight, spaceCommas, List.flatMap_cons]
  rfl

private theorem normalType_glued (hc : TypeToken.InWord c) (hs : ¬StartsApart s) :
    normalType (c :: s) = c :: normalType s := by
  rw [normalType, joinWords_glued hc.1 hs, tighten_word hc, spaceCommas_word hc, normalType]

-- No word follows behind the blanks at the start of the text.
private def endsWord (s : List Char) : Bool := (words s).isEmpty || startsWithMark s

private theorem normalType_apart (hc : TypeToken.InWord c) (hs : StartsApart s) :
    normalType (c :: s) = c :: if endsWord s then normalType s else ' ' :: normalType s := by
  rw [normalType, normalType, joinWords_apart hc.1 hs, endsWord]
  by_cases hw : words s = []
  · have hj : joinWords s = [] := by rw [joinWords, hw]; rfl
    rw [if_pos hw, tighten_word hc, spaceCommas_word hc, hj, hw]
    rfl
  · rw [if_neg hw, tighten_word hc, spaceCommas_word hc, tighten_blank, Bool.false_or,
      startsWithMark_joinWords, List.isEmpty_eq_false_iff.mpr hw, Bool.false_or]
    split
    · rfl
    · rw [spaceCommas_blank]

/-! What rendering does to it. -/

private theorem render_glued (c : Char) (tokens : List TypeToken) :
    render (TypeToken.addChar c true tokens) = c :: render tokens := by
  rcases tokens with _ | ⟨_ | s, _ | ⟨_ | t, tokens⟩⟩ <;> rfl

private theorem words_trimLeft (s : List Char) : words (trimLeft s) = words s :=
  apply_trimLeft (fun _ s hc => words_blank hc s) s

private theorem words_ne_nil (hc : isBlank c = false) (s : List Char) : words (c :: s) ≠ [] := by
  intro hw
  have hhead := head?_joinWords (c :: s)
  rw [joinWords, hw, Text.trimLeft_eq_self hc] at hhead
  cases hhead

private theorem render_apart (c : Char) (s : List Char) : render (.word [c] :: scan s) =
    c :: if endsWord s then render (scan s) else ' ' :: render (scan s) := by
  rw [← TypeToken.scan_trimLeft s, endsWord, ← words_trimLeft, startsWithMark]
  cases ht : trimLeft s with
  | nil => rfl
  | cons d rest =>
    have hd : isBlank d = false := isBlank_of_trimLeft ht
    rw [List.isEmpty_eq_false_iff.mpr (words_ne_nil hd rest), Bool.false_or]
    by_cases hm : isMark d = true
    · rw [TypeToken.scan_mark hm]
      simp [render, hm]
    · rw [Bool.not_eq_true] at hm
      rw [scan, hd, hm, if_neg Bool.false_ne_true, if_neg Bool.false_ne_true]
      generalize scan rest = tokens, rest.head?.any (fun d => !isBlank d) = glued
      rcases glued <;> rcases tokens with _ | ⟨_ | t, tokens⟩ <;>
        simp [TypeToken.addChar, render, hm]

/-- The normal form is the text of the tokens. -/
theorem normalType_eq_render (s : List Char) : normalType s = render (scan s) := by
  induction s with
  | nil => rfl
  | cons c s ih =>
    by_cases hblank : isBlank c = true
    · rw [normalType_blank hblank, TypeToken.scan_blank hblank, ih]
    · by_cases hmark : isMark c = true
      · rw [normalType_mark hmark, TypeToken.scan_mark hmark, ih, render]
      · have hc : TypeToken.InWord c := ⟨by simpa using hblank, by simpa using hmark⟩
        rw [scan, if_neg hblank, if_neg hmark]
        rcases s with _ | ⟨d, s⟩
        · rw [normalType_apart hc startsApart_nil, ih]
          rfl
        · by_cases hd : isBlank d = true
          · rw [normalType_apart hc (startsApart_cons_iff.mpr hd), ih, List.head?_cons,
              Option.any_some, hd, Bool.not_true, TypeToken.addChar_apart, render_apart]
          · rw [normalType_glued hc (mt startsApart_cons_iff.mp hd), ih, List.head?_cons,
              Option.any_some, Bool.eq_false_iff.mpr hd, Bool.not_false, render_glued]

/-- The normal form of a type keeps its tokens and depends on them alone: types have one normal form
exactly if they have the same tokens, and a normal form is its own. -/
theorem normalType_eq_iff_scan (a b : List Char) :
    (normalType a = normalType b ↔ scan a = scan b) ∧ scan (normalType a) = scan a ∧
      normalType (normalType a) = normalType a := by
  have hkept (s : List Char) : scan (normalType s) = scan s := by
    rw [normalType_eq_render, TypeToken.scan_render (TypeToken.proper_of_mem_scan s)]
  refine ⟨⟨fun h => ?_, fun h => ?_⟩, hkept a, ?_⟩
  · rw [← hkept a, h, hkept b]
  · rw [normalType_eq_render, h, ← normalType_eq_render]
  · rw [normalType_eq_render (normalType a), hkept, ← normalType_eq_render]

end BindGen.Udl
