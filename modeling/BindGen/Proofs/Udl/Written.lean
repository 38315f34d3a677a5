import BindGen.Proofs.Udl.ReadBack

/-!
# Definitions as they are written

Reading takes definitions off the front of a text, one after the other. Here is what it takes for a
definition, told by the parts in the order in which they are written: the recognisers of
`Definition` succeed exactly on a written definition with anything behind it. So reading succeeds
exactly on written definitions with blanks behind the last one, and reading that fails stops behind
the definitions in front of the first that is refused.
-/

namespace BindGen.Udl

open Text

variable {s t rest : List Char}

/-! ## Runs of characters -/

/-- A run of a class ends where the class ends. -/
theorem takeWhile_run {p : Char → Bool} {run : List Char} (hrun : ∀ c ∈ run, p c = true)
    (hstop : ∀ c, rest.head? = some c → p c = false) :
    (run ++ rest).takeWhile p = run ∧ (run ++ rest).dropWhile p = rest := by
  rw [List.takeWhile_append_of_pos hrun, List.dropWhile_append_of_pos hrun]
  cases rest with
  | nil => simp
  | cons c rest => simp [hstop c rfl]

/-- What is left of a text behind a run does not start in the class. -/
theorem head?_dropWhile {p : Char → Bool} {c : Char} (h : (s.dropWhile p).head? = some c) :
    p c = false := by
  have hnot := List.head?_dropWhile_not p s
  rw [h] at hnot
  simpa using hnot

/-- A text is blanks and what is left of it when they are trimmed. -/
theorem eq_append_trimLeft (s : List Char) :
    ∃ lead, allBlank lead = true ∧ s = lead ++ trimLeft s :=
  ⟨s.takeWhile isBlank, List.all_takeWhile, List.takeWhile_append_dropWhile.symm⟩

/-- What a text starts with behind its leading blanks is no blank. -/
theorem startsTight_of_trimLeft (h : trimLeft s = t ++ rest) (hne : t ≠ []) : StartsTight t := by
  obtain ⟨c, t, rfl⟩ := List.exists_cons_of_ne_nil hne
  have hhead : (s.dropWhile isBlank).head? = some c := congrArg List.head? h
  exact .cons (head?_dropWhile hhead) t

private theorem trimLeft_trimLeft (s : List Char) : trimLeft (trimLeft s) = trimLeft s := by
  by_cases hs : trimLeft s = []
  · rw [hs]
    rfl
  · exact trimLeft_of_startsTight (startsTight_of_trimLeft (List.append_nil _).symm hs)

private theorem takeChar_eq_some_iff {d : Char} : takeChar d s = some rest ↔ s = d :: rest := by
  cases s with
  | nil => simp [takeChar]
  | cons c s =>
    by_cases h : c = d
    · simp [takeChar, h]
    · simp [takeChar, h]

private theorem skipBlanks1_eq_some_iff :
    skipBlanks1 s = some rest ↔
      ∃ gap, allBlank gap = true ∧ gap ≠ [] ∧ s = gap ++ rest ∧ trimLeft rest = rest := by
  constructor
  · intro h
    cases s with
    | nil => cases h
    | cons c s =>
      by_cases hc : isBlank c = true
      · rw [skipBlanks1, if_pos hc] at h
        obtain rfl := Option.some.inj h
        obtain ⟨lead, hlead, hs⟩ := eq_append_trimLeft s
        refine ⟨c :: lead, ?_, List.cons_ne_nil c lead, congrArg (c :: ·) hs, trimLeft_trimLeft s⟩
        exact List.all_eq_true.mpr (List.forall_mem_cons.mpr ⟨hc, List.all_eq_true.mp hlead⟩)
      · rw [skipBlanks1, if_neg hc] at h
        cases h
  · rintro ⟨gap, hgap, hne, rfl, ht⟩
    obtain ⟨c, gap, rfl⟩ := List.exists_cons_of_ne_nil hne
    have hall := List.forall_mem_cons.mp (List.all_eq_true.mp hgap)
    rw [List.cons_append, skipBlanks1, if_pos hall.1,
      trimLeft_append_blanks (List.all_eq_true.mpr hall.2), ht]

private theorem takeName_eq_some_iff {name : List Char} :
    takeName s = some (name, rest) ↔
      s = name ++ rest ∧ isWordText name = true ∧
        ∀ c, rest.head? = some c → isWord c = false := by
  constructor
  · intro h
    unfold takeName takeWord at h
    by_cases hn : (s.takeWhile isWord).isEmpty = true
    · simp [hn] at h
    · simp only [hn, Bool.false_eq_true, if_false, Option.some.injEq, Prod.mk.injEq] at h
      obtain ⟨rfl, rfl⟩ := h
      refine ⟨List.takeWhile_append_dropWhile.symm, ?_, fun c => head?_dropWhile⟩
      rw [isWordText, List.all_takeWhile, Bool.and_true, Bool.not_eq_true']
      exact Bool.eq_false_iff.mpr hn
  · rintro ⟨rfl, hw, hstop⟩
    rw [isWordText, Bool.and_eq_true, Bool.not_eq_true'] at hw
    obtain ⟨htake, hdrop⟩ := takeWhile_run (List.all_eq_true.mp hw.2) hstop
    simp [takeName, takeWord, htake, hdrop, hw.1]

/-- A word's text is not empty and has word characters only. -/
theorem isWordText_eq_true_iff : isWordText s = true ↔ s ≠ [] ∧ ∀ c ∈ s, isWord c = true := by
  simp [isWordText]

/-- A word's text has no blanks at its ends. -/
theorem tight_of_isWordText (h : isWordText s = true) : Tight s := by
  obtain ⟨hne, hall⟩ := isWordText_eq_true_iff.mp h
  exact tight_of_forall hne fun c hc => isBlank_eq_false_of_isWord (hall c hc)

/-- Behind blanks or at a character that is no word character, a word ends. -/
theorem isWord_head?_eq_false {gap : List Char} {c d : Char} (hgap : allBlank gap = true)
    (hd : isWord d = false) (hc : (gap ++ d :: t).head? = some c) : isWord c = false := by
  cases gap with
  | nil =>
    obtain rfl := Option.some.inj hc
    exact hd
  | cons e gap =>
    obtain rfl := Option.some.inj hc
    have hblank := isBlank_of_mem_allBlank hgap List.mem_cons_self
    by_contra hw
    rw [isBlank_eq_false_of_isWord (by simpa using hw)] at hblank
    cases hblank

/-! ## Parts of definitions -/

/-- What stands in front of a definition: blanks, and attributes with blanks behind them if there
are brackets. -/
inductive Lead : Option (List Char) → List Char → Prop where
  | bare {lead : List Char} (h : allBlank lead = true) : Lead none lead
  | listed {lead attributes gap : List Char} (hlead : allBlank lead = true)
    (hattributes : ∀ c ∈ attributes, c ≠ ']') (hgap : allBlank gap = true) :
    Lead (some attributes) (lead ++ '[' :: (attributes ++ ']' :: gap))

/-- Brackets that are taken stand behind blanks, and blanks may stand behind them. -/
theorem exists_lead_of_takeBrackets {brackets : Option (List Char)}
    (h : takeBrackets (trimLeft s) = some (brackets, rest)) :
    ∃ lead, Lead brackets lead ∧ s = lead ++ trimLeft rest := by
  obtain ⟨lead, hlead, hs⟩ := eq_append_trimLeft s
  unfold takeBrackets at h
  split at h
  · next inner hinner =>
    split at h
    · next c after hafter =>
      obtain ⟨rfl, rfl⟩ := Prod.mk.inj (Option.some.inj h)
      have hclose : (c != ']') = false :=
        head?_dropWhile (p := (· != ']')) (s := inner) (by rw [hafter]; rfl)
      obtain rfl : c = ']' := by simpa using hclose
      obtain ⟨gap, hgap, ha⟩ := eq_append_trimLeft after
      have hsplit : inner = inner.takeWhile (· != ']') ++ ']' :: after := by
        rw [← hafter, List.takeWhile_append_dropWhile]
      refine ⟨_, .listed hlead (fun c hc => by simpa using List.mem_takeWhile_imp hc) hgap, ?_⟩
      rw [List.append_assoc, List.cons_append, List.append_assoc, List.cons_append, ← ha, ← hsplit,
        ← hinner, ← hs]
    · cases h
  · obtain ⟨rfl, rfl⟩ := Prod.mk.inj (Option.some.inj h)
    exact ⟨lead, .bare hlead, by rw [trimLeft_trimLeft, ← hs]⟩

/-- Attributes are taken off the front of a text that starts with neither a blank nor a bracket. -/
theorem Lead.takeBrackets {brackets : Option (List Char)} {lead : List Char}
    (h : Lead brackets lead) (ht : StartsTight t) (hb : t.head? ≠ some '[') :
    ∃ rest, Udl.takeBrackets (trimLeft (lead ++ t)) = some (brackets, rest) ∧
      trimLeft rest = t := by
  cases h with
  | bare hlead =>
    refine ⟨t, ?_, trimLeft_of_startsTight ht⟩
    rw [trimLeft_append hlead ht]
    obtain ⟨c, t, rfl, -⟩ := ht
    unfold Udl.takeBrackets
    split
    · next heq =>
      obtain ⟨rfl, -⟩ := List.cons.inj heq
      exact absurd rfl hb
    · rfl
  | @listed lead attributes gap hlead hattributes hgap =>
    refine ⟨gap ++ t, ?_, trimLeft_append hgap ht⟩
    rw [List.append_assoc, List.cons_append, trimLeft_append hlead (.cons rfl _), List.append_assoc,
      List.cons_append, takeBrackets_cons hattributes]

/-- More blanks may stand in front of a definition. -/
theorem Lead.append_blanks {brackets : Option (List Char)} {lead blanks : List Char}
    (hblanks : allBlank blanks = true) (h : Lead brackets lead) : Lead brackets (blanks ++ lead) := by
  cases h with
  | bare hlead => exact .bare (by rw [allBlank_append, hblanks, hlead]; rfl)
  | listed hlead hattributes hgap =>
    rw [← List.append_assoc]
    exact .listed (by rw [allBlank_append, hblanks, hlead]; rfl) hattributes hgap

/-- A keyword as it is written; blanks stand between the words of a keyword. -/
inductive KeywordText : Keyword → List Char → Prop where
  | namespaceDecl : KeywordText .namespaceDecl "namespace".toList
  | dictionary : KeywordText .dictionary "dictionary".toList
  | enum : KeywordText .enum "enum".toList
  | interface : KeywordText .interface "interface".toList
  | callbackInterface {gap : List Char} (hgap : allBlank gap = true) (hne : gap ≠ []) :
    KeywordText .callbackInterface ("callback".toList ++ (gap ++ "interface".toList))

/-- A keyword starts with no blank. -/
theorem KeywordText.startsTight {k : Keyword} {word : List Char} (h : KeywordText k word) :
    StartsTight word := by
  cases h with
  | callbackInterface => exact .cons rfl _
  | _ => exact .cons rfl _

private theorem KeywordText.head?_append {k : Keyword} {word : List Char} (h : KeywordText k word)
    (t : List Char) : (word ++ t).head? ≠ some '[' := by
  cases h <;> exact fun he => absurd (Option.some.inj he) (by decide)

private theorem takeKeyword_eq_some_iff {k : Keyword} :
    takeKeyword s = some (k, rest) ↔
      ∃ word gap, KeywordText k word ∧ allBlank gap = true ∧ gap ≠ [] ∧
        s = word ++ (gap ++ rest) ∧ trimLeft rest = rest := by
  constructor
  · have simple {word : List Char} {k' : Keyword} (hword : KeywordText k' word)
        (h : (do
          let after ← skipBlanks1 (← afterPrefix? word s)
          return (k', after)) = some (k, rest)) :
        ∃ word gap, KeywordText k word ∧ allBlank gap = true ∧ gap ≠ [] ∧
          s = word ++ (gap ++ rest) ∧ trimLeft rest = rest := by
      simp only [Option.bind_eq_bind, Option.bind_eq_some_iff] at h
      obtain ⟨behind, hbehind, after, hafter, h⟩ := h
      cases h
      obtain ⟨gap, hgap, hne, rfl, ht⟩ := skipBlanks1_eq_some_iff.mp hafter
      exact ⟨word, gap, hword, hgap, hne, eq_append_of_afterPrefix? hbehind, ht⟩
    intro h
    simp only [takeKeyword, Option.orElse_eq_orElse, Option.orElse_eq_or,
      Option.or_eq_some_iff] at h
    rcases h with h | ⟨-, h | ⟨-, h | ⟨-, h | ⟨-, h⟩⟩⟩⟩
    · exact simple .namespaceDecl h
    · exact simple .dictionary h
    · exact simple .enum h
    · exact simple .interface h
    · simp only [Option.bind_eq_bind, Option.bind_eq_some_iff] at h
      obtain ⟨behind, hbehind, second, hsecond, behind', hbehind', after, hafter, h⟩ := h
      cases h
      obtain ⟨gap, hgap, hne, rfl, -⟩ := skipBlanks1_eq_some_iff.mp hsecond
      obtain ⟨gap', hgap', hne', rfl, ht⟩ := skipBlanks1_eq_some_iff.mp hafter
      refine ⟨_, gap', .callbackInterface hgap hne, hgap', hne', ?_, ht⟩
      rw [eq_append_of_afterPrefix? hbehind, eq_append_of_afterPrefix? hbehind']
      simp
  · rintro ⟨word, gap, hword, hgap, hne, rfl, ht⟩
    have hskip := skipBlanks1_eq_some_iff.mpr ⟨gap, hgap, hne, rfl, ht⟩
    cases hword with
    | @callbackInterface gap' hgap' hne' =>
      have hsecond : skipBlanks1 (gap' ++ ("interface".toList ++ (gap ++ rest))) =
          some ("interface".toList ++ (gap ++ rest)) :=
        skipBlanks1_eq_some_iff.mpr ⟨gap', hgap', hne', rfl, rfl⟩
      have hcompound (t : List Char) : takeKeyword ("callback".toList ++ t) = (do
          let second ← skipBlanks1 t
          let after ← skipBlanks1 (← afterPrefix? "interface".toList second)
          return (.callbackInterface, after)) := rfl
      rw [List.append_assoc, List.append_assoc, hcompound, hsecond]
      simp only [Option.bind_eq_bind, Option.bind_some, afterPrefix?_append, hskip]
      rfl
    | _ => simp [takeKeyword, afterPrefix?, hskip]

/-! ## Definitions with a body -/

/-- The parts of a definition with a body. -/
structure BlockText where
  brackets : Option (List Char)
  lead : List Char
  keyword : Keyword
  word : List Char
  gap : List Char
  name : List Char
  opening : List Char
  body : List Char
  closing : List Char
  isLead : Lead brackets lead
  isKeyword : KeywordText keyword word
  blank_gap : allBlank gap = true
  gap_ne_nil : gap ≠ []
  isName : isWordText name = true
  blank_opening : allBlank opening = true
  unbraced : ∀ c ∈ body, isBrace c = false
  blank_closing : allBlank closing = true

namespace BlockText

/-- What stands in front of the name. -/
def toName (w : BlockText) : List Char := w.lead ++ (w.word ++ w.gap)

/-- What stands in front of the body. -/
def toBody (w : BlockText) : List Char := w.toName ++ (w.name ++ (w.opening ++ ['\x7b']))

/-- What stands behind the body. -/
def ending (w : BlockText) : List Char := '\x7d' :: (w.closing ++ [';'])

/-- The block as it is written. -/
def text (w : BlockText) : List Char := w.toBody ++ (w.body ++ w.ending)

/-- What is read of the definition in front of a number of characters. -/
def block (w : BlockText) (behind : Nat) : Block where
  attributes := Attributes.ofText? w.brackets
  keyword := w.keyword
  name := w.name
  fromName := w.text.length - w.toName.length + behind
  body := w.body
  fromBody := w.text.length - w.toBody.length + behind

/-- The text of a block, piece by piece in front of what follows. -/
theorem text_append (w : BlockText) (rest : List Char) :
    w.text ++ rest = w.lead ++ (w.word ++ (w.gap ++ (w.name ++ (w.opening ++
      '\x7b' :: (w.body ++ '\x7d' :: (w.closing ++ ';' :: rest)))))) := by
  simp [text, toBody, toName, ending]

private theorem block_eq (w : BlockText) (rest : List Char) :
    w.block rest.length = ⟨Attributes.ofText? w.brackets, w.keyword, w.name,
      (w.name ++ (w.opening ++ '\x7b' :: (w.body ++ '\x7d' :: (w.closing ++ ';' :: rest)))).length,
      w.body, (w.body ++ '\x7d' :: (w.closing ++ ';' :: rest)).length⟩ := by
  simp only [block, text, toBody, toName, ending, List.length_append, List.length_cons,
    List.length_nil, Block.mk.injEq, true_and]
  omega

/-- A written definition is recognised, whatever stands behind it. -/
theorem block?_text (w : BlockText) (rest : List Char) :
    block? (w.text ++ rest) = some (w.block rest.length, rest) := by
  rw [text_append, block_eq]
  set atEnd := '\x7d' :: (w.closing ++ ';' :: rest) with hend
  set atBody := w.body ++ atEnd with hbody
  set afterName := w.opening ++ '\x7b' :: atBody with hopen
  set atName := w.name ++ afterName with hname
  have hword := w.isKeyword.startsTight.append (w.gap ++ atName)
  obtain ⟨afterLead, hlead, htrim⟩ := w.isLead.takeBrackets hword (w.isKeyword.head?_append _)
  have hkeyword : takeKeyword (w.word ++ (w.gap ++ atName)) = some (w.keyword, atName) := by
    apply takeKeyword_eq_some_iff.mpr
    exact ⟨w.word, w.gap, w.isKeyword, w.blank_gap, w.gap_ne_nil, rfl,
      trimLeft_of_startsTight ((tight_of_isWordText w.isName).starts.append _)⟩
  have htake : takeName atName = some (w.name, afterName) := by
    apply takeName_eq_some_iff.mpr
    exact ⟨rfl, w.isName, fun c hc => isWord_head?_eq_false w.blank_opening (by decide) hc⟩
  have hopening : takeChar '\x7b' (trimLeft afterName) = some atBody :=
    takeChar_eq_some_iff.mpr (trimLeft_append w.blank_opening (.cons rfl _))
  have hinside : ∀ c ∈ w.body, (!isBrace c) = true := fun c hc => by simp [w.unbraced c hc]
  have hbrace : ∀ c, atEnd.head? = some c → (!isBrace c) = false := by
    intro c hc
    obtain rfl := Option.some.inj hc
    rfl
  have hwhile : atBody.takeWhile (!isBrace ·) = w.body := (takeWhile_run hinside hbrace).1
  have hdrop : takeChar '\x7d' (atBody.dropWhile (!isBrace ·)) = some (w.closing ++ ';' :: rest) :=
    takeChar_eq_some_iff.mpr (takeWhile_run hinside hbrace).2
  have hclosing : takeChar ';' (trimLeft (w.closing ++ ';' :: rest)) = some rest :=
    takeChar_eq_some_iff.mpr (trimLeft_append w.blank_closing (.cons rfl _))
  simp only [block?, hlead, htrim, hkeyword, htake, hopening, hwhile, hdrop, hclosing,
    Option.bind_eq_bind, Option.bind_some]
  rfl

/-- What is recognised is a written definition. -/
theorem exists_of_block? {b : Block} (h : block? s = some (b, rest)) :
    ∃ w : BlockText, s = w.text ++ rest ∧ b = w.block rest.length := by
  simp only [block?, Option.bind_eq_bind, Option.bind_eq_some_iff] at h
  obtain ⟨⟨brackets, afterBrackets⟩, hbrackets, ⟨keyword, atName⟩, hkeyword, ⟨name, afterName⟩,
    hname, atBody, hopening, afterBody, hbody, rest', hclosing, h⟩ := h
  cases h
  obtain ⟨lead, hlead, rfl⟩ := exists_lead_of_takeBrackets hbrackets
  obtain ⟨word, gap, hword, hgap, hne, hatKeyword, -⟩ := takeKeyword_eq_some_iff.mp hkeyword
  obtain ⟨hatName, hisName, -⟩ := takeName_eq_some_iff.mp hname
  obtain ⟨opening, hblankOpening, hafterName⟩ := eq_append_trimLeft afterName
  obtain ⟨closing, hblankClosing, hafterBody⟩ := eq_append_trimLeft afterBody
  have hbodyText : atBody = atBody.takeWhile (!isBrace ·) ++ '\x7d' :: afterBody := by
    rw [← takeChar_eq_some_iff.mp hbody, List.takeWhile_append_dropWhile]
  dsimp only at hatKeyword hatName hisName hopening hafterName hclosing hafterBody
  rw [takeChar_eq_some_iff.mp hopening] at hafterName
  rw [takeChar_eq_some_iff.mp hclosing] at hafterBody
  let w : BlockText := {
    brackets, lead, keyword, word, gap, name, opening, closing
    body := atBody.takeWhile (!isBrace ·)
    isLead := hlead
    isKeyword := hword
    blank_gap := hgap
    gap_ne_nil := hne
    isName := hisName
    blank_opening := hblankOpening
    unbraced := fun c hc => by simpa using List.mem_takeWhile_imp hc
    blank_closing := hblankClosing }
  have hbehind : w.body ++ '\x7d' :: (w.closing ++ ';' :: rest) = atBody := by
    rw [← hafterBody, ← hbodyText]
  have hnamed : w.name ++ (w.opening ++ '\x7b' :: (w.body ++ '\x7d' :: (w.closing ++ ';' :: rest))) =
      atName := by
    rw [hbehind, ← hafterName, ← hatName]
  refine ⟨w, ?_, ?_⟩
  · rw [text_append, hnamed, ← hatKeyword]
  · rw [block_eq, hnamed, hbehind]

end BlockText

/-! ## Other names for types -/

/-- The parts of another name for a type; `content` is the type, the name and the blanks around
them. -/
structure AliasText where
  brackets : Option (List Char)
  lead : List Char
  gap : List Char
  content : List Char
  typed : TypedName
  isLead : Lead brackets lead
  blank_gap : allBlank gap = true
  gap_ne_nil : gap ≠ []
  typeChars : ∀ c ∈ content, isTypeChar c = true
  starts : StartsTight content
  isTyped : TypedName.split? (gap.length ≥ 3) (trimRight content) = some typed

namespace AliasText

/-- The custom type as it is written. -/
def text (w : AliasText) : List Char :=
  w.lead ++ ("typedef".toList ++ (w.gap ++ (w.content ++ [';'])))

/-- The custom type as it is read. -/
def declared (w : AliasText) : Alias := ⟨w.typed.type, w.typed.name⟩

/-- The text of a custom type, piece by piece in front of what follows. -/
theorem text_append (w : AliasText) (rest : List Char) :
    w.text ++ rest = w.lead ++ ("typedef".toList ++ (w.gap ++ (w.content ++ ';' :: rest))) := by
  simp only [text, List.append_assoc, List.singleton_append]

-- Neither a blank nor a bracket is in front of the keyword.
private theorem exists_takeBrackets (w : AliasText) (t : List Char) :
    ∃ after, takeBrackets (trimLeft (w.lead ++ ("typedef".toList ++ t))) = some (w.brackets, after) ∧
      trimLeft after = "typedef".toList ++ t :=
  w.isLead.takeBrackets (.cons rfl _) fun he => absurd (Option.some.inj he) (by decide)

/-- Another name for a type is no definition with a body. -/
theorem block?_text (w : AliasText) (rest : List Char) : block? (w.text ++ rest) = none := by
  rw [text_append]
  set atGap := w.gap ++ (w.content ++ ';' :: rest)
  obtain ⟨after, hlead, htrim⟩ := w.exists_takeBrackets atGap
  have hkeyword : takeKeyword ("typedef".toList ++ atGap) = none := rfl
  simp only [block?, hlead, htrim, hkeyword, Option.bind_eq_bind, Option.bind_some, Option.bind_none]

/-- Another name for a type is recognised, whatever stands behind it. -/
theorem alias?_text (w : AliasText) (rest : List Char) :
    alias? (w.text ++ rest) = some (w.declared, rest) := by
  rw [text_append]
  set atContent := w.content ++ ';' :: rest with hcontent
  obtain ⟨after, hlead, htrim⟩ := w.exists_takeBrackets (w.gap ++ atContent)
  have hskip : skipBlanks1 (w.gap ++ atContent) = some atContent := by
    apply skipBlanks1_eq_some_iff.mpr
    exact ⟨w.gap, w.blank_gap, w.gap_ne_nil, rfl, trimLeft_of_startsTight (w.starts.append _)⟩
  have hmargin : (w.gap ++ atContent).length - atContent.length = w.gap.length := by
    rw [List.length_append, Nat.add_sub_cancel]
  have hsemi : ∀ c, (';' :: rest).head? = some c → isTypeChar c = false := by
    intro c hc
    obtain rfl := Option.some.inj hc
    decide
  have hwhile : atContent.takeWhile isTypeChar = w.content := (takeWhile_run w.typeChars hsemi).1
  have hdrop : takeChar ';' (atContent.dropWhile isTypeChar) = some rest :=
    takeChar_eq_some_iff.mpr (takeWhile_run w.typeChars hsemi).2
  simp only [alias?, hlead, htrim, afterPrefix?_append, hskip, hmargin, hwhile, hdrop, w.isTyped,
    Option.bind_eq_bind, Option.bind_some]
  rfl

/-- What is recognised is written so. -/
theorem exists_of_alias? {a : Alias} (h : alias? s = some (a, rest)) :
    ∃ w : AliasText, s = w.text ++ rest ∧ a = w.declared := by
  simp only [alias?, Option.bind_eq_bind, Option.bind_eq_some_iff] at h
  obtain ⟨⟨brackets, afterBrackets⟩, hbrackets, afterWord, hword, atType, hskip, typed, htyped,
    rest', hsemi, h⟩ := h
  cases h
  obtain ⟨lead, hlead, rfl⟩ := exists_lead_of_takeBrackets hbrackets
  obtain ⟨gap, hgap, hne, rfl, htight⟩ := skipBlanks1_eq_some_iff.mp hskip
  rw [List.length_append, Nat.add_sub_cancel] at htyped
  have hcontent : atType = atType.takeWhile isTypeChar ++ ';' :: rest := by
    rw [← takeChar_eq_some_iff.mp hsemi, List.takeWhile_append_dropWhile]
  have hstarts : StartsTight (atType.takeWhile isTypeChar) := by
    apply startsTight_of_trimLeft (htight.trans hcontent)
    intro hnil
    rw [hnil] at htyped
    cases htyped
  refine ⟨{
    brackets, lead, gap, typed
    content := atType.takeWhile isTypeChar
    isLead := hlead
    blank_gap := hgap
    gap_ne_nil := hne
    typeChars := fun c hc => List.mem_takeWhile_imp hc
    starts := hstarts
    isTyped := htyped }, ?_, rfl⟩
  rw [text_append, ← hcontent, eq_append_of_afterPrefix? hword]

end AliasText

end BindGen.Udl
