import BindGen.Proofs.Udl.Members

/-!
# The bodies of definitions

A body is a list of members, each between two semicolons, or a list of variants in quotes. Neither
holds a brace, and of the characters of a member none is a semicolon, so a body is found whole and
read member by member.
-/

namespace BindGen.Udl

open Text

/-! ## The characters of a definition -/

/-- The characters of definitions, apart from braces and semicolons. -/
def isPartChar (c : Char) : Bool :=
  isTypeChar c || c == '(' || c == ')' || c == '[' || c == ']' || c == '=' || c == '"'

private theorem isPartChar_of_isTypeChar {c : Char} (h : isTypeChar c = true) :
    isPartChar c = true := by
  simp [isPartChar, h]

private theorem isPartChar_of_isWord {c : Char} (h : isWord c = true) : isPartChar c = true :=
  isPartChar_of_isTypeChar (Grammar.isTypeChar_of_isWord h)

/-- A character that is none of these does not occur. -/
theorem ne_of_isPartChar {d : Char} (hd : isPartChar d = false) (c : Char)
    (hc : isPartChar c = true) : c ≠ d := by
  rintro rfl
  rw [hc] at hd
  cases hd

namespace Grammar

/-- The characters of a word may stand in a part. -/
theorem isPartChar_word (w : Word) : ∀ c ∈ w.chars, isPartChar c = true :=
  fun _ hc => isPartChar_of_isWord (w.isWord_of_mem hc)

private theorem isPartChar_joined {xs : List (List Char)}
    (hx : ∀ x ∈ xs, ∀ c ∈ x, isPartChar c = true) : ∀ c ∈ joined xs, isPartChar c = true :=
  forall_mem_joined (P := (isPartChar · = true)) rfl rfl hx

/-- The characters of attributes may stand in a part. -/
theorem isPartChar_listText (as : List Attribute) :
    ∀ c ∈ Attribute.listText as, isPartChar c = true := by
  cases as with
  | nil => simp [Attribute.listText]
  | cons a as =>
    have hinner : ∀ c ∈ joined ((a :: as).map Attribute.text), isPartChar c = true := by
      refine isPartChar_joined fun x hx => ?_
      obtain ⟨b, -, rfl⟩ := List.mem_map.mp hx
      exact b.of_mem_text (P := (isPartChar · = true)) (fun _ => isPartChar_of_isWord) rfl
    rw [Attribute.listText]
    · simp only [List.forall_mem_append, List.forall_mem_cons]
      exact ⟨rfl, hinner, rfl, rfl, List.forall_mem_nil _⟩
    · exact List.cons_ne_nil a as

private theorem isPartChar_field (f : Field) : ∀ c ∈ f.text, isPartChar c = true :=
  fun c hc => isPartChar_of_isTypeChar (f.isTypeChar_of_mem c hc)

private theorem isPartChar_argumentsText (inputs : List Field) :
    ∀ c ∈ argumentsText inputs, isPartChar c = true := by
  have hinner : ∀ c ∈ joined (inputs.map Field.text), isPartChar c = true := by
    refine isPartChar_joined fun x hx => ?_
    obtain ⟨f, -, rfl⟩ := List.mem_map.mp hx
    exact isPartChar_field f
  simp only [argumentsText, List.forall_mem_append, List.forall_mem_cons]
  exact ⟨rfl, hinner, rfl, List.forall_mem_nil _⟩

private theorem tight_callable (as : List Attribute) {s : List Char} (hs : StartsTight s)
    (inputs : List Field) : Tight (Attribute.listText as ++ (s ++ argumentsText inputs)) where
  starts := by
    cases as with
    | nil => exact hs.append _
    | cons a as => exact .cons rfl _
  ends := .append _ (.append _ (.cons _ (.append _ (.singleton rfl))))

/-- A member between two semicolons: no outer blanks, and no other characters than those of parts.
-/
structure IsPart (s : List Char) : Prop where
  tight : Tight s
  chars : ∀ c ∈ s, isPartChar c = true

/-- The text of a field is a part. -/
theorem Field.isPart (f : Field) : IsPart f.text := ⟨f.tight, isPartChar_field f⟩

/-- The text of a function is a part. -/
theorem Function.isPart (f : Function) : IsPart f.text where
  tight := f.text_eq ▸ tight_callable f.attributes f.tight_head.starts f.inputs
  chars := by
    simp only [f.text_eq, List.forall_mem_append]
    exact ⟨isPartChar_listText _,
      fun c hc => isPartChar_of_isTypeChar (f.isTypeChar_of_mem_head c hc),
      isPartChar_argumentsText _⟩

private theorem Constructor.isPart (c : Constructor) : IsPart c.text where
  tight := tight_callable c.attributes (.cons rfl _) c.inputs
  chars := by
    have hword : ∀ d ∈ "constructor".toList, isPartChar d = true := List.all_eq_true.mp (by decide)
    simp only [text, List.forall_mem_append]
    exact ⟨isPartChar_listText _, hword, isPartChar_argumentsText _⟩

/-- The text of a member is a part. -/
theorem Member.isPart (m : Member) : IsPart m.text := by
  cases m with
  | constructor c => exact c.isPart
  | method f => exact f.isPart

/-! ## Bodies -/

private theorem membersText_cons (m : List Char) (ms : List (List Char)) :
    membersText (m :: ms) = ' ' :: (m ++ ';' :: membersText ms) := by
  simp [membersText]

/-- The members of a body are the texts that are written there. -/
theorem map_text_members (offset : Nat) {ms : List (List Char)} (h : ∀ m ∈ ms, IsPart m) :
    (members offset (membersText ms)).map Placed.text = ms := by
  rw [members]
  induction ms generalizing offset with
  | nil => rfl
  | cons m ms ih =>
    obtain ⟨htight, hchars⟩ := h m List.mem_cons_self
    have hsemi : ∀ c ∈ ' ' :: m, (c == ';') = false := by
      simp only [List.forall_mem_cons]
      exact ⟨rfl, fun c hc => by simpa using ne_of_isPartChar (by decide) c (hchars c hc)⟩
    have hcut : cut (· == ';') (membersText (m :: ms)) =
        (' ' :: m) :: cut (· == ';') (membersText ms) := by
      rw [membersText_cons]
      exact cut_append_cons hsemi rfl (membersText ms)
    have hblank : allBlank (' ' :: m) = false := by
      rw [← List.singleton_append, allBlank_append, htight.starts.allBlank_eq_false]
      rfl
    have htrim : trim (' ' :: m) = m := by
      simpa using trim_append_append (a := [' ']) (b := []) rfl htight rfl
    rw [hcut, placed]
    simp [hblank, htrim, ih _ fun n hn => h n (List.mem_cons_of_mem m hn)]

/-- The last member of a body has its semicolon. -/
theorem isTerminated_membersText (ms : List (List Char)) :
    isTerminated (membersText ms) = true := by
  have hend (m : List Char) (ms : List (List Char)) :
      ∃ front, membersText (m :: ms) = (front ++ [';']) ++ [' '] := by
    induction ms generalizing m with
    | nil => exact ⟨' ' :: m, by simp [membersText]⟩
    | cons n ms ih =>
      obtain ⟨front, h⟩ := ih n
      refine ⟨' ' :: (m ++ ';' :: front), ?_⟩
      rw [membersText_cons, h]
      simp
  cases ms with
  | nil => rfl
  | cons m ms =>
    obtain ⟨front, h⟩ := hend m ms
    rw [isTerminated, h, trimRight_append rfl (.append front (.singleton rfl))]
    simp

private theorem mapM_found {α β : Type} {found : List (List Char × Nat)} {xs : List α}
    {text : α → List Char} {readOne : Nat → List Char → Except UdlError β} {result : α → β}
    (h : found.map Prod.fst = xs.map text)
    (hread : ∀ x line, readOne line (text x) = .ok (result x)) :
    (found.mapM fun (member, line) => readOne line member) = .ok (xs.map result) := by
  induction xs generalizing found with
  | nil =>
    obtain rfl := List.map_eq_nil_iff.mp h
    rfl
  | cons x xs ih =>
    cases found with
    | nil => cases h
    | cons e found =>
      obtain ⟨member, line⟩ := e
      obtain ⟨rfl, hrest⟩ := List.cons.inj h
      rw [List.mapM_cons, ih hrest]
      dsimp only
      rw [hread]
      rfl

/-- What reads each member, on whichever line it stands, reads all members of a body. -/
theorem readMembers_membersText {α β : Type} {text : α → List Char} {result : α → β}
    (source : List Char) (readOne : Nat → List Char → Except UdlError β)
    (hpart : ∀ x, IsPart (text x))
    (hread : ∀ x line, readOne line (text x) = .ok (result x)) (offset : Nat) (xs : List α) :
    ∃ found, readMembers source offset (membersText (xs.map text)) = .ok found ∧
      (found.mapM fun (member, line) => readOne line member) = .ok (xs.map result) := by
  have hall : ∀ m ∈ xs.map text, IsPart m := fun m hm => by
    obtain ⟨x, -, rfl⟩ := List.mem_map.mp hm
    exact hpart x
  refine ⟨_, by rw [readMembers, isTerminated_membersText], mapM_found ?_ hread⟩
  rw [List.map_map]
  exact map_text_members offset hall

/-- The characters of a body: those of parts, and semicolons. -/
def IsBody (body : List Char) : Prop := ∀ c ∈ body, isPartChar c = true ∨ c = ';'

/-- A body has no brace. -/
theorem IsBody.isBrace {body : List Char} (h : IsBody body) : ∀ c ∈ body, isBrace c = false := by
  intro c hc
  rcases h c hc with hp | rfl
  · simp [Udl.isBrace, ne_of_isPartChar (d := '\x7b') (by decide) c hp,
      ne_of_isPartChar (d := '\x7d') (by decide) c hp]
  · decide

/-- Members that are parts make a body. -/
theorem isBody_membersText {α : Type} {text : α → List Char} (hpart : ∀ x, IsPart (text x))
    (xs : List α) : IsBody (membersText (xs.map text)) := by
  induction xs with
  | nil =>
    intro c hc
    obtain rfl := List.mem_singleton.mp hc
    exact .inl (by decide)
  | cons x xs ih =>
    rw [List.map_cons, membersText_cons]
    simp only [IsBody, List.forall_mem_append, List.forall_mem_cons]
    exact ⟨.inl (by decide), fun c hc => .inl ((hpart x).chars c hc), .inr trivial, ih⟩

/-! ## Variants -/

/-- A variant in quotes. -/
theorem isPart_quoted (v : Word) : IsPart ('"' :: (v.chars ++ ['"'])) where
  tight := ⟨.cons rfl _, .cons _ (.append _ (.singleton rfl))⟩
  chars := by
    simp only [List.forall_mem_append, List.forall_mem_cons]
    exact ⟨by decide, isPartChar_word v, by decide, List.forall_mem_nil _⟩

private theorem variantName?_quoted (v : Word) :
    variantName? ('"' :: (v.chars ++ ['"'])) = some v.chars := by
  have hsplit : splitTail (· == '"') (v.chars ++ ['"']) = (v.chars, ['"']) :=
    splitTail_append_of_forall (by simp) fun c hc => by
      simpa using v.ne_of_mem (List.mem_of_getLast? hc) (by decide)
  simp [variantName?, hsplit, v.isWord]

/-- The text of variants is read as those variants, none of them with fields. -/
theorem readVariants_variantsText (line : Nat) (variants : List Word) :
    readVariants line (variantsText variants) = .ok (variants.map fun v => ⟨v.string, []⟩) := by
  have hblank : Unsplit (cut (· == ',')) [' '] := unsplit_cut (by simp)
  have htrail : ∃ trail, variantsText variants =
      [' '] ++ (joined (variants.map fun v => '"' :: (v.chars ++ ['"'])) ++ trail) ∧
        allBlank trail = true ∧ Unsplit (cut (· == ',')) trail := by
    refine ⟨_, rfl, ?_⟩
    split
    · exact ⟨rfl, unsplit_cut (by simp)⟩
    · exact ⟨rfl, hblank⟩
  obtain ⟨trail, htext, hb, hu⟩ := htrail
  have hsplit : ∀ x ∈ variants.map fun v => '"' :: (v.chars ++ ['"']),
      Tight x ∧ Unsplit (cut (· == ',')) x := by
    intro x hx
    obtain ⟨v, -, rfl⟩ := List.mem_map.mp hx
    refine ⟨(isPart_quoted v).tight, unsplit_cut ?_⟩
    simp only [List.forall_mem_append, List.forall_mem_cons]
    exact ⟨rfl, fun c hc => by simpa using v.ne_of_mem hc (by decide), rfl, List.forall_mem_nil _⟩
  rw [readVariants, htext, filter_trim_joined isSplitter_cut hblank rfl hblank hb hu hsplit]
  refine mapM_map fun v _ => ?_
  rw [variantName?_quoted]
  rfl

/-- Variants make a body. -/
theorem isBody_variantsText (variants : List Word) : IsBody (variantsText variants) := by
  have hinner : ∀ c ∈ joined (variants.map fun v => '"' :: (v.chars ++ ['"'])),
      isPartChar c = true := by
    refine isPartChar_joined fun x hx => ?_
    obtain ⟨v, -, rfl⟩ := List.mem_map.mp hx
    exact (isPart_quoted v).chars
  simp only [IsBody, variantsText, List.forall_mem_append, List.forall_mem_cons]
  refine ⟨.inl (by decide), fun c hc => .inl (hinner c hc), fun c hc => .inl ?_⟩
  split at hc
  · cases hc
  · obtain rfl := List.mem_singleton.mp hc
    decide

end Grammar
end BindGen.Udl
