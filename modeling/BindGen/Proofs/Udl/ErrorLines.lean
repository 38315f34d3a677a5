import BindGen.Proofs.Udl.Sequence

/-!
# Where reading stops

A text that is no interface definition is refused for the first construct that cannot be read: a
place where no definition starts, a second namespace, a member, or an enum with a variant that is
none. The error names the line on which this construct stands in the text as it was given, because
blanking comments out moves no line. A text in which nothing is refused can only lack its namespace.
-/

namespace BindGen.Udl

open Text

variable {crate : Value} {source s m : List Char} {line : Nat} {name : String} {e : UdlError}

/-! ## Lines -/

/-- Blanking comments out leaves each line feed at its place. -/
theorem lineFeeds_take_blankComments (inComment : Bool) (s : List Char) (n : Nat) :
    lineFeeds ((blankComments inComment s).take n) = lineFeeds (s.take n) := by
  unfold lineFeeds
  fun_induction blankComments inComment s generalizing n with
  | case1 => rfl
  | case2 inComment rest ih =>
    cases n with
    | zero => rfl
    | succ n => rw [List.take_succ_cons, List.take_succ_cons, List.count_cons, List.count_cons, ih]
  | case3 inComment c rest hc starts hblank ih =>
    have hfeed : c ≠ '\n' := fun he => hc he
    cases n with
    | zero => rfl
    | succ n =>
      rw [List.take_succ_cons, List.take_succ_cons, List.count_cons_of_ne hfeed,
        List.count_cons_of_ne (by decide), ih]
  | case4 inComment c rest hc starts hblank ih =>
    cases n with
    | zero => rfl
    | succ n => rw [List.take_succ_cons, List.take_succ_cons, List.count_cons, List.count_cons, ih]

/-- The line of a place is that of the same place in the text with its comments. -/
theorem lineAt_blankComments (text : List Char) (n : Nat) :
    lineAt (blankComments false text) n = lineFeeds (text.take n) + 1 :=
  congrArg (· + 1) (lineFeeds_take_blankComments false text n)

/-! ## Members that are refused -/

/-- The first text of a list that is not recognised. -/
def FirstUnfit {α : Type} (recognise : List Char → Option α) (texts : List (List Char))
    (t : List Char) : Prop :=
  ∃ before after, texts = before ++ t :: after ∧ (∀ a ∈ before, recognise a ≠ none) ∧
    recognise t = none

/-- Texts that are read one by one are refused for the first that is not recognised. -/
theorem mapM_eq_error_iff_firstUnfit {α β : Type} {recognise : List Char → Option α}
    {step : List Char → Except UdlError β} {error : List Char → UdlError}
    (hstep : ∀ t e, step t = .error e ↔ recognise t = none ∧ e = error t)
    {texts : List (List Char)} :
    texts.mapM step = .error e ↔ ∃ t, FirstUnfit recognise texts t ∧ e = error t := by
  have hok (t : List Char) : (∃ b, step t = .ok b) ↔ recognise t ≠ none := by
    simp [exists_eq_ok_iff, hstep]
  simp only [mapM_eq_error_iff, hok, hstep]
  constructor
  · rintro ⟨before, t, after, htexts, hbefore, hnone, he⟩
    exact ⟨t, ⟨before, after, htexts, hbefore, hnone⟩, he⟩
  · rintro ⟨t, ⟨before, after, htexts, hbefore, hnone⟩, he⟩
    exact ⟨before, t, after, htexts, hbefore, hnone, he⟩

/-- Why a member of a definition is refused; the line is that of the member. -/
inductive Refuses : Keyword → List Char → (Nat → UdlError) → Prop where
  | field {m : List Char} (h : field? m = none) :
    Refuses .dictionary m (.invalidField (String.ofList m))
  | function {k : Keyword} {m : List Char} (hk : k ≠ .dictionary ∧ k ≠ .enum)
    (hconstructor : k = .interface → constructor? m = none) (h : callable? m = none) :
    Refuses k m (.invalidFunction (String.ofList m))
  | argument {k : Keyword} {m t : List Char} {found : CallableText}
    (hk : k ≠ .dictionary ∧ k ≠ .enum) (hconstructor : k = .interface → constructor? m = none)
    (h : callable? m = some found) (hfirst : FirstUnfit field? (argumentTexts found.arguments) t) :
    Refuses k m (.invalidField (String.ofList t))
  | constructorArgument {m t : List Char} {found : ConstructorText}
    (h : constructor? m = some found)
    (hfirst : FirstUnfit field? (argumentTexts found.arguments) t) :
    Refuses .interface m (.invalidField (String.ofList t))

private theorem readField_eq_error_iff {t : List Char} : readField line t = .error e ↔
    field? t = none ∧ e = .invalidField (String.ofList t) line := by
  unfold readField
  cases field? t with
  | none => simp [eq_comm]
  | some typed => simp

private theorem readArguments_eq_error_iff {texts : List (List Char)} :
    texts.mapM (readField line) = .error e ↔
      ∃ t, FirstUnfit field? texts t ∧ e = .invalidField (String.ofList t) line :=
  mapM_eq_error_iff_firstUnfit fun _ _ => readField_eq_error_iff

private theorem readFunction_eq_error_iff {k : Keyword} (hk : k ≠ .dictionary ∧ k ≠ .enum)
    (hconstructor : k = .interface → constructor? m = none) :
    readFunction crate line m = .error e ↔ ∃ error, Refuses k m error ∧ e = error line := by
  constructor
  · intro h
    unfold readFunction at h
    cases hc : callable? m with
    | none =>
      rw [hc] at h
      cases h
      exact ⟨_, .function hk hconstructor hc, rfl⟩
    | some found =>
      rw [hc] at h
      rcases bind_eq_error_iff.mp h with h | ⟨inputs, -, h⟩
      · obtain ⟨t, ht, rfl⟩ := readArguments_eq_error_iff.mp h
        exact ⟨_, .argument hk hconstructor hc ht, rfl⟩
      · cases h
  · rintro ⟨error, h, rfl⟩
    cases h with
    | field => exact absurd rfl hk.1
    | function _ _ hc => rw [readFunction, hc]; rfl
    | argument _ _ hc ht =>
      rw [readFunction, hc]
      exact bind_eq_error_iff.mpr (.inl (readArguments_eq_error_iff.mpr ⟨_, ht, rfl⟩))
    | constructorArgument hc =>
      rw [hconstructor rfl] at hc
      cases hc

/-- A member is refused exactly for a reason that its text tells, on its own line. -/
theorem read_member_eq_error_iff {k : Keyword} {r : MemberReader}
    (hr : k.reader? crate name = some r) :
    r.read line m = .error e ↔ ∃ error, Refuses k m error ∧ e = error line := by
  cases k with
  | enum => cases hr
  | namespaceDecl =>
    cases hr
    exact map_eq_error_iff.trans (readFunction_eq_error_iff (by decide) (by simp))
  | dictionary =>
    cases hr
    refine readField_eq_error_iff.trans ⟨?_, ?_⟩
    · rintro ⟨hnone, rfl⟩
      exact ⟨_, .field hnone, rfl⟩
    · rintro ⟨error, h, rfl⟩
      cases h with
      | field hnone => exact ⟨hnone, rfl⟩
      | function hk => exact absurd rfl hk.1
      | argument hk => exact absurd rfl hk.1
  | interface =>
    cases hr
    cases hc : constructor? m with
    | none =>
      simp only [readObjectMember, hc]
      exact map_eq_error_iff.trans (readFunction_eq_error_iff (by decide) fun _ => hc)
    | some found =>
      simp only [readObjectMember, hc]
      refine map_eq_error_iff.trans (readArguments_eq_error_iff.trans ⟨?_, ?_⟩)
      · rintro ⟨t, ht, rfl⟩
        exact ⟨_, .constructorArgument hc ht, rfl⟩
      · rintro ⟨error, h, rfl⟩
        cases h with
        | function _ hconstructor => rw [hconstructor rfl] at hc; cases hc
        | argument _ hconstructor => rw [hconstructor rfl] at hc; cases hc
        | constructorArgument hc' ht =>
          obtain rfl := Option.some.inj (hc.symm.trans hc')
          exact ⟨_, ht, rfl⟩
  | callbackInterface =>
    cases hr
    exact readFunction_eq_error_iff (by decide) (by simp)

/-! ## Definitions that are refused -/

/-- The variants of an enum, as texts without outer blanks; blank ones are left out. -/
def variantTexts (body : List Char) : List (List Char) :=
  ((cut (· == ',') body).map trim).filter (· != [])

private theorem readVariants_eq_error_iff {body : List Char} : readVariants line body = .error e ↔
    ∃ t, FirstUnfit variantName? (variantTexts body) t ∧
      e = .invalidVariant (String.ofList t) line := by
  refine mapM_eq_error_iff_firstUnfit fun t e => ?_
  cases variantName? t with
  | none => simp [eq_comm]
  | some name => simp

private theorem readBlock_enum_eq_error_iff {b : Block} (hk : b.keyword = .enum) :
    readBlock source crate b = .error e ↔ ∃ t, FirstUnfit variantName? (variantTexts b.body) t ∧
      e = .invalidVariant (String.ofList t) (lineAt source (source.length - b.fromBody)) := by
  simp only [readBlock, hk]
  exact map_eq_error_iff.trans readVariants_eq_error_iff

/-- A definition with members is refused for its last member if that has no semicolon, and else for
its first member that is refused. -/
theorem readBlock_eq_error_iff {b : Block} {r : MemberReader}
    (hr : b.keyword.reader? crate (String.ofList b.name) = some r) :
    readBlock source crate b = .error e ↔
      (isTerminated b.body = false ∧ ∃ last, (members 0 b.body).getLast? = some last ∧
        e = .missingSemicolon (lineAt source (source.length - b.fromBody + last.offset))) ∨
      (isTerminated b.body = true ∧ ∃ before p after error,
        members 0 b.body = before ++ p :: after ∧
        (∀ q ∈ before, ∀ error, ¬ Refuses b.keyword q.text error) ∧
        Refuses b.keyword p.text error ∧
        e = error (lineAt source (source.length - b.fromBody + p.offset))) := by
  rw [readBlock_eq hr]
  cases ht : isTerminated b.body with
  | false =>
    obtain ⟨last, hlast, hmembers⟩ :=
      readMembers_of_not_isTerminated ht source (source.length - b.fromBody)
    rw [hmembers, error_bind]
    simp [hlast, eq_comm]
  | true =>
    have hok (line : Nat) (m : List Char) :
        (∃ a, r.read line m = .ok a) ↔ ∀ error, ¬ Refuses b.keyword m error := by
      simp only [exists_eq_ok_iff, ne_eq, read_member_eq_error_iff hr]
      exact ⟨fun h error hrefuses => h _ ⟨error, hrefuses, rfl⟩,
        fun h _ ⟨error, hrefuses, _⟩ => h error hrefuses⟩
    have hsteps : ((members 0 b.body).mapM fun m =>
          r.read (lineAt source (source.length - b.fromBody + m.offset)) m.text) = .error e ↔
        ∃ before p after, members 0 b.body = before ++ p :: after ∧
          (∀ q ∈ before, ∀ error, ¬ Refuses b.keyword q.text error) ∧
          ∃ error, Refuses b.keyword p.text error ∧
            e = error (lineAt source (source.length - b.fromBody + p.offset)) := by
      simp only [mapM_eq_error_iff, hok, read_member_eq_error_iff hr]
    rw [readMembers_of_isTerminated ht, ok_bind, List.mapM_map]
    refine map_eq_error_iff.trans (hsteps.trans ?_)
    simp

/-- A definition with a body cannot be declared exactly if it is a second namespace. -/
theorem declare_eq_error_iff {w : BlockText} {n : Nat} {declared : Option String} :
    declare source (w.block n) declared = .error e ↔
      w.keyword = .namespaceDecl ∧ ∃ earlier, declared = some earlier ∧
        e = .duplicateNamespace (String.ofList w.name) earlier
          (lineAt source (source.length - (w.block n).fromName)) := by
  unfold declare
  cases hk : w.keyword with
  | namespaceDecl =>
    cases declared with
    | none => simp [BlockText.block, hk]
    | some earlier => simp [BlockText.block, hk, eq_comm]
  | _ => simp [BlockText.block, hk]

/-- Why a written definition is refused behind others, and the distance from its start to the
construct that it is refused for. -/
inductive BlockText.Refused (declared : Option String) (w : BlockText) :
    (Nat → UdlError) → Nat → Prop where
  | secondNamespace {earlier : String} (hk : w.keyword = .namespaceDecl)
    (h : declared = some earlier) :
    Refused declared w (.duplicateNamespace (String.ofList w.name) earlier) w.toName.length
  | unterminated {last : Placed} (hfirst : w.keyword = .namespaceDecl → declared = none)
    (hk : w.keyword ≠ .enum) (h : isTerminated w.body = false)
    (hlast : (members 0 w.body).getLast? = some last)
    (hplace : MemberAt w.body last.offset last.text) :
    Refused declared w .missingSemicolon (w.toBody.length + last.offset)
  | member {before after : List Placed} {p : Placed} {error : Nat → UdlError}
    (hfirst : w.keyword = .namespaceDecl → declared = none)
    (hterminated : isTerminated w.body = true) (hmembers : members 0 w.body = before ++ p :: after)
    (hbefore : ∀ q ∈ before, ∀ error, ¬ Refuses w.keyword q.text error)
    (h : Refuses w.keyword p.text error) (hplace : MemberAt w.body p.offset p.text) :
    Refused declared w error (w.toBody.length + p.offset)
  | variant {t : List Char} (hk : w.keyword = .enum)
    (h : FirstUnfit variantName? (variantTexts w.body) t) :
    Refused declared w (.invalidVariant (String.ofList t)) w.toBody.length

/-- Where the name and the body of a definition stand in a source. -/
theorem BlockText.place {w : BlockText} {lead rest : List Char}
    (hsource : source = lead ++ (w.text ++ rest)) :
    source.length - (w.block rest.length).fromName = lead.length + w.toName.length ∧
      source.length - (w.block rest.length).fromBody = lead.length + w.toBody.length := by
  have hlength := congrArg List.length hsource
  simp only [block, text, toBody, List.length_append] at hlength ⊢
  omega

/-- A definition is refused, as a second namespace or for its body, exactly if there is a reason, on
the line of the place that the reason names. -/
theorem BlockText.refused_iff (crate : Value) {w : BlockText} {declared : Option String}
    {lead rest : List Char} (hsource : source = lead ++ (w.text ++ rest)) :
    (declare source (w.block rest.length) declared = .error e ∨
      (∃ after, declare source (w.block rest.length) declared = .ok after) ∧
        readBlock source crate (w.block rest.length) = .error e) ↔
    ∃ error n, w.Refused declared error n ∧ e = error (lineAt source (lead.length + n)) := by
  obtain ⟨hname, hbody⟩ := w.place hsource
  have hfirst : (∃ after, declare source (w.block rest.length) declared = .ok after) ↔
      (w.keyword = .namespaceDecl → declared = none) := by
    simp only [exists_eq_ok_iff, ne_eq, declare_eq_error_iff]
    cases declared with
    | none => simp
    | some earlier => simp
  rw [hfirst, declare_eq_error_iff, hname]
  cases hr : w.keyword.reader? crate (String.ofList w.name) with
  | none =>
    have hk := eq_enum_of_reader? hr
    rw [readBlock_enum_eq_error_iff (b := w.block rest.length) hk, hbody]
    constructor
    · rintro (⟨hns, -⟩ | ⟨-, t, ht, rfl⟩)
      · rw [hk] at hns
        cases hns
      · exact ⟨_, _, .variant hk ht, rfl⟩
    · rintro ⟨error, n, h, rfl⟩
      cases h with
      | secondNamespace hns h => exact .inl ⟨hns, _, h, rfl⟩
      | unterminated _ hne => exact absurd hk hne
      | member _ _ _ _ hrefuses =>
        rw [hk] at hrefuses
        cases hrefuses with
        | function hne => exact absurd rfl hne.2
        | argument hne => exact absurd rfl hne.2
      | variant _ ht => exact .inr ⟨by simp [hk], _, ht, rfl⟩
  | some r =>
    have hk : w.keyword ≠ .enum := by
      intro hk
      rw [hk] at hr
      cases hr
    rw [readBlock_eq_error_iff (b := w.block rest.length) hr, hbody]
    simp only [Nat.add_assoc]
    constructor
    · rintro (⟨hns, earlier, hearlier, rfl⟩ |
        ⟨hns, ⟨ht, last, hlast, rfl⟩ | ⟨ht, before, p, after, error, hmembers, hbefore, hp, rfl⟩⟩)
      · exact ⟨_, _, .secondNamespace hns hearlier, rfl⟩
      · refine ⟨_, _, .unterminated hns hk ht hlast ?_, rfl⟩
        exact memberAt_of_mem (List.mem_of_getLast? hlast)
      · refine ⟨_, _, .member hns ht hmembers hbefore hp ?_, rfl⟩
        apply memberAt_of_mem
        rw [show members 0 w.body = before ++ p :: after from hmembers]
        exact List.mem_append_right before List.mem_cons_self
    · rintro ⟨error, n, h, rfl⟩
      cases h with
      | secondNamespace hns h => exact .inl ⟨hns, _, h, rfl⟩
      | unterminated hns _ ht hlast => exact .inr ⟨hns, .inl ⟨ht, _, hlast, rfl⟩⟩
      | member hns ht hmembers hbefore hp =>
        exact .inr ⟨hns, .inr ⟨ht, _, _, _, _, hmembers, hbefore, hp, rfl⟩⟩
      | variant hne => exact absurd hne hk

/-! ## Texts that are refused -/

/-- No definition is recognised exactly where none is written. -/
theorem none_iff_forall_ne_text : block? s = none ∧ alias? s = none ↔
    ∀ (d : Written) (rest : List Char), s ≠ d.text ++ rest := by
  constructor
  · rintro ⟨hblock, halias⟩ d rest rfl
    cases d with
    | block w =>
      rw [Written.text_block, w.block?_text] at hblock
      cases hblock
    | typedef w =>
      rw [Written.text_typedef, w.alias?_text] at halias
      cases halias
  · intro h
    constructor
    · by_contra hne
      obtain ⟨⟨b, rest⟩, hb⟩ := Option.ne_none_iff_exists'.mp hne
      obtain ⟨w, hs, -⟩ := BlockText.exists_of_block? hb
      exact h (.block w) rest hs
    · by_contra hne
      obtain ⟨⟨a, rest⟩, ha⟩ := Option.ne_none_iff_exists'.mp hne
      obtain ⟨w, hs, -⟩ := AliasText.exists_of_alias? ha
      exact h (.typedef w) rest hs

/-- Why the text behind accepted definitions is refused, and the distance from its start to the
construct that it is refused for. -/
inductive Offends (declared : Option String) : List Char → (Nat → UdlError) → Nat → Prop where
  | unexpected {blanks s : List Char} (hblanks : allBlank blanks = true) (hs : StartsTight s)
    (h : ∀ (d : Written) (rest : List Char), s ≠ d.text ++ rest) :
    Offends declared (blanks ++ s) .expectedDefinition blanks.length
  | definition {w : BlockText} {rest : List Char} {error : Nat → UdlError} {n : Nat}
    (h : w.Refused declared error n) : Offends declared (w.text ++ rest) error n

private theorem readFrom_of_offends {p : Progress} {error : Nat → UdlError} {n : Nat}
    (h : Offends p.declared s error n) (lead : List Char) :
    readFrom (lead ++ s) crate p s = .error (error (lineAt (lead ++ s) (lead.length + n))) := by
  cases h with
  | @unexpected blanks s hblanks hs h =>
    obtain ⟨hblock, halias⟩ := none_iff_forall_ne_text.mpr h
    have hall : allBlank (blanks ++ s) = false := by
      rw [allBlank_append, hs.allBlank_eq_false, Bool.and_false]
    have hplace : (lead ++ (blanks ++ s)).length - s.length = lead.length + blanks.length := by
      simp only [List.length_append]
      omega
    rw [readFrom_of_none hall ((block?_append_blanks hblanks s).trans hblock)
      ((alias?_append_blanks hblanks s).trans halias), trimLeft_append hblanks hs, hplace]
  | @definition w rest _ _ h =>
    have hsource : lead ++ (w.text ++ rest) = lead ++ (w.text ++ rest) := rfl
    refine (readFrom_of_block? (allBlank_text_append (.block w) rest) (w.block?_text rest)).trans ?_
    rcases (BlockText.refused_iff crate hsource).mpr ⟨error, n, h, rfl⟩ with
      hd | ⟨⟨declared, hd⟩, hb⟩
    · exact bind_eq_error_iff.mpr (.inl hd)
    · exact bind_eq_error_iff.mpr (.inr ⟨declared, hd, bind_eq_error_iff.mpr (.inl hb)⟩)

/-- Reading fails exactly if there is something to refuse behind accepted definitions. -/
theorem readFrom_eq_error_iff {p : Progress} (lead : List Char) :
    readFrom (lead ++ s) crate p s = .error e ↔
      ∃ ds rest p' error n, s = ds.flatMap Written.text ++ rest ∧ Advances crate p ds p' ∧
        Offends p'.declared rest error n ∧
        e = error (lineAt (lead ++ s) (lead.length + (ds.flatMap Written.text).length + n)) := by
  constructor
  · -- the text in front of the place grows along the recursion, and the source stays the same
    generalize hsource : lead ++ s = source
    intro h
    fun_induction readFrom source crate p s generalizing lead with
    | case1 => cases h
    | case2 p s hblank b rest hb ih =>
      obtain ⟨w, rfl, rfl⟩ := BlockText.exists_of_block? hb
      rcases bind_eq_error_iff.mp h with hd | ⟨declared, hdeclared, h⟩
      · obtain ⟨error, n, hw, rfl⟩ := (BlockText.refused_iff crate hsource.symm).mp (.inl hd)
        exact ⟨[], _, p, error, n, rfl, .nil p, .definition hw, rfl⟩
      rcases bind_eq_error_iff.mp h with hi | ⟨items, hitems, h⟩
      · obtain ⟨error, n, hw, rfl⟩ :=
          (BlockText.refused_iff crate hsource.symm).mp (.inr ⟨⟨declared, hdeclared⟩, hi⟩)
        exact ⟨[], _, p, error, n, rfl, .nil p, .definition hw, rfl⟩
      obtain ⟨ds, behind, p', error, n, rfl, hds, hoffends, rfl⟩ :=
        ih declared items (lead ++ w.text) (by rw [← hsource, List.append_assoc]) h
      refine ⟨.block w :: ds, behind, p', error, n, (List.append_assoc ..).symm, ?_, hoffends, ?_⟩
      · exact hds.cons ((w.readBlock_eq_ok_iff source _).mp hitems) (declare_eq_ok_iff.mp hdeclared)
      · rw [List.flatMap_cons, List.length_append, List.length_append, Nat.add_assoc lead.length]
        rfl
    | case3 p s hblank hblock a rest ha item ih =>
      obtain ⟨w, rfl, rfl⟩ := AliasText.exists_of_alias? ha
      obtain ⟨ds, behind, p', error, n, rfl, hds, hoffends, rfl⟩ :=
        ih (lead ++ w.text) (by rw [← hsource, List.append_assoc]) h
      refine ⟨.typedef w :: ds, behind, p', error, n, (List.append_assoc ..).symm,
        hds.cons rfl (List.append_nil _).symm, hoffends, ?_⟩
      rw [List.flatMap_cons, List.length_append, List.length_append, Nat.add_assoc lead.length]
      rfl
    | case4 p s hblank hblock halias =>
      cases h
      obtain ⟨blanks, hblanks, hs⟩ := eq_append_trimLeft s
      have hne : trimLeft s ≠ [] := by
        intro hnil
        rw [hnil, List.append_nil] at hs
        exact hblank (hs ▸ hblanks)
      have hnone := none_iff_forall_ne_text.mp ⟨
        (block?_append_blanks hblanks _).symm.trans (hs ▸ hblock),
        (alias?_append_blanks hblanks _).symm.trans (hs ▸ halias)⟩
      have hplace : (lead ++ s).length - (trimLeft s).length = lead.length + blanks.length := by
        have hlength := congrArg List.length hs
        simp only [List.length_append] at hlength ⊢
        omega
      refine ⟨[], s, p, _, _, rfl, .nil p, ?_, by rw [← hsource, hplace]; rfl⟩
      rw [hs]
      exact .unexpected hblanks (startsTight_of_trimLeft (List.append_nil _).symm hne) hnone
  · rintro ⟨ds, rest, p', error, n, rfl, hds, hoffends, rfl⟩
    rw [readFrom_of_advances hds, ← List.append_assoc, readFrom_of_offends hoffends,
      List.length_append]

/-- Texts that are refused. A body that does not end in a semicolon has a last member, so the line
of that can always be told. A text is refused either because its definitions are all accepted and
none is a namespace, or for the first construct behind accepted definitions that cannot be read; the
line is then one more than the line feeds of the text, with its comments, in front of that
construct. -/
theorem read_error_line (text : String) (crate : Value) (e : UdlError) :
    (∀ offset body, isTerminated body = false →
      ∃ last, (members offset body).getLast? = some last) ∧
    (read text crate = .error e ↔
      (e = .missingNamespace ∧ ∃ ds tail p, blankComments false text.toList =
          ds.flatMap Written.text ++ tail ∧ allBlank tail = true ∧
        Advances crate ⟨none, []⟩ ds p ∧ p.declared = none) ∨
      ∃ ds rest p error n, blankComments false text.toList = ds.flatMap Written.text ++ rest ∧
        Advances crate ⟨none, []⟩ ds p ∧ Offends p.declared rest error n ∧
        e = error (lineFeeds (text.toList.take ((ds.flatMap Written.text).length + n)) + 1)) := by
  refine ⟨fun offset body h => ⟨_, List.getLast?_eq_some_getLast (members_ne_nil offset h)⟩, ?_⟩
  have hfrom : readFrom (blankComments false text.toList) crate ⟨none, []⟩
        (blankComments false text.toList) = .error e ↔
      ∃ ds rest p error n, blankComments false text.toList = ds.flatMap Written.text ++ rest ∧
        Advances crate ⟨none, []⟩ ds p ∧ Offends p.declared rest error n ∧
        e = error (lineFeeds (text.toList.take ((ds.flatMap Written.text).length + n)) + 1) := by
    simpa only [List.nil_append, List.length_nil, Nat.zero_add, lineAt_blankComments] using
      readFrom_eq_error_iff (s := blankComments false text.toList) (p := ⟨none, []⟩) []
  rw [read, bind_eq_error_iff, hfrom, or_comm]
  refine or_congr_left ⟨?_, ?_⟩
  · rintro ⟨p, hp, h⟩
    obtain ⟨ds, tail, htext, htail, hds⟩ := exists_advances_of_ok hp
    cases hd : p.declared with
    | some name =>
      rw [hd] at h
      cases h
    | none =>
      rw [hd] at h
      cases h
      exact ⟨rfl, ds, tail, p, htext, htail, hds, hd⟩
  · rintro ⟨rfl, ds, tail, p, htext, htail, hds, hd⟩
    refine ⟨p, ?_, ?_⟩
    · rw [htext, readFrom_of_advances hds, readFrom_of_allBlank htail]
    · rw [hd]
      rfl

/-- Why a text is refused, if it is. -/
def refusal? (outcome : Except UdlError Group) : Option UdlError :=
  match outcome with
  | .error e => some e
  | .ok _ => none

-- a second namespace is refused on the line of its name
example :
    refusal? (read "namespace a \x7b\x7d; // one\n\nnamespace\n  b \x7b\x7d;\n" (.text "geo")) =
      some (.duplicateNamespace "b" "a" 4) := by decide +kernel

end BindGen.Udl
