import BindGen.Proofs.Udl.Written

/-!
# Reading members

The members of a body are its pieces between semicolons that are not blank, each at the place of its
first character. A definition whose body has members reads them one by one, in the way of its
keyword. Whether a member is read, and as what, depends on its text alone; the line on which it
stands only shows in the error that refuses it.
-/

namespace BindGen.Udl

open Text

variable {s m body : List Char} {crate : Value} {line : Nat} {name : String}

/-! ## Places of members -/

/-- A member of a body, at an offset: the text between two semicolons, or ends of the body, without
the blanks around it. -/
structure MemberAt (body : List Char) (n : Nat) (m : List Char) : Prop where
  tight : Tight m
  unsplit : ∀ c ∈ m, c ≠ ';'
  placed : ∃ front lead trail back, body = front ++ (lead ++ (m ++ (trail ++ back))) ∧
    n = front.length + lead.length ∧ allBlank lead = true ∧ allBlank trail = true ∧
    (front = [] ∨ front.getLast? = some ';') ∧ (back = [] ∨ back.head? = some ';')

/-- A text is what is left of it when the end is trimmed, and blanks behind that. -/
theorem eq_trimRight_append (s : List Char) :
    ∃ trail, allBlank trail = true ∧ s = trimRight s ++ trail := by
  refine ⟨(splitTail isBlank s).2, ?_, (splitTail_append isBlank s).symm⟩
  rw [splitTail, allBlank, List.all_reverse]
  exact List.all_takeWhile

private theorem endsTight_trimRight (h : trimRight s ≠ []) : EndsTight (trimRight s) := by
  unfold trimRight at h ⊢
  cases hs : s.reverse.dropWhile isBlank with
  | nil => exact absurd (by rw [hs]; rfl) h
  | cons c rest =>
    rw [List.reverse_cons]
    apply (EndsTight.singleton _).append
    exact head?_dropWhile (s := s.reverse) (by rw [hs]; rfl)

/-- A text with a character that is not blank is a tight text with blanks around it. -/
theorem exists_tight_trim (h : allBlank s = false) :
    ∃ lead trail, s = lead ++ (trim s ++ trail) ∧ allBlank lead = true ∧ allBlank trail = true ∧
      s.length - (trimLeft s).length = lead.length ∧ Tight (trim s) := by
  obtain ⟨lead, hlead, hs⟩ := eq_append_trimLeft s
  obtain ⟨trail, htrail, ht⟩ := eq_trimRight_append (trimLeft s)
  have hne : trim s ≠ [] := by
    intro hnil
    rw [← trim, hnil, List.nil_append] at ht
    rw [hs, ht, allBlank_append, hlead, htrail] at h
    cases h
  refine ⟨lead, trail, hs.trans (congrArg (lead ++ ·) ht), hlead, htrail, ?_,
    startsTight_of_trimLeft ht hne, endsTight_trimRight hne⟩
  have := congrArg List.length hs
  rw [List.length_append] at this
  omega

private theorem placed_texts (offset : Nat) (pieces : List (List Char)) :
    (placed offset pieces).map Placed.text = (pieces.filter (!allBlank ·)).map trim := by
  induction pieces generalizing offset with
  | nil => rfl
  | cons piece rest ih =>
    rw [placed]
    by_cases h : allBlank piece = true
    · simp [h, ih]
    · simp [h, ih]

/-- What the members of a body are does not depend on where the body stands. -/
theorem members_offset (offset : Nat) (body : List Char) :
    members offset body = (members 0 body).map fun m => ⟨m.text, offset + m.offset⟩ := by
  have hplaced (k : Nat) (pieces : List (List Char)) : placed (offset + k) pieces =
      (placed k pieces).map fun m => ⟨m.text, offset + m.offset⟩ := by
    induction pieces generalizing k with
    | nil => rfl
    | cons piece rest ih =>
      have hnext := ih (k + piece.length + 1)
      rw [placed, placed, Nat.add_assoc offset, Nat.add_assoc offset, hnext]
      by_cases h : allBlank piece = true
      · simp [h]
      · simp [h, Nat.add_assoc]
  exact hplaced 0 _

private theorem memberAt_of_mem_placed {pieces : List (List Char)} (front : List Char)
    (hpieces : ∀ piece ∈ pieces, ∀ c ∈ piece, c ≠ ';')
    (hfront : front = [] ∨ front.getLast? = some ';') {p : Placed}
    (h : p ∈ placed front.length pieces) :
    MemberAt (front ++ [';'].intercalate pieces) p.offset p.text := by
  induction pieces generalizing front with
  | nil => cases h
  | cons piece rest ih =>
    obtain ⟨hpiece, hrest⟩ := List.forall_mem_cons.mp hpieces
    have hbehind : ∃ back, [';'].intercalate (piece :: rest) = piece ++ back ∧
        (back = [] ∨ back.head? = some ';') := by
      cases rest with
      | nil => exact ⟨[], by simp, .inl rfl⟩
      | cons next rest =>
        exact ⟨';' :: [';'].intercalate (next :: rest), by simp [List.intercalate_cons_cons],
          .inr rfl⟩
    have hnext (hp : p ∈ placed (front.length + piece.length + 1) rest) :
        MemberAt (front ++ [';'].intercalate (piece :: rest)) p.offset p.text := by
      cases rest with
      | nil => cases hp
      | cons next rest =>
        have hmember := ih (front ++ (piece ++ [';'])) hrest (.inr (by simp))
          (by simpa [Nat.add_assoc] using hp)
        simpa [List.intercalate_cons_cons] using hmember
    rw [placed] at h
    by_cases hblank : allBlank piece = true
    · simp only [hblank, if_true] at h
      exact hnext h
    · simp only [hblank, Bool.false_eq_true, if_false, List.mem_cons] at h
      rcases h with rfl | h
      · obtain ⟨back, hback, hends⟩ := hbehind
        obtain ⟨lead, trail, hsplit, hlead, htrail, hlength, htight⟩ :=
          exists_tight_trim (Bool.eq_false_iff.mpr hblank)
        refine ⟨htight, fun c hc => hpiece c ?_, front, lead, trail, back, ?_, ?_, hlead, htrail,
          hfront, hends⟩
        · rw [hsplit]
          exact List.mem_append_right lead (List.mem_append_left trail hc)
        · rw [hback]
          conv_lhs => rw [hsplit]
          simp
        · exact congrArg (front.length + ·) hlength
      · exact hnext h

/-- Each member stands at its offset. -/
theorem memberAt_of_mem {p : Placed} (h : p ∈ members 0 body) : MemberAt body p.offset p.text := by
  have hpieces : ∀ piece ∈ cut (· == ';') body, ∀ c ∈ piece, c ≠ ';' := fun piece hp c hc => by
    simpa using not_mem_of_mem_cut hp c hc
  have hmember := memberAt_of_mem_placed [] hpieces (.inl rfl) h
  rwa [List.nil_append, intercalate_cut] at hmember

private theorem exists_mem_cut {p : Char → Bool} {c : Char} (hc : c ∈ s) (hp : p c = false) :
    ∃ piece ∈ cut p s, c ∈ piece := by
  induction s with
  | nil => cases hc
  | cons d rest ih =>
    obtain ⟨first, pieces, he⟩ := List.exists_cons_of_ne_nil (cut_ne_nil p rest)
    rw [cut, he]
    rw [he] at ih
    by_cases hd : p d = true
    · rw [if_pos hd]
      rcases List.mem_cons.mp hc with rfl | hc
      · rw [hp] at hd
        cases hd
      · obtain ⟨piece, hpiece, hcp⟩ := ih hc
        exact ⟨piece, List.mem_cons_of_mem _ hpiece, hcp⟩
    · rw [if_neg hd]
      rcases List.mem_cons.mp hc with rfl | hc
      · exact ⟨c :: first, List.mem_cons_self, List.mem_cons_self⟩
      · obtain ⟨piece, hpiece, hcp⟩ := ih hc
        rcases List.mem_cons.mp hpiece with rfl | hpiece
        · exact ⟨d :: piece, List.mem_cons_self, List.mem_cons_of_mem d hcp⟩
        · exact ⟨piece, List.mem_cons_of_mem _ hpiece, hcp⟩

/-- Text behind the last semicolon is a member, so a body that does not end in one has a last
member. -/
theorem members_ne_nil (offset : Nat) (h : isTerminated body = false) :
    members offset body ≠ [] := by
  intro hnone
  obtain ⟨trail, -, hbody⟩ := eq_trimRight_append body
  unfold isTerminated at h
  cases hlast : (trimRight body).getLast? with
  | none =>
    rw [hlast] at h
    cases h
  | some c =>
    rw [hlast] at h
    have hc : c ∈ trimRight body := List.mem_of_getLast? hlast
    obtain ⟨front, d, hfront, hd⟩ := endsTight_trimRight (List.ne_nil_of_mem hc)
    obtain rfl : d = c := by simpa [hfront] using hlast
    have hmem : d ∈ body := hbody ▸ List.mem_append_left trail hc
    have hsemi : (d == ';') = false := h
    obtain ⟨piece, hpiece, hdpiece⟩ := exists_mem_cut (p := (· == ';')) hmem hsemi
    have hall := congrArg (List.map Placed.text) hnone
    rw [members, placed_texts, List.map_nil, List.map_eq_nil_iff, List.filter_eq_nil_iff] at hall
    have hblank := hall piece hpiece
    rw [Bool.not_eq_true', Bool.not_eq_false] at hblank
    rw [isBlank_of_mem_allBlank hblank hdpiece] at hd
    cases hd

/-- The members of a body that is terminated are its parts, each with its line. -/
theorem readMembers_of_isTerminated (h : isTerminated body = true) (source : List Char)
    (offset : Nat) : readMembers source offset body =
      .ok ((members 0 body).map fun m => (m.text, lineAt source (offset + m.offset))) := by
  rw [readMembers, members_offset offset]
  simp only [h, List.map_map]
  rfl

/-- A body whose last member has no semicolon is refused on the line of that member. -/
theorem readMembers_of_not_isTerminated (h : isTerminated body = false) (source : List Char)
    (offset : Nat) : ∃ last, (members 0 body).getLast? = some last ∧
      readMembers source offset body =
        .error (.missingSemicolon (lineAt source (offset + last.offset))) := by
  have hlast := List.getLast?_eq_some_getLast (members_ne_nil 0 h)
  refine ⟨_, hlast, ?_⟩
  rw [readMembers, members_offset offset]
  simp only [h, List.map_map, List.getLast?_map, hlast, Option.map_some]
  rfl

/-! ## Readers -/

/-- How the members of a definition are read, each on its line, and the items that they make. -/
structure MemberReader where
  Result : Type
  read : Nat → List Char → Except UdlError Result
  items : List Result → List Item

/-- How the members of a definition with a name are read; an enum has none. -/
def Keyword.reader? (crate : Value) (name : String) : Keyword → Option MemberReader
  | .namespaceDecl =>
    some ⟨Item, fun line m => do return .function (← readFunction crate line m), id⟩
  | .dictionary =>
    some ⟨Field, readField, fun fields =>
      [.record { modulePath := crate, name, fields, docstring := .null }]⟩
  | .enum => none
  | .interface =>
    some ⟨Item, readObjectMember crate name, fun items =>
      .object { modulePath := crate, name, docstring := .null } :: items⟩
  | .callbackInterface =>
    some ⟨FunctionDecl, readFunction crate, fun methods =>
      [.callbackInterface { modulePath := crate, name, methods, docstring := .null }]⟩

/-- A definition with members is read member by member. -/
theorem readBlock_eq {b : Block} {r : MemberReader} {source : List Char}
    (h : b.keyword.reader? crate (String.ofList b.name) = some r) :
    readBlock source crate b = (do
      let found ← readMembers source (source.length - b.fromBody) b.body
      let results ← found.mapM fun (member, line) => r.read line member
      return r.items results) := by
  obtain ⟨attributes, keyword, name, fromName, body, fromBody⟩ := b
  cases keyword with
  | enum => cases h
  | namespaceDecl =>
    cases h
    simp only [readBlock, id, bind_pure]
  | dictionary =>
    cases h
    rfl
  | interface =>
    cases h
    rfl
  | callbackInterface =>
    cases h
    rfl

/-! ## Lines only show in errors -/

private theorem readField_line {f : Field} (h : readField line m = .ok f) (line' : Nat) :
    readField line' m = .ok f := by
  unfold readField at *
  cases hf : field? m with
  | none =>
    rw [hf] at h
    cases h
  | some typed =>
    rw [hf] at h
    exact h

-- Steps that succeed alike whatever the line is.
private theorem mapM_line {α β : Type} {read : Nat → α → Except UdlError β} {as : List α}
    (hread : ∀ a b, read line a = .ok b → ∀ line', read line' a = .ok b) {bs : List β}
    (h : as.mapM (read line) = .ok bs) (line' : Nat) : as.mapM (read line') = .ok bs := by
  rw [mapM_eq_ok_iff] at *
  exact h.imp fun a b hab => hread a b hab line'

private theorem readFunction_line {d : FunctionDecl} (h : readFunction crate line m = .ok d)
    (line' : Nat) : readFunction crate line' m = .ok d := by
  unfold readFunction at *
  cases hc : callable? m with
  | none =>
    rw [hc] at h
    cases h
  | some found =>
    rw [hc] at h
    obtain ⟨inputs, hinputs, h⟩ := exists_of_bind_eq_ok h
    simp only [mapM_line (fun _ _ hf => readField_line hf) hinputs line', ok_bind]
    exact h

private theorem readObjectMember_line {object : String} {item : Item}
    (h : readObjectMember crate object line m = .ok item) (line' : Nat) :
    readObjectMember crate object line' m = .ok item := by
  unfold readObjectMember at *
  cases hc : constructor? m with
  | none =>
    rw [hc] at h
    obtain ⟨d, hd, h⟩ := exists_of_bind_eq_ok h
    simp only [readFunction_line hd line', ok_bind]
    exact h
  | some found =>
    rw [hc] at h
    obtain ⟨inputs, hinputs, h⟩ := exists_of_bind_eq_ok h
    simp only [mapM_line (fun _ _ hf => readField_line hf) hinputs line', ok_bind]
    exact h

/-- Whether a member is read, and as what, does not depend on its line. -/
theorem read_line {k : Keyword} {r : MemberReader} (hr : k.reader? crate name = some r)
    {result : r.Result} (h : r.read line m = .ok result) (line' : Nat) :
    r.read line' m = .ok result := by
  cases k with
  | enum => cases hr
  | namespaceDecl =>
    cases hr
    obtain ⟨d, hd, h⟩ := exists_of_bind_eq_ok h
    simp only [readFunction_line hd line', ok_bind]
    exact h
  | dictionary =>
    cases hr
    exact readField_line h line'
  | interface =>
    cases hr
    exact readObjectMember_line h line'
  | callbackInterface =>
    cases hr
    exact readFunction_line h line'

/-- A definition with members is read if its last member has its semicolon and each member is read,
wherever the definition stands. -/
theorem readBlock_eq_ok_iff {b : Block} {r : MemberReader} {source : List Char} {items : List Item}
    (hr : b.keyword.reader? crate (String.ofList b.name) = some r) :
    readBlock source crate b = .ok items ↔
      isTerminated b.body = true ∧ ∃ results, r.items results = items ∧
        List.Forall₂ (fun m result => ∀ line, r.read line m = .ok result)
          ((members 0 b.body).map Placed.text) results := by
  rw [readBlock_eq hr]
  cases ht : isTerminated b.body with
  | false =>
    obtain ⟨last, -, hmembers⟩ :=
      readMembers_of_not_isTerminated ht source (source.length - b.fromBody)
    rw [hmembers]
    simp [error_bind]
  | true =>
    rw [readMembers_of_isTerminated ht, ok_bind, List.mapM_map]
    constructor
    · intro h
      obtain ⟨results, hresults, h⟩ := exists_of_map_eq_ok h
      refine ⟨rfl, results, h, List.forall₂_map_left_iff.mpr ?_⟩
      exact (mapM_eq_ok_iff.mp hresults).imp fun m result hm => read_line hr hm
    · rintro ⟨-, results, rfl, hresults⟩
      have hread := List.forall₂_map_left_iff.mp hresults
      have hall := mapM_eq_ok_iff.mpr (hread.imp fun m result hm =>
        hm (lineAt source (source.length - b.fromBody + m.offset)))
      exact congrArg (fun found => found >>= fun results => Except.ok (r.items results)) hall

end BindGen.Udl
