import BindGen.Proofs.Json.Value
import BindGen.Proofs.Run.Fold
import Mathlib.Data.List.TakeWhile

/-!
# What is read

Whatever a text is read as is a value of JSON, as long as no scalar in it is NaN. Every state of the
machine that reads has only such values in its open lists and tables, each as deep as its place
allows, and every step keeps it so.
-/

namespace BindGen

namespace Value

mutual

/-- The scalars in a value, keys left out. -/
def scalars : Value → List Scalar
  | scalar s => [s]
  | list items => itemScalars items
  | pair a b => a.scalars ++ b.scalars
  | set members => members
  | table entries => entryScalars entries
  | link .. => []

/-- The scalars of the items of a list. -/
def itemScalars : List Value → List Scalar
  | [] => []
  | v :: rest => v.scalars ++ itemScalars rest

/-- The scalars of the values of a table. -/
def entryScalars : List (Scalar × Value) → List Scalar
  | [] => []
  | (_, v) :: rest => v.scalars ++ entryScalars rest

end

private theorem scalars_list (items : List Value) :
    scalars (list items) = items.flatMap scalars := by
  have h : itemScalars items = items.flatMap scalars := by
    induction items with
    | nil => rfl
    | cons v rest ih => rw [itemScalars, ih, List.flatMap_cons]
  rw [scalars, h]

private theorem scalars_table (entries : Table Value) :
    scalars (table entries) = entries.flatMap fun e => e.2.scalars := by
  have h : entryScalars entries = entries.flatMap fun e => e.2.scalars := by
    induction entries with
    | nil => rfl
    | cons e rest ih => rw [entryScalars, ih, List.flatMap_cons]
  rw [scalars, h]

end Value

namespace Json

variable {s after ds : List Char} {t : Token} {n : Nat} {v : Value} {open_ : List Frame}

/-- A value is one of JSON if no scalar in it is NaN. -/
def JsonIfPlain (n : Nat) (v : Value) : Prop :=
  (∀ x ∈ v.scalars, x ≠ .float .nan) → IsJson n v

private theorem JsonIfPlain.list {items : List Value} (h : ∀ v ∈ items, JsonIfPlain n v) :
    JsonIfPlain (n + 1) (.list items) := by
  intro hplain
  rw [Value.scalars_list] at hplain
  refine .list fun v hv => h v hv fun x hx => hplain x ?_
  exact List.mem_flatMap.mpr ⟨v, hv, hx⟩

private theorem JsonIfPlain.table {entries : Table Value} (hd : entries.Distinct)
    (hk : entries.Worded)
    (h : ∀ e ∈ entries, JsonIfPlain n e.2) : JsonIfPlain (n + 1) (.table entries) := by
  intro hplain
  rw [Value.scalars_table] at hplain
  refine .table hd hk fun e he => h e he fun x hx => hplain x ?_
  exact List.mem_flatMap.mpr ⟨e, he, hx⟩

section Tokens

/-- Whether a token, if it is a scalar other than NaN, has a form. -/
def Token.Fits (t : Token) : Prop := ∀ x, t = .scalar x → x ≠ .float .nan → HasForm x

private theorem digitsValue_lt (h : AreDigits ds) : digitsValue ds < 10 ^ ds.length := by
  induction ds using List.reverseRecOn with
  | nil => decide
  | append_singleton ds c ih =>
    have hc := h c (by simp)
    rw [Char.isDigit, Bool.and_eq_true, decide_eq_true_eq, decide_eq_true_eq] at hc
    have hn : c.toNat ≤ 57 := hc.2
    have hinit := ih fun d hd => h d (List.mem_append_left _ hd)
    rw [digitsValue, List.foldl_append, List.foldl_cons, List.foldl_nil, ← digitsValue,
      List.length_append, List.length_singleton, Nat.pow_succ]
    omega

private theorem areDigits_integerDigits (s : List Char) : AreDigits (integerDigits s).1 := by
  intro c hc
  rw [integerDigits.eq_def] at hc
  split at hc
  · rw [List.mem_singleton.mp hc]
    rfl
  · exact List.mem_takeWhile_imp hc

private theorem ofDecimal_ne_nan (negative : Bool) (digits : Nat) (scale : Int) :
    Double.ofDecimal negative digits scale ≠ .nan := by
  rw [Double.ofDecimal]
  dsimp only
  repeat' split
  · exact Double.noConfusion
  · exact Double.noConfusion
  · exact Double.noConfusion
  · rw [Double.ofRatio, Double.ofRank]
    split <;> exact Double.noConfusion

private theorem fits_number {negative : Bool} (h : number negative s = some (t, after)) :
    t.Fits := by
  rw [number] at h
  dsimp only at h
  split at h
  · cases h
  next hne =>
  split at h
  · cases h
    rintro x hx -
    cases hx
    exact ofDecimal_ne_nan _ _ _
  · split at h
    · split at h
      · cases h
        intro x hx
        cases hx
      next hlimit =>
      cases h
      rintro x hx -
      cases hx
      have hpos : 0 < (integerDigits s).1.length := by
        rw [List.length_pos_iff]
        simpa using hne
      have hcount : Double.digitCount (digitsValue (integerDigits s).1) ≤
          (integerDigits s).1.length :=
        (Nat.length_toDigits_le_iff (by decide) hpos).mpr
          (digitsValue_lt (areDigits_integerDigits s))
      rw [HasForm]
      split
      · rw [Int.natAbs_neg, Int.natAbs_natCast]
        omega
      · rw [Int.natAbs_natCast]
        omega
    · cases h
      rintro x hx -
      cases hx
      exact ofDecimal_ne_nan _ _ _

private theorem fits_quotedText (h : quotedText s = some (t, after)) : t.Fits := by
  simp only [quotedText, Option.bind_eq_bind, Option.bind_eq_some_iff] at h
  obtain ⟨_, -, codes, -, h⟩ := h
  cases h
  rintro x hx -
  cases hx
  cases LooseText.ofPoints codes <;> trivial

private theorem fits_wordToken? (h : wordToken? s = some (t, after)) : t.Fits := by
  rw [wordToken?] at h
  obtain ⟨⟨w, x⟩, hm, hw⟩ := List.exists_of_findSome?_eq_some h
  obtain ⟨rest, -, hr⟩ := Option.map_eq_some_iff.mp hw
  cases hr
  rintro y hy hplain
  cases hy
  simp only [wordScalars, List.mem_cons, Prod.mk.injEq, List.not_mem_nil, or_false] at hm
  rcases hm with ⟨-, rfl⟩ | ⟨-, rfl⟩ | ⟨-, rfl⟩ | ⟨-, rfl⟩ | ⟨-, rfl⟩ | ⟨-, rfl⟩
  · trivial
  · trivial
  · trivial
  · exact absurd rfl hplain
  · exact Double.noConfusion
  · exact Double.noConfusion

private theorem fits_lexeme {c : Char} (h : lexeme c s = some (t, after)) : t.Fits := by
  rw [lexeme.eq_def] at h
  split at h
  case h_7 => exact fits_quotedText h
  case h_8 =>
    split at h
    · next hw =>
      cases h
      exact fits_wordToken? hw
    · split at h
      · exact fits_number h
      · exact fits_number h
  all_goals
    cases h
    intro x hx
    cases hx

/-- The scalars among the tokens of a text have a form, but for NaN. -/
theorem fits_tokens (s : List Char) : ∀ t ∈ tokens s, t.Fits := by
  fun_induction tokens s with
  | case1 => exact List.forall_mem_nil _
  | case2 _ _ _ ih => exact ih
  | case3 _ _ _ _ _ h ih => exact List.forall_mem_cons.mpr ⟨fits_lexeme h, ih⟩
  | case4 => exact List.forall_mem_singleton.mpr fun x hx => by cases hx

end Tokens

/-- Whether a frame has values of JSON only, with at most so many lists and tables in each other. -/
def Frame.Fits (n : Nat) : Frame → Prop
  | .list items => ∀ v ∈ items, JsonIfPlain n v
  | .table entries k =>
    entries.Distinct ∧ entries.Worded ∧ k.IsWord ∧ ∀ e ∈ entries, JsonIfPlain n e.2

/-- Whether frames in each other have values of JSON only, none of them too deep. -/
def FramesFit : List Frame → Prop
  | [] => True
  | f :: rest => (∃ n, rest.length + (n + 1) = deepest ∧ f.Fits n) ∧ FramesFit rest

private theorem FramesFit.exists_depth (h : FramesFit open_) : ∃ n, open_.length + n = deepest := by
  cases open_ with
  | nil => exact ⟨deepest, Nat.zero_add _⟩
  | cons f rest =>
    obtain ⟨⟨n, hn, -⟩, -⟩ := h
    refine ⟨n, ?_⟩
    rw [List.length_cons]
    omega

namespace State

/-- The frames that are open in a state, with the one that is being read. -/
def frames : State → List Frame
  | .value open_ => open_
  | .firstItem open_ => .list [] :: open_
  | .firstKey open_ => .table [] "" :: open_
  | .key entries open_ | .afterEntry entries open_ => .table entries "" :: open_
  | .colon entries k open_ => .table entries k :: open_
  | .afterItem items open_ => .list items :: open_
  | .done _ => []

/-- Whether a state has values of JSON only. -/
structure Fits (state : State) : Prop where
  frames : FramesFit state.frames
  done : ∀ v, state = .done v → JsonIfPlain deepest v

private theorem fits_complete (h : FramesFit open_) (hn : open_.length + n = deepest)
    (hv : JsonIfPlain n v) : (complete v open_).Fits := by
  cases open_ with
  | nil =>
    refine ⟨trivial, fun w hw => ?_⟩
    cases hw
    rw [← hn, List.length_nil, Nat.zero_add]
    exact hv
  | cons f rest =>
    -- The value may be as deep as what stands in the frame that takes it in.
    obtain ⟨⟨m, hm, hf⟩, hrest⟩ := h
    obtain rfl : m = n := by
      rw [List.length_cons] at hn
      omega
    cases f with
    | list items =>
      refine ⟨⟨⟨m, hm, List.forall_mem_cons.mpr ⟨hv, hf⟩⟩, hrest⟩, fun w hw => ?_⟩
      cases hw
    | table entries k =>
      obtain ⟨hd, hk, hword, hentries⟩ := hf
      refine ⟨⟨⟨m, hm, Table.distinct_put hd _ _, Table.worded_put hk hword v, ⟨"", rfl⟩, ?_⟩, hrest⟩,
        fun w hw => ?_⟩
      · intro e he
        rcases Table.snd_of_mem_put he with hsnd | hmem
        · rw [hsnd]
          exact hv
        · exact hentries e hmem
      · cases hw

private theorem fits_start (h : FramesFit open_) (ht : t.Fits) {state : State}
    (hs : start open_ t = .ok state) : state.Fits := by
  rw [start.eq_def] at hs
  split at hs
  · rw [enter] at hs
    split at hs
    · next hlt =>
      cases hs
      refine ⟨⟨⟨deepest - open_.length - 1, by omega, List.forall_mem_nil _⟩, h⟩, fun w hw => ?_⟩
      cases hw
    · cases hs
  · rw [enter] at hs
    split at hs
    · next hlt =>
      cases hs
      refine ⟨⟨⟨deepest - open_.length - 1, by omega, Table.distinct_nil, Table.worded_nil,
        ⟨"", rfl⟩, List.forall_mem_nil _⟩, h⟩, fun w hw => ?_⟩
      cases hw
    · cases hs
  · next x =>
    cases hs
    obtain ⟨n, hn⟩ := h.exists_depth
    refine fits_complete h hn fun hplain => .scalar (ht x rfl (hplain x ?_))
    exact List.mem_singleton_self x
  · cases hs
  · cases hs

private theorem fits_keyRead {entries : Table Value} (h : FramesFit (.table entries "" :: open_))
    {x : Scalar} {state : State} (hs : keyRead entries open_ x = .ok state) : state.Fits := by
  obtain ⟨⟨n, hn, hd, hk, -, hentries⟩, hrest⟩ := h
  rw [keyRead.eq_def] at hs
  split at hs
  · next k =>
    cases hs
    exact ⟨⟨⟨n, hn, hd, hk, ⟨.proper k, rfl⟩, hentries⟩, hrest⟩, fun w hw => by cases hw⟩
  · next k =>
    cases hs
    exact ⟨⟨⟨n, hn, hd, hk, ⟨.broken k, rfl⟩, hentries⟩, hrest⟩, fun w hw => by cases hw⟩
  · cases hs

private theorem fits_listClose {items : List Value} (h : FramesFit (.list items :: open_)) :
    (complete (.list items.reverse) open_).Fits := by
  obtain ⟨⟨n, hn, hitems⟩, hrest⟩ := h
  refine fits_complete hrest hn (JsonIfPlain.list fun v hv => hitems v ?_)
  exact List.mem_reverse.mp hv

private theorem fits_tableClose {entries : Table Value}
    (h : FramesFit (.table entries "" :: open_)) : (complete (.table entries) open_).Fits := by
  obtain ⟨⟨n, hn, hd, hk, -, hentries⟩, hrest⟩ := h
  exact fits_complete hrest hn (JsonIfPlain.table hd hk hentries)

/-- Every step of the machine keeps to values of JSON. -/
theorem Fits.step {state state' : State} (h : state.Fits) (ht : t.Fits)
    (hs : state.step t = .ok state') : state'.Fits := by
  have hframes := h.frames
  rw [State.step.eq_def] at hs
  split at hs
  · exact fits_start hframes ht hs
  · cases hs
    exact fits_listClose hframes
  · exact fits_start hframes ht hs
  · cases hs
    exact fits_tableClose hframes
  · exact fits_keyRead hframes hs
  · exact fits_keyRead hframes hs
  · cases hs
    exact ⟨hframes, fun w hw => by cases hw⟩
  · cases hs
    exact ⟨hframes, fun w hw => by cases hw⟩
  · cases hs
    exact fits_listClose hframes
  · cases hs
    exact ⟨hframes, fun w hw => by cases hw⟩
  · cases hs
    exact fits_tableClose hframes
  · cases hs

/-- Running the machine over tokens keeps to values of JSON. -/
theorem Fits.run {state state' : State} (h : state.Fits) {ts : List Token} (ht : ∀ t ∈ ts, t.Fits)
    (hs : ts.foldlM State.step state = .ok state') : state'.Fits := by
  induction ts generalizing state with
  | nil =>
    obtain rfl := Except.ok.inj hs
    exact h
  | cons t ts ih =>
    rw [List.foldlM_cons] at hs
    obtain ⟨next, hnext, hs⟩ := exists_of_bind_eq_ok hs
    exact ih (h.step (ht t List.mem_cons_self) hnext)
      (fun u hu => ht u (List.mem_cons_of_mem t hu)) hs

end State

/-- A value that is read is one of JSON, if no scalar in it is NaN. -/
theorem isJson_of_read {text : String} (h : read text = .ok v)
    (hplain : ∀ x ∈ v.scalars, x ≠ .float .nan) : IsJson deepest v := by
  have hstart : (State.value []).Fits := ⟨trivial, fun w hw => by cases hw⟩
  rw [read, ofTokens] at h
  split at h
  · next w hrun =>
    cases h
    exact (hstart.run (fits_tokens _) hrun).done v rfl hplain
  · cases h
  · cases h

end Json
end BindGen
