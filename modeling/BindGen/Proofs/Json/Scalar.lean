import BindGen.Proofs.Json.Number
import BindGen.Proofs.Json.Quoted
import Mathlib.Tactic.FinCases

/-!
# Reading scalars

The text of a scalar that JSON has a form for is one token, which is that scalar, if what follows it
may stand behind a value.
-/

namespace BindGen.Json

variable {c : Char} {s rest after : List Char} {t : Token}

/-- Scalars that have a form of their own, with no more digits than are read. -/
def HasForm : Scalar → Prop
  | .null | .bool _ | .text _ | .broken _ => True
  | .int n => Double.digitCount n.natAbs ≤ Text.digitLimit
  | .float x => x ≠ .nan
  | .bytes _ | .moment _ => False

/-- A lexeme at the start of a text is the first token. -/
theorem tokens_cons (hs : isSpace c = false) (h : lexeme c rest = some (t, after)) :
    tokens (c :: rest) = t :: tokens after := by
  rw [tokens, if_neg (by rw [hs]; exact Bool.false_ne_true)]
  split
  · next t' after' h' =>
    rw [h] at h'
    cases h'
    rfl
  · next h' =>
    rw [h] at h'
    cases h'

private theorem eq_digit (h : c.isDigit = true) : ∃ n : Fin 10, c = Char.ofNat (48 + n) := by
  rw [Char.isDigit, Bool.and_eq_true, decide_eq_true_eq, decide_eq_true_eq] at h
  have hn : 48 ≤ c.toNat ∧ c.toNat ≤ 57 := h
  refine ⟨⟨c.toNat - 48, by omega⟩, ?_⟩
  rw [Nat.add_sub_cancel' hn.1, Char.ofNat_toNat]

-- A digit starts a number, without a sign or behind one.
private theorem lexeme_of_isDigit (h : c.isDigit = true) (rest : List Char) :
    isSpace c = false ∧ lexeme c rest = number false (c :: rest) ∧
      lexeme '-' (c :: rest) = number true (c :: rest) := by
  obtain ⟨n, rfl⟩ := eq_digit h
  fin_cases n <;> exact ⟨rfl, rfl, rfl⟩

-- The text of a number starts with a digit.
private theorem number_starts {negative : Bool} (h : number negative s = some (t, after)) :
    ∃ c rest, s = c :: rest ∧ c.isDigit = true := by
  rw [number] at h
  dsimp only at h
  split at h
  · cases h
  · next hne =>
    cases s with
    | nil => exact absurd rfl hne
    | cons c rest =>
      refine ⟨c, rest, rfl, ?_⟩
      rw [integerDigits.eq_def] at hne
      split at hne
      · next hzero =>
        rw [(List.cons.inj hzero).1]
        rfl
      · by_contra hc
        rw [takeDigits, List.takeWhile_cons_of_neg hc] at hne
        exact hne rfl

/-- A number is one token, with a sign or without one. -/
theorem tokens_number {negative : Bool} (h : number negative s = some (t, rest)) :
    tokens ((if negative then ['-'] else []) ++ s) = t :: tokens rest := by
  obtain ⟨c, s, rfl, hc⟩ := number_starts h
  obtain ⟨hspace, hlexeme, hsigned⟩ := lexeme_of_isDigit hc s
  cases negative with
  | false => exact tokens_cons hspace (hlexeme.trans h)
  | true => exact tokens_cons rfl (hsigned.trans h)

/-- A text in quotes is one token. -/
theorem tokens_writeText (t : LooseText) (rest : List Char) :
    tokens (writeText t ++ rest) = .scalar t.scalar :: tokens rest := by
  have h :
      lexeme '"' (t.points.flatMap escapePoint ++ '"' :: rest) = some (.scalar t.scalar, rest) := by
    rw [lexeme, quotedText_escaped]
  rw [writeText, List.cons_append, List.cons_append, List.append_assoc]
  exact tokens_cons rfl h

private theorem toList_toString (n : Int) :
    (toString n).toList = (if decide (n < 0) then ['-'] else []) ++ Nat.toDigits 10 n.natAbs := by
  cases n with
  | ofNat m => exact Nat.toList_repr
  | negSucc m =>
    change ("-" ++ (m + 1).repr).toList = _
    rw [String.toList_append, Nat.toList_repr, if_pos (decide_eq_true (Int.negSucc_lt_zero m))]
    rfl

private theorem tokens_int {n : Int} (hn : HasForm (.int n)) (h : EndsValue rest) :
    tokens ((toString n).toList ++ rest) = .scalar (.int n) :: tokens rest := by
  have hvalue : (if decide (n < 0) then -(n.natAbs : Int) else n.natAbs) = n := by
    by_cases hneg : n < 0
    · rw [if_pos (decide_eq_true hneg)]
      omega
    · rw [if_neg (by simp [hneg])]
      omega
  have hread := tokens_number (number_toDigits hn h (decide (n < 0)))
  rw [hvalue] at hread
  rw [toList_toString, List.append_assoc]
  exact hread

-- The text of a rank without its sign.
private theorem number_magnitude {r : Fin Double.rankCount} (h : EndsValue rest) (negative : Bool) :
    number negative ((if r.val = 0 then "0.0" else
        String.ofList (Double.plain.layout (Double.shortest r))).toList ++ rest) =
      some (.scalar (.float (.finite negative r)), rest) := by
  by_cases hr : r.val = 0
  · obtain rfl : r = ⟨0, by decide⟩ := Fin.ext hr
    exact number_zero h negative
  · have hback := Double.readsBack_shortest r.isLt
    have hread := Double.ofDecimal_of_readsBack hback negative
    have hdigits : (Double.shortest r).digits ≠ 0 := by
      intro hzero
      rw [hzero, Double.ofRank_of_lt r.isLt, Double.ofDecimal, if_pos rfl, Double.zero] at hread
      exact hr (congrArg Fin.val (Double.finite.inj hread).2).symm
    rw [if_neg hr, String.toList_ofList, number_layout _ hdigits h, hread,
      Double.ofRank_of_lt r.isLt]

private theorem tokens_float {negative : Bool} {r : Fin Double.rankCount} (h : EndsValue rest) :
    tokens ((Double.text (.finite negative r)).toList ++ rest) =
      .scalar (.float (.finite negative r)) :: tokens rest := by
  have hsign : (if negative then "-" else "").toList = if negative then ['-'] else [] := by
    cases negative <;> rfl
  rw [Double.text, Double.Notation.text, String.toList_append, hsign, List.append_assoc]
  exact tokens_number (number_magnitude h negative)

/-- A scalar with a form is one token. -/
theorem tokens_writeScalar {x : Scalar} (hx : HasForm x) (h : EndsValue rest) :
    tokens (writeScalar x ++ rest) = .scalar x :: tokens rest := by
  cases x with
  | null => exact tokens_cons rfl rfl
  | bool b =>
    cases b with
    | false => exact tokens_cons rfl rfl
    | true => exact tokens_cons rfl rfl
  | int n => exact tokens_int hx h
  | float x =>
    cases x with
    | nan => exact absurd rfl hx
    | infinite negative =>
      cases negative with
      | false => exact tokens_cons rfl rfl
      | true => exact tokens_cons rfl rfl
    | finite negative r => exact tokens_float h
  | text s => exact tokens_writeText s rest
  | broken t => exact tokens_writeText (.broken t) rest
  | bytes b => cases hx
  | moment m => cases hx

end BindGen.Json
