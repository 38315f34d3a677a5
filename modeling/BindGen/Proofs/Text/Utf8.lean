import BindGen.Text.Utf8

/-!
# Decoding undoes encoding

The bytes of a text are the encoding of that text and of nothing else that stands in front: the
first byte of a character tells how many follow, and each that follows holds six bits of its code
point.
-/

namespace BindGen.Utf8

private theorem toNat_toUInt8 {n : Nat} (h : n < 0x100) : n.toUInt8.toNat = n := by
  rw [Nat.toUInt8, UInt8.toNat_ofNat']
  exact Nat.mod_eq_of_lt h

private theorem toUInt8_lt {n : Nat} (h : n < 0x100) {b : UInt8} (hb : n < b.toNat) :
    n.toUInt8 < b := by
  rw [UInt8.lt_iff_toNat_lt, toNat_toUInt8 h]
  exact hb

private theorem not_toUInt8_lt {n : Nat} (h : n < 0x100) {b : UInt8} (hb : b.toNat ≤ n) :
    ¬n.toUInt8 < b := by
  rw [UInt8.lt_iff_toNat_lt, toNat_toUInt8 h]
  exact Nat.not_lt.mpr hb

private theorem continuation?_toUInt8 {n : Nat} (h : n < 0x40) :
    continuation? (0x80 + n).toUInt8 = some n := by
  have hbyte : 0x80 + n < 0x100 := by omega
  have hlow : (0x80 : UInt8) ≤ (0x80 + n).toUInt8 := by
    rw [UInt8.le_iff_toNat_le, toNat_toUInt8 hbyte]
    exact Nat.le_add_right 0x80 n
  have hhigh : (0x80 + n).toUInt8 < (0xC0 : UInt8) :=
    toUInt8_lt hbyte (Nat.add_lt_add_left h 0x80)
  rw [continuation?, decide_eq_true hlow, decide_eq_true hhigh, toNat_toUInt8 hbyte,
    Nat.add_sub_cancel_left]
  rfl

private theorem charFrom?_toNat {c : Char} {least : Nat} (h : least ≤ c.toNat) :
    charFrom? least c.toNat = some c := by
  have hv : c.toNat.isValidChar := c.valid
  rw [charFrom?, dif_pos hv, if_pos h]
  rfl

-- The encoding of a character is decoded as that character, whatever follows it.
private theorem decode?_encodeChar (c : Char) (rest : Bytes) :
    decode? (encodeChar c ++ rest) = (decode? rest).map (c :: ·) := by
  have hvalid : c.toNat.isValidChar := c.valid
  rw [Nat.isValidChar] at hvalid
  have hmod (n : Nat) : n % 0x40 < 0x40 := Nat.mod_lt n (by decide)
  -- One case for each length of an encoding, which its first byte tells.
  rw [encodeChar]
  split
  · next h =>
    have hbyte : c.toNat < 0x100 := by omega
    have hascii : c.toNat.toUInt8 < 0x80 := toUInt8_lt hbyte h
    rw [List.singleton_append, decode?.eq_def]
    dsimp only
    rw [if_pos hascii, toNat_toUInt8 hbyte, Char.ofNat_toNat]
  split
  · next hmin h =>
    have hbyte : 0xC0 + c.toNat / 0x40 < 0x100 := by omega
    have hascii : ¬(0xC0 + c.toNat / 0x40).toUInt8 < 0x80 :=
      not_toUInt8_lt hbyte (show 0x80 ≤ _ by omega)
    have hstray : ¬(0xC0 + c.toNat / 0x40).toUInt8 < 0xC0 :=
      not_toUInt8_lt hbyte (show 0xC0 ≤ _ by omega)
    have htwo : (0xC0 + c.toNat / 0x40).toUInt8 < 0xE0 :=
      toUInt8_lt hbyte (show _ < 0xE0 by omega)
    have hvalue : c.toNat / 0x40 * 0x40 + c.toNat % 0x40 = c.toNat := Nat.div_add_mod' _ _
    rw [List.cons_append, List.singleton_append, decode?.eq_def]
    dsimp only
    rw [if_neg hascii, if_neg hstray, if_pos htwo, continuation?_toUInt8 (hmod _),
      toNat_toUInt8 hbyte, Nat.add_sub_cancel_left]
    change (charFrom? 0x80 _ >>= _) = _
    rw [hvalue, charFrom?_toNat (by omega)]
    rfl
  split
  · next hmin h =>
    have hbyte : 0xE0 + c.toNat / 0x1000 < 0x100 := by omega
    have hascii : ¬(0xE0 + c.toNat / 0x1000).toUInt8 < 0x80 :=
      not_toUInt8_lt hbyte (show 0x80 ≤ _ by omega)
    have hstray : ¬(0xE0 + c.toNat / 0x1000).toUInt8 < 0xC0 :=
      not_toUInt8_lt hbyte (show 0xC0 ≤ _ by omega)
    have htwo : ¬(0xE0 + c.toNat / 0x1000).toUInt8 < 0xE0 :=
      not_toUInt8_lt hbyte (show 0xE0 ≤ _ by omega)
    have hthree : (0xE0 + c.toNat / 0x1000).toUInt8 < 0xF0 :=
      toUInt8_lt hbyte (show _ < 0xF0 by omega)
    have hvalue : (c.toNat / 0x1000 * 0x40 + c.toNat / 0x40 % 0x40) * 0x40 + c.toNat % 0x40 =
        c.toNat := by omega
    rw [List.cons_append, List.cons_append, List.singleton_append, decode?.eq_def]
    dsimp only
    rw [if_neg hascii, if_neg hstray, if_neg htwo, if_pos hthree,
      continuation?_toUInt8 (hmod _), continuation?_toUInt8 (hmod _), toNat_toUInt8 hbyte,
      Nat.add_sub_cancel_left]
    change (charFrom? 0x800 _ >>= _) = _
    rw [hvalue, charFrom?_toNat (by omega)]
    rfl
  · next hmin =>
    have hbyte : 0xF0 + c.toNat / 0x40000 < 0x100 := by omega
    have hascii : ¬(0xF0 + c.toNat / 0x40000).toUInt8 < 0x80 :=
      not_toUInt8_lt hbyte (show 0x80 ≤ _ by omega)
    have hstray : ¬(0xF0 + c.toNat / 0x40000).toUInt8 < 0xC0 :=
      not_toUInt8_lt hbyte (show 0xC0 ≤ _ by omega)
    have htwo : ¬(0xF0 + c.toNat / 0x40000).toUInt8 < 0xE0 :=
      not_toUInt8_lt hbyte (show 0xE0 ≤ _ by omega)
    have hthree : ¬(0xF0 + c.toNat / 0x40000).toUInt8 < 0xF0 :=
      not_toUInt8_lt hbyte (show 0xF0 ≤ _ by omega)
    have hvalue : ((c.toNat / 0x40000 * 0x40 + c.toNat / 0x1000 % 0x40) * 0x40 +
        c.toNat / 0x40 % 0x40) * 0x40 + c.toNat % 0x40 = c.toNat := by omega
    rw [List.cons_append, List.cons_append, List.cons_append, List.singleton_append, decode?.eq_def]
    dsimp only
    rw [if_neg hascii, if_neg hstray, if_neg htwo, if_neg hthree,
      continuation?_toUInt8 (hmod _), continuation?_toUInt8 (hmod _),
      continuation?_toUInt8 (hmod _), toNat_toUInt8 hbyte, Nat.add_sub_cancel_left]
    change (charFrom? 0x10000 _ >>= _) = _
    rw [hvalue, charFrom?_toNat (by omega)]
    rfl

/-- Decoding undoes encoding. -/
theorem decode?_encode (s : List Char) : decode? (encode s) = some s := by
  induction s with
  | nil => rfl
  | cons c s ih =>
    rw [encode, List.flatMap_cons, decode?_encodeChar, ← encode, ih]
    rfl

end BindGen.Utf8
