import ConstructVeil.Util.ByteSeq

/-!
This module contains the LEB128 encoding of natural numbers, i.e. base 128 digits with the least
significant one first and the top bit set on all but the last, together with the bit level facts
that relate it to implementations on machine words.
-/

/--
The shortest LEB128 encoding of `v`.
-/
def leb128 (v : Nat) : Bytes :=
  if v < 128 then
    [UInt8.ofNat v]
  else
    UInt8.ofNat (v % 128 + 128) :: leb128 (v / 128)
termination_by v

theorem leb128_of_lt {v : Nat} (h : v < 128) : leb128 v = [UInt8.ofNat v] := by
  rw [leb128]
  simp [h]

theorem leb128_of_ge {v : Nat} (h : 128 ≤ v)
    : leb128 v = UInt8.ofNat (v % 128 + 128) :: leb128 (v / 128) := by
  rw [leb128]
  simp [Nat.not_lt.mpr h]

theorem length_leb128_pos (v : Nat) : 0 < (leb128 v).length := by
  rw [leb128]
  split <;> simp

theorem length_leb128_of_lt {v : Nat} (h : v < 128) : (leb128 v).length = 1 := by
  simp [leb128_of_lt h]

theorem length_leb128_of_ge {v : Nat} (h : 128 ≤ v)
    : (leb128 v).length = (leb128 (v / 128)).length + 1 := by
  simp [leb128_of_ge h]

theorem length_leb128_le {v k : Nat} (h : v < 128 ^ (k + 1)) : (leb128 v).length ≤ k + 1 := by
  induction k generalizing v with
  | zero =>
    rw [length_leb128_of_lt (by simpa using h)]
  | succ k ih =>
    cases Nat.lt_or_ge v 128 with
    | inl hlt =>
      rw [length_leb128_of_lt hlt]
      omega
    | inr hge =>
      have hdiv : v / 128 < 128 ^ (k + 1) := by
        rw [Nat.div_lt_iff_lt_mul (by omega)]
        rw [Nat.pow_succ] at h
        exact h
      rw [length_leb128_of_ge hge]
      have := ih hdiv
      omega

theorem length_leb128_toNat_le (v : UInt64) : (leb128 v.toNat).length ≤ 10 := by
  apply length_leb128_le
  have := v.toNat_lt
  omega

theorem UInt8.toNat_and_low7 (b : UInt8) : (b &&& 0x7F).toNat = b.toNat % 128 := by
  rw [UInt8.toNat_and]
  exact Nat.and_two_pow_sub_one_eq_mod b.toNat 7

theorem UInt8.and_top_eq_zero_iff (b : UInt8) : b &&& 0x80 = 0 ↔ b.toNat < 128 := by
  have htable : ∀ i : Fin 256, UInt8.ofNat i.val &&& 0x80 = 0 ↔ i.val < 128 := by
    decide +kernel
  have hb := htable ⟨b.toNat, b.toNat_lt⟩
  rw [UInt8.ofNat_toNat] at hb
  exact hb

theorem UInt8.or_top {b : UInt8} (h : b.toNat < 128)
    : b ||| 0x80 = UInt8.ofNat (b.toNat + 128) := by
  have htable : ∀ i : Fin 128, UInt8.ofNat i.val ||| 0x80 = UInt8.ofNat (i.val + 128) := by
    decide +kernel
  have hb := htable ⟨b.toNat, h⟩
  rw [UInt8.ofNat_toNat] at hb
  exact hb

theorem UInt64.toNat_and_low7 (v : UInt64) : (v &&& 0x7F).toNat = v.toNat % 128 := by
  rw [UInt64.toNat_and]
  exact Nat.and_two_pow_sub_one_eq_mod v.toNat 7

theorem UInt64.toNat_shiftRight_7 (v : UInt64) : (v >>> 7).toNat = v.toNat / 128 := by
  rw [UInt64.toNat_shiftRight]
  exact Nat.shiftRight_eq_div_pow v.toNat 7

theorem UInt64.toNat_shiftRight_7_lt {v : UInt64} (h : 0 < v) : (v >>> 7).toNat < v.toNat := by
  have hpos := UInt64.lt_iff_toNat_lt.mp h
  simp only [UInt64.toNat_zero] at hpos
  rw [UInt64.toNat_shiftRight_7]
  omega

theorem UInt64.toNat_shiftLeft_ofNat {low : UInt64} {shift : Nat} (hshift : shift < 64)
    (hlow : low.toNat * 2 ^ shift < 2 ^ 64)
    : (low <<< UInt64.ofNat shift).toNat = low.toNat * 2 ^ shift := by
  have hs : (UInt64.ofNat shift).toNat % 64 = shift := by
    rw [UInt64.toNat_ofNat_of_lt' (Nat.lt_trans hshift (by decide))]
    exact Nat.mod_eq_of_lt hshift
  rw [UInt64.toNat_shiftLeft, hs, Nat.shiftLeft_eq, Nat.mod_eq_of_lt hlow]

/--
Or-ing a seven bit group in above the bits that are already there is an addition.
-/
theorem UInt64.toNat_or_shiftLeft {acc low : UInt64} {shift : Nat} (hshift : shift < 64)
    (hacc : acc.toNat < 2 ^ shift) (hlow : low.toNat * 2 ^ shift < 2 ^ 64)
    : (acc ||| (low <<< UInt64.ofNat shift)).toNat = acc.toNat + low.toNat * 2 ^ shift := by
  rw [UInt64.toNat_or, UInt64.toNat_shiftLeft_ofNat hshift hlow]
  rw [← Nat.shiftLeft_eq, Nat.or_comm, ← Nat.shiftLeft_add_eq_or_of_lt hacc, Nat.add_comm]
