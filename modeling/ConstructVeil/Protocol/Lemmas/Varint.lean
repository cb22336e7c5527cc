import Mathlib.Tactic.Ring
import ConstructVeil.Util.Machine
import ConstructVeil.Protocol.Impl.Varint

/-!
This module contains the correctness of the varint codec: the encoder writes the shortest LEB128
encoding, the decoder accepts exactly these encodings, waits exactly inside of one, and its verdicts
survive more input.
-/

namespace Veil

namespace encodeVarint

theorem go_zero : go 0 = [] := by
  rw [go]
  simp

theorem go_eq_leb128 (value : UInt64) (h : 0 < value) : go value = leb128 value.toNat := by
  have hrest := UInt64.toNat_shiftRight_7 value
  have hbyte : (value &&& 0x7F).toUInt8.toNat = value.toNat % 128 := by
    rw [UInt64.toNat_toUInt8, UInt64.toNat_and_low7]
    omega
  rw [go]
  simp only [h, ↓reduceDIte]
  split
  . next hlt =>
    have hpos := UInt64.lt_iff_toNat_lt.mp hlt
    simp only [UInt64.toNat_zero, hrest] at hpos
    have := UInt64.toNat_shiftRight_7_lt h
    rw [go_eq_leb128 (value >>> 7) hlt, hrest]
    rw [UInt8.or_top (by omega), hbyte]
    rw [← leb128_of_ge (by omega)]
  . next hge =>
    have hzero : value >>> 7 = 0 := by
      apply UInt64.toNat_inj.mp
      have := mt UInt64.lt_iff_toNat_lt.mpr hge
      simp only [UInt64.toNat_zero] at this ⊢
      omega
    have hlt : value.toNat < 128 := by
      rw [hzero] at hrest
      simp only [UInt64.toNat_zero] at hrest
      omega
    rw [hzero, go_zero, leb128_of_lt hlt]
    simp only [List.cons.injEq, and_true]
    apply UInt8.toNat_inj.mp
    rw [hbyte]
    simp
    omega
termination_by value.toNat

theorem length_go_le (value : UInt64) : (go value).length ≤ 10 := by
  by_cases h : 0 < value
  . rw [go_eq_leb128 value h]
    apply length_leb128_toNat_le
  . rw [go, dif_neg h]
    simp

end encodeVarint

theorem encodeVarint_eq_leb128 (value : UInt64) : encodeVarint value = leb128 value.toNat := by
  unfold encodeVarint
  split
  . next h =>
    rw [h, leb128_of_lt (by decide)]
    rfl
  . next h =>
    apply encodeVarint.go_eq_leb128
    apply UInt64.lt_iff_toNat_lt.mpr
    have : value.toNat ≠ 0 := by
      intro hzero
      apply h
      apply UInt64.toNat_inj.mp
      simpa using hzero
    simp only [UInt64.toNat_zero]
    omega

theorem encodeVarint_ofNat {n : Nat} (h : n < 2 ^ 64)
    : encodeVarint (UInt64.ofNat n) = leb128 n := by
  rw [encodeVarint_eq_leb128, UInt64.toNat_ofNat_of_lt' h]

theorem length_encodeVarint_pos (value : UInt64) : 0 < (encodeVarint value).length := by
  rw [encodeVarint_eq_leb128]
  apply length_leb128_pos

theorem length_encodeVarint_le (value : UInt64) : (encodeVarint value).length ≤ varintMaxBytes := by
  rw [encodeVarint_eq_leb128]
  apply length_leb128_toNat_le

namespace decodeVarintChecked

theorem toNat_low7 (byte : UInt8) : (byte &&& 0x7F).toUInt64.toNat = byte.toNat % 128 := by
  rw [UInt8.toNat_toUInt64, UInt8.toNat_and_low7]

theorem low7_eq_zero_iff (byte : UInt8) : (byte &&& 0x7F).toUInt64 = 0 ↔ byte.toNat % 128 = 0 := by
  rw [← UInt64.toNat_inj, toNat_low7]
  simp

theorem one_lt_low7_iff (byte : UInt8) : 1 < (byte &&& 0x7F).toUInt64 ↔ 1 < byte.toNat % 128 := by
  rw [UInt64.lt_iff_toNat_lt, toNat_low7]
  simp

theorem go_cons (byte : UInt8) (buf : Bytes) (result : UInt64) (k : Nat) (hk : k < 10)
    : go (byte :: buf) result k
        =
      if k = 9 ∧ 1 < byte.toNat % 128 then
        .malformed
      else if byte.toNat < 128 then
        if 0 < k ∧ byte.toNat = 0 then
          .malformed
        else
          .value (result ||| ((byte &&& 0x7F).toUInt64 <<< UInt64.ofNat (7 * k))) (k + 1)
      else
        go buf (result ||| ((byte &&& 0x7F).toUInt64 <<< UInt64.ofNat (7 * k))) (k + 1) := by
  have hmax : ¬ k = varintMaxBytes := by
    simp only [varintMaxBytes]
    omega
  have hten : k + 1 = varintMaxBytes ↔ k = 9 := by
    simp only [varintMaxBytes]
    omega
  rw [go]
  simp only [hmax, ↓reduceIte, hten, one_lt_low7_iff, UInt8.and_top_eq_zero_iff, low7_eq_zero_iff]
  split
  . rfl
  . split
    . next hlast =>
      have hzero : (1 < k + 1 ∧ byte.toNat % 128 = 0) ↔ (0 < k ∧ byte.toNat = 0) := by
        omega
      simp only [hzero]
    . rfl

theorem go_max (buf : Bytes) (result : UInt64) : go buf result 10 = .malformed := by
  rw [go.eq_def]
  simp [varintMaxBytes]

theorem go_nil_ne_value (result v : UInt64) (k n : Nat) : go [] result k ≠ .value v n := by
  rw [go]
  split
  . simp
  . simp

section Trip

variable {byte : UInt8} {result : UInt64} {k : Nat}

theorem go_last (buf : Bytes) (hk : k < 10) (hten : ¬ (k = 9 ∧ 1 < byte.toNat % 128))
    (hlast : byte.toNat < 128) (hcanon : byte.toNat = 0 → k = 0)
    : go (byte :: buf) result k
        =
      .value (result ||| ((byte &&& 0x7F).toUInt64 <<< UInt64.ofNat (7 * k))) (k + 1) := by
  rw [go_cons byte buf result k hk, if_neg hten, if_pos hlast, if_neg]
  omega

theorem go_again (buf : Bytes) (hk : k < 10) (hten : ¬ (k = 9 ∧ 1 < byte.toNat % 128))
    (hmore : 128 ≤ byte.toNat)
    : go (byte :: buf) result k
        =
      go buf (result ||| ((byte &&& 0x7F).toUInt64 <<< UInt64.ofNat (7 * k))) (k + 1) := by
  rw [go_cons byte buf result k hk, if_neg hten, if_neg]
  omega

/--
What the loop does with a byte, whatever comes behind it: it rejects the varint, ends it or goes
around once more.
-/
theorem trip (byte : UInt8) (result : UInt64) (hk : k ≤ 10)
    : (∀ buf, go (byte :: buf) result k = .malformed) ∨
      (k < 10 ∧ ¬ (k = 9 ∧ 1 < byte.toNat % 128) ∧ byte.toNat < 128 ∧ (byte.toNat = 0 → k = 0)) ∨
      (k < 10 ∧ ¬ (k = 9 ∧ 1 < byte.toNat % 128) ∧ 128 ≤ byte.toNat) := by
  rcases Nat.lt_or_eq_of_le hk with hlt | rfl
  . by_cases hten : k = 9 ∧ 1 < byte.toNat % 128
    . left
      intro buf
      rw [go_cons byte buf result k hlt, if_pos hten]
    . by_cases hlast : byte.toNat < 128
      . by_cases hcanon : 0 < k ∧ byte.toNat = 0
        . left
          intro buf
          rw [go_cons byte buf result k hlt, if_neg hten, if_pos hlast, if_pos hcanon]
        . right
          left
          exact ⟨hlt, hten, hlast, by omega⟩
      . right
        right
        exact ⟨hlt, hten, by omega⟩
  . left
    intro buf
    apply go_max

end Trip

theorem group_lt {k : Nat} (byte : UInt8) (hk : k < 10) (hten : ¬ (k = 9 ∧ 1 < byte.toNat % 128))
    : byte.toNat % 128 * 2 ^ (7 * k) < 2 ^ 64 := by
  -- only the 10th group can reach bit 64, and it is a single bit
  cases Nat.lt_or_ge k 9 with
  | inl hlt =>
    have hpow : 2 ^ (7 * k) ≤ 2 ^ 56 := Nat.pow_le_pow_right (by omega) (by omega)
    have := Nat.mul_le_mul (show byte.toNat % 128 ≤ 127 by omega) hpow
    omega
  | inr hge =>
    have hk9 : k = 9 := by omega
    subst hk9
    omega

theorem toNat_acc {result : UInt64} {k : Nat} (byte : UInt8) (hk : k < 10)
    (hresult : result.toNat < 2 ^ (7 * k)) (hten : ¬ (k = 9 ∧ 1 < byte.toNat % 128))
    : (result ||| ((byte &&& 0x7F).toUInt64 <<< UInt64.ofNat (7 * k))).toNat
        =
      result.toNat + byte.toNat % 128 * 2 ^ (7 * k) := by
  rw [UInt64.toNat_or_shiftLeft (by omega) hresult]
  . rw [toNat_low7]
  . rw [toNat_low7]
    exact group_lt byte hk hten

theorem pow_succ_group (k : Nat) : 2 ^ (7 * (k + 1)) = 128 * 2 ^ (7 * k) := by
  rw [Nat.mul_add, Nat.pow_add, Nat.mul_comm]

theorem acc_lt {result : UInt64} {k : Nat} (byte : UInt8) (hk : k < 10)
    (hresult : result.toNat < 2 ^ (7 * k)) (hten : ¬ (k = 9 ∧ 1 < byte.toNat % 128))
    : (result ||| ((byte &&& 0x7F).toUInt64 <<< UInt64.ofNat (7 * k))).toNat
        < 2 ^ (7 * (k + 1)) := by
  rw [toNat_acc byte hk hresult hten, pow_succ_group]
  have := Nat.mul_le_mul_right (2 ^ (7 * k)) (show byte.toNat % 128 ≤ 127 by omega)
  omega

/--
An accepted varint is the canonical encoding of the part of the value that is not in the
accumulator yet.
-/
theorem go_eq_value {buf : Bytes} {result v : UInt64} {k n : Nat} (hk : k ≤ 10)
    (hresult : result.toNat < 2 ^ (7 * k)) (h : go buf result k = .value v n)
    : ∃ w, v.toNat = result.toNat + w * 2 ^ (7 * k) ∧ (w = 0 → k = 0) ∧
        leb128 w <+: buf ∧ n = k + (leb128 w).length := by
  induction buf generalizing result k with
  | nil => exact absurd h (go_nil_ne_value result v k n)
  | cons byte buf ih =>
    rcases trip byte result hk with hreject | ⟨hlt, hten, hlast, hcanon⟩ | ⟨hlt, hten, hmore⟩
    . rw [hreject] at h
      cases h
    . rw [go_last buf hlt hten hlast hcanon] at h
      injection h with hv hn
      have hmod : byte.toNat % 128 = byte.toNat := by omega
      refine ⟨byte.toNat, ?_, hcanon, ?_, ?_⟩
      . rw [← hv, toNat_acc byte hlt hresult hten, hmod]
      . rw [leb128_of_lt hlast, UInt8.ofNat_toNat]
        simp
      . rw [leb128_of_lt hlast]
        simpa using hn.symm
    . rw [go_again buf hlt hten hmore] at h
      rcases ih (by omega) (acc_lt byte hlt hresult hten) h with ⟨w, hv, hzero, hpre, hn⟩
      -- the byte at hand holds the digit below those of `w`
      have hge : 128 ≤ byte.toNat % 128 + 128 * w := by omega
      have hbyte : byte.toNat < 256 := byte.toNat_lt
      have hdiv : (byte.toNat % 128 + 128 * w) / 128 = w := by omega
      have hmod : (byte.toNat % 128 + 128 * w) % 128 + 128 = byte.toNat := by omega
      refine ⟨byte.toNat % 128 + 128 * w, ?_, by omega, ?_, ?_⟩
      . rw [hv, toNat_acc byte hlt hresult hten, pow_succ_group]
        ring
      . rw [leb128_of_ge hge, hdiv, hmod, UInt8.ofNat_toNat]
        exact List.prefix_cons_inj byte |>.mpr hpre
      . rw [leb128_of_ge hge, hdiv, hn]
        simp only [List.length_cons]
        omega

/--
A value that fits a word has at most ten groups, and the 10th is a single bit.
-/
theorem group_of_fits {acc w k : Nat} (hzero : w = 0 → k = 0)
    (hfits : acc + w * 2 ^ (7 * k) < 2 ^ 64)
    : k < 10 ∧ (k = 9 → w ≤ 1) := by
  constructor
  . by_contra hge
    have hw : 1 ≤ w := by omega
    have hpow : 2 ^ 70 ≤ 2 ^ (7 * k) := Nat.pow_le_pow_right (by omega) (by omega)
    have := Nat.mul_le_mul hw hpow
    omega
  . intro hk9
    subst hk9
    omega

theorem group_add_rest (w k : Nat)
    : w % 128 * 2 ^ (7 * k) + w / 128 * 2 ^ (7 * (k + 1)) = w * 2 ^ (7 * k) := by
  rw [pow_succ_group]
  calc w % 128 * 2 ^ (7 * k) + w / 128 * (128 * 2 ^ (7 * k))
      = (w % 128 + 128 * (w / 128)) * 2 ^ (7 * k) := by ring
    _ = w * 2 ^ (7 * k) := by rw [Nat.mod_add_div]

theorem go_leb128 (w : Nat) (rest : Bytes) {result : UInt64} {k : Nat}
    (hresult : result.toNat < 2 ^ (7 * k)) (hzero : w = 0 → k = 0)
    (hfits : result.toNat + w * 2 ^ (7 * k) < 2 ^ 64)
    : go (leb128 w ++ rest) result k
        =
      .value (UInt64.ofNat (result.toNat + w * 2 ^ (7 * k))) (k + (leb128 w).length) := by
  rcases group_of_fits hzero hfits with ⟨hk, hnine⟩
  cases Nat.lt_or_ge w 128 with
  | inl hlt =>
    have hbyte : (UInt8.ofNat w).toNat = w :=
      UInt8.toNat_ofNat_of_lt' (Nat.lt_trans hlt (by decide))
    have hten : ¬ (k = 9 ∧ 1 < (UInt8.ofNat w).toNat % 128) := by omega
    rw [leb128_of_lt hlt, List.singleton_append, go_last rest hk hten (by omega) (by omega)]
    rw [List.length_singleton, Varint.value.injEq]
    refine ⟨?_, rfl⟩
    apply UInt64.toNat_inj.mp
    rw [toNat_acc _ hk hresult hten, hbyte, Nat.mod_eq_of_lt hlt, UInt64.toNat_ofNat_of_lt' hfits]
  | inr hge =>
    have hbyte : (UInt8.ofNat (w % 128 + 128)).toNat = w % 128 + 128 :=
      UInt8.toNat_ofNat_of_lt' (by simp only [UInt8.size]; omega)
    have hten : ¬ (k = 9 ∧ 1 < (UInt8.ofNat (w % 128 + 128)).toNat % 128) := by omega
    have hacc := acc_lt _ hk hresult hten
    have htoNat := toNat_acc _ hk hresult hten
    rw [hbyte, show (w % 128 + 128) % 128 = w % 128 by omega] at htoNat
    have hsum := group_add_rest w k
    have hvalue := go_leb128 (w / 128) rest hacc (by omega) (by omega)
    rw [htoNat, Nat.add_assoc, hsum] at hvalue
    rw [leb128_of_ge hge, List.cons_append, go_again _ hk hten (by omega), hvalue, List.length_cons,
      Nat.add_assoc, Nat.add_comm 1]
termination_by w

structure LoopVars where
  result : UInt64
  bytesRead : Nat

/--
The loop as a machine that is fed the bytes it reads. A step is a trip around the loop, so a byte on
which the loop returns has none.
-/
def loop : Machine LoopVars UInt8 where
  init := ⟨0, 0⟩
  step vars byte :=
    let low7 := (byte &&& 0x7F).toUInt64
    if vars.bytesRead = varintMaxBytes then
      none
    else if vars.bytesRead + 1 = varintMaxBytes ∧ 1 < low7 then
      none
    else if byte &&& 0x80 = 0 then
      none
    else
      some ⟨vars.result ||| (low7 <<< UInt64.ofNat (7 * vars.bytesRead)), vars.bytesRead + 1⟩

theorem loop_step_eq_some_iff {vars vars' : LoopVars} {byte : UInt8}
    : loop.step vars byte = some vars'
        ↔
      vars.bytesRead ≠ varintMaxBytes ∧
        ¬ (vars.bytesRead + 1 = varintMaxBytes ∧ 1 < (byte &&& 0x7F).toUInt64) ∧
        ¬ byte &&& 0x80 = 0 ∧
        vars' = ⟨vars.result ||| ((byte &&& 0x7F).toUInt64 <<< UInt64.ofNat (7 * vars.bytesRead)),
          vars.bytesRead + 1⟩ := by
  unfold loop
  dsimp only
  split
  . next hmax => simp only [hmax, reduceCtorEq, ne_eq, not_true_eq_false, false_and]
  . next hmax =>
    split
    . next hten => simp only [hten, reduceCtorEq, and_self, not_true_eq_false, false_and, and_false]
    . next hten =>
      split
      . next hlast => simp only [hlast, reduceCtorEq, not_true_eq_false, false_and, and_false]
      . next hmore =>
        simp only [hmax, hten, hmore, Option.some.injEq, ne_eq, not_false_eq_true, true_and]
        exact eq_comm

theorem go_of_loop_step {vars vars' : LoopVars} {byte : UInt8} (buf : Bytes)
    (h : loop.step vars byte = some vars')
    : go (byte :: buf) vars.result vars.bytesRead = go buf vars'.result vars'.bytesRead := by
  rw [loop_step_eq_some_iff] at h
  rcases h with ⟨hmax, hten, hmore, hvars'⟩
  rw [go, hvars']
  simp only [hmax, hten, hmore, ↓reduceIte]

theorem go_of_loop_run {vars vars' : LoopVars} {read : Bytes} (rest : Bytes)
    (h : loop.run vars read = some vars')
    : go (read ++ rest) vars.result vars.bytesRead = go rest vars'.result vars'.bytesRead := by
  induction read generalizing vars with
  | nil =>
    injection h with h
    rw [List.nil_append, h]
  | cons byte read ih =>
    rw [Machine.run_cons_eq_some_iff] at h
    rcases h with ⟨mid, hstep, hrun⟩
    rw [List.cons_append, go_of_loop_step _ hstep, ih hrun]

theorem bytesRead_of_loop_run {vars vars' : LoopVars} {read : Bytes}
    (h : loop.run vars read = some vars') : vars'.bytesRead = vars.bytesRead + read.length := by
  induction read generalizing vars with
  | nil =>
    injection h with h
    rw [h, List.length_nil, Nat.add_zero]
  | cons byte read ih =>
    rw [Machine.run_cons_eq_some_iff] at h
    rcases h with ⟨mid, hstep, hrun⟩
    rw [loop_step_eq_some_iff] at hstep
    rcases hstep with ⟨_, _, _, hmid⟩
    rw [ih hrun, hmid, List.length_cons]
    dsimp only
    omega

/--
The loop only asks for more bytes at its top, so every byte so far has led it there.
-/
theorem go_eq_incomplete_iff {buf : Bytes} {vars : LoopVars}
    : go buf vars.result vars.bytesRead = .incomplete
        ↔
      ∃ vars', loop.run vars buf = some vars' ∧ vars'.bytesRead ≠ varintMaxBytes := by
  constructor
  . intro h
    induction buf generalizing vars with
    | nil =>
      refine ⟨vars, rfl, ?_⟩
      intro hmax
      rw [go, if_pos hmax] at h
      cases h
    | cons byte buf ih =>
      rw [go] at h
      dsimp only at h
      split at h
      . cases h
      . next hmax =>
        split at h
        . cases h
        . next hten =>
          split at h
          . split at h
            . cases h
            . cases h
          . next hmore =>
            rcases @ih ⟨_, _⟩ h with ⟨vars', hrun, hmax'⟩
            refine ⟨vars', ?_, hmax'⟩
            rw [Machine.run_cons_eq_some_iff]
            exact ⟨_, loop_step_eq_some_iff.mpr ⟨hmax, hten, hmore, rfl⟩, hrun⟩
  . intro h
    rcases h with ⟨vars', hrun, hmax⟩
    have hgo := go_of_loop_run [] hrun
    rw [List.append_nil] at hgo
    rw [hgo, go, if_neg hmax]

theorem bounds_of_loop_reachable {vars : LoopVars} (h : loop.Reachable vars)
    : vars.bytesRead ≤ 10 ∧ vars.result.toNat < 2 ^ (7 * vars.bytesRead) := by
  apply Machine.Reachable.induction loop h
  . simp [loop]
  . intro byte vars vars' ih hstep
    rw [loop_step_eq_some_iff] at hstep
    rcases hstep with ⟨hmax, hten, _, hvars'⟩
    rw [one_lt_low7_iff] at hten
    simp only [varintMaxBytes] at hmax hten
    rw [hvars']
    refine ⟨by dsimp only; omega, ?_⟩
    apply acc_lt byte (by omega) ih.2
    omega

theorem incomplete_iff_loop_run {buf : Bytes}
    : decodeVarintChecked buf = .incomplete
        ↔
      ∃ vars, loop.run loop.init buf = some vars ∧ vars.bytesRead ≠ varintMaxBytes := by
  rw [← go_eq_incomplete_iff]
  rfl

theorem loop_run_of_incomplete {buf : Bytes} (h : decodeVarintChecked buf = .incomplete)
    : ∃ vars, loop.run loop.init buf = some vars ∧ vars.bytesRead < 10 := by
  rw [incomplete_iff_loop_run] at h
  rcases h with ⟨vars, hrun, hmax⟩
  have := (bounds_of_loop_reachable ⟨buf, hrun⟩).1
  simp only [varintMaxBytes] at hmax
  exact ⟨vars, hrun, by omega⟩

theorem go_malformed_append {buf : Bytes} {result : UInt64} {k : Nat} (ext : Bytes) (hk : k ≤ 10)
    (h : go buf result k = .malformed) : go (buf ++ ext) result k = .malformed := by
  induction buf generalizing result k with
  | nil =>
    rw [go] at h
    split at h
    . next hmax =>
      rw [hmax]
      apply go_max
    . cases h
  | cons byte buf ih =>
    rw [List.cons_append]
    rcases trip byte result hk with hreject | ⟨hlt, hten, hlast, hcanon⟩ | ⟨hlt, hten, hmore⟩
    . apply hreject
    . rw [go_last buf hlt hten hlast hcanon] at h
      cases h
    . rw [go_again buf hlt hten hmore] at h
      rw [go_again _ hlt hten hmore]
      apply ih
      . omega
      . exact h

end decodeVarintChecked

/--
The decoder accepts exactly the buffers that start with a canonical encoding.
-/
theorem decodeVarintChecked_eq_value_iff (buf : Bytes) (v : UInt64) (n : Nat)
    : decodeVarintChecked buf = .value v n
        ↔
      leb128 v.toNat <+: buf ∧ n = (leb128 v.toNat).length := by
  constructor
  . intro h
    rcases decodeVarintChecked.go_eq_value (by omega) (by simp) h with ⟨w, hv, _, hpre, hn⟩
    simp only [UInt64.toNat_zero, Nat.mul_zero, Nat.pow_zero, Nat.mul_one, Nat.zero_add] at hv hn
    rw [hv]
    exact ⟨hpre, hn⟩
  . intro h
    rcases h with ⟨⟨rest, hbuf⟩, hn⟩
    have hv : v.toNat < 2 ^ 64 := v.toNat_lt
    unfold decodeVarintChecked
    rw [← hbuf, decodeVarintChecked.go_leb128 v.toNat rest (by simp) (by omega) (by simpa using hv)]
    simp [hn]

theorem decodeVarintChecked_encodeVarint (v : UInt64) (rest : Bytes)
    : decodeVarintChecked (encodeVarint v ++ rest) = .value v (encodeVarint v).length := by
  rw [decodeVarintChecked_eq_value_iff, encodeVarint_eq_leb128]
  exact ⟨List.prefix_append _ rest, rfl⟩

theorem exists_encodeVarint_prefix_iff {buf : Bytes}
    : (∃ v, encodeVarint v <+: buf) ↔ ∃ v n, decodeVarintChecked buf = .value v n := by
  constructor
  . intro h
    rcases h with ⟨v, rest, hrest⟩
    rw [← hrest]
    exact ⟨v, _, decodeVarintChecked_encodeVarint v rest⟩
  . intro h
    rcases h with ⟨v, n, hvalue⟩
    rw [decodeVarintChecked_eq_value_iff, ← encodeVarint_eq_leb128] at hvalue
    exact ⟨v, hvalue.1⟩

theorem decodeVarintChecked_leb128 {n : Nat} (rest : Bytes) (h : n < 2 ^ 64)
    : decodeVarintChecked (leb128 n ++ rest) = .value (UInt64.ofNat n) (leb128 n).length := by
  rw [decodeVarintChecked_eq_value_iff, UInt64.toNat_ofNat_of_lt' h]
  simp

theorem decodeVarintChecked_incomplete {buf : Bytes} (h : decodeVarintChecked buf = .incomplete)
    : buf.length < 10 := by
  rcases decodeVarintChecked.loop_run_of_incomplete h with ⟨vars, hrun, hlt⟩
  have := decodeVarintChecked.bytesRead_of_loop_run hrun
  have hinit : decodeVarintChecked.loop.init.bytesRead = 0 := rfl
  omega

theorem decodeVarintChecked_value_append {buf : Bytes} {v : UInt64} {n : Nat} (ext : Bytes)
    (h : decodeVarintChecked buf = .value v n) : decodeVarintChecked (buf ++ ext) = .value v n := by
  rw [decodeVarintChecked_eq_value_iff] at h ⊢
  exact ⟨h.1.trans (List.prefix_append buf ext), h.2⟩

theorem decodeVarintChecked_malformed_append {buf : Bytes} (ext : Bytes)
    (h : decodeVarintChecked buf = .malformed) : decodeVarintChecked (buf ++ ext) = .malformed := by
  unfold decodeVarintChecked at h ⊢
  exact decodeVarintChecked.go_malformed_append ext (by omega) h

theorem decodeVarintChecked_of_loop_run {vars : decodeVarintChecked.LoopVars} {read : Bytes}
    (rest : Bytes) (h : decodeVarintChecked.loop.run decodeVarintChecked.loop.init read = some vars)
    : decodeVarintChecked (read ++ rest)
        =
      decodeVarintChecked.go rest vars.result vars.bytesRead :=
  decodeVarintChecked.go_of_loop_run rest h

/--
The byte `1` ends every varint that is still open: it is not an overlong ending, and even the 10th
byte may hold it.
-/
theorem exists_encodeVarint_of_incomplete {buf : Bytes} (h : decodeVarintChecked buf = .incomplete)
    : ∃ v, encodeVarint v = buf ++ [1] := by
  rcases decodeVarintChecked.loop_run_of_incomplete h with ⟨vars, hrun, hlt⟩
  have hone : (1 : UInt8).toNat = 1 := rfl
  have hvalue := decodeVarintChecked_of_loop_run [1] hrun
  rw [decodeVarintChecked.go_last [] hlt (by omega) (by omega) (by omega)] at hvalue
  rw [decodeVarintChecked_eq_value_iff, ← encodeVarint_eq_leb128, List.prefix_concat_iff] at hvalue
  rcases hvalue.1 with heq | ⟨rest, hrest⟩
  . exact ⟨_, heq⟩
  . -- the varint would have been complete without it
    rw [← hrest, decodeVarintChecked_encodeVarint] at h
    cases h

theorem decodeVarintChecked_eq_incomplete_iff (buf : Bytes)
    : decodeVarintChecked buf = .incomplete
        ↔
      ∃ v, buf <+: encodeVarint v ∧ buf ≠ encodeVarint v := by
  constructor
  . intro h
    rcases exists_encodeVarint_of_incomplete h with ⟨v, hv⟩
    refine ⟨v, ?_, ?_⟩
    . rw [hv]
      apply List.prefix_append
    . simp [hv]
  . intro h
    rcases h with ⟨v, ⟨ext, hext⟩, hne⟩
    have hvalue := decodeVarintChecked_encodeVarint v []
    rw [List.append_nil, ← hext] at hvalue
    -- either of the other verdicts would survive the bytes that are missing
    cases hbuf : decodeVarintChecked buf with
    | incomplete => rfl
    | malformed =>
      rw [decodeVarintChecked_malformed_append ext hbuf] at hvalue
      cases hvalue
    | value v' n =>
      rw [decodeVarintChecked_value_append ext hbuf] at hvalue
      injection hvalue with hv hn
      rw [decodeVarintChecked_eq_value_iff, hv, ← encodeVarint_eq_leb128, ← hext] at hbuf
      rcases hbuf with ⟨hpre, _⟩
      have hlen := hpre.length_le
      have hnil : ext = [] := by
        apply List.length_eq_zero_iff.mp
        rw [List.length_append] at hlen
        omega
      rw [hnil, List.append_nil] at hext
      exact absurd hext hne

theorem decodeVarintChecked_eq_malformed_iff (buf : Bytes)
    : decodeVarintChecked buf = .malformed ↔ ¬ ∃ ext v, encodeVarint v <+: buf ++ ext := by
  constructor
  . intro h hext
    rcases hext with ⟨ext, hpre⟩
    rw [exists_encodeVarint_prefix_iff] at hpre
    rcases hpre with ⟨v, n, hvalue⟩
    rw [decodeVarintChecked_malformed_append ext h] at hvalue
    cases hvalue
  . intro h
    cases hbuf : decodeVarintChecked buf with
    | malformed => rfl
    | value v n =>
      exfalso
      apply h
      refine ⟨[], ?_⟩
      rw [List.append_nil, exists_encodeVarint_prefix_iff]
      exact ⟨v, n, hbuf⟩
    | incomplete =>
      exfalso
      apply h
      rcases exists_encodeVarint_of_incomplete hbuf with ⟨v, hv⟩
      refine ⟨[1], v, ?_⟩
      rw [hv]

end Veil
