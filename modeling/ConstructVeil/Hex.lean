import ConstructVeil.Relay.Impl.ConfigLink
import ConstructVeil.Ffi.Impl.Start

/-!
This module contains the comparison of the two hex decoders, the one of `make-config-link` over
slices of a text and the one for the pins over its characters.
-/

namespace Veil

def IsHexDigit (c : Char) : Prop := ('0' ≤ c ∧ c ≤ '9') ∨ ('a' ≤ c ∧ c ≤ 'f') ∨ ('A' ≤ c ∧ c ≤ 'F')

instance (c : Char) : Decidable (IsHexDigit c) :=
  inferInstanceAs (Decidable (('0' ≤ c ∧ c ≤ '9') ∨ ('a' ≤ c ∧ c ≤ 'f') ∨ ('A' ≤ c ∧ c ≤ 'F')))

def IsHex (s : List Char) : Prop := s.length % 2 = 0 ∧ ∀ c ∈ s, IsHexDigit c

/--
The pairs that `hexDecode` reads as a byte: it takes a sign for the first digit.
-/
def IsPair (c c' : Char) : Prop := (c = '+' ∨ IsHexDigit c) ∧ IsHexDigit c'

instance (c c' : Char) : Decidable (IsPair c c') :=
  inferInstanceAs (Decidable ((c = '+' ∨ IsHexDigit c) ∧ IsHexDigit c'))

/--
What is left of a text after the longest run of such pairs.
-/
def afterPairs : List Char → List Char
  | c :: c' :: rest => if IsPair c c' then afterPairs rest else c :: c' :: rest
  | s => s

section Pairs

variable {c c' : Char} {rest : List Char}

theorem isSome_hexDigit (c : Char) : (hexDigit c).isSome = true ↔ IsHexDigit c :=
  isSome_hexDigit_iff c

theorem not_isHexDigit_plus : ¬IsHexDigit '+' := by
  decide

theorem isSome_u8FromStrRadix16 : (Str.u8FromStrRadix16 [c, c']).isSome = true ↔ IsPair c c' := by
  rw [Str.u8FromStrRadix16_two, IsPair, ← isSome_hexDigit, ← isSome_hexDigit]
  split
  . next h => simp [h]
  . next h =>
    cases hexDigit c with
    | none => simp [h]
    | some hi => simp

theorem IsHexDigit.utf8Size (h : IsHexDigit c) : c.utf8Size = 1 :=
  Str.utf8Size_of_hexDigit ((isSome_hexDigit c).mpr h)

theorem IsPair.front (h : IsPair c c') (rest : List Char)
    : Str.FrontTwo (c :: c' :: rest) [c, c'] rest := by
  rcases h with ⟨rfl | hc, hc'⟩
  . exact .ascii rest rfl hc'.utf8Size
  . exact .ascii rest hc.utf8Size hc'.utf8Size

theorem hexDecode_go_pair (h : IsPair c c') (rest : List Char)
    : ∃ b, Str.u8FromStrRadix16 [c, c'] = some b ∧
        hexDecode.go (Str.len (c :: c' :: rest) / 2) (c :: c' :: rest)
          =
        (hexDecode.go (Str.len rest / 2) rest).map (Option.map (b :: ·)) := by
  rcases Option.isSome_iff_exists.mp (isSome_u8FromStrRadix16.mpr h) with ⟨b, hb⟩
  refine ⟨b, hb, ?_⟩
  rw [(h.front rest).len, Nat.add_div_right _ (by decide), hexDecode.go,
    Str.splitAt_two_of_front (h.front rest)]
  dsimp only
  rw [hb]
  dsimp only
  cases hexDecode.go (Str.len rest / 2) rest with
  | error e => rfl
  | ok bytes => rfl

end Pairs

section Slices

variable {s slice rest : List Char}

theorem decodeHex_go_pair {c c' : Char} {b : UInt8} {bytes : Bytes} (hc : IsHexDigit c)
    (hb : Str.u8FromStrRadix16 [c, c'] = some b) (hrest : decodeHex.go rest = some bytes)
    : decodeHex.go (c :: c' :: rest) = some (b :: bytes) := by
  have hplus : c ≠ '+' := by
    rintro rfl
    exact not_isHexDigit_plus hc
  rw [Str.u8FromStrRadix16_two, if_neg hplus] at hb
  rcases Option.bind_eq_some_iff.mp hb with ⟨hi, hhi, hb⟩
  rcases Option.map_eq_some_iff.mp hb with ⟨lo, hlo, hb⟩
  simp only [decodeHex.go, hhi, hlo, hrest, hb]

theorem hexDecode_go_all (h : afterPairs s = [])
    : ∃ bytes, hexDecode.go (Str.len s / 2) s = .ok (some bytes) ∧
        ((∀ c ∈ s, IsHexDigit c) → decodeHex.go s = some bytes) := by
  fun_induction afterPairs s with
  | case1 c c' rest hpair ih =>
    rcases ih h with ⟨bytes, hgo, hdecode⟩
    rcases hexDecode_go_pair hpair rest with ⟨b, hb, hstep⟩
    refine ⟨b :: bytes, ?_, ?_⟩
    . rw [hstep, hgo]
      rfl
    . intro hall
      rw [List.forall_mem_cons, List.forall_mem_cons] at hall
      exact decodeHex_go_pair hall.1 hb (hdecode hall.2.2)
  | case2 c c' rest hpair => cases h
  | case3 s hs =>
    subst h
    exact ⟨[], rfl, fun _ => rfl⟩

theorem hexDecode_go_none (h : Str.FrontTwo s slice rest)
    (hnone : Str.u8FromStrRadix16 slice = none)
    : hexDecode.go (Str.len s / 2) s = .ok none := by
  rw [h.len, Nat.add_div_right _ (by decide), hexDecode.go, Str.splitAt_two_of_front h]
  dsimp only
  rw [hnone]

theorem hexDecode_go_stops (h : Str.FrontTwo (afterPairs s) slice rest)
    : hexDecode.go (Str.len s / 2) s = .ok none := by
  fun_induction afterPairs s with
  | case1 c c' rest' hpair ih =>
    rcases hexDecode_go_pair hpair rest' with ⟨b, _, hstep⟩
    rw [hstep, ih h]
    rfl
  | case2 c c' rest' hpair =>
    apply hexDecode_go_none h
    cases h with
    | ascii => simpa [← isSome_u8FromStrRadix16] using hpair
    | wide _ hc => exact Str.u8FromStrRadix16_wide hc
  | case3 s hs =>
    apply hexDecode_go_none h
    cases h with
    | ascii rest => exact absurd rfl (hs _ _ rest)
    | wide _ hc => exact Str.u8FromStrRadix16_wide hc

theorem hexDecode_go_error (hlen : Str.len s % 2 = 0) (hne : s ≠ [])
    (h : ∀ slice rest, ¬Str.FrontTwo s slice rest)
    : hexDecode.go (Str.len s / 2) s = .error .charBoundary := by
  cases hhalf : Str.len s / 2 with
  | zero =>
    cases s with
    | nil => contradiction
    | cons c s =>
      have hpos := c.utf8Size_pos
      rw [Str.len_cons] at hhalf hlen
      omega
  | succ n => rw [hexDecode.go, Str.splitAt_two_of_not_front hlen hne h]

theorem hexDecode_go_panics (hlen : Str.len s % 2 = 0) (hne : afterPairs s ≠ [])
    (h : ∀ slice rest, ¬Str.FrontTwo (afterPairs s) slice rest)
    : hexDecode.go (Str.len s / 2) s = .error .charBoundary := by
  fun_induction afterPairs s with
  | case1 c c' rest hpair ih =>
    rcases hexDecode_go_pair hpair rest with ⟨b, _, hstep⟩
    rw [(hpair.front rest).len] at hlen
    rw [hstep, ih (by omega) hne h]
    rfl
  | case2 c c' rest hpair => exact hexDecode_go_error hlen hne h
  | case3 s hs => exact hexDecode_go_error hlen hne h

end Slices

section Digits

variable {s : List Char}

theorem isHex_cons_cons {c c' : Char} {rest : List Char}
    : IsHex (c :: c' :: rest) ↔ IsHexDigit c ∧ IsHexDigit c' ∧ IsHex rest := by
  unfold IsHex
  rw [List.forall_mem_cons, List.forall_mem_cons, List.length_cons, List.length_cons]
  constructor
  . rintro ⟨hlen, hc, hc', hrest⟩
    exact ⟨hc, hc', by omega, hrest⟩
  . rintro ⟨hc, hc', hlen, hrest⟩
    exact ⟨by omega, hc, hc', hrest⟩

theorem isSome_decodeHex_go (s : List Char) : (decodeHex.go s).isSome = true ↔ IsHex s := by
  match s with
  | [] => simp [decodeHex.go, IsHex]
  | [c] => simp [decodeHex.go, IsHex]
  | c :: c' :: rest =>
    rw [isHex_cons_cons, ← isSome_hexDigit, ← isSome_hexDigit, ← isSome_decodeHex_go rest,
      decodeHex.go]
    cases hexDigit c <;> cases hexDigit c' <;> cases decodeHex.go rest <;> simp

theorem isSome_decodeHex (s : String) : (decodeHex s).isSome = true ↔ IsHex s.toList := by
  unfold decodeHex
  split
  . next h =>
    rw [List.any_eq_true] at h
    rcases h with ⟨c, hc, hlarge⟩
    simp only [Option.isSome_none, Bool.false_eq_true, false_iff]
    intro hhex
    have := toNat_lt_of_hexDigit ((isSome_hexDigit c).mpr (hhex.2 c hc))
    simp only [decide_eq_true_eq] at hlarge
    omega
  . apply isSome_decodeHex_go

theorem decodeHex_eq_go {s : String} (h : IsHex s.toList)
    : decodeHex s = decodeHex.go s.toList := by
  have hsome := (isSome_decodeHex s).mpr h
  unfold decodeHex at hsome ⊢
  split at hsome
  . cases hsome
  . next h => rw [if_neg h]

theorem hexByte_digits {hi lo : Nat} (hhi : hi < 16) (hlo : lo < 16)
    : (hexByte (UInt8.ofNat (hi * 16 + lo))).toList = [Nat.digitChar hi, Nat.digitChar lo] := by
  have hbyte : (UInt8.ofNat (hi * 16 + lo)).toNat = hi * 16 + lo := by
    rw [UInt8.toNat_ofNat']
    omega
  rw [hexByte, hbyte, String.toList_ofList]
  congr 2
  . omega
  . congr 1
    omega

theorem toList_hexEncode_of_go {s : List Char} {bytes : Bytes} (h : decodeHex.go s = some bytes)
    : (hexEncode bytes).toList = s.map Char.toLower := by
  match s with
  | [] =>
    injection h with h
    rw [← h]
    rfl
  | [c] => cases h
  | c :: c' :: rest =>
    rw [decodeHex.go] at h
    split at h
    . next hi lo bytes' hhi hlo hrest =>
      injection h with h
      have ih := toList_hexEncode_of_go hrest
      rcases hexDigit_eq_some hhi with ⟨hhi, hc⟩
      rcases hexDigit_eq_some hlo with ⟨hlo, hc'⟩
      rw [hexEncode, String.toList_join] at ih
      rw [← h, hexEncode, String.toList_join, List.map_cons, List.flatMap_cons, ih,
        hexByte_digits hhi hlo, hc, hc']
      rfl
    . cases h

theorem hexEncode_of_decodeHex {s : String} {bytes : Bytes} (h : decodeHex s = some bytes)
    : hexEncode bytes = s.toLower := by
  have hhex : IsHex s.toList := (isSome_decodeHex s).mp (by rw [h]; rfl)
  rw [decodeHex_eq_go hhex] at h
  apply String.toList_injective
  rw [toList_hexEncode_of_go h]
  exact String.toList_map.symm

theorem afterPairs_of_isHex (h : IsHex s) : afterPairs s = [] := by
  fun_induction afterPairs s with
  | case1 c c' rest hpair ih =>
    rw [isHex_cons_cons] at h
    exact ih h.2.2
  | case2 c c' rest hpair =>
    rw [isHex_cons_cons] at h
    exact absurd ⟨Or.inr h.1, h.2.1⟩ hpair
  | case3 s hs =>
    match s with
    | [] => rfl
    | [c] => simp [IsHex] at h
    | c :: c' :: rest => exact absurd rfl (hs c c' rest)

end Digits

structure HexDecodersAgree (s : String) : Prop where
  same : hexDecode s = .ok (decodeHex s)
  hex : (decodeHex s).isSome = true ↔ IsHex s.toList
  encode : ∀ bytes, decodeHex s = some bytes → hexEncode bytes = s.toLower

theorem hexDecodersAgree_iff_eq (s : String)
    : HexDecodersAgree s ↔ hexDecode s = .ok (decodeHex s) := by
  constructor
  . intro h
    exact h.same
  . intro h
    exact ⟨h, isSome_decodeHex s, fun _ => hexEncode_of_decodeHex⟩

theorem len_of_forall_isHexDigit {s : List Char} (h : ∀ c ∈ s, IsHexDigit c)
    : Str.len s = s.length := by
  induction s with
  | nil => rfl
  | cons c s ih =>
    rw [List.forall_mem_cons] at h
    rw [Str.len_cons, h.1.utf8Size, ih h.2, List.length_cons]
    omega

theorem isHex_iff_of_even {s : List Char} (h : Str.len s % 2 = 0)
    : IsHex s ↔ ∀ c ∈ s, IsHexDigit c := by
  constructor
  . intro hhex
    exact hhex.2
  . intro hall
    rw [len_of_forall_isHexDigit hall] at h
    exact ⟨h, hall⟩

theorem decodeHex_eq_none {s : String} (h : ¬IsHex s.toList) : decodeHex s = none := by
  rwa [← isSome_decodeHex, Option.not_isSome_iff_eq_none] at h

theorem hexDecode_eq_of_pairs {s : String} (heven : Str.len s.toList % 2 = 0)
    (hpairs : afterPairs s.toList = [])
    : hexDecode.go (Str.len s.toList / 2) s.toList = .ok (decodeHex s)
        ↔
      ∀ c ∈ s.toList, IsHexDigit c := by
  rcases hexDecode_go_all hpairs with ⟨bytes, hgo, hdecode⟩
  rw [hgo, ← isHex_iff_of_even heven]
  constructor
  . intro h
    injection h with h
    rw [← isSome_decodeHex, ← h]
    rfl
  . intro hhex
    rw [decodeHex_eq_go hhex, hdecode hhex.2]

/--
The two decoders agree on the texts of odd length, on the ones with no character but digits, and on
those where the first slice that is neither two digits nor a sign and a digit is a slice at all. On
the other ones the sign is read as a digit, or a slice cuts through a character.
-/
theorem hex_decoders_agree_iff (s : String)
    : HexDecodersAgree s
        ↔
      Str.len s.toList % 2 = 1 ∨ (∀ c ∈ s.toList, IsHexDigit c) ∨
        ∃ slice rest, Str.FrontTwo (afterPairs s.toList) slice rest := by
  rw [hexDecodersAgree_iff_eq]
  unfold hexDecode
  by_cases hodd : Str.len s.toList % 2 = 1
  . have hnot : ¬IsHex s.toList := by
      intro hhex
      rw [len_of_forall_isHexDigit hhex.2] at hodd
      have := hhex.1
      omega
    rw [if_pos (by omega), decodeHex_eq_none hnot]
    exact ⟨fun _ => Or.inl hodd, fun _ => rfl⟩
  . have heven : Str.len s.toList % 2 = 0 := by omega
    rw [if_neg (by omega)]
    by_cases hpairs : afterPairs s.toList = []
    . rw [hexDecode_eq_of_pairs heven hpairs, hpairs]
      constructor
      . intro hall
        exact Or.inr (Or.inl hall)
      . rintro (h | hall | ⟨slice, rest, hfront⟩)
        . contradiction
        . exact hall
        . cases hfront
    . have hnot : ¬IsHex s.toList := fun hhex => hpairs (afterPairs_of_isHex hhex)
      rw [decodeHex_eq_none hnot]
      by_cases hfront : ∃ slice rest, Str.FrontTwo (afterPairs s.toList) slice rest
      . rcases hfront with ⟨slice, rest, hfront⟩
        rw [hexDecode_go_stops hfront]
        exact ⟨fun _ => Or.inr (Or.inr ⟨slice, rest, hfront⟩), fun _ => rfl⟩
      . have hpanics := hexDecode_go_panics heven hpairs fun slice rest h => hfront ⟨slice, rest, h⟩
        rw [hpanics]
        constructor
        . intro h
          cases h
        . rintro (h | hall | h)
          . contradiction
          . exact absurd ((isHex_iff_of_even heven).mpr hall) hnot
          . contradiction

/--
A sign is taken for a digit, and a slice through a character is a panic.
-/
theorem hex_decoders_differ
    : (hexDecode "+f" = .ok (some [15]) ∧ decodeHex "+f" = none ∧ ¬HexDecodersAgree "+f") ∧
      (hexDecode "aéb" = .error .charBoundary ∧ decodeHex "aéb" = none ∧
        ¬HexDecodersAgree "aéb") := by
  have hsign : hexDecode "+f" = .ok (some [15]) := by decide +kernel
  have hcut : hexDecode "aéb" = .error .charBoundary := by decide +kernel
  have hnone : decodeHex "+f" = none := by decide +kernel
  refine ⟨⟨hsign, hnone, ?_⟩, hcut, by decide +kernel, ?_⟩
  . intro h
    have := h.same
    rw [hsign, hnone] at this
    cases this
  . intro h
    have := h.same
    rw [hcut] at this
    cases this

end Veil
