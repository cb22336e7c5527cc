import ConstructVeil.Util.StreamDecoder
import ConstructVeil.Protocol.Impl.Framing
import ConstructVeil.Protocol.Lemmas.Varint

/-!
This module contains the correctness of the frame codec. The decoder is characterised by the frames
it accepts (`decodeOn_eq_some_iff`) and packaged as a `StreamDecoder`, so that everything about
loops around it follows from the general theory.
-/

namespace Veil

/--
A frame on the wire, with arbitrary bytes as padding.
-/
def wireFrame (frame : Frame) (pad : Bytes) : Bytes :=
  wireVer :: frame.frameType ::
    (leb128 frame.payload.length ++ (leb128 pad.length ++ (frame.payload ++ pad)))

theorem length_wireFrame (frame : Frame) (pad : Bytes)
    : (wireFrame frame pad).length
        =
      2 + (leb128 frame.payload.length).length + (leb128 pad.length).length +
        frame.payload.length + pad.length := by
  simp only [wireFrame, List.length_cons, List.length_append]
  omega

theorem Target.usizeBits_le (target : Target) : target.usizeBits ≤ 64 := by
  cases target <;> decide

theorem Target.lt_of_lt_usize {target : Target} {n : Nat} (h : n < 2 ^ target.usizeBits)
    : n < 2 ^ 64 := by
  apply Nat.lt_of_lt_of_le h
  exact Nat.pow_le_pow_right (by omega) target.usizeBits_le

theorem Target.lt_usize {target : Target} {n : Nat} (h : n < 2 ^ 32)
    : n < 2 ^ target.usizeBits := by
  apply Nat.lt_of_lt_of_le h
  cases target <;> decide

namespace VeilFrontCodec

variable {target : Target} {codec : VeilFrontCodec}

theorem decodeLen_eq_some_iff {max len n : Nat} {field : LengthField} {buf : Bytes}
    : decodeLen target max field buf = .ok (some (len, n))
        ↔
      leb128 len <+: buf ∧ n = (leb128 len).length ∧ len < 2 ^ target.usizeBits ∧ len ≤ max := by
  unfold decodeLen boundedLen
  constructor
  . intro h
    split at h
    . cases h
    . cases h
    . next v n' hv =>
      rw [decodeVarintChecked_eq_value_iff] at hv
      split at h
      . next len' hlen =>
        split at hlen
        . next hbound =>
          injection hlen with hlen
          injection h with h
          injection h with h
          injection h with hl hn
          rw [← hl, ← hn, ← hlen]
          exact ⟨hv.1, hv.2, hbound⟩
        . cases hlen
      . cases h
  . intro ⟨hpre, hn, hbound⟩
    have hlen := Target.lt_of_lt_usize hbound.1
    have hvalue : decodeVarintChecked buf = .value (UInt64.ofNat len) n := by
      rw [decodeVarintChecked_eq_value_iff, UInt64.toNat_ofNat_of_lt' hlen]
      exact ⟨hpre, hn⟩
    simp only [hvalue, UInt64.toNat_ofNat_of_lt' hlen, hbound, and_self, ↓reduceIte]

theorem length_of_decodeLen_some {max len n : Nat} {field : LengthField} {buf : Bytes}
    (h : decodeLen target max field buf = .ok (some (len, n)))
    : n ≤ 10 ∧ n ≤ buf.length := by
  rw [decodeLen_eq_some_iff] at h
  rcases h with ⟨hpre, rfl, hlen, _⟩
  have hlen := Target.lt_of_lt_usize hlen
  refine ⟨?_, hpre.length_le⟩
  apply length_leb128_le
  omega

theorem length_of_decodeLen_none {max : Nat} {field : LengthField} {buf : Bytes}
    (h : decodeLen target max field buf = .ok none) : buf.length < 10 := by
  unfold decodeLen at h
  split at h
  . next hincomplete => exact decodeVarintChecked_incomplete hincomplete
  . cases h
  . split at h
    . cases h
    . cases h

theorem decodeLen_error_append {max : Nat} {field : LengthField} {buf : Bytes} {e : DecodeError}
    (ext : Bytes) (h : decodeLen target max field buf = .error e)
    : decodeLen target max field (buf ++ ext) = .error e := by
  unfold decodeLen at h ⊢
  split at h
  . cases h
  . next hmal =>
    rw [decodeVarintChecked_malformed_append ext hmal]
    exact h
  . next v n hv =>
    rw [decodeVarintChecked_value_append ext hv]
    exact h

theorem decodeLen_some_append {max len n : Nat} {field : LengthField} {buf : Bytes} (ext : Bytes)
    (h : decodeLen target max field buf = .ok (some (len, n)))
    : decodeLen target max field (buf ++ ext) = .ok (some (len, n)) := by
  rw [decodeLen_eq_some_iff] at h ⊢
  exact ⟨h.1.trans (List.prefix_append buf ext), h.2⟩

theorem checkedAdd_bind_eq_some_iff {a b c n : Nat}
    : (checkedAdd target a b).bind (checkedAdd target · c) = some n
        ↔
      n = a + b + c ∧ a + b + c < 2 ^ target.usizeBits := by
  unfold checkedAdd
  split
  . simp only [Option.bind_some]
    split
    . simp only [Option.some.injEq]
      omega
    . simp only [reduceCtorEq, false_iff]
      omega
  . simp only [Option.bind_none, reduceCtorEq, false_iff]
    omega

theorem decodeOn_wireFrame (frame : Frame) (pad rest : Bytes)
    (hpayload : frame.payload.length ≤ codec.maxPayload) (hpad : pad.length ≤ codec.maxPayload)
    (htotal : (wireFrame frame pad).length < 2 ^ target.usizeBits)
    : codec.decodeOn target (wireFrame frame pad ++ rest) = (.ok (some frame), rest) := by
  rw [length_wireFrame] at htotal
  have hlen1 : decodeLen target codec.maxPayload .payload
      (leb128 frame.payload.length ++ (leb128 pad.length ++ (frame.payload ++ pad)) ++ rest)
        = .ok (some (frame.payload.length, (leb128 frame.payload.length).length)) := by
    rw [decodeLen_eq_some_iff]
    refine ⟨?_, rfl, by omega, hpayload⟩
    rw [List.append_assoc]
    apply List.prefix_append
  have hlen2 : decodeLen target codec.maxPayload .pad
      (leb128 pad.length ++ (frame.payload ++ pad) ++ rest)
        = .ok (some (pad.length, (leb128 pad.length).length)) := by
    rw [decodeLen_eq_some_iff]
    refine ⟨?_, rfl, by omega, hpad⟩
    rw [List.append_assoc]
    apply List.prefix_append
  have hdrop1 : (wireFrame frame pad ++ rest).drop (2 + (leb128 frame.payload.length).length)
      = leb128 pad.length ++ (frame.payload ++ pad) ++ rest := by
    rw [Nat.add_comm 2]
    simp [wireFrame]
  have hdrop2 : (wireFrame frame pad ++ rest).drop
      (2 + (leb128 frame.payload.length).length + (leb128 pad.length).length)
      = frame.payload ++ (pad ++ rest) := by
    rw [← List.drop_drop, hdrop1]
    simp
  have hsum := (checkedAdd_bind_eq_some_iff
    (a := 2 + (leb128 frame.payload.length).length + (leb128 pad.length).length)
    (b := frame.payload.length) (c := pad.length)).mpr ⟨rfl, htotal⟩
  have hpos := length_leb128_pos pad.length
  have hlength : (wireFrame frame pad ++ rest).length
      = 2 + (leb128 frame.payload.length).length + (leb128 pad.length).length +
        frame.payload.length + pad.length + rest.length := by
    rw [List.length_append, length_wireFrame]
  -- `decodeOn` takes the header apart but measures and drops on the whole of `src`
  generalize hsrc : wireFrame frame pad ++ rest = src at *
  unfold wireFrame at hsrc
  rw [← hsrc]
  simp only [List.cons_append, decodeOn, ne_eq, not_true_eq_false, ↓reduceIte, hlen1]
  have hcons : wireVer :: frame.frameType :: (leb128 frame.payload.length ++
      (leb128 pad.length ++ (frame.payload ++ pad)) ++ rest) = src := hsrc
  rw [hcons, hdrop1, hlen2]
  simp only [hsum, hlength, hdrop2]
  rw [if_neg (by omega), if_neg (by omega)]
  simp

theorem eq_wireFrame_append (frameType : UInt8) {body after fields : Bytes}
    {payloadLen padLen : Nat}
    (hbody : leb128 payloadLen ++ after = body) (hafter : leb128 padLen ++ fields = after)
    (hlength : payloadLen + padLen ≤ fields.length)
    : (fields.take payloadLen).length = payloadLen ∧
      ((fields.drop payloadLen).take padLen).length = padLen ∧
      wireVer :: frameType :: body
          =
        wireFrame ⟨frameType, fields.take payloadLen⟩ ((fields.drop payloadLen).take padLen) ++
          (fields.drop payloadLen).drop padLen := by
  have htake : (fields.take payloadLen).length = payloadLen := by
    rw [List.length_take]
    omega
  have htake' : ((fields.drop payloadLen).take padLen).length = padLen := by
    rw [List.length_take, List.length_drop]
    omega
  refine ⟨htake, htake', ?_⟩
  rw [← hbody, ← hafter]
  simp only [wireFrame, htake, htake', List.cons_append, List.append_assoc]
  rw [List.take_append_drop, List.take_append_drop]

/--
The only branch of the decoder that returns a frame is the one behind all of its checks.
-/
theorem header_of_decodeOn_some {src rest : Bytes} {frame : Frame}
    (h : codec.decodeOn target src = (.ok (some frame), rest))
    : ∃ body payloadLen vbPayload padLen vbPad,
        src = wireVer :: frame.frameType :: body ∧
        decodeLen target codec.maxPayload .payload body = .ok (some (payloadLen, vbPayload)) ∧
        decodeLen target codec.maxPayload .pad (src.drop (2 + vbPayload))
            =
          .ok (some (padLen, vbPad)) ∧
        2 + vbPayload + vbPad + payloadLen + padLen < 2 ^ target.usizeBits ∧
        2 + vbPayload + vbPad + payloadLen + padLen ≤ src.length ∧
        frame.payload = (src.drop (2 + vbPayload + vbPad)).take payloadLen ∧
        rest = ((src.drop (2 + vbPayload + vbPad)).drop payloadLen).drop padLen := by
  unfold decodeOn at h
  split at h
  . cases h
  . next ver tail =>
    split at h
    . cases h
    . next hver =>
      simp only [ne_eq, not_not] at hver
      split at h
      . cases h
      . next frameType body =>
        split at h
        . cases h
        . cases h
        . next payloadLen vbPayload hlen1 =>
          dsimp only at h
          split at h
          . cases h
          . split at h
            . cases h
            . cases h
            . next padLen vbPad hlen2 =>
              split at h
              . cases h
              . next totalLen hsum =>
                rw [checkedAdd_bind_eq_some_iff] at hsum
                split at h
                . cases h
                . next hcomplete =>
                  injection h with hframe hrest
                  injection hframe with hframe
                  injection hframe with hframe
                  refine ⟨body, payloadLen, vbPayload, padLen, vbPad, ?_, hlen1, hlen2, hsum.2, ?_,
                    ?_, hrest.symm⟩
                  . rw [hver, ← hframe]
                  . omega
                  . rw [← hframe]

/--
The decoder takes a frame off `src` if and only if `src` starts with that frame, with lengths in
bounds.
-/
theorem decodeOn_eq_some_iff {src rest : Bytes} {frame : Frame}
    : codec.decodeOn target src = (.ok (some frame), rest)
        ↔
      ∃ pad, src = wireFrame frame pad ++ rest ∧ frame.payload.length ≤ codec.maxPayload ∧
        pad.length ≤ codec.maxPayload ∧ (wireFrame frame pad).length < 2 ^ target.usizeBits := by
  constructor
  . intro h
    rcases header_of_decodeOn_some h with ⟨body, payloadLen, vbPayload, padLen, vbPad, hsrc, hlen1,
      hlen2, htotal, hcomplete, hpayload, hrest⟩
    rw [decodeLen_eq_some_iff] at hlen1
    rcases hlen1 with ⟨⟨after, hbody⟩, hvb, _, hmax⟩
    have hdrop : src.drop (2 + vbPayload) = after := by
      rw [hsrc, Nat.add_comm 2, ← hbody, hvb]
      simp
    rw [hdrop, decodeLen_eq_some_iff] at hlen2
    rcases hlen2 with ⟨⟨fields, hafter⟩, hvbPad, _, hmax'⟩
    have hdrop' : src.drop (2 + vbPayload + vbPad) = fields := by
      rw [← List.drop_drop, hdrop, ← hafter, hvbPad]
      simp
    have hlength : payloadLen + padLen ≤ fields.length := by
      rw [← hdrop', List.length_drop]
      omega
    rw [hdrop'] at hpayload hrest
    rcases eq_wireFrame_append frame.frameType hbody hafter hlength with ⟨htake, htake', hwire⟩
    rw [← hpayload] at htake hwire
    refine ⟨(fields.drop payloadLen).take padLen, ?_, ?_, ?_, ?_⟩
    . rw [hsrc, hrest]
      exact hwire
    . rw [htake]
      exact hmax
    . rw [htake']
      exact hmax'
    . rw [length_wireFrame, htake, htake', ← hvb, ← hvbPad]
      exact htotal
  . intro ⟨pad, hsrc, hpayload, hpad, htotal⟩
    rw [hsrc]
    exact decodeOn_wireFrame frame pad rest hpayload hpad htotal

theorem decodeOn_untouched (target : Target) (codec : VeilFrontCodec) (src : Bytes)
    : (∃ frame, (codec.decodeOn target src).1 = .ok (some frame)) ∨
        (codec.decodeOn target src).2 = src := by
  unfold decodeOn
  dsimp only
  repeat' split
  all_goals simp

theorem decodeOn_eq_none {src rest : Bytes} (h : codec.decodeOn target src = (.ok none, rest))
    : rest = src := by
  have := decodeOn_untouched target codec src
  simpa [h] using this

theorem decodeOn_eq_error {src rest : Bytes} {e : DecodeError}
    (h : codec.decodeOn target src = (.error e, rest)) : rest = src := by
  have := decodeOn_untouched target codec src
  simpa [h] using this

theorem decodeOn_error_append {src rest : Bytes} {e : DecodeError} (ext : Bytes)
    (h : codec.decodeOn target src = (.error e, rest))
    : codec.decodeOn target (src ++ ext) = (.error e, src ++ ext) := by
  unfold decodeOn at h
  split at h
  . cases h
  . next ver tail =>
    split at h
    . next hver =>
      injection h with he
      simp only [List.cons_append, decodeOn]
      rw [if_pos hver, he]
    . next hver =>
      split at h
      . cases h
      . next frameType body =>
        simp only [List.cons_append, decodeOn, hver, ↓reduceIte]
        split at h
        . next e' hlen1 =>
          injection h with he
          rw [decodeLen_error_append ext hlen1]
          simp only [he]
        . cases h
        . next payloadLen vbPayload hlen1 =>
          rw [decodeLen_some_append ext hlen1]
          dsimp only at h ⊢
          split at h
          . cases h
          . next hlong =>
            -- the second length field starts inside the old buffer, so the drop commutes
            have hdrop : (ver :: frameType :: (body ++ ext)).drop (2 + vbPayload)
                = (ver :: frameType :: body).drop (2 + vbPayload) ++ ext := by
              rw [← List.cons_append, ← List.cons_append]
              apply List.drop_append_of_le_length
              omega
            have hlong' : ¬ (ver :: frameType :: (body ++ ext)).length ≤ 2 + vbPayload := by
              simp only [List.length_cons, List.length_append] at hlong ⊢
              omega
            rw [if_neg hlong', hdrop]
            split at h
            . next e' hlen2 =>
              injection h with he
              rw [decodeLen_error_append ext hlen2]
              simp only [he]
            . cases h
            . next padLen vbPad hlen2 =>
              rw [decodeLen_some_append ext hlen2]
              dsimp only at h ⊢
              split at h
              . next hsum =>
                injection h with he
                rw [he]
              . split at h
                . cases h
                . cases h

/--
A buffer the decoder waits on is shorter than two maximal length fields and the bytes they announce.
-/
theorem length_of_decodeOn_none {src rest : Bytes}
    (h : codec.decodeOn target src = (.ok none, rest))
    : src.length < 22 + 2 * codec.maxPayload := by
  unfold decodeOn at h
  split at h
  . rw [List.length_nil]
    omega
  split at h
  . cases h
  split at h
  . rw [List.length_singleton]
    omega
  split at h
  . cases h
  . next hpayload =>
    have := length_of_decodeLen_none hpayload
    rw [List.length_cons, List.length_cons]
    omega
  next payloadLen vbPayload hpayload =>
  have hvbPayload := length_of_decodeLen_some hpayload
  dsimp only at h
  split at h
  . omega
  split at h
  . cases h
  . next hpad =>
    have := length_of_decodeLen_none hpad
    rw [List.length_drop] at this
    omega
  next padLen vbPad hpad =>
  have hvbPad := length_of_decodeLen_some hpad
  rw [decodeLen_eq_some_iff] at hpayload hpad
  split at h
  . cases h
  next totalLen hsum =>
  rw [checkedAdd_bind_eq_some_iff] at hsum
  split at h
  . omega
  . cases h

section Target

variable (target target' : Target)

theorem boundedLen_target {max : Nat} (hmax : max < 2 ^ 32) (len : UInt64) (field : LengthField)
    : boundedLen target len max field = boundedLen target' len max field := by
  have hfits : ∀ t : Target, len.toNat < 2 ^ t.usizeBits ∧ len.toNat ≤ max ↔ len.toNat ≤ max := by
    intro t
    apply and_iff_right_of_imp
    intro hle
    apply Target.lt_usize
    omega
  unfold boundedLen
  simp only [hfits]

theorem decodeLen_target {max : Nat} (hmax : max < 2 ^ 32) (field : LengthField) (buf : Bytes)
    : decodeLen target max field buf = decodeLen target' max field buf := by
  unfold decodeLen
  simp only [boundedLen_target target target' hmax]

theorem checkedAdd_bind_of_lt {a b c : Nat} (h : a + b + c < 2 ^ 32)
    : (checkedAdd target a b).bind (checkedAdd target · c) = some (a + b + c) := by
  rw [checkedAdd_bind_eq_some_iff]
  refine ⟨rfl, ?_⟩
  apply Target.lt_usize
  exact h

theorem decodeOn_target {codec : VeilFrontCodec} (hmax : codec.maxPayload < 2 ^ 31 - 22)
    (src : Bytes)
    : codec.decodeOn target src = codec.decodeOn target' src := by
  have hmax' : codec.maxPayload < 2 ^ 32 := by omega
  unfold decodeOn
  simp only [decodeLen_target target target' hmax']
  split
  . rfl
  split
  . rfl
  split
  . rfl
  split
  . rfl
  . rfl
  next payloadLen vbPayload hpayload =>
  split
  . rfl
  split
  . rfl
  . rfl
  next padLen vbPad hpad =>
  -- with both lengths below the cap the sum stays below `2 ^ 32`
  have hvb := length_of_decodeLen_some hpayload
  have hvb' := length_of_decodeLen_some hpad
  rw [decodeLen_eq_some_iff] at hpayload hpad
  have hsum : 2 + vbPayload + vbPad + payloadLen + padLen < 2 ^ 32 := by omega
  rw [checkedAdd_bind_of_lt target hsum, checkedAdd_bind_of_lt target' hsum]

end Target

def attempt (target : Target) (codec : VeilFrontCodec) (src : Bytes)
    : Attempt UInt8 Frame DecodeError :=
  match codec.decodeOn target src with
  | (.ok (some frame), rest) => .item frame rest
  | (.ok none, _) => .wait
  | (.error e, _) => .fail e

theorem attempt_eq_item_iff {src rest : Bytes} {frame : Frame}
    : attempt target codec src = .item frame rest
        ↔
      codec.decodeOn target src = (.ok (some frame), rest) := by
  unfold attempt
  constructor
  . intro h
    split at h
    . next hd =>
      injection h with hframe hrest
      rw [hd, hframe, hrest]
    . cases h
    . cases h
  . intro h
    rw [h]

theorem attempt_eq_wait_iff {src : Bytes}
    : attempt target codec src = .wait ↔ codec.decodeOn target src = (.ok none, src) := by
  unfold attempt
  constructor
  . intro h
    split at h
    . cases h
    . next hd =>
      rw [hd, decodeOn_eq_none hd]
    . cases h
  . intro h
    rw [h]

theorem attempt_eq_fail_iff {src : Bytes} {e : DecodeError}
    : attempt target codec src = .fail e ↔ codec.decodeOn target src = (.error e, src) := by
  unfold attempt
  constructor
  . intro h
    split at h
    . cases h
    . cases h
    . next hd =>
      injection h with he
      rw [hd, he, decodeOn_eq_error hd]
  . intro h
    rw [h]

/--
The codec as an incremental decoder. Its `process` is the loop
`while let Some(frame) = codec.decode(&mut buf)? { .. }`.
-/
def decoder (target : Target) (codec : VeilFrontCodec) : StreamDecoder UInt8 Frame DecodeError where
  attempt := attempt target codec
  item_lt := by
    intro buf frame rest h
    rw [attempt_eq_item_iff, decodeOn_eq_some_iff] at h
    rcases h with ⟨pad, hbuf, _⟩
    rw [hbuf, List.length_append, length_wireFrame]
    omega
  item_append := by
    intro buf frame rest ext h
    rw [attempt_eq_item_iff, decodeOn_eq_some_iff] at h ⊢
    rcases h with ⟨pad, hbuf, hbounds⟩
    refine ⟨pad, ?_, hbounds⟩
    rw [hbuf, List.append_assoc]
  fail_append := by
    intro buf e ext h
    rw [attempt_eq_fail_iff] at h ⊢
    exact decodeOn_error_append ext h

@[simp]
theorem decoder_attempt (src : Bytes)
    : (decoder target codec).attempt src = attempt target codec src := rfl

end VeilFrontCodec

end Veil
