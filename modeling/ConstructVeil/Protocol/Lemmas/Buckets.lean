import ConstructVeil.Protocol.Lemmas.Framing

/-!
This module contains the facts about the bucket table: how much padding the encoder adds, how long
the encoded frame gets, and what follows for the sizes an observer sees.
-/

namespace Veil

theorem pickBucket_nil (n : Nat) : pickBucket [] n = n := rfl

theorem pickBucket_cons_eq_iff {bucket n b : Nat} {buckets : List Nat}
    : pickBucket (bucket :: buckets) n = b
        ↔
      (n ≤ bucket ∧ b = bucket) ∨ (bucket < n ∧ pickBucket buckets n = b) := by
  rw [pickBucket]
  split <;> omega

theorem le_pickBucket (buckets : List Nat) (n : Nat) : n ≤ pickBucket buckets n := by
  induction buckets with
  | nil => rfl
  | cons bucket buckets ih =>
    rw [pickBucket]
    split
    . assumption
    . exact ih

theorem pickBucket_le {n b : Nat} (h : pickBucket lengthBuckets n = b) : b ≤ n + 4095 := by
  simp only [lengthBuckets, pickBucket_cons_eq_iff, pickBucket_nil] at h
  omega

theorem pickBucket_width_cases {n b : Nat} (h : pickBucket lengthBuckets n = b) (htop : b ≤ 16384)
    : (b = 64 ∧ n ≤ 64) ∨ (b = 128 ∧ 64 < n ∧ n ≤ 128) ∨ (128 < n ∧ n ≤ b) := by
  simp only [lengthBuckets, pickBucket_cons_eq_iff, pickBucket_nil] at h
  omega

theorem padLen_bucketCodec (n : Nat) : bucketCodec.padLen n = pickBucket lengthBuckets n - n := rfl

theorem padLen_le (n : Nat) : bucketCodec.padLen n ≤ 4095 := by
  have := pickBucket_le (n := n) rfl
  rw [padLen_bucketCodec]
  omega

theorem length_leb128_eq {n : Nat} (h : n < 2097152)
    : (leb128 n).length = if n < 128 then 1 else if n < 16384 then 2 else 3 := by
  split
  . next h1 => rw [length_leb128_of_lt h1]
  . next h1 =>
    rw [length_leb128_of_ge (by omega)]
    split
    . next h2 => rw [length_leb128_of_lt (by omega)]
    . next h2 => rw [length_leb128_of_ge (by omega), length_leb128_of_lt (by omega)]

namespace VeilFrontCodec

theorem encode_eq_wireFrame (codec : VeilFrontCodec) (frame : Frame) (dst : Bytes)
    (hpayload : frame.payload.length < 2 ^ 64) (hpad : codec.padLen frame.payload.length < 2 ^ 64)
    : codec.encode frame dst
        =
      dst ++ wireFrame frame (List.replicate (codec.padLen frame.payload.length) 0) := by
  simp only [encode, wireFrame, encodeVarint_ofNat hpayload, encodeVarint_ofNat hpad,
    List.length_replicate]
  simp

end VeilFrontCodec

theorem bucketCodec_encode (frame : Frame) (dst : Bytes) (h : frame.payload.length < 2 ^ 64)
    : bucketCodec.encode frame dst
        =
      dst ++ wireFrame frame (List.replicate (bucketCodec.padLen frame.payload.length) 0) := by
  have hpad := padLen_le frame.payload.length
  exact VeilFrontCodec.encode_eq_wireFrame bucketCodec frame dst h (by omega)

/--
The payload lengths of bucket `b` for which one of the two length fields needs a byte more than for
the others: the pad takes two bytes, or the payload fills a bucket whose size is the first that
takes one byte more.
-/
def Wide (b n : Nat) : Prop := 128 ≤ b - n ∨ (n = b ∧ (b = 128 ∨ b = 16384))

instance (b n : Nat) : Decidable (Wide b n) :=
  inferInstanceAs (Decidable (128 ≤ b - n ∨ (n = b ∧ (b = 128 ∨ b = 16384))))

theorem length_encode (frame : Frame)
    (h : pickBucket lengthBuckets frame.payload.length ≤ 16384)
    : (bucketCodec.encode frame []).length
        =
      pickBucket lengthBuckets frame.payload.length +
        (if pickBucket lengthBuckets frame.payload.length ≤ 128 then 4 else 5) +
        (if Wide (pickBucket lengthBuckets frame.payload.length) frame.payload.length then 1 else 0)
        := by
  have hle := le_pickBucket lengthBuckets frame.payload.length
  rw [bucketCodec_encode frame [] (by omega)]
  rw [List.nil_append, length_wireFrame, List.length_replicate, padLen_bucketCodec]
  generalize hb : pickBucket lengthBuckets frame.payload.length = b at *
  generalize frame.payload.length = n at *
  rw [length_leb128_eq (by omega), length_leb128_eq (by omega)]
  by_cases hwide : Wide b n
  . simp only [hwide, ↓reduceIte]
    unfold Wide at hwide
    rcases pickBucket_width_cases hb h with hb | hb | hb
    all_goals
      repeat' split
      all_goals omega
  . simp only [hwide, ↓reduceIte]
    unfold Wide at hwide
    rcases pickBucket_width_cases hb h with hb | hb | hb
    all_goals
      repeat' split
      all_goals omega

/--
Two frames of the same bucket are equally long on the wire exactly when both payload lengths are
wide for it or neither is. The frame types and the payload bytes play no role.
-/
theorem length_encode_eq_iff (f g : Frame)
    (hbucket : pickBucket lengthBuckets f.payload.length
      = pickBucket lengthBuckets g.payload.length)
    (htop : pickBucket lengthBuckets f.payload.length ≤ 16384)
    : (bucketCodec.encode f []).length = (bucketCodec.encode g []).length
        ↔
      (Wide (pickBucket lengthBuckets f.payload.length) f.payload.length
        ↔
      Wide (pickBucket lengthBuckets f.payload.length) g.payload.length) := by
  rw [length_encode f htop, length_encode g (hbucket ▸ htop), ← hbucket]
  repeat' split
  all_goals simp_all

theorem length_encode_eq_iff_smallest
    : (pickBucket lengthBuckets 1 = pickBucket lengthBuckets 64 ∧
        pickBucket lengthBuckets 1 ≤ 16384) ∧
      (bucketCodec.encode (Frame.data [7]) []).length
        =
      (bucketCodec.encode (Frame.chaff (List.replicate 64 0)) []).length := by
  refine ⟨by decide, ?_⟩
  rw [length_encode_eq_iff (Frame.data [7]) (Frame.chaff (List.replicate 64 0)) (by decide)
    (by decide)]
  decide

/--
A CHAFF frame that fills the bucket of 128 bytes is longer than a DATA frame padded to it: the
payload length 128 takes two bytes, 65 takes one.
-/
theorem length_encode_ne
    : ¬ ∀ f g : Frame,
        pickBucket lengthBuckets f.payload.length = pickBucket lengthBuckets g.payload.length →
        pickBucket lengthBuckets f.payload.length ≤ 16384 →
          (bucketCodec.encode f []).length = (bucketCodec.encode g []).length := by
  intro h
  have := h (Frame.data (List.replicate 65 0)) (Frame.chaff (List.replicate 128 0))
    (by decide) (by decide)
  rw [length_encode _ (by decide), length_encode _ (by decide)] at this
  revert this
  decide

end Veil
