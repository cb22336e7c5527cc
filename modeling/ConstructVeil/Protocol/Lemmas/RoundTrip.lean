import ConstructVeil.Protocol.Lemmas.Stream

/-!
This module contains the round trip of whole streams of frames for an encoder and a decoder that are
configured independently of each other.
-/

namespace Veil

/--
A frame on a machine: its payload is one buffer, and no buffer is longer than `isize::MAX` bytes.
-/
structure HeapFrame (target : Target) extends Frame where
  length_lt : payload.length < 2 ^ (target.usizeBits - 1)

namespace HeapFrame

variable {target : Target} (frame : HeapFrame target)

theorem length_lt_usize : frame.payload.length + 2 ^ 31 ≤ 2 ^ target.usizeBits := by
  have hlen := frame.length_lt
  cases target with
  | bits32 =>
    simp only [Target.usizeBits] at hlen ⊢
    omega
  | bits64 =>
    simp only [Target.usizeBits] at hlen ⊢
    omega

end HeapFrame

/--
In a table whose entries at most double, the next bucket is at most twice the payload, or the first
bucket.
-/
theorem pickBucket_le_add_max {b : Nat} {buckets : List Nat}
    (h : List.IsChain (fun b b' => b' ≤ 2 * b) (b :: buckets)) (n : Nat)
    : pickBucket (b :: buckets) n ≤ n + max b n := by
  induction buckets generalizing b with
  | nil =>
    rw [pickBucket, pickBucket_nil]
    split
    . omega
    . omega
  | cons b' buckets ih =>
    rw [List.isChain_cons_cons] at h
    rw [pickBucket]
    split
    . omega
    . next hb =>
      rw [pickBucket]
      split
      . omega
      . next hb' =>
        have hrest := ih h.2
        rw [pickBucket, if_neg hb'] at hrest
        omega

theorem padLen_lengthBuckets_le {codec : VeilFrontCodec} (h : codec.buckets = some lengthBuckets)
    (n : Nat)
    : codec.padLen n ≤ max 64 n := by
  have hchain : List.IsChain (fun b b' => b' ≤ 2 * b) lengthBuckets := by decide
  have hbucket := pickBucket_le_add_max hchain n
  unfold VeilFrontCodec.padLen
  rw [h]
  change pickBucket lengthBuckets n - n ≤ max 64 n
  unfold lengthBuckets at hbucket ⊢
  omega

namespace VeilFrontCodec

def encodeAll (codec : VeilFrontCodec) (frames : List Frame) (dst : Bytes) : Bytes :=
  match frames with
  | [] => dst
  | frame :: frames => codec.encodeAll frames (codec.encode frame dst)

/--
Decode `n` times. The result is the list of frames and what is left of the buffer, or `none` if one
of the calls does not give a frame.
-/
def decodeTimes (target : Target) (codec : VeilFrontCodec) (n : Nat) (src : Bytes)
    : Option (List Frame × Bytes) :=
  match n with
  | 0 => some ([], src)
  | n + 1 =>
    match codec.decodeOn target src with
    | (.ok (some frame), rest) =>
      match decodeTimes target codec n rest with
      | some (frames, rest) => some (frame :: frames, rest)
      | none => none
    | _ => none

variable {target : Target} {enc dec : VeilFrontCodec}

theorem encode_append (codec : VeilFrontCodec) (frame : Frame) (dst : Bytes)
    : codec.encode frame dst = dst ++ codec.encode frame [] := by
  simp [encode]

theorem encodeAll_append (codec : VeilFrontCodec) (frames : List Frame) (dst : Bytes)
    : codec.encodeAll frames dst = dst ++ codec.encodeAll frames [] := by
  induction frames generalizing dst with
  | nil => simp [encodeAll]
  | cons frame frames ih =>
    rw [encodeAll, encodeAll, ih, ih (codec.encode frame []), encode_append codec frame dst]
    rw [List.append_assoc]

/--
The encoders that go with a decoder: no padding, or the table of the protocol and a decoder that
takes its smallest entry as padding.
-/
def Compatible (enc dec : VeilFrontCodec) : Prop :=
  enc.buckets = none ∨ (enc.buckets = some lengthBuckets ∧ 64 ≤ dec.maxPayload)

theorem Compatible.padLen_le (h : Compatible enc dec) {n : Nat} (hn : n ≤ dec.maxPayload)
    : enc.padLen n ≤ dec.maxPayload := by
  rcases h with hnone | ⟨hsome, hmax⟩
  . simp [padLen, hnone]
  . have := padLen_lengthBuckets_le hsome n
    omega

theorem Compatible.padLen_lt (h : Compatible enc dec) (n : Nat) : enc.padLen n ≤ 4095 := by
  rcases h with hnone | ⟨hsome, _⟩
  . simp [padLen, hnone]
  . have hpad : enc.padLen n = bucketCodec.padLen n := by
      unfold padLen
      rw [hsome]
      rfl
    rw [hpad]
    exact Veil.padLen_le n

theorem decodeOn_encode (h : Compatible enc dec) (frame : HeapFrame target) (rest : Bytes)
    (hfit : frame.payload.length ≤ dec.maxPayload)
    : dec.decodeOn target (enc.encode frame.toFrame [] ++ rest)
        = (.ok (some frame.toFrame), rest) := by
  have hlen := frame.length_lt_usize
  have hlen64 := Target.lt_of_lt_usize (show frame.payload.length < 2 ^ target.usizeBits by omega)
  have hpad := h.padLen_lt frame.payload.length
  have hwidth := length_leb128_le (v := frame.payload.length) (k := 9) (by omega)
  have hwidth' := length_leb128_le (v := enc.padLen frame.payload.length) (k := 9) (by omega)
  rw [encode_eq_wireFrame enc frame.toFrame [] hlen64 (by omega), List.nil_append]
  apply decodeOn_wireFrame
  . exact hfit
  . rw [List.length_replicate]
    exact h.padLen_le hfit
  . rw [length_wireFrame, List.length_replicate]
    omega

theorem decodeTimes_encodeAll (h : Compatible enc dec) (frames : List (HeapFrame target))
    (hfit : ∀ frame ∈ frames, frame.payload.length ≤ dec.maxPayload) (suffix : Bytes)
    : dec.decodeTimes target frames.length (enc.encodeAll (frames.map (·.toFrame)) [] ++ suffix)
        =
      some (frames.map (·.toFrame), suffix) := by
  induction frames with
  | nil => rfl
  | cons frame frames ih =>
    have hfit' := List.forall_mem_cons.mp hfit
    rw [List.map_cons, encodeAll, encodeAll_append, List.append_assoc, List.length_cons,
      decodeTimes]
    rw [decodeOn_encode h frame _ hfit'.1]
    dsimp only
    rw [ih hfit'.2]

theorem decodeOn_oversized (codec : VeilFrontCodec) (frame : HeapFrame target) (rest : Bytes)
    (hlong : dec.maxPayload < frame.payload.length)
    : dec.decodeOn target (codec.encode frame.toFrame [] ++ rest)
        =
      (.error (.tooLarge .payload (UInt64.ofNat frame.payload.length) dec.maxPayload),
        codec.encode frame.toFrame [] ++ rest) := by
  have hlen := frame.length_lt_usize
  have hlen64 := Target.lt_of_lt_usize (show frame.payload.length < 2 ^ target.usizeBits by omega)
  have hfield : ∀ after,
    decodeLen target dec.maxPayload .payload (leb128 frame.payload.length ++ after)
      = .error (.tooLarge .payload (UInt64.ofNat frame.payload.length) dec.maxPayload) := by
    intro after
    unfold decodeLen boundedLen
    rw [decodeVarintChecked_leb128 after hlen64]
    simp only [UInt64.toNat_ofNat_of_lt' hlen64]
    rw [if_neg (by omega)]
  have hheader : ∃ after, codec.encode frame.toFrame [] ++ rest
      = wireVer :: frame.frameType :: (leb128 frame.payload.length ++ after) := by
    refine ⟨?_, ?_⟩
    rotate_left
    . simp only [encode, encodeVarint_ofNat hlen64, List.nil_append, List.append_assoc,
        List.cons_append]
      rfl
  rcases hheader with ⟨after, hheader⟩
  rw [hheader]
  simp only [decodeOn, ne_eq, not_true_eq_false, ↓reduceIte, hfield]

end VeilFrontCodec

open VeilFrontCodec

theorem Frame.encodeToBytes_eq {codec : VeilFrontCodec} (h : codec.buckets = none) (frame : Frame)
    : frame.encodeToBytes = codec.encode frame [] := by
  simp [encodeToBytes, encode, padLen, h]

/--
Frames of any type and length up to the decoder's cap come back from a stream in order, and what
follows them is left alone. A frame above the cap is an error, whatever follows it.
-/
theorem frame_streams_round_trip (target : Target) (enc dec : VeilFrontCodec)
    (h : Compatible enc dec)
    : (∀ frames : List (HeapFrame target),
        (∀ frame ∈ frames, frame.payload.length ≤ dec.maxPayload) →
        ∀ suffix : Bytes,
          dec.decodeTimes target frames.length (enc.encodeAll (frames.map (·.toFrame)) [] ++ suffix)
            =
          some (frames.map (·.toFrame), suffix)) ∧
      (∀ frame : Frame, frame.encodeToBytes = { enc with buckets := none }.encode frame []) ∧
      (∀ frame : HeapFrame target, dec.maxPayload < frame.payload.length →
        ∀ suffix : Bytes,
          dec.decodeOn target (enc.encode frame.toFrame [] ++ suffix)
            =
          (.error (.tooLarge .payload (UInt64.ofNat frame.payload.length) dec.maxPayload),
            enc.encode frame.toFrame [] ++ suffix)) := by
  refine ⟨?_, ?_, ?_⟩
  . intro frames hfit suffix
    apply decodeTimes_encodeAll h frames hfit
  . intro frame
    apply Frame.encodeToBytes_eq
    rfl
  . intro frame hlong suffix
    apply decodeOn_oversized
    exact hlong

def unknownTypeFrame : HeapFrame .bits32 := ⟨⟨0x7F, []⟩, by decide⟩

def shortDataFrame : HeapFrame .bits32 := ⟨.data [1, 2], by decide⟩

theorem frame_streams_round_trip_tight_cap
    : Compatible bucketCodec (withMaxPayload 64) ∧
      (withMaxPayload 64).decodeTimes .bits32 2
          (bucketCodec.encodeAll [⟨0x7F, []⟩, .data [1, 2]] [] ++ [9])
        =
      some ([⟨0x7F, []⟩, .data [1, 2]], [9]) := by
  have hcompatible : Compatible bucketCodec (withMaxPayload 64) := Or.inr ⟨rfl, by decide⟩
  refine ⟨hcompatible, ?_⟩
  apply (frame_streams_round_trip .bits32 _ _ hcompatible).1 [unknownTypeFrame, shortDataFrame]
  decide

end Veil
