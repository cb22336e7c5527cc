import ConstructVeil.Protocol.Lemmas.Buckets

/-!
This module contains what the frame codec does to whole streams: decoding does not depend on how the
stream is cut, and encoded frames come back one by one.
-/

namespace Veil

namespace VeilFrontCodec

variable (target : Target) (codec : VeilFrontCodec)

/--
Append the chunks one by one and decode until there is no complete frame left after each. The result
is the list of frames together with the unconsumed bytes, or the error that ended the decoding.
-/
def decodeAll (chunks : List Bytes) : List Frame × Except DecodeError Bytes :=
  (decoder target codec).feedAll (fun out frame => out ++ [frame]) [] [] chunks

theorem foldl_push (frames out : List Frame)
    : frames.foldl (fun out frame => out ++ [frame]) out = out ++ frames := by
  induction frames generalizing out with
  | nil => simp
  | cons frame frames ih => simp [ih]

@[simp]
theorem attempt_nil : attempt target codec [] = .wait := rfl

theorem decodeAll_eq_drain (chunks : List Bytes)
    : codec.decodeAll target chunks = (decoder target codec).drain chunks.flatten := by
  unfold decodeAll
  rw [StreamDecoder.feedAll_eq_process _ _ _ _ _ (by simp), StreamDecoder.process_eq_drain]
  simp only [foldl_push, List.nil_append, Prod.mk.eta]

/--
Frame decoding does not depend on how the stream is cut: decoding chunk by chunk gives the frames
and the final status of decoding everything at once. Behind it, a frame stays a frame and an error
the same error when more bytes follow, and without a frame the buffer is untouched.
-/
theorem decode_cut_independent
    : (∀ chunks : List Bytes,
        codec.decodeAll target chunks = codec.decodeAll target [chunks.flatten]) ∧
      (∀ (b x rest : Bytes) (frame : Frame),
        codec.decodeOn target b = (.ok (some frame), rest) →
          codec.decodeOn target (b ++ x) = (.ok (some frame), rest ++ x)) ∧
      (∀ (b x rest : Bytes) (e : DecodeError),
        codec.decodeOn target b = (.error e, rest) →
          rest = b ∧ codec.decodeOn target (b ++ x) = (.error e, b ++ x)) ∧
      (∀ b rest : Bytes, codec.decodeOn target b = (.ok none, rest) → rest = b) := by
  refine ⟨?_, ?_, ?_, ?_⟩
  . intro chunks
    simp [decodeAll_eq_drain]
  . intro b x rest frame h
    rw [← attempt_eq_item_iff] at h ⊢
    exact (decoder target codec).item_append x h
  . intro b x rest e h
    exact ⟨decodeOn_eq_error h, decodeOn_error_append x h⟩
  . intro b rest h
    exact decodeOn_eq_none h

end VeilFrontCodec

open VeilFrontCodec

theorem length_wireFrame_lt {target : Target} {frame : Frame} {pad : Bytes}
    (hpayload : frame.payload.length ≤ defaultMaxPayload) (hpad : pad.length ≤ defaultMaxPayload)
    : (wireFrame frame pad).length < 2 ^ target.usizeBits := by
  have hmax : defaultMaxPayload = 1048576 := rfl
  have hwidth := length_leb128_le (v := frame.payload.length) (k := 9) (by omega)
  have hwidth' := length_leb128_le (v := pad.length) (k := 9) (by omega)
  have husize : 2 ^ 32 ≤ 2 ^ target.usizeBits := by
    cases target <;> decide
  rw [length_wireFrame]
  omega

theorem attempt_default_eq_item_iff (target : Target) {src rest : Bytes} {frame : Frame}
    : attempt target .default src = .item frame rest
        ↔
      ∃ pad, src = wireFrame frame pad ++ rest ∧ frame.payload.length ≤ defaultMaxPayload ∧
        pad.length ≤ defaultMaxPayload := by
  rw [attempt_eq_item_iff, decodeOn_eq_some_iff]
  constructor
  . rintro ⟨pad, hsrc, hpayload, hpad, _⟩
    exact ⟨pad, hsrc, hpayload, hpad⟩
  . rintro ⟨pad, hsrc, hpayload, hpad⟩
    exact ⟨pad, hsrc, hpayload, hpad, length_wireFrame_lt hpayload hpad⟩

theorem attempt_encode_of_padLen_le (target : Target) (codec : VeilFrontCodec) (frame : Frame)
    (rest : Bytes) (h : frame.payload.length ≤ defaultMaxPayload)
    (hpad : codec.padLen frame.payload.length ≤ defaultMaxPayload)
    : attempt target .default (codec.encode frame [] ++ rest) = .item frame rest := by
  have hmax : defaultMaxPayload = 1048576 := rfl
  rw [attempt_default_eq_item_iff]
  refine ⟨List.replicate (codec.padLen frame.payload.length) 0, ?_, h, ?_⟩
  . rw [encode_eq_wireFrame codec frame [] (by omega) (by omega), List.nil_append]
  . rw [List.length_replicate]
    assumption

theorem attempt_encode (target : Target) (frame : Frame) (rest : Bytes)
    (h : frame.payload.length ≤ defaultMaxPayload)
    : attempt target .default (bucketCodec.encode frame [] ++ rest) = .item frame rest := by
  apply attempt_encode_of_padLen_le target bucketCodec frame rest h
  apply Nat.le_trans (padLen_le frame.payload.length)
  decide

def encodeFrames (frames : List Frame) : Bytes := frames.flatMap (bucketCodec.encode · [])

@[simp]
theorem encodeFrames_nil : encodeFrames [] = [] := rfl

@[simp]
theorem encodeFrames_append (fs gs : List Frame)
    : encodeFrames (fs ++ gs) = encodeFrames fs ++ encodeFrames gs := by
  simp [encodeFrames]

theorem encodeFrames_cons (f : Frame) (fs : List Frame)
    : encodeFrames (f :: fs) = bucketCodec.encode f [] ++ encodeFrames fs := by
  simp [encodeFrames]

def FramesFit (frames : List Frame) : Prop := ∀ f ∈ frames, f.payload.length ≤ defaultMaxPayload

theorem framesFit_nil : FramesFit [] := by
  simp [FramesFit]

theorem FramesFit.cons {f : Frame} {fs : List Frame} (h : FramesFit fs)
    (hf : f.payload.length ≤ defaultMaxPayload) : FramesFit (f :: fs) :=
  List.forall_mem_cons.mpr ⟨hf, h⟩

theorem FramesFit.append {fs gs : List Frame} (h : FramesFit fs) (h' : FramesFit gs)
    : FramesFit (fs ++ gs) :=
  List.forall_mem_append.mpr ⟨h, h'⟩

theorem drain_encodeFrames (target : Target) (frames : List Frame) (h : FramesFit frames)
    : (decoder target .default).drain (encodeFrames frames) = (frames, .ok []) := by
  have hstep : ∀ f ∈ frames, ∀ rest,
      (decoder target .default).attempt (bucketCodec.encode f [] ++ rest) = .item f rest := by
    intro f hf rest
    rw [decoder_attempt]
    exact attempt_encode target f rest (h f hf)
  have := (decoder target .default).drain_flatMap _ frames [] hstep
  rw [List.append_nil] at this
  rw [encodeFrames, this, StreamDecoder.drain_wait _ (by simp)]
  simp

/--
The frames of a stream, up to the point where it breaks off or is malformed.
-/
def framesOf (target : Target) (stream : Bytes) : List Frame :=
  ((decoder target .default).drain stream).1

theorem framesOf_wait {target : Target} {buf : Bytes} (h : attempt target .default buf = .wait)
    : framesOf target buf = [] := by
  rw [framesOf, StreamDecoder.drain_wait _ h]

theorem framesOf_append_of_ok {target : Target} {buf rest : Bytes} (ext : Bytes)
    (h : ((decoder target .default).drain buf).2 = .ok rest)
    : framesOf target (buf ++ ext) = framesOf target buf ++ framesOf target (rest ++ ext) := by
  rw [framesOf, StreamDecoder.drain_append_of_ok _ ext h]
  rfl

theorem framesOf_append_of_error {target : Target} {buf : Bytes} {e : DecodeError} (ext : Bytes)
    (h : ((decoder target .default).drain buf).2 = .error e)
    : framesOf target (buf ++ ext) = framesOf target buf := by
  rw [framesOf, StreamDecoder.drain_append_of_error _ ext h, framesOf]

theorem attempt_of_drain_ok {target : Target} {buf rest : Bytes}
    (h : ((decoder target .default).drain buf).2 = .ok rest)
    : attempt target .default rest = .wait :=
  (decoder target .default).attempt_of_drain_ok h

theorem framesOf_encodeFrames (target : Target) {frames : List Frame} (h : FramesFit frames)
    : framesOf target (encodeFrames frames) = frames := by
  rw [framesOf, drain_encodeFrames target frames h]

theorem framesFit_framesOf (target : Target) (stream : Bytes)
    : FramesFit (framesOf target stream) := by
  unfold framesOf
  induction stream using (decoder target .default).drain_induction with
  | item buf frame rest hbuf ih =>
    rw [StreamDecoder.drain_item _ hbuf]
    rcases (attempt_default_eq_item_iff _).mp hbuf with ⟨_, _, hpayload, _⟩
    exact ih.cons hpayload
  | wait buf hbuf =>
    rw [StreamDecoder.drain_wait _ hbuf]
    exact framesFit_nil
  | fail buf e hbuf =>
    rw [StreamDecoder.drain_fail _ hbuf]
    exact framesFit_nil

theorem decoder_default_target (target target' : Target)
    : decoder target .default = decoder target' .default := by
  apply StreamDecoder.eq_of_attempt
  intro buf
  rw [decoder_attempt, decoder_attempt, attempt, attempt,
    decodeOn_target target target' (by decide)]

theorem framesOf_target (target target' : Target) (stream : Bytes)
    : framesOf target stream = framesOf target' stream := by
  unfold framesOf
  rw [decoder_default_target target target']

end Veil
