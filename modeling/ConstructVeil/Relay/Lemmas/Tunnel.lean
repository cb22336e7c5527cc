import ConstructVeil.Relay.Impl.Tunnel
import ConstructVeil.Protocol.Lemmas.Stream

/-!
This module contains the verification of the loops that a relay runs over the frames of a peer: what
such a loop writes is determined by the frames of the whole stream, however the stream arrives.
-/

namespace Veil

open VeilFrontCodec

def emitted (emit : Frame → Option Bytes) (frames : List Frame) : Bytes :=
  (frames.filterMap emit).flatten

@[simp]
theorem emitted_append (emit : Frame → Option Bytes) (fs gs : List Frame)
    : emitted emit (fs ++ gs) = emitted emit fs ++ emitted emit gs := by
  simp [emitted]

theorem emitted_cons_some {emit : Frame → Option Bytes} {frame : Frame} {out : Bytes}
    (h : emit frame = some out) (frames : List Frame)
    : emitted emit (frame :: frames) = out ++ emitted emit frames := by
  simp [emitted, h]

theorem emitted_cons_none {emit : Frame → Option Bytes} {frame : Frame} (h : emit frame = none)
    (frames : List Frame) : emitted emit (frame :: frames) = emitted emit frames := by
  simp [emitted, h]

theorem foldl_handleFrame (emit : Frame → Option Bytes) (frames : List Frame) (ops : List WriteOp)
    (wrote : Bool)
    : (frames.foldl (handleFrame emit) (ops, wrote)).1
        =
      ops ++ (frames.filterMap emit).map .write := by
  induction frames generalizing ops wrote with
  | nil => simp
  | cons frame frames ih =>
    cases hemit : emit frame with
    | some out => simp [handleFrame, hemit, ih]
    | none => simp [handleFrame, hemit, ih]

theorem emitted_data {emit : Frame → Option Bytes} (out : Bytes → Bytes)
    (h : ∀ frame, emit frame = if frame.isData then some (out frame.payload) else none)
    (frames : List Frame) : emitted emit frames = (dataPayloads frames).flatMap out := by
  induction frames with
  | nil => rfl
  | cons frame frames ih =>
    rw [← List.singleton_append, emitted_append, ih, dataPayloads_append, List.flatMap_append]
    congr 1
    cases hdata : frame.isData with
    | true => simp [emitted, dataPayloads, h, hdata]
    | false => simp [emitted, dataPayloads, h, hdata]

variable {target : Target} {emit : Frame → Option Bytes}

theorem drainFrames_spec (target : Target) (emit : Frame → Option Bytes) (buf : Bytes)
    : ∃ ops, drainFrames target emit buf = (ops, ((decoder target .default).drain buf).2) ∧
        written ops = emitted emit (framesOf target buf) ∧
        WriteOp.shutdown ∉ ops := by
  unfold drainFrames framesOf
  rw [StreamDecoder.process_eq_drain]
  rcases (decoder target .default).drain buf with ⟨frames, status⟩
  have hops := foldl_handleFrame emit frames [] false
  generalize frames.foldl (handleFrame emit) ([], false) = progress at *
  rcases progress with ⟨ops, wrote⟩
  simp only [List.nil_append] at hops
  have hwritten : written ops = emitted emit frames := by
    rw [hops, written_map_write, emitted]
  have hshutdown : WriteOp.shutdown ∉ ops := by
    simp [hops]
  cases status with
  | error e => exact ⟨ops, rfl, hwritten, hshutdown⟩
  | ok rest =>
    cases wrote with
    | false => exact ⟨ops, rfl, hwritten, hshutdown⟩
    | true => exact ⟨ops ++ [.flush], rfl, by simp [hwritten], by simp [hshutdown]⟩

/--
Over a whole stream the loop writes what the frames of the stream call for, whatever the cuts. If
the stream breaks off or turns out malformed, that is what was complete until then.
-/
theorem written_forwardFrames (target : Target) (emit : Frame → Option Bytes) (buf : Bytes)
    (reads : List ReadEvent)
    : written (forwardFrames target emit buf reads).1
        =
      emitted emit (framesOf target (buf ++ ReadEvent.received reads)) := by
  induction reads generalizing buf with
  | nil =>
    rcases drainFrames_spec target emit buf with ⟨ops, hops, hwritten, _⟩
    rw [forwardFrames, hops, ReadEvent.received, List.append_nil]
    cases ((decoder target .default).drain buf).2 with
    | error e => exact hwritten
    | ok rest => simp [hwritten]
  | cons event reads ih =>
    rcases drainFrames_spec target emit buf with ⟨ops, hops, hwritten, _⟩
    rw [forwardFrames, hops]
    cases hstatus : ((decoder target .default).drain buf).2 with
    | error e =>
      rw [framesOf_append_of_error _ hstatus]
      exact hwritten
    | ok rest =>
      have hrest := framesOf_wait (attempt_of_drain_ok hstatus)
      rw [framesOf_append_of_ok _ hstatus, emitted_append, ← hwritten]
      cases event with
      | eof => simp [ReadEvent.received, hrest, emitted]
      | err e => simp [ReadEvent.received, hrest, emitted]
      | timeout => simp [ReadEvent.received, ih]
      | data bytes hne => simp [ReadEvent.received, ih]

theorem forwardFrames_ok (emit : Frame → Option Bytes) {buf rest : Bytes} {reads : List ReadEvent}
    (hstatus : ((decoder target .default).drain (buf ++ ReadEvent.received reads)).2 = .ok rest)
    (hio : ∀ e, ReadEvent.err e ∉ reads)
    : ∃ ops, forwardFrames target emit buf reads = (ops ++ [.shutdown], .ok ()) ∧
        WriteOp.shutdown ∉ ops := by
  induction reads generalizing buf with
  | nil =>
    rcases drainFrames_spec target emit buf with ⟨ops, hops, _, hshutdown⟩
    rw [ReadEvent.received, List.append_nil] at hstatus
    rw [forwardFrames, hops, hstatus]
    exact ⟨ops, rfl, hshutdown⟩
  | cons event reads ih =>
    rcases drainFrames_spec target emit buf with ⟨ops, hops, _, hshutdown⟩
    rw [forwardFrames, hops]
    cases hbuf : ((decoder target .default).drain buf).2 with
    | error e =>
      rw [(decoder target .default).drain_append_of_error _ hbuf, hbuf] at hstatus
      cases hstatus
    | ok rest' =>
      rw [(decoder target .default).drain_append_of_ok _ hbuf] at hstatus
      have hio' : ∀ e, ReadEvent.err e ∉ reads := fun e he => hio e (List.mem_cons_of_mem event he)
      cases event with
      | eof => exact ⟨ops, rfl, hshutdown⟩
      | err e => exact absurd List.mem_cons_self (hio e)
      | timeout =>
        rcases ih hstatus hio' with ⟨ops', hops', hshutdown'⟩
        exact ⟨ops ++ ops', by simp [hops'], by simp [hshutdown, hshutdown']⟩
      | data bytes hne =>
        rw [ReadEvent.received, ← List.append_assoc] at hstatus
        rcases ih hstatus hio' with ⟨ops', hops', hshutdown'⟩
        exact ⟨ops ++ ops', by simp [hops'], by simp [hshutdown, hshutdown']⟩

namespace Tunnel

theorem backendPayload_eq (frame : Frame)
    : backendPayload frame = if frame.isData then some frame.payload else none := by
  simp [backendPayload, Frame.isData]

theorem emitted_backendPayload (frames : List Frame)
    : emitted backendPayload frames = (dataPayloads frames).flatten := by
  rw [emitted_data id backendPayload_eq, List.flatMap_id]

theorem written_deframeClientToBackend (target : Target) (leftover : Bytes) (reads : List ReadEvent)
    : written (deframeClientToBackend target leftover reads).1
        =
      (dataPayloads (framesOf target (leftover ++ ReadEvent.received reads))).flatten := by
  rw [deframeClientToBackend, written_forwardFrames, emitted_backendPayload]

theorem length_randomChaff_le (rng : Rng) : (randomChaff rng).length ≤ 512 := by
  apply Rng.length_chaffFrom_le
  decide

theorem length_initialChaff_le (rng : Rng) : (initialChaff rng).length ≤ 256 := by
  apply Rng.length_chaffFrom_le
  decide

/--
The client is sent DATA frames with the bytes of the backend, in order, and CHAFF frames.
-/
theorem frameBackendToClient_frames (chaffWindow : Nat) (ticks : List Tick)
    (hsize : ∀ tick ∈ ticks, ∀ b, tick.event.bytes = some b → b.length ≤ copyBuf)
    : ∃ frames, written (frameBackendToClient chaffWindow ticks).1 = encodeFrames frames ∧
        FramesFit frames ∧
        (dataPayloads frames).flatten = ReadEvent.received (ticks.map Tick.event) := by
  have hmax : defaultMaxPayload = 1048576 := rfl
  induction ticks with
  | nil => exact ⟨[], rfl, framesFit_nil, rfl⟩
  | cons tick ticks ih =>
    rcases tick with ⟨elapsed, event, rng⟩
    rcases ih (fun t ht => hsize t (List.mem_cons_of_mem _ ht)) with ⟨frames, hwritten, hfit, hdata⟩
    cases event with
    | eof => exact ⟨[], rfl, framesFit_nil, rfl⟩
    | err e => exact ⟨[], rfl, framesFit_nil, rfl⟩
    | timeout =>
      by_cases helapsed : elapsed < chaffWindow
      . refine ⟨.chaff (randomChaff rng) :: frames, ?_, ?_, ?_⟩
        . simp [frameBackendToClient, helapsed, hwritten, encodeFrames_cons]
        . have := length_randomChaff_le rng
          refine hfit.cons ?_
          rw [Frame.payload_chaff]
          omega
        . simpa [ReadEvent.received] using hdata
      . refine ⟨frames, ?_, hfit, ?_⟩
        . simpa [frameBackendToClient, helapsed] using hwritten
        . simpa [ReadEvent.received] using hdata
    | data bytes hne =>
      refine ⟨.data bytes :: frames, ?_, ?_, ?_⟩
      . simp [frameBackendToClient, hwritten, encodeFrames_cons]
      . have : bytes.length ≤ copyBuf := hsize _ List.mem_cons_self bytes rfl
        have hcopy : copyBuf = 8192 := rfl
        refine hfit.cons ?_
        rw [Frame.payload_data]
        omega
      . simp [ReadEvent.received, hdata]

theorem frameBackendToClient_ok (chaffWindow : Nat) (ticks : List Tick)
    (hio : ∀ tick ∈ ticks, ∀ e, tick.event ≠ .err e)
    : (frameBackendToClient chaffWindow ticks).2 = .ok () := by
  induction ticks with
  | nil => rfl
  | cons tick ticks ih =>
    rcases tick with ⟨elapsed, event, rng⟩
    have ih := ih (fun t ht => hio t (List.mem_cons_of_mem _ ht))
    cases event with
    | eof => rfl
    | err e => exact absurd rfl (hio _ List.mem_cons_self e)
    | timeout =>
      simp only [frameBackendToClient]
      split <;> exact ih
    | data bytes hne => exact ih

end Tunnel

end Veil
