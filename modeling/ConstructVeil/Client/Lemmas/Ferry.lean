import ConstructVeil.Client.Impl.Adapter
import ConstructVeil.Client.Lemmas.Padding
import ConstructVeil.Protocol.Lemmas.Stream

/-!
This module contains the verification of the client's ferry: the up loop sends every local byte in a
DATA frame, whatever the chaff scheduler does in between, and the down loop delivers the DATA
payloads of the relay's stream, however it is cut.
-/

namespace Veil

open VeilFrontCodec

/--
The state of the up half whenever it looks at the local stream: everything it was given is sent.
-/
structure VeilFrontUp.Idle (up : VeilFrontUp) : Prop where
  codec : up.codec = bucketCodec
  queue : up.strategy.payloadQueue.frames = []

theorem VeilFrontUp.idle_new (rng : Nat → Rng) : (new rng).Idle := ⟨rfl, rfl⟩

theorem sendNext_queueLocal {up : VeilFrontUp} (h : up.Idle) (bytes : Bytes) (now : Nat)
    : (sendNext (up.queueLocal bytes) now).1
          =
        [.write (bucketCodec.encode (.data bytes) []), .flush] ∧
      (sendNext (up.queueLocal bytes) now).2.Idle := by
  rcases up with ⟨⟨⟨frames, queuedBytes⟩, scheduler⟩, codec⟩
  rcases h with ⟨hcodec, hqueue⟩
  dsimp only at hcodec hqueue
  subst hcodec hqueue
  exact ⟨rfl, rfl, rfl⟩

theorem sendNext_idle {up : VeilFrontUp} (h : up.Idle) (now : Nat)
    : ((sendNext up now).1 = [] ∨
        ∃ frame, IsChaff frame ∧
          (sendNext up now).1 = [.write (bucketCodec.encode frame []), .flush]) ∧
      (sendNext up now).2.Idle := by
  rcases up with ⟨⟨⟨frames, queuedBytes⟩, scheduler⟩, codec⟩
  rcases h with ⟨hcodec, hqueue⟩
  dsimp only at hcodec hqueue
  subst hcodec hqueue
  simp only [sendNext, VeilFrontUp.nextWire, WriteStrategy.nextFrame, PayloadQueue.pop]
  cases hpoll : (scheduler.pollChaff now).1 with
  | none => exact ⟨.inl rfl, rfl, rfl⟩
  | some frame =>
    exact ⟨.inr ⟨frame, ((FrontChaffScheduler.polled_pollChaff scheduler now).chaff frame hpoll).1,
      rfl⟩, rfl, rfl⟩

/--
A run of the up loop writes frames: DATA with the local bytes, in order, and CHAFF. Nothing is left
in the queue when it ends.
-/
theorem ferryUp_frames {up : VeilFrontUp} (hup : up.Idle) (ticks : List UpTick)
    (hsize : ∀ tick ∈ ticks, ∀ b, tick.event.bytes = some b → b.length ≤ localBuf)
    (hio : ∀ tick ∈ ticks, ∀ e, tick.event ≠ .err e)
    : ∃ ops frames up', ferryUp up ticks = (ops ++ [.shutdown], .ok up') ∧ up'.Idle ∧
        written ops = encodeFrames frames ∧ FramesFit frames ∧
        (dataPayloads frames).flatten = ReadEvent.received (ticks.map UpTick.event) := by
  have hmax : defaultMaxPayload = 1048576 := rfl
  induction ticks generalizing up with
  | nil => exact ⟨[], [], up, rfl, hup, rfl, framesFit_nil, rfl⟩
  | cons tick ticks ih =>
    rcases tick with ⟨waitNow, event, wireNow⟩
    have hsize' := fun t ht => hsize t (List.mem_cons_of_mem _ ht)
    have hio' := fun t ht => hio t (List.mem_cons_of_mem _ ht)
    cases event with
    | eof => exact ⟨[], [], up, rfl, hup, rfl, framesFit_nil, rfl⟩
    | err e => exact absurd rfl (hio _ List.mem_cons_self e)
    | data bytes hne =>
      have hsend := sendNext_queueLocal hup bytes wireNow
      rcases ih hsend.2 hsize' hio' with ⟨ops, frames, up', hrun, hup', hwritten, hfit, hdata⟩
      refine ⟨.write (bucketCodec.encode (.data bytes) []) :: .flush :: ops, .data bytes :: frames,
        up', ?_, hup', ?_, ?_, ?_⟩
      . simp only [ferryUp, hsend.1, hrun, List.cons_append, List.nil_append]
      . simp [hwritten, encodeFrames_cons]
      . have : bytes.length ≤ localBuf := hsize _ List.mem_cons_self bytes rfl
        have hbuf : localBuf = 8192 := rfl
        refine hfit.cons ?_
        rw [Frame.payload_data]
        omega
      . simp [ReadEvent.received, hdata]
    | timeout =>
      -- while the loop waits for local data there is no timer that could expire
      by_cases hwaits : up.waitsForLocal waitNow = true
      . rcases ih hup hsize' hio' with ⟨ops, frames, up', hrun, hrest⟩
        exact ⟨ops, frames, up', by simp [ferryUp, hwaits, hrun],
          by simpa [ReadEvent.received] using hrest⟩
      . have hsend := sendNext_idle hup wireNow
        rcases ih hsend.2 hsize' hio' with ⟨ops, frames, up', hrun, hup', hwritten, hfit, hdata⟩
        rcases hsend.1 with hnone | ⟨frame, ⟨payload, rfl, hpayload⟩, hsome⟩
        . refine ⟨ops, frames, up', ?_, hup', hwritten, hfit, hdata⟩
          simp [ferryUp, hwaits, hnone, hrun]
        . refine ⟨.write (bucketCodec.encode (.chaff payload) []) :: .flush :: ops,
            .chaff payload :: frames, up', ?_, hup', ?_, ?_, ?_⟩
          . simp [ferryUp, hwaits, hsome, hrun]
          . simp [hwritten, encodeFrames_cons]
          . refine hfit.cons ?_
            rw [Frame.payload_chaff]
            omega
          . simpa [ReadEvent.received] using hdata

namespace VeilFrontDown

variable {target : Target} {buf rest : Bytes}

theorem nextPayload_eq (target : Target) (codec : VeilFrontCodec) (buf : Bytes)
    : nextPayload target ⟨codec, buf⟩
        =
      match (decoder target codec).attempt buf with
      | .item frame rest =>
        if frame.isData then
          (.ok (some frame.payload), ⟨codec, rest⟩)
        else
          nextPayload target ⟨codec, rest⟩
      | .wait => (.ok none, ⟨codec, buf⟩)
      | .fail e => (.error e, ⟨codec, buf⟩) := by
  rw [nextPayload]
  split
  . next frame rest h =>
    dsimp only at h ⊢
    rw [h]
    simp only [Frame.isData, beq_iff_eq]
  . next h =>
    dsimp only at h
    rw [h]
  . next e h =>
    dsimp only at h
    rw [h]

theorem drainPayloads_unfold (target : Target) (down : VeilFrontDown)
    : drainPayloads target down
        =
      match nextPayload target down with
      | (.ok (some payload), down') =>
        (.write payload :: (drainPayloads target down').1, (drainPayloads target down').2)
      | (.ok none, down') => ([], .ok down')
      | (.error e, _) => ([], .error e) := by
  rw [drainPayloads]
  split
  . next h =>
    dsimp only
    rw [h]
  . next h => rw [h]
  . next h => rw [h]

theorem drainPayloads_eq (target : Target) (codec : VeilFrontCodec) (buf : Bytes)
    : drainPayloads target ⟨codec, buf⟩
        =
      ((dataPayloads ((decoder target codec).drain buf).1).map .write,
        ((decoder target codec).drain buf).2.map (⟨codec, ·⟩)) := by
  rw [drainPayloads_unfold, nextPayload_eq]
  induction buf using (decoder target codec).drain_induction with
  | item buf frame rest hbuf ih =>
    rw [(decoder target codec).drain_item hbuf, hbuf]
    dsimp only
    cases hdata : frame.isData with
    | true =>
      rw [Frame.eq_data_of_isData hdata]
      simp only [↓reduceIte, dataPayloads_data, List.map_cons, Frame.payload_data]
      rw [drainPayloads_unfold, nextPayload_eq, ih]
    | false =>
      have hskip : ∀ fs, dataPayloads (frame :: fs) = dataPayloads fs := by
        intro fs
        simp [dataPayloads, hdata]
      simp only [Bool.false_eq_true, ↓reduceIte, hskip]
      rw [nextPayload_eq, ih]
  | wait buf hbuf =>
    rw [(decoder target codec).drain_wait hbuf, hbuf]
    rfl
  | fail buf e hbuf =>
    rw [(decoder target codec).drain_fail hbuf, hbuf]
    rfl

end VeilFrontDown

/--
A well-formed stream without I/O errors is delivered to its end: all DATA payloads of it and nothing
else, then the local stream is shut down. What stays in the buffer is the incomplete frame at the
end.
-/
theorem ferryDown_ok {target : Target} {buf rest : Bytes} {reads : List ReadEvent}
    (hstatus : ((decoder target .default).drain (buf ++ ReadEvent.received reads)).2 = .ok rest)
    (hio : ∀ e, ReadEvent.err e ∉ reads)
    : ∃ ops, ferryDown target ⟨.default, buf⟩ reads = (ops ++ [.shutdown], .ok ⟨.default, rest⟩) ∧
        WriteOp.shutdown ∉ ops ∧
        written ops
            =
          (dataPayloads (framesOf target (buf ++ ReadEvent.received reads))).flatten := by
  induction reads generalizing buf with
  | nil =>
    rw [ReadEvent.received, List.append_nil] at *
    refine ⟨_, by rw [ferryDown, VeilFrontDown.drainPayloads_eq, hstatus]; rfl, ?_, ?_⟩
    . simp
    . rw [written_map_write, framesOf]
  | cons event reads ih =>
    rw [ferryDown, VeilFrontDown.drainPayloads_eq]
    cases hbuf : ((decoder target .default).drain buf).2 with
    | error e =>
      -- no later read makes up for a malformed frame
      rw [(decoder target .default).drain_append_of_error _ hbuf, hbuf] at hstatus
      cases hstatus
    | ok rest' =>
      have hrest := framesOf_wait (attempt_of_drain_ok hbuf)
      rw [framesOf_append_of_ok _ hbuf, dataPayloads_append, List.flatten_append]
      rw [(decoder target .default).drain_append_of_ok _ hbuf] at hstatus
      have hio' : ∀ e, ReadEvent.err e ∉ reads := fun e he => hio e (List.mem_cons_of_mem event he)
      cases event with
      | eof =>
        simp only [ReadEvent.received, List.append_nil] at hstatus ⊢
        rw [(decoder target .default).drain_wait (attempt_of_drain_ok hbuf)] at hstatus
        injection hstatus with hstatus
        refine ⟨_, by rw [hstatus]; rfl, by simp, ?_⟩
        rw [hrest, written_map_write]
        simp [framesOf]
      | err e => exact absurd List.mem_cons_self (hio e)
      | timeout =>
        rcases ih hstatus hio' with ⟨ops, hops, hshutdown, hwritten⟩
        refine ⟨(dataPayloads (framesOf target buf)).map .write ++ ops, ?_, ?_, ?_⟩
        . simp [Except.map, hops, framesOf]
        . simp [hshutdown]
        . simp [written_map_write, hwritten, ReadEvent.received]
      | data bytes hne =>
        rw [ReadEvent.received, ← List.append_assoc] at hstatus
        rcases ih hstatus hio' with ⟨ops, hops, hshutdown, hwritten⟩
        refine ⟨(dataPayloads (framesOf target buf)).map .write ++ ops, ?_, ?_, ?_⟩
        . simp [Except.map, VeilFrontDown.feed, hops, framesOf]
        . simp [hshutdown]
        . simp [written_map_write, hwritten, ReadEvent.received]

end Veil
