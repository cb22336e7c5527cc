import ConstructVeil.Client.Lemmas.Auth
import ConstructVeil.Client.Lemmas.Ferry
import ConstructVeil.Relay.Lemmas.Tunnel

/-!
This module contains the end to end results about one tunnel: in both directions the far end gets
the bytes of the near end, whatever chaff is sent along and however the wire bytes are cut.
-/

namespace Veil

open VeilFrontCodec Tunnel

theorem drain_received (target : Target) {buf : Bytes} {reads : List ReadEvent}
    {frames : List Frame}
    (hwire : buf ++ ReadEvent.received reads = encodeFrames frames) (hfit : FramesFit frames)
    : ((decoder target .default).drain (buf ++ ReadEvent.received reads)).2 = .ok [] ∧
      framesOf target (buf ++ ReadEvent.received reads) = frames := by
  rw [hwire, framesOf_encodeFrames target hfit, drain_encodeFrames target frames hfit]
  exact ⟨rfl, rfl⟩

/--
Down: whatever the relay reads from the backend, the client delivers to the local stream.
-/
theorem down_transparency (target : Target) (rng : Rng) (ticks : List Tick) (reads : List ReadEvent)
    (hsize : ∀ tick ∈ ticks, ∀ b, tick.event.bytes = some b → b.length ≤ copyBuf)
    (hio : ∀ tick ∈ ticks, ∀ e, tick.event ≠ .err e)
    (hwire : ReadEvent.received reads = written (forwardTunnelToClient rng ticks).1)
    (hreads : ∀ e, ReadEvent.err e ∉ reads)
    : (forwardTunnelToClient rng ticks).2 = .ok () ∧
      ∃ ops, ferryDown target .new reads = (ops ++ [.shutdown], .ok .new) ∧
        WriteOp.shutdown ∉ ops ∧
        written ops = ReadEvent.received (ticks.map Tick.event) := by
  rcases frameBackendToClient_frames idleChaffWindow ticks hsize
    with ⟨frames, hwritten, hfit, hdata⟩
  refine ⟨frameBackendToClient_ok idleChaffWindow ticks hio, ?_⟩
  have hframes : [] ++ ReadEvent.received reads
      = encodeFrames (.chaff (initialChaff rng) :: frames) := by
    rw [hwire, forwardTunnelToClient, encodeFrames_cons]
    simp [hwritten]
  have hfit' : FramesFit (.chaff (initialChaff rng) :: frames) := by
    have hmax : defaultMaxPayload = 1048576 := rfl
    have := length_initialChaff_le rng
    refine hfit.cons ?_
    rw [Frame.payload_chaff]
    omega
  rcases drain_received target hframes hfit' with ⟨hstatus, hall⟩
  rcases ferryDown_ok hstatus hreads with ⟨ops, hrun, hshutdown, hops⟩
  refine ⟨ops, hrun, hshutdown, ?_⟩
  rw [hops, hall, dataPayloads_chaff, hdata]

theorem encode_ne_nil (frame : Frame) : bucketCodec.encode frame [] ≠ [] := by
  simp [VeilFrontCodec.encode]

/--
A read, an idle gap inside the window and another read, with all of the wire bytes in one read.
-/
theorem down_transparency_idle_gap
    : ∃ (ticks : List Tick) (reads : List ReadEvent),
        ReadEvent.received reads = written (forwardTunnelToClient zeroRng ticks).1 ∧
        ReadEvent.received (ticks.map Tick.event) = [1, 2, 3] ∧
        ∃ ops, ferryDown .bits64 .new reads = (ops ++ [.shutdown], .ok .new) ∧
          written ops = [1, 2, 3] := by
  let ticks : List Tick := [⟨0, .data [1, 2] (by simp), zeroRng⟩, ⟨20, .timeout, zeroRng⟩,
    ⟨40, .data [3] (by simp), zeroRng⟩]
  have hne : written (forwardTunnelToClient zeroRng ticks).1 ≠ [] := by
    simp [forwardTunnelToClient, encode_ne_nil]
  have hwire : ReadEvent.received [.data _ hne]
      = written (forwardTunnelToClient zeroRng ticks).1 := by
    simp [ReadEvent.received]
  rcases down_transparency .bits64 zeroRng ticks [.data _ hne]
    (by simp [ticks, ReadEvent.bytes, copyBuf])
    (by simp [ticks]) hwire (by simp) with ⟨_, ops, hrun, _, hops⟩
  exact ⟨ticks, _, hwire, rfl, ops, hrun, hops⟩

/--
The first `n` bytes of the stream arrive with the first read or with the first two reads.
-/
def WithinTwoReads (n : Nat) : List ReadEvent → Prop
  | .data b _ :: .data b' _ :: _ => n ≤ b.length + b'.length
  | .data b _ :: _ => n ≤ b.length
  | _ => False

theorem tryDecodeAuth_encode {env : GateEnv} {now : UInt64} {frame : Frame}
    (hauth : Authentic env now frame) (leftover : Bytes)
    : tryDecodeAuth env (bucketCodec.encode frame [] ++ leftover) now
        = some (.tunnel leftover) := by
  rcases tryDecodeAuth_item _ (attempt_encode env.target frame leftover hauth.length_payload_le)
    with ⟨_, h⟩ | ⟨hnot, _⟩
  . exact h
  . exact absurd hauth hnot

theorem exists_of_append_eq {a wire b rest : Bytes} (h : b ++ rest = a ++ wire)
    (hlen : a.length ≤ b.length) : ∃ leftover, b = a ++ leftover ∧ leftover ++ rest = wire := by
  rcases List.append_eq_append_iff.mp h with ⟨ext, ha, hrest⟩ | ⟨ext, hb, hwire⟩
  . have hext : ext = [] := by
      rw [ha, List.length_append] at hlen
      exact List.length_eq_zero_iff.mp (by omega)
    exact ⟨[], by simp [ha, hext], by simp [hrest, hext]⟩
  . exact ⟨ext, hb, hwire.symm⟩

theorem gateStream_authentic {env : GateEnv} {now₁ now₂ : UInt64} {frame : Frame} {wire : Bytes}
    {reads : List ReadEvent} (hauth₁ : Authentic env now₁ frame) (hauth₂ : Authentic env now₂ frame)
    (hwire : ReadEvent.received reads = bucketCodec.encode frame [] ++ wire)
    (hcut : WithinTwoReads (bucketCodec.encode frame []).length reads)
    : ∃ leftover consumed rest, gateStream env now₁ now₂ reads = (.ok (.tunnel leftover), rest) ∧
        leftover ++ ReadEvent.received rest = wire ∧ reads = consumed ++ rest := by
  match reads with
  | [] => exact absurd hcut id
  | .eof :: _ => exact absurd hcut id
  | .err _ :: _ => exact absurd hcut id
  | .timeout :: _ => exact absurd hcut id
  | .data b hb :: more =>
    by_cases hfirst : (bucketCodec.encode frame []).length ≤ b.length
    . -- the first read holds the whole frame
      rcases exists_of_append_eq hwire hfirst with ⟨leftover, rfl, hleftover⟩
      refine ⟨leftover, [.data _ hb], more, ?_, hleftover, rfl⟩
      rw [gateStream_some (tryDecodeAuth_encode hauth₁ leftover)]
      rfl
    . match more with
      | [] => exact absurd hcut hfirst
      | .eof :: _ => exact absurd hcut hfirst
      | .err _ :: _ => exact absurd hcut hfirst
      | .timeout :: _ => exact absurd hcut hfirst
      | .data b' hb' :: more =>
        -- the first read ends inside the frame, which makes the gate wait for the second
        rcases exists_of_append_eq hwire.symm (Nat.le_of_not_le hfirst) with ⟨ext, hext, _⟩
        have hne : ext ≠ [] := by
          rintro rfl
          rw [hext] at hfirst
          simp at hfirst
        have hitem := attempt_encode env.target frame [] hauth₁.length_payload_le
        rw [List.append_nil, hext] at hitem
        have hwait := (decoder env.target .default).attempt_wait_of_append hne hitem
        have hsecond : (b ++ b') ++ ReadEvent.received more = bucketCodec.encode frame
            [] ++ wire := by
          rw [← hwire]
          simp [ReadEvent.received]
        rcases exists_of_append_eq hsecond (by rw [List.length_append]; exact hcut)
          with ⟨leftover, hbb', hleftover⟩
        refine ⟨leftover, [.data b hb, .data b' hb'], more, ?_, hleftover, rfl⟩
        rw [gateStream_none (tryDecodeAuth_wait _ hwait), hbb',
          tryDecodeAuth_encode hauth₂ leftover]
        rfl

/--
Up: whatever the client reads from the local stream, the relay writes to the backend. The gate lets
the connection into the tunnel, and the bytes it read ahead are not lost.
-/
theorem up_transparency (env : GateEnv) (texts : TextCodecs) (capabilityB64 : String)
    (authV3 : VeilFrontAuthV3) (clientNow now₁ now₂ : UInt64) (rng : Nat → Rng)
    (ticks : List UpTick) (reads : List ReadEvent)
    (hcrypto : env.crypto.SignVerifies)
    (hcred : Accredited env texts capabilityB64 authV3 [clientNow, now₁, now₂])
    (hsize : ∀ tick ∈ ticks, ∀ b, tick.event.bytes = some b → b.length ≤ localBuf)
    (hio : ∀ tick ∈ ticks, ∀ e, tick.event ≠ .err e)
    (hwire : ReadEvent.received reads
        =
      written (authenticateOver env.crypto texts clientNow env.exporter capabilityB64 authV3).1 ++
        written (ferryUp (.new rng) ticks).1)
    (hreads : ∀ e, ReadEvent.err e ∉ reads)
    (hcut : WithinTwoReads
      (written (authenticateOver env.crypto texts clientNow env.exporter capabilityB64
        authV3).1).length
      reads)
    : (authenticateOver env.crypto texts clientNow env.exporter capabilityB64 authV3).2 = .ok () ∧
      (∃ up, (ferryUp (.new rng) ticks).2 = .ok up) ∧
      ∃ leftover rest, gateStream env now₁ now₂ reads = (.ok (.tunnel leftover), rest) ∧
        ∃ ops, deframeClientToBackend env.target leftover rest = (ops ++ [.shutdown], .ok ()) ∧
          WriteOp.shutdown ∉ ops ∧
          written ops = ReadEvent.received (ticks.map UpTick.event) := by
  rcases authFrame_authentic hcrypto hcred List.mem_cons_self with ⟨frame, hframe, hauth⟩
  rcases ferryUp_frames (VeilFrontUp.idle_new rng) ticks hsize hio
    with ⟨ops, frames, up, hrun, _, hwritten, hfit, hdata⟩
  simp only [authenticateOver, hframe, written_write, written_flush, written_nil, List.append_nil]
    at hwire hcut ⊢
  rcases gateStream_authentic (hauth now₁ (by simp)) (hauth now₂ (by simp)) hwire hcut
    with ⟨leftover, consumed, rest, hgate, hleftover, hrest⟩
  -- what the gate read ahead and what is still to come are the frames of the up loop
  have hframes : leftover ++ ReadEvent.received rest = encodeFrames frames := by
    rw [hleftover, hrun]
    simp [hwritten]
  rcases drain_received env.target hframes hfit with ⟨hstatus, hall⟩
  have hio' : ∀ e, ReadEvent.err e ∉ rest := by
    intro e he
    apply hreads e
    rw [hrest]
    exact List.mem_append_right consumed he
  rcases forwardFrames_ok backendPayload hstatus hio' with ⟨ops', hdeframe, hshutdown⟩
  have hops := written_deframeClientToBackend env.target leftover rest
  rw [deframeClientToBackend, hdeframe, hall, hdata] at hops
  refine ⟨trivial, ⟨up, by rw [hrun]⟩, leftover, rest, hgate, ops', hdeframe, hshutdown, ?_⟩
  simpa using hops

def toyCrypto : Crypto where
  publicKey seed := seed
  sign _ _ := .fill 64 7
  validKey _ := true
  verifyStrict _ _ sig := sig = .fill 64 7
  hmacSha256 _ _ := .fill 32 9

def toyCapability : CapabilityV2 :=
  ⟨.fill 16 1, .fill 32 2, roleUser, 0, 100, suiteClassicV1, "", .fill 64 7⟩

def toyTexts : TextCodecs :=
  ⟨fun _ => .ok (toyCapability.encode.toOption.getD []), fun _ => .ok (List.replicate 32 2)⟩

def toyEnv : GateEnv := ⟨toyCrypto, .bits64, .fill 32 5, .fill 32 3, "relay"⟩

theorem toyCapability_sign
    : CapabilityV2.sign toyCrypto toyCapability.ticketId toyCapability.veilPk toyCapability.role
        toyCapability.notBefore toyCapability.notAfter toyCapability.suiteId toyCapability.scope
        (.fill 32 3) = .ok toyCapability := rfl

theorem toyTexts_decode (text : String)
    : ∃ raw, toyTexts.base64Decode text = .ok raw ∧
        CapabilityV2.decode raw = some (toyCapability, []) := by
  rcases CapabilityV2.encode_of_sign toyCapability_sign with ⟨⟨enc, henc⟩, _⟩
  refine ⟨enc, ?_, CapabilityV2.decode_of_encode henc⟩
  simp [toyTexts, henc, Except.toOption]

theorem toyCapability_parse (text : String)
    : parseCapabilityV2 toyTexts text = .ok toyCapability := by
  rcases toyTexts_decode text with ⟨raw, hraw, hdecode⟩
  simp only [parseCapabilityV2, hraw, hdecode]

theorem toy_accredited : Accredited toyEnv toyTexts "" ⟨"cap", "sk"⟩ [50, 51, 52] :=
  .v3 toyCapability (.fill 32 3) (.fill 32 2) (by decide) (toyCapability_parse _) rfl rfl rfl
    toyCapability_sign (.inl rfl) rfl rfl (by simp [toyCapability, CapabilityV2.isValidAt])

/--
An AUTH v3 connection on which the client has three bytes to send, with all of the wire bytes in one
read.
-/
theorem up_transparency_one_read
    : ∃ reads leftover rest ops,
        gateStream toyEnv 51 52 reads = (.ok (.tunnel leftover), rest) ∧
        deframeClientToBackend .bits64 leftover rest = (ops ++ [.shutdown], .ok ()) ∧
        written ops = [1, 2, 3] := by
  let ticks : List UpTick := [⟨0, .timeout, 0⟩, ⟨1, .data [1, 2, 3] (by simp), 1⟩]
  let auth := written (authenticateOver toyCrypto toyTexts 50 toyEnv.exporter "" ⟨"cap", "sk"⟩).1
  have hcrypto : toyCrypto.SignVerifies := ⟨fun _ => rfl, fun _ _ => by simp [toyCrypto]⟩
  have hne : auth ++ written (ferryUp (.new fun _ => zeroRng) ticks).1 ≠ [] := by
    rcases @authFrame_authentic toyEnv _ _ _ _ _ hcrypto toy_accredited List.mem_cons_self
      with ⟨frame, hframe, _⟩
    simp only [auth, authenticateOver, show authFrame toyCrypto toyTexts 50 toyEnv.exporter ""
      ⟨"cap", "sk"⟩ = .ok frame from hframe]
    simp [encode_ne_nil]
  rcases up_transparency toyEnv toyTexts "" ⟨"cap", "sk"⟩ 50 51 52 (fun _ => zeroRng) ticks
    [.data _ hne] hcrypto toy_accredited (by simp [ticks, ReadEvent.bytes, localBuf])
      (by simp [ticks])
    (by simp [ReadEvent.received, auth, toyEnv]) (by simp)
    (by simp [WithinTwoReads, auth, toyEnv])
    with ⟨_, _, leftover, rest, hgate, ops, hrun, _, hops⟩
  exact ⟨_, leftover, rest, ops, hgate, hrun, hops⟩

end Veil
