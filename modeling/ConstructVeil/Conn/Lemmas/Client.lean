import ConstructVeil.Client.Lemmas.Ferry
import ConstructVeil.Conn.Impl.Client
import ConstructVeil.Conn.Lemmas.Frames
import ConstructVeil.Protocol.Lemmas.Capability
import ConstructVeil.Util.Checked

/-!
This module contains the verification of the client's side of a connection on sockets that may fail.
-/

namespace Veil

open VeilFrontCodec SockAction Sock Except

theorem authFrame_eq_ok {crypto : Crypto} {texts : TextCodecs} {now : UInt64}
    {exporter : ByteArr 32} {capabilityB64 : String} {authV3 : VeilFrontAuthV3} {frame : Frame}
    (h : authFrame crypto texts now exporter capabilityB64 authV3 = .ok frame)
    : frame.isData = false ∧ frame.payload.length ≤ defaultMaxPayload := by
  have hmax : defaultMaxPayload = 1048576 := rfl
  rw [authFrame] at h
  split at h
  . rcases bind_eq_ok h with ⟨capability, _, h⟩
    rcases bind_eq_ok h with ⟨_, _, h⟩
    rcases bind_eq_ok h with ⟨veilSk, _, h⟩
    rcases bind_eq_ok h with ⟨payload, hpayload, h⟩
    cases h
    have := AuthRecordV3.length_of_encodePayload (mapError_eq_ok hpayload)
    exact ⟨rfl, show payload.length ≤ _ by omega⟩
  . rcases bind_eq_ok h with ⟨capability, _, h⟩
    rcases bind_eq_ok h with ⟨_, _, h⟩
    rcases bind_eq_ok h with ⟨payload, hpayload, h⟩
    cases h
    have := AuthRecordV2.length_of_encodePayload (mapError_eq_ok hpayload)
    exact ⟨rfl, show payload.length ≤ _ by omega⟩

section Up

variable {ε : Type} {cfg : ClientConfig} {target : Target} {l : Log}

theorem dialAndAuthenticate_holds {post : Unit → Log → Prop}
    (hpost : ∀ l, FramedSoFar target id l → post () l)
    : Holds .leg (Sound id (carried target)) (dialAndAuthenticate cfg) post
        (fun _ l => l.Carries id (carried target)) (.start false) := by
  have hcarries : (Ledger.start false).Carries id (carried target) :=
    (Untouched.start _).carries (carried_nil _)
  apply holds_bind
  apply ask_holds rfl hcarries
  intro res
  cases res with
  | error e => exact hcarries
  | ok exporter =>
    apply holds_tryCatch
    have hsend : Holds .leg (Sound id (carried target)) (Sock.authenticateOver cfg exporter) post
        (fun _ l => l.Carries id (carried target)) (.start false) := by
      apply holds_bind
      apply ask_holds rfl hcarries
      intro now
      split
      . exact hcarries
      . next frame hframe =>
        have hauth := authFrame_eq_ok hframe
        apply sendFirst_holds (.start _) rfl hauth.1 hauth.2
        intro l' hconsumed hframing hflushed
        exact hpost l' ⟨by rw [hconsumed]; exact hframing, hflushed⟩
    apply hsend.mono (fun _ _ h => h)
    intro e l hcarries
    split
    . apply holds_bind
      apply ask_holds rfl hcarries
      intro expired
      split
      . exact hcarries
      . exact hcarries
    . exact hcarries

theorem sendNext_of_write {up : VeilFrontUp} {wire : Bytes} {now : Nat}
    (h : (Veil.sendNext up now).1 = [.write wire, .flush])
    : up.nextWire now = (some wire, (Veil.sendNext up now).2) := by
  rw [Veil.sendNext] at h ⊢
  split at h
  . next hnext =>
    cases h
    rw [hnext]
  . cases h

theorem sendNext_of_nil {up : VeilFrontUp} {now : Nat} (h : (Veil.sendNext up now).1 = [])
    : up.nextWire now = (none, (Veil.sendNext up now).2) := by
  rw [Veil.sendNext] at h ⊢
  split at h
  . cases h
  . next hnext => rw [hnext]

theorem readLocal_holds {up : VeilFrontUp} {post : ReadEvent → Log → Prop}
    (h : FramedSoFar target id l)
    (hdata : ∀ bytes hne, bytes.length ≤ localBuf → post (.data bytes hne) (l.read bytes))
    (heof : post .eof l.readEnd) (herr : ∀ e, post (.err e) l) (htimeout : post .timeout l)
    : Holds .leg (Sound id (carried target)) (readLocal up : Sock ε ReadEvent) post
        (fun _ l => l.Carries id (carried target)) l := by
  apply holds_bind
  apply ask_holds rfl h.carries
  intro now
  split
  . apply holds_read ⟨h.carries, fun _ => h.prompt⟩
      (fun bytes hne hlimit _ => hdata bytes hne (hlimit _ rfl)) heof herr
    intro htimer
    cases htimer
  . apply holds_read ⟨h.carries, fun _ => h.prompt⟩
      (fun bytes hne hlimit _ => hdata bytes hne (hlimit _ rfl)) heof herr
    intro _
    exact htimeout

variable [FromIo ε]

theorem sendQueued_holds {up : VeilFrontUp} {bytes : Bytes} {post : VeilFrontUp → Log → Prop}
    (hup : up.Idle) (h : FramedSoFar target id l) (hlen : bytes.length ≤ localBuf)
    (hpost : ∀ up l', up.Idle → FramedSoFar target id l' → post up l')
    : Holds .leg (Sound id (carried target))
        (Sock.sendNext (up.queueLocal bytes) : Sock ε VeilFrontUp) post
        (fun _ l => l.Carries id (carried target)) (l.read bytes) := by
  have hmax : defaultMaxPayload = 1048576 := rfl
  have hbuf : localBuf = 8192 := rfl
  have hframing : Framing l.consumed (l.read bytes) :=
    ⟨h.framing.framed, h.framing.notEnd, h.framing.opened⟩
  have hcarries : (l.read bytes).Carries id (carried target) :=
    hframing.carries (List.prefix_append _ _)
  apply holds_bind
  apply ask_holds rfl hcarries
  intro now
  have hsend := sendNext_queueLocal hup bytes now
  rw [sendNext_of_write hsend.1]
  apply holds_bind
  apply sendFrame_holds hframing
    (show (Frame.data bytes).payload.length ≤ _ by rw [Frame.payload_data]; omega)
  . simp
  . intro l' hconsumed hframing' hflushed
    apply hpost _ l' hsend.2
    refine ⟨?_, hflushed⟩
    rw [hconsumed]
    simpa using hframing'

theorem sendIdle_holds {up : VeilFrontUp} {post : VeilFrontUp → Log → Prop} (hup : up.Idle)
    (h : FramedSoFar target id l) (hpost : ∀ up l', up.Idle → FramedSoFar target id l' → post up l')
    : Holds .leg (Sound id (carried target)) (Sock.sendNext up : Sock ε VeilFrontUp) post
        (fun _ l => l.Carries id (carried target)) l := by
  have hmax : defaultMaxPayload = 1048576 := rfl
  apply holds_bind
  apply ask_holds rfl h.carries
  intro now
  have hsend := sendNext_idle hup now
  rcases hsend.1 with hnone | ⟨frame, ⟨payload, rfl, hpayload⟩, hsome⟩
  . rw [sendNext_of_nil hnone]
    exact hpost _ l hsend.2 h
  . rw [sendNext_of_write hsome]
    apply holds_bind
    apply sendFrame_holds h.framing
      (show (Frame.chaff payload).payload.length ≤ _ by rw [Frame.payload_chaff]; omega)
    . simp
    . intro l' hconsumed hframing' hflushed
      apply hpost _ l' hsend.2
      refine ⟨?_, hflushed⟩
      rw [hconsumed]
      simpa using hframing'

theorem ferryUp_holds {up : VeilFrontUp} (hup : up.Idle) (h : FramedSoFar target id l)
    : Holds .leg (Sound id (carried target)) (Sock.ferryUp up : Sock ε (VeilFrontUp ⊕ VeilFrontUp))
        (Sum.elim (fun up l' => up.Idle ∧ FramedSoFar target id l')
          (fun _ l' => l'.Carries id (carried target) ∧ l'.closed = true))
        (fun _ l' => l'.Carries id (carried target)) l := by
  apply holds_bind
  apply readLocal_holds h
  . intro bytes hne hlen
    apply holds_bind
    apply sendQueued_holds hup h hlen
    intro up' l' hup' h'
    exact ⟨hup', h'⟩
  . apply holds_bind
    apply shutdown_holds h.framing rfl
    intro hcarries
    exact ⟨hcarries, rfl⟩
  . intro e
    exact h.carries
  . apply holds_bind
    apply sendIdle_holds hup h
    intro up' l' hup' h'
    exact ⟨hup', h'⟩

/--
The client's up direction: what the frames on the wire carry are the bytes of the app.
-/
theorem openFerryUp_sound
    : SoundPipe .leg id (carried target) (fun res l => ∀ up, res = .ok up → l.closed = true)
        (openFerryUp cfg) := by
  apply SoundPipe.of_holds fun up l => up.Idle ∧ FramedSoFar target id l
  . intro up l h
    exact h.2.carries
  . apply holds_bind
    apply dialAndAuthenticate_holds
    intro l h
    exact ⟨VeilFrontUp.idle_new cfg.rng, h⟩
  . intro up l h
    exact ferryUp_holds h.1 h.2

theorem ferryUpHalf_sound {rng : Nat → Rng}
    : SoundPipe .leg id (carried target) (fun res l => ∀ up, res = .ok up → l.closed = true)
        (ferryUpHalf rng) := by
  apply SoundPipe.of_holds fun up l => up.Idle ∧ FramedSoFar target id l
  . intro up l h
    exact h.2.carries
  . exact ⟨VeilFrontUp.idle_new rng, ⟨Framed.nil, rfl, rfl⟩, rfl⟩
  . intro up l h
    exact ferryUp_holds h.1 h.2

end Up

section Down

variable {ε : Type} [FromIo ε] {target : Target} {l : Log}

theorem drainPayloads_eq (down : VeilFrontDown)
    : (Sock.drainPayloads target down : Sock ε VeilFrontDown)
        =
      match down.nextPayload target with
      | (.ok (some payload), down') => do
        writeAll .app payload
        Sock.drainPayloads target down'
      | (.ok none, down') => return down'
      | (.error e, _) => throw (FromIo.fromIo (.invalidData e)) := by
  rw [Sock.drainPayloads]
  split
  . next h =>
    dsimp only
    rw [h]
  . next h => rw [h]
  . next h => rw [h]

structure Delivered (target : Target) (down : VeilFrontDown) (l : Log) : Prop where
  codec : down.codec = .default
  forwarding : Forwarding target Eq down.buf l
  flushed : l.flushed = l.sent

theorem drainPayloads_holds {down : VeilFrontDown} {post : VeilFrontDown → Log → Prop}
    (h : Delivered target down l)
    (hpost : ∀ down' l', Delivered target down' l' →
      (decoder target .default).attempt down'.buf = .wait → post down' l')
    : Holds .app (Sound (carried target) id) (Sock.drainPayloads target down : Sock ε VeilFrontDown)
        post (fun _ l' => l'.Carries (carried target) id) l := by
  rcases down with ⟨codec, buf⟩
  rcases h with ⟨hcodec, h, hflushed⟩
  dsimp only at hcodec h
  subst hcodec
  induction buf using (decoder target .default).drain_induction generalizing l with
  | item buf frame rest hbuf ih =>
    rw [drainPayloads_eq, VeilFrontDown.nextPayload_eq, hbuf]
    rcases h.take emits_payload hbuf with ⟨out, hout, hwrite⟩ | ⟨hskip, h'⟩
    . simp only [Option.ite_none_right_eq_some, Option.some.injEq] at hout
      rcases hout with ⟨hdata, rfl⟩
      dsimp only
      rw [if_pos hdata]
      apply holds_bind
      apply holds_writeAll
      . exact ⟨h.carries emits_payload, by simp [isRead]⟩
      . intro _
        exact ih hwrite.flush rfl
      . intro e part hpart
        exact hwrite.carries_part emits_payload hpart
    . have hdata : frame.isData = false := by simpa using hskip
      have hrest := ih h' hflushed
      rw [drainPayloads_eq] at hrest
      simpa [hdata] using hrest
  | wait buf hbuf =>
    rw [drainPayloads_eq, VeilFrontDown.nextPayload_eq, hbuf]
    exact hpost _ l ⟨rfl, h, hflushed⟩ hbuf
  | fail buf e hbuf =>
    rw [drainPayloads_eq, VeilFrontDown.nextPayload_eq, hbuf]
    exact h.carries emits_payload

theorem ferryDown_holds {down : VeilFrontDown} (h : Delivered target down l)
    : Holds .app (Sound (carried target) id)
        (Sock.ferryDown target down : Sock ε (VeilFrontDown ⊕ Unit))
        (Sum.elim (fun down l' => Delivered target down l')
          (fun _ l' => l'.Carries (carried target) id ∧ l'.closed = true))
        (fun _ l' => l'.Carries (carried target) id) l := by
  apply holds_bind
  apply drainPayloads_holds h
  intro down' l' h' hwait
  have hcarries := h'.forwarding.carries emits_payload
  apply holds_bind
  apply holds_read
  . exact ⟨hcarries, fun _ => h'.forwarding.prompt emits_payload hwait h'.flushed⟩
  . intro bytes hne _ _
    exact ⟨h'.codec, h'.forwarding.read bytes, h'.flushed⟩
  . have hcomplete := h'.forwarding.complete emits_payload hwait
    apply holds_bind
    apply holds_shutdown
    . exact ⟨hcomplete.1, by simp [isRead]⟩
    . exact ⟨hcomplete.2, rfl⟩
    . intro e
      exact hcomplete.1
  . intro e
    exact hcarries
  . intro htimer
    cases htimer

/--
The client's down direction: what the app gets are the bytes that the frames on the wire carry.
-/
theorem openFerryDown_sound
    : SoundPipe .app (carried target) id (fun res l => ∀ u, res = .ok u → l.closed = true)
        (openFerryDown target) := by
  apply SoundPipe.of_holds (Delivered target)
  . intro down l h
    exact h.forwarding.carries emits_payload
  . exact ⟨rfl, ⟨⟨[], .nil _, rfl⟩, rfl, rfl⟩, rfl⟩
  . intro down l h
    exact ferryDown_holds h

end Down

end Veil
