import ConstructVeil.Conn.Impl.Relay
import ConstructVeil.Conn.Lemmas.Frames
import ConstructVeil.Relay.Lemmas.Chain
import ConstructVeil.Relay.Lemmas.Gate

/-!
This module contains the verification of the relay's side of a connection on sockets that may fail:
at every moment the output of a direction carries its input, as far as it got.
-/

namespace Veil

open VeilFrontCodec SockAction Sock

theorem emits_backendPayload : Emits Tunnel.backendPayload id Eq := by
  rw [funext Tunnel.backendPayload_eq]
  exact emits_payload

theorem emits_reframe (target : Target) : Emits Chain.reframe (carried target) Framed where
  data := by
    intro stream payload frame hout hdata hfit
    exact ⟨_, by rw [Chain.reframe_eq, if_pos hdata], hout.data hfit⟩
  other := by
    intro frame hdata
    simp [Chain.reframe_eq, hdata]
  le h hpart := h.carried_le target hpart
  eq h := h.carried_eq target

namespace Sock

variable {ε : Type} [FromIo ε] {target : Target} {emit : Frame → Option Bytes} {w : Bytes → Bytes}
  {Out : Bytes → Bytes → Prop} {buf rest : Bytes} {wrote : Bool} {l : Log}

theorem handleFrame_holds {frame : Frame} {post : Bool → Log → Prop} (hemits : Emits emit w Out)
    (h : Forwarding target Out buf l)
    (hitem : (decoder target .default).attempt buf = .item frame rest)
    (hflushed : wrote = false → w l.flushed = w l.sent)
    (hpost : ∀ wrote l', Forwarding target Out rest l' →
      (wrote = false → w l'.flushed = w l'.sent) → post wrote l')
    : Holds .leg (Sound (carried target) w) (handleFrame emit wrote frame : Sock ε Bool) post
        (fun _ l' => l'.Carries (carried target) w) l := by
  rcases h.take hemits hitem with ⟨out, hemit, hwrite⟩ | ⟨hemit, hskip⟩
  . rw [handleFrame, hemit]
    apply holds_bind
    apply holds_writeAll
    . exact ⟨h.carries hemits, by simp [isRead]⟩
    . intro _
      exact hpost true _ hwrite (by simp)
    . intro e part hpart
      exact hwrite.carries_part hemits hpart
  . rw [handleFrame, hemit]
    exact hpost wrote l hskip hflushed

theorem drainFrames_holds {post : Bool × Bytes → Log → Prop} (hemits : Emits emit w Out)
    (h : Forwarding target Out buf l) (hflushed : w l.flushed = w l.sent)
    (hpost : ∀ wrote buf l', Forwarding target Out buf l' →
      (decoder target .default).attempt buf = .wait →
      (wrote = false → w l'.flushed = w l'.sent) → post (wrote, buf) l')
    : Holds .leg (Sound (carried target) w) (drainFrames target emit buf : Sock ε (Bool × Bytes))
        post (fun _ l' => l'.Carries (carried target) w) l := by
  have hloop : ∀ wrote, (wrote = false → w l.flushed = w l.sent) →
      Holds .leg (Sound (carried target) w)
        ((decoder target .default).processM (handleFrame emit)
          (fun e => throw (FromIo.fromIo (.invalidData e))) wrote buf : Sock ε (Bool × Bytes)) post
        (fun _ l' => l'.Carries (carried target) w) l := by
    clear hflushed
    -- The induction follows the frames that are whole in the buffer. Between two of them, what is
    -- not flushed yet is remembered in `wrote`.
    induction buf using (decoder target .default).drain_induction generalizing l with
    | item buf frame rest hbuf ih =>
      intro wrote hflushed
      rw [StreamDecoder.processM_item _ hbuf]
      apply holds_bind
      apply handleFrame_holds hemits h hbuf hflushed
      intro wrote l' h' hflushed'
      exact ih h' wrote hflushed'
    | wait buf hbuf =>
      intro wrote hflushed
      rw [StreamDecoder.processM_wait _ hbuf]
      exact hpost wrote buf l h hbuf hflushed
    | fail buf e hbuf =>
      intro wrote _
      rw [StreamDecoder.processM_fail _ hbuf]
      exact h.carries hemits
  exact hloop false fun _ => hflushed

theorem flushIf_holds {post : Unit → Log → Prop} (hemits : Emits emit w Out)
    (h : Forwarding target Out buf l) (hflushed : wrote = false → w l.flushed = w l.sent)
    (hpost : ∀ l', Forwarding target Out buf l' → w l'.flushed = w l'.sent → post () l')
    : Holds .leg (Sound (carried target) w) (flushIf wrote : Sock ε Unit) post
        (fun _ l' => l'.Carries (carried target) w) l := by
  cases wrote with
  | false =>
    apply hpost l h
    exact hflushed rfl
  | true =>
    apply holds_flush
    . exact ⟨h.carries hemits, by simp [isRead]⟩
    . apply hpost _ h.flush
      rfl
    . intro e
      exact h.carries hemits

theorem forwardFrames_holds (hemits : Emits emit w Out) (h : Forwarding target Out buf l)
    (hflushed : w l.flushed = w l.sent)
    : Holds .leg (Sound (carried target) w) (forwardFrames target emit buf : Sock ε (Bytes ⊕ Unit))
        (Sum.elim (fun buf l' => Forwarding target Out buf l' ∧ w l'.flushed = w l'.sent)
          (fun _ l' => l'.Carries (carried target) w ∧ l'.closed = true))
        (fun _ l' => l'.Carries (carried target) w) l := by
  apply holds_bind
  apply drainFrames_holds hemits h hflushed
  intro wrote buf₁ l₁ h₁ hwait hflushed₁
  apply holds_bind
  apply flushIf_holds hemits h₁ hflushed₁
  intro l₂ h₂ hflushed₂
  apply holds_bind
  apply holds_read
  . exact ⟨h₂.carries hemits, fun _ => h₂.prompt hemits hwait hflushed₂⟩
  . intro bytes hne _ _
    exact ⟨h₂.read bytes, hflushed₂⟩
  . have hcomplete := h₂.complete hemits hwait
    apply holds_bind
    apply holds_shutdown
    . exact ⟨hcomplete.1, by simp [isRead]⟩
    . exact ⟨hcomplete.2, rfl⟩
    . intro e
      exact hcomplete.1
  . intro e
    exact h₂.carries hemits
  . intro htimer
    cases htimer

end Sock

namespace Sock

variable {ε : Type} {target : Target} {v w : Bytes → Bytes} {payload : Bytes} {l : Log}

theorem readIdle_holds {watched : Port} {limit : Option Nat} {chaffWindow opened : Nat}
    {post : ReadEvent → Log → Prop} {fail : ε → Log → Prop} (hcarries : l.Carries v w)
    (hprompt : l.Prompt v w)
    (hdata : ∀ bytes hne, (∀ n ∈ limit, bytes.length ≤ n) → l.atEnd = false →
      post (.data bytes hne) (l.read bytes))
    (heof : post .eof l.readEnd) (herr : ∀ e, post (.err e) l) (htimeout : post .timeout l)
    : Holds watched (Sound v w) (readIdle limit chaffWindow opened : Sock ε ReadEvent) post fail
        l := by
  apply holds_bind
  apply ask_holds rfl hcarries
  intro now
  split
  . apply holds_read ⟨hcarries, fun _ => hprompt⟩ hdata heof herr
    intro _
    exact htimeout
  . apply holds_read ⟨hcarries, fun _ => hprompt⟩ hdata heof herr
    intro htimer
    cases htimer

variable [FromIo ε]

theorem frameBackendToClient_holds {chaffWindow opened : Nat} (h : FramedSoFar target id l)
    : Holds .leg (Sound id (carried target))
        (frameBackendToClient chaffWindow opened : Sock ε (Unit ⊕ Unit))
        (Sum.elim (fun _ l' => FramedSoFar target id l')
          (fun _ l' => l'.Carries id (carried target) ∧ l'.closed = true))
        (fun _ l' => l'.Carries id (carried target)) l := by
  have hmax : defaultMaxPayload = 1048576 := rfl
  apply holds_bind
  apply readIdle_holds h.carries h.prompt
  . intro bytes hne hlimit _
    have hlen : bytes.length ≤ 8192 := hlimit 8192 rfl
    have hframing : Framing l.consumed (l.read bytes) :=
      ⟨h.framing.framed, h.framing.notEnd, h.framing.opened⟩
    apply holds_bind
    apply sendFrame_holds hframing
      (show (Frame.data bytes).payload.length ≤ _ by rw [Frame.payload_data]; omega)
    . simp
    . intro l' hconsumed hframing' hflushed
      refine ⟨?_, hflushed⟩
      rw [hconsumed]
      simpa using hframing'
  . apply holds_bind
    apply shutdown_holds h.framing rfl
    intro hcarries
    exact ⟨hcarries, rfl⟩
  . intro e
    exact h.carries
  . apply holds_bind
    apply ask_holds rfl h.carries
    intro rng
    have := Tunnel.length_randomChaff_le rng
    apply holds_bind
    apply writeChaff_holds h.framing (by omega) List.prefix_rfl
    exact h.chaff

theorem ferryUpstreamToClient_holds {chaffWindow opened : Nat} {buf : Bytes}
    (h : Forwarding target Framed buf l) (hwait : (decoder target .default).attempt buf = .wait)
    (hflushed : carried target l.flushed = carried target l.sent)
    : Holds .leg (Sound (carried target) (carried target))
        (ferryUpstreamToClient target chaffWindow opened buf : Sock ε (Bytes ⊕ Unit))
        (Sum.elim
          (fun buf l' => Forwarding target Framed buf l' ∧
            (decoder target .default).attempt buf = .wait ∧
            carried target l'.flushed = carried target l'.sent)
          (fun _ l' => l'.Carries (carried target) (carried target) ∧ l'.closed = true))
        (fun _ l' => l'.Carries (carried target) (carried target)) l := by
  have hemits := emits_reframe target
  apply holds_bind
  apply readIdle_holds (h.carries hemits) (h.prompt hemits hwait hflushed)
  . intro bytes hne _ _
    apply holds_bind
    apply drainFrames_holds hemits (h.read bytes) hflushed
    intro wrote buf₁ l₁ h₁ hwait₁ hflushed₁
    apply holds_bind
    apply flushIf_holds hemits h₁ hflushed₁
    intro l₂ h₂ hflushed₂
    exact ⟨h₂, hwait₁, hflushed₂⟩
  . have hcomplete := h.complete hemits hwait
    apply holds_bind
    apply holds_shutdown
    . exact ⟨hcomplete.1, by simp [isRead]⟩
    . exact ⟨hcomplete.2, rfl⟩
    . intro e
      exact hcomplete.1
  . intro e
    exact h.carries hemits
  . rcases h.out with ⟨frames, htakes, hout⟩
    apply holds_bind
    apply ask_holds rfl (h.carries hemits)
    intro rng
    have := Chain.length_randomChaff_le rng
    have hmax : defaultMaxPayload = 1048576 := rfl
    have hframing : Framing _ l := ⟨hout, h.notEnd, h.opened⟩
    apply holds_bind
    apply writeChaff_holds hframing (by omega)
    . rw [← hout.carried_eq target]
      exact (h.carries hemits).forwarded
    . intro hwrite
      refine ⟨⟨⟨frames, htakes, hwrite.framed⟩, h.notEnd, h.opened⟩, hwait, ?_⟩
      rw [hwrite.framed.carried_eq target, Ledger.write_flushed, hflushed, hout.carried_eq target]

end Sock

section Gate

theorem attempt_of_tryDecodeAuth_eq_tunnel {env : GateEnv} {buf leftover : Bytes} {now : UInt64}
    (h : tryDecodeAuth env buf now = some (.tunnel leftover))
    : ∃ frame, (decoder env.target .default).attempt buf = .item frame leftover ∧
        Authentic env now frame := by
  rcases tryDecodeAuth_eq_tunnel_iff.mp h with ⟨frame, pad, hbuf, hpad, hauth⟩
  exact ⟨frame, (attempt_default_eq_item_iff _).mpr ⟨pad, hbuf, hauth.length_payload_le, hpad⟩,
    hauth⟩

variable {S : Type} {handle : Handler SockAction S} {pre : ⦃β : Type⦄ → SockAction β → S → Prop}
  {target : Target} {A : UInt64 → Bytes → S → Prop} {B C : Bytes → S → Prop}

/--
Surroundings that the gate can work in: `B buf` holds while it has read `buf` and nothing else has
happened, `A now buf` after it has looked at the clock as well, and `C buf` once there is no more to
come. It waits for more only while there is no complete frame.
-/
structure Gateable (handle : Handler SockAction S) (pre : ⦃β : Type⦄ → SockAction β → S → Prop)
    (target : Target) (A : UInt64 → Bytes → S → Prop) (B C : Bytes → S → Prop) : Prop where
  read : ∀ {buf s} timer, B buf s → (decoder target .default).attempt buf = .wait →
    pre (.read none timer) s
  clock : ∀ {buf s}, B buf s → pre .unixNow s
  data : ∀ {buf s timer bytes hne s'}, B buf s → (decoder target .default).attempt buf = .wait →
    handle s (.read none timer) (.data bytes hne) s' → B (buf ++ bytes) s'
  other : ∀ {buf s timer event s'}, B buf s → handle s (.read none timer) event s' →
    event.bytes = none → C buf s'
  tick : ∀ {buf s now s'}, B buf s → handle s .unixNow now s' → A now buf s'
  goOn : ∀ {buf s now}, A now buf s → B buf s
  stop : ∀ {buf s}, B buf s → C buf s

inductive Gated (env : GateEnv) (A : UInt64 → Bytes → S → Prop) (C : Bytes → S → Prop) (s : S)
    : GateResult → Prop where
  | tunnel {now : UInt64} {frame : Frame} {buf leftover : Bytes}
    (hframe : (decoder env.target .default).attempt buf = .item frame leftover)
      (hauth : Authentic env now frame)
    (hA : A now buf s) : Gated env A C s (.tunnel leftover)
  | site {bytes : Bytes} (hC : C bytes s) : Gated env A C s (.site bytes)

theorem gated_consume {env : GateEnv} {now : UInt64} {buf : Bytes} {decision : GateDecision} {s : S}
    (h : Gateable handle pre target A B C) (hdecision : tryDecodeAuth env buf now = some decision)
    (hA : A now buf s) : Gated env A C s (decision.consume buf) := by
  cases decision with
  | tunnel leftover =>
    rcases attempt_of_tryDecodeAuth_eq_tunnel hdecision with ⟨frame, hframe, hauth⟩
    exact .tunnel hframe hauth hA
  | site => exact .site (h.stop (h.goOn hA))

theorem gateOnSocket_meets {env : GateEnv} {firstReadTimeout : Nat} {s : S}
    (h : Gateable handle pre env.target A B C) (hB : B [] s)
    : Meets handle pre (gateOnSocket env firstReadTimeout) (fun result s => Gated env A C s result)
        (fun _ => C []) s := by
  apply holds_bind
  apply holds_ask (h.read _ hB (by simp))
  intro event s₁ hevent
  cases event with
  | eof => exact .site (h.other hB hevent rfl)
  | err e => exact h.other hB hevent rfl
  | timeout => exact .site (h.other hB hevent rfl)
  | data buf hne =>
    have hB₁ := h.data hB (by simp) hevent
    rw [List.nil_append] at hB₁
    apply holds_bind
    apply holds_ask (h.clock hB₁)
    intro now s₂ hnow
    have hA₂ := h.tick hB₁ hnow
    have hB₂ := h.goOn hA₂
    dsimp only
    split
    . next decision hdecision => exact gated_consume h hdecision hA₂
    . next hnone =>
      have hwait := tryDecodeAuth_eq_none_iff.mp hnone
      apply holds_bind
      apply holds_ask (h.read _ hB₂ hwait)
      intro event' s₃ hevent'
      cases event' with
      | eof => exact .site (h.other hB₂ hevent' rfl)
      | err e => exact .site (h.other hB₂ hevent' rfl)
      | timeout => exact .site (h.other hB₂ hevent' rfl)
      | data more hne' =>
        have hB₃ := h.data hB₂ hwait hevent'
        apply holds_bind
        apply holds_ask (h.clock hB₃)
        intro now' s₄ hnow'
        have hA₄ := h.tick hB₃ hnow'
        split
        . next decision hdecision => exact gated_consume h hdecision hA₄
        . exact .site (h.stop (h.goOn hA₄))

variable {τ : Type} {copier : Copier τ} {cfg : RelayConfig}

/--
The first frame of the connection is authentic in the TLS session with this exporter, at the time
`now`.
-/
def RelayConfig.Admits (cfg : RelayConfig) (exporter : Except String (ByteArr 32)) (now : UInt64)
    (frame : Frame) : Prop :=
  ∃ key, exporter = .ok key ∧ Authentic (cfg.gateEnv key) now frame

/--
The rule for the first part of a connection: what is left to show are its two ways out of the gate.
-/
theorem openConnection_meets {exporter : Except String (ByteArr 32)}
    {post : Route τ ⊕ Unit → S → Prop}
    {fail : HandlerError → S → Prop} {s : S} (h : Gateable handle pre cfg.target A B C)
    (hB : B [] s) (hclosed : ∀ s, C [] s → post (.inr ()) s)
    (htunnel : ∀ now frame buf leftover s, (decoder cfg.target .default).attempt buf
      = .item frame leftover → cfg.Admits exporter now frame → A now buf s →
      Meets handle pre (dispatchGateResult copier cfg (.tunnel leftover)) post fail s)
    (hsite : ∀ bytes s, C bytes s →
      Meets handle pre (dispatchGateResult copier cfg (.site bytes)) post fail s)
    : Meets handle pre (openConnection copier cfg exporter) post fail s := by
  apply Prog.meets_bind.mpr
  cases exporter with
  | error e => exact hsite [] s (h.stop hB)
  | ok key =>
    have hgate : Meets handle pre (gateOnSocket (cfg.gateEnv key) cfg.firstByte) _ _ s :=
      gateOnSocket_meets h hB
    apply Prog.Meets.mono hgate
    intro res s' hres
    cases res with
    | error e => exact hclosed s' hres
    | ok result =>
      cases hres with
      | tunnel hframe hauth hA => exact htunnel _ _ _ _ s' hframe ⟨key, rfl, hauth⟩ hA
      | site hC => exact hsite _ s' hC

end Gate

structure Fresh (diverted : Bool) (bytes : Bytes) (l : Log) : Prop extends Untouched l where
  diverted_eq : l.diverted = diverted
  consumed : l.consumed = bytes

theorem fresh_start (diverted : Bool) : Fresh diverted [] (.start diverted) :=
  ⟨.start diverted, rfl, rfl⟩

theorem gateable_sound {watched : Port} {target : Target} {v w : Bytes → Bytes} {diverted : Bool}
    (hw : w [] = [])
    (hidle : ∀ l buf, Fresh diverted buf l → (decoder target .default).attempt buf = .wait →
      l.Prompt v w)
    : Gateable (Handles watched) (Sound v w) target
        (fun _ buf l => Fresh diverted buf l ∧ l.atEnd = false)
        (fun buf l => Fresh diverted buf l ∧ l.atEnd = false) (Fresh diverted) where
  read timer hB hwait := ⟨hB.1.carries hw, fun _ => hidle _ _ hB.1 hwait⟩
  clock hB := hB.1.sound hw rfl
  data := by
    rintro buf l timer bytes hne l' ⟨h, hend⟩ _ hact
    cases hact with
    | data _ _ _ _ => exact ⟨⟨h.read bytes, h.diverted_eq, by simp [h.consumed]⟩, hend⟩
  other := by
    rintro buf l timer event l' ⟨h, hend⟩ hact hevent
    cases hact with
    | data bytes hne hlimit _ => cases hevent
    | eof => exact ⟨h.readEnd, h.diverted_eq, h.consumed⟩
    | err e => exact h
    | timeout htimer => exact h
  tick := by
    rintro buf l now _ hB rfl
    exact hB
  goOn hA := hA
  stop hB := hB.1

theorem Authentic.isData_eq_false {env : GateEnv} {now : UInt64} {frame : Frame}
    (h : Authentic env now frame)
    : frame.isData = false := by
  rcases h with ⟨htype, _⟩ | ⟨htype, _⟩
  all_goals rw [Frame.isData, htype]; rfl

theorem RelayConfig.Admits.forwarding {cfg : RelayConfig} {exporter : Except String (ByteArr 32)}
    {now : UInt64} {frame : Frame} {Out : Bytes → Bytes → Prop} {leftover : Bytes} {l : Log}
    (h : cfg.Admits exporter now frame)
    (hframe : (decoder cfg.target .default).attempt l.consumed = .item frame leftover)
    (hend : l.atEnd = false)
    (hopened : l.closed = false) (hout : Out l.sent []) : Forwarding cfg.target Out leftover l := by
  rcases h with ⟨key, _, hauth⟩
  refine ⟨⟨[frame], .cons hframe (.nil leftover), ?_⟩, hend, hopened⟩
  simpa [dataPayloads, hauth.isData_eq_false] using hout

section Handler

variable {τ : Type} {copier : Copier τ} {cfg : RelayConfig} {exporter : Except String (ByteArr 32)}
  {watched : Port} {v w : Bytes → Bytes} {l : Log}

theorem copyTo_avoids {bad : ⦃β : Type⦄ → SockAction β → Prop} {port : Port} {state : τ}
    (h : ∀ ⦃β : Type⦄ (action : CopyAction β), ¬bad (action.onPort port))
    : Avoids bad (copyTo copier port state) := by
  have hlift : ∀ p : Prog CopyAction (Except IoError (τ ⊕ Unit)),
      (p.lift fun _ => CopyAction.onPort port).Avoids bad := by
    intro p
    induction p with
    | done res => trivial
    | act action next ih => exact ⟨h action, ih⟩
  exact hlift _

theorem copyTo_spares {port : Port} {state : τ} (hport : port ≠ watched)
    : Spares watched (copyTo copier port state) := by
  apply copyTo_avoids
  intro β action
  cases action <;> simp [CopyAction.onPort, touches, hport]

def Settled (l : Log) : Prop := l.closed = true ∨ Untouched l

theorem dispatchSite_holds {bytes : Bytes} {post : Route τ ⊕ Unit → Log → Prop}
    {fail : HandlerError → Log → Prop} (hw : w [] = []) (h : Untouched l)
    (hsite : ∀ state l, Aside l → post (.inl (.site state)) l)
    (hend : ∀ l, Untouched l → post (.inr ()) l)
    : Holds .leg (Sound v w) (dispatchGateResult copier cfg (.site bytes)) post fail l := by
  rw [dispatchGateResult]
  split
  . exact hend l h
  . apply holds_bind
    apply holds_ask (h.sound hw rfl)
    intro res l' hconnects
    cases hconnects with
    | error e => exact hend l h
    | ok =>
      have haside : Aside (l.divert true) := ⟨h.divert true, rfl⟩
      apply holds_tryCatch
      apply holds_bind
      apply holds_fromIo_still
      . intro res l' hact
        simpa [Handles] using hact
      . exact haside.sound hw
      . exact hsite _ _ haside
      . intro e
        exact hend _ haside.toUntouched

theorem siteTurn_meets {S : Type} {handle : Handler SockAction S}
    {pre : ⦃β : Type⦄ → SockAction β → S → Prop}
    {post : Route τ ⊕ Unit → S → Prop} {fail : HandlerError → S → Prop} {state : τ} {s : S}
    (h : Meets handle pre (copyTo copier .site state) (fun next => post (next.map .site id))
      (fun _ => post (.inr ())) s)
    : Meets handle pre (siteTurn copier state) post fail s := by
  apply Prog.meets_bind.mpr
  apply Prog.Meets.mono h
  intro res s' hres
  cases res with
  | ok next => exact hres
  | error e => exact hres

theorem siteTurn_holds {post : Route τ ⊕ Unit → Log → Prop} {fail : HandlerError → Log → Prop}
    {state : τ}
    (hw : w [] = []) (h : Aside l) (hsite : ∀ state l, Aside l → post (.inl (.site state)) l)
    (hend : ∀ l, Untouched l → post (.inr ()) l)
    : Holds .leg (Sound v w) (upTurn copier cfg (.site state)) post fail l := by
  apply siteTurn_meets
  apply ((copyTo_spares (by decide)).holds hw h).mono
  . rintro (state | u) l' h'
    . exact hsite state l' h'
    . exact hend l' h'.toUntouched
  . intro e l' h'
    exact hend l' h'.toUntouched

inductive Going (target : Target) (w : Bytes → Bytes) (Out : Bytes → Bytes → Prop)
    (goOn : Bytes → Route τ)
    : Route τ → Log → Prop where
  | leg {buf : Bytes} {l : Log} (h : Forwarding target Out buf l)
    (hflushed : w l.flushed = w l.sent)
    : Going target w Out goOn (goOn buf) l
  | site {state : τ} {l : Log} (h : Aside l) : Going target w Out goOn (.site state) l

theorem handleConnection_sound {emit : Frame → Option Bytes} {Out : Bytes → Bytes → Prop}
    (goOn : Bytes → Route τ) (hemits : Emits emit w Out) (hw : w [] = [])
    (hturn : ∀ buf, upTurn copier cfg (goOn buf) = do
      return (← Sock.forwardFrames cfg.target emit buf).map goOn id)
    (hdial : ∀ now frame leftover l, (decoder cfg.target .default).attempt l.consumed
      = .item frame leftover → cfg.Admits exporter now frame → Untouched l → l.atEnd = false →
      Holds .leg (Sound (carried cfg.target) w) (dispatchGateResult copier cfg (.tunnel leftover))
        (Sum.elim (Going cfg.target w Out goOn) fun _ l => l.Carries (carried cfg.target) w ∧
          Settled l)
        (fun _ l => l.Carries (carried cfg.target) w) l)
    : SoundPipe .leg (carried cfg.target) w (fun res l => ∀ u, res = .ok u → Settled l)
        (handleConnection copier cfg exporter) := by
  have hsettled : ∀ l, Untouched l → l.Carries (carried cfg.target) w ∧ Settled l := by
    intro l h
    exact ⟨h.carries hw, .inr h⟩
  apply SoundPipe.of_holds (Going cfg.target w Out goOn)
  . intro route l h
    cases h with
    | leg h _ => exact h.carries hemits
    | site h => exact h.carries hw
  . refine openConnection_meets (gateable_sound hw ?_) ⟨fresh_start false, rfl⟩ ?_ ?_ ?_
    . -- While the gate waits for the first frame the input carries nothing, so nothing is owed.
      intro l buf h hwait _
      rw [h.flushed, hw, h.consumed, carried_wait hwait]
    . intro l h
      exact hsettled l h.toUntouched
    . rintro now frame buf leftover l hframe hadmits ⟨h, hend⟩
      rw [← h.consumed] at hframe
      exact hdial now frame leftover l hframe hadmits h.toUntouched hend
    . intro bytes l h
      exact dispatchSite_holds hw h.toUntouched (fun _ _ => .site) hsettled
  . intro route l h
    cases h with
    | leg h hflushed =>
      rw [hturn]
      apply holds_bind
      apply (forwardFrames_holds hemits h hflushed).mono
      . rintro (buf | u) l' h'
        . exact .leg h'.1 h'.2
        . exact ⟨h'.1, .inl h'.2⟩
      . intro e l' h'
        exact h'
    | site h => exact siteTurn_holds hw h (fun _ _ => .site) hsettled

theorem handleConnection_exit (hchain : cfg.chain = none)
    : SoundPipe .leg (carried cfg.target) id (fun res l => ∀ u, res = .ok u → Settled l)
        (handleConnection copier cfg exporter) := by
  apply handleConnection_sound .tunnel emits_backendPayload rfl (fun _ => rfl)
  intro now frame leftover l hframe hadmits h hend
  simp only [dispatchGateResult, hchain]
  apply holds_bind
  apply ask_holds rfl (h.carries rfl)
  intro res
  cases res with
  | error e => exact h.carries rfl
  | ok u =>
    refine .leg (hadmits.forwarding hframe hend h.opened h.sent) ?_
    rw [h.sent, h.flushed]

theorem ChainConfig.authFrame_eq_ok {crypto : Crypto} {capability : CapabilityV2}
    {chain : ChainConfig}
    {key : ByteArr 32} {frame : Frame} (h : chain.authFrame crypto capability key = .ok frame)
    : frame.isData = false ∧ frame.payload.length ≤ defaultMaxPayload := by
  rw [authFrame] at h
  cases hpayload : (AuthRecordV3.fromCapability crypto capability chain.veilSk key).encodePayload
    with
  | error e =>
    rw [hpayload] at h
    cases h
  | ok payload =>
    rw [hpayload] at h
    cases h
    have hmax : defaultMaxPayload = 1048576 := rfl
    have : payload.length ≤ 450 := AuthRecordV3.length_of_encodePayload hpayload
    exact ⟨rfl, show payload.length ≤ _ by omega⟩

/--
A relay in front of another one: its own AUTH frame comes first, and carries nothing.
-/
theorem handleConnection_chain {chain : ChainConfig} (hchain : cfg.chain = some chain)
    : SoundPipe .leg (carried cfg.target) (carried cfg.target)
        (fun res l => ∀ u, res = .ok u → Settled l) (handleConnection copier cfg exporter) := by
  apply handleConnection_sound .chain (emits_reframe cfg.target) (carried_nil _) (fun _ => rfl)
  intro now first leftover l hfirst hadmits h hend
  simp only [dispatchGateResult, hchain]
  apply holds_bind
  rw [dialUpstream]
  split
  . exact h.carries (carried_nil _)
  . apply holds_bind
    apply ask_holds rfl (h.carries (carried_nil _))
    intro res
    cases res with
    | error e => exact h.carries (carried_nil _)
    | ok key =>
      dsimp only
      split
      . exact h.carries (carried_nil _)
      . next frame hframe =>
        have hauth := ChainConfig.authFrame_eq_ok hframe
        apply holds_adapt
        apply sendFirst_holds h hend hauth.1 hauth.2
        -- From here on the AUTH frame that was sent stands for the one that was consumed.
        intro l' hconsumed hframing hflushed
        rw [← hconsumed] at hfirst
        exact .leg (hadmits.forwarding hfirst hframing.notEnd hframing.opened hframing.framed)
          hflushed

theorem forwardFrames_spares {ε : Type} [FromIo ε] {target : Target} {emit : Frame → Option Bytes}
    {buf : Bytes} (hport : watched ≠ .leg)
    : Spares watched (Sock.forwardFrames target emit buf : Sock ε (Bytes ⊕ Unit)) := by
  have hframe : ∀ wrote frame,
      Spares watched (Sock.handleFrame emit wrote frame : Sock ε Bool) := by
    intro wrote frame
    rw [Sock.handleFrame]
    split
    . exact (avoids_fromIo (by simpa [touches] using hport.symm)).bind fun _ => avoids_pure _
    . exact avoids_pure _
  have hdrain : ∀ wrote, Spares watched ((decoder target .default).processM (Sock.handleFrame emit)
      (fun e => throw (FromIo.fromIo (.invalidData e))) wrote buf : Sock ε (Bool × Bytes)) := by
    induction buf using (decoder target .default).drain_induction with
    | item buf frame rest hbuf ih =>
      intro wrote
      rw [StreamDecoder.processM_item _ hbuf]
      exact (hframe wrote frame).bind ih
    | wait buf hbuf =>
      intro wrote
      rw [StreamDecoder.processM_wait _ hbuf]
      exact avoids_pure _
    | fail buf e hbuf =>
      intro wrote
      rw [StreamDecoder.processM_fail _ hbuf]
      exact avoids_throw _
  apply (hdrain false).bind
  rintro ⟨wrote, buf⟩
  apply Avoids.bind
  . cases wrote with
    | false => exact avoids_pure _
    | true => exact avoids_fromIo (by simpa [touches] using hport.symm)
  . intro _
    apply (avoids_ask (by simp [touches])).bind
    intro event
    cases event with
    | eof => exact (avoids_fromIo (by simpa [touches] using hport.symm)).bind fun _ => avoids_pure _
    | data bytes hne => exact avoids_pure _
    | err e => exact avoids_throw _
    | timeout => exact avoids_pure _

theorem dialUpstream_spares {chain : ChainConfig} (hport : watched ≠ .leg)
    : Spares watched (dialUpstream cfg chain) := by
  rw [dialUpstream]
  split
  . exact avoids_throw _
  . apply (avoids_ask (by simp [touches])).bind
    intro res
    cases res with
    | error e => exact avoids_throw _
    | ok key =>
      dsimp only
      split
      . exact avoids_throw _
      . apply Avoids.adapt
        exact (avoids_fromIo (by simpa [touches] using hport.symm)).bind fun _ =>
          avoids_fromIo (by simpa [touches] using hport.symm)

end Handler

section Down

variable {target : Target}

theorem forwardTunnelDown_sound
    : SoundPipe .leg id (carried target) (fun res l => ∀ u, res = .ok u → l.closed = true)
        forwardTunnelDown := by
  apply SoundPipe.of_holds fun _ => FramedSoFar target id
  . intro opened l h
    exact h.carries
  . apply holds_bind
    apply ask_holds rfl ((Untouched.start _).carries (carried_nil _))
    intro rng
    have := Tunnel.length_initialChaff_le rng
    have hmax : defaultMaxPayload = 1048576 := rfl
    apply holds_bind
    apply sendFirst_holds (.start _) rfl (Frame.isData_chaff _) (by rw [Frame.payload_chaff]; omega)
    intro l hconsumed hframing hflushed
    have hsofar : FramedSoFar target id l := ⟨by rw [hconsumed]; exact hframing, hflushed⟩
    apply holds_bind
    apply ask_holds rfl hsofar.carries
    intro opened
    exact hsofar
  . intro opened l h
    apply holds_bind
    apply (frameBackendToClient_holds h).mono
    . rintro (u | u) l' h'
      . exact h'
      . exact h'
    . intro e l' h'
      exact h'

theorem forwardChainDown_sound
    : SoundPipe .leg (carried target) (carried target)
        (fun res l => ∀ u, res = .ok u → l.closed = true) (forwardChainDown target) := by
  apply SoundPipe.of_holds fun s l => Forwarding target Framed s.2 l ∧
    (decoder target .default).attempt s.2 = .wait ∧ carried target l.flushed = carried target l.sent
  . rintro ⟨opened, buf⟩ l h
    exact h.1.carries (emits_reframe target)
  . apply holds_bind
    apply ask_holds rfl ((Untouched.start _).carries (carried_nil _))
    intro opened
    refine ⟨⟨⟨[], .nil _, .nil⟩, rfl, rfl⟩, by simp, rfl⟩
  . rintro ⟨opened, buf⟩ l ⟨h, hwait, hflushed⟩
    apply holds_bind
    apply (ferryUpstreamToClient_holds h hwait hflushed).mono
    . rintro (u | u) l' h'
      . exact h'
      . exact h'
    . intro e l' h'
      exact h'

end Down

end Veil
