import ConstructVeil.Conn.Delivery
import ConstructVeil.Conn.Site

/-!
This module contains what a relay does for a peer that does not authenticate: it never gets beyond
the site, and nothing about the relay's keys, its scope or its place in a chain can be found out
from what it does.
-/

namespace Veil

open VeilFrontCodec SockAction Sock

/--
The connection began with a frame that was authentic in this TLS session at the time when the relay
looked at it.
-/
def RelayConfig.Admitted (cfg : RelayConfig) (exporter : Except String (ByteArr 32))
    (trace : List SockEvent) : Prop :=
  ∃ before now after frame rest, trace = before ++ .unixNow now :: after ∧
    (decoder cfg.target .default).attempt (SockEvent.received before) = .item frame rest ∧
    cfg.Admits exporter now frame

theorem RelayConfig.Admitted.append {cfg : RelayConfig} {exporter : Except String (ByteArr 32)}
    {trace : List SockEvent} (h : cfg.Admitted exporter trace) (more : List SockEvent)
    : cfg.Admitted exporter (trace ++ more) := by
  rcases h with ⟨before, now, after, frame, rest, rfl, hframe, hadmits⟩
  exact ⟨before, now, after ++ more, frame, rest, by simp, hframe, hadmits⟩

section Probe

variable {τ : Type} {copier : Copier τ} {cfg cfg' : RelayConfig} {key key' : ByteArr 32}

/--
What the gate says to a stream that is not authentic. It takes no key, and the target makes no
difference.
-/
def refusal (stream : Bytes) : Option GateDecision :=
  match attempt .bits64 .default stream with
  | .wait => none
  | _ => some .site

theorem attempt_default_target (target target' : Target) (stream : Bytes)
    : attempt target .default stream = attempt target' .default stream := by
  rw [← decoder_attempt, ← decoder_attempt, decoder_default_target target target']

theorem tryDecodeAuth_eq_refusal {trace : List SockEvent} {now : UInt64}
    (h : ¬cfg.Admitted (.ok key) (trace ++ [.unixNow now]))
    : tryDecodeAuth (cfg.gateEnv key) (SockEvent.received trace) now
        =
      refusal (SockEvent.received trace) := by
  rw [refusal, attempt_default_target .bits64 cfg.target]
  split
  . next hwait => exact tryDecodeAuth_wait now hwait
  . next hwait =>
    cases hattempt : attempt cfg.target .default (SockEvent.received trace) with
    | wait => exact absurd hattempt hwait
    | fail e => exact tryDecodeAuth_fail now hattempt
    | item frame rest =>
      have hitem : attempt (cfg.gateEnv key).target .default (SockEvent.received trace) = _ :=
        hattempt
      rcases tryDecodeAuth_item now hitem with ⟨hauth, _⟩ | ⟨_, hsite⟩
      . exact absurd ⟨trace, now, [], frame, rest, rfl, hattempt, key, rfl, hauth⟩ h
      . exact hsite

theorem refusal_consume {stream : Bytes} {decision : GateDecision}
    (h : refusal stream = some decision) : decision.consume stream = .site stream := by
  rw [refusal] at h
  split at h
  . cases h
  . cases h
    rfl

theorem lockstep_ask {ε α β : Type} {stop : List SockEvent → Prop}
    {R : Except ε β → Except ε β → List SockEvent → Prop} {action : SockAction α}
    {f g : α → Sock ε β} {trace : List SockEvent}
    (h : ∀ answer, ¬stop (trace ++ [action.record answer]) →
      (f answer).run.Lockstep Records stop R (g answer).run (trace ++ [action.record answer]))
    : (ask action >>= f : Sock ε β).run.Lockstep Records stop R (ask action >>= g : Sock ε β).run
        trace := by
  apply Prog.Lockstep.act action
  rintro answer _ rfl hstop
  exact h answer hstop

def SameSite (a b : Except IoError GateResult) : Prop :=
  a = b ∧ ∀ result, a = .ok result → ∃ bytes, result = .site bytes

theorem gateOnSocket_lockstep {env env' : GateEnv} {firstReadTimeout : Nat}
    {stop : List SockEvent → Prop}
    (h : ∀ trace now, ¬stop (trace ++ [.unixNow now]) →
      tryDecodeAuth env (SockEvent.received trace) now = refusal (SockEvent.received trace))
    (h' : ∀ trace now, ¬stop (trace ++ [.unixNow now]) →
      tryDecodeAuth env' (SockEvent.received trace) now = refusal (SockEvent.received trace))
    : (gateOnSocket env firstReadTimeout).run.Lockstep Records stop (fun a b _ => SameSite a b)
        (gateOnSocket env' firstReadTimeout).run [] := by
  have hsite : ∀ bytes trace,
      (pure (.site bytes) : Sock IoError GateResult).run.Lockstep Records stop
      (fun a b _ => SameSite a b) (pure (.site bytes) : Sock IoError GateResult).run trace := by
    intro bytes trace
    refine .done ⟨rfl, ?_⟩
    intro result hresult
    cases hresult
    exact ⟨bytes, rfl⟩
  -- There are at most two reads, and the clock is read after each of them. To what they have got by
  -- then both relays give the same answer.
  apply lockstep_ask
  intro event hevent
  cases event with
  | eof => exact hsite [] _
  | timeout => exact hsite [] _
  | err e => exact .done ⟨rfl, by intro result hresult; cases hresult⟩
  | data buf hne =>
    apply lockstep_ask
    intro now hnow
    have hd := h _ now hnow
    have hd' := h' _ now hnow
    simp only [List.nil_append, record, SockEvent.received, List.append_nil] at hd hd'
    dsimp only
    rw [hd, hd']
    cases hrefusal : refusal buf with
    | some decision =>
      have hconsume := refusal_consume hrefusal
      dsimp only
      rw [hconsume]
      exact hsite buf _
    | none =>
      apply lockstep_ask
      intro event' hevent'
      cases event' with
      | eof => exact hsite buf _
      | timeout => exact hsite buf _
      | err e => exact hsite buf _
      | data more hne' =>
        apply lockstep_ask
        intro now' hnow'
        have hd := h _ now' hnow'
        have hd' := h' _ now' hnow'
        simp only [List.nil_append, record, SockEvent.received_append, SockEvent.received,
          List.append_nil] at hd hd'
        rw [hd, hd']
        cases hrefusal' : refusal (buf ++ more) with
        | some decision =>
          have hconsume := refusal_consume hrefusal'
          dsimp only
          rw [hconsume]
          exact hsite (buf ++ more) _
        | none => exact hsite (buf ++ more) _

def OnSite (route : Route τ) (_trace : List SockEvent) : Prop := ∃ state, route = .site state

theorem dispatchSite_onSite {bytes : Bytes} {trace : List SockEvent}
    : Meets Records (fun _ _ _ => True) (dispatchGateResult copier cfg (.site bytes))
        (Sum.elim OnSite fun _ _ => True) (fun _ _ => True) trace := by
  rw [dispatchGateResult]
  split
  . trivial
  . apply holds_bind
    apply holds_ask trivial
    intro res trace' _
    cases res with
    | error e => trivial
    | ok u =>
      apply holds_tryCatch
      apply holds_bind
      apply holds_fromIo trivial
      intro res trace'' _
      cases res with
      | error e => trivial
      | ok u => exact ⟨_, rfl⟩

theorem siteTurn_onSite {state : τ} {trace : List SockEvent}
    : Meets Records (fun _ _ _ => True) (siteTurn copier state) (Sum.elim OnSite fun _ _ => True)
        (fun _ _ => True) trace := by
  apply siteTurn_meets
  apply Prog.meets_of_forall
  . intro β action trace
    trivial
  . rintro (e | state' | u) trace
    . trivial
    . exact ⟨state', rfl⟩
    . trivial

def SameRoute (a b : Route τ ⊕ Except HandlerError Unit) (trace : List SockEvent) : Prop :=
  a = b ∧ Sum.elim OnSite (onResult (fun _ _ => True) fun _ _ => True) a trace

theorem handleConnection_start_lockstep (stop : List SockEvent → Prop)
    (hfirst : cfg.firstByte = cfg'.firstByte)
    (h : ∀ trace, ¬stop trace → ¬cfg.Admitted (.ok key) trace)
    (h' : ∀ trace, ¬stop trace → ¬cfg'.Admitted (.ok key') trace)
    : (handleConnection copier cfg (.ok key)).start.Lockstep Records stop SameRoute
        (handleConnection copier cfg' (.ok key')).start [] := by
  have hgate : (gateOnSocket (cfg.gateEnv key) cfg.firstByte).run.Lockstep Records stop
      (fun a b _ => SameSite a b) (gateOnSocket (cfg'.gateEnv key') cfg'.firstByte).run [] := by
    rw [hfirst]
    apply gateOnSocket_lockstep
    . exact fun trace now hstop => tryDecodeAuth_eq_refusal (h _ hstop)
    . exact fun trace now hstop => tryDecodeAuth_eq_refusal (h' _ hstop)
  change (((gateOnSocket (cfg.gateEnv key) cfg.firstByte).run >>= _) >>= _).Lockstep Records stop _
    (((gateOnSocket (cfg'.gateEnv key') cfg'.firstByte).run >>= _) >>= _) []
  rw [Prog.bind_assoc, Prog.bind_assoc]
  apply hgate.bind
  rintro res _ trace ⟨rfl, hsite⟩
  cases res with
  | error e => exact .done ⟨rfl, trivial⟩
  | ok result =>
    rcases hsite result rfl with ⟨bytes, rfl⟩
    exact .of_meets (turn_meets dispatchSite_onSite)

theorem Performs.other_relay (hfirst : cfg.firstByte = cfg'.firstByte) {trace : List SockEvent}
    (h : ¬cfg.Admitted (.ok key) trace) (h' : ¬cfg'.Admitted (.ok key') trace)
    (hperforms : Performs (handleConnection copier cfg (.ok key)) trace)
    : Performs (handleConnection copier cfg' (.ok key')) trace := by
  rcases hperforms with ⟨p, hreaches⟩
  let stop : List SockEvent → Prop := fun trace =>
    cfg.Admitted (.ok key) trace ∨ cfg'.Admitted (.ok key') trace
  have hstable : ∀ ⦃γ : Type⦄ {trace trace' : List SockEvent} {action : SockAction γ} {answer : γ},
      Records trace action answer trace' → stop trace → stop trace' := by
    rintro γ trace _ action answer rfl hstop
    exact hstop.imp (·.append _) (·.append _)
  have hstart : (handleConnection copier cfg (.ok key)).start.Lockstep Records stop SameRoute
      (handleConnection copier cfg' (.ok key')).start [] := by
    apply handleConnection_start_lockstep stop hfirst
    . exact fun trace hstop hadmitted => hstop (.inl hadmitted)
    . exact fun trace hstop hadmitted => hstop (.inr hadmitted)
  have hbody : ∀ (route : Route τ) b trace, SameRoute (.inl route) b trace →
      ∃ route', b = .inl route' ∧
        ((handleConnection copier cfg (.ok key)).body route).Lockstep Records stop SameRoute
          ((handleConnection copier cfg' (.ok key')).body route') trace := by
    rintro _ _ trace ⟨rfl, state, rfl⟩
    exact ⟨_, rfl, .of_meets (turn_meets siteTurn_onSite)⟩
  rcases hreaches.lockstep (not_or.mpr ⟨h, h'⟩) hstable hstart hbody with ⟨p', hreaches', _⟩
  exact ⟨p', hreaches'⟩

/--
To a peer that neither of them admits, two relays look the same, whatever their keys, their scopes
and their places in a chain are: they answer to the same reads, with the same timers, with the same
actions.
-/
theorem handleConnection_probe (hfirst : cfg.firstByte = cfg'.firstByte) (trace : List SockEvent)
    (h : ¬cfg.Admitted (.ok key) trace) (h' : ¬cfg'.Admitted (.ok key') trace)
    : Performs (handleConnection copier cfg (.ok key)) trace
        ↔
      Performs (handleConnection copier cfg' (.ok key')) trace := by
  constructor
  . exact Performs.other_relay hfirst h h'
  . exact Performs.other_relay hfirst.symm h' h

def latePeer (wire : Bytes) (hne : wire ≠ []) : List SockEvent :=
  [.read none (some 60) (.data wire hne), .unixNow 200, .connectSite (.ok ()),
    .write .site wire (.ok ())]

theorem latePeer_not_admitted {exporter : Except String (ByteArr 32)} {frame : Frame}
    {hne : bucketCodec.encode frame [] ≠ []}
    (hlength : frame.payload.length ≤ defaultMaxPayload)
    (hframe : ∀ env, ¬Authentic env 200 frame)
    : ¬cfg.Admitted exporter (latePeer (bucketCodec.encode frame []) hne) := by
  rintro ⟨before, now, after, frame', rest, htrace, hitem, key, _, hauth⟩
  -- The relay looks at the clock once
  rcases before with _ | ⟨_, _ | ⟨_, _ | ⟨_, _ | ⟨_, _ | ⟨_, _⟩⟩⟩⟩⟩
  all_goals simp [latePeer] at htrace
  rcases htrace with ⟨rfl, rfl, _⟩
  have hencode := attempt_encode cfg.target frame [] hlength
  simp only [SockEvent.received, decoder_attempt, hencode] at hitem
  cases hitem
  exact hframe _ hauth

theorem latePeer_performed {frame : Frame} (hne : bucketCodec.encode frame [] ≠ [])
    (hlength : frame.payload.length ≤ defaultMaxPayload) (hframe : ¬Authentic toyEnv 200 frame)
    : Performs (handleConnection toyCopier (toyHop false).cfg (.ok (.fill 32 5)))
        (latePeer (bucketCodec.encode frame []) hne) := by
  have hitem : attempt toyEnv.target .default (bucketCodec.encode frame []) = .item frame [] := by
    rw [← List.append_nil (bucketCodec.encode frame [])]
    exact attempt_encode .bits64 frame [] hlength
  rcases tryDecodeAuth_item 200 hitem with ⟨hauth, _⟩ | ⟨_, hsite⟩
  . exact absurd hauth hframe
  . have hgate : Prog.Run Records [] (gateWithExporter (toyHop false).cfg (.ok (.fill 32 5))).run
        (.ok (.site (bucketCodec.encode frame []))) _ := gateOnSocket_run hne hsite
    have h := @reaches_of_gate Unit toyCopier _ _ _ _ hgate
    rcases @dispatchSite_turn Unit toyCopier (toyHop false).cfg _ hne
      with ⟨next, next', hturn, hnext⟩
    rw [hturn] at h
    have h := h.act (.ok () : Except IoError Unit) rfl
    rw [hnext] at h
    exact ⟨_, h.act (.ok () : Except IoError Unit) rfl⟩

/--
A relay at the end of a chain and one inside it that knows other keys do the same for a peer whose
capability has expired.
-/
theorem handleConnection_probe_late
    : ∃ wire hne, Performs (handleConnection toyCopier (toyHop false).cfg (.ok (.fill 32 5)))
          (latePeer wire hne) ∧
        Performs (handleConnection toyCopier
            { (toyHop true).cfg with issuerPubkey := .fill 32 8, relayScope := "" }
              (.ok (.fill 32 6)))
          (latePeer wire hne) := by
  rcases toyFrame_ok with ⟨frame, _, hauth, hframe⟩
  have hlength := (hauth 50 List.mem_cons_self).length_payload_le
  have hnot : ∀ env, ¬Authentic env 200 frame := by
    intro env hauth
    have hvalid : toyCapability.isValidAt 200 = true := hauth.isValidAt hframe
    cases hvalid
  have hne := encode_ne_nil frame
  have hperforms := latePeer_performed hne hlength (hnot _)
  have hprobe := @handleConnection_probe Unit toyCopier (toyHop false).cfg
    { (toyHop true).cfg with issuerPubkey := .fill 32 8, relayScope := "" }
    (.fill 32 5) (.fill 32 6) rfl (latePeer _ hne) (latePeer_not_admitted hlength hnot)
    (latePeer_not_admitted hlength hnot)
  exact ⟨_, hne, hperforms, hprobe.mp hperforms⟩

end Probe

section Guarded

variable {τ : Type} {copier : Copier τ} {cfg : RelayConfig} {exporter : Except String (ByteArr 32)}
  {trace : List SockEvent}

/--
The connection has not touched its leg, or it is admitted and has not touched the site.
-/
def Guarded (cfg : RelayConfig) (exporter : Except String (ByteArr 32)) (trace : List SockEvent)
    : Prop :=
  NoLeg trace ∨ (cfg.Admitted exporter trace ∧ NoSite trace)

theorem meets_noLeg {ε α : Type} {x : Sock ε α}
    (hx : Avoids (fun _ action => action.toLeg = true) x) (h : NoLeg trace)
    : Meets Records (fun _ _ => Guarded cfg exporter) x (fun _ => NoLeg)
        (fun _ => NoLeg) trace := by
  have hrun : x.run.Meets Records (fun _ _ => Guarded cfg exporter) (fun _ => NoLeg) trace := by
    apply Prog.Meets.of_avoids hx
    . rintro β trace _ action answer haction rfl h
      exact h.snoc (by simpa using haction) answer
    . intro β action trace h
      exact .inl h
    . exact h
  apply hrun.mono
  intro res trace' h'
  cases res with
  | ok a => exact h'
  | error e => exact h'

theorem meets_noSite {ε α : Type} {x : Sock ε α} (hx : Spares .site x)
    (h : cfg.Admitted exporter trace ∧ NoSite trace)
    : Meets Records (fun _ _ => Guarded cfg exporter) x
        (fun _ trace => cfg.Admitted exporter trace ∧ NoSite trace)
        (fun _ trace => cfg.Admitted exporter trace ∧ NoSite trace) trace := by
  have hrun : x.run.Meets Records (fun _ _ => Guarded cfg exporter)
      (fun _ trace => cfg.Admitted exporter trace ∧ NoSite trace) trace := by
    apply Prog.Meets.of_avoids hx
    . rintro β trace _ action answer haction rfl ⟨hadmitted, h⟩
      exact ⟨hadmitted.append _, h.snoc (by simpa using haction) answer⟩
    . intro β action trace h
      exact .inr h
    . exact h
  apply hrun.mono
  intro res trace' h'
  cases res with
  | ok a => exact h'
  | error e => exact h'

def Guarding (cfg : RelayConfig) (exporter : Except String (ByteArr 32))
    : Route τ → List SockEvent → Prop
  | .site _, trace => NoLeg trace
  | _, trace => cfg.Admitted exporter trace ∧ NoSite trace

theorem dispatchSite_guarded {bytes : Bytes} (h : NoLeg trace)
    : Meets Records (fun _ _ => Guarded cfg exporter) (dispatchGateResult copier cfg (.site bytes))
        (Sum.elim (Guarding cfg exporter) fun _ => Guarded cfg exporter)
        (fun _ => Guarded cfg exporter) trace := by
  rw [dispatchGateResult]
  split
  . exact .inl h
  . apply holds_bind
    apply (meets_noLeg (avoids_ask (by simp [SockAction.toLeg])) h).mono
    . intro res trace h
      cases res with
      | error e => exact .inl h
      | ok u =>
        apply holds_tryCatch
        apply holds_bind
        apply (meets_noLeg (avoids_fromIo (by simp [SockAction.toLeg])) h).mono
        . intro _ trace h
          exact h
        . intro e trace h
          exact .inl h
    . intro e trace h
      exact .inl h

theorem dispatchTunnel_guarded {leftover : Bytes} (h : cfg.Admitted exporter trace ∧ NoSite trace)
    : Meets Records (fun _ _ => Guarded cfg exporter)
        (dispatchGateResult copier cfg (.tunnel leftover))
        (Sum.elim (Guarding cfg exporter) fun _ => Guarded cfg exporter)
        (fun _ => Guarded cfg exporter) trace := by
  rw [dispatchGateResult]
  split
  . apply holds_bind
    apply (meets_noSite (dialUpstream_spares (by decide)) h).mono
    . intro _ trace h
      exact h
    . intro e trace h
      exact .inr h
  . apply holds_bind
    apply (meets_noSite (avoids_ask (by simp [touches])) h).mono
    . intro res trace h
      cases res with
      | error e => exact .inr h
      | ok u => exact h
    . intro e trace h
      exact .inr h

theorem forwardFrames_guarded {emit : Frame → Option Bytes} {buf : Bytes} {goOn : Bytes → Route τ}
    (hgoOn : ∀ buf trace, cfg.Admitted exporter trace ∧ NoSite trace →
      Guarding cfg exporter (goOn buf) trace)
    (h : cfg.Admitted exporter trace ∧ NoSite trace)
    : Meets Records (fun _ _ => Guarded cfg exporter)
        (do return (← Sock.forwardFrames cfg.target emit buf).map goOn id
          : Sock HandlerError (Route τ ⊕ Unit))
        (Sum.elim (Guarding cfg exporter) fun _ => Guarded cfg exporter)
        (fun _ => Guarded cfg exporter) trace := by
  apply holds_bind
  apply (meets_noSite (forwardFrames_spares (by decide)) h).mono
  . rintro (buf | u) trace h
    . exact hgoOn buf trace h
    . exact .inr h
  . intro e trace h
    exact .inr h

theorem upTurn_guarded {route : Route τ} (h : Guarding cfg exporter route trace)
    : Meets Records (fun _ _ => Guarded cfg exporter) (upTurn copier cfg route)
        (Sum.elim (Guarding cfg exporter) fun _ => Guarded cfg exporter)
        (fun _ => Guarded cfg exporter) trace := by
  cases route with
  | tunnel buf => exact forwardFrames_guarded (fun _ _ h => h) h
  | chain buf => exact forwardFrames_guarded (fun _ _ h => h) h
  | site state =>
    have hcopy : Avoids (fun _ action => action.toLeg = true) (copyTo copier .site state) := by
      apply copyTo_avoids
      intro β action
      cases action <;> simp [CopyAction.onPort, SockAction.toLeg]
    apply siteTurn_meets
    apply (meets_noLeg hcopy h).mono
    . rintro (state | u) trace h
      . exact h
      . exact .inl h
    . intro e trace h
      exact .inl h

/--
A connection never touches its leg, not even to dial, unless it began with a frame that was
authentic in this very TLS session when the relay looked at it; and if it does, the site never hears
of it.
-/
theorem handleConnection_guarded (h : Performs (handleConnection copier cfg exporter) trace)
    : Guarded cfg exporter trace := by
  rcases h with ⟨p, hreaches⟩
  have hstart : Meets Records (fun _ _ => Guarded cfg exporter) (openConnection copier cfg exporter)
      (Sum.elim (Guarding cfg exporter) fun _ => Guarded cfg exporter)
      (fun _ => Guarded cfg exporter) [] := by
    refine openConnection_meets (quiet_gateable fun _ _ _ => .inl) .nil ?_ ?_ ?_
    . intro trace h
      exact .inl h.leg
    . rintro now frame buf leftover trace hframe hadmits h
      rcases h.last with ⟨before, htrace, hreceived⟩
      apply dispatchTunnel_guarded
      rw [← hreceived] at hframe
      exact ⟨⟨before, now, [], frame, leftover, htrace, hframe, hadmits⟩, h.site⟩
    . intro bytes trace h
      exact dispatchSite_guarded h.leg
  have hmeets := loop_meets hstart (fun route trace => upTurn_guarded) hreaches
  apply hmeets.invariant
  . intro β action trace h
    exact h
  . rintro (route | e | u) trace h
    . cases route with
      | site state => exact .inl h
      | tunnel buf => exact .inr h
      | chain buf => exact .inr h
    . exact h
    . exact h

def goodPeer (wire : Bytes) (hne : wire ≠ []) : List SockEvent :=
  [.read none (some 60) (.data wire hne), .unixNow 51, .openBackend 10 (.ok ())]

theorem goodPeer_performed
    : ∃ wire hne, Performs (handleConnection toyCopier (toyHop false).cfg (.ok (.fill 32 5)))
        (goodPeer wire hne) := by
  rcases toyFrame_ok with ⟨frame, _, hauth, _⟩
  have hauth : Authentic toyEnv 51 frame := hauth 51 (by decide)
  have hitem : attempt toyEnv.target .default (bucketCodec.encode frame []) = .item frame [] := by
    rw [← List.append_nil (bucketCodec.encode frame [])]
    exact attempt_encode .bits64 frame [] hauth.length_payload_le
  rcases tryDecodeAuth_item 51 hitem with ⟨_, htunnel⟩ | ⟨hnot, _⟩
  . have hgate : Prog.Run Records [] (gateWithExporter (toyHop false).cfg (.ok (.fill 32 5))).run
        (.ok (.tunnel [])) _ := gateOnSocket_run (encode_ne_nil frame) htunnel
    have h := @reaches_of_gate Unit toyCopier _ _ _ _ hgate
    exact ⟨_, encode_ne_nil frame, _, h.act (.ok () : Except IoError Unit) rfl⟩
  . exact absurd hauth hnot

/--
A peer that does not speak the protocol gets no further than the site. One with a good frame has the
backend opened, so it is admitted.
-/
theorem handleConnection_guarded_two_peers
    : Guarded (toyHop false).cfg (.ok (.fill 32 5)) getPeer ∧
      ∃ wire hne, (toyHop false).cfg.Admitted (.ok (.fill 32 5)) (goodPeer wire hne) ∧
        NoSite (goodPeer wire hne) := by
  refine ⟨@handleConnection_guarded Unit toyCopier _ _ _ ⟨_, reaches_of_gate getPeer_gate⟩, ?_⟩
  rcases goodPeer_performed with ⟨wire, hne, hperforms⟩
  refine ⟨wire, hne, ?_⟩
  rcases handleConnection_guarded hperforms with hleg | hadmitted
  . cases hleg (.openBackend 10 (.ok ())) (by simp [goodPeer])
  . exact hadmitted

end Guarded

end Veil
