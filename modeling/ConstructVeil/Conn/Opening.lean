import ConstructVeil.Conn.Lemmas.Client
import ConstructVeil.Conn.Lemmas.Relay
import ConstructVeil.Conn.Lemmas.Runs
import ConstructVeil.Transparency

/-!
This module contains the way from the app to the backend and the runs on it in which nothing fails:
a client that is admitted gets everything through, over any number of relays that admit each other.
-/

namespace Veil

open VeilFrontCodec SockAction Sock

/--
A relay and the exporter of the TLS session on its side of the connection before it.
-/
structure Hop where
  cfg : RelayConfig
  exporter : Except String (ByteArr 32)

section Path

variable {τ : Type} (copier : Copier τ)

def Hop.up (hop : Hop) : Pipe UInt8 := pipeTo .leg (handleConnection copier hop.cfg hop.exporter)

def upPath (client : ClientConfig) (hops : List Hop) (exit : Hop) : Pipe UInt8 :=
  ((pipeTo .leg (openFerryUp client)).through (hops.map (Hop.up copier))).comp (exit.up copier)

end Path

def toyCopier : Copier Unit where
  start := ()
  turn _ := do
    match ← Prog.perform (.read none) with
    | .data bytes _ => return (← Prog.perform (.write bytes)).map .inl
    | .eof => return (← Prog.perform .shutdown).map .inr
    | .err e => return .error e
    | .timeout => return .ok (.inl ())

def toyClient : ClientConfig := ⟨toyCrypto, toyTexts, "", ⟨"cap", "sk"⟩, fun _ => zeroRng⟩

/--
A relay for clients with the credentials of `toyClient`, which are its own if it is in a chain.
-/
def toyHop (inChain : Bool) : Hop where
  cfg :=
    { crypto := toyCrypto
      texts := toyTexts
      target := .bits64
      issuerPubkey := .fill 32 3
      relayScope := "relay"
      chain := if inChain then some ⟨"cap", .fill 32 2⟩ else none
      firstByte := 60
      dial := 10 }
  exporter := .ok (.fill 32 5)

structure Running (consumed sent : Bytes) (l : Log) : Prop where
  consumed : l.consumed = consumed
  sent : l.sent = sent
  notEnd : l.atEnd = false
  opened : l.closed = false
  direct : l.diverted = false

structure Rested (consumed sent : Bytes) (l : Log) : Prop extends Running consumed sent l where
  flushed : l.flushed = l.sent

namespace Running

variable {consumed sent input : Bytes} {ended : Bool} {l : Log}

theorem within (h : Running consumed sent l) (hinput : consumed <+: input) : l.Within input ended :=
  ⟨by rw [h.consumed]; exact hinput, by simp [h.notEnd]⟩

theorem write (h : Running consumed sent l) (bytes : Bytes)
    : Running consumed (sent ++ bytes) (l.write bytes) :=
  ⟨h.consumed, by simp [h.sent], h.notEnd, h.opened, h.direct⟩

theorem flush (h : Running consumed sent l) : Rested consumed sent l.flush :=
  ⟨⟨h.consumed, h.sent, h.notEnd, h.opened, h.direct⟩, rfl⟩

theorem within_readEnd (h : Running input sent l) : l.readEnd.Within input true :=
  ⟨by simp [h.consumed], fun _ => ⟨rfl, h.consumed⟩⟩

theorem finish (h : Running input sent l) : l.readEnd.shut.Finished input sent :=
  ⟨h.consumed, h.sent, rfl⟩

end Running

namespace Rested

variable {consumed sent : Bytes} {l : Log}

theorem start : Rested [] [] (.start false) := ⟨⟨rfl, rfl, rfl, rfl, rfl⟩, rfl⟩

theorem read (h : Rested consumed sent l) (bytes : Bytes)
    : Rested (consumed ++ bytes) sent (l.read bytes) :=
  ⟨⟨by simp [h.consumed], h.sent, h.notEnd, h.opened, h.direct⟩, h.flushed⟩

theorem settled (h : Rested consumed sent l) : l.Settled consumed sent :=
  ⟨h.consumed, h.sent, h.flushed.trans h.sent, h.opened, h.direct⟩

end Rested

section Client

variable {ε : Type} {cfg : ClientConfig} {input consumed sent : Bytes} {ended : Bool} {l : Log}

theorem may_readLocal {up : VeilFrontUp} {post : ReadEvent → Log → Prop}
    (hwithin : l.Within input ended)
    (h : ∀ timer,
      May .leg input ended (ask (.read (some localBuf) timer) : Sock ε ReadEvent) post l)
    : May .leg input ended (readLocal up : Sock ε ReadEvent) post l := by
  apply may_bind
  apply may_still rfl 0 hwithin
  split
  . exact h none
  . exact h (some idleTick)

theorem awaits_readLocal {up : VeilFrontUp} (h : Rested input sent l)
    : Awaits .leg input ended (readLocal up : Sock ε ReadEvent) (Ledger.Settled input sent) l := by
  apply May.await
  apply may_still rfl 0 (h.within List.prefix_rfl)
  split
  . exact awaits_read h.settled
  . exact awaits_read h.settled

variable [FromIo ε]

theorem may_sendWire {wire : Bytes} {post : Unit → Log → Prop} (h : Running consumed sent l)
    (hinput : consumed <+: input) (hpost : ∀ l', Rested consumed (sent ++ wire) l' → post () l')
    : May .leg input ended (sendWire wire : Sock ε Unit) post l := by
  apply may_bind
  apply may_writeAll (h.within hinput) h.opened
  apply may_flush ((h.write wire).within hinput)
  exact hpost _ (h.write wire).flush

theorem may_ferryUp {up : VeilFrontUp} {bytes : Bytes} (hup : up.Idle) (h : Rested consumed sent l)
    (hne : bytes ≠ []) (hlen : bytes.length ≤ localBuf) (hinput : consumed ++ bytes <+: input)
    : May .leg input ended (Sock.ferryUp up : Sock ε (VeilFrontUp ⊕ VeilFrontUp))
        (fun v l' => ∃ up', v = .inl up' ∧ up'.Idle ∧
          Rested (consumed ++ bytes) (sent ++ bucketCodec.encode (.data bytes) []) l') l := by
  have hsend := sendNext_queueLocal hup bytes 0
  have hread := (h.read bytes).toRunning
  apply may_bind
  apply may_readLocal (h.within ((List.prefix_append consumed bytes).trans hinput))
  intro timer
  apply may_read hne (by simpa using hlen) h.notEnd
  . rw [h.consumed]
    exact hinput
  . apply may_bind
    apply may_bind
    apply may_still rfl 0 (hread.within hinput)
    rw [sendNext_of_write hsend.1]
    apply may_bind
    apply may_sendWire hread hinput
    intro l' h'
    exact ⟨_, rfl, hsend.2, h'⟩

theorem may_ferryUp_end {up : VeilFrontUp} (h : Rested input sent l)
    : May .leg input true (Sock.ferryUp up : Sock ε (VeilFrontUp ⊕ VeilFrontUp))
        (fun _ => Ledger.Finished input sent) l := by
  apply may_bind
  apply may_readLocal (h.within List.prefix_rfl)
  intro timer
  apply may_readEnd h.consumed
  apply may_bind
  apply may_shutdown h.within_readEnd
  exact h.finish

theorem ferryUp_serves {start : Sock ε (VeilFrontUp ⊕ VeilFrontUp)} {up : VeilFrontUp}
    {chunks : List Bytes} (hup : up.Idle) (h : Rested consumed sent l)
    (hchunks : ∀ chunk ∈ chunks, chunk ≠ [] ∧ chunk.length ≤ localBuf)
    (hinput : consumed ++ chunks.flatten = input)
    (hserves : (pipeTo .leg (Sock.loop start Sock.ferryUp)).Serves input ended (.done (.inl up), l))
    : ∃ up' l', (pipeTo .leg (Sock.loop start Sock.ferryUp)).Serves input ended
          (.done (.inl up'), l') ∧
        Rested input (sent ++ encodeFrames (chunks.map .data)) l' := by
  induction chunks generalizing up consumed sent l with
  | nil =>
    simp only [List.flatten_nil, List.append_nil] at hinput
    subst hinput
    refine ⟨up, l, hserves, ?_⟩
    rw [List.map_nil, encodeFrames_nil, List.append_nil]
    exact h
  | cons chunk chunks ih =>
    rcases hchunks chunk List.mem_cons_self with ⟨hne, hlen⟩
    have hinput' : (consumed ++ chunk) ++ chunks.flatten = input := by simpa using hinput
    have hfront : consumed ++ chunk <+: input := by
      rw [← hinput']
      exact List.prefix_append _ _
    rcases serves_body hserves (may_ferryUp hup h hne hlen hfront)
      with ⟨_, l', hserves', up', rfl, hup', h'⟩
    rw [List.map_cons, encodeFrames_cons, ← List.append_assoc]
    exact ih hup' h' (fun c hc => hchunks c (List.mem_cons_of_mem _ hc)) hinput' hserves'

theorem openFerryUp_delivers {chunks : List Bytes} {now : UInt64} {key : ByteArr 32} {frame : Frame}
    (hchunks : ∀ chunk ∈ chunks, chunk ≠ [] ∧ chunk.length ≤ localBuf)
    (hframe : authFrame cfg.crypto cfg.texts now key cfg.capabilityB64 cfg.authV3 = .ok frame)
    : (pipeTo .leg (openFerryUp cfg)).Delivers chunks.flatten
        (encodeFrames (frame :: chunks.map .data)) := by
  have hstart : ∀ ended, May .leg chunks.flatten ended
      (do
        dialAndAuthenticate cfg
        return .inl (.new cfg.rng) : Sock Abort (VeilFrontUp ⊕ VeilFrontUp))
      (fun v l => v = .inl (.new cfg.rng) ∧ Rested [] (bucketCodec.encode frame []) l)
      (.start false) := by
    intro ended
    have hwithin : (Ledger.start false).Within chunks.flatten ended :=
      Rested.start.within List.nil_prefix
    apply may_bind
    apply may_bind
    apply may_still rfl (.ok key) hwithin
    apply may_tryCatch
    apply may_bind
    apply may_still rfl now hwithin
    rw [hframe]
    apply may_sendWire Rested.start.toRunning List.nil_prefix
    intro l h
    exact ⟨rfl, h⟩
  have hserves : ∀ ended, ∃ up l,
      (pipeTo .leg (openFerryUp cfg)).Serves chunks.flatten ended (.done (.inl up), l) ∧
      Rested chunks.flatten (encodeFrames (frame :: chunks.map .data)) l := by
    intro ended
    rcases serves_start (hstart ended) with ⟨_, l, hserves, rfl, h⟩
    rw [encodeFrames_cons]
    exact ferryUp_serves (VeilFrontUp.idle_new cfg.rng) h hchunks (List.nil_append _) hserves
  constructor
  . rcases hserves false with ⟨up, l, hserves, h⟩
    exact serves_await hserves ((awaits_readLocal h).bind _)
  . rcases hserves true with ⟨up, l, hserves, h⟩
    rcases serves_body hserves (may_ferryUp_end h) with ⟨v, l', hserves', hfinished⟩
    exact ⟨_, hserves', hfinished⟩

end Client

section Frames

variable {ε : Type} [FromIo ε] {target : Target} {emit : Frame → Option Bytes}
  {frames : List Frame} {input consumed sent : Bytes} {ended : Bool} {l : Log}

theorem may_drainFrames (hfit : FramesFit frames) (h : Rested consumed sent l)
    (hinput : consumed <+: input)
    : May .leg input ended
        (Sock.drainFrames target emit (encodeFrames frames) : Sock ε (Bool × Bytes))
        (fun v l' => v.2 = [] ∧ Running consumed (sent ++ emitted emit frames) l' ∧
          (v.1 = false → l'.flushed = l'.sent)) l := by
  have hloop : ∀ wrote sent l, Running consumed sent l → (wrote = false → l.flushed = l.sent) →
      May .leg input ended
        ((decoder target .default).processM (Sock.handleFrame emit)
          (fun e => throw (FromIo.fromIo (.invalidData e))) wrote (encodeFrames frames)
          : Sock ε (Bool × Bytes))
        (fun v l' => v.2 = [] ∧ Running consumed (sent ++ emitted emit frames) l' ∧
          (v.1 = false → l'.flushed = l'.sent)) l := by
    induction frames with
    | nil =>
      intro wrote sent l h hflushed
      rw [encodeFrames_nil, StreamDecoder.processM_wait _ (by simp)]
      exact ⟨rfl, by simpa [emitted] using h, hflushed⟩
    | cons frame frames ih =>
      intro wrote sent l h hflushed
      have hitem := attempt_encode target frame (encodeFrames frames)
        (hfit frame List.mem_cons_self)
      have hfit' : FramesFit frames := fun f hf => hfit f (List.mem_cons_of_mem _ hf)
      rw [encodeFrames_cons, StreamDecoder.processM_item _ hitem]
      apply may_bind
      rw [Sock.handleFrame]
      cases hemit : emit frame with
      | none =>
        rw [emitted_cons_none hemit]
        exact ih hfit' wrote sent l h hflushed
      | some out =>
        rw [emitted_cons_some hemit, ← List.append_assoc]
        apply may_bind
        apply may_writeAll (h.within hinput) h.opened
        exact ih hfit' true _ _ (h.write out) (by simp)
  exact hloop false sent l h.toRunning fun _ => h.flushed

theorem may_flushIf {wrote : Bool} (h : Running consumed sent l)
    (hflushed : wrote = false → l.flushed = l.sent) (hinput : consumed <+: input)
    : May .leg input ended (flushIf wrote : Sock ε Unit) (fun _ => Rested consumed sent) l := by
  cases wrote with
  | false => exact ⟨h, hflushed rfl⟩
  | true => exact may_flush (h.within hinput) h.flush

theorem awaits_forwardFrames (hfit : FramesFit frames) (h : Rested input sent l)
    : Awaits .leg input ended
        (Sock.forwardFrames target emit (encodeFrames frames) : Sock ε (Bytes ⊕ Unit))
        (Ledger.Settled input (sent ++ emitted emit frames)) l := by
  apply May.await
  apply (may_drainFrames hfit h List.prefix_rfl).mono
  rintro ⟨wrote, _⟩ l₁ ⟨rfl, h₁, hflushed⟩
  apply May.await
  apply (may_flushIf h₁ hflushed List.prefix_rfl).mono
  intro _ l₂ h₂
  exact (awaits_read h₂.settled).bind _

theorem may_forwardFrames (hfit : FramesFit frames) (h : Rested input sent l)
    : May .leg input true
        (Sock.forwardFrames target emit (encodeFrames frames) : Sock ε (Bytes ⊕ Unit))
        (fun _ => Ledger.Finished input (sent ++ emitted emit frames)) l := by
  apply may_bind
  apply (may_drainFrames hfit h List.prefix_rfl).mono
  rintro ⟨wrote, _⟩ l₁ ⟨rfl, h₁, hflushed⟩
  apply may_bind
  apply (may_flushIf h₁ hflushed List.prefix_rfl).mono
  intro _ l₂ h₂
  apply may_bind
  apply may_readEnd h₂.consumed
  apply may_bind
  apply may_shutdown h₂.within_readEnd
  exact h₂.finish

end Frames

section Relay

variable {τ : Type} {copier : Copier τ} {cfg : RelayConfig}
  {exporter : Except String (ByteArr 32)} {first : Frame} {frames : List Frame} {now : UInt64}
  {sent : Bytes} {ended : Bool}

theorem may_gateOnSocket {env : GateEnv} {firstReadTimeout : Nat} {rest : Bytes}
    (hauth : Authentic env now first)
    : May .leg (bucketCodec.encode first [] ++ rest) ended (gateOnSocket env firstReadTimeout)
        (fun result l' =>
          result = .tunnel rest ∧ Rested (bucketCodec.encode first [] ++ rest) [] l')
        (.start false) := by
  have hitem := attempt_encode env.target first rest hauth.length_payload_le
  have hne : bucketCodec.encode first [] ++ rest ≠ [] := by
    intro hnil
    rw [hnil] at hitem
    cases hitem
  have htunnel
      : tryDecodeAuth env (bucketCodec.encode first [] ++ rest) now = some (.tunnel rest) := by
    rcases tryDecodeAuth_item now hitem with ⟨_, htunnel⟩ | ⟨hnot, _⟩
    . exact htunnel
    . exact absurd hauth hnot
  have h : Rested (bucketCodec.encode first [] ++ rest) [] _ := Rested.start.read _
  apply may_bind
  apply may_read hne (by simp) rfl (by simp)
  apply may_bind
  apply may_still rfl now (h.within List.prefix_rfl)
  rw [htunnel]
  exact ⟨rfl, h⟩

theorem may_openConnection {key : ByteArr 32} {rest : Bytes} {post : Route τ ⊕ Unit → Log → Prop}
    (hauth : Authentic (cfg.gateEnv key) now first)
    (hdispatch : ∀ l, Rested (bucketCodec.encode first [] ++ rest) [] l →
      May .leg (bucketCodec.encode first [] ++ rest) ended
        (dispatchGateResult copier cfg (.tunnel rest)) post l)
    : May .leg (bucketCodec.encode first [] ++ rest) ended (openConnection copier cfg (.ok key))
        post (.start false) := by
  apply Prog.may_bind.mpr
  apply Prog.May.mono (may_gateOnSocket hauth)
  intro res l hres
  cases res with
  | error e => cases hres
  | ok result =>
    rcases hres with ⟨rfl, h⟩
    exact hdispatch l h

theorem handleConnection_delivers {emit : Frame → Option Bytes} {goOn : Bytes → Route τ}
    (hadmits : cfg.Admits exporter now first) (hfit : FramesFit frames)
    (hturn : ∀ buf, upTurn copier cfg (goOn buf) = do
      return (← Sock.forwardFrames cfg.target emit buf).map goOn id)
    (hdial : ∀ input ended rest l, Rested input [] l →
      May .leg input ended (dispatchGateResult copier cfg (.tunnel rest))
        (fun v l' => v = .inl (goOn rest) ∧ Rested input sent l') l)
    : (pipeTo .leg (handleConnection copier cfg exporter)).Delivers (encodeFrames (first :: frames))
        (sent ++ emitted emit frames) := by
  rcases hadmits with ⟨key, rfl, hauth⟩
  have hserves : ∀ ended, ∃ l,
      (pipeTo .leg (handleConnection copier cfg (.ok key))).Serves (encodeFrames (first :: frames))
        ended (.done (.inl (goOn (encodeFrames frames))), l) ∧
      Rested (encodeFrames (first :: frames)) sent l := by
    intro ended
    rw [encodeFrames_cons]
    rcases serves_start
      (may_openConnection hauth fun l h => hdial _ ended (encodeFrames frames) l h)
      with ⟨_, l, hserves, rfl, h⟩
    exact ⟨l, hserves, h⟩
  constructor
  . rcases hserves false with ⟨l, hserves, h⟩
    apply serves_await hserves
    rw [hturn]
    exact (awaits_forwardFrames hfit h).bind _
  . rcases hserves true with ⟨l, hserves, h⟩
    have hbody : May .leg (encodeFrames (first :: frames)) true
        (upTurn copier cfg (goOn (encodeFrames frames)))
        (fun _ => Ledger.Finished (encodeFrames (first :: frames)) (sent ++ emitted emit frames))
          l := by
      rw [hturn]
      exact may_bind ((may_forwardFrames hfit h).mono fun _ _ h' => may_pure h')
    rcases serves_body hserves hbody with ⟨v, l', hserves', hfinished⟩
    exact ⟨_, hserves', hfinished⟩

theorem handleConnection_delivers_exit (hchain : cfg.chain = none)
    (hadmits : cfg.Admits exporter now first) (hfit : FramesFit frames)
    : (pipeTo .leg (handleConnection copier cfg exporter)).Delivers (encodeFrames (first :: frames))
        (dataPayloads frames).flatten := by
  have hdial : ∀ input ended rest l, Rested input [] l →
      May .leg input ended (dispatchGateResult copier cfg (.tunnel rest))
        (fun v l' => v = .inl (.tunnel rest) ∧ Rested input [] l') l := by
    intro input ended rest l h
    simp only [dispatchGateResult, hchain]
    apply may_bind
    apply may_still rfl (.ok ()) (h.within List.prefix_rfl)
    exact ⟨rfl, h⟩
  rw [← Tunnel.emitted_backendPayload]
  exact handleConnection_delivers hadmits hfit (fun _ => rfl) hdial

theorem handleConnection_delivers_chain {chain : ChainConfig} {capability : CapabilityV2}
    {key : ByteArr 32} {frame : Frame} (hchain : cfg.chain = some chain)
    (hcap : chain.parseCapability cfg.texts = .ok capability)
    (hframe : chain.authFrame cfg.crypto capability key = .ok frame)
    (hadmits : cfg.Admits exporter now first) (hfit : FramesFit frames)
    : (pipeTo .leg (handleConnection copier cfg exporter)).Delivers (encodeFrames (first :: frames))
        (encodeFrames (frame :: (dataPayloads frames).map .data)) := by
  have hdial : ∀ input ended rest l, Rested input [] l →
      May .leg input ended (dispatchGateResult copier cfg (.tunnel rest))
        (fun v l' => v = .inl (.chain rest) ∧ Rested input (bucketCodec.encode frame []) l') l := by
    intro input ended rest l h
    simp only [dispatchGateResult, hchain]
    apply may_bind
    rw [dialUpstream, hcap]
    apply may_bind
    apply may_still rfl (.ok key) (h.within List.prefix_rfl)
    dsimp only
    rw [hframe]
    apply may_adapt
    apply may_sendWire h.toRunning List.prefix_rfl
    intro l' h'
    exact ⟨rfl, h'⟩
  rw [encodeFrames_cons frame, ← Chain.emitted_reframe]
  exact handleConnection_delivers hadmits hfit (fun _ => rfl) hdial

end Relay

/--
Every relay admits what comes to it first: `first` at the first one, and at the next ones the AUTH
frame of the relay before.
-/
inductive Opens : Frame → List Hop → Hop → Prop where
  | exit {first : Frame} {exit : Hop} {now : UInt64} (hchain : exit.cfg.chain = none)
    (hadmits : exit.cfg.Admits exit.exporter now first) : Opens first [] exit
  | hop {first frame : Frame} {hop exit : Hop} {hops : List Hop} {chain : ChainConfig}
    {capability : CapabilityV2} {key : ByteArr 32} {now : UInt64}
    (hchain : hop.cfg.chain = some chain)
    (hcap : chain.parseCapability hop.cfg.texts = .ok capability)
    (hframe : chain.authFrame hop.cfg.crypto capability key = .ok frame)
    (hadmits : hop.cfg.Admits hop.exporter now first) (hnext : Opens frame hops exit)
    : Opens first (hop :: hops) exit

section Path

variable {τ : Type} {copier : Copier τ} {first : Frame} {hops : List Hop} {exit : Hop}
  {frames : List Frame} {input : Bytes}

theorem Opens.delivers {P : Pipe UInt8} (h : Opens first hops exit) (hfit : FramesFit frames)
    (hP : P.Delivers input (encodeFrames (first :: frames)))
    : ((P.through (hops.map (Hop.up copier))).comp (exit.up copier)).Delivers input
        (dataPayloads frames).flatten := by
  induction h generalizing P frames with
  | exit hchain hadmits => exact hP.comp (handleConnection_delivers_exit hchain hadmits hfit)
  | hop hchain hcap hframe hadmits _ ih =>
    rw [← dataPayloads_map_data (dataPayloads frames)]
    apply ih (Chain.framesFit_data hfit)
    exact hP.comp (handleConnection_delivers_chain hchain hcap hframe hadmits hfit)

/--
Whatever the app writes can get to the backend, if every relay on the way admits the one before:
there is a run in which all of it arrives, and one in which the end of the stream arrives after it.
-/
theorem upPath_delivers (copier : Copier τ) {client : ClientConfig} {chunks : List Bytes}
    {now : UInt64}
    {key : ByteArr 32} (hchunks : ∀ chunk ∈ chunks, chunk ≠ [] ∧ chunk.length ≤ localBuf)
    (hframe : authFrame client.crypto client.texts now key client.capabilityB64 client.authV3
      = .ok first)
    (hopens : Opens first hops exit)
    : (upPath copier client hops exit).Delivers chunks.flatten chunks.flatten := by
  have hfit : FramesFit (chunks.map .data) := by
    intro frame hframe
    rcases List.mem_map.mp hframe with ⟨chunk, hchunk, rfl⟩
    exact (hchunks chunk hchunk).2.trans (by decide)
  have hdelivers : (upPath copier client hops exit).Delivers chunks.flatten
      (dataPayloads (chunks.map .data)).flatten :=
    hopens.delivers hfit (openFerryUp_delivers hchunks hframe)
  rw [dataPayloads_map_data] at hdelivers
  exact hdelivers

end Path

end Veil
