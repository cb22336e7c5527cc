import ConstructVeil.Conn.Opening

/-!
This module contains the way from the backend to the app and the runs on it in which nothing fails:
what the backend writes gets through to the app, over any number of relays.
-/

namespace Veil

open VeilFrontCodec SockAction Sock

/--
From the backend to the app. The relays run on the targets `hops` and the client on `target`.
-/
def downPath (hops : List Target) (target : Target) : Pipe UInt8 :=
  ((pipeTo .leg forwardTunnelDown).through
    (hops.map fun hop => pipeTo .leg (forwardChainDown hop))).comp
      (pipeTo .app (openFerryDown target))

section Relay

variable {input consumed sent : Bytes} {ended : Bool} {l : Log}

theorem may_readIdle {limit : Option Nat} {chaffWindow opened : Nat}
    {post : ReadEvent → Log → Prop} (hwithin : l.Within input ended)
    (h : ∀ timer, May .leg input ended (ask (.read limit timer) : Sock IoError ReadEvent) post l)
    : May .leg input ended (readIdle limit chaffWindow opened : Sock IoError ReadEvent) post l := by
  apply may_bind
  apply may_still rfl 0 hwithin
  split
  . exact h (some idleChaffTick)
  . exact h none

theorem awaits_readIdle {limit : Option Nat} {chaffWindow opened : Nat} (h : Rested input sent l)
    : Awaits .leg input ended (readIdle limit chaffWindow opened : Sock IoError ReadEvent)
        (Ledger.Settled input sent) l := by
  apply May.await
  apply may_still rfl 0 (h.within List.prefix_rfl)
  split
  . exact awaits_read h.settled
  . exact awaits_read h.settled

theorem may_frameBackendToClient {chaffWindow opened : Nat} {bytes : Bytes}
    (h : Rested consumed sent l) (hne : bytes ≠ []) (hlen : bytes.length ≤ copyBuf)
    (hinput : consumed ++ bytes <+: input)
    : May .leg input ended
        (Sock.frameBackendToClient chaffWindow opened : Sock IoError (Unit ⊕ Unit))
        (fun v l' => v = .inl () ∧
          Rested (consumed ++ bytes) (sent ++ bucketCodec.encode (.data bytes) []) l') l := by
  apply may_bind
  apply may_readIdle (h.within ((List.prefix_append consumed bytes).trans hinput))
  intro timer
  apply may_read hne (by simpa using hlen) h.notEnd
  . rw [h.consumed]
    exact hinput
  . apply may_bind
    apply may_sendWire (h.read bytes).toRunning hinput
    intro l' h'
    exact ⟨rfl, h'⟩

theorem may_frameBackendToClient_end {chaffWindow opened : Nat} (h : Rested input sent l)
    : May .leg input true
        (Sock.frameBackendToClient chaffWindow opened : Sock IoError (Unit ⊕ Unit))
        (fun _ => Ledger.Finished input sent) l := by
  apply may_bind
  apply may_readIdle (h.within List.prefix_rfl)
  intro timer
  apply may_readEnd h.consumed
  apply may_bind
  apply may_shutdown h.within_readEnd
  exact h.finish

theorem frameBackendToClient_serves {opened : Nat} {chunks : List Bytes}
    (h : Rested consumed sent l)
    (hchunks : ∀ chunk ∈ chunks, chunk ≠ [] ∧ chunk.length ≤ copyBuf)
    (hinput : consumed ++ chunks.flatten = input)
    (hserves : (pipeTo .leg forwardTunnelDown).Serves input ended (.done (.inl opened), l))
    : ∃ l', (pipeTo .leg forwardTunnelDown).Serves input ended (.done (.inl opened), l') ∧
        Rested input (sent ++ encodeFrames (chunks.map .data)) l' := by
  induction chunks generalizing consumed sent l with
  | nil =>
    simp only [List.flatten_nil, List.append_nil] at hinput
    subst hinput
    refine ⟨l, hserves, ?_⟩
    rw [List.map_nil, encodeFrames_nil, List.append_nil]
    exact h
  | cons chunk chunks ih =>
    rcases hchunks chunk List.mem_cons_self with ⟨hne, hlen⟩
    have hinput' : (consumed ++ chunk) ++ chunks.flatten = input := by simpa using hinput
    have hfront : consumed ++ chunk <+: input := by
      rw [← hinput']
      exact List.prefix_append _ _
    rcases serves_body hserves (may_bind_pure _ (may_frameBackendToClient h hne hlen hfront))
      with ⟨_, l', hserves', _, rfl, rfl, h'⟩
    rw [List.map_cons, encodeFrames_cons, ← List.append_assoc]
    exact ih h' (fun c hc => hchunks c (List.mem_cons_of_mem _ hc)) hinput' hserves'

theorem forwardTunnelDown_delivers {chunks : List Bytes} (rng : Rng)
    (hchunks : ∀ chunk ∈ chunks, chunk ≠ [] ∧ chunk.length ≤ copyBuf)
    : (pipeTo .leg forwardTunnelDown).Delivers chunks.flatten
        (encodeFrames (.chaff (Tunnel.initialChaff rng) :: chunks.map .data)) := by
  have hstart : ∀ ended, May .leg chunks.flatten ended
      (do
        let rng ← ask .rng
        sendFrame (.chaff (Tunnel.initialChaff rng))
        let opened ← ask .now
        return .inl opened : Sock IoError (Nat ⊕ Unit))
      (fun v l => v = .inl 0 ∧
        Rested [] (bucketCodec.encode (.chaff (Tunnel.initialChaff rng)) []) l)
      (.start false) := by
    intro ended
    apply may_bind
    apply may_still rfl rng (Rested.start.within List.nil_prefix)
    apply may_bind
    apply may_sendWire Rested.start.toRunning List.nil_prefix
    intro l h
    apply may_bind
    apply may_still rfl 0 (h.within List.nil_prefix)
    exact ⟨rfl, h⟩
  have hserves : ∀ ended, ∃ l,
      (pipeTo .leg forwardTunnelDown).Serves chunks.flatten ended (.done (.inl 0), l) ∧
      Rested chunks.flatten
        (encodeFrames (.chaff (Tunnel.initialChaff rng) :: chunks.map .data)) l := by
    intro ended
    rcases serves_start (hstart ended) with ⟨_, l, hserves, rfl, h⟩
    rw [encodeFrames_cons]
    exact frameBackendToClient_serves h hchunks (List.nil_append _) hserves
  constructor
  . rcases hserves false with ⟨l, hserves, h⟩
    exact serves_await hserves (((awaits_readIdle h).bind _).bind _)
  . rcases hserves true with ⟨l, hserves, h⟩
    rcases serves_body hserves (may_bind_pure _ (may_frameBackendToClient_end h))
      with ⟨_, l', hserves', v, rfl, hfinished⟩
    exact ⟨_, hserves', hfinished⟩

theorem may_ferryUpstreamToClient {target : Target} {chaffWindow opened : Nat} {frames : List Frame}
    (hfit : FramesFit frames) (hne : encodeFrames frames ≠ [])
    : May .leg (encodeFrames frames) ended
        (Sock.ferryUpstreamToClient target chaffWindow opened [] : Sock IoError (Bytes ⊕ Unit))
        (fun v l' => v = .inl [] ∧
          Rested (encodeFrames frames) (encodeFrames ((dataPayloads frames).map .data)) l')
        (.start false) := by
  have h : Rested (encodeFrames frames) [] _ := Rested.start.read _
  apply may_bind
  apply may_readIdle (Rested.start.within List.nil_prefix)
  intro timer
  apply may_read hne (by simp) rfl (by simp)
  apply may_bind
  apply (may_drainFrames hfit h List.prefix_rfl).mono
  rintro ⟨wrote, _⟩ l ⟨rfl, h', hflushed⟩
  apply may_bind
  apply (may_flushIf h' hflushed List.prefix_rfl).mono
  rw [Chain.emitted_reframe]
  intro _ l' h''
  exact ⟨rfl, h''⟩

theorem may_ferryUpstreamToClient_end {target : Target} {chaffWindow opened : Nat} {buf : Bytes}
    (h : Rested input sent l)
    : May .leg input true
        (Sock.ferryUpstreamToClient target chaffWindow opened buf : Sock IoError (Bytes ⊕ Unit))
        (fun _ => Ledger.Finished input sent) l := by
  apply may_bind
  apply may_readIdle (h.within List.prefix_rfl)
  intro timer
  apply may_readEnd h.consumed
  apply may_bind
  apply may_shutdown h.within_readEnd
  exact h.finish

theorem forwardChainDown_delivers {target : Target} {frames : List Frame} (hfit : FramesFit frames)
    : (pipeTo .leg (forwardChainDown target)).Delivers (encodeFrames frames)
        (encodeFrames ((dataPayloads frames).map .data)) := by
  have hstart : ∀ ended, May .leg (encodeFrames frames) ended
      (do
        let opened ← ask .now
        return .inl (opened, []) : Sock IoError ((Nat × Bytes) ⊕ Unit))
      (fun v l => v = .inl (0, []) ∧ l = .start false) (.start false) := by
    intro ended
    apply may_bind
    apply may_still rfl 0 (Rested.start.within List.nil_prefix)
    exact ⟨rfl, rfl⟩
  have hserves : ∀ ended, ∃ l,
      (pipeTo .leg (forwardChainDown target)).Serves (encodeFrames frames) ended
        (.done (.inl (0, [])), l) ∧
      Rested (encodeFrames frames) (encodeFrames ((dataPayloads frames).map .data)) l := by
    intro ended
    rcases serves_start (hstart ended) with ⟨_, _, hserves, rfl, rfl⟩
    by_cases hne : encodeFrames frames = []
    . have hframes : frames = [] := by
        rw [← framesOf_encodeFrames target hfit, hne, framesOf_wait (attempt_nil target .default)]
      subst hframes
      exact ⟨_, hserves, .start⟩
    . rcases serves_body hserves (may_bind_pure _ (may_ferryUpstreamToClient hfit hne))
        with ⟨_, l, hserves', _, rfl, rfl, h⟩
      exact ⟨l, hserves', h⟩
  constructor
  . rcases hserves false with ⟨l, hserves, h⟩
    exact serves_await hserves (((awaits_readIdle h).bind _).bind _)
  . rcases hserves true with ⟨l, hserves, h⟩
    rcases serves_body hserves (may_bind_pure _ (may_ferryUpstreamToClient_end h))
      with ⟨_, l', hserves', v, rfl, hfinished⟩
    exact ⟨_, hserves', hfinished⟩

end Relay

section Client

variable {ε : Type} [FromIo ε] {target : Target} {input consumed buf rest tail : Bytes}
  {ended : Bool} {l : Log}

theorem may_drainPayloads (hstatus : ((decoder target .default).drain (buf ++ rest)).2 = .ok tail)
    (h : ∃ sent, Rested consumed sent l) (hinput : consumed <+: input)
    : May .app input ended (Sock.drainPayloads target ⟨.default, buf⟩ : Sock ε VeilFrontDown)
        (fun down l' => (∃ buf', down = ⟨.default, buf'⟩ ∧
          ((decoder target .default).drain (buf' ++ rest)).2 = .ok tail) ∧
          ∃ sent, Rested consumed sent l') l := by
  induction buf using (decoder target .default).drain_induction generalizing l with
  | item buf frame buf' hbuf ih =>
    rw [StreamDecoder.drain_item _ (StreamDecoder.item_append _ rest hbuf)] at hstatus
    rw [drainPayloads_eq, VeilFrontDown.nextPayload_eq, hbuf]
    rcases h with ⟨sent, h⟩
    cases hdata : frame.isData with
    | true =>
      dsimp only
      rw [if_pos hdata]
      apply may_bind
      apply may_writeAll (h.within hinput) h.opened
      exact ih hstatus ⟨_, (h.write _).flush⟩
    | false =>
      have hrest := ih hstatus ⟨sent, h⟩
      rw [drainPayloads_eq] at hrest
      simpa [hdata] using hrest
  | wait buf hbuf =>
    rw [drainPayloads_eq, VeilFrontDown.nextPayload_eq, hbuf]
    exact ⟨⟨buf, rfl, hstatus⟩, h⟩
  | fail buf e hbuf =>
    -- A stream with an error in its first bytes has no good status
    rw [StreamDecoder.drain_fail _ (StreamDecoder.fail_append _ rest hbuf)] at hstatus
    cases hstatus

theorem may_ferryDown {bytes : Bytes}
    (hstatus : ((decoder target .default).drain (buf ++ (bytes ++ rest))).2 = .ok tail)
    (h : ∃ sent, Rested consumed sent l) (hne : bytes ≠ []) (hlen : bytes.length ≤ localBuf)
    (hinput : consumed ++ bytes <+: input)
    : May .app input ended (Sock.ferryDown target ⟨.default, buf⟩ : Sock ε (VeilFrontDown ⊕ Unit))
        (fun v l' => (∃ buf', v = .inl ⟨.default, buf'⟩ ∧
          ((decoder target .default).drain (buf' ++ rest)).2 = .ok tail) ∧
          ∃ sent, Rested (consumed ++ bytes) sent l') l := by
  apply may_bind
  apply (may_drainPayloads hstatus h ((List.prefix_append consumed bytes).trans hinput)).mono
  rintro _ l' ⟨⟨buf', rfl, hstatus'⟩, sent, h'⟩
  apply may_bind
  apply may_read hne (by simpa using hlen) h'.notEnd
  . rw [h'.consumed]
    exact hinput
  . rw [← List.append_assoc] at hstatus'
    exact ⟨⟨buf' ++ bytes, rfl, hstatus'⟩, sent, h'.read bytes⟩

theorem may_ferryDown_end (hstatus : ((decoder target .default).drain (buf ++ [])).2 = .ok tail)
    (h : ∃ sent, Rested input sent l)
    : May .app input true (Sock.ferryDown target ⟨.default, buf⟩ : Sock ε (VeilFrontDown ⊕ Unit))
        (fun v l' => v = .inr () ∧ ∃ sent, l'.Finished input sent) l := by
  apply may_bind
  apply (may_drainPayloads hstatus h List.prefix_rfl).mono
  rintro _ l' ⟨_, sent, h'⟩
  apply may_bind
  apply may_readEnd h'.consumed
  apply may_bind
  apply may_shutdown h'.within_readEnd
  exact ⟨rfl, sent, h'.finish⟩

theorem awaits_ferryDown (hstatus : ((decoder target .default).drain (buf ++ [])).2 = .ok tail)
    (h : ∃ sent, Rested input sent l)
    : Awaits .app input ended
        (Sock.ferryDown target ⟨.default, buf⟩ : Sock ε (VeilFrontDown ⊕ Unit))
        (fun l' => ∃ sent, l'.Settled input sent) l := by
  apply May.await
  apply (may_drainPayloads hstatus h List.prefix_rfl).mono
  rintro _ l' ⟨_, sent, h'⟩
  exact (awaits_read ⟨sent, h'.settled⟩).bind _

theorem ferryDown_serves (hstatus : ((decoder target .default).drain (buf ++ rest)).2 = .ok tail)
    (h : ∃ sent, Rested consumed sent l) (hinput : consumed ++ rest = input)
    (hserves : (pipeTo .app (openFerryDown target)).Serves input ended
      (.done (.inl ⟨.default, buf⟩), l))
    : ∃ buf' l', (pipeTo .app (openFerryDown target)).Serves input ended
          (.done (.inl ⟨.default, buf'⟩), l') ∧
        ((decoder target .default).drain (buf' ++ [])).2 = .ok tail ∧
        ∃ sent, Rested input sent l' := by
  induction hn : rest.length using Nat.strong_induction_on generalizing consumed buf rest l with
  | h n ih =>
    by_cases hrest : rest = []
    . subst hrest
      rw [List.append_nil] at hinput
      subst hinput
      exact ⟨buf, l, hserves, hstatus, h⟩
    . -- A read takes as much as its buffer can hold
      have hpos : 0 < localBuf := by decide
      have hlength := List.length_pos_iff.mpr hrest
      have hsplit := List.take_append_drop localBuf rest
      have hne : rest.take localBuf ≠ [] := by simp [hrest, hpos.ne']
      rw [← hsplit] at hstatus hinput
      have hinput' : (consumed ++ rest.take localBuf) ++ rest.drop localBuf = input := by
        simpa using hinput
      have hfront : consumed ++ rest.take localBuf <+: input := by
        rw [← hinput']
        exact List.prefix_append _ _
      have hlen : (rest.take localBuf).length ≤ localBuf := by simp
      rcases serves_body hserves (may_ferryDown hstatus h hne hlen hfront)
        with ⟨_, l', hserves', ⟨buf', rfl, hstatus'⟩, h'⟩
      refine ih (rest.drop localBuf).length ?_ hstatus' h' hinput' hserves' rfl
      rw [List.length_drop]
      omega

theorem openFerryDown_serves (ended : Bool) {frames : List Frame} (hfit : FramesFit frames)
    : ∃ buf l, (pipeTo .app (openFerryDown target)).Serves (encodeFrames frames) ended
          (.done (.inl ⟨.default, buf⟩), l) ∧
        ((decoder target .default).drain (buf ++ [])).2 = .ok [] ∧
        ∃ sent, Rested (encodeFrames frames) sent l := by
  have hstart : May .app (encodeFrames frames) ended
      (pure (.inl .new) : Sock ObfuscatorError (VeilFrontDown ⊕ Unit))
      (fun v l => v = .inl .new ∧ l = .start false) (.start false) := ⟨rfl, rfl⟩
  rcases serves_start hstart with ⟨_, _, hserves, rfl, rfl⟩
  have hstatus : ((decoder target .default).drain ([] ++ encodeFrames frames)).2 = .ok [] := by
    rw [List.nil_append, drain_encodeFrames target frames hfit]
  exact ferryDown_serves hstatus ⟨[], .start⟩ (List.nil_append _) hserves

theorem openFerryDown_ends (target : Target) {frames : List Frame} (hfit : FramesFit frames)
    : ∃ l, (pipeTo .app (openFerryDown target)).Serves (encodeFrames frames) true
          (.done (.inr (.ok ())), l) ∧
        l.Finished (encodeFrames frames) (dataPayloads frames).flatten := by
  rcases openFerryDown_serves true hfit with ⟨buf, l, hserves, hstatus, h⟩
  rcases serves_body hserves (may_ferryDown_end hstatus h) with ⟨_, l', hserves', rfl, sent, h'⟩
  refine ⟨l', hserves', h'.consumed, ?_, h'.closed⟩
  -- What was sent is what the half must have sent at its end
  have hcomplete : l'.sent = carried target l'.consumed :=
    ((openFerryDown_sound.forwards _ hserves'.reachable).complete h'.closed).2
  rw [h'.consumed, carried, framesOf_encodeFrames target hfit] at hcomplete
  exact hcomplete

theorem openFerryDown_delivers {frames : List Frame} (hfit : FramesFit frames)
    : (pipeTo .app (openFerryDown target)).Delivers (encodeFrames frames)
        (dataPayloads frames).flatten := by
  constructor
  . rcases openFerryDown_serves false hfit with ⟨buf, l, hserves, hstatus, h⟩
    rcases serves_await hserves (awaits_ferryDown hstatus h) with ⟨c, hc, hidle, sent, hsettled⟩
    have hprompt : c.2.flushed = carried target c.2.consumed :=
      openFerryDown_sound.prompt c hc.reachable hidle hsettled.direct
    rw [hsettled.consumed, hsettled.flushed, carried, framesOf_encodeFrames target hfit] at hprompt
    subst hprompt
    exact ⟨c, hc, hidle, hsettled⟩
  . rcases openFerryDown_ends target hfit with ⟨l, hserves, hfinished⟩
    exact ⟨_, hserves, hfinished⟩

end Client

section Path

variable {hops : List Target} {target : Target} {frames : List Frame} {input : Bytes}

theorem through_delivers {P : Pipe UInt8} (hfit : FramesFit frames)
    (hP : P.Delivers input (encodeFrames frames))
    : ((P.through (hops.map fun hop => pipeTo .leg (forwardChainDown hop))).comp
        (pipeTo .app (openFerryDown target))).Delivers input (dataPayloads frames).flatten := by
  induction hops generalizing P frames with
  | nil => exact hP.comp (openFerryDown_delivers hfit)
  | cons hop hops ih =>
    rw [← dataPayloads_map_data (dataPayloads frames)]
    apply ih (Chain.framesFit_data hfit)
    exact hP.comp (forwardChainDown_delivers hfit)

/--
Whatever the backend writes can get to the app: there is a run in which all of it arrives, and one
in which the end of the stream arrives after it.
-/
theorem downPath_delivers {chunks : List Bytes}
    (hchunks : ∀ chunk ∈ chunks, chunk ≠ [] ∧ chunk.length ≤ copyBuf)
    : (downPath hops target).Delivers chunks.flatten chunks.flatten := by
  have hchaff := Tunnel.length_initialChaff_le zeroRng
  have hfit : FramesFit (.chaff (Tunnel.initialChaff zeroRng) :: chunks.map .data) := by
    apply FramesFit.cons
    . intro frame hframe
      rcases List.mem_map.mp hframe with ⟨chunk, hchunk, rfl⟩
      exact (hchunks chunk hchunk).2.trans (by decide)
    . exact hchaff.trans (by decide)
  have hdelivers : (downPath hops target).Delivers chunks.flatten _ :=
    through_delivers hfit (forwardTunnelDown_delivers zeroRng hchunks)
  rw [dataPayloads_chaff, dataPayloads_map_data] at hdelivers
  exact hdelivers

end Path

end Veil
