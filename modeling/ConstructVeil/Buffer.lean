import ConstructVeil.Util.StreamLoop
import ConstructVeil.Protocol.Lemmas.Checked
import ConstructVeil.Relay.Lemmas.Gate
import ConstructVeil.Relay.Lemmas.Chain
import ConstructVeil.Client.Lemmas.Ferry
import ConstructVeil.Conn.Lemmas.Client
import ConstructVeil.Conn.Lemmas.Relay

/-!
This module contains the bound on the receive buffers. The loops that take frames off a stream are
shown to be loops in the sense of `StreamLoop`, and the frame decoder waits on short buffers only.
On sockets the same holds for the buffers that a connection carries from turn to turn.
-/

namespace Veil

open VeilFrontCodec

/--
The loops of a relay in small steps: `emit` says what to write for a frame, `read` what to do about
an event.
-/
def frameLoop {E : Type} (target : Target) (emit : Frame → Option Bytes)
    (read : List WriteOp → E → (List WriteOp × Bytes) ⊕ (List WriteOp × Except IoError Unit))
    : StreamLoop (decoder target .default) (List WriteOp × Bool) E
        (List WriteOp × Except IoError Unit) where
  handle := handleFrame emit
  waiting progress := (if progress.2 then progress.1 ++ [.flush] else progress.1, false)
  read progress _ event :=
    match read progress.1 event with
    | .inl (ops, chunk) => .inl ((ops, false), chunk)
    | .inr res => .inr res
  finish progress _ := (progress.1 ++ [.shutdown], .ok ())
  fail progress e := (progress.1, .error (.invalidData e))

def clientRead (ops : List WriteOp) (event : ReadEvent)
    : (List WriteOp × Bytes) ⊕ (List WriteOp × Except IoError Unit) :=
  match event with
  | .eof => .inr (ops ++ [.shutdown], .ok ())
  | .err e => .inr (ops, .error e)
  | .timeout => .inl (ops, [])
  | .data bytes _ => .inl (ops, bytes)

def upstreamRead (chaffWindow : Nat) (ops : List WriteOp) (tick : Tick)
    : (List WriteOp × Bytes) ⊕ (List WriteOp × Except IoError Unit) :=
  match tick.event with
  | .eof => .inr (ops ++ [.shutdown], .ok ())
  | .data bytes _ => .inl (ops, bytes)
  | .err e => .inr (ops, .error e)
  | .timeout =>
    if tick.elapsed < chaffWindow then
      .inl (ops ++ [.write (bucketCodec.encode (.chaff (Chain.randomChaff tick.rng)) [])], [])
    else
      .inl (ops, [])

def downLoop (target : Target)
    : StreamLoop (decoder target .default) (List WriteOp) ReadEvent
        (List WriteOp × Except ObfuscatorError VeilFrontDown) where
  handle ops frame := if frame.isData then ops ++ [.write frame.payload] else ops
  waiting ops := ops
  read ops buf event :=
    match event with
    | .eof => .inr (ops ++ [.shutdown], .ok ⟨.default, buf⟩)
    | .err e => .inr (ops, .error (.io e))
    | .timeout => .inl (ops, [])
    | .data bytes _ => .inl (ops, bytes)
  finish ops buf := (ops ++ [.shutdown], .ok ⟨.default, buf⟩)
  fail ops e := (ops, .error (.io (.invalidData e)))

section Loops

variable {E : Type} (target : Target) (emit : Frame → Option Bytes)
  (read : List WriteOp → E → (List WriteOp × Bytes) ⊕ (List WriteOp × Except IoError Unit))

theorem foldl_handleFrame_append (frames : List Frame) (ops : List WriteOp) (wrote : Bool)
    : frames.foldl (handleFrame emit) (ops, wrote)
        =
      (ops ++ (frames.foldl (handleFrame emit) ([], wrote)).1,
        (frames.foldl (handleFrame emit) ([], wrote)).2) := by
  induction frames generalizing ops wrote with
  | nil => simp
  | cons frame frames ih =>
    simp only [List.foldl_cons]
    cases hemit : emit frame with
    | some out =>
      simp only [handleFrame, hemit, List.nil_append]
      rw [ih, ih [.write out], List.append_assoc]
    | none =>
      simp only [handleFrame, hemit]
      rw [ih]

theorem run_frameLoop (ops : List WriteOp) (buf : Bytes) (events : List E)
    : (frameLoop target emit read).run ⟨(ops, false), buf, events⟩
        =
      match drainFrames target emit buf with
      | (out, .ok rest) => (frameLoop target emit read).run ⟨(ops ++ out, false), rest, events⟩
      | (out, .error e) => (ops ++ out, .error (.invalidData e)) := by
  rw [StreamLoop.run_eq_process, drainFrames]
  simp only [StreamDecoder.process_eq_drain, frameLoop]
  rw [foldl_handleFrame_append emit _ ops]
  generalize ((decoder target .default).drain buf).1.foldl (handleFrame emit) ([], false) = progress
  rcases progress with ⟨out, wrote⟩
  cases hstatus : ((decoder target .default).drain buf).2 with
  | error e => rfl
  | ok rest =>
    dsimp only
    -- the flush may come now, the loop is about to read
    have hwaiting := (frameLoop target emit read).run_waiting (ops ++ out, wrote) events
      ((decoder target .default).attempt_of_drain_ok hstatus) rfl
    cases wrote with
    | false => rfl
    | true =>
      simp only [frameLoop, ↓reduceIte, List.append_assoc] at hwaiting ⊢
      exact hwaiting.symm

theorem run_frameLoop_wait_nil {buf : Bytes} (ops : List WriteOp)
    (h : attempt target .default buf = .wait)
    : (frameLoop target emit read).run ⟨(ops, false), buf, []⟩ = (ops ++ [.shutdown], .ok ()) := by
  rw [StreamLoop.run_wait_nil _ h]
  rfl

theorem run_frameLoop_wait_cons {buf : Bytes} (ops : List WriteOp) (event : E) (events : List E)
    (h : attempt target .default buf = .wait)
    : (frameLoop target emit read).run ⟨(ops, false), buf, event :: events⟩
        =
      match read ops event with
      | .inl (ops, chunk) => (frameLoop target emit read).run ⟨(ops, false), buf ++ chunk, events⟩
      | .inr res => res := by
  rw [StreamLoop.run_wait_cons _ event events h]
  simp only [frameLoop, Bool.false_eq_true, ↓reduceIte]
  cases read ops event with
  | inl res => rfl
  | inr res => rfl

theorem wait_of_drainFrames {buf rest : Bytes} {out : List WriteOp}
    (h : drainFrames target emit buf = (out, .ok rest)) : attempt target .default rest = .wait := by
  rcases drainFrames_spec target emit buf with ⟨ops, hops, _, _⟩
  rw [h, Prod.mk.injEq] at hops
  apply attempt_of_drain_ok
  exact hops.2.symm

theorem run_clientLoop (ops : List WriteOp) (buf : Bytes) (reads : List ReadEvent)
    : (frameLoop target emit clientRead).run ⟨(ops, false), buf, reads⟩
        =
      (ops ++ (forwardFrames target emit buf reads).1,
        (forwardFrames target emit buf reads).2) := by
  rw [run_frameLoop, forwardFrames]
  rcases hdrain : drainFrames target emit buf with ⟨out, status⟩
  cases status with
  | error e => rfl
  | ok rest =>
    have hwait := wait_of_drainFrames target emit hdrain
    cases reads with
    | nil =>
      dsimp only
      rw [run_frameLoop_wait_nil _ _ _ _ hwait, List.append_assoc]
    | cons event reads =>
      have ih := fun ops buf => run_clientLoop ops buf reads
      dsimp only
      rw [run_frameLoop_wait_cons _ _ _ _ _ _ hwait]
      cases event with
      | eof => simp only [clientRead, List.append_assoc]
      | err e => rfl
      | timeout => simp only [clientRead, ih, List.append_nil, List.append_assoc]
      | data bytes hne => simp only [clientRead, ih, List.append_assoc]
termination_by reads.length

theorem run_upstreamLoop (chaffWindow : Nat) (ops : List WriteOp) {buf : Bytes} (ticks : List Tick)
    (h : attempt target .default buf = .wait)
    : (frameLoop target Chain.reframe (upstreamRead chaffWindow)).run ⟨(ops, false), buf, ticks⟩
        =
      (ops ++ (Chain.ferryUpstreamToClient.go target chaffWindow buf ticks).1,
        (Chain.ferryUpstreamToClient.go target chaffWindow buf ticks).2) := by
  induction ticks generalizing ops buf with
  | nil => rw [run_frameLoop_wait_nil _ _ _ _ h, Chain.ferryUpstreamToClient.go]
  | cons tick ticks ih =>
    rw [run_frameLoop_wait_cons _ _ _ _ _ _ h, Chain.ferryUpstreamToClient.go, upstreamRead]
    cases tick.event with
    | eof => rfl
    | err e => simp only [List.append_nil]
    | timeout =>
      by_cases helapsed : tick.elapsed < chaffWindow
      . simp only [helapsed, ↓reduceIte, List.append_nil]
        rw [ih _ h, List.append_assoc, List.singleton_append]
      . simp only [helapsed, ↓reduceIte, List.append_nil]
        rw [ih _ h]
    | data bytes hne =>
      dsimp only
      rw [run_frameLoop]
      rcases hdrain : drainFrames target Chain.reframe (buf ++ bytes) with ⟨out, status⟩
      cases status with
      | error e => rfl
      | ok rest =>
        dsimp only
        rw [ih _ (wait_of_drainFrames target Chain.reframe hdrain), List.append_assoc]

@[simp]
theorem waiting_downLoop (ops : List WriteOp) : (downLoop target).waiting ops = ops := rfl

theorem foldl_down (frames : List Frame) (ops : List WriteOp)
    : frames.foldl (downLoop target).handle ops = ops ++ (dataPayloads frames).map .write := by
  induction frames generalizing ops with
  | nil => simp
  | cons frame frames ih =>
    rw [List.foldl_cons, ih]
    cases hdata : frame.isData with
    | true => simp [downLoop, dataPayloads, hdata]
    | false => simp [downLoop, dataPayloads, hdata]

theorem run_downLoop (ops : List WriteOp) (buf : Bytes) (reads : List ReadEvent)
    : (downLoop target).run ⟨ops, buf, reads⟩
        =
      (ops ++ (ferryDown target ⟨.default, buf⟩ reads).1,
        (ferryDown target ⟨.default, buf⟩ reads).2) := by
  rw [StreamLoop.run_eq_process, StreamDecoder.process_eq_drain, foldl_down, ferryDown,
    VeilFrontDown.drainPayloads_eq]
  cases hstatus : ((decoder target .default).drain buf).2 with
  | error e => rfl
  | ok rest =>
    have hwait := attempt_of_drain_ok hstatus
    cases reads with
    | nil =>
      dsimp only
      rw [StreamLoop.run_wait_nil _ hwait]
      simp only [downLoop, Except.map, List.append_assoc]
    | cons event reads =>
      dsimp only
      rw [StreamLoop.run_wait_cons _ event reads hwait]
      cases event with
      | eof => simp [downLoop, Except.map]
      | err e => simp [downLoop, Except.map]
      | timeout =>
        change (downLoop target).run _ = _
        rw [run_downLoop]
        simp [Except.map]
      | data bytes hne =>
        change (downLoop target).run _ = _
        rw [run_downLoop]
        simp [Except.map, VeilFrontDown.feed]
termination_by reads.length

end Loops

def ReadEvent.AtMost (n : Nat) (event : ReadEvent) : Prop :=
  ∀ b, event.bytes = some b → b.length ≤ n

theorem length_wait_le {target : Target} {codec : VeilFrontCodec} (buf : Bytes)
    (h : (decoder target codec).attempt buf = .wait) : buf.length ≤ 22 + 2 * codec.maxPayload := by
  rw [decoder_attempt, attempt_eq_wait_iff] at h
  have := length_of_decodeOn_none h
  omega

theorem wireFrame_of_decodeOn {target : Target} {codec : VeilFrontCodec} {src rest : Bytes}
    {frame : Frame} (h : codec.decodeOn target src = (.ok (some frame), rest))
    : ∃ pad, src = wireFrame frame pad ++ rest ∧ 4 ≤ (wireFrame frame pad).length := by
  rcases decodeOn_eq_some_iff.mp h with ⟨pad, hsrc, _⟩
  have := length_leb128_pos frame.payload.length
  have := length_leb128_pos pad.length
  refine ⟨pad, hsrc, ?_⟩
  rw [length_wireFrame]
  omega

theorem four_mul_length_drain_le (target : Target) (codec : VeilFrontCodec) (buf : Bytes)
    : 4 * ((decoder target codec).drain buf).1.length ≤ buf.length := by
  apply StreamDecoder.mul_length_drain_le
  intro buf frame rest hattempt
  rw [decoder_attempt, attempt_eq_item_iff] at hattempt
  rcases wireFrame_of_decodeOn hattempt with ⟨pad, hbuf, hlen⟩
  rw [hbuf, List.length_append]
  omega

section Bounds

variable {target : Target} {n : Nat}

theorem readsAtMost_frameLoop {E : Type} {emit : Frame → Option Bytes}
    {read : List WriteOp → E → (List WriteOp × Bytes) ⊕ (List WriteOp × Except IoError Unit)}
    {events : List E}
    (h : ∀ event ∈ events, ∀ ops ops' chunk, read ops event = .inl (ops', chunk) → chunk.length ≤ n)
    : (frameLoop target emit read).ReadsAtMost n events := by
  intro event hevent acc buf acc' chunk hread
  simp only [frameLoop] at hread
  split at hread
  . next ops chunk' hstep =>
    injection hread with hread
    injection hread with _ hchunk
    rw [← hchunk]
    exact h event hevent _ _ _ hstep
  . cases hread

theorem length_of_clientRead {ops ops' : List WriteOp} {event : ReadEvent} {chunk : Bytes}
    (hevent : event.AtMost n) (h : clientRead ops event = .inl (ops', chunk))
    : chunk.length ≤ n := by
  cases event with
  | eof => cases h
  | err e => cases h
  | timeout =>
    cases h
    apply Nat.zero_le
  | data bytes hne =>
    cases h
    apply hevent
    rfl

theorem length_of_upstreamRead {chaffWindow : Nat} {ops ops' : List WriteOp} {tick : Tick}
    {chunk : Bytes} (hevent : tick.event.AtMost n)
    (h : upstreamRead chaffWindow ops tick = .inl (ops', chunk)) : chunk.length ≤ n := by
  rcases tick with ⟨elapsed, event, rng⟩
  cases event with
  | eof => cases h
  | err e => cases h
  | timeout =>
    simp only [upstreamRead] at h
    split at h
    . cases h
      apply Nat.zero_le
    . cases h
      apply Nat.zero_le
  | data bytes hne =>
    cases h
    apply hevent
    rfl

theorem runsWithin_clientLoop (emit : Frame → Option Bytes) {buf : Bytes} {reads : List ReadEvent}
    (hreads : ∀ event ∈ reads, event.AtMost n) (hbuf : buf.length ≤ 22 + 2 * defaultMaxPayload + n)
    : (frameLoop target emit clientRead).RunsWithin ⟨([], false), buf, reads⟩
        (forwardFrames target emit buf reads) (22 + 2 * defaultMaxPayload + n) := by
  constructor
  . rw [run_clientLoop]
    rfl
  . intro s' hreach
    apply StreamLoop.length_buf_le _ length_wait_le _ hbuf hreach
    apply readsAtMost_frameLoop
    intro event hevent ops ops' chunk
    apply length_of_clientRead (hreads event hevent)

theorem runsWithin_upstreamLoop (chaffWindow : Nat) {ticks : List Tick}
    (hreads : ∀ tick ∈ ticks, tick.event.AtMost n)
    : (frameLoop target Chain.reframe (upstreamRead chaffWindow)).RunsWithin
        ⟨([], false), [], ticks⟩
        (Chain.ferryUpstreamToClient target chaffWindow ticks)
          (22 + 2 * defaultMaxPayload + n) := by
  constructor
  . rw [run_upstreamLoop _ _ _ _ (attempt_nil target .default)]
    rfl
  . intro s' hreach
    apply StreamLoop.length_buf_le _ length_wait_le _ (Nat.zero_le _) hreach
    apply readsAtMost_frameLoop
    intro tick htick ops ops' chunk
    apply length_of_upstreamRead (hreads tick htick)

theorem runsWithin_downLoop {reads : List ReadEvent} (hreads : ∀ event ∈ reads, event.AtMost n)
    : (downLoop target).RunsWithin ⟨[], [], reads⟩ (ferryDown target .new reads)
        (22 + 2 * defaultMaxPayload + n) := by
  constructor
  . rw [run_downLoop]
    rfl
  . intro s' hreach
    apply StreamLoop.length_buf_le _ length_wait_le _ (Nat.zero_le _) hreach
    intro event hevent acc buf acc' chunk hread
    cases event with
    | eof => cases hread
    | err e => cases hread
    | timeout =>
      cases hread
      apply Nat.zero_le
    | data bytes hne =>
      cases hread
      apply hreads _ hevent
      rfl

/--
What the gate hands over to a tunnel has come in with at most two reads, and the second only follows
a first that left the decoder waiting.
-/
theorem length_leftover_le {env : GateEnv} {now₁ now₂ : UInt64} {stream rest : List ReadEvent}
    {leftover : Bytes} (hreads : ∀ event ∈ stream, event.AtMost n)
    (h : gateStream env now₁ now₂ stream = (.ok (.tunnel leftover), rest))
    : leftover.length ≤ 22 + 2 * defaultMaxPayload + n ∧ ∀ event ∈ rest, event.AtMost n := by
  have hshort : ∀ {buf : Bytes} {now : UInt64},
      tryDecodeAuth env buf now = some (.tunnel leftover) → leftover.length ≤ buf.length := by
    intro buf now hdecision
    rw [tryDecodeAuth_eq_tunnel_iff] at hdecision
    rcases hdecision with ⟨frame, pad, hbuf, _⟩
    rw [hbuf, List.length_append]
    omega
  rcases gateStream_tunnel_cases h with ⟨b, hb, rfl, hdecision⟩
    | ⟨b, hb, b', hb', rfl, hfirst, hdecision⟩
  . rcases List.forall_mem_cons.mp hreads with ⟨hread, hrest⟩
    have := hread b rfl
    have := hshort hdecision
    exact ⟨by omega, hrest⟩
  . rcases List.forall_mem_cons.mp hreads with ⟨_, hreads⟩
    rcases List.forall_mem_cons.mp hreads with ⟨hread, hrest⟩
    have := hread b' rfl
    have := hshort hdecision
    rw [← incomplete_iff, Incomplete] at hfirst
    have hwait := length_of_decodeOn_none hfirst
    simp only [VeilFrontCodec.default] at hwait
    rw [List.length_append] at this
    exact ⟨by omega, hrest⟩

end Bounds

section Sockets

open Sock

/--
Sockets with reads of at most `n` bytes. Everything else can be answered in any way.
-/
def ReadsBriefly (n : Nat) : Handler SockAction Unit := fun _ _ action answer _ =>
  match action with
  | .read _ _ => answer.AtMost n
  | _ => True

/--
On such sockets the program ends with `post`, unless it throws.
-/
def Leads {ε α : Type} (n : Nat) (post : α → Prop) (x : Sock ε α) : Prop :=
  Meets (ReadsBriefly n) (fun _ _ _ => True) x (fun a _ => post a) (fun _ _ => True) ()

section Rules

variable {ε α β σ : Type} {n : Nat} {post post' : α → Prop} {x : Sock ε α}

theorem leads_of_forall (h : ∀ a, post a) : Leads n post x :=
  meets_of_forall (fun _ _ _ => trivial) (fun a _ => h a) fun _ _ => trivial

theorem Leads.bind {f : α → Sock ε β} {post' : β → Prop} (hx : Leads n post x)
    (hf : ∀ a, post a → Leads n post' (f a)) : Leads n post' (x >>= f) :=
  holds_bind (Meets.mono hx (fun a _ => hf a) fun _ _ _ => trivial)

theorem leads_bind {f : α → Sock ε β} {post' : β → Prop} (hf : ∀ a, Leads n post' (f a))
    : Leads n post' (x >>= f) :=
  (leads_of_forall fun _ => trivial : Leads n (fun _ => True) x).bind fun a _ => hf a

theorem leads_read (limit timer : Option Nat)
    : Leads n (ReadEvent.AtMost n) (ask (.read limit timer) : Sock ε ReadEvent) :=
  holds_ask trivial fun _ _ hevent => hevent

theorem leads_loop {start : Sock ε (σ ⊕ α)} {body : σ → Sock ε (σ ⊕ α)} {J : σ → Prop} {s : σ}
    (hstart : Leads n (Sum.elim J fun _ => True) start)
    (hbody : ∀ s, J s → Leads n (Sum.elim J fun _ => True) (body s))
    (h : (Sock.loop start body).Reaches (ReadsBriefly n) () (.done (.inl s), ())) : J s := by
  have hturn : ∀ x : Sock ε (σ ⊕ α), Leads n (Sum.elim J fun _ => True) x →
      Meets (ReadsBriefly n) (fun _ _ _ => True) x
        (Sum.elim (fun s _ => J s) fun _ _ => True) (fun _ _ => True) () := by
    intro x hx
    apply Meets.mono hx
    . intro a _ ha
      cases a with
      | inl s => exact ha
      | inr a => trivial
    . exact fun _ _ _ => trivial
  exact loop_meets (hturn _ hstart) (fun s _ hs => hturn _ (hbody s hs)) h

end Rules

variable {ε : Type} [FromIo ε] {target : Target} {n : Nat}

theorem drainFrames_leads (emit : Frame → Option Bytes) (buf : Bytes)
    : Leads n (fun res => (decoder target .default).attempt res.2 = .wait)
        (Sock.drainFrames target emit buf : Sock ε (Bool × Bytes)) := by
  have hloop : ∀ wrote, Leads n (fun res => (decoder target .default).attempt res.2 = .wait)
      ((decoder target .default).processM (Sock.handleFrame emit)
        (fun e => throw (FromIo.fromIo (.invalidData e))) wrote buf : Sock ε (Bool × Bytes)) := by
    induction buf using (decoder target .default).drain_induction with
    | item buf frame rest hbuf ih =>
      intro wrote
      rw [StreamDecoder.processM_item _ hbuf]
      exact leads_bind ih
    | wait buf hbuf =>
      intro wrote
      rw [StreamDecoder.processM_wait _ hbuf]
      exact hbuf
    | fail buf e hbuf =>
      intro wrote
      rw [StreamDecoder.processM_fail _ hbuf]
      trivial
  exact hloop false

theorem drainPayloads_leads (buf : Bytes)
    : Leads n
        (fun down => down.codec = .default ∧ (decoder target .default).attempt down.buf = .wait)
        (Sock.drainPayloads target ⟨.default, buf⟩ : Sock ε VeilFrontDown) := by
  induction buf using (decoder target .default).drain_induction with
  | item buf frame rest hbuf ih =>
    rw [drainPayloads_eq, VeilFrontDown.nextPayload_eq, hbuf]
    cases hdata : frame.isData with
    | true =>
      dsimp only
      rw [if_pos hdata]
      exact leads_bind fun _ => ih
    | false =>
      rw [drainPayloads_eq] at ih
      simpa [hdata] using ih
  | wait buf hbuf =>
    rw [drainPayloads_eq, VeilFrontDown.nextPayload_eq, hbuf]
    exact ⟨rfl, hbuf⟩
  | fail buf e hbuf =>
    rw [drainPayloads_eq, VeilFrontDown.nextPayload_eq, hbuf]
    trivial

/--
Whatever follows a wait, one read has been added to the buffer at most.
-/
theorem length_after_wait {rest : Bytes} {event : ReadEvent} (hevent : event.AtMost n)
    (hwait : (decoder target .default).attempt rest = .wait)
    : (rest ++ event.bytes.getD []).length ≤ 22 + 2 * defaultMaxPayload + n := by
  have hrest := length_wait_le rest hwait
  rw [List.length_append]
  cases event with
  | data bytes hne => exact Nat.add_le_add hrest (hevent bytes rfl)
  | _ => exact Nat.add_le_add hrest (Nat.zero_le n)

theorem forwardFrames_leads (emit : Frame → Option Bytes) (buf : Bytes)
    : Leads n (Sum.elim (fun buf => buf.length ≤ 22 + 2 * defaultMaxPayload + n) fun _ => True)
        (Sock.forwardFrames target emit buf : Sock ε (Bytes ⊕ Unit)) := by
  apply (drainFrames_leads emit buf).bind
  rintro ⟨wrote, rest⟩ hwait
  apply leads_bind
  intro _
  apply (leads_read none none).bind
  intro event hevent
  have hlength := length_after_wait hevent hwait
  cases event with
  | eof => exact leads_bind fun _ => trivial
  | err e => trivial
  | timeout =>
    rw [ReadEvent.bytes, Option.getD_none, List.append_nil] at hlength
    exact hlength
  | data bytes hne => exact hlength

theorem ferryUpstreamToClient_leads (chaffWindow opened : Nat) {buf : Bytes}
    (hwait : (decoder target .default).attempt buf = .wait)
    : Leads n (Sum.elim (fun buf => (decoder target .default).attempt buf = .wait) fun _ => True)
        (Sock.ferryUpstreamToClient target chaffWindow opened buf : Sock ε (Bytes ⊕ Unit)) := by
  apply leads_bind
  intro event
  cases event with
  | eof => exact leads_bind fun _ => trivial
  | err e => trivial
  | timeout => exact leads_bind fun _ => leads_bind fun _ => hwait
  | data bytes hne =>
    apply (drainFrames_leads Chain.reframe (buf ++ bytes)).bind
    rintro ⟨wrote, rest⟩ hwait
    exact leads_bind fun _ => hwait

theorem ferryDown_leads {down : VeilFrontDown} (hcodec : down.codec = .default)
    : Leads n (Sum.elim (fun down => down.codec = .default ∧
          down.buf.length ≤ 22 + 2 * defaultMaxPayload + n) fun _ => True)
        (Sock.ferryDown target down : Sock ε (VeilFrontDown ⊕ Unit)) := by
  rcases down with ⟨codec, buf⟩
  dsimp only at hcodec
  subst hcodec
  apply (drainPayloads_leads buf).bind
  rintro ⟨codec, rest⟩ ⟨hcodec, hwait⟩
  apply (leads_read (some localBuf) none).bind
  intro event hevent
  have hlength := length_after_wait hevent hwait
  cases event with
  | eof => exact leads_bind fun _ => trivial
  | err e => trivial
  | timeout =>
    rw [ReadEvent.bytes, Option.getD_none, List.append_nil] at hlength
    exact ⟨hcodec, hlength⟩
  | data bytes hne => exact ⟨hcodec, hlength⟩

section Connection

variable {τ : Type} {copier : Copier τ} {cfg : RelayConfig} {exporter : Except String (ByteArr 32)}

def Route.buf : Route τ → Bytes
  | .tunnel buf => buf
  | .chain buf => buf
  | .site _ => []

theorem gateable_briefly
    : Gateable (ReadsBriefly n) (fun _ _ _ => True) target
        (fun _ buf _ => buf.length ≤ 22 + 2 * defaultMaxPayload + n)
        (fun buf _ => buf.length ≤ 22 + 2 * defaultMaxPayload + n) fun _ _ => True where
  read _ _ _ := trivial
  clock _ := trivial
  data _ hwait hevent := length_after_wait hevent hwait
  other _ _ _ := trivial
  tick hB _ := hB
  goOn hA := hA
  stop _ := trivial

theorem openConnection_leads
    : Leads n (Sum.elim (fun route => route.buf.length ≤ 22 + 2 * defaultMaxPayload + n)
          fun _ => True) (openConnection copier cfg exporter) := by
  apply openConnection_meets gateable_briefly (Nat.zero_le _)
  . exact fun _ _ => trivial
  . intro now frame buf leftover _ hframe _ hbuf
    have hleftover := Nat.le_of_lt ((decoder cfg.target .default).item_lt hframe)
    rw [dispatchGateResult]
    split
    . exact leads_bind fun _ => hleftover.trans hbuf
    . apply leads_bind
      intro res
      cases res with
      | error e => trivial
      | ok u => exact hleftover.trans hbuf
  . intro bytes _ _
    rw [dispatchGateResult]
    split
    . trivial
    . apply leads_bind
      intro res
      cases res with
      | error e => trivial
      | ok u =>
        apply holds_tryCatch
        apply holds_bind
        apply meets_of_forall (fun _ _ _ => trivial)
        . exact fun _ _ => Nat.zero_le _
        . exact fun _ _ => trivial

theorem forwardRoute_leads (emit : Frame → Option Bytes) (buf : Bytes) {goOn : Bytes → Route τ}
    (hgoOn : ∀ buf, (goOn buf).buf = buf)
    : Leads n (Sum.elim (fun route => route.buf.length ≤ 22 + 2 * defaultMaxPayload + n)
          fun _ => True)
        ((Sock.forwardFrames target emit buf : Sock HandlerError (Bytes ⊕ Unit)) >>= fun next =>
          pure (next.map goOn id)) := by
  apply (forwardFrames_leads emit buf).bind
  intro next hnext
  cases next with
  | inl buf =>
    refine holds_pure ?_
    rw [Sum.map_inl, Sum.elim_inl, hgoOn]
    exact hnext
  | inr u => trivial

theorem upTurn_leads (route : Route τ)
    : Leads n (Sum.elim (fun route => route.buf.length ≤ 22 + 2 * defaultMaxPayload + n)
          fun _ => True) (upTurn copier cfg route) := by
  cases route with
  | tunnel buf => exact forwardRoute_leads _ buf fun _ => rfl
  | chain buf => exact forwardRoute_leads _ buf fun _ => rfl
  | site state =>
    apply Prog.meets_bind.mpr
    apply Prog.meets_of_forall (fun _ _ _ => trivial)
    intro res _
    rcases res with e | next | u
    . trivial
    . exact Nat.zero_le _
    . trivial

theorem handleConnection_bounded {route : Route τ}
    (h : (handleConnection copier cfg exporter).Reaches (ReadsBriefly n) ()
      (.done (.inl route), ()))
    : route.buf.length ≤ 22 + 2 * defaultMaxPayload + n :=
  leads_loop (J := fun route => route.buf.length ≤ 22 + 2 * defaultMaxPayload + n)
    openConnection_leads (fun route _ => upTurn_leads route) h

/--
The relay drains what it gets from the next one at once, so between its turns there is less.
-/
theorem forwardChainDown_bounded {opened : Nat} {buf : Bytes}
    (h : (forwardChainDown target).Reaches (ReadsBriefly n) () (.done (.inl (opened, buf)), ()))
    : buf.length ≤ 22 + 2 * defaultMaxPayload := by
  have hwait : (decoder target .default).attempt buf = .wait := by
    refine leads_loop (J := fun x => (decoder target .default).attempt x.2 = .wait) ?_ ?_ h
    . exact leads_bind fun _ => attempt_nil target .default
    . rintro ⟨opened, buf⟩ hwait
      apply (ferryUpstreamToClient_leads idleChaffWindow opened hwait).bind
      intro next hnext
      cases next with
      | inl buf => exact hnext
      | inr u => trivial
  exact length_wait_le buf hwait

theorem openFerryDown_bounded {down : VeilFrontDown}
    (h : (openFerryDown target).Reaches (ReadsBriefly n) () (.done (.inl down), ()))
    : down.buf.length ≤ 22 + 2 * defaultMaxPayload + n := by
  have hdown : down.codec = .default ∧ down.buf.length ≤ 22 + 2 * defaultMaxPayload + n := by
    refine leads_loop (J := fun down => down.codec = .default ∧
      down.buf.length ≤ 22 + 2 * defaultMaxPayload + n) ?_ ?_ h
    . exact ⟨rfl, Nat.zero_le _⟩
    . intro down hdown
      exact ferryDown_leads hdown.1
  exact hdown.2

end Connection

end Sockets

/--
A peer cannot make a receiver hold more than one frame of maximal size and one read. The decoder
waits on short buffers only, takes exactly the frames it returns, and does not fault; so a drain is
over after at most a quarter as many frames as there are bytes, and the buffers of all loops stay
bounded: the relay towards the backend and the next relay, from what the gate leaves over on, the
relay towards its client, and the client. So do the buffers on sockets, whatever their answers are.
-/
theorem receive_buffers_bounded
    : (∀ (target : Target) (codec : VeilFrontCodec) (src : Bytes),
        (∀ rest, codec.decodeOn target src = (.ok none, rest) →
          src.length < 22 + 2 * codec.maxPayload) ∧
        (∀ frame rest, codec.decodeOn target src = (.ok (some frame), rest) →
          ∃ pad, src = wireFrame frame pad ++ rest ∧ 4 ≤ (wireFrame frame pad).length) ∧
        Raw.decode target codec src = .ok (codec.decodeOn target src) ∧
        4 * ((decoder target codec).drain src).1.length ≤ src.length) ∧
      (∀ (n : Nat) (env : GateEnv) (now₁ now₂ : UInt64) (stream rest : List ReadEvent)
        (leftover : Bytes),
        (∀ event ∈ stream, event.AtMost n) →
        gateStream env now₁ now₂ stream = (.ok (.tunnel leftover), rest) →
          (frameLoop env.target Tunnel.backendPayload clientRead).RunsWithin
            ⟨([], false), leftover, rest⟩ (Tunnel.deframeClientToBackend env.target leftover rest)
            (22 + 2 * defaultMaxPayload + n) ∧
          (frameLoop env.target Chain.reframe clientRead).RunsWithin
            ⟨([], false), leftover, rest⟩ (Chain.ferryClientToUpstream env.target leftover rest)
            (22 + 2 * defaultMaxPayload + n)) ∧
      (∀ (n : Nat) (target : Target) (chaffWindow : Nat) (ticks : List Tick),
        (∀ tick ∈ ticks, tick.event.AtMost n) →
          (frameLoop target Chain.reframe (upstreamRead chaffWindow)).RunsWithin
            ⟨([], false), [], ticks⟩ (Chain.ferryUpstreamToClient target chaffWindow ticks)
            (22 + 2 * defaultMaxPayload + n)) ∧
      (∀ (n : Nat) (target : Target) (reads : List ReadEvent),
        (∀ event ∈ reads, event.AtMost n) →
          (downLoop target).RunsWithin ⟨[], [], reads⟩ (ferryDown target .new reads)
            (22 + 2 * defaultMaxPayload + n)) ∧
      (∀ (n : Nat) (τ : Type) (copier : Copier τ) (cfg : RelayConfig)
        (exporter : Except String (ByteArr 32)) (route : Route τ),
        (handleConnection copier cfg exporter).Reaches (ReadsBriefly n) ()
          (.done (.inl route), ()) → route.buf.length ≤ 22 + 2 * defaultMaxPayload + n) ∧
      (∀ (n : Nat) (target : Target) (opened : Nat) (buf : Bytes),
        (forwardChainDown target).Reaches (ReadsBriefly n) () (.done (.inl (opened, buf)), ()) →
          buf.length ≤ 22 + 2 * defaultMaxPayload) ∧
      (∀ (n : Nat) (target : Target) (down : VeilFrontDown),
        (openFerryDown target).Reaches (ReadsBriefly n) () (.done (.inl down), ()) →
          down.buf.length ≤ 22 + 2 * defaultMaxPayload + n) := by
  refine ⟨?_, ?_, ?_, ?_, ?_, ?_, ?_⟩
  . intro target codec src
    refine ⟨?_, ?_, ?_, ?_⟩
    . intro rest h
      exact length_of_decodeOn_none h
    . intro frame rest h
      exact wireFrame_of_decodeOn h
    . apply Raw.decode_eq_ok
    . apply four_mul_length_drain_le
  . intro n env now₁ now₂ stream rest leftover hreads h
    rcases length_leftover_le hreads h with ⟨hleftover, hrest⟩
    constructor
    . apply runsWithin_clientLoop _ hrest hleftover
    . apply runsWithin_clientLoop _ hrest hleftover
  . intro n target chaffWindow ticks hreads
    apply runsWithin_upstreamLoop _ hreads
  . intro n target reads hreads
    apply runsWithin_downLoop hreads
  . intro n τ copier cfg exporter route h
    exact handleConnection_bounded h
  . intro n target opened buf h
    exact forwardChainDown_bounded h
  . intro n target down h
    exact openFerryDown_bounded h

theorem receive_buffers_bounded_three_bytes
    : ∃ down, (openFerryDown .bits64).Reaches (ReadsBriefly 3) () (.done (.inl down), ()) ∧
        down.buf = [wireVer, frameTypeData, 3] ∧
        down.buf.length ≤ 22 + 2 * defaultMaxPayload + 3 := by
  have hdrain : (Sock.drainPayloads .bits64 .new : Sock ObfuscatorError VeilFrontDown)
      = pure .new := by
    rw [drainPayloads_eq, VeilFrontDown.new, VeilFrontDown.nextPayload_eq, decoder_attempt,
      attempt_nil]
  have hread : (openFerryDown .bits64).Reaches (ReadsBriefly 3) ()
      (Sock.turn (Sock.ferryDown .bits64 .new), ()) :=
    .single (.again VeilFrontDown.new ())
  rw [Sock.ferryDown, hdrain] at hread
  have hbrief : (ReadEvent.data [wireVer, frameTypeData, 3] (by simp)).AtMost 3 := by
    rintro bytes ⟨⟩
    decide
  have hreach : (openFerryDown .bits64).Reaches (ReadsBriefly 3) ()
      (.done (.inl ⟨.default, [wireVer, frameTypeData, 3]⟩), ()) :=
    hread.act _ hbrief
  exact ⟨_, hreach, rfl, receive_buffers_bounded.2.2.2.2.2.2 3 .bits64 _ hreach⟩

end Veil
