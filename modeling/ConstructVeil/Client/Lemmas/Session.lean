import ConstructVeil.Client.Lemmas.Padding
import ConstructVeil.Client.Impl.Session

/-!
This module contains the verification of the wait without a timer: once the up half of a session
waits for local data only, nothing that is due is held back, and an idle session gets there.
-/

namespace Veil

namespace FrontChaffScheduler

theorem isDone_eq_true_iff {s : FrontChaffScheduler} {now : Nat}
    : s.isDone now = true
        ↔
      (s.frontWindowClosed = true ∨ ∃ start, s.connectionStart = some start ∧
        frontWindow ≤ now - start) ∧ s.chaffQueue.length ≤ s.queueIndex := by
  unfold isDone
  cases s.connectionStart with
  | none => simp
  | some start => simp

theorem isDone_of_le {s : FrontChaffScheduler} {now later : Nat} (h : s.isDone now = true)
    (hle : now ≤ later) : s.isDone later = true := by
  rw [isDone_eq_true_iff] at h ⊢
  rcases h with ⟨hclosed | ⟨start, hstart, hover⟩, hindex⟩
  . exact ⟨Or.inl hclosed, hindex⟩
  . exact ⟨Or.inr ⟨start, hstart, by omega⟩, hindex⟩

/--
`isDone` computes the end of the window anew while a poll goes by the flag, so a poll has to set the
flag whenever `isDone` holds.
-/
theorem Polled.of_isDone {s s' : FrontChaffScheduler} {now t : Nat} {frame : Option Frame}
    (h : Polled s t frame s') (hdone : s.isDone now = true) (hle : now ≤ t)
    : frame = none ∧ s'.isDone now = true := by
  rw [isDone_eq_true_iff] at hdone
  rcases hdone with ⟨hover, hindex⟩
  have hclosed : s'.frontWindowClosed = true := by
    rw [h.frontWindowClosed]
    rcases hover with hclosed | ⟨start, hstart, hover⟩
    . exact Or.inl hclosed
    . right
      rw [hstart, Option.getD_some]
      omega
  have hnone : frame = none := by
    cases frame with
    | none => rfl
    | some f =>
      rcases (h.chaff f rfl).2.2.2 with ⟨hlt, _⟩ | ⟨_, _, hopen⟩
      . omega
      . rw [hclosed] at hopen
        cases hopen
  refine ⟨hnone, ?_⟩
  rw [isDone_eq_true_iff, h.chaffQueue, (h.silent hnone).2.1]
  exact ⟨Or.inl hclosed, hindex⟩

/--
Outside of the cooldown and after the window a poll uses up the queue.
-/
theorem Polled.queueIndex_of_over {s s' : FrontChaffScheduler} {now start : Nat}
    {frame : Option Frame} (h : Polled s now frame s') (hcooldown : s.inCooldown now = false)
    (hstart : s.connectionStart = some start) (hover : start + frontWindow ≤ now)
    : min s.chaffQueue.length (s.queueIndex + 1) ≤ s'.queueIndex := by
  have hclosed : s'.frontWindowClosed = true := by
    rw [h.frontWindowClosed, hstart, Option.getD_some]
    exact Or.inr (by omega)
  cases frame with
  | none =>
    rcases h.silent rfl with ⟨_, hindex, hin | ⟨_, hlen⟩⟩
    . rw [hcooldown] at hin
      cases hin
    . omega
  | some f =>
    rcases (h.chaff f rfl).2.2.2 with ⟨_, hindex⟩ | ⟨_, _, hopen⟩
    . omega
    . rw [hclosed] at hopen
      cases hopen

end FrontChaffScheduler

namespace VeilFrontUp

variable {up : VeilFrontUp}

theorem waitsForLocal_eq_true_iff {now : Nat}
    : up.waitsForLocal now = true
        ↔
      up.strategy.payloadQueue.frames = [] ∧ up.strategy.chaffScheduler.isDone now = true := by
  simp [waitsForLocal, WriteStrategy.waitsForPayload, PayloadQueue.hasPending]

theorem nextWire_nil (h : up.strategy.payloadQueue.frames = []) (now : Nat)
    : ∃ frame scheduler, up.strategy.chaffScheduler.Polled now frame scheduler ∧
        up.nextWire now
          =
        (frame.map (up.codec.encode · []),
          { up with strategy.chaffScheduler := scheduler }) := by
  refine ⟨_, _, FrontChaffScheduler.polled_pollChaff _ now, ?_⟩
  unfold nextWire
  rw [WriteStrategy.nextFrame_nil now h]
  cases (up.strategy.chaffScheduler.pollChaff now).1 with
  | none => rfl
  | some frame => rfl

def nextWires (up : VeilFrontUp) : List Nat → List (Option Bytes) × VeilFrontUp
  | [] => ([], up)
  | now :: times =>
    let res := (up.nextWire now).2.nextWires times
    ((up.nextWire now).1 :: res.1, res.2)

theorem waitsForLocal_nextWire {now t : Nat} (h : up.waitsForLocal now = true) (hle : now ≤ t)
    : (up.nextWire t).1 = none ∧ (up.nextWire t).2.waitsForLocal now = true := by
  rw [waitsForLocal_eq_true_iff] at h
  rcases nextWire_nil h.1 t with ⟨frame, scheduler, hpolled, heq⟩
  rcases hpolled.of_isDone h.2 hle with ⟨hnone, hdone⟩
  rw [heq, hnone, waitsForLocal_eq_true_iff]
  exact ⟨rfl, h.1, hdone⟩

theorem waitsForLocal_nextWires {now : Nat} {times : List Nat} (h : up.waitsForLocal now = true)
    (hle : ∀ t ∈ times, now ≤ t)
    : (∀ wire ∈ (up.nextWires times).1, wire = none) ∧
      (up.nextWires times).2.waitsForLocal now = true := by
  induction times generalizing up with
  | nil => exact ⟨by simp [nextWires], h⟩
  | cons t times ih =>
    rw [List.forall_mem_cons] at hle
    rcases waitsForLocal_nextWire h hle.1 with ⟨hnone, hwaits⟩
    rcases ih hwaits hle.2 with ⟨hrest, hlast⟩
    simp only [nextWires, List.forall_mem_cons]
    exact ⟨⟨hnone, hrest⟩, hlast⟩

/--
An up half with nothing to send that knows when its window ends.
-/
structure Draining (up : VeilFrontUp) (start : Nat) (lastPayload : Option Nat) : Prop where
  frames : up.strategy.payloadQueue.frames = []
  connectionStart : up.strategy.chaffScheduler.connectionStart = some start
  lastPayloadAt : up.strategy.chaffScheduler.lastPayloadAt = lastPayload
  queue : up.strategy.chaffScheduler.chaffQueue.length = maxChaffQueue

theorem Draining.nextWire {start now : Nat} {lastPayload : Option Nat}
    (h : up.Draining start lastPayload) (hover : start + frontWindow ≤ now)
    (hcooldown : ∀ t, lastPayload = some t → t + payloadCooldown ≤ now)
    : (up.nextWire now).2.Draining start lastPayload ∧
      min maxChaffQueue (up.strategy.chaffScheduler.queueIndex + 1)
        ≤ (up.nextWire now).2.strategy.chaffScheduler.queueIndex := by
  rcases nextWire_nil h.frames now with ⟨frame, scheduler, hpolled, heq⟩
  have hnot : up.strategy.chaffScheduler.inCooldown now = false := by
    unfold FrontChaffScheduler.inCooldown
    rw [h.lastPayloadAt]
    cases lastPayload with
    | none => rfl
    | some t =>
      have := hcooldown t rfl
      simp only [decide_eq_false_iff_not]
      omega
  rw [heq, ← h.queue]
  refine ⟨⟨h.frames, ?_, ?_, ?_⟩, ?_⟩
  . rw [hpolled.connectionStart, h.connectionStart]
    rfl
  . exact hpolled.lastPayloadAt.trans h.lastPayloadAt
  . exact hpolled.chaffQueue ▸ h.queue
  . exact hpolled.queueIndex_of_over hnot h.connectionStart hover

theorem Draining.nextWires {start : Nat} {lastPayload : Option Nat} {times : List Nat}
    (h : up.Draining start lastPayload)
    (htimes : ∀ t ∈ times, start + frontWindow ≤ t ∧
      ∀ p, lastPayload = some p → p + payloadCooldown ≤ t)
    : (up.nextWires times).2.Draining start lastPayload ∧
      min maxChaffQueue (up.strategy.chaffScheduler.queueIndex + times.length)
        ≤ (up.nextWires times).2.strategy.chaffScheduler.queueIndex := by
  induction times generalizing up with
  | nil => exact ⟨h, Nat.min_le_right _ _⟩
  | cons t times ih =>
    rw [List.forall_mem_cons] at htimes
    rcases h.nextWire htimes.1.1 htimes.1.2 with ⟨hnext, hindex⟩
    rcases ih hnext htimes.2 with ⟨hlast, hrest⟩
    refine ⟨hlast, ?_⟩
    simp only [VeilFrontUp.nextWires, List.length_cons]
    omega

theorem Draining.waitsForLocal {start now : Nat} {lastPayload : Option Nat}
    (h : up.Draining start lastPayload) (hover : start + frontWindow ≤ now)
    (hindex : maxChaffQueue ≤ up.strategy.chaffScheduler.queueIndex)
    : up.waitsForLocal now = true := by
  rw [waitsForLocal_eq_true_iff, FrontChaffScheduler.isDone_eq_true_iff, h.queue]
  exact ⟨h.frames, Or.inr ⟨start, h.connectionStart, by omega⟩, hindex⟩

end VeilFrontUp

inductive UpCall where
  | queueLocal (data : Bytes)
  | nextWire (now : Nat)

/--
An up half with the time of the latest call, of the first call that found no payload and of the last
one that found some.
-/
structure UpRun where
  up : VeilFrontUp
  clock : Nat
  firstIdle : Option Nat
  lastPayload : Option Nat

def upRuns (rng : Nat → Rng) : Machine UpRun UpCall where
  init := ⟨.new rng, 0, none, none⟩
  step r call :=
    match call with
    | .queueLocal data => some { r with up := r.up.queueLocal data }
    | .nextWire now =>
      if now < r.clock then
        none
      else if r.up.strategy.payloadQueue.hasPending then
        some { r with up := (r.up.nextWire now).2, clock := now, lastPayload := some now }
      else
        some { r with
          up := (r.up.nextWire now).2, clock := now, firstIdle := some (r.firstIdle.getD now) }

namespace UpRun

structure Tracked (r : UpRun) : Prop where
  start : r.up.strategy.chaffScheduler.connectionStart = r.firstIdle
  last : r.up.strategy.chaffScheduler.lastPayloadAt = r.lastPayload
  queue : r.up.strategy.chaffScheduler.chaffQueue.length = maxChaffQueue

theorem tracked_step {rng : Nat → Rng} {r r' : UpRun} {call : UpCall} (hr : Tracked r)
    (h : (upRuns rng).step r call = some r') : Tracked r' := by
  cases call with
  | queueLocal data =>
    injection h with h
    rw [← h]
    exact ⟨hr.start, hr.last, hr.queue⟩
  | nextWire now =>
    simp only [upRuns] at h
    split at h
    . cases h
    . cases hqueue : r.up.strategy.payloadQueue.frames with
      | nil =>
        rcases VeilFrontUp.nextWire_nil hqueue now with ⟨frame, scheduler, hpolled, heq⟩
        simp only [PayloadQueue.hasPending, hqueue, heq, List.isEmpty_nil, Bool.not_true,
          Bool.false_eq_true, if_false] at h
        injection h with h
        rw [← h]
        refine ⟨?_, hpolled.lastPayloadAt.trans hr.last, hpolled.chaffQueue ▸ hr.queue⟩
        rw [← hr.start]
        exact hpolled.connectionStart
      | cons f rest =>
        simp only [PayloadQueue.hasPending, hqueue, List.isEmpty_cons, Bool.not_false, if_true,
          VeilFrontUp.nextWire, WriteStrategy.nextFrame_cons now hqueue] at h
        injection h with h
        rw [← h]
        exact ⟨hr.start, rfl, hr.queue⟩

theorem tracked {rng : Nat → Rng} {r : UpRun} (h : (upRuns rng).Reachable r) : Tracked r := by
  apply h.induction
  . exact ⟨rfl, rfl, FrontChaffScheduler.length_chaffQueue_new rng⟩
  . intro call r r' hr hcall
    exact tracked_step hr hcall

end UpRun

open VeilFrontUp in
/--
The wait without a timer is sound, i.e. nothing is due until there is local data again, and it is
reached: by an idle session with at most one call for each prepared CHAFF frame after the window.
-/
theorem wait_for_local_sound_and_reached {rng : Nat → Rng} {r : UpRun}
    (h : (upRuns rng).Reachable r)
    : (∀ now times, r.up.waitsForLocal now = true → (∀ t ∈ times, now ≤ t) →
        (∀ wire ∈ (r.up.nextWires times).1, wire = none) ∧
        ∀ later, now ≤ later → (r.up.nextWires times).2.waitsForLocal later = true) ∧
      (∀ s times now, r.up.strategy.payloadQueue.hasPending = false → r.firstIdle = some s →
        64 ≤ times.length →
        (∀ t ∈ times, s + fromSecs 3 ≤ t ∧ (∀ p, r.lastPayload = some p → p + fromMillis 5 ≤ t) ∧
          t ≤ now) →
        (r.up.nextWires times).2.waitsForLocal now = true) := by
  constructor
  . intro now times hwaits hle
    rcases waitsForLocal_nextWires hwaits hle with ⟨hnone, hlast⟩
    refine ⟨hnone, ?_⟩
    intro later hlater
    rw [waitsForLocal_eq_true_iff] at hlast ⊢
    exact ⟨hlast.1, FrontChaffScheduler.isDone_of_le hlast.2 hlater⟩
  . intro s times now hidle hs hlen htimes
    have htracked := UpRun.tracked h
    have hdraining : r.up.Draining s r.lastPayload := by
      refine ⟨?_, htracked.start.trans hs, htracked.last, htracked.queue⟩
      simpa [PayloadQueue.hasPending] using hidle
    have hdrained := hdraining.nextWires fun t ht => ⟨(htimes t ht).1, (htimes t ht).2.1⟩
    have hqueue : maxChaffQueue = 64 := rfl
    have hover : s + frontWindow ≤ now := by
      cases times with
      | nil => simp at hlen
      | cons t times =>
        have := htimes t List.mem_cons_self
        unfold frontWindow
        omega
    apply hdrained.1.waitsForLocal hover
    omega

/--
A session that sends one payload and is then polled until it waits.
-/
theorem wait_for_local_sound_and_reached_one_payload
    : ∃ r, (upRuns fun _ => zeroRng).Reachable r ∧ r.firstIdle = some (fromMillis 1) ∧
        r.lastPayload = some 0 ∧
        (r.up.nextWires (List.replicate 64 (fromSecs 4))).2.waitsForLocal (fromSecs 4) = true := by
  have hrun : ∃ r, (upRuns fun _ => zeroRng).run ⟨.new fun _ => zeroRng, 0, none, none⟩
      [.queueLocal [1, 2], .nextWire 0, .nextWire (fromMillis 1)] = some r ∧
      r.up.strategy.payloadQueue.hasPending = false ∧ r.firstIdle = some (fromMillis 1) ∧
      r.lastPayload = some 0 := ⟨_, rfl, rfl, rfl, rfl⟩
  rcases hrun with ⟨r, hrun, hidle, hfirst, hlast⟩
  have hreach : (upRuns fun _ => zeroRng).Reachable r := ⟨_, hrun⟩
  refine ⟨r, hreach, hfirst, hlast, ?_⟩
  apply (wait_for_local_sound_and_reached hreach).2 _ _ _ hidle hfirst
  . simp
  . intro t ht
    rw [List.eq_of_mem_replicate ht, hlast]
    simp [fromSecs, fromMillis]

end Veil
