import ConstructVeil.Util.Machine
import ConstructVeil.Client.Impl.Padding

/-!
This module contains the verification of the padding of the client over whole runs: chaff never gets
in the way of payload, is front-loaded, and comes to an end, after which the client waits for local
data without a timer.
-/

namespace Veil

namespace FrontChaffScheduler

structure Polled (s : FrontChaffScheduler) (now : Nat) (frame : Option Frame)
    (s' : FrontChaffScheduler) : Prop where
  chaffQueue : s'.chaffQueue = s.chaffQueue
  lastPayloadAt : s'.lastPayloadAt = s.lastPayloadAt
  payloadBytes : s'.payloadBytes = s.payloadBytes
  connectionStart : s'.connectionStart = some (s.connectionStart.getD now)
  frontWindowClosed : s'.frontWindowClosed = true
    ↔ s.frontWindowClosed = true ∨ frontWindow ≤ now - s.connectionStart.getD now
  silent : frame = none → s'.chaffBytes = s.chaffBytes ∧ s'.queueIndex = s.queueIndex ∧
    (s.inCooldown now = true ∨
      (s'.frontWindowClosed = true ∧ s.chaffQueue.length ≤ s.queueIndex))
  chaff : ∀ f, frame = some f → IsChaff f ∧ s.inCooldown now = false ∧
    s'.chaffBytes = s.chaffBytes + f.payload.length ∧
    ((s.queueIndex < s.chaffQueue.length ∧ s'.queueIndex = s.queueIndex + 1) ∨
      (s.chaffQueue.length ≤ s.queueIndex ∧ s'.queueIndex = s.queueIndex ∧
        s'.frontWindowClosed = false))

theorem length_chaffQueue_new (rng : Nat → Rng) : (new rng).chaffQueue.length = maxChaffQueue := by
  simp [new, generateChaffQueue]

theorem frontWindowClosed_updateWindow (s : FrontChaffScheduler) (now : Nat)
    : (s.updateWindow now).frontWindowClosed = true
        ↔
      s.frontWindowClosed = true ∨ frontWindow ≤ now - s.connectionStart.getD now := by
  simp [updateWindow]

theorem shouldInjectChaff_eq_true_iff (s : FrontChaffScheduler) (now : Nat)
    : s.shouldInjectChaff now = true
        ↔
      s.inCooldown now = false ∧
        (s.frontWindowClosed = true → s.queueIndex < s.chaffQueue.length) := by
  unfold shouldInjectChaff
  cases s.inCooldown now with
  | true => simp
  | false =>
    cases s.frontWindowClosed with
    | true => simp
    | false => simp

theorem polled_silent {s : FrontChaffScheduler} {now : Nat}
    (h : (s.updateWindow now).shouldInjectChaff now = false)
    : Polled s now none (s.updateWindow now) where
  chaffQueue := rfl
  lastPayloadAt := rfl
  payloadBytes := rfl
  connectionStart := rfl
  frontWindowClosed := frontWindowClosed_updateWindow s now
  silent := by
    intro _
    refine ⟨rfl, rfl, ?_⟩
    rw [← Bool.not_eq_true, shouldInjectChaff_eq_true_iff] at h
    cases hcooldown : s.inCooldown now with
    | true => exact Or.inl rfl
    | false =>
      right
      by_contra hnot
      apply h
      refine ⟨hcooldown, ?_⟩
      intro hclosed
      by_contra hlen
      exact hnot ⟨hclosed, Nat.not_lt.mp hlen⟩
  chaff := by
    intro f hf
    cases hf

theorem polled_queued {s : FrontChaffScheduler} {now : Nat}
    (h : (s.updateWindow now).shouldInjectChaff now = true)
    (hindex : s.queueIndex < s.chaffQueue.length)
    : Polled s now (some (s.chaffQueue.get ⟨s.queueIndex, hindex⟩))
        ({ s.updateWindow now with queueIndex := s.queueIndex + 1 }.countChaff
          (s.chaffQueue.get ⟨s.queueIndex, hindex⟩)) where
  chaffQueue := rfl
  lastPayloadAt := rfl
  payloadBytes := rfl
  connectionStart := rfl
  frontWindowClosed := frontWindowClosed_updateWindow s now
  silent := by
    intro hnone
    cases hnone
  chaff := by
    intro f hf
    injection hf with hf
    rw [shouldInjectChaff_eq_true_iff] at h
    rw [← hf]
    exact ⟨s.hqueue _ (List.get_mem _ _), h.1, rfl, Or.inl ⟨hindex, rfl⟩⟩

theorem polled_generated {s : FrontChaffScheduler} {now : Nat}
    (h : (s.updateWindow now).shouldInjectChaff now = true)
    (hindex : s.chaffQueue.length ≤ s.queueIndex)
    (hopen : (s.updateWindow now).frontWindowClosed = false)
    : Polled s now (some (s.updateWindow now).generateChaff.1)
        ((s.updateWindow now).generateChaff.2.countChaff (s.updateWindow now).generateChaff.1) where
  chaffQueue := rfl
  lastPayloadAt := rfl
  payloadBytes := rfl
  connectionStart := rfl
  frontWindowClosed := frontWindowClosed_updateWindow s now
  silent := by
    intro hnone
    cases hnone
  chaff := by
    intro f hf
    injection hf with hf
    rw [shouldInjectChaff_eq_true_iff] at h
    rw [← hf]
    exact ⟨isChaff_chaffFrame _, h.1, rfl, Or.inr ⟨hindex, rfl, hopen⟩⟩

theorem polled_pollChaff (s : FrontChaffScheduler) (now : Nat)
    : Polled s now (s.pollChaff now).1 (s.pollChaff now).2 := by
  unfold pollChaff
  dsimp only
  split
  . next hinject =>
    apply polled_silent
    simpa using hinject
  . next hinject =>
    have hinject : (s.updateWindow now).shouldInjectChaff now = true := by simpa using hinject
    by_cases hindex : s.queueIndex < s.chaffQueue.length
    . have hnext : (s.updateWindow now).nextChaffFrame
          = (some (s.chaffQueue.get ⟨s.queueIndex, hindex⟩),
            { s.updateWindow now with queueIndex := s.queueIndex + 1 }) := dif_pos hindex
      rw [hnext]
      apply polled_queued hinject
    . have hnext : (s.updateWindow now).nextChaffFrame = (none, s.updateWindow now) :=
        dif_neg hindex
      rw [hnext]
      dsimp only
      -- with an empty queue nothing is injected once the window is closed
      have hopen : (s.updateWindow now).frontWindowClosed = false := by
        rw [shouldInjectChaff_eq_true_iff] at hinject
        rw [← Bool.not_eq_true]
        intro hclosed
        exact hindex (hinject.2 hclosed)
      rw [hopen]
      apply polled_generated hinject (Nat.not_lt.mp hindex) hopen

theorem Polled.queueIndex_le {s s' : FrontChaffScheduler} {now : Nat} {frame : Option Frame}
    (h : Polled s now frame s') (hle : s.queueIndex ≤ s.chaffQueue.length)
    : s'.queueIndex ≤ s.chaffQueue.length := by
  cases frame with
  | none =>
    have := (h.silent rfl).2.1
    omega
  | some f =>
    have := (h.chaff f rfl).2.2.2
    omega

theorem le_of_not_inCooldown {s : FrontChaffScheduler} {now t : Nat}
    (h : s.inCooldown now = false) (hlast : s.lastPayloadAt = some t)
    : t + payloadCooldown ≤ now := by
  simp only [inCooldown, hlast, decide_eq_false_iff_not] at h
  have hpos : 0 < payloadCooldown := by decide
  omega

end FrontChaffScheduler

theorem WriteStrategy.nextFrame_cons {s : WriteStrategy} {f : Frame} {rest : List Frame} (now : Nat)
    (h : s.payloadQueue.frames = f :: rest)
    : s.nextFrame now
        =
      (some f, ⟨{ s.payloadQueue with frames := rest },
        s.chaffScheduler.onPayloadSent now f.payload.length⟩) := by
  simp only [nextFrame, PayloadQueue.pop, h]

theorem WriteStrategy.nextFrame_nil {s : WriteStrategy} (now : Nat) (h : s.payloadQueue.frames = [])
    : s.nextFrame now
        =
      ((s.chaffScheduler.pollChaff now).1,
        ⟨s.payloadQueue, (s.chaffScheduler.pollChaff now).2⟩) := by
  simp only [nextFrame, PayloadQueue.pop, h]

inductive StrategyCall where
  | push (payload : Bytes)
  | nextFrame (now : Nat)

/--
A call of `nextFrame`: its time, whether payload was queued, and what it returned.
-/
structure Poll where
  now : Nat
  pending : Bool
  frame : Option Frame

namespace Poll

def isData (p : Poll) : Bool := p.frame.any Frame.isData

def isChaff (p : Poll) : Bool := p.frame.any Frame.isChaff

end Poll

structure StrategyRun where
  strategy : WriteStrategy
  clock : Nat
  pushed : List Bytes
  polls : List Poll

/--
A strategy that is called with a clock that does not go backwards.
-/
def strategyRuns (rng : Nat → Rng) : Machine StrategyRun StrategyCall where
  init := ⟨.new rng, 0, [], []⟩
  step r call :=
    match call with
    | .push payload =>
      some { r with
        strategy.payloadQueue := r.strategy.payloadQueue.push (.data payload)
        pushed := r.pushed ++ [payload] }
    | .nextFrame now =>
      if now < r.clock then
        none
      else
        some { r with
          strategy := (r.strategy.nextFrame now).2
          clock := now
          polls := r.polls ++
            [⟨now, r.strategy.payloadQueue.hasPending, (r.strategy.nextFrame now).1⟩] }

def returned (polls : List Poll) : List Frame := polls.filterMap Poll.frame

def firstIdle (polls : List Poll) : Option Nat := (polls.find? (!·.pending)).map Poll.now

def chaffBefore (t : Nat) (polls : List Poll) : Nat :=
  (polls.filter fun p => p.isChaff && p.now < t).length

def chaffFrom (t : Nat) (polls : List Poll) : Nat :=
  (polls.filter fun p => p.isChaff && t ≤ p.now).length

namespace StrategyRun

inductive Stepped (r : StrategyRun) : StrategyRun → Prop where
  | push (payload : Bytes)
    : Stepped r
        ⟨⟨r.strategy.payloadQueue.push (.data payload), r.strategy.chaffScheduler⟩, r.clock,
          r.pushed ++ [payload], r.polls⟩
  | data (now : Nat) (f : Frame) (rest : List Frame) (hclock : r.clock ≤ now)
    (hqueue : r.strategy.payloadQueue.frames = f :: rest)
    : Stepped r
        ⟨⟨{ r.strategy.payloadQueue with frames := rest },
            r.strategy.chaffScheduler.onPayloadSent now f.payload.length⟩, now, r.pushed,
          r.polls ++ [⟨now, true, some f⟩]⟩
  | idle (now : Nat) (frame : Option Frame) (scheduler : FrontChaffScheduler)
    (hclock : r.clock ≤ now) (hqueue : r.strategy.payloadQueue.frames = [])
    (hpolled : r.strategy.chaffScheduler.Polled now frame scheduler)
    : Stepped r
        ⟨⟨r.strategy.payloadQueue, scheduler⟩, now, r.pushed, r.polls ++ [⟨now, false, frame⟩]⟩

theorem stepped_of_step {rng : Nat → Rng} {r r' : StrategyRun} {call : StrategyCall}
    (h : (strategyRuns rng).step r call = some r') : Stepped r r' := by
  cases call with
  | push payload =>
    injection h with h
    rw [← h]
    exact .push payload
  | nextFrame now =>
    simp only [strategyRuns] at h
    split at h
    . cases h
    . next hclock =>
      injection h with h
      rw [← h]
      cases hqueue : r.strategy.payloadQueue.frames with
      | nil =>
        rw [WriteStrategy.nextFrame_nil now hqueue]
        simp only [PayloadQueue.hasPending, hqueue, List.isEmpty_nil, Bool.not_true]
        exact .idle now _ _ (by omega) hqueue (FrontChaffScheduler.polled_pollChaff _ now)
      | cons f rest =>
        rw [WriteStrategy.nextFrame_cons now hqueue]
        simp only [PayloadQueue.hasPending, hqueue, List.isEmpty_cons, Bool.not_false]
        exact .data now f rest (by omega) hqueue

/--
An invariant of all runs only has to be kept by the three steps, from states of a run.
-/
theorem induction {rng : Nat → Rng} {motive : StrategyRun → Prop} {r : StrategyRun}
    (h : (strategyRuns rng).Reachable r) (hinit : motive ⟨.new rng, 0, [], []⟩)
    (hstep : ∀ r r', (strategyRuns rng).Reachable r → motive r → Stepped r r' → motive r')
    : motive r := by
  have hboth : (strategyRuns rng).Reachable r ∧ motive r := by
    apply h.induction
    . exact ⟨⟨[], rfl⟩, hinit⟩
    . intro call r r' hr hcall
      exact ⟨hr.1.step _ hcall, hstep r r' hr.1 hr.2 (stepped_of_step hcall)⟩
  exact hboth.2

end StrategyRun

section Polls

variable (polls : List Poll) (p : Poll)

theorem returned_append_none (now : Nat) (pending : Bool)
    : returned (polls ++ [⟨now, pending, none⟩]) = returned polls := by
  simp [returned]

theorem returned_append_some (now : Nat) (pending : Bool) (f : Frame)
    : returned (polls ++ [⟨now, pending, some f⟩]) = returned polls ++ [f] := by
  simp [returned]

theorem firstIdle_append_pending (now : Nat) (frame : Option Frame)
    : firstIdle (polls ++ [⟨now, true, frame⟩]) = firstIdle polls := by
  simp [firstIdle]

theorem firstIdle_append_idle (now : Nat) (frame : Option Frame)
    : firstIdle (polls ++ [⟨now, false, frame⟩]) = some ((firstIdle polls).getD now) := by
  unfold firstIdle
  rw [List.find?_append]
  cases polls.find? (!·.pending) with
  | none => rfl
  | some q => rfl

theorem chaffBefore_append (t : Nat)
    : chaffBefore t (polls ++ [p])
        =
      chaffBefore t polls + if p.isChaff = true ∧ p.now < t then 1 else 0 := by
  unfold chaffBefore
  rw [List.filter_append, List.length_append]
  split
  . next h => simp [h]
  . next h => simpa using h

theorem chaffFrom_append (t : Nat)
    : chaffFrom t (polls ++ [p])
        =
      chaffFrom t polls + if p.isChaff = true ∧ t ≤ p.now then 1 else 0 := by
  unfold chaffFrom
  rw [List.filter_append, List.length_append]
  split
  . next h => simp [h]
  . next h => simpa using h

end Polls

theorem IsChaff.isChaff {f : Frame} (h : IsChaff f) : f.isChaff = true := by
  rcases h with ⟨payload, rfl, _⟩
  rfl

theorem IsChaff.isData {f : Frame} (h : IsChaff f) : f.isData = false := by
  rcases h with ⟨payload, rfl, _⟩
  rfl

theorem FrontChaffScheduler.Polled.isData {s s' : FrontChaffScheduler} {now : Nat}
    {frame : Option Frame} (h : s.Polled now frame s') : frame.any Frame.isData = false := by
  cases frame with
  | none => rfl
  | some f => exact (h.chaff f rfl).1.isData

namespace StrategyRun

variable {rng : Nat → Rng} {r : StrategyRun}

/--
DATA frames are returned in the order of the pushes, as soon as there is one, and CHAFF only when
there is none.
-/
structure Ordered (r : StrategyRun) : Prop where
  order : (returned r.polls).filter Frame.isData ++ r.strategy.payloadQueue.frames
    = r.pushed.map Frame.data
  served : ∀ p ∈ r.polls, p.pending = true → p.isData = true
  idle : ∀ p ∈ r.polls, p.isChaff = true → p.pending = false

theorem Ordered.head (h : Ordered r) {f : Frame} {rest : List Frame}
    (hqueue : r.strategy.payloadQueue.frames = f :: rest)
    : f.isData = true ∧ f.isChaff = false := by
  have hmem : f ∈ r.pushed.map Frame.data := by
    rw [← h.order, hqueue]
    simp
  rcases List.mem_map.mp hmem with ⟨payload, _, rfl⟩
  exact ⟨rfl, rfl⟩

theorem ordered (h : (strategyRuns rng).Reachable r) : Ordered r := by
  apply induction h
  . exact ⟨rfl, by simp, by simp⟩
  . intro r r' _ hr hstep
    cases hstep with
    | push payload =>
      refine ⟨?_, hr.served, hr.idle⟩
      dsimp only [PayloadQueue.push]
      rw [← List.append_assoc, hr.order, List.map_append]
      rfl
    | data now f rest hclock hqueue =>
      rcases hr.head hqueue with ⟨hdata, hchaff⟩
      refine ⟨?_, ?_, ?_⟩
      . dsimp only
        rw [returned_append_some, List.filter_append, ← hr.order, hqueue]
        simp [hdata]
      . rw [List.forall_mem_append, List.forall_mem_singleton]
        refine ⟨hr.served, ?_⟩
        simp [Poll.isData, hdata]
      . rw [List.forall_mem_append, List.forall_mem_singleton]
        refine ⟨hr.idle, ?_⟩
        simp [Poll.isChaff, hchaff]
    | idle now frame scheduler hclock hqueue hpolled =>
      refine ⟨?_, ?_, ?_⟩
      . dsimp only
        cases frame with
        | none => rw [returned_append_none, hr.order]
        | some f =>
          have hdata := (hpolled.chaff f rfl).1.isData
          rw [returned_append_some, List.filter_append, ← hr.order]
          simp [hdata]
      . rw [List.forall_mem_append, List.forall_mem_singleton]
        refine ⟨hr.served, ?_⟩
        intro hpending
        cases hpending
      . rw [List.forall_mem_append, List.forall_mem_singleton]
        exact ⟨hr.idle, fun _ => rfl⟩

/--
The scheduler remembers the last DATA frame and holds CHAFF back until the cooldown is over.
-/
structure Timed (r : StrategyRun) : Prop where
  clock : ∀ p ∈ r.polls, p.now ≤ r.clock
  last : ∀ p ∈ r.polls, p.isData = true →
    ∃ t, r.strategy.chaffScheduler.lastPayloadAt = some t ∧ p.now ≤ t
  spacing : r.polls.Pairwise fun q p =>
    q.isData = true → p.isChaff = true → q.now + payloadCooldown ≤ p.now

theorem Timed.clock_append (h : Timed r) {now : Nat} (hclock : r.clock ≤ now) (pending : Bool)
    (frame : Option Frame) : ∀ p ∈ r.polls ++ [⟨now, pending, frame⟩], p.now ≤ now := by
  rw [List.forall_mem_append, List.forall_mem_singleton]
  refine ⟨?_, Nat.le_refl now⟩
  intro p hp
  have := h.clock p hp
  omega

theorem timed (h : (strategyRuns rng).Reachable r) : Timed r := by
  apply induction h
  . exact ⟨by simp, by simp, List.Pairwise.nil⟩
  . intro r r' hreach hr hstep
    cases hstep with
    | push payload => exact ⟨hr.clock, hr.last, hr.spacing⟩
    | data now f rest hclock hqueue =>
      have hclock' := hr.clock_append hclock true (some f)
      refine ⟨hclock', fun p hp _ => ⟨now, rfl, hclock' p hp⟩, ?_⟩
      have hchaff := ((ordered hreach).head hqueue).2
      simp only [List.pairwise_append, List.mem_singleton, forall_eq]
      refine ⟨hr.spacing, List.pairwise_singleton _ _, ?_⟩
      simp [Poll.isChaff, hchaff]
    | idle now frame scheduler hclock hqueue hpolled =>
      refine ⟨hr.clock_append hclock false frame, ?_, ?_⟩
      . rw [List.forall_mem_append, List.forall_mem_singleton]
        dsimp only
        rw [hpolled.lastPayloadAt]
        refine ⟨hr.last, ?_⟩
        simp [Poll.isData, hpolled.isData]
      . simp only [List.pairwise_append, List.mem_singleton, forall_eq]
        refine ⟨hr.spacing, List.pairwise_singleton _ _, ?_⟩
        intro q hq hdata hchaff
        rcases hr.last q hq hdata with ⟨t, ht, hle⟩
        cases frame with
        | none => cases hchaff
        | some f =>
          have hcooldown := FrontChaffScheduler.le_of_not_inCooldown (hpolled.chaff f rfl).2.1 ht
          omega

/--
How far the queue of prepared CHAFF is used up: by all CHAFF at first, but no further than to its
end, and by every CHAFF frame once the window is over.
-/
structure Windowed (r : StrategyRun) : Prop where
  queue : r.strategy.chaffScheduler.chaffQueue.length = maxChaffQueue
  start : r.strategy.chaffScheduler.connectionStart = firstIdle r.polls
  index_le : r.strategy.chaffScheduler.queueIndex ≤ maxChaffQueue
  index : ∀ now, r.clock ≤ now →
    r.strategy.chaffScheduler.queueIndex
      = min maxChaffQueue (chaffBefore ((firstIdle r.polls).getD now + frontWindow) r.polls)
        + chaffFrom ((firstIdle r.polls).getD now + frontWindow) r.polls

theorem chaffFrom_eq_zero {polls : List Poll} {t : Nat} (h : ∀ p ∈ polls, p.now < t)
    : chaffFrom t polls = 0 := by
  unfold chaffFrom
  rw [List.length_eq_zero_iff, List.filter_eq_nil_iff]
  intro p hp
  have := h p hp
  simp
  omega

/--
An idle call moves the index as it moves the counts. The window ends at `t`.
-/
theorem Windowed.index_idle (h : Windowed r) {now t : Nat} {frame : Option Frame}
    {scheduler : FrontChaffScheduler} (hpolls : ∀ p ∈ r.polls, p.now ≤ now)
    (ht : t = (firstIdle r.polls).getD now + frontWindow)
    (hpolled : r.strategy.chaffScheduler.Polled now frame scheduler)
    (hindex : r.strategy.chaffScheduler.queueIndex
      = min maxChaffQueue (chaffBefore t r.polls) + chaffFrom t r.polls)
    : scheduler.queueIndex
        =
      min maxChaffQueue (chaffBefore t (r.polls ++ [⟨now, false, frame⟩]))
        + chaffFrom t (r.polls ++ [⟨now, false, frame⟩]) := by
  have hqueue := h.queue
  have hbefore : now < t → chaffFrom t r.polls = 0 := by
    intro hnow
    apply chaffFrom_eq_zero
    intro p hp
    have := hpolls p hp
    omega
  rw [chaffBefore_append, chaffFrom_append]
  cases frame with
  | none =>
    rw [(hpolled.silent rfl).2.1]
    simpa [Poll.isChaff] using hindex
  | some f =>
    rcases hpolled.chaff f rfl with ⟨hchaff, _, _, hnext⟩
    simp only [Poll.isChaff, Option.any_some, hchaff.isChaff, true_and]
    rcases hnext with ⟨hlt, hnext⟩ | ⟨hge, hnext, hopen⟩
    . by_cases hnow : now < t
      . have := hbefore hnow
        rw [if_pos hnow, if_neg (by omega)]
        omega
      . rw [if_neg hnow, if_pos (by omega)]
        omega
    . -- CHAFF is only generated while the window is open
      have hnow : now < t := by
        by_contra hnot
        have hclosed := hpolled.frontWindowClosed
        rw [h.start] at hclosed
        have := hclosed.mpr (Or.inr (by omega))
        rw [hopen] at this
        cases this
      have := hbefore hnow
      rw [if_pos hnow, if_neg (by omega)]
      omega

theorem windowed (h : (strategyRuns rng).Reachable r) : Windowed r := by
  apply induction h
  . refine ⟨FrontChaffScheduler.length_chaffQueue_new rng, rfl, Nat.zero_le _, ?_⟩
    intro now _
    rfl
  . intro r r' hreach hr hstep
    cases hstep with
    | push payload => exact ⟨hr.queue, hr.start, hr.index_le, hr.index⟩
    | data now f rest hclock hqueue =>
      have hchaff := ((ordered hreach).head hqueue).2
      refine ⟨hr.queue, ?_, hr.index_le, ?_⟩
      . rw [firstIdle_append_pending]
        exact hr.start
      . intro later hlater
        dsimp only at hlater ⊢
        rw [firstIdle_append_pending, chaffBefore_append, chaffFrom_append]
        simp only [Poll.isChaff, Option.any_some, hchaff, Bool.false_eq_true, false_and, if_false]
        exact hr.index later (by omega)
    | idle now frame scheduler hclock _ hpolled =>
      refine ⟨hpolled.chaffQueue ▸ hr.queue, ?_, ?_, ?_⟩
      . rw [firstIdle_append_idle, ← hr.start]
        exact hpolled.connectionStart
      . have := hpolled.queueIndex_le (hr.queue ▸ hr.index_le)
        rwa [hr.queue] at this
      . intro later _
        dsimp only
        rw [firstIdle_append_idle, Option.getD_some]
        apply hr.index_idle _ rfl hpolled (hr.index now hclock)
        intro p hp
        have := (timed hreach).clock p hp
        omega

def sentBytes (which : Frame → Bool) (polls : List Poll) : Nat :=
  (((returned polls).filter which).map (·.payload.length)).sum

theorem sentBytes_append_none (which : Frame → Bool) (polls : List Poll) (now : Nat)
    (pending : Bool)
    : sentBytes which (polls ++ [⟨now, pending, none⟩]) = sentBytes which polls := by
  rw [sentBytes, returned_append_none]
  rfl

theorem sentBytes_append_some (which : Frame → Bool) (polls : List Poll) (now : Nat)
    (pending : Bool) (f : Frame)
    : sentBytes which (polls ++ [⟨now, pending, some f⟩])
        =
      sentBytes which polls + if which f = true then f.payload.length else 0 := by
  rw [sentBytes, returned_append_some, List.filter_append, List.map_append, List.sum_append]
  cases hf : which f with
  | true => simp [sentBytes, hf]
  | false => simp [sentBytes, hf]

structure Counted (r : StrategyRun) : Prop where
  chaff : r.strategy.chaffScheduler.chaffBytesSent = sentBytes Frame.isChaff r.polls
  payload : r.strategy.chaffScheduler.payloadBytesSent = sentBytes Frame.isData r.polls

theorem counted (h : (strategyRuns rng).Reachable r) : Counted r := by
  apply induction h
  . exact ⟨rfl, rfl⟩
  . intro r r' hreach hr hstep
    rcases hr with ⟨hchaffBytes, hpayloadBytes⟩
    cases hstep with
    | push payload => exact ⟨hchaffBytes, hpayloadBytes⟩
    | data now f rest hclock hqueue =>
      rcases (ordered hreach).head hqueue with ⟨hdata, hchaff⟩
      refine ⟨?_, ?_⟩
      . rw [sentBytes_append_some, hchaff, ← hchaffBytes]
        rfl
      . rw [sentBytes_append_some, hdata, ← hpayloadBytes]
        rfl
    | idle now frame scheduler hclock hqueue hpolled =>
      cases frame with
      | none =>
        refine ⟨?_, ?_⟩
        . rw [sentBytes_append_none, ← hchaffBytes]
          exact (hpolled.silent rfl).1
        . rw [sentBytes_append_none, ← hpayloadBytes]
          exact hpolled.payloadBytes
      | some f =>
        rcases hpolled.chaff f rfl with ⟨hchaff, _, hbytes, _⟩
        refine ⟨?_, ?_⟩
        . rw [sentBytes_append_some, if_pos hchaff.isChaff, ← hchaffBytes]
          exact hbytes
        . rw [sentBytes_append_some, hchaff.isData, ← hpayloadBytes]
          exact hpolled.payloadBytes

end StrategyRun

open StrategyRun in
/--
Chaff never gets in the way of payload and is front-loaded: in every run the payloads come out in
the order they were pushed, one at every call that finds any, CHAFF only when nothing is queued and
no sooner than the cooldown after any DATA frame, and after the window no more of it than what is
left of the prepared queue.
-/
theorem chaff_yields_to_payload {rng : Nat → Rng} {r : StrategyRun}
    (h : (strategyRuns rng).Reachable r)
    : ((returned r.polls).filter Frame.isData ++ r.strategy.payloadQueue.frames
          = r.pushed.map Frame.data) ∧
      (∀ p ∈ r.polls, p.pending = true → p.isData = true) ∧
      (∀ p ∈ r.polls, p.isChaff = true → p.pending = false) ∧
      (r.polls.Pairwise fun q p =>
        q.isData = true → p.isChaff = true → q.now + fromMillis 5 ≤ p.now) ∧
      (∀ s, firstIdle r.polls = some s →
        chaffFrom (s + fromSecs 3) r.polls ≤ 64 - chaffBefore (s + fromSecs 3) r.polls) ∧
      r.strategy.chaffScheduler.chaffBytesSent = sentBytes Frame.isChaff r.polls ∧
      r.strategy.chaffScheduler.payloadBytesSent = sentBytes Frame.isData r.polls := by
  refine ⟨(ordered h).order, (ordered h).served, (ordered h).idle, (timed h).spacing, ?_,
    (counted h).chaff, (counted h).payload⟩
  intro s hs
  have hindex := (windowed h).index r.clock (Nat.le_refl _)
  have hle := (windowed h).index_le
  rw [hs, Option.getD_some] at hindex
  unfold frontWindow at hindex
  unfold maxChaffQueue at hindex hle
  omega

/--
One payload, which the first poll returns, then polls inside the cooldown, at its end, and after the
window.
-/
theorem chaff_yields_to_payload_four_polls
    : ∃ r, (strategyRuns fun _ => zeroRng).Reachable r ∧
        r.polls.map (fun p => (p.isData, p.isChaff))
          = [(true, false), (false, false), (false, true), (false, true)] ∧
        r.polls.map Poll.pending = [true, false, false, false] ∧
        (∀ p ∈ r.polls, p.pending = true → p.isData = true) ∧
        firstIdle r.polls = some (fromMillis 1) ∧
        chaffFrom (fromMillis 1 + fromSecs 3) r.polls
          ≤ 64 - chaffBefore (fromMillis 1 + fromSecs 3) r.polls := by
  have hrun : ∃ r, (strategyRuns fun _ => zeroRng).run ⟨.new fun _ => zeroRng, 0, [], []⟩
      [.push [1, 2], .nextFrame 0, .nextFrame (fromMillis 1), .nextFrame (fromMillis 5),
        .nextFrame (fromSecs 4)] = some r ∧
      r.polls.map (fun p => (p.isData, p.isChaff))
        = [(true, false), (false, false), (false, true), (false, true)] ∧
      r.polls.map Poll.pending = [true, false, false, false] ∧
      firstIdle r.polls = some (fromMillis 1) := by
    refine ⟨_, rfl, ?_, ?_, ?_⟩
    . decide +kernel
    . decide +kernel
    . decide +kernel
  rcases hrun with ⟨r, hrun, hpolls, hpending, hidle⟩
  have hreach : (strategyRuns fun _ => zeroRng).Reachable r := ⟨_, hrun⟩
  rcases chaff_yields_to_payload hreach with ⟨_, hserved, _, _, hlate, _⟩
  exact ⟨r, hreach, hpolls, hpending, hserved, hidle, hlate _ hidle⟩

end Veil
