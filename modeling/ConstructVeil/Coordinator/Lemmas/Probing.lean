import ConstructVeil.Coordinator.Lemmas.Scoring
import ConstructVeil.Coordinator.Lemmas.Reducer

/-!
This module contains the probing half of the session FSM over whole runs: its candidates, and the
scores it records for them.
-/

namespace Veil

/--
What the effects since the last `StartProbes` say: the methods that were started, and those that
were scored as a failure or as a success.
-/
structure Episode where
  started : List MethodId
  failed : List MethodId
  succeeded : List MethodId

namespace Episode

def empty : Episode := ⟨[], [], []⟩

def observe (e : Episode) : VeilEffect → Episode
  | .startProbes methods _ => ⟨methods, [], []⟩
  | .recordScore method _ (.failure _) => { e with failed := e.failed ++ [method] }
  | .recordScore method _ (.success _) => { e with succeeded := e.succeeded ++ [method] }
  | .cancelOtherProbes _ => e
  | .stopActive => e
  | .scheduleCooldown _ => e

def observeAll (e : Episode) (effects : List VeilEffect) : Episode := effects.foldl observe e

end Episode

def observedFsm (cfg : VeilConfig) : Machine (VeilState × Episode) FsmInput where
  init := (.idle, .empty)
  step s input := some ((s.1.react cfg input).1, s.2.observeAll (s.1.react cfg input).2)

structure Episode.Valid (e : Episode) : Prop where
  startedNodup : e.started.Nodup
  failedNodup : e.failed.Nodup
  failedStarted : ∀ m ∈ e.failed, m ∈ e.started

structure Episode.Runs (e : Episode) (candidates : List MethodId)
    (attempts : MethodId → Option ProbeAttempt) : Prop where
  nonempty : candidates ≠ []
  nodup : candidates.Nodup
  keys : ∀ m, m ∈ candidates ↔ (attempts m).isSome = true
  outstanding : ∀ m ∈ candidates, m ∈ e.started ∧ m ∉ e.failed
  undecided : e.succeeded = []

/--
The invariant: the bookkeeping of the episode is in order, and while it runs the candidates are the
methods that are still outstanding.
-/
structure ProbingInv (s : VeilState × Episode) : Prop where
  valid : s.2.Valid
  runs : ∀ candidates attempts startedAt, s.1 = .probing candidates attempts startedAt →
    s.2.Runs candidates attempts

theorem probingInv_init : ProbingInv (.idle, .empty) := by
  refine ⟨⟨?_, ?_, ?_⟩, ?_⟩
  . exact List.nodup_nil
  . exact List.nodup_nil
  . simp [Episode.empty]
  . intro _ _ _ h
    cases h

section Step

variable {episode : Episode} {candidates : List MethodId}
  {attempts : MethodId → Option ProbeAttempt} {method : MethodId}

theorem ProbingInv.of_not_probing {state : VeilState} (hvalid : episode.Valid)
    (hstate : ∀ candidates attempts startedAt, state ≠ .probing candidates attempts startedAt)
    : ProbingInv (state, episode) := by
  refine ⟨hvalid, ?_⟩
  intro candidates attempts startedAt heq
  exact absurd heq (hstate candidates attempts startedAt)

theorem Episode.Runs.start (hne : candidates ≠ []) (hnodup : candidates.Nodup) (now : Instant)
    : (Episode.mk candidates [] []).Runs candidates
        (fun m => if m ∈ candidates then some ⟨now⟩ else none) where
  nonempty := hne
  nodup := hnodup
  keys := by
    intro m
    by_cases hm : m ∈ candidates <;> simp [hm]
  outstanding := by
    intro m hm
    exact ⟨hm, by simp⟩
  undecided := rfl

theorem Episode.Valid.fail (hvalid : episode.Valid) (hruns : episode.Runs candidates attempts)
    (hmem : method ∈ candidates)
    : Episode.Valid { episode with failed := episode.failed ++ [method] } where
  startedNodup := hvalid.startedNodup
  failedNodup := by
    rw [List.nodup_append]
    refine ⟨hvalid.failedNodup, by simp, ?_⟩
    intro m hm m' hm' heq
    rw [List.mem_singleton] at hm'
    rw [heq, hm'] at hm
    exact (hruns.outstanding method hmem).2 hm
  failedStarted := by
    intro m hm
    rw [List.mem_append, List.mem_singleton] at hm
    cases hm with
    | inl hm => exact hvalid.failedStarted m hm
    | inr hm =>
      rw [hm]
      exact (hruns.outstanding method hmem).1

theorem Episode.Runs.fail (hruns : episode.Runs candidates attempts)
    (hne : candidates.filter (· != method) ≠ [])
    : Episode.Runs { episode with failed := episode.failed ++ [method] }
        (candidates.filter (· != method)) (fun m => if m = method then none else attempts m) where
  nonempty := hne
  nodup := hruns.nodup.filter _
  keys := by
    intro m
    rw [List.mem_filter, hruns.keys]
    by_cases hm : m = method <;> simp [hm]
  outstanding := by
    intro m hm
    rw [List.mem_filter, bne_iff_ne] at hm
    have hout := hruns.outstanding m hm.1
    refine ⟨hout.1, ?_⟩
    simp only [List.mem_append, List.mem_singleton, not_or]
    exact ⟨hout.2, hm.2⟩
  undecided := hruns.undecided

end Step

theorem ProbingInv.step {scores : ScoreLookup} {cfg : VeilConfig} {now : Instant}
    {nowSys : SystemTime}
    {state state' : VeilState} {event : VeilEvent} {effects : List VeilEffect} {episode : Episode}
    (h : ProbingInv (state, episode))
    (hreacts : Reacts scores cfg now nowSys state event state' effects)
    : ProbingInv (state', episode.observeAll effects) := by
  cases hreacts with
  | ignored _ => exact h
  | startProbes hselect hne =>
    rename_i fingerprint allowed candidates
    have hnodup := (selectProbeCandidates_spec fingerprint allowed scores cfg nowSys).1
    rw [hselect] at hnodup
    refine ⟨⟨hnodup, List.nodup_nil, by simp [Episode.observeAll, Episode.observe]⟩, ?_⟩
    intro _ _ _ heq
    cases heq
    exact .start hne hnodup now
  | probeFailed hmem hne =>
    have hruns := h.runs _ _ _ rfl
    refine ⟨h.valid.fail hruns hmem, ?_⟩
    intro _ _ _ heq
    cases heq
    exact hruns.fail hne
  | lastProbeFailed hmem _ =>
    apply of_not_probing
    . exact h.valid.fail (h.runs _ _ _ rfl) hmem
    . simp
  | probeSucceeded _ =>
    apply of_not_probing
    . exact ⟨h.valid.startedNodup, h.valid.failedNodup, h.valid.failedStarted⟩
    . simp
  | _ =>
    apply of_not_probing
    . exact h.valid
    . simp

theorem probingInv_of_reachable {cfg : VeilConfig} {s : VeilState × Episode}
    (h : (observedFsm cfg).Reachable s) : ProbingInv s := by
  apply h.induction
  . exact probingInv_init
  . intro input s s' hinv hs
    injection hs with hs
    rw [← hs]
    apply hinv.step
    apply reacts_reduce

def VeilEvent.probed : VeilEvent → Option MethodId
  | .probeSucceeded method _ _ => some method
  | .probeFailed method _ => some method
  | _ => none

section React

variable {scores : ScoreLookup} {cfg : VeilConfig} {now : Instant} {nowSys : SystemTime}
  {state state' : VeilState} {event : VeilEvent} {effects : List VeilEffect}

theorem ignores_of_not_candidate {method : MethodId} (hprobed : event.probed = some method)
    (hmem : method ∉ state.candidates) : state.Ignores now event := by
  cases event with
  | probeSucceeded _ _ _ =>
    injection hprobed with hprobed
    rw [← hprobed] at hmem
    cases state with
    | probing _ _ _ => exact hmem
    | _ => trivial
  | probeFailed _ _ =>
    injection hprobed with hprobed
    rw [← hprobed] at hmem
    cases state with
    | probing _ _ _ => exact hmem
    | _ => trivial
  | _ => cases hprobed

theorem Reacts.startProbes_mem (h : Reacts scores cfg now nowSys state event state' effects)
    {methods : List MethodId} {relay : String} (hmem : .startProbes methods relay ∈ effects)
    : methods ≠ [] ∧ methods.Nodup ∧
      (∃ fingerprint allowed, event = .start relay fingerprint allowed ∧
        ∀ m ∈ methods, allowed.contains m = true) ∧
      ∃ attempts startedAt, state' = .probing methods attempts startedAt := by
  cases h with
  | startProbes hselect hne =>
    rename_i fingerprint allowed candidates
    rw [List.mem_singleton] at hmem
    injection hmem with hmethods hrelay
    rcases selectProbeCandidates_spec fingerprint allowed scores cfg nowSys
      with ⟨hnodup, hallowed, _⟩
    rw [hselect] at hnodup hallowed
    rw [hmethods, hrelay]
    exact ⟨hne, hnodup, ⟨fingerprint, allowed, rfl, hallowed⟩, _, _, rfl⟩
  | _ => simp at hmem

theorem Reacts.failure_mem_iff (h : Reacts scores cfg now nowSys state event state' effects)
    (method : MethodId) (reason : ProbeFailureReason)
    : (∃ fingerprint, .recordScore method fingerprint (.failure reason) ∈ effects)
        ↔
      event = .probeFailed method reason ∧ method ∈ state.candidates := by
  cases h with
  | ignored hignores =>
    simp only [List.not_mem_nil, exists_false, false_iff, not_and]
    intro hevent hmem
    rw [hevent] at hignores
    cases state with
    | probing _ _ _ => exact hignores hmem
    | _ => cases hmem
  | probeFailed hmem _ =>
    simp only [List.mem_singleton, VeilEffect.recordScore.injEq, ScoreOutcome.failure.injEq,
      VeilEvent.probeFailed.injEq, VeilState.candidates]
    constructor
    . intro hscore
      rcases hscore with ⟨_, hmethod, _, hreason⟩
      rw [hmethod]
      exact ⟨⟨rfl, hreason.symm⟩, hmem⟩
    . intro hevent
      exact ⟨_, hevent.1.1.symm, rfl, hevent.1.2.symm⟩
  | lastProbeFailed hmem _ =>
    simp only [List.mem_cons, VeilEffect.recordScore.injEq, ScoreOutcome.failure.injEq,
      VeilEvent.probeFailed.injEq, VeilState.candidates]
    constructor
    . intro hscore
      rcases hscore with ⟨_, ⟨hmethod, _, hreason⟩ | hscore⟩
      . rw [hmethod]
        exact ⟨⟨rfl, hreason.symm⟩, hmem⟩
      . simp at hscore
    . intro hevent
      exact ⟨_, .inl ⟨hevent.1.1.symm, rfl, hevent.1.2.symm⟩⟩
  | _ => simp

theorem Reacts.last_failure (h : Reacts scores cfg now nowSys state event state' effects)
    {method : MethodId} {reason : ProbeFailureReason} (hevent : event = .probeFailed method reason)
    (hlast : state.candidates = [method]) : state' = .cooldown (now + cfg.cooldownDuration) := by
  cases h with
  | ignored hignores =>
    rw [hevent] at hignores
    cases state with
    | probing candidates _ _ =>
      rw [VeilState.candidates] at hlast
      rw [hlast] at hignores
      exact absurd List.mem_cons_self hignores
    | _ => cases hlast
  | probeFailed _ hne =>
    injection hevent with hmethod _
    rw [VeilState.candidates] at hlast
    rw [hlast, hmethod] at hne
    simp at hne
  | lastProbeFailed _ _ => rfl
  | _ => cases hevent

theorem Reacts.leaves_cooldown (h : Reacts scores cfg now nowSys state event state' effects)
    {until_ : Instant} (hstate : state = .cooldown until_) (hleft : state' ≠ state)
    : event = .stop ∨ (event = .cooldownElapsed ∧ until_ ≤ now) := by
  cases h with
  | ignored _ => exact absurd rfl hleft
  | cooldownElapsed hge =>
    injection hstate with hstate
    rw [← hstate]
    exact .inr ⟨rfl, hge⟩
  | stopCooldown => exact .inl rfl
  | _ => cases hstate

end React

/--
The probing half of the FSM, in every state that some sequence of inputs reaches. The candidates of
a running race are distinct, not none, and exactly the keys of the attempts. A started method is
scored as a failure at most once in its race, namely when its failure is consumed, and the last such
failure leads to `Cooldown`. `Active` is entered only from a race, by one of its methods that has
not failed, with one success score. Results for other methods do nothing, and `Cooldown` ends only
by `Stop` or in time.
-/
theorem probing_runs (cfg : VeilConfig) (state : VeilState) (episode : Episode)
    (hreach : (observedFsm cfg).Reachable (state, episode))
    : (∀ candidates attempts startedAt, state = .probing candidates attempts startedAt →
        candidates ≠ [] ∧ candidates.Nodup ∧ ∀ m, m ∈ candidates ↔ (attempts m).isSome = true) ∧
      (episode.failed.Nodup ∧ ∀ m ∈ episode.failed, m ∈ episode.started) ∧
      ∀ input : FsmInput,
        (∀ methods relay, .startProbes methods relay ∈ (state.react cfg input).2 →
          methods ≠ [] ∧ methods.Nodup ∧
          (∃ fingerprint allowed, input.event = .start relay fingerprint allowed ∧
            ∀ m ∈ methods, allowed.contains m = true) ∧
          ∃ attempts startedAt, (state.react cfg input).1 = .probing methods attempts startedAt) ∧
        (∀ method reason,
          (∃ fingerprint, .recordScore method fingerprint (.failure reason) ∈
            (state.react cfg input).2)
            ↔
          input.event = .probeFailed method reason ∧ method ∈ state.candidates) ∧
        (∀ method reason, input.event = .probeFailed method reason → state.candidates = [method] →
          (state.react cfg input).1 = .cooldown (input.now + cfg.cooldownDuration)) ∧
        (∀ method port startedAt fails,
          (∀ method port startedAt fails, state ≠ .active method port startedAt fails) →
          (state.react cfg input).1 = .active method port startedAt fails →
            (∃ candidates attempts started, state = .probing candidates attempts started) ∧
            method ∈ episode.started ∧ method ∉ episode.failed ∧
            (episode.observeAll (state.react cfg input).2).succeeded = [method]) ∧
        (∀ method, input.event.probed = some method → method ∉ state.candidates →
          state.react cfg input = (state, [])) ∧
        (∀ until_, state = .cooldown until_ → (state.react cfg input).1 ≠ state →
          input.event = .stop ∨ (input.event = .cooldownElapsed ∧ until_ ≤ input.now)) := by
  have hinv := probingInv_of_reachable hreach
  refine ⟨?_, ⟨hinv.valid.failedNodup, hinv.valid.failedStarted⟩, ?_⟩
  . intro candidates attempts startedAt hstate
    have hruns := hinv.runs candidates attempts startedAt hstate
    exact ⟨hruns.nonempty, hruns.nodup, hruns.keys⟩
  . intro input
    have hreacts := reacts_reduce input.scores cfg input.now input.nowSys state input.event
    refine ⟨?_, ?_, ?_, ?_, ?_, ?_⟩
    . intro methods relay
      exact hreacts.startProbes_mem
    . exact hreacts.failure_mem_iff
    . intro method reason
      exact hreacts.last_failure
    . intro method port startedAt fails hbefore hafter
      rcases hreacts.enters_active hbefore hafter
        with ⟨candidates, attempts, started, latencyMs, hstate, hmem, _, heffects⟩
      have hruns := hinv.runs candidates attempts started hstate
      have hout := hruns.outstanding method hmem
      refine ⟨⟨candidates, attempts, started, hstate⟩, hout.1, hout.2, ?_⟩
      have hundecided : episode.succeeded = [] := hruns.undecided
      unfold VeilState.react
      rw [heffects]
      simp [Episode.observeAll, Episode.observe, hundecided]
    . intro method hprobed hmem
      apply reduce_of_ignores
      exact ignores_of_not_candidate hprobed hmem
    . intro until_
      exact hreacts.leaves_cooldown

/--
Two methods race, the first one has failed, and so does the second one.
-/
theorem probing_runs_second_failure
    : ∃ state episode,
        (observedFsm .default).run (.idle, .empty)
          [⟨.start "relay" .default ⟨0⟩, CachedScoreLookup.empty, 0, 0⟩,
           ⟨.probeFailed .obfs4 .timeout, CachedScoreLookup.empty, 1, 1⟩] = some (state, episode) ∧
        episode.failed = [.obfs4] ∧ state.candidates = [.webTunnel] ∧
        (state.react .default ⟨.probeFailed .webTunnel .timeout, CachedScoreLookup.empty, 2, 2⟩).1
          = .cooldown (2 + VeilConfig.default.cooldownDuration) := by
  let inputs : List FsmInput :=
    [⟨.start "relay" .default ⟨0⟩, CachedScoreLookup.empty, 0, 0⟩,
     ⟨.probeFailed .obfs4 .timeout, CachedScoreLookup.empty, 1, 1⟩]
  have hrun : ∃ state episode, (observedFsm .default).run (.idle, .empty) inputs
      = some (state, episode) ∧
      episode.failed = [.obfs4] ∧ state.candidates = [.webTunnel] := ⟨_, _, rfl, rfl, rfl⟩
  rcases hrun with ⟨state, episode, hrun, hfailed, hcandidates⟩
  refine ⟨state, episode, hrun, hfailed, hcandidates, ?_⟩
  rcases (probing_runs .default state episode ⟨inputs, hrun⟩).2.2
    ⟨.probeFailed .webTunnel .timeout, CachedScoreLookup.empty, 2, 2⟩ with ⟨_, _, hlast, _⟩
  exact hlast .webTunnel .timeout rfl hcandidates

end Veil
