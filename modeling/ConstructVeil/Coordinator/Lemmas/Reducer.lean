import ConstructVeil.Util.Machine
import ConstructVeil.Coordinator.Impl.Reducer

/-!
This module contains what the transition function of the session FSM can do, one case for each arm
of it. Everything about runs of the FSM is derived from these cases.
-/

namespace Veil

namespace VeilState

def candidates : VeilState → List MethodId
  | .probing candidates _ _ => candidates
  | _ => []

def session : VeilState → Option (MethodId × UInt16)
  | .active method port _ _ => some (method, port)
  | .degraded method port _ => some (method, port)
  | _ => none

def Ignores (now : Instant) : VeilState → VeilEvent → Prop
  | .idle, .start _ _ _ => False
  | .idle, _ => True
  | .probing candidates _ _, .probeSucceeded method _ _ => method ∉ candidates
  | .probing candidates _ _, .probeFailed method _ => method ∉ candidates
  | .probing _ _ _, .allProbesFailed => False
  | .probing _ _ _, .stop => False
  | .probing _ _ _, _ => True
  | .active _ _ _ _, .transportFailure kind => kind = .tlsCertProblem
  | .active _ _ _ _, .stop => False
  | .active _ _ _ _, _ => True
  | .degraded _ _ _, .transportFailure kind => kind = .tlsCertProblem
  | .degraded _ _ _, .stop => False
  | .degraded _ _ _, _ => True
  | .cooldown until_, .cooldownElapsed => now < until_
  | .cooldown _, .stop => False
  | .cooldown _, _ => True

end VeilState

inductive Reacts (scores : ScoreLookup) (cfg : VeilConfig) (now : Instant) (nowSys : SystemTime)
    : VeilState → VeilEvent → VeilState → List VeilEffect → Prop where
  | ignored {state : VeilState} {event : VeilEvent} (h : state.Ignores now event)
      : Reacts scores cfg now nowSys state event state []
  | nothingToProbe {relay : String} {fingerprint : NetworkFingerprint} {allowed : MethodSet}
      (hselect : selectProbeCandidates fingerprint allowed scores cfg nowSys = [])
      : Reacts scores cfg now nowSys .idle (.start relay fingerprint allowed)
          (.cooldown (now + cfg.cooldownDuration)) [.scheduleCooldown cfg.cooldownDuration]
  | startProbes {relay : String} {fingerprint : NetworkFingerprint} {allowed : MethodSet}
      {candidates : List MethodId}
      (hselect : selectProbeCandidates fingerprint allowed scores cfg nowSys = candidates)
      (hne : candidates ≠ [])
      : Reacts scores cfg now nowSys .idle (.start relay fingerprint allowed)
          (.probing candidates (fun m => if m ∈ candidates then some ⟨now⟩ else none) now)
          [.startProbes candidates relay]
  | probeSucceeded {candidates : List MethodId} {attempts : MethodId → Option ProbeAttempt}
      {startedAt : Instant} {method : MethodId} {port : UInt16} {latencyMs : UInt32}
      (hmem : method ∈ candidates)
      : Reacts scores cfg now nowSys (.probing candidates attempts startedAt)
          (.probeSucceeded method port latencyMs) (.active method port now 0)
          [.cancelOtherProbes method,
           .recordScore method NetworkFingerprint.default (.success latencyMs)]
  | probeFailed {candidates : List MethodId} {attempts : MethodId → Option ProbeAttempt}
      {startedAt : Instant} {method : MethodId} {reason : ProbeFailureReason}
      (hmem : method ∈ candidates) (hne : candidates.filter (· != method) ≠ [])
      : Reacts scores cfg now nowSys (.probing candidates attempts startedAt)
          (.probeFailed method reason)
          (.probing (candidates.filter (· != method))
            (fun m => if m = method then none else attempts m) startedAt)
          [.recordScore method NetworkFingerprint.default (.failure reason)]
  | lastProbeFailed {candidates : List MethodId} {attempts : MethodId → Option ProbeAttempt}
      {startedAt : Instant} {method : MethodId} {reason : ProbeFailureReason}
      (hmem : method ∈ candidates) (hnil : candidates.filter (· != method) = [])
      : Reacts scores cfg now nowSys (.probing candidates attempts startedAt)
          (.probeFailed method reason) (.cooldown (now + cfg.cooldownDuration))
          [.recordScore method NetworkFingerprint.default (.failure reason),
           .scheduleCooldown cfg.cooldownDuration]
  | allProbesFailed {candidates : List MethodId} {attempts : MethodId → Option ProbeAttempt}
      {startedAt : Instant}
      : Reacts scores cfg now nowSys (.probing candidates attempts startedAt) .allProbesFailed
          (.cooldown (now + cfg.cooldownDuration)) [.scheduleCooldown cfg.cooldownDuration]
  | stopProbing {candidates : List MethodId} {attempts : MethodId → Option ProbeAttempt}
      {startedAt : Instant}
      : Reacts scores cfg now nowSys (.probing candidates attempts startedAt) .stop .idle
        [.stopActive]
  | blocked {method : MethodId} {port : UInt16} {startedAt : Instant} {fails : UInt8}
      : Reacts scores cfg now nowSys (.active method port startedAt fails)
          (.transportFailure .fingerprintBlocked) (.degraded method port 255) []
  | counted {method : MethodId} {port : UInt16} {startedAt : Instant} {fails : UInt8}
      {kind : TransportFailureKind} (hkind : kind = .streamTimeout ∨ kind = .unknown)
      (hlt : saturatingAdd fails 1 < cfg.degradedThreshold)
      : Reacts scores cfg now nowSys (.active method port startedAt fails) (.transportFailure kind)
          (.active method port startedAt (saturatingAdd fails 1)) []
  | degrades {method : MethodId} {port : UInt16} {startedAt : Instant} {fails : UInt8}
      {kind : TransportFailureKind} (hkind : kind = .streamTimeout ∨ kind = .unknown)
      (hge : cfg.degradedThreshold ≤ saturatingAdd fails 1)
      : Reacts scores cfg now nowSys (.active method port startedAt fails) (.transportFailure kind)
          (.degraded method port (saturatingAdd fails 1)) []
  | stopActive {method : MethodId} {port : UInt16} {startedAt : Instant} {fails : UInt8}
      : Reacts scores cfg now nowSys (.active method port startedAt fails) .stop .idle [.stopActive]
  | gaveUp {method : MethodId} {port : UInt16} {fails : UInt8} {kind : TransportFailureKind}
      (hkind : kind ≠ .tlsCertProblem) (hge : cfg.degradedThreshold ≤ fails)
      : Reacts scores cfg now nowSys (.degraded method port fails) (.transportFailure kind) .idle
          [.stopActive]
  | countedDegraded {method : MethodId} {port : UInt16} {fails : UInt8}
      {kind : TransportFailureKind}
      (hkind : kind ≠ .tlsCertProblem) (hlt : fails < cfg.degradedThreshold)
      : Reacts scores cfg now nowSys (.degraded method port fails) (.transportFailure kind)
          (.degraded method port (saturatingAdd fails 1)) []
  | stopDegraded {method : MethodId} {port : UInt16} {fails : UInt8}
      : Reacts scores cfg now nowSys (.degraded method port fails) .stop .idle [.stopActive]
  | cooldownElapsed {until_ : Instant} (hge : until_ ≤ now)
      : Reacts scores cfg now nowSys (.cooldown until_) .cooldownElapsed .idle []
  | stopCooldown {until_ : Instant}
      : Reacts scores cfg now nowSys (.cooldown until_) .stop .idle []

section Reduce

variable (scores : ScoreLookup) (cfg : VeilConfig) (now : Instant) (nowSys : SystemTime)

theorem reduce_of_ignores {state : VeilState} {event : VeilEvent} (h : state.Ignores now event)
    : reduce state event scores cfg now nowSys = (state, []) := by
  cases state <;> cases event <;> simp_all [VeilState.Ignores, reduce]

theorem reacts_probing (candidates : List MethodId) (attempts : MethodId → Option ProbeAttempt)
    (startedAt : Instant) (event : VeilEvent)
    : Reacts scores cfg now nowSys (.probing candidates attempts startedAt) event
        (reduce (.probing candidates attempts startedAt) event scores cfg now nowSys).1
        (reduce (.probing candidates attempts startedAt) event scores cfg now nowSys).2 := by
  cases event with
  | probeSucceeded method port latencyMs =>
    by_cases hmem : method ∈ candidates
    . simp only [reduce, List.contains_eq_mem, hmem, decide_true, Bool.not_true, Bool.false_eq_true,
        ↓reduceIte]
      exact .probeSucceeded hmem
    . rw [reduce_of_ignores]
      . exact .ignored hmem
      . exact hmem
  | probeFailed method reason =>
    by_cases hmem : method ∈ candidates
    . simp only [reduce, List.contains_eq_mem, hmem, decide_true, Bool.not_true, Bool.false_eq_true,
        ↓reduceIte, List.isEmpty_iff]
      split
      . next hnil => exact .lastProbeFailed hmem hnil
      . next hne => exact .probeFailed hmem hne
    . rw [reduce_of_ignores]
      . exact .ignored hmem
      . exact hmem
  | allProbesFailed => exact .allProbesFailed
  | stop => exact .stopProbing
  | _ => exact .ignored trivial

theorem reduce_active {method : MethodId} {port : UInt16} {startedAt : Instant} {fails : UInt8}
    {kind : TransportFailureKind} (hkind : kind = .streamTimeout ∨ kind = .unknown)
    : reduce (.active method port startedAt fails) (.transportFailure kind) scores cfg now nowSys
        =
      if cfg.degradedThreshold ≤ saturatingAdd fails 1 then
        (.degraded method port (saturatingAdd fails 1), [])
      else
        (.active method port startedAt (saturatingAdd fails 1), []) := by
  cases hkind with
  | inl hkind =>
    rw [hkind]
    rfl
  | inr hkind =>
    rw [hkind]
    rfl

theorem reacts_active (method : MethodId) (port : UInt16) (startedAt : Instant) (fails : UInt8)
    (event : VeilEvent)
    : Reacts scores cfg now nowSys (.active method port startedAt fails) event
        (reduce (.active method port startedAt fails) event scores cfg now nowSys).1
        (reduce (.active method port startedAt fails) event scores cfg now nowSys).2 := by
  cases event with
  | transportFailure kind =>
    cases hkind : kind with
    | fingerprintBlocked => exact .blocked
    | tlsCertProblem => exact .ignored rfl
    | _ =>
      rw [← hkind, reduce_active scores cfg now nowSys (by simp [hkind])]
      split
      . next hge => exact .degrades (by simp [hkind]) hge
      . next hlt => exact .counted (by simp [hkind]) (UInt8.not_le.mp hlt)
  | stop => exact .stopActive
  | _ => exact .ignored trivial

theorem reduce_degraded {method : MethodId} {port : UInt16} {fails : UInt8}
    {kind : TransportFailureKind} (hkind : kind ≠ .tlsCertProblem)
    : reduce (.degraded method port fails) (.transportFailure kind) scores cfg now nowSys
        =
      if cfg.degradedThreshold ≤ fails then
        (.idle, [.stopActive])
      else
        (.degraded method port (saturatingAdd fails 1), []) := by
  cases kind with
  | tlsCertProblem => exact absurd rfl hkind
  | _ => rfl

theorem reacts_degraded (method : MethodId) (port : UInt16) (fails : UInt8) (event : VeilEvent)
    : Reacts scores cfg now nowSys (.degraded method port fails) event
        (reduce (.degraded method port fails) event scores cfg now nowSys).1
        (reduce (.degraded method port fails) event scores cfg now nowSys).2 := by
  cases event with
  | transportFailure kind =>
    by_cases hkind : kind = .tlsCertProblem
    . rw [reduce_of_ignores]
      . exact .ignored hkind
      . exact hkind
    . rw [reduce_degraded scores cfg now nowSys hkind]
      split
      . next hge => exact .gaveUp hkind hge
      . next hlt => exact .countedDegraded hkind (UInt8.not_le.mp hlt)
  | stop => exact .stopDegraded
  | _ => exact .ignored trivial

theorem reacts_reduce (state : VeilState) (event : VeilEvent)
    : Reacts scores cfg now nowSys state event (reduce state event scores cfg now nowSys).1
        (reduce state event scores cfg now nowSys).2 := by
  cases state with
  | probing candidates attempts startedAt => apply reacts_probing
  | active method port startedAt fails => apply reacts_active
  | degraded method port fails => apply reacts_degraded
  | idle =>
    cases event with
    | start relay fingerprint allowed =>
      simp only [reduce, List.isEmpty_iff]
      split
      . next hnil => exact .nothingToProbe hnil
      . next hne => exact .startProbes rfl hne
    | _ => exact .ignored trivial
  | cooldown until_ =>
    cases event with
    | cooldownElapsed =>
      by_cases hge : until_ ≤ now
      . simp only [reduce, ge_iff_le, hge, ↓reduceIte]
        exact .cooldownElapsed hge
      . rw [reduce_of_ignores]
        . exact .ignored (Nat.not_le.mp hge)
        . exact Nat.not_le.mp hge
    | stop => exact .stopCooldown
    | _ => exact .ignored trivial

end Reduce

theorem Reacts.enters_active {scores : ScoreLookup} {cfg : VeilConfig} {now : Instant}
    {nowSys : SystemTime} {state state' : VeilState} {event : VeilEvent} {effects : List VeilEffect}
    (h : Reacts scores cfg now nowSys state event state' effects)
    {method : MethodId} {port : UInt16} {startedAt : Instant} {fails : UInt8}
    (hbefore : ∀ method port startedAt fails, state ≠ .active method port startedAt fails)
    (hafter : state' = .active method port startedAt fails)
    : ∃ candidates attempts started latencyMs, state = .probing candidates attempts started ∧
        method ∈ candidates ∧ fails = 0 ∧
        effects = [.cancelOtherProbes method,
          .recordScore method NetworkFingerprint.default (.success latencyMs)] := by
  cases h with
  | ignored _ => exact absurd hafter (hbefore method port startedAt fails)
  | probeSucceeded hmem =>
    injection hafter with hmethod _ _ hfails
    rw [← hmethod]
    exact ⟨_, _, _, _, rfl, hmem, hfails.symm, rfl⟩
  | counted _ _ => exact absurd rfl (hbefore _ _ _ _)
  | _ => cases hafter

structure FsmInput where
  event : VeilEvent
  scores : ScoreLookup
  now : Instant
  nowSys : SystemTime

def VeilState.react (cfg : VeilConfig) (state : VeilState) (input : FsmInput)
    : VeilState × List VeilEffect :=
  reduce state input.event input.scores cfg input.now input.nowSys

def fsm (cfg : VeilConfig) : Machine VeilState FsmInput where
  init := .idle
  step state input := some (state.react cfg input).1

theorem fsm_run_cons (cfg : VeilConfig) (state : VeilState) (input : FsmInput)
    (inputs : List FsmInput)
    : (fsm cfg).run state (input :: inputs) = (fsm cfg).run (state.react cfg input).1 inputs := rfl

end Veil
