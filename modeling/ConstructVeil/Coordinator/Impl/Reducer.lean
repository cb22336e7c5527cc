import ConstructVeil.Coordinator.Impl.Scoring

/-!
This module contains the transition function of the session FSM.
-/

namespace Veil

def saturatingAdd (a b : UInt8) : UInt8 :=
  if a.toNat + b.toNat < 256 then
    a + b
  else
    255

def reduce (state : VeilState) (event : VeilEvent) (scores : ScoreLookup) (cfg : VeilConfig)
    (now : Instant) (nowSys : SystemTime) : VeilState × List VeilEffect :=
  match state, event with
  | .idle, .start relay fingerprint allowedMethods =>
    let candidates := selectProbeCandidates fingerprint allowedMethods scores cfg nowSys
    if candidates.isEmpty then
      (.cooldown (now + cfg.cooldownDuration), [.scheduleCooldown cfg.cooldownDuration])
    else
      let attempts := fun m => if m ∈ candidates then some ⟨now⟩ else none
      (.probing candidates attempts now, [.startProbes candidates relay])
  | .idle, .stop => (.idle, [])
  | .idle, _ => (state, [])
  | .probing candidates _ _, .probeSucceeded method port latencyMs =>
    if !candidates.contains method then
      (state, [])
    else
      (.active method port now 0,
        [.cancelOtherProbes method,
         .recordScore method NetworkFingerprint.default (.success latencyMs)])
  | .probing candidates attempts startedAt, .probeFailed method reason =>
    if !candidates.contains method then
      (state, [])
    else
      let newCandidates := candidates.filter (· != method)
      if newCandidates.isEmpty then
        (.cooldown (now + cfg.cooldownDuration),
          [.recordScore method NetworkFingerprint.default (.failure reason),
           .scheduleCooldown cfg.cooldownDuration])
      else
        let newAttempts := fun m => if m = method then none else attempts m
        (.probing newCandidates newAttempts startedAt,
          [.recordScore method NetworkFingerprint.default (.failure reason)])
  | .probing _ _ _, .allProbesFailed =>
    (.cooldown (now + cfg.cooldownDuration), [.scheduleCooldown cfg.cooldownDuration])
  | .probing _ _ _, .stop => (.idle, [.stopActive])
  | .probing _ _ _, _ => (state, [])
  | .active method port startedAt consecutiveFailures, .transportFailure kind =>
    match kind with
    | .fingerprintBlocked => (.degraded method port 255, [])
    | .tlsCertProblem => (state, [])
    | .streamTimeout | .unknown =>
      let newFails := saturatingAdd consecutiveFailures 1
      if newFails ≥ cfg.degradedThreshold then
        (.degraded method port newFails, [])
      else
        (.active method port startedAt newFails, [])
  | .active _ _ _ _, .stop => (.idle, [.stopActive])
  | .active _ _ _ _, _ => (state, [])
  | .degraded method port consecutiveFailures, .transportFailure kind =>
    match kind with
    | .tlsCertProblem => (state, [])
    | _ =>
      let newFails := saturatingAdd consecutiveFailures 1
      if consecutiveFailures ≥ cfg.degradedThreshold then
        (.idle, [.stopActive])
      else
        (.degraded method port newFails, [])
  | .degraded _ _ _, .stop => (.idle, [.stopActive])
  | .degraded _ _ _, _ => (state, [])
  | .cooldown until_, .cooldownElapsed =>
    if now ≥ until_ then
      (.idle, [])
    else
      (state, [])
  | .cooldown _, .stop => (.idle, [])
  | .cooldown _, _ => (state, [])

end Veil
