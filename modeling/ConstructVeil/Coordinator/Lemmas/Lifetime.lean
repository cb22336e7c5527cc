import ConstructVeil.Coordinator.Lemmas.Reducer

/-!
This module contains the lifetime of an active method: what the failure counter of the session FSM
can be, when the method becomes degraded, and how it ends.
-/

namespace Veil

/--
A transport failure that counts, i.e. one that is not about a certificate.
-/
def VeilEvent.failure : VeilEvent → Option TransportFailureKind
  | .transportFailure .tlsCertProblem => none
  | .transportFailure kind => some kind
  | _ => none

def failures (inputs : List FsmInput) : List TransportFailureKind :=
  inputs.filterMap fun input => input.event.failure

namespace VeilConfig

def lives (cfg : VeilConfig) : Nat := max 1 cfg.degradedThreshold.toNat

theorem lives_le (cfg : VeilConfig) : cfg.lives ≤ 255 := by
  unfold lives
  have := cfg.degradedThreshold.toNat_lt
  omega

end VeilConfig

theorem toNat_ofNat_of_le_lives (cfg : VeilConfig) {n : Nat} (h : n ≤ cfg.lives)
    : (UInt8.ofNat n).toNat = n := by
  apply UInt8.toNat_ofNat_of_lt'
  exact Nat.lt_of_le_of_lt (Nat.le_trans h cfg.lives_le) (by decide)

theorem failures_cons_none {input : FsmInput} {inputs : List FsmInput}
    (h : input.event.failure = none) : failures (input :: inputs) = failures inputs := by
  simp [failures, h]

theorem failures_cons_some {input : FsmInput} {inputs : List FsmInput} {kind : TransportFailureKind}
    (h : input.event.failure = some kind)
    : failures (input :: inputs) = kind :: failures inputs := by
  simp [failures, h]

theorem VeilEvent.failure_eq_some_iff {event : VeilEvent} {kind : TransportFailureKind}
    : event.failure = some kind ↔ event = .transportFailure kind ∧ kind ≠ .tlsCertProblem := by
  cases event with
  | transportFailure kind' => cases kind' <;> cases kind <;> simp [failure]
  | _ => simp [failure]

theorem toNat_saturatingAdd_one {fails : UInt8} (h : fails.toNat < 255)
    : (saturatingAdd fails 1).toNat = fails.toNat + 1 := by
  have hone : (1 : UInt8).toNat = 1 := rfl
  unfold saturatingAdd
  rw [hone, if_pos (by omega), UInt8.toNat_add, hone]
  omega

section Step

variable {scores : ScoreLookup} {cfg : VeilConfig} {now : Instant} {nowSys : SystemTime}
  {state state' : VeilState} {event : VeilEvent} {effects : List VeilEffect}

structure LifetimeInv (cfg : VeilConfig) (state : VeilState) : Prop where
  active : ∀ method port startedAt fails, state = .active method port startedAt fails →
    fails.toNat < cfg.lives
  degraded : ∀ method port fails, state = .degraded method port fails →
    cfg.degradedThreshold ≤ fails

theorem LifetimeInv.of_session_none (h : state.session = none) : LifetimeInv cfg state where
  active := by
    intro _ _ _ _ heq
    rw [heq] at h
    cases h
  degraded := by
    intro _ _ _ heq
    rw [heq] at h
    cases h

theorem LifetimeInv.of_active {method : MethodId} {port : UInt16} {startedAt : Instant}
    {fails : UInt8}
    (h : fails.toNat < cfg.lives) : LifetimeInv cfg (.active method port startedAt fails) where
  active := by
    intro _ _ _ _ heq
    cases heq
    exact h
  degraded := by
    intro _ _ _ heq
    cases heq

theorem LifetimeInv.of_degraded {method : MethodId} {port : UInt16} {fails : UInt8}
    (h : cfg.degradedThreshold ≤ fails) : LifetimeInv cfg (.degraded method port fails) where
  active := by
    intro _ _ _ _ heq
    cases heq
  degraded := by
    intro _ _ _ heq
    cases heq
    exact h

theorem LifetimeInv.step (h : LifetimeInv cfg state)
    (hreacts : Reacts scores cfg now nowSys state event state' effects)
    : LifetimeInv cfg state' := by
  cases hreacts with
  | ignored _ => exact h
  | probeSucceeded _ =>
    apply of_active
    unfold VeilConfig.lives
    exact Nat.lt_of_lt_of_le Nat.one_pos (Nat.le_max_left _ _)
  | blocked =>
    apply of_degraded
    rw [UInt8.le_iff_toNat_le]
    have := cfg.degradedThreshold.toNat_lt
    have hmax : (255 : UInt8).toNat = 255 := rfl
    omega
  | counted _ hlt =>
    apply of_active
    rw [UInt8.lt_iff_toNat_lt] at hlt
    unfold VeilConfig.lives
    omega
  | degrades _ hge => exact of_degraded hge
  | countedDegraded _ hlt =>
    -- the invariant rules this arm out
    have hge := h.degraded _ _ _ rfl
    rw [UInt8.le_iff_toNat_le] at hge
    rw [UInt8.lt_iff_toNat_lt] at hlt
    omega
  | _ => exact of_session_none rfl

theorem lifetimeInv_of_reachable (h : (fsm cfg).Reachable state) : LifetimeInv cfg state := by
  apply h.induction
  . exact .of_session_none rfl
  . intro input state state' hinv hstep
    injection hstep with hstep
    rw [← hstep]
    exact hinv.step (reacts_reduce ..)

theorem Reacts.of_session {session : MethodId × UInt16}
    (h : Reacts scores cfg now nowSys state event state' effects)
    (hup : state.session = some session)
    : (state'.session = some session ∧ effects = []) ∨
        (state' = .idle ∧ effects = [.stopActive]) := by
  cases h with
  | ignored _ => exact .inl ⟨hup, rfl⟩
  | blocked => exact .inl ⟨hup, rfl⟩
  | counted _ _ => exact .inl ⟨hup, rfl⟩
  | degrades _ _ => exact .inl ⟨hup, rfl⟩
  | countedDegraded _ _ => exact .inl ⟨hup, rfl⟩
  | stopActive => exact .inr ⟨rfl, rfl⟩
  | stopDegraded => exact .inr ⟨rfl, rfl⟩
  | gaveUp _ _ => exact .inr ⟨rfl, rfl⟩
  | _ => cases hup

theorem ignores_of_session (hup : state.session.isSome = true) (hstop : event ≠ .stop)
    (hfailure : event.failure = none) : state.Ignores now event := by
  cases event with
  | stop => exact absurd rfl hstop
  | transportFailure kind =>
    have hkind : kind = .tlsCertProblem := by
      cases kind with
      | tlsCertProblem => rfl
      | _ => cases hfailure
    cases state with
    | active _ _ _ _ => exact hkind
    | degraded _ _ _ => exact hkind
    | _ => cases hup
  | _ =>
    cases state with
    | active _ _ _ _ => trivial
    | degraded _ _ _ => trivial
    | _ => cases hup

end Step

section Run

variable {cfg : VeilConfig} {method : MethodId} {port : UInt16} {startedAt : Instant}

theorem react_of_no_failure {state : VeilState} {input : FsmInput}
    (hup : state.session.isSome = true)
    (hstop : input.event ≠ .stop) (hfailure : input.event.failure = none)
    : state.react cfg input = (state, []) := by
  apply reduce_of_ignores
  exact ignores_of_session hup hstop hfailure

theorem run_of_no_failures {state : VeilState} {inputs : List FsmInput}
    (hup : state.session.isSome = true) (hstop : ∀ input ∈ inputs, input.event ≠ .stop)
    (hfailures : failures inputs = []) : (fsm cfg).run state inputs = some state := by
  induction inputs with
  | nil => rfl
  | cons input inputs ih =>
    rw [failures, List.filterMap_eq_nil_iff] at hfailures
    rw [List.forall_mem_cons] at hstop hfailures
    rw [fsm_run_cons, react_of_no_failure hup hstop.1 hfailures.1]
    apply ih hstop.2
    rw [failures, List.filterMap_eq_nil_iff]
    exact hfailures.2

theorem react_blocked {fails : UInt8} {input : FsmInput}
    (hfailure : input.event.failure = some .fingerprintBlocked)
    : ((VeilState.active method port startedAt fails).react cfg input).1
        = .degraded method port 255 := by
  rw [VeilEvent.failure_eq_some_iff] at hfailure
  unfold VeilState.react
  rw [hfailure.1]
  rfl

theorem react_counted {fails : UInt8} {input : FsmInput} {kind : TransportFailureKind}
    (hfailure : input.event.failure = some kind) (hkind : kind ≠ .fingerprintBlocked)
    (hfails : fails.toNat < cfg.lives)
    : ((VeilState.active method port startedAt fails).react cfg input).1
        =
      if cfg.lives ≤ fails.toNat + 1 then
        .degraded method port (UInt8.ofNat (fails.toNat + 1))
      else
        .active method port startedAt (UInt8.ofNat (fails.toNat + 1)) := by
  rw [VeilEvent.failure_eq_some_iff] at hfailure
  have hcounts : kind = .streamTimeout ∨ kind = .unknown := by
    cases kind with
    | fingerprintBlocked => exact absurd rfl hkind
    | tlsCertProblem => exact absurd rfl hfailure.2
    | streamTimeout => exact .inl rfl
    | unknown => exact .inr rfl
  have hadd : saturatingAdd fails 1 = UInt8.ofNat (fails.toNat + 1) := by
    apply UInt8.toNat_inj.mp
    have := cfg.lives_le
    rw [toNat_saturatingAdd_one (by omega), toNat_ofNat_of_le_lives cfg hfails]
  have hlimit : cfg.degradedThreshold ≤ saturatingAdd fails 1 ↔ cfg.lives ≤ fails.toNat + 1 := by
    have := cfg.lives_le
    rw [UInt8.le_iff_toNat_le, toNat_saturatingAdd_one (by omega)]
    unfold VeilConfig.lives
    omega
  unfold VeilState.react
  rw [hfailure.1, reduce_active _ _ _ _ hcounts, hadd]
  rw [hadd] at hlimit
  simp only [hlimit]
  split <;> rfl

theorem run_counted {fails : UInt8} {inputs : List FsmInput}
    (hstop : ∀ input ∈ inputs, input.event ≠ .stop)
    (hblocked : .fingerprintBlocked ∉ failures inputs)
    (hlt : fails.toNat + (failures inputs).length < cfg.lives)
    : (fsm cfg).run (.active method port startedAt fails) inputs
        =
      some (.active method port startedAt
        (UInt8.ofNat (fails.toNat + (failures inputs).length))) := by
  induction inputs generalizing fails with
  | nil => simp [Machine.run, failures]
  | cons input inputs ih =>
    rw [List.forall_mem_cons] at hstop
    rw [fsm_run_cons]
    cases hfailure : input.event.failure with
    | none =>
      rw [failures_cons_none hfailure] at hblocked hlt ⊢
      rw [react_of_no_failure rfl hstop.1 hfailure]
      exact ih hstop.2 hblocked hlt
    | some kind =>
      rw [failures_cons_some hfailure, List.mem_cons, not_or] at hblocked
      rw [failures_cons_some hfailure, List.length_cons] at hlt ⊢
      have hnext : (UInt8.ofNat (fails.toNat + 1)).toNat = fails.toNat + 1 := by
        apply toNat_ofNat_of_le_lives cfg
        omega
      rw [react_counted hfailure (Ne.symm hblocked.1) (by omega), if_neg (by omega),
        ih hstop.2 hblocked.2 (by omega), hnext]
      rw [Nat.add_assoc, Nat.add_comm 1]

theorem failures_eq_concat {inputs : List FsmInput} {kinds : List TransportFailureKind}
    {kind : TransportFailureKind} (h : failures inputs = kinds ++ [kind])
    : ∃ before input after, inputs = before ++ input :: after ∧ failures before = kinds ∧
        input.event.failure = some kind ∧ failures after = [] := by
  rw [failures, List.filterMap_eq_append_iff] at h
  rcases h with ⟨before, rest, hinputs, hbefore, hrest⟩
  rw [List.filterMap_eq_cons_iff] at hrest
  rcases hrest with ⟨silent, input, after, hsplit, hsilent, hinput, hafter⟩
  refine ⟨before ++ silent, input, after, ?_, ?_, hinput, hafter⟩
  . rw [hinputs, hsplit, List.append_assoc]
  . rw [failures, List.filterMap_append, List.filterMap_eq_nil_iff.mpr hsilent, List.append_nil,
      hbefore]

theorem run_degrades {inputs : List FsmInput} {kinds : List TransportFailureKind}
    {kind : TransportFailureKind} (hstop : ∀ input ∈ inputs, input.event ≠ .stop)
    (hfailures : failures inputs = kinds ++ [kind]) (hblocked : .fingerprintBlocked ∉ kinds)
    (hlt : kinds.length < cfg.lives)
    (hkind : kind = .fingerprintBlocked ∨ kinds.length + 1 = cfg.lives)
    : ∃ count, (fsm cfg).run (.active method port startedAt 0) inputs
        = some (.degraded method port count) := by
  rcases failures_eq_concat hfailures with ⟨before, input, after, hinputs, hbefore, hinput, hafter⟩
  rw [hinputs, List.forall_mem_append, List.forall_mem_cons] at hstop
  have hzero : (0 : UInt8).toNat = 0 := rfl
  have hcounted : (fsm cfg).run (.active method port startedAt 0) before
      = some (.active method port startedAt (UInt8.ofNat kinds.length)) := by
    rw [run_counted hstop.1 (by rwa [hbefore]) (by rw [hbefore]; omega), hbefore, hzero,
      Nat.zero_add]
  have hcount : (UInt8.ofNat kinds.length).toNat = kinds.length :=
    toNat_ofNat_of_le_lives cfg (Nat.le_of_lt hlt)
  have hdegrades : ∃ count,
      ((VeilState.active method port startedAt (UInt8.ofNat kinds.length)).react cfg
      input).1 = .degraded method port count := by
    by_cases hk : kind = .fingerprintBlocked
    . rw [hk] at hinput
      exact ⟨255, react_blocked hinput⟩
    . have hlast := hkind.resolve_left hk
      rw [react_counted hinput hk (by omega), if_pos (by omega)]
      exact ⟨_, rfl⟩
  rcases hdegrades with ⟨count, hdegrades⟩
  refine ⟨count, ?_⟩
  rw [hinputs, Machine.run_append_eq_some_iff]
  refine ⟨_, hcounted, ?_⟩
  rw [fsm_run_cons, hdegrades]
  exact run_of_no_failures rfl hstop.2.2 hafter

end Run

/--
An active method over whole runs. Its counter stays below its lives, and a degraded one is at the
threshold, so that a degraded method never counts again. From the moment it becomes active, failures
are counted until one of them is a block or takes the last life, and this failure degrades it; the
next failure ends it. Certificate failures change nothing, the method and the port stay as they are,
and the session is left only to `Idle` with one `StopActive`.
-/
theorem active_lifetime (cfg : VeilConfig) (state : VeilState) (hreach : (fsm cfg).Reachable state)
    : (∀ method port startedAt fails, state = .active method port startedAt fails →
        fails.toNat < max 1 cfg.degradedThreshold.toNat) ∧
      (∀ method port fails, state = .degraded method port fails → cfg.degradedThreshold ≤ fails) ∧
      ∀ input : FsmInput,
        (∀ method port startedAt fails,
          (∀ method port startedAt fails, state ≠ .active method port startedAt fails) →
          (state.react cfg input).1 = .active method port startedAt fails →
            fails = 0 ∧
            ∀ inputs : List FsmInput, (∀ input ∈ inputs, input.event ≠ .stop) →
              (.fingerprintBlocked ∉ failures inputs →
                (failures inputs).length < max 1 cfg.degradedThreshold.toNat →
                (fsm cfg).run (.active method port startedAt fails) inputs
                  = some (.active method port startedAt (UInt8.ofNat (failures inputs).length))) ∧
              (∀ kinds kind, failures inputs = kinds ++ [kind] → .fingerprintBlocked ∉ kinds →
                kinds.length < max 1 cfg.degradedThreshold.toNat →
                kind = .fingerprintBlocked ∨ kinds.length + 1 = max 1 cfg.degradedThreshold.toNat →
                ∃ count, (fsm cfg).run (.active method port startedAt fails) inputs
                  = some (.degraded method port count))) ∧
        (∀ method port fails kind, state = .degraded method port fails →
          input.event = .transportFailure kind → kind ≠ .tlsCertProblem →
          state.react cfg input = (.idle, [.stopActive])) ∧
        (input.event = .transportFailure .tlsCertProblem → state.react cfg input = (state, [])) ∧
        (∀ session, state.session = some session →
          ((state.react cfg input).1.session = some session ∧ (state.react cfg input).2 = []) ∨
          ((state.react cfg input).1 = .idle ∧ (state.react cfg input).2 = [.stopActive])) := by
  have hinv := lifetimeInv_of_reachable hreach
  refine ⟨hinv.active, hinv.degraded, ?_⟩
  intro input
  have hreacts := reacts_reduce input.scores cfg input.now input.nowSys state input.event
  refine ⟨?_, ?_, ?_, ?_⟩
  . intro method port startedAt fails hbefore hafter
    rcases hreacts.enters_active hbefore hafter with ⟨_, _, _, _, _, _, hfails, _⟩
    refine ⟨hfails, ?_⟩
    rw [hfails]
    intro inputs hstop
    constructor
    . intro hblocked hlt
      have hzero : (0 : UInt8).toNat = 0 := rfl
      rw [run_counted hstop hblocked (by rwa [hzero, Nat.zero_add]), hzero, Nat.zero_add]
    . intro kinds kind
      exact run_degrades hstop
  . intro method port fails kind hstate hevent hkind
    have hge := hinv.degraded method port fails hstate
    unfold VeilState.react
    rw [hstate, hevent, reduce_degraded _ _ _ _ hkind, if_pos hge]
  . intro hevent
    apply reduce_of_ignores
    rw [hevent]
    cases state <;> trivial
  . intro session
    exact hreacts.of_session

/--
With the default threshold of two, the certificate problem between the two timeouts does not count.
-/
theorem active_lifetime_two_timeouts
    : (fsm .default).run .idle
          [⟨.start "relay" .default ⟨0⟩, CachedScoreLookup.empty, 0, 0⟩,
           ⟨.probeSucceeded .obfs4 4000 70, CachedScoreLookup.empty, 1, 1⟩,
           ⟨.transportFailure .streamTimeout, CachedScoreLookup.empty, 2, 2⟩,
           ⟨.transportFailure .tlsCertProblem, CachedScoreLookup.empty, 3, 3⟩,
           ⟨.transportFailure .streamTimeout, CachedScoreLookup.empty, 4, 4⟩]
          = some (.degraded .obfs4 4000 2) ∧
        (VeilState.degraded .obfs4 4000 2).react .default
          ⟨.transportFailure .unknown, CachedScoreLookup.empty, 5, 5⟩ = (.idle, [.stopActive]) := by
  let inputs : List FsmInput :=
    [⟨.start "relay" .default ⟨0⟩, CachedScoreLookup.empty, 0, 0⟩,
     ⟨.probeSucceeded .obfs4 4000 70, CachedScoreLookup.empty, 1, 1⟩,
     ⟨.transportFailure .streamTimeout, CachedScoreLookup.empty, 2, 2⟩,
     ⟨.transportFailure .tlsCertProblem, CachedScoreLookup.empty, 3, 3⟩,
     ⟨.transportFailure .streamTimeout, CachedScoreLookup.empty, 4, 4⟩]
  have hrun : (fsm .default).run .idle inputs = some (.degraded .obfs4 4000 2) := rfl
  refine ⟨hrun, ?_⟩
  rcases (active_lifetime .default (.degraded .obfs4 4000 2) ⟨inputs, hrun⟩).2.2
    ⟨.transportFailure .unknown, CachedScoreLookup.empty, 5, 5⟩ with ⟨_, hlast, _⟩
  exact hlast .obfs4 4000 2 .unknown rfl rfl (by decide)

end Veil
