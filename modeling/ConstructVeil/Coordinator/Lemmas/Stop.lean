import ConstructVeil.Coordinator.Impl.Start
import ConstructVeil.Coordinator.Lemmas.Slot

/-!
This module contains what becomes of a `stop` that executes while a session is being started.
-/

namespace Veil

open Prog

namespace SlotAction

def ofStart : SlotAction → Bool
  | .drawId => true
  | .install _ _ _ => true
  | .spawn _ => true
  | _ => false

def isInstall : SlotAction → Bool
  | .install _ _ _ => true
  | _ => false

end SlotAction

namespace SlotState

theorem active_step {s s' : SlotState} (h : s.Inv) {action : SlotAction}
    (hs : s.step action = some s') (hinstall : action.isInstall = false) (hstop : action ≠ .stop)
    (hclear : ∀ task, s.holds = some task → action ≠ .clear task) : s'.active = s.active := by
  cases action with
  | install id port method => cases hinstall
  | stop => exact absurd rfl hstop
  | clear task =>
    cases (h.clear hs).2 with
    | inl hsame => exact hsame
    | inr hcleared => exact absurd rfl (hclear task hcleared.1)
  | drawId =>
    injection hs with hs
    rw [← hs]
  | _ =>
    simp only [step, updateTask] at hs
    repeat' split at hs
    all_goals cases hs
    all_goals rfl

theorem active_stop (s : SlotState) : s.stop.1.active = none := by
  unfold stop
  split
  . rfl
  . assumption

theorem active_clear {s s' : SlotState} (h : s.Inv) {task : Nat} (hholds : s.holds = some task)
    (hs : s.step (.clear task) = some s') : s'.active = none := by
  rw [holds_eq_some_iff] at hholds
  rcases hholds with ⟨a, ha, hrfl⟩
  rcases h.handle a ha with ⟨x, hx, hid⟩
  rw [hrfl] at hx
  simp only [step, hx] at hs
  split at hs
  . injection hs with hs
    rw [← hs]
    simp [ha, hid]
  . cases hs

theorem empty_run {s s' : SlotState} {actions : List SlotAction} (h : s.Inv)
    (hempty : s.active = none) (hinstall : ∀ a ∈ actions, a.isInstall = false)
    (hrun : slotMachine.run s actions = some s') : s'.active = none := by
  have : s'.Inv ∧ s'.active = none := by
    apply slotMachine.run_induction _ ⟨h, hempty⟩ hrun
    intro a ha s s' hs hstep
    refine ⟨hs.1.step hstep, ?_⟩
    by_cases hstop : a = .stop
    . rw [hstop] at hstep
      injection hstep with hstep
      rw [← hstep]
      apply active_stop
    . rw [active_step hs.1 hstep (hinstall a ha) hstop]
      . exact hs.2
      . simp [holds, hs.2]
  exact this.2

theorem inv_run {s s' : SlotState} {actions : List SlotAction} (h : s.Inv)
    (hrun : slotMachine.run s actions = some s') : s'.Inv := by
  apply slotMachine.run_induction _ h hrun
  intro a _ s s' hs hstep
  exact hs.step hstep

theorem stopped_run {s s' : SlotState} {actions : List SlotAction} (h : s.Inv)
    (hstop : .stop ∈ actions) (hinstall : ∀ a ∈ actions, a.isInstall = false)
    (hrun : slotMachine.run s actions = some s') : s'.active = none := by
  rcases List.append_of_mem hstop with ⟨pre, post, rfl⟩
  rw [slotMachine.run_append_eq_some_iff] at hrun
  rcases hrun with ⟨mid, hpre, hpost⟩
  rw [slotMachine.run_cons_eq_some_iff] at hpost
  rcases hpost with ⟨stopped, hstep, hpost⟩
  injection hstep with hstep
  subst hstep
  apply empty_run (inv_run h hpre).stop.1 (active_stop mid) _ hpost
  intro a ha
  apply hinstall
  simp [ha]

theorem alive_run {s s' : SlotState} {actions : List SlotAction} {task : Nat} (h : s.Inv)
    (hholds : s.holds = some task) (hinstall : ∀ a ∈ actions, a.isInstall = false)
    (hrun : slotMachine.run s actions = some s')
    : s'.isAlive = true ↔ .stop ∉ actions ∧ .clear task ∉ actions := by
  induction actions generalizing s with
  | nil =>
    injection hrun with hrun
    rw [← hrun]
    rw [holds_eq_some_iff] at hholds
    rcases hholds with ⟨a, ha, _⟩
    simp [isAlive, ha]
  | cons action actions ih =>
    rw [slotMachine.run_cons_eq_some_iff] at hrun
    rcases hrun with ⟨mid, hstep, hrun⟩
    rw [List.forall_mem_cons] at hinstall
    have hmid := h.step hstep
    -- either this step empties the slot, for good as nothing is installed any more, or it leaves it
    -- alone
    by_cases hends : action = .stop ∨ action = .clear task
    . have hempty : mid.active = none := by
        cases hends with
        | inl hstop =>
          rw [hstop] at hstep
          injection hstep with hstep
          rw [← hstep]
          apply active_stop
        | inr hclear =>
          rw [hclear] at hstep
          exact active_clear h hholds hstep
      have := empty_run hmid hempty hinstall.2 hrun
      simp only [isAlive, this, Option.isSome_none, Bool.false_eq_true, false_iff, List.mem_cons]
      intro hnone
      cases hends with
      | inl hstop => exact hnone.1 (.inl hstop.symm)
      | inr hclear => exact hnone.2 (.inl hclear.symm)
    . rw [not_or] at hends
      have hsame : mid.active = s.active := by
        apply active_step h hstep hinstall.1 hends.1
        intro task' htask' heq
        rw [hholds] at htask'
        injection htask' with htask'
        rw [htask'] at hends
        exact hends.2 heq
      rw [ih hmid _ hinstall.2 hrun]
      . simp only [List.mem_cons, not_or]
        constructor
        . intro hnone
          exact ⟨⟨fun heq => hends.1 heq.symm, hnone.1⟩, ⟨fun heq => hends.2 heq.symm, hnone.2⟩⟩
        . intro hnone
          exact ⟨hnone.1.2, hnone.2.2⟩
      . unfold holds at hholds ⊢
        rw [hsame]
        exact hholds

theorem length_sessions_stop (s : SlotState) : s.stop.1.sessions.length = s.sessions.length := by
  unfold stop
  split
  . simp [shutDown]
  . rfl

theorem length_sessions_run {s s' : SlotState} {actions : List SlotAction}
    (hinstall : ∀ a ∈ actions, a.isInstall = false) (hrun : slotMachine.run s actions = some s')
    : s'.sessions.length = s.sessions.length := by
  apply slotMachine.run_induction (motive := fun t => t.sessions.length = s.sessions.length) _ rfl
    hrun
  intro action ha t t' ht hstep
  rw [← ht]
  specialize hinstall action ha
  cases action with
  | install id port method => cases hinstall
  | stop =>
    injection hstep with hstep
    rw [← hstep]
    apply length_sessions_stop
  | drawId =>
    injection hstep with hstep
    rw [← hstep]
  | _ =>
    simp only [slotMachine, step, updateTask] at hstep
    repeat' split at hstep
    all_goals cases hstep
    all_goals simp

theorem alive_after_install {s s' : SlotState} {before after : List SlotAction} {id : Nat}
    {port : UInt16} {method : MethodId} (h : s.Inv)
    (hrun : slotMachine.run s (before ++ .install id port method :: after) = some s')
    (hbefore : ∀ a ∈ before, a.isInstall = false) (hafter : ∀ a ∈ after, a.isInstall = false)
    : s'.isAlive = true ↔ .stop ∉ after ∧ .clear s.sessions.length ∉ after := by
  rw [slotMachine.run_append_eq_some_iff] at hrun
  rcases hrun with ⟨mid, hrun, hinstalled⟩
  rw [slotMachine.run_cons_eq_some_iff] at hinstalled
  rcases hinstalled with ⟨installed, hstep, hinstalled⟩
  rw [← length_sessions_run hbefore hrun]
  simp only [slotMachine, step] at hstep
  split at hstep
  . next hid =>
    injection hstep with hstep
    subst hstep
    apply alive_run ((inv_run h hrun).install hid port method) _ hafter hinstalled
    simp [holds, install, length_sessions_stop]
  . cases hstep

end SlotState

/--
The slot, and what has happened to it since the start began.
-/
structure SlotWorld where
  slot : SlotState
  history : List SlotAction

def SlotWorld.Runs (w : SlotWorld) (actions : List SlotAction) (w' : SlotWorld) : Prop :=
  slotMachine.run w.slot actions = some w'.slot ∧ w'.history = w.history ++ actions

theorem SlotWorld.Runs.trans {w mid w' : SlotWorld} {as bs : List SlotAction} (has : w.Runs as mid)
    (hbs : mid.Runs bs w') : w.Runs (as ++ bs) w' := by
  constructor
  . rw [slotMachine.run_append_eq_some_iff]
    exact ⟨mid.slot, has.1, hbs.1⟩
  . rw [hbs.2, has.2, List.append_assoc]

def slotHandle : Handler StartAction SlotWorld := fun _ w action answer w' =>
  match action, answer with
  | .drawId, id => id = w.slot.nextSessionId + 1 ∧ w.Runs [.drawId] w'
  | .install id port params, task =>
    task = w.slot.sessions.length ∧ w.Runs [.install id port params.method] w'
  | .spawnProxy task, _ => w.Runs [.spawn task] w'
  | .stopActive, _ => w.Runs [.stop] w'
  | .now, _ => w' = w
  | .sleep _, _ => w' = w
  | .readScores _, _ => w' = w
  | .recordScore _ _ _, _ => w' = w
  | .startObfuscator _ _, _ => w' = w
  | .firstByte _ _, _ => w' = w
  | .spawnProbe _, _ => w' = w
  | .recv, _ => w' = w
  | .cancelProbes, _ => w' = w
  | .bindListener, _ => w' = w

/--
After each action of the start, stops and proxy tasks can take any number of steps.
-/
def interleaved : Handler StartAction SlotWorld := fun _ w action answer w' =>
  ∃ mid others, slotHandle w action answer mid ∧ (∀ a ∈ others, a.ofStart = false) ∧
    mid.Runs others w'

/--
A start that begins with the slot in state `s` and ends with it in state `s'`, with nothing but
stops and proxy tasks next to it. `history` is all that happens to the slot in between.
-/
def Interleaving (c : VeilCoordinator) (p : StartParams) (s : SlotState) (history : List SlotAction)
    (result : Except StartAbort CoordinatorStartResult) (s' : SlotState) : Prop :=
  ∃ before mid, (∀ a ∈ before, a.ofStart = false) ∧ slotMachine.run s before = some mid ∧
    Run interleaved ⟨mid, before⟩ (c.startSessionWithParams p) result ⟨s', history⟩

def StartAction.installs : ⦃β : Type⦄ → StartAction β → Prop
  | _, .install _ _ _ => True
  | _, _ => False

theorem countP_isInstall_others {others : List SlotAction} (h : ∀ a ∈ others, a.ofStart = false)
    : others.countP SlotAction.isInstall = 0 := by
  rw [List.countP_eq_zero]
  intro a ha hinstall
  specialize h a ha
  cases a <;> simp [SlotAction.isInstall, SlotAction.ofStart] at hinstall h

theorem isInstall_of_countP {actions : List SlotAction}
    (h : actions.countP SlotAction.isInstall = 0) : ∀ a ∈ actions, a.isInstall = false := by
  intro a ha
  simpa using List.countP_eq_zero.mp h a ha

theorem slotHandle_runs {β : Type} {w w' : SlotWorld} {action : StartAction β} {answer : β}
    (h : slotHandle w action answer w')
    : ∃ own, w.Runs own w' ∧ own.countP SlotAction.isInstall ≤ 1 ∧
        (¬action.installs → own.countP SlotAction.isInstall = 0) := by
  cases action with
  | install id port params =>
    exact ⟨_, h.2, by simp [SlotAction.isInstall], by simp [StartAction.installs]⟩
  | drawId => exact ⟨_, h.2, by simp [SlotAction.isInstall], by simp [SlotAction.isInstall]⟩
  | spawnProxy task => exact ⟨_, h, by simp [SlotAction.isInstall], by simp [SlotAction.isInstall]⟩
  | stopActive => exact ⟨_, h, by simp [SlotAction.isInstall], by simp [SlotAction.isInstall]⟩
  | _ =>
    refine ⟨[], ?_, by simp, by simp⟩
    rw [show w' = w from h]
    exact ⟨rfl, by simp⟩

theorem interleaved_runs {β : Type} {w w' : SlotWorld} {action : StartAction β} {answer : β}
    (h : interleaved w action answer w')
    : ∃ actions, w.Runs actions w' ∧ actions.countP SlotAction.isInstall ≤ 1 ∧
        (¬action.installs → actions.countP SlotAction.isInstall = 0) := by
  rcases h with ⟨mid, others, hown, hothers, hruns⟩
  rcases slotHandle_runs hown with ⟨own, hown, hle, hzero⟩
  refine ⟨own ++ others, hown.trans hruns, ?_, ?_⟩
  . rw [List.countP_append, countP_isInstall_others hothers]
    exact hle
  . intro hinstalls
    rw [List.countP_append, countP_isInstall_others hothers, hzero hinstalls]

theorem run_interleaved {α : Type} {w w' : SlotWorld} {prog : Start α} {result : α}
    (h : Run interleaved w prog result w')
    : ∃ actions, w.Runs actions w' ∧
        (prog.Avoids StartAction.installs → actions.countP SlotAction.isInstall = 0) ∧
        (prog.AtMostOnce StartAction.installs → actions.countP SlotAction.isInstall ≤ 1) := by
  induction h with
  | done s value => exact ⟨[], ⟨rfl, by simp⟩, by simp, by simp⟩
  | act answer hact hnext ih =>
    rcases interleaved_runs hact with ⟨first, hfirst, hle, hzero⟩
    rcases ih with ⟨rest, hrest, havoids, honce⟩
    refine ⟨first ++ rest, hfirst.trans hrest, ?_, ?_⟩
    . intro h
      rw [List.countP_append, hzero h.1, havoids (h.2 answer)]
    . intro h
      rw [List.countP_append]
      rename_i action _ _
      -- the install comes now and never again, or not now
      by_cases hinstalls : action.installs
      . rw [havoids ((h answer).1 hinstalls)]
        exact hle
      . rw [hzero hinstalls]
        have := honce (h answer).2
        omega

namespace VeilCoordinator

variable (c : VeilCoordinator) (p : StartParams) (scores : ScoreLookup)

theorem avoids_executeProbeWithParams (method : MethodId)
    : (c.executeProbeWithParams p method).Avoids StartAction.installs := by
  unfold executeProbeWithParams
  split
  . apply Avoids.bind
    . simp [StartAction.installs]
    . intro started
      cases started with
      | error e => simp
      | ok u =>
        apply Avoids.bind
        . simp [StartAction.installs]
        . intro answer
          split <;> simp
  . simp

theorem avoids_recordScores (effects : List VeilEffect)
    : (recordScores p effects).Avoids StartAction.installs := by
  induction effects with
  | nil => simp [recordScores]
  | cons effect effects ih =>
    cases effect with
    | recordScore method fingerprint outcome =>
      unfold recordScores
      apply Avoids.bind
      . simp [StartAction.installs]
      . intro _
        exact ih
    | _ => exact ih

theorem avoids_recordFailures (failures : List (MethodId × ProbeFailureReason))
    : (recordFailures p failures).Avoids StartAction.installs := by
  induction failures with
  | nil => simp [recordFailures]
  | cons failure failures ih =>
    unfold recordFailures
    apply Avoids.bind
    . simp [StartAction.installs]
    . intro _
      exact ih

theorem avoids_handleProbeFailure (method : MethodId) (reason : ProbeFailureReason)
    (state : VeilState)
    : (c.handleProbeFailure p scores method reason state).Avoids StartAction.installs := by
  unfold handleProbeFailure
  apply Avoids.bind
  . simp [StartAction.installs]
  . intro clocks
    apply Avoids.bind
    . apply avoids_recordScores
    . simp

theorem avoids_handleProbeFailures (failures : List (MethodId × ProbeFailureReason))
    (state : VeilState)
    : (c.handleProbeFailures p scores failures state).Avoids StartAction.installs := by
  induction failures generalizing state with
  | nil => simp [handleProbeFailures]
  | cons failure failures ih =>
    unfold handleProbeFailures
    apply Avoids.bind
    . apply avoids_handleProbeFailure
    . intro state
      apply ih

theorem avoids_handleAllProbesFailed (state : VeilState)
    : (c.handleAllProbesFailed scores state).Avoids StartAction.installs := by
  unfold handleAllProbesFailed
  split
  . apply Avoids.bind
    . simp [StartAction.installs]
    . simp
  . simp

theorem avoids_return_allProbesFailed (state : VeilState)
    : ((return .ok (← c.handleAllProbesFailed scores state))
        : Start (Except StartAbort VeilState)).Avoids StartAction.installs := by
  apply Avoids.bind
  . apply avoids_handleAllProbesFailed
  . simp

theorem avoids_launchProbes_go (i : Nat) (methods : List MethodId)
    : (launchProbes.go c p i methods).Avoids StartAction.installs := by
  induction methods generalizing i with
  | nil => simp [launchProbes.go]
  | cons method methods ih =>
    unfold launchProbes.go
    split
    all_goals
      apply Avoids.bind
      . simp [StartAction.installs]
      . intro _
        apply ih

theorem avoids_collectResults (fuel : Nat) (failures : List (MethodId × ProbeFailureReason))
    : (collectResults fuel failures).Avoids StartAction.installs := by
  induction fuel generalizing failures with
  | zero => simp [collectResults]
  | succ fuel ih =>
    unfold collectResults
    apply Avoids.bind
    . simp [StartAction.installs]
    . intro answer
      split
      . simp
      . simp
      . apply ih

theorem atMostOnce_installSession (port : UInt16) (params : ProxyParams)
    : (installSession port params).AtMostOnce StartAction.installs := by
  unfold installSession
  apply Avoids.bind_atMostOnce
  . simp [StartAction.installs]
  . intro id
    apply AtMostOnce.bind
    . apply atMostOnce_perform
    . simp [StartAction.installs]

theorem atMostOnce_handleProbeSuccess (method : MethodId) (latencyMs : UInt32) (state : VeilState)
    : (c.handleProbeSuccess p scores method latencyMs state).AtMostOnce StartAction.installs := by
  unfold handleProbeSuccess
  apply Avoids.bind_atMostOnce
  . simp [StartAction.installs]
  . intro bound
    cases bound with
    | error e => simp [Avoids.atMostOnce]
    | ok port =>
      apply Avoids.bind_atMostOnce
      . simp [StartAction.installs]
      . intro clocks
        apply Avoids.bind_atMostOnce
        . apply avoids_recordScores
        . intro _
          apply AtMostOnce.bind
          . apply atMostOnce_installSession
          . simp

theorem atMostOnce_runSequentialProbes (methods : List MethodId) (state : VeilState)
    : (c.runSequentialProbes p scores methods state).AtMostOnce StartAction.installs := by
  induction methods generalizing state with
  | nil =>
    apply Avoids.atMostOnce
    apply avoids_return_allProbesFailed
  | cons method methods ih =>
    unfold runSequentialProbes
    apply Avoids.bind_atMostOnce
    . simp [StartAction.installs]
    . intro probeStart
      apply Avoids.bind_atMostOnce
      . apply avoids_executeProbeWithParams
      . intro result
        apply Avoids.bind_atMostOnce
        . simp [StartAction.installs]
        . intro probeEnd
          cases result with
          | ok u => apply atMostOnce_handleProbeSuccess
          | error reason =>
            apply Avoids.bind_atMostOnce
            . apply avoids_handleProbeFailure
            . intro state
              cases state with
              | idle => exact (c.avoids_return_allProbesFailed scores _).atMostOnce
              | cooldown until_ => exact (c.avoids_return_allProbesFailed scores _).atMostOnce
              | _ => apply ih

theorem atMostOnce_runParallelProbes (methods : List MethodId) (state : VeilState)
    : (c.runParallelProbes p scores methods state).AtMostOnce StartAction.installs := by
  unfold runParallelProbes
  split
  . simp [Avoids.atMostOnce]
  . apply Avoids.bind_atMostOnce
    . apply avoids_launchProbes_go
    . intro _
      apply Avoids.bind_atMostOnce
      . apply avoids_collectResults
      . intro results
        apply Avoids.bind_atMostOnce
        . simp [StartAction.installs]
        . intro _
          split
          . simp [Avoids.atMostOnce]
          . apply Avoids.bind_atMostOnce
            . simp [StartAction.installs]
            . intro bound
              cases bound with
              | error e => simp [Avoids.atMostOnce]
              | ok port =>
                apply Avoids.bind_atMostOnce
                . simp [StartAction.installs]
                . intro clocks
                  apply Avoids.bind_atMostOnce
                  . apply avoids_recordScores
                  . intro _
                    apply Avoids.bind_atMostOnce
                    . apply avoids_recordFailures
                    . intro _
                      apply AtMostOnce.bind
                      . apply atMostOnce_installSession
                      . simp
          . apply Avoids.atMostOnce
            apply Avoids.bind
            . apply avoids_handleProbeFailures
            . intro state
              apply avoids_return_allProbesFailed

theorem atMostOnce_executeEffectWithParams (effect : VeilEffect) (state : VeilState)
    : (c.executeEffectWithParams p scores effect state).AtMostOnce StartAction.installs := by
  cases effect with
  | startProbes methods relay =>
    unfold executeEffectWithParams
    dsimp only
    split
    . apply atMostOnce_runSequentialProbes
    . apply atMostOnce_runParallelProbes
  | cancelOtherProbes winner => trivial
  | scheduleCooldown duration => trivial
  | stopActive =>
    apply Avoids.atMostOnce
    apply Avoids.bind
    . simp [StartAction.installs]
    . simp
  | recordScore method fingerprint outcome =>
    apply Avoids.atMostOnce
    apply Avoids.bind
    . simp [StartAction.installs]
    . intro answer
      cases answer <;> simp

theorem reduce_start_effects (fingerprint : NetworkFingerprint) (allowedMethods : MethodSet)
    (relay : String) (cfg : VeilConfig) (now : Instant) (nowSys : SystemTime)
    : ∃ effect, (reduce .idle (.start relay fingerprint allowedMethods) scores cfg now nowSys).2
        = [effect] := by
  unfold reduce
  dsimp only
  split
  . exact ⟨_, rfl⟩
  . exact ⟨_, rfl⟩

theorem avoids_startLoop (allowedMethods : MethodSet) (startTime : Instant) {state : VeilState}
    (h : loopRank state = 0)
    : (c.startLoop p allowedMethods startTime state).Avoids StartAction.installs := by
  rw [startLoop]
  apply Avoids.bind
  . simp [StartAction.installs]
  . intro rows
    apply Avoids.bind
    . simp [StartAction.installs]
    . intro clocks
      split
      . simp
      . next hnext =>
        -- the loop never comes back to a state in which it probes
        rw [loopRank_of_nextEvent p hnext] at h
        cases h

theorem atMostOnce_startLoop (allowedMethods : MethodSet) (startTime : Instant)
    : (c.startLoop p allowedMethods startTime .idle).AtMostOnce StartAction.installs := by
  rw [startLoop]
  apply Avoids.bind_atMostOnce
  . simp [StartAction.installs]
  . intro rows
    apply Avoids.bind_atMostOnce
    . simp [StartAction.installs]
    . intro clocks
      simp only [nextEvent, sleepUnlessZero, ↓reduceIte]
      rcases reduce_start_effects (cachedScores rows) p.fingerprint allowedMethods p.relay c.config
        clocks.1 clocks.2 with ⟨effect, heffect⟩
      rw [heffect]
      apply Avoids.bind_atMostOnce avoids_pure
      intro _
      apply AtMostOnce.bind
      . apply AtMostOnce.bind
        . apply atMostOnce_executeEffectWithParams
        . intro raced
          cases raced with
          | error abort => simp
          | ok state => simp [executeEffects]
      . intro raced
        split
        . simp
        . apply Avoids.bind
          . simp [StartAction.installs]
          . intro ended
            apply Avoids.bind
            . simp [StartAction.installs]
            . simp
        . simp
        . simp
        . apply avoids_startLoop
          rfl
        . apply avoids_startLoop
          rfl

theorem atMostOnce_startSessionWithParams
    : (c.startSessionWithParams p).AtMostOnce StartAction.installs := by
  unfold startSessionWithParams
  apply Avoids.bind_atMostOnce
  . simp [StartAction.installs]
  . intro startTime
    dsimp only
    split
    . trivial
    . apply atMostOnce_startLoop

end VeilCoordinator

/--
A stop that executes during a start is effective, i.e. no session is active when both have returned,
exactly if it is not followed by the start's install alone: either the start installs no session, or
a stop, or the end of the new session's own task, comes after the install.
-/
theorem stop_effective_iff (c : VeilCoordinator) (p : StartParams) (s s' : SlotState)
    (history : List SlotAction) (result : Except StartAbort CoordinatorStartResult)
    (hreach : slotMachine.Reachable s) (hrun : Interleaving c p s history result s')
    (hstop : .stop ∈ history)
    : (s'.isAlive = false ∧ s'.port = 0)
        ↔
      ∀ before id port method after, history = before ++ .install id port method :: after →
        .stop ∈ after ∨ .clear s.sessions.length ∈ after := by
  have hinv := SlotState.inv_of_reachable hreach
  rcases hrun with ⟨first, mid, hfirst, hmid, hrun⟩
  rcases run_interleaved hrun with ⟨actions, ⟨hactions, hhistory⟩, _, honce⟩
  dsimp only at hactions hhistory
  have hslot : slotMachine.run s history = some s' := by
    rw [hhistory, slotMachine.run_append_eq_some_iff]
    exact ⟨mid, hmid, hactions⟩
  have hcount : history.countP SlotAction.isInstall ≤ 1 := by
    rw [hhistory, List.countP_append, countP_isInstall_others hfirst, Nat.zero_add]
    apply honce
    apply c.atMostOnce_startSessionWithParams
  -- there is one install at most, so it decides together with what comes after it
  have halive : ∀ before id port method after,
      history = before ++ .install id port method :: after →
      (s'.isAlive = true ↔ .stop ∉ after ∧ .clear s.sessions.length ∉ after) := by
    intro before id port method after heq
    rw [heq] at hslot hcount
    rw [List.countP_append, List.countP_cons_of_pos rfl] at hcount
    apply SlotState.alive_after_install hinv hslot
    . apply isInstall_of_countP
      omega
    . apply isInstall_of_countP
      omega
  constructor
  . intro hdead before id port method after heq
    have := (halive before id port method after heq).not.mp (by simp [hdead.1])
    rw [not_and_or, not_not, not_not] at this
    exact this
  . intro hends
    have hdead : s'.isAlive = false := by
      by_cases hcount : history.countP SlotAction.isInstall = 0
      . rw [SlotState.isAlive, SlotState.stopped_run hinv hstop (isInstall_of_countP hcount) hslot]
        rfl
      . rw [List.countP_eq_zero, not_forall] at hcount
        rcases hcount with ⟨a, hcount⟩
        rw [Classical.not_imp, not_not] at hcount
        rcases hcount with ⟨ha, hinstall⟩
        cases a with
        | install id port method =>
          rcases List.append_of_mem ha with ⟨before, after, heq⟩
          rw [← Bool.not_eq_true, halive before id port method after heq]
          intro hnone
          cases hends before id port method after heq with
          | inl hstopped => exact hnone.1 hstopped
          | inr hcleared => exact hnone.2 hcleared
        | _ => cases hinstall
    refine ⟨hdead, ?_⟩
    unfold SlotState.isAlive at hdead
    rw [Option.isSome_eq_false_iff, Option.isNone_iff_eq_none] at hdead
    rw [SlotState.port, hdead]
    rfl

/--
The shipping setup: one obfuscator, all methods allowed.
-/
def veilFrontOnly : VeilCoordinator := ⟨VeilConfig.default, (· == .veilFront)⟩

def plainParams : StartParams := ⟨"relay:443", [7], ⟨0⟩, "", "", "", ⟨"", ""⟩⟩

theorem alone_step {β : Type} {w : SlotWorld} (w' : SlotWorld) {action : StartAction β} {answer : β}
    (h : slotHandle w action answer w') : interleaved w action answer w' :=
  ⟨w', [], h, by simp, rfl, by simp⟩

theorem others_step {β : Type} {w : SlotWorld} {action : StartAction β} {answer : β}
    {others : List SlotAction} {slot : SlotState} (h : slotHandle w action answer w)
    (hothers : ∀ a ∈ others, a.ofStart = false) (hrun : slotMachine.run w.slot others = some slot)
    : interleaved w action answer ⟨slot, w.history ++ others⟩ :=
  ⟨w, others, h, hothers, hrun, rfl⟩

/--
A start that succeeds, with some steps of others while it probes and some at its end.
-/
theorem interleaving_start (early late : List SlotAction) {s' : SlotState}
    (hearly : ∀ a ∈ early, a.ofStart = false) (hinit : slotMachine.run .init early = some .init)
    (hlate : ∀ a ∈ late, a.ofStart = false)
    (hend : slotMachine.run
      ⟨1, [], some ⟨1, 4001, .veilFront, 0⟩, [⟨1, false, false, .accepting⟩], []⟩ late = some s')
    : Interleaving veilFrontOnly plainParams .init
        (early ++ [.drawId] ++ [.install 1 4001 .veilFront] ++ [.spawn 0] ++ late)
        (.ok ⟨4001, .veilFront, 0⟩) s' := by
  refine ⟨[], .init, by simp, rfl, ?_⟩
  refine .act (0, 0) (alone_step _ rfl) ?_
  show Run interleaved _ (veilFrontOnly.startLoop plainParams ⟨7⟩ 0 .idle) _ _
  rw [VeilCoordinator.startLoop]
  refine .act (.ok []) (alone_step _ rfl) ?_
  refine .act (0, 0) (alone_step _ rfl) ?_
  -- veil-front is the only candidate
  refine .act (0, 0) (alone_step _ rfl) ?_
  refine .act (.ok ()) (others_step rfl hearly hinit) ?_
  refine .act (some (.ok ())) (alone_step _ rfl) ?_
  refine .act (0, 0) (alone_step _ rfl) ?_
  -- the winner is scored and installed
  refine .act (.ok 4001) (alone_step _ rfl) ?_
  refine .act (0, 0) (alone_step _ rfl) ?_
  refine .act (.ok ()) (alone_step _ rfl) ?_
  refine .act 1 (alone_step ⟨⟨1, [1], none, [], []⟩, early ++ [.drawId]⟩ ⟨rfl, rfl, rfl⟩) ?_
  refine .act 0 (alone_step
    ⟨⟨1, [], some ⟨1, 4001, .veilFront, 0⟩, [⟨1, false, false, .unspawned⟩], []⟩,
      early ++ [.drawId] ++ [.install 1 4001 .veilFront]⟩ ⟨rfl, rfl, rfl⟩) ?_
  refine .act () (alone_step
    ⟨⟨1, [], some ⟨1, 4001, .veilFront, 0⟩, [⟨1, false, false, .accepting⟩], []⟩,
      early ++ [.drawId] ++ [.install 1 4001 .veilFront] ++ [.spawn 0]⟩ ⟨rfl, rfl⟩) ?_
  refine .act (0, 0) (alone_step _ rfl) ?_
  refine .act () (others_step rfl hlate hend) ?_
  exact .done _ _

theorem interleaving_stop_while_probing
    : Interleaving veilFrontOnly plainParams .init
        [.stop, .drawId, .install 1 4001 .veilFront, .spawn 0] (.ok ⟨4001, .veilFront, 0⟩)
        ⟨1, [], some ⟨1, 4001, .veilFront, 0⟩, [⟨1, false, false, .accepting⟩], []⟩ :=
  interleaving_start [.stop] [] (by simp [SlotAction.ofStart]) rfl (by simp) rfl

/--
The stop of the same start is effective after the install and lost before it.
-/
theorem stop_effective_iff_both_orders
    : (∃ s', Interleaving veilFrontOnly plainParams .init
        [.drawId, .install 1 4001 .veilFront, .spawn 0, .stop] (.ok ⟨4001, .veilFront, 0⟩) s' ∧
          s'.isAlive = false ∧ s'.port = 0) ∧
      ¬ ∀ before id port method after,
        [.stop, .drawId, .install 1 4001 .veilFront, .spawn 0]
          = before ++ SlotAction.install id port method :: after →
        .stop ∈ after ∨ .clear 0 ∈ after := by
  constructor
  . have hrun : Interleaving veilFrontOnly plainParams .init
        [.drawId, .install 1 4001 .veilFront, .spawn 0, .stop] (.ok ⟨4001, .veilFront, 0⟩) _ :=
      interleaving_start [] [.stop] (by simp) rfl (by simp [SlotAction.ofStart]) rfl
    refine ⟨_, hrun, (stop_effective_iff _ _ _ _ _ _ ⟨[], rfl⟩ hrun (by decide)).mpr ?_⟩
    intro before id port method after heq
    rcases before with _ | ⟨a, _ | ⟨b, _ | ⟨c, _ | ⟨d, before⟩⟩⟩⟩
    all_goals simp at heq
    simp [← heq.2.2]
  . intro h
    have heffective := (stop_effective_iff _ _ _ _ _ _ ⟨[], rfl⟩ interleaving_stop_while_probing
      (by decide)).mpr h
    exact absurd heffective.1 (by decide)

/--
The stop comes before the install and is lost: the start returns a session, and it stays active.
-/
theorem stop_lost_while_probing
    : ¬ ∀ (c : VeilCoordinator) (p : StartParams) (s s' : SlotState) (history : List SlotAction)
        (result : Except StartAbort CoordinatorStartResult),
        slotMachine.Reachable s → s.waiting = [] → Interleaving c p s history result s' →
        .stop ∈ history → s'.isAlive = false ∧ s'.port = 0 := by
  intro h
  have := h _ _ _ _ _ _ ⟨[], rfl⟩ rfl interleaving_stop_while_probing (by decide)
  exact absurd this.1 (by decide)

end Veil
