import ConstructVeil.Coordinator.Lemmas.Scoring

/-!
This module contains the outcome of a start: it ends as its probes went, whatever the scores store
does and in whatever order the probes report.
-/

namespace Veil

open Prog

/--
What probing a method comes to: the answer of its obfuscator, what comes of the first byte (`none`
if nothing does before the timeout), and the time this takes.
-/
structure ProbeRun where
  start : Except ObfuscatorError Unit
  firstByte : Option (Except ObfuscatorError Unit)
  latencyMs : UInt32

namespace ProbeRun

def verdict (run : ProbeRun) : Except ProbeFailureReason Unit :=
  match run.start with
  | .error e => .error (classifyObfuscatorError e)
  | .ok () =>
    match run.firstByte with
    | some (.ok ()) => .ok ()
    | some (.error e) => .error (classifyObfuscatorError e)
    | none => .error .timeout

def succeeds (run : ProbeRun) : Bool :=
  match run.verdict with
  | .ok () => true
  | .error _ => false

def outcome (run : ProbeRun) : ProbeOutcome :=
  match run.verdict with
  | .ok () => .success run.latencyMs
  | .error reason => .failure reason run.latencyMs

def score (run : ProbeRun) (latencyMs : UInt32) : ScoreOutcome :=
  match run.verdict with
  | .ok () => .success latencyMs
  | .error reason => .failure reason

end ProbeRun

/--
What is outside of the start: the tasks of the race that have not reported, the methods whose result
the start has got, and the outcomes it has submitted to the store.
-/
structure ProbeWorld where
  pending : List ProbeTask
  received : List MethodId
  submitted : List (NetworkFingerprint × MethodId × ScoreOutcome)

namespace ProbeWorld

def receive (w : ProbeWorld) (method : MethodId) : ProbeWorld :=
  { w with received := w.received ++ [method] }

def submit (w : ProbeWorld) (scores : List (NetworkFingerprint × MethodId × ScoreOutcome))
    : ProbeWorld :=
  { w with submitted := w.submitted ++ scores }

end ProbeWorld

variable (probe : MethodId → ProbeRun)

def ProbeTask.result : ProbeTask → ProbeResult
  | .unregistered method => ⟨method, .failure .unknown 0⟩
  | .probe method _ _ _ => ⟨method, (probe method).outcome⟩

/--
The probes go as `probe` says and report in any order. Clocks, reads and writes of the store can
give any answer. Binding the listener succeeds.
-/
def probeHandle : Handler StartAction ProbeWorld := fun _ w action answer w' =>
  match action, answer with
  | .now, _ => w' = w
  | .sleep _, _ => w' = w
  | .readScores _, _ => w' = w
  | .recordScore fingerprint method outcome, _ => w' = w.submit [(fingerprint, method, outcome)]
  | .startObfuscator method _, r =>
    r = (probe method).start ∧ w' = match r with
      | .error _ => w.receive method
      | .ok () => w
  | .firstByte method _, r => r = (probe method).firstByte ∧ w' = w.receive method
  | .spawnProbe task, _ => w' = { w with pending := w.pending ++ [task] }
  | .recv, none => w.pending = [] ∧ w' = w
  | .recv, some result =>
    ∃ task ∈ w.pending, result = task.result probe ∧
      w' = { w.receive task.method with pending := w.pending.erase task }
  | .cancelProbes, _ => w' = w
  | .bindListener, r => (∃ port, r = .ok port) ∧ w' = w
  | .drawId, _ => w' = w
  | .install _ _ _, _ => w' = w
  | .spawnProxy _, _ => w' = w
  | .stopActive, _ => w' = w

variable {probe} {w : ProbeWorld}

namespace ProbeWorld

@[simp]
theorem submit_nil : w.submit [] = w := by
  simp [submit]

@[simp]
theorem submit_submit (xs ys : List (NetworkFingerprint × MethodId × ScoreOutcome))
    : (w.submit xs).submit ys = w.submit (xs ++ ys) := by
  simp [submit]

end ProbeWorld

section Actions

theorem wp_perform_any {α : Type} [Inhabited α] {action : StartAction α} {Q : α → ProbeWorld → Prop}
    {w' : ProbeWorld} (h : ∀ answer mid, probeHandle probe w action answer mid ↔ mid = w')
    : (perform action).wp (probeHandle probe) Q w ↔ ∀ answer, Q answer w' := by
  rw [wp_perform]
  constructor
  . intro hwp answer
    apply hwp.2
    rw [h]
  . intro hQ
    refine ⟨⟨default, w', (h _ _).mpr rfl⟩, ?_⟩
    intro answer mid hmid
    rw [h] at hmid
    rw [hmid]
    apply hQ

@[simp]
theorem wp_now {Q : Instant × SystemTime → ProbeWorld → Prop}
    : (perform .now).wp (probeHandle probe) Q w ↔ ∀ clocks, Q clocks w := by
  apply wp_perform_any
  intros
  rfl

@[simp]
theorem wp_sleep {duration : Nat} {Q : Unit → ProbeWorld → Prop}
    : (perform (.sleep duration)).wp (probeHandle probe) Q w ↔ ∀ answer, Q answer w := by
  apply wp_perform_any
  intros
  rfl

@[simp]
theorem wp_readScores {fingerprint : NetworkFingerprint}
    {Q : Except ScoringError (List (MethodId × ScoreEntry)) → ProbeWorld → Prop}
    : (perform (.readScores fingerprint)).wp (probeHandle probe) Q w ↔ ∀ rows, Q rows w := by
  have : Inhabited (Except ScoringError (List (MethodId × ScoreEntry))) := ⟨.ok []⟩
  apply wp_perform_any
  intros
  rfl

@[simp]
theorem wp_recordScore {fingerprint : NetworkFingerprint} {method : MethodId}
    {outcome : ScoreOutcome} {Q : Except ScoringError Unit → ProbeWorld → Prop}
    : (perform (.recordScore fingerprint method outcome)).wp (probeHandle probe) Q w
        ↔
      ∀ answer, Q answer (w.submit [(fingerprint, method, outcome)]) := by
  have : Inhabited (Except ScoringError Unit) := ⟨.ok ()⟩
  apply wp_perform_any
  intros
  rfl

@[simp]
theorem wp_spawnProbe {task : ProbeTask} {Q : Unit → ProbeWorld → Prop}
    : (perform (.spawnProbe task)).wp (probeHandle probe) Q w
        ↔
      ∀ answer, Q answer { w with pending := w.pending ++ [task] } := by
  apply wp_perform_any
  intros
  rfl

@[simp]
theorem wp_cancelProbes {Q : Unit → ProbeWorld → Prop}
    : (perform .cancelProbes).wp (probeHandle probe) Q w ↔ ∀ answer, Q answer w := by
  apply wp_perform_any
  intros
  rfl

@[simp]
theorem wp_bindListener {Q : Except IoError UInt16 → ProbeWorld → Prop}
    : (perform .bindListener).wp (probeHandle probe) Q w ↔ ∀ port, Q (.ok port) w := by
  rw [wp_perform]
  constructor
  . intro hwp port
    apply hwp.2
    exact ⟨⟨port, rfl⟩, rfl⟩
  . intro hQ
    refine ⟨⟨.ok 0, w, ⟨0, rfl⟩, rfl⟩, ?_⟩
    intro answer mid hact
    rcases hact with ⟨⟨port, rfl⟩, rfl⟩
    apply hQ

@[simp]
theorem wp_installSession {port : UInt16} {params : ProxyParams} {Q : Unit → ProbeWorld → Prop}
    : (VeilCoordinator.installSession port params).wp (probeHandle probe) Q w
        ↔
      ∀ answer, Q answer w := by
  simp [VeilCoordinator.installSession, wp_perform, probeHandle]

end Actions

namespace VeilCoordinator

variable {c : VeilCoordinator} {p : StartParams} {scores : ScoreLookup}

theorem wp_executeProbeWithParams {method : MethodId} (hreg : c.registered method = true)
    {Q : Except ProbeFailureReason Unit → ProbeWorld → Prop}
    (hQ : Q (probe method).verdict (w.receive method))
    : (c.executeProbeWithParams p method).wp (probeHandle probe) Q w := by
  unfold executeProbeWithParams
  simp only [hreg, ↓reduceIte, wp_bind, wp_perform, probeHandle]
  unfold ProbeRun.verdict at hQ
  cases hstart : (probe method).start with
  | error e =>
    rw [hstart] at hQ
    simpa using hQ
  | ok u =>
    rw [hstart] at hQ
    cases hfirst : (probe method).firstByte with
    | none => simpa [wp_perform, probeHandle, hfirst] using hQ
    | some r =>
      cases r with
      | error e => simpa [wp_perform, probeHandle, hfirst] using hQ
      | ok u => simpa [wp_perform, probeHandle, hfirst] using hQ

end VeilCoordinator

def VeilEffect.recorded : VeilEffect → Option (MethodId × ScoreOutcome)
  | .startProbes _ _ => none
  | .cancelOtherProbes _ => none
  | .stopActive => none
  | .scheduleCooldown _ => none
  | .recordScore method _ outcome => some (method, outcome)

/--
Where the FSM stands when the failures of `methods` are still to come.
-/
inductive Outstanding : List MethodId → VeilState → Prop where
  | none (until_ : Instant) : Outstanding [] (.cooldown until_)
  | some {methods candidates : List MethodId} (attempts : MethodId → Option ProbeAttempt)
      (startedAt : Instant) (hne : methods ≠ []) (hperm : candidates.Perm methods)
      : Outstanding methods (.probing candidates attempts startedAt)

theorem filter_ne_perm {method : MethodId} {methods candidates : List MethodId}
    (hperm : candidates.Perm (method :: methods)) (hnodup : (method :: methods).Nodup)
    : (candidates.filter (· != method)).Perm methods := by
  have hfilter : (method :: methods).filter (· != method) = methods := by
    rw [List.filter_cons_of_neg (by simp)]
    apply List.filter_eq_self.mpr
    intro m hm
    have hne : m ≠ method := by
      intro heq
      rw [heq] at hm
      exact (List.nodup_cons.mp hnodup).1 hm
    simpa using hne
  have := hperm.filter (· != method)
  rw [hfilter] at this
  exact this

section Reduce

variable (scores : ScoreLookup) (cfg : VeilConfig) (now : Instant) (nowSys : SystemTime)

theorem reduce_probeSucceeded {candidates : List MethodId} {method : MethodId}
    (hmem : method ∈ candidates) (attempts : MethodId → Option ProbeAttempt) (startedAt : Instant)
    (port : UInt16) (latencyMs : UInt32)
    : reduce (.probing candidates attempts startedAt) (.probeSucceeded method port latencyMs) scores
        cfg now nowSys
        =
      (.active method port now 0,
        [.cancelOtherProbes method,
         .recordScore method NetworkFingerprint.default (.success latencyMs)]) := by
  simp [reduce, hmem]

theorem reduce_start {fingerprint : NetworkFingerprint} {allowedMethods : MethodSet}
    (relay : String) (hne : selectProbeCandidates fingerprint allowedMethods scores cfg nowSys ≠ [])
    : ∃ attempts,
        reduce .idle (.start relay fingerprint allowedMethods) scores cfg now nowSys
          =
        (.probing (selectProbeCandidates fingerprint allowedMethods scores cfg nowSys) attempts now,
          [.startProbes (selectProbeCandidates fingerprint allowedMethods scores cfg nowSys)
            relay]) := by
  unfold reduce
  dsimp only
  rw [if_neg (by simpa using hne)]
  exact ⟨_, rfl⟩

theorem Outstanding.fail {method : MethodId} {methods : List MethodId} {state : VeilState}
    (h : Outstanding (method :: methods) state) (hnodup : (method :: methods).Nodup)
    (reason : ProbeFailureReason)
    : Outstanding methods (reduce state (.probeFailed method reason) scores cfg now nowSys).1 ∧
      (reduce state (.probeFailed method reason) scores cfg now nowSys).2.filterMap
        VeilEffect.recorded
        =
      [(method, .failure reason)] := by
  cases h with
  | @some _ candidates attempts startedAt hne hperm =>
    have hmem : method ∈ candidates := hperm.mem_iff.mpr List.mem_cons_self
    have hrest := filter_ne_perm hperm hnodup
    unfold reduce
    simp only [List.contains_eq_mem, hmem, decide_true, Bool.not_true, Bool.false_eq_true,
      ↓reduceIte]
    split
    . next hempty =>
      rw [List.isEmpty_iff] at hempty
      rw [hempty] at hrest
      rw [hrest.nil_eq.symm]
      exact ⟨.none _, rfl⟩
    . next hnonempty =>
      refine ⟨.some _ _ ?_ hrest, rfl⟩
      intro hnil
      rw [hnil] at hrest
      rw [hrest.eq_nil] at hnonempty
      exact hnonempty rfl

end Reduce

namespace VeilCoordinator

variable {c : VeilCoordinator} {p : StartParams} {scores : ScoreLookup}

theorem wp_recordScores {effects : List VeilEffect} {Q : Unit → ProbeWorld → Prop}
    (hQ : Q () (w.submit
      ((effects.filterMap VeilEffect.recorded).map fun s => (p.fingerprint, s.1, s.2))))
    : (recordScores p effects).wp (probeHandle probe) Q w := by
  induction effects generalizing w with
  | nil => simpa [recordScores] using hQ
  | cons effect effects ih =>
    cases effect with
    | recordScore method fingerprint outcome =>
      unfold recordScores
      rw [wp_bind, wp_recordScore]
      intro _
      apply ih
      simpa [VeilEffect.recorded] using hQ
    | _ =>
      apply ih
      exact hQ

theorem wp_recordFailures {failures : List (MethodId × ProbeFailureReason)}
    {Q : Unit → ProbeWorld → Prop}
    (hQ : Q () (w.submit (failures.map fun f => (p.fingerprint, f.1, .failure f.2))))
    : (recordFailures p failures).wp (probeHandle probe) Q w := by
  induction failures generalizing w with
  | nil => simpa [recordFailures] using hQ
  | cons failure failures ih =>
    unfold recordFailures
    rw [wp_bind, wp_recordScore]
    intro _
    apply ih
    simpa using hQ

theorem wp_handleProbeFailure {method : MethodId} {methods : List MethodId} {state : VeilState}
    {reason : ProbeFailureReason} {Q : VeilState → ProbeWorld → Prop}
    (h : Outstanding (method :: methods) state) (hnodup : (method :: methods).Nodup)
    (hQ : ∀ state, Outstanding methods state →
      Q state (w.submit [(p.fingerprint, method, .failure reason)]))
    : (c.handleProbeFailure p scores method reason state).wp (probeHandle probe) Q w := by
  unfold handleProbeFailure
  rw [wp_bind, wp_now]
  intro clocks
  have hfail := h.fail scores c.config clocks.1 clocks.2 hnodup reason
  dsimp only
  rw [wp_bind]
  apply wp_recordScores
  rw [hfail.2, wp_pure]
  apply hQ
  exact hfail.1

theorem wp_handleProbeFailures {failures : List (MethodId × ProbeFailureReason)} {state : VeilState}
    {Q : VeilState → ProbeWorld → Prop} (h : Outstanding (failures.map Prod.fst) state)
    (hnodup : (failures.map Prod.fst).Nodup)
    (hQ : ∀ until_, Q (.cooldown until_)
      (w.submit (failures.map fun f => (p.fingerprint, f.1, .failure f.2))))
    : (c.handleProbeFailures p scores failures state).wp (probeHandle probe) Q w := by
  induction failures generalizing state w with
  | nil =>
    cases h with
    | none until_ => simpa [handleProbeFailures] using hQ until_
    | some _ _ hne _ => exact absurd rfl hne
  | cons failure failures ih =>
    unfold handleProbeFailures
    rw [wp_bind]
    apply wp_handleProbeFailure h hnodup
    intro state hstate
    apply ih hstate (List.nodup_cons.mp hnodup).2
    intro until_
    simpa using hQ until_

theorem wp_handleAllProbesFailed {until_ : Instant} {Q : VeilState → ProbeWorld → Prop}
    : (c.handleAllProbesFailed scores (.cooldown until_)).wp (probeHandle probe) Q w
        ↔
      Q (.cooldown until_) w := by
  rfl

theorem wp_handleProbeSuccess {candidates : List MethodId} {method : MethodId} {latencyMs : UInt32}
    {attempts : MethodId → Option ProbeAttempt} {startedAt : Instant}
    {Q : Except StartAbort VeilState → ProbeWorld → Prop} (hmem : method ∈ candidates)
    (hQ : ∀ port now, Q (.ok (.active method port now 0))
      (w.submit [(p.fingerprint, method, .success latencyMs)]))
    : (c.handleProbeSuccess p scores method latencyMs (.probing candidates attempts startedAt)).wp
        (probeHandle probe) Q w := by
  unfold handleProbeSuccess
  rw [wp_bind, wp_bindListener]
  intro port
  dsimp only
  rw [wp_bind, wp_now]
  intro clocks
  rw [reduce_probeSucceeded scores c.config _ _ hmem]
  dsimp only
  rw [wp_bind]
  apply wp_recordScores
  rw [wp_bind, wp_installSession]
  intro _
  rw [wp_pure]
  apply hQ

theorem wp_launchProbes_go {i : Nat} {methods : List MethodId} {Q : Unit → ProbeWorld → Prop}
    (hreg : ∀ m ∈ methods, c.registered m = true)
    (hQ : ∀ tasks : List ProbeTask, tasks.map ProbeTask.method = methods →
      (∀ task ∈ tasks, task.result probe = ⟨task.method, (probe task.method).outcome⟩) →
        Q () { w with pending := w.pending ++ tasks })
    : (launchProbes.go c p i methods).wp (probeHandle probe) Q w := by
  induction methods generalizing i w with
  | nil => simpa [launchProbes.go] using hQ [] rfl (by simp)
  | cons method methods ih =>
    unfold launchProbes.go
    rw [if_pos (hreg method List.mem_cons_self), wp_bind, wp_spawnProbe]
    intro _
    apply ih
    . intro m hm
      exact hreg m (List.mem_cons_of_mem method hm)
    . intro tasks hmethods hresult
      dsimp only
      rw [List.append_assoc]
      apply hQ
      . simp [hmethods, ProbeTask.method]
      . intro task htask
        cases List.mem_cons.mp htask with
        | inl heq => rw [heq, ProbeTask.result, ProbeTask.method]
        | inr htask => exact hresult task htask

/--
The race: the failures before the winner, in the order in which they arrive, or the failures of all
tasks if there is no winner.
-/
theorem wp_collectResults {fuel : Nat} {failures : List (MethodId × ProbeFailureReason)}
    {Q : Option (List (MethodId × ProbeFailureReason) × Option (MethodId × UInt32)) →
      ProbeWorld → Prop}
    (hfuel : w.pending.length < fuel)
    (hresult : ∀ task ∈ w.pending, task.result probe = ⟨task.method, (probe task.method).outcome⟩)
    (hwon : ∀ failed method rest pending,
      (failed.map Prod.fst ++ method :: rest).Perm (w.pending.map ProbeTask.method) →
      (∀ f ∈ failed, (probe f.1).verdict = .error f.2) → (probe method).verdict = .ok () →
        Q (some (failures ++ failed, some (method, (probe method).latencyMs)))
          ⟨pending, w.received ++ (failed.map Prod.fst ++ [method]), w.submitted⟩)
    (hlost : ∀ failed : List (MethodId × ProbeFailureReason),
      (failed.map Prod.fst).Perm (w.pending.map ProbeTask.method) →
      (∀ f ∈ failed, (probe f.1).verdict = .error f.2) →
        Q (some (failures ++ failed, none)) ⟨[], w.received ++ failed.map Prod.fst, w.submitted⟩)
    : (collectResults fuel failures).wp (probeHandle probe) Q w := by
  induction fuel generalizing w failures with
  | zero => omega
  | succ fuel ih =>
    unfold collectResults
    rw [wp_bind, wp_perform]
    constructor
    . cases hpending : w.pending with
      | nil => exact ⟨none, w, hpending, rfl⟩
      | cons task tasks => exact ⟨some _, _, task, by simp [hpending], rfl, rfl⟩
    . intro answer mid hact
      cases answer with
      | none =>
        rcases hact with ⟨hpending, rfl⟩
        have := hlost [] (by simp [hpending]) (by simp)
        simpa [← hpending] using this
      | some result =>
        rcases hact with ⟨task, htask, hres, rfl⟩
        have hperm : (task.method :: (w.pending.erase task).map ProbeTask.method).Perm
            (w.pending.map ProbeTask.method) :=
          (List.perm_cons_erase htask).symm.map ProbeTask.method
        rw [hresult task htask, ProbeRun.outcome] at hres
        cases hverdict : (probe task.method).verdict with
        | ok u =>
          rw [hverdict] at hres
          rw [hres]
          have := hwon [] task.method _ (w.pending.erase task) hperm (by simp) hverdict
          simpa [ProbeWorld.receive] using this
        | error reason =>
          rw [hverdict] at hres
          rw [hres]
          -- one failure more, one task less
          apply ih
          . have := List.length_erase_of_mem htask
            have := List.length_pos_of_mem htask
            dsimp only
            omega
          . intro task' htask'
            apply hresult
            exact List.mem_of_mem_erase htask'
          . intro failed method rest pending hperm' hfailed hmethod
            have := hwon ((task.method, reason) :: failed) method rest pending
              ((hperm'.cons task.method).trans hperm)
              (List.forall_mem_cons.mpr ⟨hverdict, hfailed⟩) hmethod
            simpa [ProbeWorld.receive] using this
          . intro failed hperm' hfailed
            have := hlost ((task.method, reason) :: failed)
              ((hperm'.cons task.method).trans hperm)
              (List.forall_mem_cons.mpr ⟨hverdict, hfailed⟩)
            simpa [ProbeWorld.receive] using this

end VeilCoordinator

/--
The end of a probe race among `candidates`, in terms of what was received: everything received has
been submitted exactly once with its own outcome, and the first success decides. If there is none,
all candidates have failed.
-/
def RaceEnds (probe : MethodId → ProbeRun) (fingerprint : NetworkFingerprint)
    (candidates : List MethodId) (won : MethodId → Prop) (lost : Prop) (w : ProbeWorld) : Prop :=
  w.received.Nodup ∧ (∀ m ∈ w.received, m ∈ candidates) ∧
  (∃ latencyMs,
    w.submitted.Perm (w.received.map fun m => (fingerprint, m, (probe m).score latencyMs))) ∧
  match w.received.find? fun m => (probe m).succeeds with
  | some m => won m
  | none => lost ∧ w.received.Perm candidates

section RaceEnds

variable {candidates : List MethodId} (failed : List (MethodId × ProbeFailureReason))
  {fingerprint : NetworkFingerprint} {pending : List ProbeTask}

variable {failed} in
theorem find_failed (hfailed : ∀ f ∈ failed, (probe f.1).verdict = .error f.2)
    : (failed.map Prod.fst).find? (fun m => (probe m).succeeds) = none := by
  rw [List.find?_eq_none]
  intro m hm
  rw [List.mem_map] at hm
  rcases hm with ⟨f, hf, rfl⟩
  simp [ProbeRun.succeeds, hfailed f hf]

variable {failed} in
theorem map_score_failed (hfailed : ∀ f ∈ failed, (probe f.1).verdict = .error f.2)
    (latencyMs : UInt32)
    : (failed.map Prod.fst).map (fun m => (fingerprint, m, (probe m).score latencyMs))
        =
      failed.map fun f => (fingerprint, f.1, .failure f.2) := by
  rw [List.map_map]
  apply List.map_congr_left
  intro f hf
  simp [ProbeRun.score, hfailed f hf]

theorem raceEnds_won {method : MethodId} (rest : List MethodId) {won : MethodId → Prop}
    {lost : Prop} {latencyMs : UInt32} (hwon : won method) (hnodup : candidates.Nodup)
    (hperm : (failed.map Prod.fst ++ method :: rest).Perm candidates)
    (hfailed : ∀ f ∈ failed, (probe f.1).verdict = .error f.2)
    (hmethod : (probe method).verdict = .ok ())
    : RaceEnds probe fingerprint candidates won lost
        ⟨pending, failed.map Prod.fst ++ [method],
          (fingerprint, method, .success latencyMs) ::
            failed.map fun f => (fingerprint, f.1, .failure f.2)⟩ := by
  have hsub : List.Sublist (failed.map Prod.fst ++ [method])
      (failed.map Prod.fst ++ method :: rest) := by
    apply List.Sublist.append_left
    simp
  refine ⟨?_, ?_, ⟨latencyMs, ?_⟩, ?_⟩
  . apply hsub.nodup
    exact hperm.nodup_iff.mpr hnodup
  . intro m hm
    exact hperm.mem_iff.mp (hsub.mem hm)
  . rw [List.map_append, map_score_failed hfailed]
    simp only [List.map_cons, List.map_nil, ProbeRun.score, hmethod]
    exact (List.perm_append_singleton _ _).symm
  . rw [List.find?_append, find_failed hfailed]
    simpa [ProbeRun.succeeds, hmethod] using hwon

theorem raceEnds_lost {won : MethodId → Prop} {lost : Prop} (hlost : lost)
    (hnodup : candidates.Nodup) (hperm : (failed.map Prod.fst).Perm candidates)
    (hfailed : ∀ f ∈ failed, (probe f.1).verdict = .error f.2)
    : RaceEnds probe fingerprint candidates won lost
        ⟨pending, failed.map Prod.fst, failed.map fun f => (fingerprint, f.1, .failure f.2)⟩ := by
  refine ⟨hperm.nodup_iff.mpr hnodup, ?_, ⟨0, ?_⟩, ?_⟩
  . intro m hm
    exact hperm.mem_iff.mp hm
  . rw [map_score_failed hfailed]
  . rw [find_failed hfailed]
    exact ⟨hlost, hperm⟩

variable {failed} in
theorem RaceEnds.imp {w : ProbeWorld} {won won' : MethodId → Prop} {lost lost' : Prop}
    (h : RaceEnds probe fingerprint candidates won lost w) (hwon : ∀ m, won m → won' m)
    (hlost : lost → lost') : RaceEnds probe fingerprint candidates won' lost' w := by
  unfold RaceEnds at h ⊢
  refine ⟨h.1, h.2.1, h.2.2.1, ?_⟩
  have hend := h.2.2.2
  split at hend
  . apply hwon
    exact hend
  . exact ⟨hlost hend.1, hend.2⟩

end RaceEnds

def Raced (probe : MethodId → ProbeRun) (fingerprint : NetworkFingerprint)
    (candidates : List MethodId) (result : Except StartAbort VeilState) (w : ProbeWorld) : Prop :=
  RaceEnds probe fingerprint candidates (fun m => ∃ port now, result = .ok (.active m port now 0))
    (∃ until_, result = .ok (.cooldown until_)) w

namespace VeilCoordinator

variable {c : VeilCoordinator} {p : StartParams} {scores : ScoreLookup}
  {attempts : MethodId → Option ProbeAttempt} {startedAt : Instant}

theorem wp_runSequentialProbes {method : MethodId} (hreg : c.registered method = true)
    : (c.runSequentialProbes p scores [method] (.probing [method] attempts startedAt)).wp
        (probeHandle probe) (Raced probe p.fingerprint [method]) ⟨[], [], []⟩ := by
  unfold runSequentialProbes
  rw [wp_bind, wp_now]
  intro probeStart
  rw [wp_bind]
  apply wp_executeProbeWithParams hreg
  rw [wp_bind, wp_now]
  intro probeEnd
  cases hverdict : (probe method).verdict with
  | ok u =>
    apply wp_handleProbeSuccess List.mem_cons_self
    intro port now
    exact raceEnds_won [] [] ⟨port, now, rfl⟩ (by simp) (by simp) (by simp) hverdict
  | error reason =>
    have houtstanding : Outstanding [method] (.probing [method] attempts startedAt) :=
      .some attempts startedAt (by simp) (.refl _)
    dsimp only
    rw [wp_bind]
    apply wp_handleProbeFailure houtstanding (by simp)
    intro state hstate
    cases hstate with
    | none until_ =>
      dsimp only
      rw [wp_bind, wp_handleAllProbesFailed]
      exact raceEnds_lost [(method, reason)] ⟨until_, rfl⟩ (by simp) (by simp)
        (by simpa using hverdict)
    | some _ _ hne _ => exact absurd rfl hne

theorem wp_runParallelProbes {candidates : List MethodId} (hne : candidates ≠ [])
    (hnodup : candidates.Nodup) (hreg : ∀ m ∈ candidates, c.registered m = true)
    : (c.runParallelProbes p scores candidates (.probing candidates attempts startedAt)).wp
        (probeHandle probe) (Raced probe p.fingerprint candidates) ⟨[], [], []⟩ := by
  unfold runParallelProbes launchProbes
  rw [if_neg (by simpa using hne), wp_bind]
  apply wp_launchProbes_go hreg
  intro tasks hmethods hresult
  rw [wp_bind]
  apply wp_collectResults
  . have := congrArg List.length hmethods
    rw [List.length_map] at this
    simp [this]
  . simpa using hresult
  . -- the winner goes through the FSM, the failures before it straight to the store
    intro failed method rest pending hperm hfailed hmethod
    simp only [List.nil_append, hmethods] at hperm ⊢
    rw [wp_bind, wp_cancelProbes]
    intro _
    rw [wp_bind, wp_bindListener]
    intro port
    dsimp only
    rw [wp_bind, wp_now]
    intro clocks
    rw [reduce_probeSucceeded scores c.config _ _ (hperm.mem_iff.mp (by simp))]
    dsimp only
    rw [wp_bind]
    apply wp_recordScores
    rw [wp_bind]
    apply wp_recordFailures
    rw [wp_bind, wp_installSession]
    intro _
    exact raceEnds_won failed rest ⟨port, clocks.1, rfl⟩ hnodup hperm hfailed hmethod
  . intro failed hperm hfailed
    simp only [List.nil_append, hmethods] at hperm ⊢
    rw [wp_bind, wp_cancelProbes]
    intro _
    rw [wp_bind]
    apply wp_handleProbeFailures
    . apply Outstanding.some _ _ _ hperm.symm
      intro hnil
      rw [hnil] at hperm
      exact hne hperm.nil_eq.symm
    . exact hperm.nodup_iff.mpr hnodup
    . intro until_
      rw [wp_bind, wp_handleAllProbesFailed]
      exact raceEnds_lost failed ⟨until_, rfl⟩ hnodup hperm hfailed

theorem wp_executeEffectWithParams_startProbes {candidates : List MethodId} {relay : String}
    (hne : candidates ≠ []) (hnodup : candidates.Nodup)
    (hreg : ∀ m ∈ candidates, c.registered m = true)
    : (c.executeEffectWithParams p scores (.startProbes candidates relay)
        (.probing candidates attempts startedAt)).wp
        (probeHandle probe) (Raced probe p.fingerprint candidates) ⟨[], [], []⟩ := by
  unfold executeEffectWithParams
  dsimp only
  split
  . next hlen =>
    rcases List.length_eq_one_iff.mp hlen with ⟨method, rfl⟩
    apply wp_runSequentialProbes
    apply hreg
    exact List.mem_cons_self
  . apply wp_runParallelProbes hne hnodup hreg

theorem wp_startLoop {allowedMethods : MethodSet} {startTime : Instant}
    (hne : allowedMethods.iterAllowed ≠ [])
    (hreg : ∀ m, allowedMethods.contains m = true → c.registered m = true)
    : (c.startLoop p allowedMethods startTime .idle).wp (probeHandle probe)
        (fun result w => ∃ candidates scores now,
          candidates = selectProbeCandidates p.fingerprint allowedMethods scores c.config now ∧
          candidates ≠ [] ∧ (∀ m ∈ candidates, allowedMethods.contains m = true) ∧
          RaceEnds probe p.fingerprint candidates
            (fun m => ∃ port latencyMs, result = .ok ⟨port, m, latencyMs⟩)
            (result = .error (.error .allProbesFailed)) w)
        ⟨[], [], []⟩ := by
  rw [startLoop]
  rw [wp_bind, wp_readScores]
  intro rows
  rw [wp_bind, wp_now]
  intro clocks
  simp only [nextEvent, sleepUnlessZero, ↓reduceIte]
  generalize cachedScores rows = scores
  rcases selectProbeCandidates_spec p.fingerprint allowedMethods scores c.config clocks.2
    with ⟨hnodup, hallowed, hcandidates⟩
  specialize hcandidates hne
  rcases reduce_start scores c.config clocks.1 clocks.2 p.relay hcandidates with ⟨attempts, hreduce⟩
  rw [hreduce]
  generalize hselect : selectProbeCandidates p.fingerprint allowedMethods scores c.config clocks.2
    = candidates at *
  dsimp only [executeEffects]
  rw [wp_bind, wp_pure, wp_bind, wp_bind]
  -- the loop returns after the race, in `Active` or in `Cooldown`
  apply wp_mono (wp_executeEffectWithParams_startProbes hcandidates hnodup _)
  . intro raced w hraced
    have hend := hraced.2.2.2
    split at hend
    . rcases hend with ⟨port, now, rfl⟩
      dsimp only
      rw [wp_pure, wp_bind, wp_now]
      intro ended
      rw [wp_bind, wp_sleep]
      intro _
      refine ⟨candidates, scores, clocks.2, hselect.symm, hcandidates, hallowed, hraced.imp ?_ ?_⟩
      . intro m hm
        rcases hm with ⟨_, _, hm⟩
        injection hm with hm
        injection hm with hm
        rw [hm]
        exact ⟨port, _, rfl⟩
      . intro hlost
        rcases hlost with ⟨_, hlost⟩
        cases hlost
    . rcases hend with ⟨⟨until_, rfl⟩, _⟩
      dsimp only
      rw [wp_pure, wp_pure]
      refine ⟨candidates, scores, clocks.2, hselect.symm, hcandidates, hallowed, hraced.imp ?_ ?_⟩
      . intro m hm
        rcases hm with ⟨_, _, hm⟩
        cases hm
      . intro _
        rfl
  . intro m hm
    apply hreg
    exact hallowed m hm

theorem wp_startSessionWithParams {Q : Except StartAbort CoordinatorStartResult → ProbeWorld → Prop}
    (hnone : (¬∃ m, p.allowedMethods.contains m = true ∧ c.registered m = true) →
      Q (.error (.error .noMethods)) ⟨[], [], []⟩)
    (hsome : (∃ m, p.allowedMethods.contains m = true ∧ c.registered m = true) →
      ∀ result w candidates scores now,
        candidates = selectProbeCandidates p.fingerprint (c.restrict p.allowedMethods) scores
          c.config now →
        candidates ≠ [] →
        (∀ m ∈ candidates, p.allowedMethods.contains m = true ∧ c.registered m = true) →
        RaceEnds probe p.fingerprint candidates
          (fun m => ∃ port latencyMs, result = .ok ⟨port, m, latencyMs⟩)
          (result = .error (.error .allProbesFailed)) w →
        Q result w)
    : (c.startSessionWithParams p).wp (probeHandle probe) Q ⟨[], [], []⟩ := by
  unfold startSessionWithParams
  rw [wp_bind, wp_now]
  intro startTime
  simp only [← c.contains_restrict] at hnone hsome
  dsimp only
  split
  . next hempty =>
    rw [wp_pure]
    apply hnone
    intro hsome
    rcases hsome with ⟨m, hm⟩
    rw [← MethodSet.mem_iterAllowed, List.isEmpty_iff.mp hempty] at hm
    cases hm
  . next hnonempty =>
    rw [List.isEmpty_iff] at hnonempty
    rcases List.exists_mem_of_ne_nil _ hnonempty with ⟨m, hm⟩
    rw [MethodSet.mem_iterAllowed] at hm
    apply wp_mono (wp_startLoop hnonempty _)
    . intro result w hend
      rcases hend with ⟨candidates, scores, now, hselect, hne, hallowed, hrace⟩
      exact hsome ⟨m, hm⟩ result w candidates scores now hselect hne hallowed hrace
    . intro m hm
      exact ((c.contains_restrict _ m).mp hm).2

end VeilCoordinator

/--
A start ends as its probes went. For every configuration, every behaviour of the store and the
clocks, every outcome of the probes and every order in which they report, it returns. If no method
is both allowed and registered it returns `NoMethods`. Otherwise it races the candidates selected
among these methods and returns the first one whose success is received, or `AllProbesFailed` after
the failure of each, and every result that it received is submitted to the store once.
-/
theorem start_ends_as_probed (c : VeilCoordinator) (p : StartParams) (probe : MethodId → ProbeRun)
    : (c.startSessionWithParams p).wp (probeHandle probe)
        (fun result w =>
          ((¬∃ m, p.allowedMethods.contains m = true ∧ c.registered m = true) →
            result = .error (.error .noMethods) ∧ w.submitted = []) ∧
          ((∃ m, p.allowedMethods.contains m = true ∧ c.registered m = true) →
            ∃ candidates scores now,
              candidates = selectProbeCandidates p.fingerprint (c.restrict p.allowedMethods) scores
                c.config now ∧
              candidates ≠ [] ∧
              (∀ m ∈ candidates, p.allowedMethods.contains m = true ∧ c.registered m = true) ∧
              RaceEnds probe p.fingerprint candidates
                (fun m => ∃ port latencyMs, result = .ok ⟨port, m, latencyMs⟩)
                (result = .error (.error .allProbesFailed)) w))
        ⟨[], [], []⟩ := by
  apply VeilCoordinator.wp_startSessionWithParams
  . intro hnone
    exact ⟨fun _ => ⟨rfl, rfl⟩, fun hsome => absurd hsome hnone⟩
  . intro hsome result w candidates scores now hselect hne hallowed hrace
    exact ⟨fun hnone => absurd hsome hnone,
      fun _ => ⟨candidates, scores, now, hselect, hne, hallowed, hrace⟩⟩

end Veil
