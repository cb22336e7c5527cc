import ConstructVeil.Ffi.Impl.Start
import ConstructVeil.Coordinator.Lemmas.Start

/-!
This module contains the result of `veil_start` as a function of the request, the coordinator of the
process, the files of the scores store and the probe of veil-front.
-/

namespace Veil

open Prog

/--
What the `n`-th attempt to open the scores store meets.
-/
structure StoreFiles where
  connect : Nat → Except String Unit
  migrate : Nat → Except String Unit

namespace StoreFiles

def attempt (files : StoreFiles) (n : Nat) : Bool :=
  (files.connect n).isOk && (files.migrate n).isOk

/--
The store opens, at once or, if it is a file, after it was removed.
-/
def opens (files : StoreFiles) (path : String) : Bool :=
  files.attempt 0 || (path ≠ ":memory:" && files.attempt 1)

end StoreFiles

structure FfiWorld where
  coordinator : Bool
  connects : Nat
  probes : ProbeWorld

/--
As `probeHandle`, and the store opens as `files` says. Stopping an earlier session and the sink of
the last error can give any answer.
-/
def ffiHandle (files : StoreFiles) (probe : MethodId → ProbeRun) : Handler FfiAction FfiWorld :=
  fun _ w action answer w' =>
    match action, answer with
    | .inl .hasCoordinator, r => r = w.coordinator ∧ w' = w
    | .inl (.setCoordinator _), r => r = !w.coordinator ∧ w' = { w with coordinator := true }
    | .inl .stop, _ => w' = w
    | .inl (.connect _), r =>
      r = files.connect w.connects ∧ w' = { w with connects := w.connects + 1 }
    | .inl .migrate, r => r = files.migrate (w.connects - 1) ∧ w' = w
    | .inl .lastError, _ => w' = w
    | .inl (.output _), _ => w' = w
    | .inr action, r => ∃ probes, probeHandle probe w.probes action r probes ∧
        w' = { w with probes := probes }

section Actions

variable {files : StoreFiles} {probe : MethodId → ProbeRun} {w : FfiWorld}

theorem wp_ffi_of_answer {α : Type} {action : EntryAction α} {answer : α} {w' : FfiWorld}
    {Q : α → FfiWorld → Prop}
    (h : ∀ r mid, ffiHandle files probe w (.inl action) r mid ↔ r = answer ∧ mid = w')
    : (ffi action).wp (ffiHandle files probe) Q w ↔ Q answer w' := by
  rw [ffi, wp_perform]
  constructor
  . intro hwp
    apply hwp.2
    exact (h _ _).mpr ⟨rfl, rfl⟩
  . intro hQ
    refine ⟨⟨answer, w', (h _ _).mpr ⟨rfl, rfl⟩⟩, ?_⟩
    intro r mid hmid
    rcases (h _ _).mp hmid with ⟨hr, hmid⟩
    rw [hr, hmid]
    exact hQ

theorem wp_ffi_any {α : Type} [Inhabited α] {action : EntryAction α} {Q : α → FfiWorld → Prop}
    (h : ∀ r mid, ffiHandle files probe w (.inl action) r mid ↔ mid = w)
    : (ffi action).wp (ffiHandle files probe) Q w ↔ ∀ answer, Q answer w := by
  rw [ffi, wp_perform]
  constructor
  . intro hwp answer
    apply hwp.2
    exact (h _ _).mpr rfl
  . intro hQ
    refine ⟨⟨default, w, (h _ _).mpr rfl⟩, ?_⟩
    intro r mid hmid
    rw [(h _ _).mp hmid]
    exact hQ r

@[simp]
theorem wp_hasCoordinator {Q : Bool → FfiWorld → Prop}
    : (ffi .hasCoordinator).wp (ffiHandle files probe) Q w ↔ Q w.coordinator w := by
  apply wp_ffi_of_answer
  intros
  rfl

@[simp]
theorem wp_setCoordinator {scores : PersistentScores} {Q : Bool → FfiWorld → Prop}
    : (ffi (.setCoordinator scores)).wp (ffiHandle files probe) Q w
        ↔
      Q (!w.coordinator) { w with coordinator := true } := by
  apply wp_ffi_of_answer
  intros
  rfl

@[simp]
theorem wp_connect {path : String} {Q : Except String Unit → FfiWorld → Prop}
    : (ffi (.connect path)).wp (ffiHandle files probe) Q w
        ↔
      Q (files.connect w.connects) { w with connects := w.connects + 1 } := by
  apply wp_ffi_of_answer
  intros
  rfl

@[simp]
theorem wp_migrate {Q : Except String Unit → FfiWorld → Prop}
    : (ffi .migrate).wp (ffiHandle files probe) Q w ↔ Q (files.migrate (w.connects - 1)) w := by
  apply wp_ffi_of_answer
  intros
  rfl

@[simp]
theorem wp_stop {Q : Bool → FfiWorld → Prop}
    : (ffi .stop).wp (ffiHandle files probe) Q w ↔ ∀ answer, Q answer w := by
  apply wp_ffi_any
  intros
  rfl

@[simp]
theorem wp_lastError {Q : String → FfiWorld → Prop}
    : (ffi .lastError).wp (ffiHandle files probe) Q w ↔ ∀ answer, Q answer w := by
  apply wp_ffi_any
  intros
  rfl

@[simp]
theorem wp_output {o : Output} {Q : Unit → FfiWorld → Prop}
    : (ffi (.output o)).wp (ffiHandle files probe) Q w ↔ ∀ answer, Q answer w := by
  apply wp_ffi_any
  intros
  rfl

theorem wp_ofStart {α : Type} {start : Start α} {Q : α → FfiWorld → Prop}
    (h : start.wp (probeHandle probe) (fun value probes => Q value { w with probes := probes })
      w.probes)
    : (ofStart start).wp (ffiHandle files probe) Q w := by
  unfold ofStart
  apply wp_lift FfiWorld.probes fun w probes => { w with probes := probes }
  . intros
    rfl
  . intros
    rfl
  . intros
    rfl
  . rfl
  . exact h

end Actions

section Open

variable {files : StoreFiles} {probe : MethodId → ProbeRun} {w : FfiWorld}

theorem wp_connectAndMigrate {url : String}
    {onConnect onMigrate : String → Ffi (Except ScoringError Unit)}
    {Q : Except ScoringError Unit → FfiWorld → Prop}
    (hok : files.attempt w.connects = true → Q (.ok ()) { w with connects := w.connects + 1 })
    (hconnect : files.attempt w.connects = false →
      ∀ e, (onConnect e).wp (ffiHandle files probe) Q { w with connects := w.connects + 1 })
    (hmigrate : files.attempt w.connects = false →
      ∀ e, (onMigrate e).wp (ffiHandle files probe) Q { w with connects := w.connects + 1 })
    : (PersistentScores.connectAndMigrate url onConnect onMigrate).wp (ffiHandle files probe) Q
      w := by
  unfold PersistentScores.connectAndMigrate
  rw [wp_bind, wp_connect]
  cases hc : files.connect w.connects with
  | error e =>
    apply hconnect
    simp [StoreFiles.attempt, hc, Except.isOk, Except.toBool]
  | ok u =>
    dsimp only
    rw [wp_bind, wp_migrate]
    dsimp only
    rw [Nat.add_sub_cancel]
    cases hm : files.migrate w.connects with
    | error e =>
      apply hmigrate
      simp [StoreFiles.attempt, hm, Except.isOk, Except.toBool]
    | ok u =>
      apply hok
      simp [StoreFiles.attempt, hc, hm, Except.isOk, Except.toBool]

theorem wp_openFile {path : String} {Q : Except ScoringError Unit → FfiWorld → Prop}
    (hok : files.attempt w.connects = true → Q (.ok ()) { w with connects := w.connects + 1 })
    (herr : files.attempt w.connects = false → ∀ e,
      Q (.error e) { w with connects := w.connects + 1 })
    : (PersistentScores.openFile path).wp (ffiHandle files probe) Q w := by
  apply wp_connectAndMigrate hok
  . intro hfails e
    exact herr hfails _
  . intro hfails e
    rw [wp_bind, wp_output]
    intro _
    exact herr hfails _

theorem wp_openMemory {Q : Except ScoringError Unit → FfiWorld → Prop}
    (hok : files.attempt w.connects = true → Q (.ok ()) { w with connects := w.connects + 1 })
    (herr : files.attempt w.connects = false → ∀ e,
      Q (.error e) { w with connects := w.connects + 1 })
    : PersistentScores.openMemory.wp (ffiHandle files probe) Q w := by
  apply wp_connectAndMigrate hok
  . intro hfails e
    exact herr hfails _
  . intro hfails e
    exact herr hfails _

theorem wp_removeFiles {path : String} {suffixes : List String} {Q : Unit → FfiWorld → Prop}
    (hQ : Q () w)
    : (PersistentScores.removeFiles path suffixes).wp (ffiHandle files probe) Q w := by
  induction suffixes with
  | nil => exact hQ
  | cons suffix suffixes ih =>
    unfold PersistentScores.removeFiles
    rw [wp_bind, wp_output]
    intro _
    exact ih

theorem wp_openStore {path : String} {scores : PersistentScores} {coordinator : Bool}
    {probes : ProbeWorld} {Q : Except ScoringError PersistentScores → FfiWorld → Prop}
    (hok : files.opens path = true → ∀ n, Q (.ok scores) ⟨coordinator, n, probes⟩)
    (herr : files.opens path = false → ∀ e n, Q (.error e) ⟨coordinator, n, probes⟩)
    : (PersistentScores.openStore path scores).wp (ffiHandle files probe) Q
        ⟨coordinator, 0, probes⟩ := by
  unfold PersistentScores.openStore
  unfold StoreFiles.opens at hok herr
  split
  . next hmemory =>
    rw [hmemory] at hok herr
    rw [wp_bind]
    apply wp_openMemory
    . intro hopens
      apply hok
      simp [hopens]
    . intro hfails e
      apply herr
      simp [hfails]
  . next hfile =>
    rw [wp_bind]
    apply wp_openFile
    . intro hopens
      apply hok
      simp [hopens]
    . intro hfails _
      dsimp only
      rw [wp_bind]
      apply wp_removeFiles
      rw [wp_bind]
      apply wp_openFile
      . intro hopens
        apply hok
        simp [hfile, hopens]
      . intro hfails' e
        apply herr
        simp [hfails, hfails']

end Open

section VeilStart

variable {hash : FingerprintHash} {ioText : IoError → String} {req : VeilStartRequest}
  {files : StoreFiles} {probe : MethodId → ProbeRun} {coordinator : Bool} {probes : ProbeWorld}

theorem wp_stopExisting {Q : Unit → FfiWorld → Prop} {w : FfiWorld} (hQ : Q () w)
    : stopExisting.wp (ffiHandle files probe) Q w := by
  unfold stopExisting
  rw [wp_bind, wp_hasCoordinator]
  split
  . rw [wp_bind, wp_stop]
    intro _
    exact hQ
  . exact hQ

theorem wp_getOrBuildCoordinator {path : String} {scoringKey : Option (ByteArr 32)}
    {Q : Except String Unit → FfiWorld → Prop} (hpath : req.scoresPath = .str path)
    (hne : path ≠ "")
    (hok : coordinator = true ∨ files.opens path = true → ∀ n, Q (.ok ()) ⟨true, n, probes⟩)
    (herr : ¬(coordinator = true ∨ files.opens path = true) →
      ∀ reason n, Q (.error reason) ⟨coordinator, n, probes⟩)
    : (getOrBuildCoordinator hash req scoringKey).wp (ffiHandle files probe) Q
        ⟨coordinator, 0, probes⟩ := by
  unfold getOrBuildCoordinator
  rw [wp_bind, wp_hasCoordinator]
  cases coordinator with
  | true => exact hok (.inl rfl) 0
  | false =>
    unfold openScores
    rw [hpath]
    dsimp only
    rw [if_neg (by simp), wp_bind, if_pos hne, wp_bind]
    apply wp_openStore
    . intro hopens n
      rw [wp_pure, wp_bind, wp_setCoordinator]
      exact hok (.inr hopens) n
    . intro hfails e n
      rw [wp_pure, wp_pure]
      apply herr
      simp [hfails]

/--
With veil-front as the only method, a session starts exactly if it is allowed and its probe
succeeds.
-/
theorem wp_frontCoordinator {params : StartParams}
    {Q : Except StartAbort CoordinatorStartResult → ProbeWorld → Prop}
    (hok : params.allowedMethods.contains .veilFront = true ∧ (probe .veilFront).succeeds = true →
      ∀ r w, Q (.ok r) w)
    (herr : ¬(params.allowedMethods.contains .veilFront = true ∧ (probe .veilFront).succeeds = true)
      → ∀ e w, Q (.error (.error e)) w)
    : (frontCoordinator.startSessionWithParams params).wp (probeHandle probe) Q ⟨[], [], []⟩ := by
  have hfront : ∀ m, frontCoordinator.registered m = true → m = .veilFront := by
    intro m hm
    exact eq_of_beq hm
  apply VeilCoordinator.wp_startSessionWithParams
  . intro hnone
    apply herr
    intro hallowed
    exact hnone ⟨.veilFront, hallowed.1, rfl⟩
  . intro hsome result w candidates scores now _ hne hcandidates hrace
    rcases hsome with ⟨m, hallowed, hreg⟩
    rw [hfront m hreg] at hallowed
    rcases hrace with ⟨_, hreceived, _, hend⟩
    split at hend
    . next method hfind =>
      have hmethod : method = .veilFront :=
        hfront _ (hcandidates _ (hreceived _ (List.mem_of_find?_eq_some hfind))).2
      have hsucceeds := List.find?_some hfind
      rw [hmethod] at hsucceeds
      rcases hend with ⟨port, latencyMs, hresult⟩
      rw [hresult]
      exact hok ⟨hallowed, hsucceeds⟩ _ _
    . next hfind =>
      rw [hend.1]
      apply herr
      intro hboth
      -- all candidates have failed, and veil-front is one of them
      rcases List.exists_mem_of_ne_nil _ hne with ⟨m, hm⟩
      rw [List.find?_eq_none] at hfind
      apply hfind m (hend.2.mem_iff.mpr hm)
      rw [hfront m (hcandidates m hm).2]
      exact hboth.2

def StartsSession (files : StoreFiles) (probe : MethodId → ProbeRun) (coordinator : Bool)
    (path : String) (params : StartParams) : Prop :=
  (coordinator = true ∨ files.opens path = true) ∧
  params.allowedMethods.contains .veilFront = true ∧ (probe .veilFront).succeeds = true

theorem wp_startSession {path : String} {args : StartArgs}
    {Q : Except FfiFailure VeilStartResult → FfiWorld → Prop} (hpath : req.scoresPath = .str path)
    (hne : path ≠ "")
    (hok : StartsSession files probe coordinator path args.params → ∀ r w, Q (.ok r) w)
    (herr : ¬StartsSession files probe coordinator path args.params → ∀ reason w,
      Q (.error reason) w)
    : (startSession hash ioText req args).wp (ffiHandle files probe) Q
        ⟨coordinator, 0, ⟨[], [], []⟩⟩ := by
  unfold startSession
  rw [wp_bind]
  apply wp_stopExisting
  rw [wp_bind]
  apply wp_getOrBuildCoordinator hpath hne
  . intro hready n
    dsimp only
    rw [wp_bind]
    apply wp_ofStart
    apply wp_frontCoordinator
    . intro hfront r w
      exact hok ⟨hready, hfront⟩ _ _
    . intro hfront e w
      exact herr (fun h => hfront h.2) _ _
  . intro hready reason n
    exact herr (fun h => hready h.1) _ _

def Succeeds (files : StoreFiles) (probe : MethodId → ProbeRun) (coordinator : Bool) (path : String)
    (req : VeilStartRequest) : Prop :=
  ∃ args, readStartRequest req = .ok args ∧ StartsSession files probe coordinator path args.params

theorem succeeds_iff {path : String} {args : StartArgs} (hargs : readStartRequest req = .ok args)
    : Succeeds files probe coordinator path req
        ↔
      StartsSession files probe coordinator path args.params := by
  unfold Succeeds
  rw [hargs]
  simp

/--
`veil_start` returns, and it returns `0` exactly if the request is valid and starts a session.
-/
theorem wp_veilStart {path : String} {outIsNull : Bool} {Q : Int → FfiWorld → Prop}
    (hpath : req.scoresPath = .str path) (hne : path ≠ "")
    (hok : Succeeds files probe coordinator path req → ∀ w, Q 0 w)
    (herr : ¬Succeeds files probe coordinator path req → ∀ w, Q (-1) w)
    : (veilStart hash ioText req outIsNull).wp (ffiHandle files probe) Q
        ⟨coordinator, 0, ⟨[], [], []⟩⟩ := by
  unfold veilStart startBody
  rw [wp_bind, wp_bind, wp_output]
  intro _
  cases hargs : readStartRequest req with
  | error reason =>
    dsimp only
    rw [wp_bind, wp_output]
    intro _
    exact herr (by simp [Succeeds, hargs]) _
  | ok args =>
    rw [succeeds_iff hargs] at hok herr
    dsimp only
    rw [wp_bind]
    apply wp_startSession hpath hne
    . intro hstarts r w
      have hzero := hok hstarts
      dsimp only
      split
      . exact hzero _
      . rw [wp_bind, wp_output]
        intro _
        exact hzero _
    . intro hnot failure w
      have hfails := herr hnot
      cases failure with
      | failed reason =>
        dsimp only
        rw [wp_bind, wp_lastError]
        intro last
        split
        . rw [wp_bind, wp_output]
          intro _
          exact hfails _
        . exact hfails _
      | panicked what =>
        dsimp only
        rw [wp_pure, ffiGuard, wp_bind, wp_output]
        intro _
        exact hfails _

theorem run_veilStart {path : String} {outIsNull : Bool} {ret : Int} {w : FfiWorld}
    (hpath : req.scoresPath = .str path) (hne : path ≠ "")
    (hrun : Run (ffiHandle files probe) ⟨coordinator, 0, ⟨[], [], []⟩⟩
      (veilStart hash ioText req outIsNull) ret w)
    : (ret = 0 ∧ Succeeds files probe coordinator path req) ∨
      (ret = -1 ∧ ¬Succeeds files probe coordinator path req) := by
  have hwp : (veilStart hash ioText req outIsNull).wp (ffiHandle files probe)
      (fun ret _ => (ret = 0 ∧ Succeeds files probe coordinator path req) ∨
        (ret = -1 ∧ ¬Succeeds files probe coordinator path req))
      ⟨coordinator, 0, ⟨[], [], []⟩⟩ :=
    wp_veilStart hpath hne (fun h _ => .inl ⟨rfl, h⟩) (fun h _ => .inr ⟨rfl, h⟩)
  exact hwp.run hrun

theorem exists_run_veilStart {path : String} {outIsNull : Bool} (hpath : req.scoresPath = .str path)
    (hne : path ≠ "")
    : ∃ ret w, Run (ffiHandle files probe) ⟨coordinator, 0, ⟨[], [], []⟩⟩
        (veilStart hash ioText req outIsNull) ret w := by
  have hwp : (veilStart hash ioText req outIsNull).wp (ffiHandle files probe) (fun _ _ => True)
      ⟨coordinator, 0, ⟨[], [], []⟩⟩ :=
    wp_veilStart hpath hne (fun _ _ => trivial) (fun _ _ => trivial)
  exact hwp.exists_run

end VeilStart

/--
Two calls of `veil_start` with the same request in the same process state, whose probes go the same
way. The store may behave differently in each, when it is opened and at every read and write. They
return the same for all these behaviours exactly if there is a coordinator already, or both open the
store or neither does, or the start fails anyhow.
-/
theorem veil_start_store_independent_iff (hash : FingerprintHash) (ioText : IoError → String)
    (req : VeilStartRequest) (outIsNull : Bool) (path : String) (probe : MethodId → ProbeRun)
    (coordinator : Bool) (files files' : StoreFiles) (hpath : req.scoresPath = .str path)
    (hne : path ≠ "")
    : (∀ ret ret' w w',
        Run (ffiHandle files probe) ⟨coordinator, 0, ⟨[], [], []⟩⟩
          (veilStart hash ioText req outIsNull) ret w →
        Run (ffiHandle files' probe) ⟨coordinator, 0, ⟨[], [], []⟩⟩
          (veilStart hash ioText req outIsNull) ret' w' →
        (ret = 0 ∧ ret' = 0) ∨ (ret = -1 ∧ ret' = -1))
        ↔
      coordinator = true ∨ files.opens path = files'.opens path ∨
      ∀ args, readStartRequest req = .ok args →
        ¬(args.params.allowedMethods.contains .veilFront = true ∧ (probe .veilFront).succeeds
          = true) := by
  constructor
  . intro hsame
    by_contra hcond
    push Not at hcond
    rcases hcond with ⟨hnew, hopens, args, hargs, hfront⟩
    rcases exists_run_veilStart hpath hne with ⟨ret, w, hrun⟩
    rcases exists_run_veilStart hpath hne with ⟨ret', w', hrun'⟩
    have hret := run_veilStart hpath hne hrun
    have hret' := run_veilStart hpath hne hrun'
    rw [succeeds_iff hargs, StartsSession, or_iff_right hnew, and_iff_left hfront] at hret hret'
    apply hopens
    apply Bool.eq_iff_iff.mpr
    rcases hsame ret ret' w w' hrun hrun' with ⟨hzero, hzero'⟩ | ⟨hfail, hfail'⟩
    . rw [hzero] at hret
      rw [hzero'] at hret'
      simp at hret hret'
      simp [hret, hret']
    . rw [hfail] at hret
      rw [hfail'] at hret'
      simp at hret hret'
      simp [hret, hret']
  . intro hcond ret ret' w w' hrun hrun'
    have hsame : Succeeds files probe coordinator path req
        ↔ Succeeds files' probe coordinator path req := by
      apply exists_congr
      intro args
      apply and_congr_right
      intro hargs
      unfold StartsSession
      rcases hcond with hold | hopens | hfails
      . simp [hold]
      . rw [hopens]
      . simp only [hfails args hargs, and_false]
    have hret := run_veilStart hpath hne hrun
    have hret' := run_veilStart hpath hne hrun'
    rw [← hsame] at hret'
    rcases hret with ⟨hzero, hstarts⟩ | ⟨hfail, hnot⟩
    . exact .inl ⟨hzero, (hret'.resolve_right fun h => h.2 hstarts).1⟩
    . exact .inr ⟨hfail, (hret'.resolve_left fun h => hnot h.2).1⟩

section Sample

def sampleRequest : VeilStartRequest where
  relayAddr := .str "relay:443"
  tlsSni := .null
  spkiHex := .str "0000000000000000000000000000000000000000000000000000000000000000"
  networkFingerprint := none
  allowedMethods := 0
  scoresPath := .str "scores.db"
  veilFrontTicketB64 := .null
  veilCapabilityV2B64 := .null
  veilSkHex := .null
  scoringKey := none

def sampleHash : FingerprintHash := ⟨fun _ _ => .fill 32 0, fun _ => .fill 32 0⟩

def allSucceed : MethodId → ProbeRun := fun _ => ⟨.ok (), some (.ok ()), 40⟩

end Sample

/--
A file that is not a database is replaced, and the start ends as with a new file.
-/
theorem veil_start_store_independent_iff_corrupt
    : let corrupt : StoreFiles :=
  ⟨fun _ => .ok (), fun n => if n = 0 then .error "not a db" else .ok ()⟩
      let fresh : StoreFiles := ⟨fun _ => .ok (), fun _ => .ok ()⟩
      ∃ ret w w',
        Run (ffiHandle corrupt allSucceed) ⟨false, 0, ⟨[], [], []⟩⟩
          (veilStart sampleHash (fun _ => "") sampleRequest false) ret w ∧
        Run (ffiHandle fresh allSucceed) ⟨false, 0, ⟨[], [], []⟩⟩
          (veilStart sampleHash (fun _ => "") sampleRequest false) ret w' := by
  intro corrupt fresh
  have hne : "scores.db" ≠ "" := by decide
  have hrun : ∃ ret w, Run (ffiHandle corrupt allSucceed) ⟨false, 0, ⟨[], [], []⟩⟩
      (veilStart sampleHash (fun _ => "") sampleRequest false) ret w := exists_run_veilStart rfl hne
  have hrun' : ∃ ret w, Run (ffiHandle fresh allSucceed) ⟨false, 0, ⟨[], [], []⟩⟩
      (veilStart sampleHash (fun _ => "") sampleRequest false) ret w := exists_run_veilStart rfl hne
  rcases hrun with ⟨ret, w, hrun⟩
  rcases hrun' with ⟨ret', w', hrun'⟩
  have hsame :=
    (veil_start_store_independent_iff sampleHash (fun _ => "") sampleRequest false "scores.db"
    allSucceed false corrupt fresh rfl hne).mpr (.inr (.inl rfl)) ret ret' w w' hrun hrun'
  have heq : ret = ret' := by
    rcases hsame with ⟨h, h'⟩ | ⟨h, h'⟩
    . rw [h, h']
    . rw [h, h']
  rw [← heq] at hrun'
  exact ⟨ret, w, w', hrun, hrun'⟩

/--
The probe succeeds in both, and the second start fails because the file cannot be opened at all.
-/
theorem veil_start_gated_by_store
    : let usable : StoreFiles := ⟨fun _ => .ok (), fun _ => .ok ()⟩
      let unusable : StoreFiles := ⟨fun _ => .error "unable to open database file", fun _ => .ok ()⟩
      (∃ w, Run (ffiHandle usable allSucceed) ⟨false, 0, ⟨[], [], []⟩⟩
        (veilStart sampleHash (fun _ => "") sampleRequest false) 0 w) ∧
      (∃ w, Run (ffiHandle unusable allSucceed) ⟨false, 0, ⟨[], [], []⟩⟩
        (veilStart sampleHash (fun _ => "") sampleRequest false) (-1) w) := by
  intro usable unusable
  have hne : "scores.db" ≠ "" := by decide
  constructor
  . have hrun : ∃ ret w, Run (ffiHandle usable allSucceed) ⟨false, 0, ⟨[], [], []⟩⟩
        (veilStart sampleHash (fun _ => "") sampleRequest false) ret w :=
          exists_run_veilStart rfl hne
    rcases hrun with ⟨ret, w, hrun⟩
    rcases run_veilStart rfl hne hrun with ⟨hret, _⟩ | ⟨_, hnot⟩
    . rw [hret] at hrun
      exact ⟨w, hrun⟩
    . exact absurd ⟨_, rfl, .inr rfl, rfl, rfl⟩ hnot
  . have hrun : ∃ ret w, Run (ffiHandle unusable allSucceed) ⟨false, 0, ⟨[], [], []⟩⟩
        (veilStart sampleHash (fun _ => "") sampleRequest false) ret w :=
          exists_run_veilStart rfl hne
    rcases hrun with ⟨ret, w, hrun⟩
    rcases run_veilStart rfl hne hrun with ⟨_, _, _, hready, _⟩ | ⟨hret, _⟩
    . rcases hready with hready | hready
      . cases hready
      . cases hready
    . rw [hret] at hrun
      exact ⟨w, hrun⟩

end Veil
