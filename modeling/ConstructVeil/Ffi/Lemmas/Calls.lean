import ConstructVeil.Ffi.Impl.Calls

/-!
This module contains the verification of concurrent calls: only one start at a time builds the
coordinator, and a start that fails leaves a reason.
-/

namespace Veil

open Prog

/--
The calls without the lock leave the coordinator alone, and the last error as well if they do not
replace it by another one.
-/
def startLock : LockSpec (Option Int) HostAction FfiState where
  handle := FfiState.Handles
  rely s s' := s'.coordinator = s.coordinator ∧ (s'.lastError = s.lastError ∨ s'.lastError ≠ "")
  rely_refl s := ⟨rfl, .inl rfl⟩
  rely_trans s₁ s₂ s₃ h h' := by
    refine ⟨h'.1.trans h.1, ?_⟩
    rcases h'.2 with heq | hne
    . rw [heq]
      exact h.2
    . exact .inr hne
  pre _ action s :=
    match action with
    | .inr (.inl (.setCoordinator _)) => s.coordinator = false
    | _ => True
  release result s := result = some (-1) → s.lastError ≠ ""

section Section

variable {α β : Type} {hash : FingerprintHash} {ioText : IoError → String} {s : FfiState}

def MeetsLocked (p : Ffi α) (post : α → FfiState → Prop) (s : FfiState) : Prop :=
  p.Meets (fun _ s action => startLock.Relied s (.inr action))
    (fun _ action s => ∀ s', startLock.rely s s' → startLock.pre (.inr action) s') post s

theorem meetsLocked_bind {p : Ffi α} {f : α → Ffi β} {post : β → FfiState → Prop}
    (h : MeetsLocked p (fun a => MeetsLocked (f a) post) s) : MeetsLocked (p >>= f) post s :=
  meets_bind.mpr h

theorem meetsLocked_ffi {action : EntryAction α} {post : α → FfiState → Prop}
    (hpre : ∀ s', startLock.rely s s' → startLock.pre (.inr (.inl action)) s')
    (h : ∀ s₁ answer s', startLock.rely s s₁ → FfiState.Handles s₁ (.inr (.inl action)) answer s' →
      post answer s')
    : MeetsLocked (ffi action) post s := by
  refine ⟨hpre, ?_⟩
  rintro answer s' ⟨s₁, hrely, hact⟩
  exact h s₁ answer s' hrely hact

theorem meetsLocked_ofStart {p : Start α} : MeetsLocked (ofStart p) (fun _ _ => True) s := by
  unfold ofStart
  induction p generalizing s with
  | done value => trivial
  | act action next ih =>
    refine ⟨fun _ _ => trivial, ?_⟩
    intro answer s' _
    exact ih answer

def setsCoordinator : ⦃β : Type⦄ → FfiAction β → Prop := fun _ action =>
  match action with
  | .inl (.setCoordinator _) => True
  | _ => False

theorem avoids_ffi {action : EntryAction α} (h : ¬setsCoordinator (Sum.inl action : FfiAction α))
    : (ffi action).Avoids setsCoordinator :=
  avoids_perform.mpr h

theorem avoids_connectAndMigrate {url : String}
    {onConnect onMigrate : String → Ffi (Except ScoringError Unit)}
    (hconnect : ∀ e, (onConnect e).Avoids setsCoordinator)
    (hmigrate : ∀ e, (onMigrate e).Avoids setsCoordinator)
    : (PersistentScores.connectAndMigrate url onConnect onMigrate).Avoids setsCoordinator := by
  apply Avoids.bind (avoids_ffi id)
  intro res
  cases res with
  | error e => exact hconnect e
  | ok u =>
    apply Avoids.bind (avoids_ffi id)
    intro res
    cases res with
    | error e => exact hmigrate e
    | ok u => trivial

theorem avoids_openFile {path : String}
    : (PersistentScores.openFile path).Avoids setsCoordinator := by
  apply avoids_connectAndMigrate
  . intro e
    trivial
  . intro e
    exact Avoids.bind (avoids_ffi id) fun _ => trivial

theorem avoids_removeFiles {path : String} {suffixes : List String}
    : (PersistentScores.removeFiles path suffixes).Avoids setsCoordinator := by
  induction suffixes with
  | nil => trivial
  | cons suffix suffixes ih => exact Avoids.bind (avoids_ffi id) fun _ => ih

theorem avoids_openStore {path : String} {scores : PersistentScores}
    : (PersistentScores.openStore path scores).Avoids setsCoordinator := by
  unfold PersistentScores.openStore
  split
  . refine Avoids.bind (avoids_connectAndMigrate ?_ ?_) fun _ => trivial
    . intro e
      trivial
    . intro e
      trivial
  . apply Avoids.bind avoids_openFile
    intro res
    cases res with
    | ok u => trivial
    | error e =>
      apply Avoids.bind avoids_removeFiles
      intro _
      exact Avoids.bind avoids_openFile fun _ => trivial

theorem avoids_openScores {req : VeilStartRequest} {scoringKey : Option (ByteArr 32)}
    : (openScores hash req scoringKey).Avoids setsCoordinator := by
  unfold openScores
  split
  . apply Avoids.bind avoids_openStore
    intro res
    cases res <;> trivial
  . trivial
  . split
    . apply Avoids.bind avoids_openStore
      intro res
      cases res <;> trivial
    . trivial

theorem allows_of_not_coordinator {action : FfiAction β} (hs : s.coordinator = false)
    : ∀ s', startLock.rely s s' → startLock.pre (.inr action) s' := by
  intro s' hrely
  simp only [startLock]
  split
  . exact hrely.1.trans hs
  . trivial

theorem coordinator_of_handles {action : FfiAction β} {answer : β} {s' : FfiState}
    (h : ¬setsCoordinator action)
    (hact : FfiState.Handles s (.inr action) answer s') : s'.coordinator = s.coordinator := by
  cases action with
  | inr action => rcases hact with rfl | ⟨_, _, rfl⟩ <;> rfl
  | inl action =>
    cases action with
    | setCoordinator scores => exact absurd trivial h
    | hasCoordinator => rw [hact.2]
    | lastError => rw [hact.2]
    | stop => rw [hact]
    | connect path => rw [hact]
    | migrate => rw [hact]
    | output o => cases o <;> rw [hact]

/--
As long as there is no coordinator, a part that does not set one leaves it so.
-/
theorem meetsLocked_of_avoids {p : Ffi α} (h : p.Avoids setsCoordinator)
    (hs : s.coordinator = false)
    : MeetsLocked p (fun _ s' => s'.coordinator = false) s := by
  refine Meets.of_avoids h ?_ ?_ hs
  . rintro β s s' action answer hbad ⟨s₁, hrely, hact⟩ hs
    rw [coordinator_of_handles hbad hact, hrely.1, hs]
  . intro β action s hs
    exact allows_of_not_coordinator hs

theorem meetsLocked_stopExisting : MeetsLocked stopExisting (fun _ _ => True) s := by
  apply meetsLocked_bind
  refine meetsLocked_ffi (fun _ _ => trivial) ?_
  intro _ found s' _ _
  cases found with
  | false => trivial
  | true =>
    apply meetsLocked_bind
    refine meetsLocked_ffi (fun _ _ => trivial) ?_
    intros
    trivial

theorem meetsLocked_getOrBuildCoordinator {req : VeilStartRequest}
    {scoringKey : Option (ByteArr 32)}
    : MeetsLocked (getOrBuildCoordinator hash req scoringKey) (fun _ _ => True) s := by
  apply meetsLocked_bind
  refine meetsLocked_ffi (fun _ _ => trivial) ?_
  rintro s₁ found s' _ ⟨hfound, rfl⟩
  cases found with
  | true => trivial
  | false =>
    -- No other start runs, so there is still no coordinator when the scores are open
    apply meetsLocked_bind
    apply (meetsLocked_of_avoids avoids_openScores hfound.symm).mono
    intro res s₂ hs₂
    cases res with
    | error reason => trivial
    | ok scores =>
      apply meetsLocked_bind
      apply meetsLocked_ffi (allows_of_not_coordinator hs₂)
      intro _ set _ _ _
      cases set <;> trivial

theorem meetsLocked_startSession {req : VeilStartRequest} {args : StartArgs}
    : MeetsLocked (startSession hash ioText req args) (fun _ _ => True) s := by
  apply meetsLocked_bind
  apply meetsLocked_stopExisting.mono
  intro _ s₁ _
  apply meetsLocked_bind
  apply meetsLocked_getOrBuildCoordinator.mono
  intro res s₂ _
  cases res with
  | error reason => trivial
  | ok u =>
    apply meetsLocked_bind
    apply meetsLocked_ofStart.mono
    intro res s₃ _
    rcases res with (e | _ | _) | r <;> trivial

theorem text_ne_empty {head : String} (h : head ≠ "") (rest : String) : s!"{head}{rest}" ≠ "" := by
  simp [toString, h]

theorem meetsLocked_recordFailure {reason : String}
    : MeetsLocked
        (do
          ffi (.output (.recordError s!"veil_start: {reason}"))
          return (.ok (-1) : Except String Int))
        (fun value s' => value.toOption = some (-1) → s'.lastError ≠ "") s := by
  apply meetsLocked_bind
  refine meetsLocked_ffi (fun _ _ => trivial) ?_
  rintro s₁ _ s' _ rfl _
  exact text_ne_empty (by decide) reason

theorem meetsLocked_startBody {req : VeilStartRequest} {outIsNull : Bool}
    : MeetsLocked (startBody hash ioText req outIsNull)
        (fun value s' => value.toOption = some (-1) → s'.lastError ≠ "") s := by
  apply meetsLocked_bind
  refine meetsLocked_ffi (fun _ _ => trivial) ?_
  intro _ _ s₁ _ _
  cases readStartRequest req with
  | error reason => exact meetsLocked_recordFailure
  | ok args =>
    apply meetsLocked_bind
    apply meetsLocked_startSession.mono
    intro res s₂ _
    rcases res with (reason | what) | r
    . apply meetsLocked_bind
      refine meetsLocked_ffi (fun _ _ => trivial) ?_
      rintro s₃ msg s₄ _ ⟨rfl, rfl⟩
      split
      . exact meetsLocked_recordFailure
      next hne =>
        intro _
        exact hne
    . intro h
      cases h
    . cases outIsNull with
      | true =>
        intro h
        cases h
      | false =>
        apply meetsLocked_bind
        refine meetsLocked_ffi (fun _ _ => trivial) ?_
        intro _ _ _ _ _ h
        cases h

end Section

section Calls

variable {α β : Type} {hash : FingerprintHash} {ioText : IoError → String}

def Unlocked (action : HostAction β) : Prop :=
  ∀ s answer s', FfiState.Handles s action answer s' → startLock.rely s s'

theorem unlocked_query (action : QueryAction β) : Unlocked (.inl action) := by
  rintro _ _ _ rfl
  apply startLock.rely_refl

theorem unlocked_hasCoordinator : Unlocked (.inr (.inl .hasCoordinator)) := by
  rintro _ _ _ ⟨_, rfl⟩
  apply startLock.rely_refl

theorem unlocked_lastError : Unlocked (.inr (.inl .lastError)) := by
  rintro _ _ _ ⟨_, rfl⟩
  apply startLock.rely_refl

theorem unlocked_stop : Unlocked (.inr (.inl .stop)) := by
  rintro _ _ _ rfl
  apply startLock.rely_refl

theorem unlocked_recordError (msg : String) (h : msg ≠ "")
    : Unlocked (.inr (.inl (.output (.recordError msg)))) := by
  rintro s _ s' rfl
  exact ⟨rfl, .inr h⟩

def LockFree (p : Prog HostAction α) : Prop := p.Avoids fun _ action => ¬Unlocked action

theorem LockFree.keeps {p : Prog HostAction α} (h : LockFree p) : startLock.Keeps (ofHost p) none :=
  LockSpec.keeps_of_rely h

theorem lockFree_bind {action : HostAction β} {f : β → Prog HostAction α} (h : Unlocked action)
    (hf : ∀ answer, LockFree (f answer)) : LockFree (.perform action >>= f) :=
  ⟨not_not.mpr h, hf⟩

theorem lockFree_withCoordinator {p q : Prog HostAction α} (hp : LockFree p) (hq : LockFree q)
    : LockFree (do if ← .perform (.inr (.inl .hasCoordinator)) then p else q) := by
  apply lockFree_bind unlocked_hasCoordinator
  intro found
  cases found with
  | false => exact hq
  | true => exact hp

theorem lockFree_veilStop : LockFree veilStop := by
  refine lockFree_withCoordinator (lockFree_bind unlocked_stop ?_) trivial
  intro stopped
  cases stopped <;> trivial

theorem lockFree_veilIsAlive : LockFree veilIsAlive := by
  refine lockFree_withCoordinator (lockFree_bind (unlocked_query .isAlive) ?_) trivial
  intro alive
  cases alive <;> trivial

theorem lockFree_veilPort : LockFree veilPort :=
  lockFree_withCoordinator (lockFree_bind (unlocked_query .port) fun _ => trivial) trivial

theorem lockFree_veilLastError : LockFree veilLastError :=
  lockFree_bind unlocked_lastError fun _ => trivial

theorem lockFree_lateProbe {msg : String} (h : msg ≠ "") : LockFree (lateProbe msg) :=
  lockFree_bind (unlocked_recordError msg h) fun _ => trivial

theorem lockFree_ffiGuard {fallback : Int} {value : Except String Int}
    : LockFree (ofFfi (ffiGuard fallback value)) := by
  cases value with
  | ok value => trivial
  | error what =>
    exact ⟨not_not.mpr (unlocked_recordError _ (text_ne_empty (by decide) what)), fun _ => trivial⟩

theorem keeps_lockedStart {req : VeilStartRequest} {outIsNull : Bool}
    : startLock.Keeps (lockedStart hash ioText req outIsNull) none := by
  refine ⟨rfl, ?_⟩
  intro _ t ht
  rcases Option.isSome_iff_exists.mp ht with ⟨s, rfl⟩
  refine LockSpec.meets_section (meets_lift.mpr meetsLocked_startBody) ?_
  intro value s hpost
  refine ⟨⟨s, rfl, ?_⟩, ?_⟩
  . intro s' hrely hvalue
    rcases hrely.2 with heq | hne
    . rw [heq]
      exact hpost hvalue
    . exact hne
  . rintro _ _ rfl
    exact lockFree_ffiGuard.keeps

theorem keeps_of_isCall {p : Call Int} (h : IsCall hash ioText p) : startLock.Keeps p none := by
  cases h with
  | start req outIsNull => exact keeps_lockedStart
  | stop => exact lockFree_veilStop.keeps
  | isAlive => exact lockFree_veilIsAlive.keeps
  | port => exact lockFree_veilPort.keeps
  | lastError => exact lockFree_veilLastError.keeps
  | lateProbe msg hmsg => exact (lockFree_lateProbe hmsg).keeps

/--
A call that is about to make its coordinator the one of the app.
-/
def InstallsCoordinator : ⦃β : Type⦄ → WithLock (Option Int) HostAction β → Prop := fun _ action =>
  match action with
  | .inr (.inr (.inl (.setCoordinator _))) => True
  | _ => False

/--
A start that is about to leave its closure with the value `code`.
-/
def LeavesWith (code : Int) : ⦃β : Type⦄ → WithLock (Option Int) HostAction β → Prop :=
  fun _ action =>
  match action with
  | .inl (.unlock result) => result = some code
  | _ => False

theorem not_unlocked_setCoordinator (scores : PersistentScores)
    : ¬Unlocked (.inr (.inl (.setCoordinator scores))) := by
  intro h
  have hrely := h ⟨false, ""⟩ true ⟨true, ""⟩ ⟨rfl, rfl⟩
  cases hrely.1

theorem installsCoordinator_spec {action : WithLock (Option Int) HostAction β} {t : Option FfiState}
    {s : FfiState} (h : InstallsCoordinator action) (hcheck : startLock.Checks action t)
    (hknows : ∀ s', t = some s' → startLock.rely s' s) : s.coordinator = false := by
  unfold InstallsCoordinator at h
  split at h
  next scores =>
    cases t with
    | none => exact absurd (hcheck.1 rfl) (not_unlocked_setCoordinator scores)
    | some s' => exact hcheck.2 s' rfl s (hknows s' rfl)
  . cases h

theorem leavesWith_spec {action : WithLock (Option Int) HostAction β} {t : Option FfiState}
    {s : FfiState} (h : LeavesWith (-1) action) (hcheck : startLock.Checks action t)
    (hknows : ∀ s', t = some s' → startLock.rely s' s) : s.lastError ≠ "" := by
  unfold LeavesWith at h
  split at h
  . rcases hcheck with ⟨s', rfl, hrelease⟩
    exact hrelease s (hknows s' rfl) h
  . cases h

/--
However the calls of an app are interleaved, a start that installs the coordinator finds none, so it
does not fail with `COORDINATOR already set (race)`, and a start that fails leaves a reason to be
read.
-/
theorem starts_serialised {s₀ : FfiState}
    {pool : Pool (WithLock (Option Int) HostAction) (Locked FfiState) Int}
    (h : Pool.Reaches (Locked.Handles FfiState.Handles) (IsCall hash ioText) ⟨false, s₀⟩ pool)
    : ∀ p ∈ pool.threads,
        (p.Next InstallsCoordinator → pool.shared.state.coordinator = false) ∧
        (p.Next (LeavesWith (-1)) → pool.shared.state.lastError ≠ "") := by
  intro p hp
  rcases LockSpec.reaches_holds h (fun p => keeps_of_isCall) p hp with ⟨t, hholds⟩
  refine ⟨?_, ?_⟩
  . intro hnext
    rcases hholds.keeps.next hnext with ⟨β, action, hinstalls, hcheck⟩
    exact installsCoordinator_spec hinstalls hcheck hholds.knows
  . intro hnext
    rcases hholds.keeps.next hnext with ⟨β, action, hleaves, hcheck⟩
    exact leavesWith_spec hleaves hcheck hholds.knows

def noRelayRequest : VeilStartRequest :=
  ⟨.null, .null, .null, none, 0, .null, .null, .null, .null, none⟩

/--
The first start has failed and the second one waits for it.
-/
theorem starts_serialised_no_relay
    : let hash : FingerprintHash := ⟨fun _ _ => .fill 32 0, fun _ => .fill 32 0⟩
      let start := lockedStart hash (fun _ => "") noRelayRequest true
      let s : Locked FfiState := ⟨true, false, "veil_start: " ++ "relay_addr is NULL or not UTF-8"⟩
      Pool.Reaches (Locked.Handles FfiState.Handles) (IsCall hash fun _ => "") ⟨false, false, ""⟩
          ⟨s, [.act (.inl (.unlock (some (-1)))) fun _ => .done (-1), start]⟩ ∧
        s.state.lastError ≠ "" := by
  intro hash start s
  have hstart : IsCall hash (fun _ => "") start := .start noRelayRequest true
  have hspawn : Pool.Reaches (Locked.Handles FfiState.Handles) (IsCall hash fun _ => "")
      ⟨false, false, ""⟩ ⟨⟨false, false, ""⟩, [start, start]⟩ :=
    (Relation.ReflTransGen.refl.tail (.spawn _ [] start hstart)).tail
      (.spawn _ [start] start hstart)
  have hlock := Pool.Reaches.act [] () hspawn ⟨rfl, rfl⟩
  have hclear := Pool.Reaches.act [] () hlock ⟨rfl, rfl⟩
  have hrecord : Pool.Reaches (Locked.Handles FfiState.Handles) (IsCall hash fun _ => "")
      ⟨false, false, ""⟩ ⟨s, [.act (.inl (.unlock (some (-1)))) fun _ => .done (-1), start]⟩ :=
    Pool.Reaches.act [] () hclear ⟨rfl, rfl⟩
  exact ⟨hrecord, (starts_serialised hrecord _ List.mem_cons_self).2 rfl⟩

end Calls

end Veil
