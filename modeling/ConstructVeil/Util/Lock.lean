import ConstructVeil.Util.Loop
import ConstructVeil.Util.Pool

/-!
This module contains pools of programs with a lock. A program that holds the lock can rely on what
the others leave alone; so it is verified by itself, against surroundings that change only as the
others may change them.
-/

inductive LockAction (ρ : Type) : Type → Type where
  | lock : LockAction ρ Unit
  | unlock (result : ρ) : LockAction ρ Unit

abbrev WithLock (ρ : Type) (Act : Type → Type) (β : Type) := LockAction ρ β ⊕ Act β

structure Locked (S : Type) where
  held : Bool
  state : S

def Locked.Handles {ρ S : Type} {Act : Type → Type} (handle : Handler Act S)
    : Handler (WithLock ρ Act) (Locked S) := fun _ s action answer s' =>
  match action with
  | .inl .lock => s.held = false ∧ s' = ⟨true, s.state⟩
  | .inl (.unlock _) => s' = ⟨false, s.state⟩
  | .inr action => s'.held = s.held ∧ handle s.state action answer s'.state

/--
What the programs of a pool agree on: what may happen to the state while another one holds the lock,
and what the one that holds it checks before it acts and before it ends its section.
-/
structure LockSpec (ρ : Type) (Act : Type → Type) (S : Type) where
  handle : Handler Act S
  rely : S → S → Prop
  rely_refl : ∀ s, rely s s
  rely_trans : ∀ s₁ s₂ s₃, rely s₁ s₂ → rely s₂ s₃ → rely s₁ s₃
  pre : ⦃β : Type⦄ → Act β → S → Prop
  release : ρ → S → Prop

namespace LockSpec

variable {ρ S α β : Type} {Act : Type → Type} (spec : LockSpec ρ Act S)

def Knows : Handler (WithLock ρ Act) (Option S) := fun _ t action answer t' =>
  match action with
  | .inl .lock => t'.isSome = true
  | .inl (.unlock _) => t' = none
  | .inr action =>
    (t = none → t' = none) ∧
      ∀ s, t = some s → ∃ s₁ s₂, spec.rely s s₁ ∧ spec.handle s₁ action answer s₂ ∧ t' = some s₂

def Checks : ⦃β : Type⦄ → WithLock ρ Act β → Option S → Prop := fun _ action t =>
  match action with
  | .inl .lock => t = none
  | .inl (.unlock result) => ∃ s, t = some s ∧ ∀ s', spec.rely s s' → spec.release result s'
  | .inr action =>
    (t = none → ∀ s answer s', spec.handle s action answer s' → spec.rely s s') ∧
      ∀ s, t = some s → ∀ s', spec.rely s s' → spec.pre action s'

def Keeps (p : Prog (WithLock ρ Act) α) (t : Option S) : Prop :=
  p.Meets spec.Knows spec.Checks (fun _ t => t = none) t

structure Holds (s : S) (thread : Prog (WithLock ρ Act) α × Option S) : Prop where
  keeps : spec.Keeps thread.1 thread.2
  knows : ∀ s', thread.2 = some s' → spec.rely s' s

variable {spec}

theorem Holds.rely {s s' : S} {thread : Prog (WithLock ρ Act) α × Option S}
    (h : spec.Holds s thread) (hrely : spec.rely s s') : spec.Holds s' thread :=
  ⟨h.keeps, fun s₁ hs₁ => spec.rely_trans _ _ _ (h.knows s₁ hs₁) hrely⟩

/--
Only one thread knows something, the one that holds the lock.
-/
structure Agreed (spec : LockSpec ρ Act S) (pool : Pool (WithLock ρ Act) (Locked S) α)
    (threads : List (Prog (WithLock ρ Act) α × Option S)) : Prop where
  programs : threads.map Prod.fst = pool.threads
  holds : ∀ thread ∈ threads, spec.Holds pool.shared.state thread
  holders : threads.countP (fun thread => thread.2.isSome) = if pool.shared.held then 1 else 0

theorem none_of_countP {threads : List (Prog (WithLock ρ Act) α × Option S)}
    (h : threads.countP (fun thread => thread.2.isSome) = 0)
    : ∀ thread ∈ threads, thread.2 = none := by
  intro thread hthread
  have hsome := List.countP_eq_zero.mp h thread hthread
  simpa using hsome

theorem Holds.of_none {s s' : S} {thread : Prog (WithLock ρ Act) α × Option S}
    (h : spec.Holds s thread) (hnone : thread.2 = none) : spec.Holds s' thread :=
  ⟨h.keeps, fun s₁ hs₁ => by rw [hnone] at hs₁; cases hs₁⟩

theorem Agreed.step {pool pool' : Pool (WithLock ρ Act) (Locked S) α}
    {entry : Prog (WithLock ρ Act) α → Prop}
    {threads : List (Prog (WithLock ρ Act) α × Option S)} (h : Agreed spec pool threads)
    (hentry : ∀ p, entry p → spec.Keeps p none)
    (hstep : Pool.Step (Locked.Handles spec.handle) entry pool pool')
    : ∃ threads', Agreed spec pool' threads' := by
  cases hstep with
  | spawn s programs p hp =>
    refine ⟨threads ++ [(p, none)], by simpa using h.programs, ?_, by simpa using h.holders⟩
    rw [List.forall_mem_append, List.forall_mem_singleton]
    exact ⟨h.holds, hentry p hp, fun _ hs => by cases hs⟩
  | @act β s s' action answer next before after hact =>
    -- The thread that acts, with the threads before and after it
    rcases List.map_eq_append_iff.mp h.programs with ⟨before', rest, rfl, hbefore, hrest⟩
    rcases List.map_eq_cons_iff.mp hrest with ⟨⟨p, t⟩, after', rfl, hp, hafter⟩
    subst hbefore hafter
    dsimp only at hp
    subst hp
    have hthreads : ∀ t', (before' ++ (next answer, t') :: after').map Prod.fst
        = before'.map Prod.fst ++ next answer :: after'.map Prod.fst := by
      simp
    have hholds := h.holds
    have hcount := h.holders
    simp only [List.forall_mem_append, List.forall_mem_cons] at hholds
    simp only [List.countP_append, List.countP_cons] at hcount
    rcases hholds with ⟨hb, ⟨⟨hcheck, hnext⟩, hknows⟩, ha⟩
    cases action with
    | inl lockAction =>
      cases lockAction with
      | lock =>
        -- The lock was free, so no other thread knows anything
        rcases hact with ⟨hfree, rfl⟩
        simp only [Checks] at hcheck
        subst hcheck
        simp only [hfree, Bool.false_eq_true, ↓reduceIte, Option.isSome_none, Nat.add_zero,
          Nat.add_eq_zero_iff] at hcount
        refine ⟨before' ++ (next answer, some s.state) :: after', hthreads _, ?_, ?_⟩
        . simp only [List.forall_mem_append, List.forall_mem_cons]
          refine ⟨hb, ⟨hnext answer _ rfl, ?_⟩, ha⟩
          intro s₁ hs₁
          cases hs₁
          exact spec.rely_refl _
        . simp [hcount]
      | unlock result =>
        rcases hcheck with ⟨s₁, rfl, _⟩
        cases hact
        have hothers : before'.countP (fun thread => thread.2.isSome) = 0 ∧
            after'.countP (fun thread => thread.2.isSome) = 0 := by
          simp only [Option.isSome_some, ↓reduceIte] at hcount
          split at hcount <;> omega
        refine ⟨before' ++ (next answer, none) :: after', hthreads _, ?_, ?_⟩
        . simp only [List.forall_mem_append, List.forall_mem_cons]
          refine ⟨hb, ⟨hnext answer _ rfl, ?_⟩, ha⟩
          intro s₂ hs₂
          cases hs₂
        . simp [hothers]
    | inr action =>
      rcases hact with ⟨hheld, hact⟩
      cases t with
      | none =>
        have hrely := hcheck.1 rfl _ _ _ hact
        refine ⟨before' ++ (next answer, none) :: after', hthreads _, ?_, ?_⟩
        . simp only [List.forall_mem_append, List.forall_mem_cons]
          refine ⟨fun thread hthread => (hb thread hthread).rely hrely,
            ⟨hnext answer _ ⟨fun _ => rfl, ?_⟩, ?_⟩,
            fun thread hthread => (ha thread hthread).rely hrely⟩
          . intro s₁ hs₁
            cases hs₁
          . intro s₁ hs₁
            cases hs₁
        . rw [hheld]
          simpa using hcount
      | some s₁ =>
        -- The others know nothing that could be wrong now
        have hothers : before'.countP (fun thread => thread.2.isSome) = 0 ∧
            after'.countP (fun thread => thread.2.isSome) = 0 := by
          simp only [Option.isSome_some, ↓reduceIte] at hcount
          split at hcount <;> omega
        refine ⟨before' ++ (next answer, some s'.state) :: after', hthreads _, ?_, ?_⟩
        . simp only [List.forall_mem_append, List.forall_mem_cons]
          refine ⟨fun thread hthread => (hb thread hthread).of_none
            (none_of_countP hothers.1 thread hthread), ⟨hnext answer _ ⟨?_, ?_⟩, ?_⟩,
            fun thread hthread => (ha thread hthread).of_none
              (none_of_countP hothers.2 thread hthread)⟩
          . intro hnone
            cases hnone
          . intro s₂ hs₂
            cases hs₂
            exact ⟨s.state, s'.state, hknows s₁ rfl, hact, rfl⟩
          . intro s₂ hs₂
            cases hs₂
            exact spec.rely_refl _
        . rw [hheld]
          simpa using hcount

/--
In every interleaving each thread keeps to the agreement, and what it knows is still true.
-/
theorem reaches_holds {pool : Pool (WithLock ρ Act) (Locked S) α}
    {entry : Prog (WithLock ρ Act) α → Prop} {s : S}
    (h : Pool.Reaches (Locked.Handles spec.handle) entry ⟨false, s⟩ pool)
    (hentry : ∀ p, entry p → spec.Keeps p none)
    : ∀ p ∈ pool.threads, ∃ t, spec.Holds pool.shared.state (p, t) := by
  have hagreed : ∃ threads, Agreed spec pool threads := by
    induction h with
    | refl => exact ⟨[], rfl, by simp, rfl⟩
    | tail _ hstep ih =>
      rcases ih with ⟨threads, ih⟩
      exact ih.step hentry hstep
  rcases hagreed with ⟨threads, hagreed⟩
  intro p hp
  rw [← hagreed.programs] at hp
  rcases List.mem_map.mp hp with ⟨⟨p, t⟩, hthread, rfl⟩
  exact ⟨t, hagreed.holds _ hthread⟩

section Rules

variable {p : Prog Act β} {f : β → Prog (WithLock ρ Act) α} {post : β → S → Prop}

def Relied (spec : LockSpec ρ Act S) : Handler Act S := fun _ s action answer s' =>
  ∃ s₁, spec.rely s s₁ ∧ spec.handle s₁ action answer s'

theorem meets_section {post' : α → Option S → Prop} {s : S}
    (h : p.Meets spec.Relied (fun _ action s => ∀ s', spec.rely s s' → spec.pre action s') post s)
    (hpost : ∀ value s, post value s → (f value).Meets spec.Knows spec.Checks post' (some s))
    : (p.lift (fun _ => Sum.inr) >>= f).Meets spec.Knows spec.Checks post' (some s) := by
  apply Prog.meets_bind.mpr
  induction p generalizing s with
  | done value => exact hpost value s h
  | act action next ih =>
    refine ⟨⟨fun hnone => (by cases hnone), ?_⟩, ?_⟩
    . intro s₁ hs₁
      cases hs₁
      exact h.1
    . rintro answer t ⟨_, hknows⟩
      rcases hknows s rfl with ⟨s₁, s₂, hrely, hact, rfl⟩
      exact ih answer (h.2 answer s₂ ⟨s₁, hrely, hact⟩)

theorem keeps_of_rely {p : Prog Act α} (h : p.Avoids fun _ action =>
      ¬∀ s answer s', spec.handle s action answer s' → spec.rely s s')
    : spec.Keeps (p.lift fun _ => Sum.inr) none := by
  induction p with
  | done value => rfl
  | act action next ih =>
    refine ⟨⟨fun _ => not_not.mp h.1, fun s hs => (by cases hs)⟩, ?_⟩
    rintro answer t ⟨hnone, _⟩
    rw [hnone rfl]
    exact ih answer (h.2 answer)

end Rules

end LockSpec
