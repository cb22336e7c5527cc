import Mathlib.Data.List.Basic

/-!
This module contains machines, i.e. partial step functions on a state, and the induction over their
runs.
-/

structure Machine (S A : Type) where
  init : S
  step : S → A → Option S

namespace Machine

variable {S A : Type} (m : Machine S A)

def run (s : S) : List A → Option S
  | [] => some s
  | a :: as => (m.step s a).bind fun s' => run s' as

def Reachable (s : S) : Prop := ∃ as, m.run m.init as = some s

theorem run_cons_eq_some_iff {s s' : S} {a : A} {as : List A}
    : m.run s (a :: as) = some s'
        ↔
      ∃ mid, m.step s a = some mid ∧ m.run mid as = some s' := by
  rw [run, Option.bind_eq_some_iff]

theorem run_append_eq_some_iff {s s' : S} {as bs : List A}
    : m.run s (as ++ bs) = some s'
        ↔
      ∃ mid, m.run s as = some mid ∧ m.run mid bs = some s' := by
  induction as generalizing s with
  | nil => simp [run]
  | cons a as ih =>
    rw [List.cons_append, run_cons_eq_some_iff]
    constructor
    . intro h
      rcases h with ⟨mid, ha, h⟩
      rw [ih] at h
      rcases h with ⟨mid', has, hbs⟩
      exact ⟨mid', m.run_cons_eq_some_iff.mpr ⟨mid, ha, has⟩, hbs⟩
    . intro h
      rcases h with ⟨mid', has, hbs⟩
      rw [run_cons_eq_some_iff] at has
      rcases has with ⟨mid, ha, has⟩
      exact ⟨mid, ha, ih.mpr ⟨mid', has, hbs⟩⟩

/--
What every step preserves, every run preserves. The steps may be restricted to those that a run
takes.
-/
theorem run_induction {motive : S → Prop} {s s' : S} {as : List A}
    (hstep : ∀ a ∈ as, ∀ s s', motive s → m.step s a = some s' → motive s')
    (hinit : motive s) (hrun : m.run s as = some s') : motive s' := by
  induction as generalizing s with
  | nil =>
    injection hrun with hrun
    rw [← hrun]
    assumption
  | cons a as ih =>
    rw [run_cons_eq_some_iff] at hrun
    rcases hrun with ⟨mid, ha, hrun⟩
    apply ih
    . intro b hb
      apply hstep
      exact List.mem_cons_of_mem a hb
    . apply hstep a List.mem_cons_self s mid <;> assumption
    . assumption

theorem Reachable.step {s s' : S} {a : A} (h : m.Reachable s) (ha : m.step s a = some s')
    : m.Reachable s' := by
  rcases h with ⟨as, hrun⟩
  refine ⟨as ++ [a], ?_⟩
  rw [run_append_eq_some_iff]
  refine ⟨s, hrun, ?_⟩
  rw [run, ha]
  rfl

theorem Reachable.induction {motive : S → Prop} {s : S} (h : m.Reachable s) (hinit : motive m.init)
    (hstep : ∀ a s s', motive s → m.step s a = some s' → motive s') : motive s := by
  rcases h with ⟨as, hrun⟩
  apply m.run_induction _ hinit hrun
  intro a _
  apply hstep

end Machine
