import Mathlib.Algebra.BigOperators.Group.List.Basic
import Mathlib.Algebra.BigOperators.Pi
import Mathlib.Algebra.Group.Pi.Basic
import Mathlib.Algebra.Ring.Int.Defs
import Mathlib.Algebra.Ring.Nat
import Mathlib.Tactic.Abel
import ConstructVeil.Util.Atomic
import ConstructVeil.Util.Loop
import ConstructVeil.Util.Pool

/-!
This module contains tallies of the programs in a pool: every action adds something to the shared
state, and the shared state is the sum of what the programs have added. What a single program adds
is found by looking at that program alone.
-/

def Prog.tallied {Act : Type → Type} {M : Type} [Add M] (effect : ⦃β : Type⦄ → Act β → β → M)
    : Handler Act M :=
  fun _ tally action answer tally' => tally' = tally + effect action answer

namespace Pool

variable {Act : Type → Type} {S α M : Type} [AddCommMonoid M] {handle : Handler Act S}
  {entry : Prog Act α → Prop} {s : S} {pool : Pool Act S α}

/--
Programs with their tallies. If the tallies of a program alone meet `pre` and `post`, then so do
they in a pool, and they add up to the account of the shared state, up to `r`.
-/
theorem Reaches.tally (h : Reaches handle entry s pool) {effect : ⦃β : Type⦄ → Act β → β → M}
    {pre : ⦃β : Type⦄ → Act β → M → Prop} {post : α → M → Prop} {r : M → M → Prop}
    (hrefl : ∀ a, r a a)
    (htrans : ∀ a b c, r a b → r b c → r a c) (hadd : ∀ a b c, r a b → r (a + c) (b + c))
    (account : S → M) (hentry : ∀ p, entry p → p.Meets (Prog.tallied effect) pre post 0)
    (hact : ∀ ⦃β : Type⦄ {s s' : S} {action : Act β} {answer : β},
      handle s action answer s' → r (account s') (account s + effect action answer))
    : ∃ tallies : List (Prog Act α × M), tallies.map Prod.fst = pool.threads ∧
        (∀ t ∈ tallies, t.1.Meets (Prog.tallied effect) pre post t.2) ∧
        r (account pool.shared) (account s + (tallies.map Prod.snd).sum) := by
  induction h with
  | refl => exact ⟨[], rfl, by simp, by simpa using hrefl _⟩
  | tail _ hstep ih =>
    rcases ih with ⟨tallies, hthreads, hmeets, hsum⟩
    cases hstep with
    | spawn s threads p hp =>
      refine ⟨tallies ++ [(p, 0)], by simp [hthreads], ?_, by simpa using hsum⟩
      rw [List.forall_mem_append, List.forall_mem_singleton]
      exact ⟨hmeets, hentry p hp⟩
    | @act β s s' action answer next before after hhandle =>
      rcases List.map_eq_append_iff.mp hthreads with ⟨front, back, rfl, rfl, hback⟩
      rcases List.map_eq_cons_iff.mp hback with ⟨⟨p, t⟩, back, rfl, rfl, rfl⟩
      rw [List.forall_mem_append, List.forall_mem_cons] at hmeets
      refine ⟨front ++ (next answer, t + effect action answer) :: back, by simp, ?_, ?_⟩
      . rw [List.forall_mem_append, List.forall_mem_cons]
        exact ⟨hmeets.1, hmeets.2.1.2 answer _ rfl, hmeets.2.2⟩
      . apply htrans _ _ _ (hact hhandle)
        have hmoved := hadd _ _ (effect action answer) hsum
        have hcomm : ∀ a b c d e : M, a + (b + (c + d)) + e = a + (b + (c + e + d)) := by
          intro a b c d e
          abel
        simp only [List.map_append, List.map_cons, List.sum_append, List.sum_cons,
          hcomm] at hmoved ⊢
        exact hmoved

end Pool

def Prog.value? {Act : Type → Type} {α : Type} : Prog Act α → Option α
  | .done value => some value
  | .act _ _ => none

@[simp]
theorem Prog.value?_done {Act : Type → Type} {α : Type} (value : α)
    : (done value : Prog Act α).value? = some value := rfl

@[simp]
theorem Prog.value?_act {Act : Type → Type} {α β : Type} (action : Act β) (next : β → Prog Act α)
    : (act action next).value? = none := rfl

def Pool.results {Act : Type → Type} {S α : Type} (pool : Pool Act S α) : List α :=
  pool.threads.filterMap Prog.value?

def Pool.unfinished {Act : Type → Type} {S α : Type} (pool : Pool Act S α) : Nat :=
  pool.threads.countP fun p => p.value?.isNone

theorem Pool.length_results_add_unfinished {Act : Type → Type} {S α : Type} (pool : Pool Act S α)
    : pool.results.length + pool.unfinished = pool.threads.length := by
  rcases pool with ⟨s, threads⟩
  simp only [results, unfinished]
  induction threads with
  | nil => rfl
  | cons p threads ih =>
    rw [List.filterMap_cons, List.countP_cons]
    cases h : p.value? with
    | none =>
      simp only [Option.isNone_none, ↓reduceIte, List.length_cons]
      omega
    | some value =>
      simp only [Option.isNone_some, Bool.false_eq_true, ↓reduceIte, List.length_cons]
      omega

section Counters

/--
A counter of 64 bits is `a` if it would be `b` without a bound.
-/
def Wrapped (a b : Int) : Prop := ∃ wraps : Nat, b = a + wraps * 2 ^ 64

namespace Wrapped

theorem refl (a : Int) : Wrapped a a := ⟨0, by simp⟩

theorem trans {a b c : Int} (hab : Wrapped a b) (hbc : Wrapped b c) : Wrapped a c := by
  rcases hab with ⟨k, rfl⟩
  rcases hbc with ⟨n, rfl⟩
  refine ⟨k + n, ?_⟩
  push_cast
  omega

theorem add_right {a b : Int} (h : Wrapped a b) (c : Int) : Wrapped (a + c) (b + c) := by
  rcases h with ⟨k, rfl⟩
  exact ⟨k, by omega⟩

theorem toNat_add (a b : UInt64) : Wrapped (a + b).toNat (a.toNat + b.toNat) := by
  refine ⟨(a.toNat + b.toNat) / 2 ^ 64, ?_⟩
  rw [UInt64.toNat_add]
  omega

end Wrapped

variable {C : Type}

def WrappedEach (a b : C → Int) : Prop := ∀ c, Wrapped (a c) (b c)

namespace WrappedEach

theorem refl (a : C → Int) : WrappedEach a a := fun c => .refl (a c)

theorem trans {a b c : C → Int} (hab : WrappedEach a b) (hbc : WrappedEach b c)
    : WrappedEach a c :=
  fun x => (hab x).trans (hbc x)

theorem add_right {a b : C → Int} (h : WrappedEach a b) (c : C → Int)
    : WrappedEach (a + c) (b + c) :=
  fun x => (h x).add_right (c x)

end WrappedEach

variable [DecidableEq C] {m m' : AtomicMemory C UInt64}

namespace AtomicMemory

def counts (m : AtomicMemory C UInt64) : C → Int := fun cell => (m cell).value.toNat

theorem counts_store (m : AtomicMemory C UInt64) (cell : C) (v : UInt64)
    : counts (m.store cell v) = m.counts + Pi.single cell
        ((v.toNat : Int) - (m cell).value.toNat) := by
  funext cell'
  by_cases hcell : cell' = cell
  . subst hcell
    simp [counts]
  . simp [counts, store_of_ne _ _ hcell, hcell]

end AtomicMemory

namespace AtomicOp

def effect {β : Type} : AtomicOp C UInt64 β → β → C → Int
  | .load _ => fun _ => 0
  | .compareExchange cell current new => fun res =>
    match res with
    | .ok _ => Pi.single cell ((new.toNat : Int) - current.toNat)
    | .error _ => 0
  | .fetchAdd cell n => fun _ => Pi.single cell (n.toNat : Int)
  | .swap cell new => fun old => Pi.single cell ((new.toNat : Int) - old.toNat)

theorem wrapped_of_handles {β : Type} {op : AtomicOp C UInt64 β} {answer : β}
    (h : Handles m op answer m') : WrappedEach m'.counts (m.counts + op.effect answer) := by
  cases op with
  | load cell =>
    rcases h with ⟨_, rfl⟩
    simpa [effect] using WrappedEach.refl _
  | compareExchange cell current new =>
    simp only [Handles] at h
    split at h
    . next hvalue =>
      rcases h with ⟨rfl, rfl⟩
      rw [AtomicMemory.counts_store, hvalue]
      exact .refl _
    . rcases h with ⟨rfl, rfl⟩
      simpa [effect] using WrappedEach.refl _
  | fetchAdd cell n =>
    rcases h with ⟨rfl, rfl⟩
    intro cell'
    by_cases hcell : cell' = cell
    . subst hcell
      simpa [effect, AtomicMemory.counts] using Wrapped.toNat_add (m cell').value n
    . rw [AtomicMemory.counts_store]
      simpa [effect, hcell] using Wrapped.refl _
  | swap cell new =>
    rcases h with ⟨rfl, rfl⟩
    rw [AtomicMemory.counts_store]
    exact .refl _

end AtomicOp

end Counters
