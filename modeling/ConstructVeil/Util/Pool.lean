import Mathlib.Algebra.BigOperators.Group.List.Basic
import Mathlib.Logic.Relation
import ConstructVeil.Util.Prog

/-!
This module contains pools of programs that run concurrently: in every step one of them performs its
next action on the shared surroundings, or a new one is started. What every action keeps, every
interleaving keeps.
-/

structure Pool (Act : Type → Type) (S α : Type) where
  shared : S
  threads : List (Prog Act α)

namespace Pool

variable {Act : Type → Type} {S α : Type}

/--
`entry` are the programs that may be started.
-/
inductive Step (handle : Handler Act S) (entry : Prog Act α → Prop)
    : Pool Act S α → Pool Act S α → Prop
  where
  | spawn (s : S) (threads : List (Prog Act α)) (p : Prog Act α) (hp : entry p)
    : Step handle entry ⟨s, threads⟩ ⟨s, threads ++ [p]⟩
  | act {β : Type} {s s' : S} {action : Act β} {answer : β} (next : β → Prog Act α)
    (before after : List (Prog Act α)) (hact : handle s action answer s')
    : Step handle entry ⟨s, before ++ .act action next :: after⟩
      ⟨s', before ++ next answer :: after⟩

def Reaches (handle : Handler Act S) (entry : Prog Act α → Prop) (s : S) (pool : Pool Act S α)
    : Prop :=
  Relation.ReflTransGen (Step handle entry) ⟨s, []⟩ pool

theorem Reaches.act {handle : Handler Act S} {entry : Prog Act α → Prop} {s₀ s s' : S} {β : Type}
    {action : Act β} {next : β → Prog Act α} (before : List (Prog Act α))
    {after : List (Prog Act α)}
    (answer : β) (h : Reaches handle entry s₀ ⟨s, before ++ .act action next :: after⟩)
    (hact : handle s action answer s')
    : Reaches handle entry s₀ ⟨s', before ++ next answer :: after⟩ :=
  h.tail (.act next before after hact)

/--
The points at which a thread can be: `stage` holds of all programs that are started and of all that
are left of them.
-/
structure Stages (handle : Handler Act S) (entry stage : Prog Act α → Prop) : Prop where
  entry : ∀ p, entry p → stage p
  act : ∀ ⦃β : Type⦄ (s s' : S) (action : Act β) (answer : β) (next : β → Prog Act α),
    stage (.act action next) → handle s action answer s' → stage (next answer)

variable {handle : Handler Act S} {entry stage : Prog Act α → Prop} {s : S} {pool : Pool Act S α}

theorem Reaches.threads (h : Reaches handle entry s pool) (hstages : Stages handle entry stage)
    : ∀ p ∈ pool.threads, stage p := by
  induction h with
  | refl => simp
  | tail _ hstep ih =>
    cases hstep with
    | spawn s threads p hp =>
      rw [List.forall_mem_append, List.forall_mem_singleton]
      exact ⟨ih, hstages.entry p hp⟩
    | act next before after hhandle =>
      rw [List.forall_mem_append, List.forall_mem_cons] at ih ⊢
      exact ⟨ih.1, hstages.act _ _ _ _ next ih.2.1 hhandle, ih.2.2⟩

theorem Reaches.shared (h : Reaches handle entry s pool) (hstages : Stages handle entry stage)
    {I : S → Prop} (hinit : I s)
    (hact : ∀ ⦃β : Type⦄ (s s' : S) (action : Act β) (answer : β) (next : β → Prog Act α),
      stage (.act action next) → handle s action answer s' → I s → I s')
    : I pool.shared := by
  induction h with
  | refl => exact hinit
  | tail hreach hstep ih =>
    cases hstep with
    | spawn s threads p hp => exact ih
    | act next before after hhandle =>
      have hp := Reaches.threads hreach hstages _ (List.mem_append_right before List.mem_cons_self)
      exact hact _ _ _ _ next hp hhandle ih

/--
Accounts over the shared state and the threads. If every action keeps the balance of the thread that
performs it, up to `r`, then the balance of the whole pool is kept.
-/
theorem Reaches.balance (h : Reaches handle entry s pool) (hstages : Stages handle entry stage)
    {M : Type} [AddCommMonoid M] {r : M → M → Prop} (hrefl : ∀ a, r a a)
    (htrans : ∀ a b c, r a b → r b c → r a c) (hadd : ∀ a b c, r a b → r (a + c) (b + c))
    (account : S → M) (weight : Prog Act α → M) (hentry : ∀ p, entry p → weight p = 0)
    (hact : ∀ ⦃β : Type⦄ (s s' : S) (action : Act β) (answer : β) (next : β → Prog Act α),
      stage (.act action next) → handle s action answer s' →
        r (account s' + weight (next answer)) (account s + weight (.act action next)))
    : r (account pool.shared + (pool.threads.map weight).sum) (account s) := by
  induction h with
  | refl =>
    rw [List.map_nil, List.sum_nil, add_zero]
    exact hrefl _
  | tail hreach hstep ih =>
    apply htrans _ _ _ _ ih
    cases hstep with
    | spawn s threads p hp =>
      simp only [List.map_append, List.sum_append, List.map_cons, List.map_nil, List.sum_singleton,
        hentry p hp, add_zero]
      exact hrefl _
    | act next before after hhandle =>
      have hp := Reaches.threads hreach hstages _ (List.mem_append_right before List.mem_cons_self)
      -- the weights of the other threads are on both sides
      have hsum : ∀ g w : M, g + ((before.map weight).sum + (w + (after.map weight).sum))
          = g + w + ((before.map weight).sum + (after.map weight).sum) := by
        intro g w
        rw [add_left_comm _ w, add_assoc g w]
      simp only [List.map_append, List.map_cons, List.sum_append, List.sum_cons, hsum]
      apply hadd
      exact hact _ _ _ _ next hp hhandle

end Pool
