import Mathlib.Algebra.Ring.Int.Defs
import Mathlib.Algebra.Ring.Nat
import Mathlib.Data.List.Chain
import ConstructVeil.Util.Counters
import ConstructVeil.Relay.Impl.WarnLimiter

/-!
This module contains the verification of the rate limiter under every interleaving of its callers:
no warning is lost from the counts, and no two warnings are closer than the window.
-/

namespace Veil

namespace WarnLimiter

abbrev Memory := AtomicMemory WarnCell UInt64
abbrev Call := Prog (AtomicOp WarnCell UInt64) (Option UInt64)

section Programs

def suppress : Call := .act (.fetchAdd .suppressed 1) fun _ => .done none

def report : Call := .act (.swap .suppressed 0) fun suppressed => .done (some suppressed)

def race (last new : UInt64) : Call :=
  .act (.compareExchange .last last new) fun res =>
    match res with
    | .error _ => suppress
    | .ok _ => report

def decideOn (nowSecs last : UInt64) : Call :=
  if last ≠ 0 ∧ saturatingSub nowSecs last < invalidAuthWarnEvery then
    suppress
  else
    race last (max nowSecs 1)

theorem admitWarning_eq (nowSecs : UInt64)
    : admitWarning nowSecs = .act (.load .last) (decideOn nowSecs) := by
  unfold admitWarning decideOn
  rfl

end Programs

/--
The stores that a caller who has seen `last` may make.
-/
structure Clear (last new : UInt64) : Prop where
  ne_zero : new ≠ 0
  spacing : last = 0 ∨ last.toNat + 60 ≤ new.toNat

theorem toNat_max_one (n : UInt64) : (max n 1).toNat = max n.toNat 1 := by
  change (if n ≤ 1 then 1 else n).toNat = max n.toNat 1
  split
  . next h =>
    rw [UInt64.le_iff_toNat_le, UInt64.toNat_one] at h
    rw [UInt64.toNat_one]
    omega
  . next h =>
    rw [UInt64.le_iff_toNat_le, UInt64.toNat_one] at h
    omega

theorem clear_of_not_lt {nowSecs last : UInt64}
    (h : ¬(last ≠ 0 ∧ saturatingSub nowSecs last < invalidAuthWarnEvery))
    : Clear last (max nowSecs 1) := by
  have hmax := toNat_max_one nowSecs
  constructor
  . intro hzero
    rw [hzero, UInt64.toNat_zero] at hmax
    omega
  . by_cases hlast : last = 0
    . exact Or.inl hlast
    . right
      have hge : ¬saturatingSub nowSecs last < invalidAuthWarnEvery := fun hlt => h ⟨hlast, hlt⟩
      unfold saturatingSub invalidAuthWarnEvery at hge
      rw [UInt64.lt_iff_toNat_lt] at hge
      split at hge
      . next hle =>
        rw [UInt64.toNat_sub_of_le _ _ hle] at hge
        have : (60 : UInt64).toNat = 60 := rfl
        omega
      . exact absurd (by decide) hge

inductive Stage : Call → Prop where
  | loading (nowSecs : UInt64) : Stage (.act (.load .last) (decideOn nowSecs))
  | suppressing : Stage suppress
  | racing (last new : UInt64) (hclear : Clear last new) : Stage (race last new)
  | reporting : Stage report
  | returned (res : Option UInt64) : Stage (.done res)

theorem stage_decideOn (nowSecs last : UInt64) : Stage (decideOn nowSecs last) := by
  unfold decideOn
  split
  . exact .suppressing
  . next h => exact .racing _ _ (clear_of_not_lt h)

inductive Stepped (m : Memory) : Call → Memory → Call → Prop where
  | load (nowSecs last : UInt64) : Stepped m (.act (.load .last) (decideOn nowSecs)) m
    (decideOn nowSecs last)
  | suppress
    : Stepped m suppress (m.store .suppressed ((m .suppressed).value + 1)) (.done none)
  | lose (last new : UInt64) : Stepped m (race last new) m WarnLimiter.suppress
  | win (new : UInt64) (hclear : Clear (m .last).value new)
    : Stepped m (race (m .last).value new) (m.store .last new) WarnLimiter.report
  | report : Stepped m report (m.store .suppressed 0) (.done (some (m .suppressed).value))

theorem stepped_of_handles {β : Type} {m m' : Memory} {action : AtomicOp WarnCell UInt64 β}
    {answer : β} {next : β → Call} (hstage : Stage (.act action next))
    (hact : AtomicOp.Handles m action answer m')
    : Stepped m (.act action next) m' (next answer) := by
  cases hstage with
  | loading nowSecs =>
    rcases hact with ⟨_, rfl⟩
    exact .load nowSecs answer
  | suppressing =>
    rcases hact with ⟨rfl, rfl⟩
    exact .suppress
  | racing last new hclear =>
    simp only [AtomicOp.Handles] at hact
    split at hact
    . next hvalue =>
      rcases hact with ⟨rfl, rfl⟩
      subst hvalue
      exact .win new hclear
    . rcases hact with ⟨rfl, rfl⟩
      exact .lose last new
  | reporting =>
    rcases hact with ⟨rfl, rfl⟩
    exact .report

theorem Stepped.stage {m m' : Memory} {p p' : Call} (h : Stepped m p m' p') : Stage p' := by
  cases h with
  | load nowSecs last => apply stage_decideOn
  | suppress => exact .returned none
  | lose last new => exact .suppressing
  | win new hclear => exact .reporting
  | report => exact .returned _

inductive IsCall : Call → Prop where
  | mk (nowSecs : UInt64) : IsCall (admitWarning nowSecs)

theorem stages : Pool.Stages AtomicOp.Handles IsCall Stage where
  entry := by
    intro p hp
    rcases hp with ⟨nowSecs⟩
    rw [admitWarning_eq]
    exact .loading nowSecs
  act := by
    intro β m m' action answer next hstage hact
    exact (stepped_of_handles hstage hact).stage

abbrev Reaches (pool : Pool (AtomicOp WarnCell UInt64) Memory (Option UInt64)) : Prop :=
  Pool.Reaches AtomicOp.Handles IsCall WarnLimiter.new pool

section Counts

/--
A call that returned `none` has left its warning in `suppressed`, and one that returned a count has
taken it from there.
-/
def credit : Call → Int
  | .done none => -1
  | .done (some count) => count.toNat
  | .act _ _ => 0

theorem credit_decideOn (nowSecs last : UInt64) : credit (decideOn nowSecs last) = 0 := by
  unfold decideOn
  split
  . rfl
  . rfl

theorem Stepped.credit {m m' : Memory} {p p' : Call} (h : Stepped m p m' p')
    : Wrapped ((m' .suppressed).value.toNat + WarnLimiter.credit p')
        ((m .suppressed).value.toNat + WarnLimiter.credit p) := by
  cases h with
  | load nowSecs last =>
    rw [credit_decideOn]
    exact .refl _
  | suppress =>
    rw [AtomicMemory.store_self, AtomicCell.value_store]
    simpa [WarnLimiter.credit, WarnLimiter.suppress]
      using (Wrapped.toNat_add (m .suppressed).value 1).add_right (-1)
  | lose last new => exact .refl _
  | win new hclear =>
    refine ⟨0, ?_⟩
    rw [AtomicMemory.store_of_ne _ _ (by decide)]
    simp [WarnLimiter.credit, race, WarnLimiter.report]
  | report =>
    refine ⟨0, ?_⟩
    rw [AtomicMemory.store_self, AtomicCell.value_store]
    simp [WarnLimiter.credit, WarnLimiter.report]

variable {pool : Pool (AtomicOp WarnCell UInt64) Memory (Option UInt64)}

theorem credits (h : Reaches pool)
    : Wrapped ((pool.shared .suppressed).value.toNat + (pool.threads.map credit).sum) 0 := by
  apply h.balance stages _ _ _ (fun m : Memory => ((m .suppressed).value.toNat : Int)) credit
  . intro p hp
    rcases hp with ⟨nowSecs⟩
    rw [admitWarning_eq]
    rfl
  . intro β m m' action answer next hstage hact
    exact (stepped_of_handles hstage hact).credit
  . exact Wrapped.refl
  . exact fun _ _ _ => Wrapped.trans
  . exact fun _ _ c h => h.add_right c

/--
A caller that has stored in `last` is about to return a count, or has returned it.
-/
def wins : Call → Int
  | .done none => 0
  | .done (some _) => -1
  | .act (.swap _ _) _ => -1
  | .act _ _ => 0

theorem wins_decideOn (nowSecs last : UInt64) : wins (decideOn nowSecs last) = 0 := by
  unfold decideOn
  split
  . rfl
  . rfl

theorem Stepped.wins {m m' : Memory} {p p' : Call} (h : Stepped m p m' p')
    : (m' .last).stores.length + WarnLimiter.wins p'
        = (m .last).stores.length + WarnLimiter.wins p := by
  cases h with
  | load nowSecs last =>
    rw [wins_decideOn]
    rfl
  | suppress =>
    rw [AtomicMemory.store_of_ne _ _ (by decide)]
    rfl
  | lose last new => rfl
  | win new hclear =>
    simp only [AtomicMemory.store_self, AtomicCell.stores_store, List.length_append,
      List.length_singleton, race, WarnLimiter.report, WarnLimiter.wins]
    omega
  | report =>
    rw [AtomicMemory.store_of_ne _ _ (by decide)]
    rfl

theorem stores_length (h : Reaches pool)
    : (pool.shared .last).stores.length + (pool.threads.map wins).sum = (0 : Int) := by
  apply h.balance stages _ _ _ (fun m : Memory => ((m .last).stores.length : Int)) wins
  . intro p hp
    rcases hp with ⟨nowSecs⟩
    rw [admitWarning_eq]
    rfl
  . intro β m m' action answer next hstage hact
    exact (stepped_of_handles hstage hact).wins
  . intro a
    rfl
  . intro a b c hab hbc
    rw [hab, hbc]
  . intro a b c hab
    rw [hab]

end Counts

structure Spaced (m : Memory) : Prop where
  initial : (m .last).initial = 0
  ne_zero : ∀ v ∈ (m .last).stores, v ≠ 0
  chain : (m .last).stores.IsChain fun v w => v.toNat + 60 ≤ w.toNat

theorem Spaced.store {m : Memory} {new : UInt64} (h : Spaced m) (hclear : Clear (m .last).value new)
    : Spaced (m.store .last new) := by
  constructor
  all_goals rw [AtomicMemory.store_self]
  . exact h.initial
  . rw [AtomicCell.stores_store, List.forall_mem_append, List.forall_mem_singleton]
    exact ⟨h.ne_zero, hclear.ne_zero⟩
  . rw [AtomicCell.stores_store, List.isChain_append]
    refine ⟨h.chain, List.isChain_singleton new, ?_⟩
    intro v hv w hw
    injection hw with hw
    rw [← hw]
    -- the caller has seen the latest store, or the exchange would have failed
    have hvalue := AtomicCell.value_eq_of_getLast? hv
    rw [hvalue] at hclear
    exact hclear.spacing.resolve_left (h.ne_zero v (List.mem_of_getLast? hv))

theorem Stepped.spaced {m m' : Memory} {p p' : Call} (h : Stepped m p m' p') (hm : Spaced m)
    : Spaced m' := by
  have hother : ∀ v, Spaced (m.store .suppressed v) := by
    intro v
    constructor
    all_goals rw [AtomicMemory.store_of_ne _ _ (by decide)]
    . exact hm.initial
    . exact hm.ne_zero
    . exact hm.chain
  cases h with
  | load nowSecs last => exact hm
  | suppress => apply hother
  | lose last new => exact hm
  | win new hclear => exact hm.store hclear
  | report => apply hother

theorem spaced {pool : Pool (AtomicOp WarnCell UInt64) Memory (Option UInt64)} (h : Reaches pool)
    : Spaced pool.shared := by
  apply h.shared stages
  . exact ⟨rfl, by simp [WarnLimiter.new, AtomicCell.new], .nil⟩
  . intro β m m' action answer next hstage hact
    exact (stepped_of_handles hstage hact).spaced

def reported (results : List (Option UInt64)) : List UInt64 := results.filterMap id

theorem sum_credit (results : List (Option UInt64))
    : ((results.map .done).map credit).sum
        =
      ((reported results).length : Int) + ((reported results).map UInt64.toNat).sum -
        results.length := by
  induction results with
  | nil => rfl
  | cons res results ih =>
    simp only [List.map_cons, List.sum_cons, ih, List.length_cons]
    cases res with
    | none =>
      simp only [credit, reported, List.filterMap_cons, id_eq]
      omega
    | some count =>
      simp only [credit, reported, List.filterMap_cons, id_eq, List.length_cons, List.map_cons,
        List.sum_cons]
      omega

theorem sum_wins (results : List (Option UInt64))
    : ((results.map .done).map wins).sum = -((reported results).length : Int) := by
  induction results with
  | nil => rfl
  | cons res results ih =>
    simp only [List.map_cons, List.sum_cons, ih]
    cases res with
    | none => simp [wins, reported]
    | some count =>
      simp only [wins, reported, List.filterMap_cons, id_eq, List.length_cons]
      omega

end WarnLimiter

open WarnLimiter in
/--
The rate limiter loses no count and never doubles up, for any number of callers and any
interleaving: when all calls have returned, the calls are the warnings, the counts reported with
them and the ones still in `suppressed`, in the arithmetic of the `u64` counter and, below its
range, exactly. There is one store in `last` for every warning, and the stores are at least the
window apart.
-/
theorem warnings_counted_and_spaced
    {pool : Pool (AtomicOp WarnCell UInt64) (AtomicMemory WarnCell UInt64) (Option UInt64)}
    (h : Pool.Reaches AtomicOp.Handles IsCall WarnLimiter.new pool)
    : (∀ results : List (Option UInt64), pool.threads = results.map .done →
        let total := (reported results).length + ((reported results).map UInt64.toNat).sum
          + (pool.shared .suppressed).value.toNat
        results.length % 2 ^ 64 = total % 2 ^ 64 ∧
        (results.length < 2 ^ 64 → results.length = total) ∧
        (pool.shared .last).stores.length = (reported results).length) ∧
      (pool.shared .last).stores.IsChain fun v w => v.toNat + 60 ≤ w.toNat := by
  refine ⟨?_, (spaced h).chain⟩
  intro results hreturned
  have hcredits := credits h
  have hwins := stores_length h
  rw [hreturned, sum_credit] at hcredits
  rw [hreturned, sum_wins] at hwins
  rcases hcredits with ⟨wraps, hcredits⟩
  dsimp only
  refine ⟨?_, ?_, ?_⟩
  . omega
  . intro hlt
    omega
  . omega

open WarnLimiter in
/--
Two callers find `last` empty, one of them loses the exchange, and a third one comes a window later.
-/
theorem warnings_counted_and_spaced_three_calls
    : ∃ pool, Pool.Reaches AtomicOp.Handles IsCall WarnLimiter.new pool ∧
        pool.threads = [some 1, none, some 0].map .done ∧
        (pool.shared .suppressed).value = 0 ∧
        (pool.shared .last).stores.IsChain fun v w => v.toNat + 60 ≤ w.toNat := by
  let m₁ : Memory := new.store .last 100
  let m₂ : Memory := m₁.store .suppressed 1
  let m₃ : Memory := m₂.store .suppressed 0
  let m₄ : Memory := m₃.store .last 160
  let m₅ : Memory := m₄.store .suppressed 0
  have hspawned : Reaches ⟨new, [admitWarning 100, admitWarning 130, admitWarning 160]⟩ :=
    ((Relation.ReflTransGen.refl.tail (.spawn new [] _ ⟨100⟩)).tail (.spawn new _ _ ⟨130⟩)).tail
      (.spawn new _ _ ⟨160⟩)
  have h : Reaches ⟨new, [race 0 100, admitWarning 130, admitWarning 160]⟩ :=
    hspawned.act [] 0 ⟨List.mem_cons_self, rfl⟩
  have h : Reaches ⟨new, [race 0 100, race 0 130, admitWarning 160]⟩ :=
    h.act [race 0 100] 0 ⟨List.mem_cons_self, rfl⟩
  have h : Reaches ⟨m₁, [report, race 0 130, admitWarning 160]⟩ :=
    h.act [] (.ok 0 : Except UInt64 UInt64) ⟨rfl, rfl⟩
  have h : Reaches ⟨m₁, [report, suppress, admitWarning 160]⟩ :=
    h.act [report] (.error 100 : Except UInt64 UInt64) ⟨rfl, rfl⟩
  have h : Reaches ⟨m₂, [report, .done none, admitWarning 160]⟩ := h.act [report] 0 ⟨rfl, rfl⟩
  have h : Reaches ⟨m₃, [.done (some 1), .done none, admitWarning 160]⟩ := h.act [] 1 ⟨rfl, rfl⟩
  have h : Reaches ⟨m₃, [.done (some 1), .done none, race 100 160]⟩ :=
    h.act [.done (some 1), .done none] 100 ⟨List.mem_cons_of_mem _ List.mem_cons_self, rfl⟩
  have h : Reaches ⟨m₄, [.done (some 1), .done none, report]⟩ :=
    h.act [.done (some 1), .done none] (.ok 100 : Except UInt64 UInt64) ⟨rfl, rfl⟩
  have h : Reaches ⟨m₅, [.done (some 1), .done none, .done (some 0)]⟩ :=
    h.act [.done (some 1), .done none] 0 ⟨rfl, rfl⟩
  exact ⟨_, h, rfl, rfl, (warnings_counted_and_spaced h).2⟩

end Veil
