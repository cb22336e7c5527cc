import Mathlib.Data.List.Nodup
import ConstructVeil.Util.Smallest
import ConstructVeil.Coordinator.Impl.Start

/-!
This module contains lemmas about sets of methods and about the choice of the methods to probe.
-/

namespace Veil

theorem MethodId.mem_all (method : MethodId) : method ∈ MethodId.all := by
  cases method <;> decide

theorem MethodId.bit_and_eq_zero_iff (m method : MethodId)
    : m.bit &&& method.bit = 0 ↔ m ≠ method := by
  cases m <;> cases method <;> decide

namespace MethodSet

theorem contains_iff {set : MethodSet} {method : MethodId}
    : set.contains method = true ↔ set.bits &&& method.bit = 0 := by
  unfold contains
  split
  . next h =>
    rw [beq_iff_eq] at h
    simp [h]
  . simp

theorem mem_iterAllowed {set : MethodSet} {method : MethodId}
    : method ∈ set.iterAllowed ↔ set.contains method = true := by
  unfold iterAllowed
  rw [List.mem_filter]
  simp [MethodId.mem_all]

theorem nodup_iterAllowed (set : MethodSet) : set.iterAllowed.Nodup := by
  unfold iterAllowed
  apply List.Nodup.filter
  decide

end MethodSet

theorem or_and_eq_zero_iff (a b x : UInt32) : (a ||| b) &&& x = 0 ↔ a &&& x = 0 ∧ b &&& x = 0 := by
  have hdistrib : (a ||| b) &&& x = (a &&& x) ||| (b &&& x) := by
    apply UInt32.toBitVec_inj.mp
    apply BitVec.and_or_distrib_right
  rw [hdistrib, UInt32.or_eq_zero_iff]

theorem foldl_disable_and_eq_zero_iff (registered : MethodId → Bool) (ms : List MethodId)
    (bits x : UInt32)
    : (ms.foldl (fun bits m => if registered m then bits else bits ||| m.bit) bits) &&& x = 0
        ↔
      bits &&& x = 0 ∧ ∀ m ∈ ms, registered m = false → m.bit &&& x = 0 := by
  induction ms generalizing bits with
  | nil => simp
  | cons m ms ih =>
    rw [List.foldl_cons, ih]
    cases hm : registered m with
    | true => simp [hm]
    | false => simp [hm, or_and_eq_zero_iff, and_assoc]

namespace VeilCoordinator

/--
The methods a start can probe are those that are both allowed and registered.
-/
theorem contains_restrict (c : VeilCoordinator) (set : MethodSet) (method : MethodId)
    : (c.restrict set).contains method = true
        ↔
      set.contains method = true ∧ c.registered method = true := by
  rw [MethodSet.contains_iff, MethodSet.contains_iff]
  unfold restrict
  dsimp only
  rw [foldl_disable_and_eq_zero_iff]
  apply and_congr_right
  intro _
  constructor
  . intro h
    specialize h method (MethodId.mem_all method)
    cases hreg : c.registered method with
    | true => rfl
    | false => exact absurd rfl ((MethodId.bit_and_eq_zero_iff _ _).mp (h hreg))
  . intro hreg m _ hm
    rw [MethodId.bit_and_eq_zero_iff]
    intro heq
    rw [heq, hreg] at hm
    cases hm

end VeilCoordinator

section Select

variable {α : Type} [LinearOrder α] (score : MethodId → α) (fingerprint : NetworkFingerprint)
  (allowed : MethodSet) (scores : ScoreLookup) (cfg : VeilConfig) (now : SystemTime)

def unblockedMethods : List MethodId :=
  allowed.iterAllowed.filter fun method =>
    !scores.isPermanentlyBlocked fingerprint method cfg.blockTtl now

def blockedSince (method : MethodId) : Option SystemTime :=
  (scores.get fingerprint method).bind (·.blockedAt)

def blockedMethods : List (MethodId × SystemTime) :=
  allowed.iterAllowed.filterMap fun method =>
    (blockedSince fingerprint scores method).map fun t => (method, t)

/--
The method that has been blocked for the longest time, or the first allowed one if none has a time.
-/
def fallbackMethod : Option MethodId :=
  match ((blockedMethods fingerprint allowed scores).insertionSort fun a b => a.2 ≤ b.2).head? with
  | some (method, _) => some method
  | none => allowed.iterAllowed.head?

def MethodId.Precedes (a b : MethodId) : Prop := MethodId.all.idxOf a < MethodId.all.idxOf b

theorem pairwise_precedes_iterAllowed : allowed.iterAllowed.Pairwise MethodId.Precedes := by
  unfold MethodSet.iterAllowed
  apply List.Pairwise.filter
  unfold MethodId.Precedes
  decide

theorem map_fst_sorted (unblocked : List MethodId) (k : Nat)
    : (((unblocked.map fun m => (m, score m)).insertionSort fun a b => b.2 ≤ a.2).take k).map
        Prod.fst
        =
      smallest (fun m => OrderDual.toDual (score m)) k unblocked := by
  have hmap :=
    List.map_insertionSort (fun m m' => OrderDual.toDual (score m) ≤ OrderDual.toDual (score m'))
    (fun a b : MethodId × α => b.2 ≤ a.2) (fun m => (m, score m)) unblocked
    (fun _ _ _ _ => Iff.rfl)
  rw [smallest, ← hmap, List.map_take, List.map_map]
  have hid : (Prod.fst ∘ fun m => (m, score m)) = (id : MethodId → MethodId) := rfl
  rw [hid, List.map_id]

theorem filterMap_blockedAt
    : (allowed.iterAllowed.filterMap fun method =>
        (scores.get fingerprint method).bind fun entry => entry.blockedAt.map fun t => (method, t))
        =
      blockedMethods fingerprint allowed scores := by
  unfold blockedMethods
  congr 1
  funext method
  unfold blockedSince
  cases scores.get fingerprint method with
  | none => rfl
  | some entry => rfl

theorem selectCandidatesBy_eq
    : selectCandidatesBy score fingerprint allowed scores cfg now
        =
      if cfg.topKProbes = 0 ∨ unblockedMethods fingerprint allowed scores cfg now = [] then
        (fallbackMethod fingerprint allowed scores).toList
      else
        smallest (fun m => OrderDual.toDual (score m))
          (min cfg.topKProbes (unblockedMethods fingerprint allowed scores cfg now).length)
          (unblockedMethods fingerprint allowed scores cfg now) := by
  unfold selectCandidatesBy
  dsimp only
  rw [map_fst_sorted, List.length_insertionSort, List.length_map]
  have hunblocked : (allowed.iterAllowed.filter fun method =>
      !scores.isPermanentlyBlocked fingerprint method cfg.blockTtl now)
        = unblockedMethods fingerprint allowed scores cfg now := rfl
  rw [hunblocked]
  generalize unblockedMethods fingerprint allowed scores cfg now = unblocked
  have hempty :
      (smallest (fun m => OrderDual.toDual (score m)) (min cfg.topKProbes unblocked.length)
      unblocked).isEmpty = true ↔ cfg.topKProbes = 0 ∨ unblocked = [] := by
    rw [List.isEmpty_iff_length_eq_zero, length_smallest, ← List.length_eq_zero_iff]
    omega
  rw [filterMap_blockedAt]
  simp only [hempty]
  congr 1
  unfold fallbackMethod
  cases ((blockedMethods fingerprint allowed scores).insertionSort fun a b => a.2 ≤ b.2).head? with
  | none => rfl
  | some first => rfl

theorem fallbackMethod_isSome (h : allowed.iterAllowed ≠ [])
    : ∃ method, fallbackMethod fingerprint allowed scores = some method := by
  unfold fallbackMethod
  split
  . next method t _ => exact ⟨method, rfl⟩
  . exact ⟨_, List.head?_eq_some_head h⟩

theorem mem_blockedMethods {m : MethodId} {t : SystemTime}
    : (m, t) ∈ blockedMethods fingerprint allowed scores
        ↔
      allowed.contains m = true ∧ blockedSince fingerprint scores m = some t := by
  simp only [blockedMethods, List.mem_filterMap, Option.map_eq_some_iff, Prod.mk.injEq,
    MethodSet.mem_iterAllowed]
  constructor
  . rintro ⟨_, hallowed, _, hsince, rfl, rfl⟩
    exact ⟨hallowed, hsince⟩
  . rintro ⟨hallowed, hsince⟩
    exact ⟨m, hallowed, t, hsince, rfl, rfl⟩

theorem pairwise_precedes_blockedMethods
    : (blockedMethods fingerprint allowed scores).Pairwise fun a b => a.1.Precedes b.1 := by
  apply List.Pairwise.filterMap _ _ (pairwise_precedes_iterAllowed allowed)
  intro m m' hprecedes a ha b hb
  rw [Option.map_eq_some_iff] at ha hb
  rcases ha with ⟨_, _, rfl⟩
  rcases hb with ⟨_, _, rfl⟩
  exact hprecedes

/--
How the fallback is chosen: the earliest time counts, among equals the order of the methods.
-/
theorem fallbackMethod_eq_some {method : MethodId}
    (h : fallbackMethod fingerprint allowed scores = some method)
    : allowed.contains method = true ∧
      ((∃ t, blockedSince fingerprint scores method = some t ∧
          ∀ m t', allowed.contains m = true → blockedSince fingerprint scores m = some t' →
            m = method ∨ t < t' ∨ (t = t' ∧ method.Precedes m)) ∨
        ((∀ m, allowed.contains m = true → blockedSince fingerprint scores m = none) ∧
          allowed.iterAllowed.head? = some method)) := by
  unfold fallbackMethod at h
  split at h
  . next method' t hhead =>
    injection h with h
    subst h
    rcases head_insertionSort_stable (pairwise_precedes_blockedMethods fingerprint allowed scores)
      hhead with ⟨hin, hfirst⟩
    rcases (mem_blockedMethods fingerprint allowed scores).mp hin with ⟨hallowed, hsince⟩
    refine ⟨hallowed, Or.inl ⟨t, hsince, ?_⟩⟩
    intro m t' hm ht'
    rcases hfirst (m, t') ((mem_blockedMethods fingerprint allowed scores).mpr ⟨hm, ht'⟩)
      with heq | hlater
    . injection heq with heq _
      exact Or.inl heq
    . exact Or.inr hlater
  . next hhead =>
    refine ⟨?_, Or.inr ⟨?_, h⟩⟩
    . rw [← MethodSet.mem_iterAllowed]
      exact List.mem_of_head? h
    . intro m hm
      cases hsince : blockedSince fingerprint scores m with
      | none => rfl
      | some t =>
        have hin := (mem_blockedMethods fingerprint allowed scores).mpr ⟨hm, hsince⟩
        rw [List.head?_eq_none_iff] at hhead
        rw [← List.mem_insertionSort fun a b => a.2 ≤ b.2, hhead] at hin
        cases hin

theorem nodup_unblockedMethods : (unblockedMethods fingerprint allowed scores cfg now).Nodup := by
  apply List.Nodup.filter
  apply MethodSet.nodup_iterAllowed

theorem pairwise_precedes_unblockedMethods
    : (unblockedMethods fingerprint allowed scores cfg now).Pairwise MethodId.Precedes := by
  apply List.Pairwise.filter
  apply pairwise_precedes_iterAllowed

theorem pairwise_sortedByScore
    : ((unblockedMethods fingerprint allowed scores cfg now).insertionSort fun a b =>
        OrderDual.toDual (score a) ≤ OrderDual.toDual (score b)).Pairwise
          fun a b => score b < score a ∨ (score a = score b ∧ a.Precedes b) := by
  have hsorted : ((unblockedMethods fingerprint allowed scores cfg now).insertionSort fun a b =>
      OrderDual.toDual (score a) ≤ OrderDual.toDual (score b)).Pairwise fun a b =>
        OrderDual.toDual (score a) < OrderDual.toDual (score b) ∨
          (OrderDual.toDual (score a) = OrderDual.toDual (score b) ∧ a.Precedes b) :=
    pairwise_insertionSort_stable
      (pairwise_precedes_unblockedMethods fingerprint allowed scores cfg now)
  simpa only [OrderDual.toDual_lt_toDual, OrderDual.toDual_inj] using hsorted

theorem mem_unblockedMethods {method : MethodId}
    : method ∈ unblockedMethods fingerprint allowed scores cfg now
        ↔
      allowed.contains method = true ∧
        scores.isPermanentlyBlocked fingerprint method cfg.blockTtl now = false := by
  rw [unblockedMethods, List.mem_filter, MethodSet.mem_iterAllowed, Bool.not_eq_true']

theorem selectCandidatesBy_spec
    : (selectCandidatesBy score fingerprint allowed scores cfg now).Nodup ∧
      (∀ m ∈ selectCandidatesBy score fingerprint allowed scores cfg now,
        allowed.contains m = true) ∧
      (allowed.iterAllowed ≠ [] →
        selectCandidatesBy score fingerprint allowed scores cfg now ≠ []) ∧
      (selectCandidatesBy score fingerprint allowed scores cfg now).length
        ≤ max 1 cfg.topKProbes := by
  rw [selectCandidatesBy_eq]
  split
  . next hfallback =>
    refine ⟨?_, ?_, ?_, ?_⟩
    . cases fallbackMethod fingerprint allowed scores <;> simp
    . intro m hm
      rw [Option.mem_toList] at hm
      exact (fallbackMethod_eq_some fingerprint allowed scores hm).1
    . intro hallowed
      rcases fallbackMethod_isSome fingerprint allowed scores hallowed with ⟨m, hm⟩
      rw [hm]
      simp
    . have := Option.length_toList_le (o := fallbackMethod fingerprint allowed scores)
      omega
  . next hbest =>
    refine ⟨?_, ?_, ?_, ?_⟩
    . apply nodup_smallest
      apply nodup_unblockedMethods
    . intro m hm
      have := mem_of_mem_smallest hm
      rw [mem_unblockedMethods] at this
      exact this.1
    . intro _ hnil
      have hlen := congrArg List.length hnil
      rw [length_smallest, List.length_nil] at hlen
      rw [← List.length_eq_zero_iff] at hbest
      omega
    . rw [length_smallest]
      omega

theorem selectProbeCandidates_spec
    : (selectProbeCandidates fingerprint allowed scores cfg now).Nodup ∧
      (∀ m ∈ selectProbeCandidates fingerprint allowed scores cfg now, allowed.contains m = true) ∧
      (allowed.iterAllowed ≠ [] →
        selectProbeCandidates fingerprint allowed scores cfg now ≠ []) := by
  unfold selectProbeCandidates
  rcases selectCandidatesBy_spec (fun m => computeScore scores fingerprint m now) fingerprint
    allowed scores cfg now with ⟨hnodup, hallowed, hne, _⟩
  exact ⟨hnodup, hallowed, hne⟩

/--
The methods to probe. With scores in any total order: never none unless none is allowed, no method
twice, allowed ones only, at most `topKProbes` but at least one. They are the best unblocked
methods, by score and then in the order of all methods; if there are none to take, it is the one
that has been blocked for the longest time, and without any such time the first allowed one.
-/
theorem candidate_selection
    : (selectCandidatesBy score fingerprint allowed scores cfg now = [] →
        ∀ m, allowed.contains m = false) ∧
      (selectCandidatesBy score fingerprint allowed scores cfg now).Nodup ∧
      (∀ m ∈ selectCandidatesBy score fingerprint allowed scores cfg now,
        allowed.contains m = true) ∧
      (selectCandidatesBy score fingerprint allowed scores cfg now).length ≤ max 1 cfg.topKProbes ∧
      (1 ≤ cfg.topKProbes → unblockedMethods fingerprint allowed scores cfg now ≠ [] →
        (∃ sorted : List MethodId,
          sorted.Perm (unblockedMethods fingerprint allowed scores cfg now) ∧
          sorted.Pairwise (fun a b => score b < score a ∨ (score a = score b ∧ a.Precedes b)) ∧
          selectCandidatesBy score fingerprint allowed scores cfg now
            =
          sorted.take (min cfg.topKProbes
            (unblockedMethods fingerprint allowed scores cfg now).length)) ∧
        (∀ m ∈ selectCandidatesBy score fingerprint allowed scores cfg now,
          scores.isPermanentlyBlocked fingerprint m cfg.blockTtl now = false) ∧
        (∀ m ∈ unblockedMethods fingerprint allowed scores cfg now,
          m ∉ selectCandidatesBy score fingerprint allowed scores cfg now →
          ∀ m' ∈ selectCandidatesBy score fingerprint allowed scores cfg now,
            score m ≤ score m')) ∧
      (cfg.topKProbes = 0 ∨ unblockedMethods fingerprint allowed scores cfg now = [] →
        (∃ m, allowed.contains m = true) →
        ∃ method, selectCandidatesBy score fingerprint allowed scores cfg now = [method] ∧
          ((∃ t, blockedSince fingerprint scores method = some t ∧
              ∀ m t', allowed.contains m = true → blockedSince fingerprint scores m = some t' →
                m = method ∨ t < t' ∨ (t = t' ∧ method.Precedes m)) ∨
            ((∀ m, allowed.contains m = true → blockedSince fingerprint scores m = none) ∧
              allowed.iterAllowed.head? = some method))) ∧
      selectProbeCandidates fingerprint allowed scores cfg now
          =
        selectCandidatesBy (fun method => computeScore scores fingerprint method now) fingerprint
          allowed scores cfg now := by
  rcases selectCandidatesBy_spec score fingerprint allowed scores cfg now
    with ⟨hnodup, hallowed, hne, hlen⟩
  refine ⟨?_, hnodup, hallowed, hlen, ?_, ?_, rfl⟩
  . intro hnil m
    cases hm : allowed.contains m with
    | false => rfl
    | true =>
      rw [← MethodSet.mem_iterAllowed] at hm
      exact absurd hnil (hne (List.ne_nil_of_mem hm))
  . intro htop hunblocked
    rw [selectCandidatesBy_eq, if_neg (by simp only [hunblocked, or_false]; omega)]
    refine ⟨⟨_, List.perm_insertionSort _ _, ?_, rfl⟩, ?_, ?_⟩
    . apply pairwise_sortedByScore
    . intro m hm
      have := mem_of_mem_smallest hm
      rw [mem_unblockedMethods] at this
      exact this.2
    . intro m hm hnot m' hm'
      have hrank := rank_le_of_mem_smallest hm' hm hnot
      exact OrderDual.toDual_le_toDual.mp hrank
  . intro hfallback hsome
    rcases hsome with ⟨m, hm⟩
    rw [← MethodSet.mem_iterAllowed] at hm
    rcases fallbackMethod_isSome fingerprint allowed scores (List.ne_nil_of_mem hm)
      with ⟨method, hmethod⟩
    rw [selectCandidatesBy_eq, if_pos hfallback, hmethod]
    exact ⟨method, rfl, (fallbackMethod_eq_some fingerprint allowed scores hmethod).2⟩

end Select

end Veil
