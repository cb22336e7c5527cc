import Mathlib.Data.List.Sort
import Mathlib.Data.Finset.Card
import Mathlib.Data.Finset.Max
import Mathlib.Order.Bounds.Basic

/-!
This module contains the selection of the `k` smallest elements of a list, and what can be selected
when all that is known about the key of an element is a set that it lies in.
-/

section List

variable {α γ : Type} [LinearOrder γ]

def smallest (rank : α → γ) (k : Nat) (l : List α) : List α :=
  (l.insertionSort fun a b => rank a ≤ rank b).take k

variable {rank : α → γ} {k : Nat} {l : List α}

theorem mem_of_mem_smallest {a : α} (h : a ∈ smallest rank k l) : a ∈ l := by
  rw [← List.mem_insertionSort fun a b => rank a ≤ rank b]
  exact List.mem_of_mem_take h

theorem nodup_smallest (h : l.Nodup) : (smallest rank k l).Nodup := by
  apply (List.take_sublist _ _).nodup
  exact (List.perm_insertionSort _ l).nodup_iff.mpr h

theorem length_smallest : (smallest rank k l).length = min k l.length := by
  rw [smallest, List.length_take, List.length_insertionSort]

theorem rank_le_of_mem_smallest {d r : α} (hd : d ∈ smallest rank k l) (hr : r ∈ l)
    (hnot : r ∉ smallest rank k l) : rank d ≤ rank r := by
  have : Std.Total fun a b : α => rank a ≤ rank b := ⟨fun a b => le_total (rank a) (rank b)⟩
  have : IsTrans α fun a b => rank a ≤ rank b := ⟨fun _ _ _ => le_trans⟩
  have hsorted := List.pairwise_insertionSort (fun a b => rank a ≤ rank b) l
  rw [← List.mem_insertionSort fun a b => rank a ≤ rank b] at hr
  rw [← List.take_append_drop k (l.insertionSort _), List.mem_append] at hr
  rw [← List.take_append_drop k (l.insertionSort _), List.pairwise_append] at hsorted
  exact hsorted.2.2 d hd r (hr.resolve_left hnot)

theorem pairwise_orderedInsert_stable {before : α → α → Prop} {a : α} (ha : ∀ b ∈ l, before a b)
    (h : l.Pairwise fun a b => rank a < rank b ∨ (rank a = rank b ∧ before a b))
    : (l.orderedInsert (fun a b => rank a ≤ rank b) a).Pairwise
        fun a b => rank a < rank b ∨ (rank a = rank b ∧ before a b) := by
  induction l with
  | nil => simp
  | cons b l ih =>
    rw [List.orderedInsert]
    have hcons := List.pairwise_cons.mp h
    split
    . next hle =>
      -- `a` goes in front of everything that does not rank lower
      refine List.pairwise_cons.mpr ⟨?_, h⟩
      intro c hc
      have hbc : rank b ≤ rank c := by
        rcases List.mem_cons.mp hc with rfl | hc
        . exact le_refl _
        . rcases hcons.1 c hc with hlt | ⟨heq, _⟩
          . exact le_of_lt hlt
          . exact le_of_eq heq
      rcases lt_or_eq_of_le (le_trans hle hbc) with hlt | heq
      . exact Or.inl hlt
      . exact Or.inr ⟨heq, ha c hc⟩
    . next hlt =>
      refine List.pairwise_cons.mpr ⟨?_, ih (fun c hc => ha c (List.mem_cons_of_mem b hc)) hcons.2⟩
      intro c hc
      rw [List.mem_orderedInsert] at hc
      rcases hc with rfl | hc
      . exact Or.inl (not_le.mp hlt)
      . exact hcons.1 c hc

/--
Sorting is stable: elements of the same rank stay in the order of the list.
-/
theorem pairwise_insertionSort_stable {before : α → α → Prop} (h : l.Pairwise before)
    : (l.insertionSort fun a b => rank a ≤ rank b).Pairwise
        fun a b => rank a < rank b ∨ (rank a = rank b ∧ before a b) := by
  induction l with
  | nil => exact List.Pairwise.nil
  | cons a l ih =>
    have hcons := List.pairwise_cons.mp h
    rw [List.insertionSort_cons]
    apply pairwise_orderedInsert_stable
    . intro b hb
      rw [List.mem_insertionSort] at hb
      exact hcons.1 b hb
    . exact ih hcons.2

/--
The first element of the sorted list has the lowest rank, and is the first one that has it.
-/
theorem head_insertionSort_stable {before : α → α → Prop} (h : l.Pairwise before) {a : α}
    (hhead : (l.insertionSort fun a b => rank a ≤ rank b).head? = some a)
    : a ∈ l ∧ ∀ b ∈ l, b = a ∨ rank a < rank b ∨ (rank a = rank b ∧ before a b) := by
  have hsorted : (l.insertionSort fun a b => rank a ≤ rank b).Pairwise
      fun a b => rank a < rank b ∨ (rank a = rank b ∧ before a b) := pairwise_insertionSort_stable h
  have hmem : ∀ b, b ∈ l ↔ b ∈ l.insertionSort fun a b => rank a ≤ rank b := by
    intro b
    rw [List.mem_insertionSort]
  simp only [hmem]
  generalize l.insertionSort (fun a b => rank a ≤ rank b) = sorted at *
  cases sorted with
  | nil => cases hhead
  | cons c sorted =>
    injection hhead with hhead
    subst hhead
    refine ⟨List.mem_cons_self, ?_⟩
    intro b hb
    rcases List.mem_cons.mp hb with hb | hb
    . exact Or.inl hb
    . exact Or.inr ((List.pairwise_cons.mp hsorted).1 b hb)

variable [DecidableEq α]

theorem card_smallest (hnodup : l.Nodup) (hk : k ≤ l.length)
    : (smallest rank k l).toFinset.card = k := by
  rw [List.toFinset_card_of_nodup (nodup_smallest hnodup), length_smallest, Nat.min_eq_left hk]

/--
A set of `k` elements that the ranks put before all others is what is selected.
-/
theorem smallest_eq_of_separated {D : Finset α} (hnodup : l.Nodup) (hsub : ∀ d ∈ D, d ∈ l)
    (hcard : D.card = k) (hsep : ∀ d ∈ D, ∀ r ∈ l, r ∉ D → rank d < rank r)
    : (smallest rank k l).toFinset = D := by
  have hk : k ≤ l.length := by
    rw [← hcard, ← List.toFinset_card_of_nodup hnodup]
    apply Finset.card_le_card
    intro d hd
    exact List.mem_toFinset.mpr (hsub d hd)
  apply Finset.eq_of_subset_of_card_le
  . intro r hr
    rw [List.mem_toFinset] at hr
    -- otherwise some element of `D` is left out for `r`, although it ranks lower
    by_contra hrD
    have hleft : ∃ d ∈ D, d ∉ (smallest rank k l).toFinset := by
      by_contra hall
      push Not at hall
      have heq := Finset.eq_of_subset_of_card_le hall (by rw [card_smallest hnodup hk, hcard])
      rw [heq, List.mem_toFinset] at hrD
      exact hrD hr
    rcases hleft with ⟨d, hd, hdnot⟩
    rw [List.mem_toFinset] at hdnot
    have hle := rank_le_of_mem_smallest hr (hsub d hd) hdnot
    exact absurd (hsep d hd r (mem_of_mem_smallest hr) hrD) (not_lt.mpr hle)
  . rw [card_smallest hnodup hk, hcard]

end List

section Selection

variable {α β : Type} [LinearOrder β]

/--
`D` is a possible selection of the `k` smallest elements of `F`, for some keys in the sets `K`.
-/
structure Selection (F : Finset α) (K : α → Set β) (k : Nat) (D : Finset α) : Prop where
  subset : D ⊆ F
  card : D.card = k
  separated : ∃ κ : α → β, (∀ f ∈ F, κ f ∈ K f) ∧ ∀ d ∈ D, ∀ r ∈ F, r ∉ D → κ d ≤ κ r

variable {F D : Finset α} {K : α → Set β} {k : Nat} {lo hi : α → β}
  (hlo : ∀ f ∈ F, IsLeast (K f) (lo f)) (hhi : ∀ f ∈ F, IsGreatest (K f) (hi f))

include hlo hhi

theorem Selection.lo_le_hi (h : Selection F K k D) {d r : α} (hd : d ∈ D) (hr : r ∈ F)
    (hnot : r ∉ D)
    : lo d ≤ hi r := by
  rcases h.separated with ⟨κ, hκ, hsep⟩
  calc
    lo d ≤ κ d := (hlo d (h.subset hd)).2 (hκ d (h.subset hd))
    _ ≤ κ r := hsep d hd r hr hnot
    _ ≤ hi r := (hhi r hr).2 (hκ r hr)

variable [DecidableEq α]

theorem Selection.of_threshold (hsub : D ⊆ F) (hcard : D.card = k) (τ : β) (hin : ∀ d ∈ D, lo d ≤ τ)
    (hout : ∀ r ∈ F, r ∉ D → τ ≤ hi r) : Selection F K k D where
  subset := hsub
  card := hcard
  separated := by
    refine ⟨fun f => if f ∈ D then lo f else hi f, ?_, ?_⟩
    . intro f hf
      dsimp only
      split
      . exact (hlo f hf).1
      . exact (hhi f hf).1
    . intro d hd r hr hnot
      dsimp only
      rw [if_pos hd, if_neg hnot]
      exact le_trans (hin d hd) (hout r hr hnot)

omit [DecidableEq α] in
theorem lo_le_hi_self {f : α} (hf : f ∈ F) : lo f ≤ hi f := (hlo f hf).2 (hhi f hf).1

theorem exists_selection_without {d r : α} (hd : d ∈ F) (hr : r ∈ F) (hdlo : lo d ≤ hi r)
    (hdhi : hi r < hi d) (hbelow : (F.filter fun f => hi f < hi r).card < k)
    (hmany : k < (F.filter fun f => lo f ≤ hi r).card)
    : ∃ D, Selection F K k D ∧ d ∈ D ∧ r ∉ D := by
  -- all that are below `r`, and `d`, can be selected without `r`
  have hsub : insert d (F.filter fun f => hi f < hi r) ⊆ (F.filter fun f => lo f ≤ hi r).erase
      r := by
    intro f hf
    rw [Finset.mem_insert, Finset.mem_filter] at hf
    rw [Finset.mem_erase, Finset.mem_filter]
    rcases hf with hf | ⟨hf, hlt⟩
    . rw [hf]
      refine ⟨?_, hd, hdlo⟩
      intro heq
      rw [heq] at hdhi
      exact lt_irrefl _ hdhi
    . refine ⟨?_, hf, le_of_lt (lt_of_le_of_lt (lo_le_hi_self hlo hhi hf) hlt)⟩
      intro heq
      rw [heq] at hlt
      exact lt_irrefl _ hlt
  have hle : (insert d (F.filter fun f => hi f < hi r)).card ≤ k :=
    le_trans (Finset.card_insert_le _ _) hbelow
  have hge : k ≤ ((F.filter fun f => lo f ≤ hi r).erase r).card := by
    rw [Finset.card_erase_of_mem (Finset.mem_filter.mpr ⟨hr, lo_le_hi_self hlo hhi hr⟩)]
    omega
  rcases Finset.exists_subsuperset_card_eq hsub hle hge with ⟨D, hinD, hDin, hcard⟩
  refine ⟨D, ?_, hinD (Finset.mem_insert_self _ _), fun hrD => Finset.notMem_erase r _ (hDin hrD)⟩
  apply Selection.of_threshold hlo hhi _ hcard (hi r)
  . intro f hf
    exact (Finset.mem_filter.mp (Finset.mem_of_mem_erase (hDin hf))).2
  . intro f hf hfD
    by_contra hlt
    rw [not_le] at hlt
    exact hfD (hinD (Finset.mem_insert_of_mem (Finset.mem_filter.mpr ⟨hf, hlt⟩)))
  . intro f hf
    exact (Finset.mem_filter.mp (Finset.mem_of_mem_erase (hDin hf))).1

theorem Selection.exists_left (h : Selection F K k D) {d r : α} (hd : d ∈ D) (hr : r ∈ F)
    (hnot : r ∉ D) (hlt : hi r < hi d)
    : ∃ s ∈ F, lo d ≤ hi s ∧ hi s < hi d ∧ (F.filter fun f => hi f < hi s).card < k
        ∧ k < (F.filter fun f => lo f ≤ hi s).card := by
  have hne : (F \ D).Nonempty := ⟨r, Finset.mem_sdiff.mpr ⟨hr, hnot⟩⟩
  rcases Finset.exists_min_image (F \ D) hi hne with ⟨s, hs, hmin⟩
  rw [Finset.mem_sdiff] at hs
  have hsd : hi s < hi d := lt_of_le_of_lt (hmin r (Finset.mem_sdiff.mpr ⟨hr, hnot⟩)) hlt
  have hbelow : (F.filter fun f => hi f < hi s) ⊆ D.erase d := by
    intro f hf
    rw [Finset.mem_filter] at hf
    rw [Finset.mem_erase]
    constructor
    . intro heq
      rw [heq] at hf
      exact lt_asymm hf.2 hsd
    . by_contra hfD
      exact absurd (hmin f (Finset.mem_sdiff.mpr ⟨hf.1, hfD⟩)) (not_le.mpr hf.2)
  have habove : insert s D ⊆ F.filter fun f => lo f ≤ hi s := by
    intro f hf
    rw [Finset.mem_insert] at hf
    rw [Finset.mem_filter]
    rcases hf with hf | hf
    . rw [hf]
      exact ⟨hs.1, lo_le_hi_self hlo hhi hs.1⟩
    . exact ⟨h.subset hf, h.lo_le_hi hlo hhi hf hs.1 hs.2⟩
  have hfew := Finset.card_le_card hbelow
  rw [Finset.card_erase_of_mem hd, h.card] at hfew
  have hmany := Finset.card_le_card habove
  rw [Finset.card_insert_of_notMem hs.2, h.card] at hmany
  have hpos : 0 < D.card := Finset.card_pos.mpr ⟨d, hd⟩
  rw [h.card] at hpos
  refine ⟨s, hs.1, h.lo_le_hi hlo hhi hd hs.1 hs.2, hsd, ?_, ?_⟩ <;> omega

/--
Every selection takes elements with the smallest `hi`, exactly if no `r` can be left for an element
that is above it: below `r` there are at least `k`, or `r` is above the lower ends of at most `k`,
or nothing that can get before `r` is above it.
-/
theorem forall_selection_hi_le_iff
    : (∀ D, Selection F K k D → ∀ d ∈ D, ∀ r ∈ F, r ∉ D → hi d ≤ hi r)
        ↔
      ∀ r ∈ F, (F.filter fun f => hi f < hi r).card < k →
        (F.filter fun f => lo f ≤ hi r).card ≤ k ∨ ∀ d ∈ F, lo d ≤ hi r → hi d ≤ hi r := by
  constructor
  . intro hall r hr hbelow
    by_contra hnot
    push Not at hnot
    rcases hnot with ⟨hmany, d, hd, hdlo, hdhi⟩
    rcases exists_selection_without hlo hhi hd hr hdlo hdhi hbelow hmany with ⟨D, hD, hdD, hrD⟩
    exact absurd (hall D hD d hdD r hr hrD) (not_le.mpr hdhi)
  . intro hcond D hD d hd r hr hnot
    by_contra hlt
    rw [not_le] at hlt
    rcases hD.exists_left hlo hhi hd hr hnot hlt with ⟨s, hs, hdlo, hsd, hbelow, hmany⟩
    rcases hcond s hs hbelow with hcard | hge
    . omega
    . exact absurd (hge d (hD.subset hd) hdlo) (not_le.mpr hsd)

theorem exists_selection_with {x : α} (hx : x ∈ F) (hk : k ≤ F.card)
    (hfew : (F.filter fun f => f ≠ x ∧ hi f < lo x).card < k) : ∃ D, Selection F K k D ∧ x ∈ D := by
  let others := smallest hi (k - 1) (F.erase x).toList
  have hmem : ∀ f ∈ others, f ≠ x ∧ f ∈ F := by
    intro f hf
    have := mem_of_mem_smallest hf
    rwa [Finset.mem_toList, Finset.mem_erase] at this
  have hlen : k - 1 ≤ (F.erase x).toList.length := by
    rw [Finset.length_toList, Finset.card_erase_of_mem hx]
    omega
  have hxothers : x ∉ others.toFinset := by
    intro h
    exact (hmem x (List.mem_toFinset.mp h)).1 rfl
  have hcard : (insert x others.toFinset).card = k := by
    rw [Finset.card_insert_of_notMem hxothers, card_smallest (Finset.nodup_toList _) hlen]
    omega
  refine ⟨insert x others.toFinset, ?_, Finset.mem_insert_self _ _⟩
  refine ⟨?_, hcard, fun f => if f = x then lo x else hi f, ?_, ?_⟩
  . intro f hf
    rw [Finset.mem_insert, List.mem_toFinset] at hf
    rcases hf with hf | hf
    . rwa [hf]
    . exact (hmem f hf).2
  . intro f hf
    dsimp only
    split
    . next heq =>
      rw [heq]
      exact (hlo x hx).1
    . exact (hhi f hf).1
  . intro d hd r hr hnot
    rw [Finset.mem_insert, List.mem_toFinset, not_or] at hnot
    have hrest : r ∈ (F.erase x).toList := by
      rw [Finset.mem_toList, Finset.mem_erase]
      exact ⟨hnot.1, hr⟩
    dsimp only
    rw [if_neg hnot.1]
    by_cases hdx : d = x
    . rw [if_pos hdx]
      by_contra hlt
      rw [not_le] at hlt
      -- then `r` and all that are selected besides `x` are always before `x`
      have hbefore : insert r others.toFinset ⊆ F.filter fun f => f ≠ x ∧ hi f < lo x := by
        intro f hf
        rw [Finset.mem_insert, List.mem_toFinset] at hf
        rw [Finset.mem_filter]
        rcases hf with hf | hf
        . rw [hf]
          exact ⟨hr, hnot.1, hlt⟩
        . refine ⟨(hmem f hf).2, (hmem f hf).1, ?_⟩
          exact lt_of_le_of_lt (rank_le_of_mem_smallest hf hrest hnot.2) hlt
      have hcount := Finset.card_le_card hbefore
      rw [Finset.card_insert_of_notMem (by rw [List.mem_toFinset]; exact hnot.2),
        card_smallest (Finset.nodup_toList _) hlen] at hcount
      omega
    . rw [if_neg hdx]
      rw [Finset.mem_insert, List.mem_toFinset] at hd
      exact rank_le_of_mem_smallest (hd.resolve_left hdx) hrest hnot.2

theorem Selection.lt_of_mem (h : Selection F K k D) {x : α} (hx : x ∈ D)
    : (F.filter fun f => f ≠ x ∧ hi f < lo x).card < k := by
  have hsub : insert x (F.filter fun f => f ≠ x ∧ hi f < lo x) ⊆ D := by
    intro f hf
    rw [Finset.mem_insert, Finset.mem_filter] at hf
    rcases hf with hf | ⟨hf, _, hlt⟩
    . rwa [hf]
    . by_contra hfD
      exact absurd (h.lo_le_hi hlo hhi hx hf hfD) (not_le.mpr hlt)
  have hcount := Finset.card_le_card hsub
  rwa [Finset.card_insert_of_notMem (by simp), h.card] at hcount

theorem forall_selection_not_mem_iff {x : α} (hx : x ∈ F) (hk : k ≤ F.card)
    : (∀ D, Selection F K k D → x ∉ D)
        ↔
      k ≤ (F.filter fun f => f ≠ x ∧ hi f < lo x).card := by
  constructor
  . intro hall
    by_contra hfew
    rw [not_le] at hfew
    rcases exists_selection_with hlo hhi hx hk hfew with ⟨D, hD, hxD⟩
    exact hall D hD hxD
  . intro hmany D hD hxD
    have hfew := hD.lt_of_mem hlo hhi hxD
    omega

end Selection
