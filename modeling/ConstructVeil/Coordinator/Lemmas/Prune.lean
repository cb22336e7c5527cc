import ConstructVeil.Coordinator.Lemmas.Store

/-!
This module contains the pruning of the store: which networks it can delete, given that the age of a
network is read from any one of its rows.
-/

namespace Veil

namespace ScoreTable

def networks (table : ScoreTable) : Finset Bytes := (fingerprints table).toFinset

def lastActivity (table : ScoreTable) (fingerprint : Bytes) : Nat :=
  ((group table fingerprint).map ScoreRow.activity).max?.getD 0

/--
The activity of the row of a network that has not been written for the longest time.
-/
def firstActivity (table : ScoreTable) (fingerprint : Bytes) : Nat :=
  ((group table fingerprint).map ScoreRow.activity).min?.getD 0

def activities (table : ScoreTable) (fingerprint : Bytes) : Set Nat :=
  { a | a ∈ (group table fingerprint).map ScoreRow.activity }

variable {table : ScoreTable} {fingerprint : Bytes}

theorem mem_networks
    : fingerprint ∈ networks table ↔ ∃ row ∈ table.rows, row.fingerprint = fingerprint := by
  rw [networks, List.mem_toFinset, fingerprints, List.mem_dedup, List.mem_map]

theorem mem_fingerprints : fingerprint ∈ fingerprints table ↔ fingerprint ∈ networks table := by
  rw [networks, List.mem_toFinset]

theorem nodup_fingerprints : (fingerprints table).Nodup := List.nodup_dedup _

theorem length_fingerprints : (fingerprints table).length = (networks table).card := by
  rw [networks, List.toFinset_card_of_nodup nodup_fingerprints]

theorem mem_group {row : ScoreRow}
    : row ∈ group table fingerprint ↔ row ∈ table.rows ∧ row.fingerprint = fingerprint := by
  rw [group, List.mem_filter, decide_eq_true_eq]

theorem group_ne_nil (h : fingerprint ∈ networks table) : group table fingerprint ≠ [] := by
  rw [mem_networks] at h
  rcases h with ⟨row, hrow, hfp⟩
  exact List.ne_nil_of_mem (mem_group.mpr ⟨hrow, hfp⟩)

theorem mem_activities {a : Nat}
    : a ∈ activities table fingerprint ↔ ∃ row ∈ group table fingerprint, row.activity = a :=
  List.mem_map

theorem isLeast_firstActivity (h : fingerprint ∈ networks table)
    : IsLeast (activities table fingerprint) (firstActivity table fingerprint) := by
  cases hmin : ((group table fingerprint).map ScoreRow.activity).min? with
  | none =>
    rw [List.min?_eq_none_iff, List.map_eq_nil_iff] at hmin
    exact absurd hmin (group_ne_nil h)
  | some a =>
    rw [firstActivity, hmin]
    rw [List.min?_eq_some_iff] at hmin
    exact hmin

theorem isGreatest_lastActivity (h : fingerprint ∈ networks table)
    : IsGreatest (activities table fingerprint) (lastActivity table fingerprint) := by
  cases hmax : ((group table fingerprint).map ScoreRow.activity).max? with
  | none =>
    rw [List.max?_eq_none_iff, List.map_eq_nil_iff] at hmax
    exact absurd hmax (group_ne_nil h)
  | some a =>
    rw [lastActivity, hmax]
    rw [List.max?_eq_some_iff] at hmax
    exact hmax

end ScoreTable

namespace Sqlite

open ScoreTable

variable {table : ScoreTable}

theorem groupKey_mem (db : Sqlite) {fingerprint : Bytes} (h : fingerprint ∈ networks table)
    : db.groupKey table fingerprint ∈ activities table fingerprint := by
  have hpos : 0 < (group table fingerprint).length := List.length_pos_iff.mpr (group_ne_nil h)
  have hlt := Nat.mod_lt (db.bareRow fingerprint) hpos
  rw [groupKey, List.getElem?_eq_getElem hlt, mem_activities]
  exact ⟨_, List.getElem_mem hlt, rfl⟩

/--
Whatever SQLite does, the networks that come first are a selection of the smallest by the activity
of one of their rows.
-/
theorem selection_oldest (db : Sqlite) {limit : Nat} (h : limit ≤ (networks table).card)
    : Selection (networks table) (activities table) limit (db.oldest table limit).toFinset where
  subset := by
    intro fingerprint hmem
    rw [List.mem_toFinset] at hmem
    exact mem_fingerprints.mp (mem_of_mem_smallest hmem)
  card := by
    rw [← length_fingerprints] at h
    exact card_smallest nodup_fingerprints h
  separated := by
    refine ⟨db.groupKey table, fun _ => db.groupKey_mem, ?_⟩
    intro d hd r hr hnot
    rw [List.mem_toFinset] at hd hnot
    have hle := rank_le_of_mem_smallest hd (mem_fingerprints.mpr hr) hnot
    exact Prod.Lex.monotone_fst _ _ hle

/--
Every such selection is what some behaviour of SQLite gives.
-/
theorem exists_oldest {limit : Nat} {D : Finset Bytes}
    (h : Selection (networks table) (activities table) limit D)
    : ∃ bareRow tieRank, ∀ db : Sqlite, db.bareRow = bareRow → db.tieRank = tieRank →
        (db.oldest table limit).toFinset = D := by
  rcases h.separated with ⟨κ, hκ, hsep⟩
  have hindex : ∀ f, ∃ i, f ∈ networks table →
      ((group table f)[i % (group table f).length]?).map ScoreRow.activity = some (κ f) := by
    intro f
    by_cases hf : f ∈ networks table
    . have hmem := hκ f hf
      rw [mem_activities] at hmem
      rcases hmem with ⟨row, hrow, hact⟩
      rw [List.mem_iff_getElem] at hrow
      rcases hrow with ⟨i, hi, hget⟩
      refine ⟨i, fun _ => ?_⟩
      rw [Nat.mod_eq_of_lt hi, List.getElem?_eq_getElem hi, hget, Option.map_some, hact]
    . exact ⟨0, fun hf' => absurd hf' hf⟩
  choose bareRow hbareRow using hindex
  refine ⟨bareRow, fun f => if f ∈ D then 0 else 1, ?_⟩
  intro db hbare htie
  have hkey : ∀ f ∈ networks table, db.groupKey table f = κ f := by
    intro f hf
    rw [groupKey, hbare, hbareRow f hf, Option.getD_some]
  apply smallest_eq_of_separated nodup_fingerprints _ h.card
  . intro d hd r hr hnot
    rw [mem_fingerprints] at hr
    rw [Prod.Lex.toLex_lt_toLex, hkey d (h.subset hd), hkey r hr, htie]
    have hle := hsep d hd r hr hnot
    dsimp only
    rw [if_pos hd, if_neg hnot]
    exact (Nat.lt_or_eq_of_le hle).imp_right fun heq => ⟨heq, Nat.one_pos⟩
  . intro d hd
    exact mem_fingerprints.mpr (h.subset hd)

end Sqlite

namespace PersistentScores

open ScoreTable

variable {scores : PersistentScores} {table : ScoreTable} {db : Sqlite}

theorem prune_of_no_error (hcount : db.countError = none) (hdelete : db.deleteError = none)
    : (scores.prune db table).1 = .ok () ∧
      ∀ row, row ∈ (scores.prune db table).2.rows
          ↔
        row ∈ table.rows ∧
        row.fingerprint ∉
          (db.oldest table ((networks table).card - scores.maxFingerprints)).toFinset := by
  unfold prune
  rw [hcount, hdelete, length_fingerprints]
  dsimp only
  split
  . next hle =>
    rw [Nat.sub_eq_zero_of_le hle]
    simp [Sqlite.oldest, smallest]
  . simp [Table.deleteWhere]

theorem networks_prune (hcount : db.countError = none) (hdelete : db.deleteError = none)
    : networks (scores.prune db table).2
        =
      networks table \
        (db.oldest table ((networks table).card - scores.maxFingerprints)).toFinset := by
  have hrows : ∀ row, row ∈ (scores.prune db table).2.rows ↔ _ :=
    (prune_of_no_error hcount hdelete).2
  ext fingerprint
  rw [Finset.mem_sdiff, mem_networks, mem_networks]
  constructor
  . intro h
    rcases h with ⟨row, hrow, hfp⟩
    rw [hrows, hfp] at hrow
    exact ⟨⟨row, hrow.1, hfp⟩, hrow.2⟩
  . intro h
    rcases h with ⟨⟨row, hrow, hfp⟩, hnot⟩
    refine ⟨row, ?_, hfp⟩
    rw [hrows, hfp]
    exact ⟨hrow, hnot⟩

end PersistentScores

/--
What pruning is for: at most `maxFingerprints` networks are left, with all their rows, no more are
removed than necessary, and none that was used later than one that is left.
-/
structure EvictsOldest (maxFingerprints : Nat) (table table' : ScoreTable) : Prop where
  atMost : (ScoreTable.networks table').card ≤ maxFingerprints
  whole : ∀ row, row ∈ table'.rows ↔ row ∈ table.rows ∧ row.fingerprint ∈ ScoreTable.networks table'
  removed : (ScoreTable.networks table \ ScoreTable.networks table').card
    = (ScoreTable.networks table).card - maxFingerprints
  oldest : ∀ d ∈ ScoreTable.networks table, d ∉ ScoreTable.networks table' →
    ∀ r ∈ ScoreTable.networks table',
      ScoreTable.lastActivity table d ≤ ScoreTable.lastActivity table r

section Prune

open ScoreTable

variable {scores : PersistentScores} {table : ScoreTable} {db : Sqlite}

theorem evictsOldest_iff (hcount : db.countError = none) (hdelete : db.deleteError = none)
    : EvictsOldest scores.maxFingerprints table (scores.prune db table).2
        ↔
      ∀ d ∈ (db.oldest table ((networks table).card - scores.maxFingerprints)).toFinset,
        ∀ r ∈ networks table,
          r ∉ (db.oldest table ((networks table).card - scores.maxFingerprints)).toFinset →
          lastActivity table d ≤ lastActivity table r := by
  have hsel := db.selection_oldest (Nat.sub_le (networks table).card scores.maxFingerprints)
  have hnetworks : networks (scores.prune db table).2 = _ :=
    PersistentScores.networks_prune hcount hdelete
  have hrows : ∀ row, row ∈ (scores.prune db table).2.rows ↔ _ :=
    (PersistentScores.prune_of_no_error hcount hdelete).2
  generalize (db.oldest table ((networks table).card - scores.maxFingerprints)).toFinset = D
    at hsel hnetworks hrows
  constructor
  . intro h d hd r hr hnot
    apply h.oldest d (hsel.subset hd) _ r
    . rw [hnetworks, Finset.mem_sdiff]
      exact ⟨hr, hnot⟩
    . rw [hnetworks, Finset.mem_sdiff]
      exact fun hmem => hmem.2 hd
  . intro h
    constructor
    . rw [hnetworks, Finset.card_sdiff_of_subset hsel.subset, hsel.card]
      omega
    . intro row
      rw [hrows, hnetworks, Finset.mem_sdiff]
      constructor
      . intro hrow
        exact ⟨hrow.1, mem_networks.mpr ⟨row, hrow.1, rfl⟩, hrow.2⟩
      . intro hrow
        exact ⟨hrow.1, hrow.2.2⟩
    . rw [hnetworks, Finset.sdiff_sdiff_eq_self hsel.subset, hsel.card]
    . intro d hd hnot r hr
      rw [hnetworks, Finset.mem_sdiff] at hnot hr
      have hdD : d ∈ D := by
        by_contra hdD
        exact hnot ⟨hd, hdD⟩
      exact h d hdD r hr.1 hr.2

/--
Pruning evicts the least recently used networks, whatever SQLite does, exactly if for every network
`r` with fewer less recently used ones than are to be deleted: no more networks than are to be
deleted have a row that is as old as the last use of `r`, or all networks with such a row were last
used no later than `r`.
-/
theorem prune_evicts_oldest_iff (scores : PersistentScores) (table : ScoreTable)
    : (∀ db : Sqlite, db.countError = none → db.deleteError = none →
        (scores.prune db table).1 = .ok () ∧
        EvictsOldest scores.maxFingerprints table (scores.prune db table).2)
        ↔
      ∀ r ∈ networks table,
        ((networks table).filter fun f => lastActivity table f < lastActivity table r).card
          < (networks table).card - scores.maxFingerprints →
        ((networks table).filter fun f => firstActivity table f ≤ lastActivity table r).card
          ≤ (networks table).card - scores.maxFingerprints ∨
        ∀ d ∈ networks table, firstActivity table d ≤ lastActivity table r →
          lastActivity table d ≤ lastActivity table r := by
  rw [← forall_selection_hi_le_iff (fun _ => isLeast_firstActivity)
    (fun _ => isGreatest_lastActivity)]
  constructor
  . intro h D hD
    rcases Sqlite.exists_oldest hD with ⟨bareRow, tieRank, hdb⟩
    have hevicts := (h ⟨none, none, none, none, bareRow, tieRank⟩ rfl rfl).2
    rw [evictsOldest_iff rfl rfl, hdb _ rfl rfl] at hevicts
    exact hevicts
  . intro h db hcount hdelete
    refine ⟨(PersistentScores.prune_of_no_error hcount hdelete).1, ?_⟩
    rw [evictsOldest_iff hcount hdelete]
    exact h _ (db.selection_oldest (Nat.sub_le _ _))

/--
Network 1 is used last at 10800 s with its second method, network 2 at 7200 s, and network 1 goes.
-/
theorem prune_evicts_recent
    : let success (fingerprint : NetworkFingerprint) (method : MethodId) (secs : Nat)
          : RecordCall :=
        ⟨fingerprint, method, .success 80, fromSecs secs, .plain⟩
      ∃ table, (scoreStore (.byFirstByte 3)).run .empty
          [success [1] .obfs4 3600, success [2] .veilFront 7200, success [1] .veilFront 10800,
           success [3] .veilFront 14400] = some table ∧
        ¬EvictsOldest 2 table ((PersistentScores.byFirstByte 2).prune .plain table).2 := by
  intro success
  refine ⟨_, rfl, ?_⟩
  intro h
  have hle := h.oldest (List.replicate 32 1) (by decide +kernel) (by decide +kernel)
    (List.replicate 32 2) (by decide +kernel)
  revert hle
  decide +kernel

end Prune

end Veil
