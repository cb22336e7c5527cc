import ConstructVeil.Coordinator.Lemmas.Prune

/-!
This module contains what is left of a recorded outcome after the pruning that follows it.
-/

namespace Veil

open ScoreTable

variable {scores : PersistentScores} {table : ScoreTable} {call : RecordCall}

/--
If `record` returns `Ok`, the row holds the outcome, and the other rows of the networks that are
left are as they were.
-/
def PersistentScores.Survives (scores : PersistentScores) (table : ScoreTable) (call : RecordCall)
    : Prop :=
  (scores.call table call).1 = .ok () →
    (scores.call table call).2.find? (call.key scores)
      = some (((table.find? (call.key scores)).getD (.empty (call.key scores))).applied call.clock
          call.outcome) ∧
    ∀ row, row.key ≠ call.key scores → row.fingerprint ∈ networks (scores.call table call).2 →
      (row ∈ (scores.call table call).2.rows ↔ row ∈ table.rows)

section Applies

variable {table' : ScoreTable} (happlies : scores.Applies call table table')

include happlies

theorem networks_of_applies
    : networks table' = insert (scores.hashFp call.fingerprint) (networks table) := by
  ext fingerprint
  rw [Finset.mem_insert, mem_networks, mem_networks]
  have hwritten := Table.find?_eq_some_iff.mp happlies.row
  constructor
  . intro h
    rcases h with ⟨row, hrow, hfp⟩
    by_cases hkey : row.key = call.key scores
    . rw [← hfp]
      exact .inl (congrArg Prod.fst hkey)
    . exact .inr ⟨row, (happlies.others row hkey).mp hrow, hfp⟩
  . intro h
    rcases h with h | ⟨row, hrow, hfp⟩
    . rw [h]
      exact ⟨_, hwritten.1, congrArg Prod.fst hwritten.2⟩
    . by_cases hkey : row.key = call.key scores
      . rw [← hfp]
        exact ⟨_, hwritten.1, congrArg Prod.fst (hwritten.2.trans hkey.symm)⟩
      . exact ⟨row, (happlies.others row hkey).mpr hrow, hfp⟩

theorem lastActivity_of_applies {fingerprint : Bytes} (hmem : fingerprint ∈ networks table)
    (hne : fingerprint ≠ scores.hashFp call.fingerprint)
    : lastActivity table' fingerprint = lastActivity table fingerprint := by
  have hmem' : fingerprint ∈ networks table' := by
    rw [networks_of_applies happlies]
    exact Finset.mem_insert_of_mem hmem
  have hsame : activities table' fingerprint = activities table fingerprint := by
    ext a
    simp only [mem_activities, mem_group]
    apply exists_congr
    intro row
    have hrow : row.fingerprint = fingerprint → (row ∈ table'.rows ↔ row ∈ table.rows) := by
      intro hfp
      apply happlies.others
      intro hkey
      exact hne (hfp.symm.trans (congrArg Prod.fst hkey))
    constructor
    . intro h
      exact ⟨⟨(hrow h.1.2).mp h.1.1, h.1.2⟩, h.2⟩
    . intro h
      exact ⟨⟨(hrow h.1.2).mpr h.1.1, h.1.2⟩, h.2⟩
  have hgreatest := isGreatest_lastActivity hmem'
  rw [hsame] at hgreatest
  exact hgreatest.unique (isGreatest_lastActivity hmem)

theorem lt_firstActivity_of_applies_iff (a : Nat)
    : a < firstActivity table' (scores.hashFp call.fingerprint)
        ↔
      a < (((table.find? (call.key scores)).getD (.empty (call.key scores))).applied call.clock
        call.outcome).activity ∧
      ∀ row ∈ table.rows, row.fingerprint = scores.hashFp call.fingerprint →
        row.key ≠ call.key scores → a < row.activity := by
  have hmem' : scores.hashFp call.fingerprint ∈ networks table' := by
    rw [networks_of_applies happlies]
    exact Finset.mem_insert_self _ _
  have hleast := isLeast_firstActivity hmem'
  have hwritten := Table.find?_eq_some_iff.mp happlies.row
  constructor
  . intro h
    constructor
    . apply Nat.lt_of_lt_of_le h
      apply hleast.2
      rw [mem_activities]
      exact ⟨_, mem_group.mpr ⟨hwritten.1, congrArg Prod.fst hwritten.2⟩, rfl⟩
    . intro row hrow hfp hkey
      apply Nat.lt_of_lt_of_le h
      apply hleast.2
      rw [mem_activities]
      exact ⟨row, mem_group.mpr ⟨(happlies.others row hkey).mpr hrow, hfp⟩, rfl⟩
  . intro h
    have hfirst := hleast.1
    rw [mem_activities] at hfirst
    rcases hfirst with ⟨row, hrow, hact⟩
    rw [mem_group] at hrow
    rw [← hact]
    by_cases hkey : row.key = call.key scores
    . have hsame := Table.find?_eq_some_iff.mpr ⟨hrow.1, hkey⟩
      rw [happlies.row] at hsame
      injection hsame with hsame
      rw [← hsame]
      exact h.1
    . exact h.2 row ((happlies.others row hkey).mp hrow.1) hrow.2 hkey

theorem kept_of_applies {deleted : List Bytes} (hnot : scores.hashFp call.fingerprint ∉ deleted)
    : (table'.deleteWhere fun row => row.fingerprint ∈ deleted).find? (call.key scores)
        = some (((table.find? (call.key scores)).getD (.empty (call.key scores))).applied call.clock
            call.outcome) ∧
      ∀ row, row.key ≠ call.key scores →
        row.fingerprint ∈ networks (table'.deleteWhere fun row => row.fingerprint ∈ deleted) →
        (row ∈ (table'.deleteWhere fun row => row.fingerprint ∈ deleted).rows
          ↔ row ∈ table.rows) := by
  constructor
  . have hwritten := Table.find?_eq_some_iff.mp happlies.row
    have hfp : ScoreRow.fingerprint _ = scores.hashFp call.fingerprint :=
      congrArg Prod.fst hwritten.2
    rw [Table.find?_deleteWhere, happlies.row, Option.filter_some, if_pos]
    rw [Bool.not_eq_true', decide_eq_false_iff_not, hfp]
    exact hnot
  . intro row hkey hkept
    rw [mem_networks] at hkept
    rcases hkept with ⟨row', hrow', hfp⟩
    simp only [Table.deleteWhere, List.mem_filter, Bool.not_eq_true', decide_eq_false_iff_not]
      at hrow' ⊢
    rw [hfp] at hrow'
    rw [happlies.others row hkey, and_iff_left hrow'.2]

end Applies

/--
The networks whose last use is older than every row that the network of `call` has with the outcome
of `call` applied.
-/
def olderNetworks (scores : PersistentScores) (table : ScoreTable) (call : RecordCall)
    : Finset Bytes :=
  (networks table).filter fun g =>
    g ≠ scores.hashFp call.fingerprint ∧
    lastActivity table g
      < (((table.find? (call.key scores)).getD (.empty (call.key scores))).applied call.clock
          call.outcome).activity ∧
    ∀ row ∈ table.rows, row.fingerprint = scores.hashFp call.fingerprint →
      row.key ≠ call.key scores → lastActivity table g < row.activity

def RecordCall.withDb (call : RecordCall) (db : Sqlite) : RecordCall := { call with db := db }

theorem written_plain (bareRow tieRank : Bytes → Nat)
    : (call.withDb ⟨none, none, none, none, bareRow, tieRank⟩).written = true := by
  cases h : call.outcome <;> simp [RecordCall.withDb, RecordCall.written, h]

theorem afterWrite_withDb {db : Sqlite} (h : (call.withDb db).written = true)
    : scores.afterWrite table (call.withDb db) = scores.afterWrite table (call.withDb .plain) := by
  rcases call with ⟨fingerprint, method, outcome, clock, _⟩
  unfold PersistentScores.afterWrite PersistentScores.write
  cases outcome with
  | success latencyMs =>
    simp only [RecordCall.withDb, RecordCall.written, Bool.and_eq_true,
      Option.isNone_iff_eq_none] at h
    simp only [RecordCall.withDb, h.1, h.2, Sqlite.plain]
  | failure reason =>
    simp only [RecordCall.withDb, RecordCall.written, Option.isNone_iff_eq_none] at h
    simp only [RecordCall.withDb, h, Sqlite.plain]

theorem applies_plain
    : scores.Applies call table (scores.afterWrite table (call.withDb .plain)) := by
  have h : scores.Applies (call.withDb .plain) table
    (scores.afterWrite table (call.withDb .plain)) :=
    PersistentScores.afterWrite_of_written (written_plain _ _)
  exact ⟨h.row, h.others⟩

theorem olderNetworks_eq {table' : ScoreTable} (happlies : scores.Applies call table table')
    : (networks table').filter (fun g =>
          g ≠ scores.hashFp call.fingerprint ∧
          lastActivity table' g < firstActivity table' (scores.hashFp call.fingerprint))
        =
      olderNetworks scores table call := by
  ext g
  rw [olderNetworks, Finset.mem_filter, Finset.mem_filter, networks_of_applies happlies,
    Finset.mem_insert]
  constructor
  . intro h
    have hmem := h.1.resolve_left h.2.1
    rw [lastActivity_of_applies happlies hmem h.2.1, lt_firstActivity_of_applies_iff happlies] at h
    exact ⟨hmem, h.2⟩
  . intro h
    rw [lastActivity_of_applies happlies h.1 h.2.1, lt_firstActivity_of_applies_iff happlies]
    exact ⟨.inr h.1, h.2⟩

theorem survives_iff (scores : PersistentScores) (table : ScoreTable) (call : RecordCall)
    : (∀ db, scores.Survives table (call.withDb db))
        ↔
      (insert (scores.hashFp call.fingerprint) (networks table)).card - scores.maxFingerprints
        ≤ (olderNetworks scores table call).card := by
  have happlies : scores.Applies call table (scores.afterWrite table (call.withDb .plain)) :=
    applies_plain
  have hafter : ∀ db, (call.withDb db).written = true →
      scores.call table (call.withDb db)
        = scores.prune db (scores.afterWrite table (call.withDb .plain)) := by
    intro db hwritten
    rw [PersistentScores.call_of_written hwritten, afterWrite_withDb hwritten]
    rfl
  generalize scores.afterWrite table (call.withDb .plain) = table' at happlies hafter
  have hmem : scores.hashFp call.fingerprint ∈ networks table' := by
    rw [networks_of_applies happlies]
    exact Finset.mem_insert_self _ _
  rw [← olderNetworks_eq happlies, ← networks_of_applies happlies,
    ← forall_selection_not_mem_iff (fun _ => isLeast_firstActivity)
      (fun _ => isGreatest_lastActivity) hmem (Nat.sub_le _ _)]
  constructor
  . intro h D hD
    rcases Sqlite.exists_oldest hD with ⟨bareRow, tieRank, hdb⟩
    let db : Sqlite := ⟨none, none, none, none, bareRow, tieRank⟩
    have hsurvives := h db
    unfold PersistentScores.Survives at hsurvives
    rw [hafter db (written_plain _ _)] at hsurvives
    have hprune : (scores.prune db table').1 = .ok () ∧ _ :=
      PersistentScores.prune_of_no_error rfl rfl
    have hfind := (hsurvives hprune.1).1
    generalize ScoreRow.applied _ _ _ = row at hfind
    rw [Table.find?_eq_some_iff, hprune.2, hdb db rfl rfl] at hfind
    have hfp : row.fingerprint = scores.hashFp call.fingerprint := congrArg Prod.fst hfind.2
    rw [← hfp]
    exact hfind.1.2
  . intro h db hok
    cases hw : (call.withDb db).written with
    | false =>
      rcases PersistentScores.call_of_not_written hw with ⟨e, hcall⟩
      rw [hcall] at hok
      cases hok
    | true =>
      rw [hafter db hw]
      rcases PersistentScores.prune_eq scores db table' with hprune | hprune
      . rw [hprune]
        exact ⟨happlies.row, fun row hkey _ => happlies.others row hkey⟩
      . rw [hprune, length_fingerprints]
        have hnot := h _ (db.selection_oldest (Nat.sub_le _ scores.maxFingerprints))
        rw [List.mem_toFinset] at hnot
        exact kept_of_applies happlies hnot

/--
After any sequence of calls, a further outcome is in the store when its call returns `Ok`, whatever
SQLite does, exactly if there are at least as many networks that are older than all rows of its
network as the pruning deletes.
-/
theorem record_survives_iff (scores : PersistentScores) (calls : List RecordCall)
    (call : RecordCall)
    : ∃ table, (scoreStore scores).run .empty calls = some table ∧
        ((∀ db, scores.Survives table (call.withDb db))
            ↔
          (insert (scores.hashFp call.fingerprint) (networks table)).card - scores.maxFingerprints
            ≤ (olderNetworks scores table call).card) := by
  have hrun : ∀ table : ScoreTable, ∃ table', (scoreStore scores).run table calls
      = some table' := by
    induction calls with
    | nil => exact fun table => ⟨table, rfl⟩
    | cons call calls ih => exact fun table => ih (scores.call table call).2
  rcases hrun .empty with ⟨table, hrun⟩
  exact ⟨table, hrun, survives_iff scores table call⟩

/--
With room for one network, the second network of an hour loses its first outcome: its fingerprint
comes first in the index.
-/
theorem record_lost_in_same_hour
    : let call (fingerprint : NetworkFingerprint) (secs : Nat) : RecordCall :=
        ⟨fingerprint, .veilFront, .success 80, fromSecs secs, .plain⟩
      ∃ table, (scoreStore (.byFirstByte 1)).run .empty [call [2] 3600] = some table ∧
        ((PersistentScores.byFirstByte 1).call table (call [1] 3700)).1 = .ok () ∧
        ¬(PersistentScores.byFirstByte 1).Survives table (call [1] 3700) := by
  intro call
  have hrun : ∃ table, (scoreStore (.byFirstByte 1)).run .empty [call [2] 3600] = some table ∧
      ((PersistentScores.byFirstByte 1).call table (call [1] 3700)).1 = .ok () ∧
      ((PersistentScores.byFirstByte 1).call table (call [1] 3700)).2.find?
        ((call [1] 3700).key (.byFirstByte 1)) = none :=
    ⟨_, rfl, by decide +kernel, by decide +kernel⟩
  rcases hrun with ⟨table, hrun, hok, hnone⟩
  refine ⟨table, hrun, hok, ?_⟩
  intro h
  have hrow := (h hok).1
  rw [hnone] at hrow
  cases hrow

end Veil
