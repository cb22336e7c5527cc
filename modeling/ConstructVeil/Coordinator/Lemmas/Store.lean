import ConstructVeil.Util.Machine
import ConstructVeil.Coordinator.Impl.Store

/-!
This module contains what a recorded outcome does to the store, and the row of a network and a
method as a function of the outcomes that were recorded for it.
-/

namespace Veil

namespace ScoreRow

def empty (key : Bytes × Nat) : ScoreRow := ⟨key.1, key.2, 0, 0, none, none, 0, none, 0⟩

def applied (row : ScoreRow) (clock : SystemTime) : ScoreOutcome → ScoreRow
  | .success latencyMs =>
    { row with
      successes := row.successes + 1
      lastSuccessAt := some (coarseNow clock)
      medianLatencyMs := ewmaLatency row.medianLatencyMs latencyMs
      blockedAt := none
      consecutiveFailures := 0 }
  | .failure reason =>
    { row with
      failures := row.failures + 1
      lastFailureAt := some (coarseNow clock)
      blockedAt := if reason = .fingerprintBlocked then some (coarseNow clock) else row.blockedAt
      consecutiveFailures := row.consecutiveFailures + 1 }

end ScoreRow

/--
All statements succeed, and the groups are read in the order of the index: equal keys by the first
byte of the fingerprint, and a bare column from the first row, if the rows of a group were inserted
in the order of their methods.
-/
def Sqlite.plain : Sqlite :=
  ⟨none, none, none, none, fun _ => 0, fun fingerprint => (fingerprint.headD 0).toNat⟩

/--
A store that tells networks apart by the first byte of their fingerprint.
-/
def PersistentScores.byFirstByte (maxFingerprints : Nat) : PersistentScores :=
  ⟨maxFingerprints, none, fun _ _ => .fill 32 0, fun msg => .fill 32 (msg.headD 0)⟩

/--
One call of `record`, with the time it reads and with what SQLite does in it.
-/
structure RecordCall where
  fingerprint : NetworkFingerprint
  method : MethodId
  outcome : ScoreOutcome
  clock : SystemTime
  db : Sqlite

namespace RecordCall

def key (call : RecordCall) (scores : PersistentScores) : Bytes × Nat :=
  scores.rowKey call.fingerprint call.method

def written (call : RecordCall) : Bool :=
  match call.outcome with
  | .success _ => call.db.readError.isNone && call.db.writeError.isNone
  | .failure _ => call.db.writeError.isNone

end RecordCall

namespace PersistentScores

variable (scores : PersistentScores)

def call (table : ScoreTable) (call : RecordCall) : Except ScoringError Unit × ScoreTable :=
  scores.record call.db call.clock table call.fingerprint call.method call.outcome

def afterWrite (table : ScoreTable) (call : RecordCall) : ScoreTable :=
  (scores.write call.db call.clock table call.fingerprint call.method call.outcome).toOption.getD
    table

structure Applies (call : RecordCall) (table table' : ScoreTable) : Prop where
  row : table'.find? (call.key scores)
    = some (((table.find? (call.key scores)).getD (.empty (call.key scores))).applied call.clock
        call.outcome)
  others : ∀ row : ScoreRow, row.key ≠ call.key scores → (row ∈ table'.rows ↔ row ∈ table.rows)

variable {scores} {table : ScoreTable} {call : RecordCall}

theorem Applies.upsert {excluded : ScoreRow} {update : ScoreRow → ScoreRow}
    {hkeep : ∀ row, (update row).key = row.key} (hkey : excluded.key = call.key scores)
    (hinsert : table.find? (call.key scores) = none →
      excluded = (ScoreRow.empty (call.key scores)).applied call.clock call.outcome)
    (hupdate : ∀ row, table.find? (call.key scores) = some row →
      update row = row.applied call.clock call.outcome)
    : scores.Applies call table (table.upsert excluded update hkeep) where
  row := by
    rw [← hkey, Table.find?_upsert_self, hkey]
    cases hfind : table.find? (call.key scores) with
    | none =>
      rw [Option.map_none, Option.getD_none, Option.getD_none]
      exact congrArg some (hinsert hfind)
    | some row =>
      rw [Option.map_some, Option.getD_some, Option.getD_some]
      exact congrArg some (hupdate row hfind)
  others := by
    intro row hne
    rw [← hkey] at hne
    exact Table.mem_upsert_of_ne hne

theorem write_of_written (h : call.written = true)
    : ∃ table', scores.write call.db call.clock table call.fingerprint call.method call.outcome
        = .ok table' ∧ scores.Applies call table table' := by
  rcases call with ⟨fingerprint, method, outcome, clock, db⟩
  cases outcome with
  | success latencyMs =>
    simp only [RecordCall.written, Bool.and_eq_true, Option.isNone_iff_eq_none] at h
    simp only [write, h.1, h.2]
    refine ⟨_, rfl, Applies.upsert rfl ?_ ?_⟩
    . intro hfind
      simp only [RecordCall.key, rowKey] at hfind
      rw [hfind]
      rfl
    . intro row hfind
      simp only [RecordCall.key, rowKey] at hfind
      rw [hfind]
      rfl
  | failure reason =>
    simp only [RecordCall.written, Option.isNone_iff_eq_none] at h
    simp only [write, h, beq_iff_eq]
    split
    . next hblocked =>
      refine ⟨_, rfl, Applies.upsert rfl ?_ ?_⟩
      . intro _
        simp [ScoreRow.applied, ScoreRow.empty, RecordCall.key, rowKey, hblocked]
      . intro row _
        simp [ScoreRow.applied, hblocked]
    . next hblocked =>
      refine ⟨_, rfl, Applies.upsert rfl ?_ ?_⟩
      . intro _
        simp [ScoreRow.applied, ScoreRow.empty, RecordCall.key, rowKey, hblocked]
      . intro row _
        simp [ScoreRow.applied, hblocked]

theorem write_of_not_written (h : call.written = false)
    : ∃ e, scores.write call.db call.clock table call.fingerprint call.method call.outcome
        = .error e := by
  rcases call with ⟨fingerprint, method, outcome, clock, db⟩
  cases outcome with
  | success latencyMs =>
    simp only [RecordCall.written] at h
    simp only [write]
    cases hread : db.readError with
    | some e => exact ⟨_, rfl⟩
    | none =>
      cases hwrite : db.writeError with
      | some e => exact ⟨_, rfl⟩
      | none => simp [hread, hwrite] at h
  | failure reason =>
    simp only [RecordCall.written] at h
    simp only [write]
    cases hwrite : db.writeError with
    | some e => split <;> exact ⟨_, rfl⟩
    | none => simp [hwrite] at h

theorem afterWrite_of_written (h : call.written = true)
    : scores.Applies call table (scores.afterWrite table call) := by
  rcases write_of_written h with ⟨table', hwrite, happlies⟩
  unfold afterWrite
  rw [hwrite]
  exact happlies

theorem call_of_written (h : call.written = true)
    : scores.call table call = scores.prune call.db (scores.afterWrite table call) := by
  rcases write_of_written h with ⟨table', hwrite, _⟩
  unfold PersistentScores.call record afterWrite
  rw [hwrite]
  rfl

theorem call_of_not_written (h : call.written = false)
    : ∃ e, scores.call table call = (.error e, table) := by
  rcases write_of_not_written h with ⟨e, hwrite⟩
  unfold PersistentScores.call record
  rw [hwrite]
  exact ⟨e, rfl⟩

theorem prune_eq (scores : PersistentScores) (db : Sqlite) (table : ScoreTable)
    : (scores.prune db table).2 = table ∨
      (scores.prune db table).2 = table.deleteWhere fun row =>
        row.fingerprint ∈ db.oldest table
          ((ScoreTable.fingerprints table).length - scores.maxFingerprints) := by
  unfold prune
  cases db.countError with
  | some e => exact .inl rfl
  | none =>
    dsimp only
    split
    . exact .inl rfl
    . cases db.deleteError with
      | some e => exact .inl rfl
      | none => exact .inr rfl

theorem find?_prune (scores : PersistentScores) (db : Sqlite) (table : ScoreTable)
    (key : Bytes × Nat)
    : (scores.prune db table).2.find? key = table.find? key ∨
      (scores.prune db table).2.find? key = none := by
  rcases prune_eq scores db table with h | h
  . rw [h]
    exact .inl rfl
  . rw [h, Table.find?_deleteWhere]
    cases table.find? key with
    | none => exact .inl rfl
    | some row =>
      simp only [Option.filter_some]
      split
      . exact .inl rfl
      . exact .inr rfl

theorem mem_of_mem_prune {db : Sqlite} {row : ScoreRow} (h : row ∈ (scores.prune db table).2.rows)
    : row ∈ table.rows := by
  rcases prune_eq scores db table with heq | heq
  . rwa [heq] at h
  . rw [heq] at h
    exact List.mem_of_mem_filter h

end PersistentScores

def scoreStore (scores : PersistentScores) : Machine ScoreTable RecordCall where
  init := .empty
  step table call := some (scores.call table call).2

namespace PersistentScores

variable {scores : PersistentScores}

theorem method_of_reachable {table : ScoreTable} (h : (scoreStore scores).Reachable table)
    : ∀ row ∈ table.rows, ∃ method : MethodId, row.method = method.discriminant.toNat := by
  apply h.induction
  . intro row hrow
    cases hrow
  . intro call table table' ih hstep row hrow
    injection hstep with hstep
    rw [← hstep] at hrow
    cases hw : call.written with
    | false =>
      rcases call_of_not_written hw with ⟨e, hcall⟩
      rw [hcall] at hrow
      exact ih row hrow
    | true =>
      rw [call_of_written hw] at hrow
      have hrow := mem_of_mem_prune hrow
      by_cases hkey : row.key = call.key scores
      . exact ⟨call.method, congrArg Prod.snd hkey⟩
      . rw [(afterWrite_of_written hw).others row hkey] at hrow
        exact ih row hrow

end PersistentScores

abbrev ScoreHistory := List (ScoreOutcome × SystemTime)

namespace ScoreHistory

def row (key : Bytes × Nat) (history : ScoreHistory) : ScoreRow :=
  history.foldl (fun row event => row.applied event.2 event.1) (.empty key)

@[simp]
theorem row_concat (key : Bytes × Nat) (history : ScoreHistory) (event : ScoreOutcome × SystemTime)
    : row key (history ++ [event]) = (row key history).applied event.2 event.1 := by
  simp [row]

def row? (key : Bytes × Nat) (history : ScoreHistory) : Option ScoreRow :=
  if history.isEmpty then none else some (history.row key)

@[simp]
theorem row?_concat (key : Bytes × Nat) (history : ScoreHistory) (event : ScoreOutcome × SystemTime)
    : row? key (history ++ [event]) = some ((row key history).applied event.2 event.1) := by
  simp [row?]

theorem getD_row? (key : Bytes × Nat) (history : ScoreHistory)
    : (history.row? key).getD (.empty key) = history.row key := by
  cases history <;> rfl

end ScoreHistory

namespace PersistentScores

variable (scores : PersistentScores)

/--
The outcomes that a list of calls writes into the row `key`.
-/
def recorded (key : Bytes × Nat) (calls : List RecordCall) : ScoreHistory :=
  (calls.filter fun call => call.written && call.key scores = key).map fun call =>
    (call.outcome, call.clock)

/--
No call prunes the row `key`.
-/
def Kept (key : Bytes × Nat) : ScoreTable → List RecordCall → Prop
  | _, [] => True
  | table, call :: calls =>
    (((scores.afterWrite table call).find? key).isSome = true →
      ((scores.call table call).2.find? key).isSome = true) ∧
    Kept key (scores.call table call).2 calls

instance decidableKept (key : Bytes × Nat)
    : (table : ScoreTable) → (calls : List RecordCall) → Decidable (scores.Kept key table calls)
  | _, [] => .isTrue trivial
  | table, call :: calls =>
    have := decidableKept key (scores.call table call).2 calls
    inferInstanceAs (Decidable ((_ → _) ∧ _))

variable {scores}

theorem find?_call {key : Bytes × Nat} {table : ScoreTable} {call : RecordCall}
    {history : ScoreHistory} (hkept : ((scores.afterWrite table call).find? key).isSome = true →
      ((scores.call table call).2.find? key).isSome = true)
    (hrow : table.find? key = history.row? key)
    : (scores.call table call).2.find? key = (history ++ scores.recorded key [call]).row? key := by
  cases hw : call.written with
  | false =>
    have hnone : scores.recorded key [call] = [] := by simp [recorded, hw]
    rcases call_of_not_written hw with ⟨e, hcall⟩
    rw [hcall, hnone, List.append_nil, hrow]
  | true =>
    have happlies : scores.Applies call table (scores.afterWrite table call) :=
      afterWrite_of_written hw
    rw [call_of_written hw] at hkept ⊢
    have hsame : (scores.prune call.db (scores.afterWrite table call)).2.find? key
        = (scores.afterWrite table call).find? key := by
      rcases find?_prune scores call.db (scores.afterWrite table call) key with hsame | hnone
      . exact hsame
      . rw [hnone] at hkept ⊢
        cases hfind : (scores.afterWrite table call).find? key with
        | none => rfl
        | some row => simp [hfind] at hkept
    rw [hsame]
    by_cases hkey : call.key scores = key
    . have hone : scores.recorded key [call] = [(call.outcome, call.clock)] := by
        simp [recorded, hw, hkey]
      have hwritten := happlies.row
      rw [hkey, hrow, ScoreHistory.getD_row?] at hwritten
      rw [hone, hwritten, ScoreHistory.row?_concat]
    . have hnone : scores.recorded key [call] = [] := by simp [recorded, hkey]
      have hothers : (scores.afterWrite table call).find? key = table.find? key := by
        apply Table.ext_find?
        intro row hrow
        apply happlies.others
        rw [hrow]
        exact Ne.symm hkey
      rw [hnone, List.append_nil, hothers, hrow]

theorem find?_run {key : Bytes × Nat} {table table' : ScoreTable} {calls : List RecordCall}
    {history : ScoreHistory} (hrun : (scoreStore scores).run table calls = some table')
    (hkept : scores.Kept key table calls) (hrow : table.find? key = history.row? key)
    : table'.find? key = (history ++ scores.recorded key calls).row? key := by
  induction calls generalizing table history with
  | nil =>
    injection hrun with hrun
    rw [← hrun, hrow]
    simp [recorded]
  | cons call calls ih =>
    have happend : scores.recorded key (call :: calls)
        = scores.recorded key [call] ++ scores.recorded key calls := by
      rw [recorded, recorded, recorded, ← List.map_append, ← List.filter_append,
        List.singleton_append]
    rw [happend, ← List.append_assoc]
    exact ih hrun hkept.2 (find?_call hkept.1 hrow)

end PersistentScores

end Veil
