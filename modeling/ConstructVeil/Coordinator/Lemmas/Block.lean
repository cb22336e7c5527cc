import Mathlib.Data.List.DropRight
import ConstructVeil.Coordinator.Lemmas.Store

/-!
This module contains the block of a method as a function of the outcomes that were recorded for it.
-/

namespace Veil

namespace ScoreHistory

def isFailure : ScoreOutcome × SystemTime → Bool
  | (.failure _, _) => true
  | (.success _, _) => false

def sinceSuccess (history : ScoreHistory) : ScoreHistory := history.rtakeWhile isFailure

def lastBlock (history : ScoreHistory) : Option SystemTime :=
  (history.filter fun event => event.1 = .failure .fingerprintBlocked).getLast?.map Prod.snd

@[simp]
theorem sinceSuccess_success (history : ScoreHistory) (latencyMs : UInt32) (clock : SystemTime)
    : sinceSuccess (history ++ [(.success latencyMs, clock)]) = [] := by
  rw [sinceSuccess, List.rtakeWhile_concat_neg _ _ _ (by simp [isFailure])]

@[simp]
theorem sinceSuccess_failure (history : ScoreHistory) (reason : ProbeFailureReason)
    (clock : SystemTime)
    : sinceSuccess (history ++ [(.failure reason, clock)])
        =
      sinceSuccess history ++ [(.failure reason, clock)] := by
  rw [sinceSuccess, List.rtakeWhile_concat_pos _ _ _ (by simp [isFailure]), sinceSuccess]

/--
Induction along a history, with one case for each kind of outcome.
-/
theorem outcome_induction {motive : ScoreHistory → Prop} (nil : motive [])
    (success : ∀ history latencyMs clock, motive history →
      motive (history ++ [(.success latencyMs, clock)]))
    (failure : ∀ history reason clock, motive history →
      motive (history ++ [(.failure reason, clock)]))
    (history : ScoreHistory) : motive history := by
  induction history using List.reverseRecOn with
  | nil => exact nil
  | append_singleton history event ih =>
    rcases event with ⟨outcome, clock⟩
    cases outcome with
    | success latencyMs => exact success history latencyMs clock ih
    | failure reason => exact failure history reason clock ih

theorem consecutiveFailures_row (key : Bytes × Nat) (history : ScoreHistory)
    : (history.row key).consecutiveFailures = history.sinceSuccess.length := by
  induction history using outcome_induction with
  | nil => rfl
  | success history latencyMs clock ih =>
    rw [row_concat, sinceSuccess_success]
    rfl
  | failure history reason clock ih =>
    rw [row_concat, sinceSuccess_failure, List.length_append, ← ih]
    rfl

theorem blockedAt_row (key : Bytes × Nat) (history : ScoreHistory)
    : (history.row key).blockedAt = history.sinceSuccess.lastBlock.map coarseNow := by
  induction history using outcome_induction with
  | nil => rfl
  | success history latencyMs clock ih =>
    rw [row_concat, sinceSuccess_success]
    rfl
  | failure history reason clock ih =>
    rw [row_concat, sinceSuccess_failure]
    by_cases hreason : reason = .fingerprintBlocked
    . simp [ScoreRow.applied, lastBlock, hreason]
    . simp [ScoreRow.applied, lastBlock, hreason, ih]

end ScoreHistory

namespace CachedScoreLookup

def entries (rows : List (MethodId × ScoreEntry)) : MethodId → Option ScoreEntry :=
  rows.foldl (fun entries row => fun m => if m = row.1 then some row.2 else entries m) fun _ => none

theorem entries_eq_some_iff {rows : List (MethodId × ScoreEntry)} {method : MethodId}
    (huniq : ∀ e e', (method, e) ∈ rows → (method, e') ∈ rows → e = e') (entry : ScoreEntry)
    : entries rows method = some entry ↔ (method, entry) ∈ rows := by
  induction rows using List.reverseRecOn with
  | nil => simp [entries]
  | append_singleton rows row ih =>
    have hstep : entries (rows ++ [row]) method
        = if method = row.1 then some row.2 else entries rows method := by
      simp [entries]
    rw [hstep]
    split
    . next heq =>
      have hlast : (method, row.2) ∈ rows ++ [row] := by simp [heq]
      constructor
      . intro h
        injection h with h
        rwa [← h]
      . intro h
        rw [huniq entry row.2 h hlast]
    . next hne =>
      rw [ih]
      . simp only [List.mem_append, List.mem_singleton]
        constructor
        . exact .inl
        . intro h
          cases h with
          | inl h => exact h
          | inr h =>
            rw [← h] at hne
            exact absurd rfl hne
      . intro e e' he he'
        exact huniq e e' (List.mem_append_left _ he) (List.mem_append_left _ he')

theorem five_le_clamped (n : Nat) : 5 ≤ UInt8.ofNat (min n 255) ↔ 5 ≤ n := by
  have hfive : (5 : UInt8).toNat = 5 := rfl
  rw [UInt8.le_iff_toNat_le, hfive, UInt8.toNat_ofNat_of_lt' (by simp [UInt8.size])]
  omega

theorem blockedFor_iff {entries : MethodId → Option ScoreEntry} {method : MethodId} {row : ScoreRow}
    (hentry : entries method = some row.toEntry) (blockTtl : Nat) (now : SystemTime)
    : blockedFor entries method blockTtl now = true
        ↔
      5 ≤ row.consecutiveFailures ∧
      ∃ b, row.blockedAt = some b ∧ epochToSystem b ≤ now ∧ now - epochToSystem b ≤ blockTtl := by
  unfold blockedFor
  rw [hentry]
  simp only [ScoreRow.toEntry]
  cases hblocked : row.blockedAt with
  | none => simp
  | some b =>
    simp only [Option.map_some, SystemTime.durationSince, Option.some.injEq, exists_eq_left']
    by_cases hle : epochToSystem b ≤ now
    . simp only [hle, ↓reduceIte, true_and]
      by_cases hold : (now - epochToSystem b).toNat > blockTtl
      . have hnot : ¬(now - epochToSystem b ≤ blockTtl) := by
          rwa [← Int.toNat_le, Nat.not_le]
        simp [hold, hnot]
      . have hyes : now - epochToSystem b ≤ blockTtl := by
          rwa [← Int.toNat_le, ← Nat.not_lt]
        simp [hold, hyes, five_le_clamped]
    . simp [hle]

end CachedScoreLookup

namespace PersistentScores

variable {scores : PersistentScores} {table : ScoreTable} {fingerprint : NetworkFingerprint}
  {method : MethodId} {db : Sqlite}

theorem methodOfId_discriminant (method : MethodId)
    : methodOfId method.discriminant.toNat = some method := by
  cases method <;> rfl

theorem entries_cached
    (hmethods : ∀ row ∈ table.rows, ∃ method : MethodId, row.method = method.discriminant.toNat)
    (hread : db.readError = none)
    : ∃ rows, scores.getAllForFingerprint db table fingerprint = .ok rows ∧
        CachedScoreLookup.entries rows method
          = (table.find? (scores.rowKey fingerprint method)).map ScoreRow.toEntry := by
  have hrows : scores.getAllForFingerprint db table fingerprint
      = .ok ((ScoreTable.group table (scores.hashFp fingerprint)).filterMap fun row =>
          (methodOfId row.method).map fun method => (method, row.toEntry)) := by
    rw [getAllForFingerprint, query, hread]
  refine ⟨_, hrows, ?_⟩
  have hmem : ∀ entry,
      (method, entry) ∈ (ScoreTable.group table (scores.hashFp fingerprint)).filterMap
      (fun row => (methodOfId row.method).map fun method => (method, row.toEntry)) ↔
      (table.find? (scores.rowKey fingerprint method)).map ScoreRow.toEntry = some entry := by
    intro entry
    simp only [List.mem_filterMap, Option.map_eq_some_iff, Prod.mk.injEq, ScoreTable.group,
      List.mem_filter, decide_eq_true_eq]
    constructor
    . intro h
      rcases h with ⟨row, ⟨hrow, hfp⟩, method', hmethod, heq, hentry⟩
      rcases hmethods row hrow with ⟨method'', hid⟩
      rw [hid, methodOfId_discriminant] at hmethod
      injection hmethod with hmethod
      rw [hmethod, heq] at hid
      refine ⟨row, ?_, hentry⟩
      rw [Table.find?_eq_some_iff]
      exact ⟨hrow, by rw [ScoreRow.key, hfp, hid, rowKey]⟩
    . intro h
      rcases h with ⟨row, hfind, hentry⟩
      rw [Table.find?_eq_some_iff] at hfind
      have hfp : row.fingerprint = scores.hashFp fingerprint := congrArg Prod.fst hfind.2
      have hid : row.method = method.discriminant.toNat := congrArg Prod.snd hfind.2
      refine ⟨row, ⟨hfind.1, hfp⟩, method, ?_, rfl, hentry⟩
      rw [hid]
      exact methodOfId_discriminant method
  apply Option.ext
  intro entry
  rw [CachedScoreLookup.entries_eq_some_iff, hmem]
  intro e e' he he'
  rw [hmem] at he he'
  rw [he] at he'
  injection he'

theorem isPermanentlyBlockedAsync_eq {entries : MethodId → Option ScoreEntry}
    (hread : db.readError = none)
    (hentry : entries method
      = (table.find? (scores.rowKey fingerprint method)).map ScoreRow.toEntry)
    (blockTtl : Nat) (now : SystemTime)
    : scores.isPermanentlyBlockedAsync db table fingerprint method blockTtl now
        =
      .ok (CachedScoreLookup.blockedFor entries method blockTtl now) := by
  unfold isPermanentlyBlockedAsync CachedScoreLookup.blockedFor query
  rw [hread, hentry]
  cases table.find? (scores.rowKey fingerprint method) with
  | none => rfl
  | some row =>
    rcases row with ⟨_, _, _, _, _, _, _, blockedAt, consecutiveFailures⟩
    cases blockedAt with
    | none => rfl
    | some b =>
      change _ = Except.ok (if _ then _ else _)
      rw [apply_ite Except.ok]
      rfl

theorem cached_after_calls {table' : ScoreTable} {calls : List RecordCall}
    (hreach : (scoreStore scores).Reachable table)
    (habsent : table.find? (scores.rowKey fingerprint method) = none)
    (hrun : (scoreStore scores).run table calls = some table')
    (hkept : scores.Kept (scores.rowKey fingerprint method) table calls)
    (hread : db.readError = none)
    : ∃ rows, scores.getAllForFingerprint db table' fingerprint = .ok rows ∧
        table'.find? (scores.rowKey fingerprint method)
          = (scores.recorded (scores.rowKey fingerprint method) calls).row?
              (scores.rowKey fingerprint method) ∧
        CachedScoreLookup.entries rows method
          = (table'.find? (scores.rowKey fingerprint method)).map ScoreRow.toEntry := by
  have hreach' : (scoreStore scores).Reachable table' := by
    rcases hreach with ⟨before, hbefore⟩
    exact ⟨before ++ calls, (Machine.run_append_eq_some_iff _).mpr ⟨table, hbefore, hrun⟩⟩
  rcases entries_cached (method_of_reachable hreach') hread with ⟨rows, hrows, hentry⟩
  have hrow : table'.find? (scores.rowKey fingerprint method) = ScoreHistory.row? _ ([] ++ _) :=
    find?_run hrun hkept habsent
  exact ⟨rows, hrows, hrow, hentry⟩

end PersistentScores

/--
From a store without a row for a network and a method, after any calls that do not prune the row:
both checks of a block give the same answer, and the method is blocked exactly if, after the last
success that was recorded for it, there are five failures or more and the hour of the last block
among them is over for no longer than `blockTtl`.
-/
theorem block_verdict (scores : PersistentScores) (fingerprint : NetworkFingerprint)
    (method : MethodId)
    (table table' : ScoreTable) (calls : List RecordCall) (db : Sqlite) (blockTtl : Nat)
    (now : SystemTime) (hreach : (scoreStore scores).Reachable table)
    (habsent : table.find? (scores.rowKey fingerprint method) = none)
    (hrun : (scoreStore scores).run table calls = some table')
    (hkept : scores.Kept (scores.rowKey fingerprint method) table calls)
    (hread : db.readError = none)
    : ∃ verdict lookup,
        scores.isPermanentlyBlockedAsync db table' fingerprint method blockTtl now = .ok verdict ∧
        CachedScoreLookup.ofStore scores db table' fingerprint = .ok lookup ∧
        lookup.isPermanentlyBlocked fingerprint method blockTtl now = verdict ∧
        (verdict = true
            ↔
          let failures := (scores.recorded (scores.rowKey fingerprint method) calls).sinceSuccess
          5 ≤ failures.length ∧
          ∃ clock, failures.lastBlock = some clock ∧
            epochToSystem (coarseNow clock) ≤ now ∧
            now - epochToSystem (coarseNow clock) ≤ blockTtl) := by
  rcases PersistentScores.cached_after_calls hreach habsent hrun hkept hread
    with ⟨rows, hrows, hrow, hentry⟩
  have hverdict := PersistentScores.isPermanentlyBlockedAsync_eq hread hentry blockTtl now
  refine ⟨_, CachedScoreLookup.build rows, hverdict, ?_, rfl, ?_⟩
  . rw [CachedScoreLookup.ofStore, hrows]
    rfl
  . generalize scores.recorded (scores.rowKey fingerprint method) calls = history at hrow
    rw [hrow, ScoreHistory.row?] at hentry
    dsimp only
    split at hentry
    . next hempty =>
      rw [List.isEmpty_iff] at hempty
      rw [CachedScoreLookup.blockedFor, hentry, hempty]
      simp [ScoreHistory.sinceSuccess]
    . rw [CachedScoreLookup.blockedFor_iff hentry, ScoreHistory.consecutiveFailures_row,
        ScoreHistory.blockedAt_row]
      simp [Option.map_eq_some_iff]

/--
A success, then four timeouts and a block within the next hour.
-/
theorem block_verdict_fifth_failure
    : let failure (reason : ProbeFailureReason) : RecordCall :=
        ⟨[1], .veilFront, .failure reason, fromSecs 4000, .plain⟩
      ∃ table, (scoreStore (.byFirstByte 50)).run .empty
          [⟨[1], .veilFront, .success 80, fromSecs 3700, .plain⟩, failure .timeout,
           failure .timeout,
           failure .fingerprintBlocked, failure .timeout, failure .timeout] = some table ∧
        (PersistentScores.byFirstByte 50).isPermanentlyBlockedAsync .plain table [1] .veilFront
          (fromSecs 86400) (fromSecs 50000) = .ok true := by
  intro failure
  let calls : List RecordCall :=
    [⟨[1], .veilFront, .success 80, fromSecs 3700, .plain⟩, failure .timeout, failure .timeout,
     failure .fingerprintBlocked, failure .timeout, failure .timeout]
  have hrun : ∃ table, (scoreStore (.byFirstByte 50)).run .empty calls = some table := ⟨_, rfl⟩
  rcases hrun with ⟨table, hrun⟩
  have hkept : (PersistentScores.byFirstByte 50).Kept
      ((PersistentScores.byFirstByte 50).rowKey [1] .veilFront) .empty calls := by
    decide +kernel
  rcases block_verdict (.byFirstByte 50) [1] .veilFront .empty table calls .plain (fromSecs 86400)
    (fromSecs 50000) ⟨[], rfl⟩ rfl hrun hkept rfl with ⟨verdict, _, hverdict, _, _, hiff⟩
  have hblocked : verdict = true := hiff.mpr
    ⟨by decide +kernel, fromSecs 4000, by decide +kernel, by decide, by decide⟩
  rw [hblocked] at hverdict
  exact ⟨table, hrun, hverdict⟩

end Veil
