import Mathlib.Tactic.Linarith
import Mathlib.Tactic.Positivity
import Mathlib.Algebra.Order.Field.Basic
import ConstructVeil.Coordinator.Lemmas.Block

/-!
This module contains the windows of the score, which are counted from times that are rounded down to
the hour.
-/

namespace Veil

namespace ScoreEntry

def baseQuality (entry : ScoreEntry) : Rat :=
  (entry.successes.toNat : Rat) / (entry.successes.toNat + entry.failures.toNat) * 100

def latencyPenalty (entry : ScoreEntry) : Rat :=
  if entry.medianLatencyMs > 1000 then
    min (((entry.medianLatencyMs.toNat : Rat) - 1000) / 100) 20
  else
    0

def recencyBonus (entry : ScoreEntry) (now : SystemTime) : Rat :=
  match entry.lastSuccessAt.bind now.durationSince with
  | none => 0
  | some d => if d < fromSecs 3600 then 5 else 0

def HasData (entry : ScoreEntry) : Prop := ¬(entry.successes = 0 ∧ entry.failures = 0)

variable {entry : ScoreEntry}

theorem latencyPenalty_nonneg (entry : ScoreEntry) : 0 ≤ entry.latencyPenalty := by
  unfold latencyPenalty
  split
  . next h =>
    have hnat : 1000 < entry.medianLatencyMs.toNat := UInt32.lt_iff_toNat_lt.mp h
    have hrat : (1000 : Rat) < entry.medianLatencyMs.toNat := by exact_mod_cast hnat
    apply le_min
    . apply div_nonneg
      . linarith
      . norm_num
    . norm_num
  . exact le_refl 0

theorem recencyBonus_le (entry : ScoreEntry) (now : SystemTime) : entry.recencyBonus now ≤ 5 := by
  unfold recencyBonus
  split
  . norm_num
  . split <;> norm_num

theorem recencyBonus_eq_five_iff {b : SystemTime} (h : entry.lastSuccessAt = some b)
    (now : SystemTime)
    : entry.recencyBonus now = 5 ↔ b ≤ now ∧ now - b < fromSecs 3600 := by
  unfold recencyBonus SystemTime.durationSince
  rw [h, Option.bind_some]
  by_cases hle : b ≤ now
  . simp only [hle, ↓reduceIte, true_and]
    have hlt := Int.toNat_lt (n := fromSecs 3600) (Int.sub_nonneg.mpr hle)
    split
    . next h => simp [hlt.mp h]
    . next h => simp [← hlt, h]
  . simp [hle]

end ScoreEntry

section Penalty

variable {entry : ScoreEntry} {now b : SystemTime}

theorem computeRecentFailurePenalty_nonneg (entry : ScoreEntry) (now : SystemTime)
    : 0 ≤ computeRecentFailurePenalty entry now := by
  unfold computeRecentFailurePenalty
  split
  . exact le_refl 0
  . split
    . exact le_refl 0
    . split
      . exact le_refl 0
      . split <;> positivity

theorem decay_lt_one {elapsed : Nat} (h : fromSecs 300 < elapsed)
    : max (1 - ((elapsed : Rat) / (fromSecs 1 : Rat) - 300) / (3600 - 300)) 0 < 1 := by
  have hsecs : (300 : Rat) < (elapsed : Rat) / (fromSecs 1 : Rat) := by
    rw [lt_div_iff₀ (by norm_num [fromSecs])]
    have hrat : ((fromSecs 300 : Nat) : Rat) < elapsed := by exact_mod_cast h
    norm_num [fromSecs] at hrat ⊢
    exact hrat
  apply max_lt
  . linarith
  . norm_num

theorem computeRecentFailurePenalty_eq_full_iff (h : entry.lastFailureAt = some b)
    : computeRecentFailurePenalty entry now = 20 * entry.consecutiveFailures.toNat
        ↔
      entry.consecutiveFailures = 0 ∨ (b ≤ now ∧ now - b ≤ fromSecs 300) := by
  have hzero : (20 : Rat) * entry.consecutiveFailures.toNat = 0 ↔ entry.consecutiveFailures
      = 0 := by
    rw [mul_eq_zero, ← UInt8.toNat_inj]
    norm_num
  unfold computeRecentFailurePenalty SystemTime.durationSince
  rw [h]
  dsimp only
  by_cases hle : b ≤ now
  . have hfive := Int.toNat_le (m := now - b) (n := fromSecs 300)
    simp only [hle, ↓reduceIte, true_and]
    split
    . next hold =>
      have hnot : ¬(now - b ≤ fromSecs 300) := by
        rw [← hfive, Nat.not_le]
        exact Nat.lt_trans (by decide) hold
      rw [or_iff_left hnot, eq_comm, hzero]
    . split
      . next hrecent => simp [← hfive, hrecent, mul_comm]
      . next hdecays =>
        have hnot : ¬(now - b ≤ fromSecs 300) := by rwa [← hfive]
        have hlt := decay_lt_one (Nat.not_le.mp hdecays)
        rw [or_iff_left hnot, ← hzero, mul_comm (20 : Rat)]
        constructor
        . intro heq
          cases mul_right_eq_self₀.mp heq with
          | inl hone =>
            rw [hone] at hlt
            exact absurd hlt (lt_irrefl 1)
          | inr hnone => exact hnone
        . intro heq
          rw [heq, zero_mul]
  . simp only [hle, ↓reduceIte, false_and, or_false]
    rw [eq_comm, hzero]

end Penalty

section Score

variable {lookup : ScoreLookup} {fingerprint : NetworkFingerprint} {method : MethodId}
  {entry : ScoreEntry} {now : SystemTime}

theorem computeScore_of_hasData (hget : lookup.get fingerprint method = some entry)
    (hdata : entry.HasData)
    : computeScore lookup fingerprint method now
        =
      entry.baseQuality - computeRecentFailurePenalty entry now - entry.latencyPenalty
        + entry.recencyBonus now := by
  have htotal : (entry.successes.toNat : Rat) + entry.failures.toNat ≠ 0 := by
    intro hzero
    apply hdata
    have hnat : entry.successes.toNat + entry.failures.toNat = 0 := by exact_mod_cast hzero
    rw [← UInt32.toNat_inj, ← UInt32.toNat_inj]
    exact Nat.add_eq_zero_iff.mp hnat
  unfold computeScore
  rw [hget]
  simp only [htotal, ↓reduceIte]
  rfl

theorem computeScore_of_not_hasData (hget : lookup.get fingerprint method = some entry)
    (hdata : ¬entry.HasData) : computeScore lookup fingerprint method now = 50 := by
  rw [ScoreEntry.HasData, not_not] at hdata
  unfold computeScore
  rw [hget]
  simp [hdata.1, hdata.2]

theorem baseQuality_of_not_hasData (hdata : ¬entry.HasData) : entry.baseQuality = 0 := by
  rw [ScoreEntry.HasData, not_not] at hdata
  simp [ScoreEntry.baseQuality, hdata.1]

theorem computeScore_eq_iff (hget : lookup.get fingerprint method = some entry)
    {penalty bonus : Rat} (hpenalty : 0 ≤ penalty) (hbonus : bonus ≤ 5)
    : computeScore lookup fingerprint method now
          = entry.baseQuality - penalty - entry.latencyPenalty + bonus
        ↔
      entry.HasData ∧ computeRecentFailurePenalty entry now - entry.recencyBonus now
        = penalty - bonus := by
  by_cases hdata : entry.HasData
  . rw [computeScore_of_hasData hget hdata, and_iff_right hdata]
    constructor
    . intro h
      linarith
    . intro h
      linarith
  . rw [computeScore_of_not_hasData hget hdata, baseQuality_of_not_hasData hdata]
    have hlatency := entry.latencyPenalty_nonneg
    constructor
    . intro h
      linarith
    . intro h
      exact absurd h.1 hdata

end Score

namespace ScoreHistory

def failures (history : ScoreHistory) : ScoreHistory := history.filter isFailure

def successes (history : ScoreHistory) : ScoreHistory :=
  history.filter fun event => !isFailure event

def lastTime (history : ScoreHistory) : Option SystemTime := history.getLast?.map Prod.snd

theorem failures_concat (history : ScoreHistory) (event : ScoreOutcome × SystemTime)
    : failures (history ++ [event])
        =
      if isFailure event then failures history ++ [event] else failures history := by
  rw [failures, List.filter_append, List.filter_singleton, failures]
  cases isFailure event <;> simp

theorem successes_concat (history : ScoreHistory) (event : ScoreOutcome × SystemTime)
    : successes (history ++ [event])
        =
      if isFailure event then successes history else successes history ++ [event] := by
  rw [successes, List.filter_append, List.filter_singleton, successes]
  cases isFailure event <;> simp

theorem failures_row (key : Bytes × Nat) (history : ScoreHistory)
    : (history.row key).failures = history.failures.length ∧
      (history.row key).lastFailureAt = history.failures.lastTime.map coarseNow := by
  induction history using outcome_induction with
  | nil => exact ⟨rfl, rfl⟩
  | success history latencyMs clock ih =>
    rw [row_concat, failures_concat]
    exact ih
  | failure history reason clock ih =>
    rw [row_concat, failures_concat]
    simp [ScoreRow.applied, isFailure, lastTime, ih.1]

theorem successes_row (key : Bytes × Nat) (history : ScoreHistory)
    : (history.row key).successes = history.successes.length ∧
      (history.row key).lastSuccessAt = history.successes.lastTime.map coarseNow := by
  induction history using outcome_induction with
  | nil => exact ⟨rfl, rfl⟩
  | success history latencyMs clock ih =>
    rw [row_concat, successes_concat]
    simp [ScoreRow.applied, isFailure, lastTime, ih.1]
  | failure history reason clock ih =>
    rw [row_concat, successes_concat]
    exact ih

/--
The counters of the entry, which has 32 bits for each, are not both zero.
-/
theorem hasData_row_iff (key : Bytes × Nat) (history : ScoreHistory)
    : (history.row key).toEntry.HasData
        ↔
      ¬(2 ^ 32 ∣ history.successes.length ∧ 2 ^ 32 ∣ history.failures.length) := by
  have hzero : ∀ n : Nat, UInt32.ofNat n = 0 ↔ 2 ^ 32 ∣ n := by
    intro n
    rw [← UInt32.toNat_inj, UInt32.toNat_ofNat, Nat.dvd_iff_mod_eq_zero]
    rfl
  unfold ScoreEntry.HasData ScoreRow.toEntry
  rw [hzero, hzero, (successes_row key history).1, (failures_row key history).1]

theorem consecutiveFailures_row_eq_zero_iff (key : Bytes × Nat) (history : ScoreHistory)
    : (history.row key).toEntry.consecutiveFailures = 0 ↔ history.sinceSuccess = [] := by
  have hzero : ∀ n : Nat, UInt8.ofNat (min n 255) = 0 ↔ n = 0 := by
    intro n
    rw [← UInt8.toNat_inj, UInt8.toNat_ofNat_of_lt' (by simp [UInt8.size])]
    change min n 255 = 0 ↔ n = 0
    omega
  unfold ScoreRow.toEntry
  rw [hzero, consecutiveFailures_row, List.length_eq_zero_iff]

end ScoreHistory

section Windows

variable {lookup : ScoreLookup} {fingerprint : NetworkFingerprint} {method : MethodId}
  {key : Bytes × Nat} {history : ScoreHistory} {now clock : SystemTime}

theorem full_penalty_iff
    (hget : lookup.get fingerprint method = some (history.row key).toEntry)
    (hlast : history.failures.lastTime = some clock)
    : computeScore lookup fingerprint method now
          = (history.row key).toEntry.baseQuality
            - 20 * (history.row key).toEntry.consecutiveFailures.toNat
            - (history.row key).toEntry.latencyPenalty + (history.row key).toEntry.recencyBonus now
        ↔
      ¬(2 ^ 32 ∣ history.successes.length ∧ 2 ^ 32 ∣ history.failures.length) ∧
      (history.sinceSuccess = [] ∨
        (epochToSystem (coarseNow clock) ≤ now ∧
          now - epochToSystem (coarseNow clock) ≤ fromSecs 300)) := by
  have hstored : (history.row key).toEntry.lastFailureAt
      = some (epochToSystem (coarseNow clock)) := by
    unfold ScoreRow.toEntry
    rw [(ScoreHistory.failures_row key history).2, hlast]
    rfl
  rw [computeScore_eq_iff hget (by positivity) (ScoreEntry.recencyBonus_le _ _), sub_left_inj,
    computeRecentFailurePenalty_eq_full_iff hstored, ScoreHistory.hasData_row_iff,
    ScoreHistory.consecutiveFailures_row_eq_zero_iff]

theorem recency_bonus_iff
    (hget : lookup.get fingerprint method = some (history.row key).toEntry)
    (hlast : history.successes.lastTime = some clock)
    : computeScore lookup fingerprint method now
          = (history.row key).toEntry.baseQuality
            - computeRecentFailurePenalty (history.row key).toEntry now
            - (history.row key).toEntry.latencyPenalty + 5
        ↔
      ¬(2 ^ 32 ∣ history.successes.length ∧ 2 ^ 32 ∣ history.failures.length) ∧
      epochToSystem (coarseNow clock) ≤ now ∧
      now - epochToSystem (coarseNow clock) < fromSecs 3600 := by
  have hstored : (history.row key).toEntry.lastSuccessAt
      = some (epochToSystem (coarseNow clock)) := by
    unfold ScoreRow.toEntry
    rw [(ScoreHistory.successes_row key history).2, hlast]
    rfl
  rw [computeScore_eq_iff hget (computeRecentFailurePenalty_nonneg _ _) (le_refl 5), sub_right_inj,
    ScoreEntry.recencyBonus_eq_five_iff hstored, ScoreHistory.hasData_row_iff]

end Windows

/--
A row that was written by any calls since it was created, and the score that is computed from it at
`now`. Within five minutes of the last failure the full penalty is subtracted, and within an hour of
the last success the bonus is added, exactly if the same is true of the hours in which they were
recorded, and the 32 bits of the counters have not wrapped to zero.
-/
theorem score_windows_iff (scores : PersistentScores) (fingerprint : NetworkFingerprint)
    (method : MethodId) (table table' : ScoreTable) (calls : List RecordCall) (db : Sqlite)
    (now : SystemTime) (history : ScoreHistory)
    (hreach : (scoreStore scores).Reachable table)
    (habsent : table.find? (scores.rowKey fingerprint method) = none)
    (hrun : (scoreStore scores).run table calls = some table')
    (hkept : scores.Kept (scores.rowKey fingerprint method) table calls)
    (hread : db.readError = none)
    (hhistory : scores.recorded (scores.rowKey fingerprint method) calls = history)
    (hne : history ≠ [])
    : ∃ lookup entry,
        CachedScoreLookup.ofStore scores db table' fingerprint = .ok lookup ∧
        lookup.get fingerprint method = some entry ∧
        ((∀ t, history.failures.lastTime = some t → t ≤ now → now ≤ t + fromSecs 300 →
            computeScore lookup fingerprint method now
              = entry.baseQuality - 20 * entry.consecutiveFailures.toNat - entry.latencyPenalty
                + entry.recencyBonus now) ∧
          (∀ t, history.successes.lastTime = some t → t ≤ now → now < t + fromSecs 3600 →
            computeScore lookup fingerprint method now
              = entry.baseQuality - computeRecentFailurePenalty entry now
                - entry.latencyPenalty + 5)
            ↔
          (∀ t, history.failures.lastTime = some t → t ≤ now → now ≤ t + fromSecs 300 →
            ¬(2 ^ 32 ∣ history.successes.length ∧ 2 ^ 32 ∣ history.failures.length) ∧
            (history.sinceSuccess = [] ∨
              (epochToSystem (coarseNow t) ≤ now ∧ now - epochToSystem (coarseNow t)
                ≤ fromSecs 300))) ∧
          (∀ t, history.successes.lastTime = some t → t ≤ now → now < t + fromSecs 3600 →
            ¬(2 ^ 32 ∣ history.successes.length ∧ 2 ^ 32 ∣ history.failures.length) ∧
            epochToSystem (coarseNow t) ≤ now ∧
            now - epochToSystem (coarseNow t) < fromSecs 3600)) := by
  rcases PersistentScores.cached_after_calls hreach habsent hrun hkept hread
    with ⟨rows, hrows, hrow, hentry⟩
  rw [hrow, hhistory, ScoreHistory.row?, if_neg (by simpa using hne), Option.map_some] at hentry
  refine ⟨CachedScoreLookup.build rows, _, ?_, hentry, ?_⟩
  . rw [CachedScoreLookup.ofStore, hrows]
    rfl
  . apply and_congr
    . apply forall_congr'
      intro t
      apply forall_congr'
      intro hlast
      rw [full_penalty_iff hentry hlast]
    . apply forall_congr'
      intro t
      apply forall_congr'
      intro hlast
      rw [recency_bonus_iff hentry hlast]

/--
A failure in the second minute of an hour, and a minute later.
-/
theorem score_windows_iff_early_failure
    : let call : RecordCall := ⟨[1], .veilFront, .failure .timeout, fromSecs 3700, .plain⟩
      ∃ table lookup entry, (scoreStore (.byFirstByte 50)).run .empty [call] = some table ∧
        CachedScoreLookup.ofStore (.byFirstByte 50) .plain table [1] = .ok lookup ∧
        lookup.get [1] .veilFront = some entry ∧
        computeScore lookup [1] .veilFront (fromSecs 3760)
          = entry.baseQuality - 20 * entry.consecutiveFailures.toNat - entry.latencyPenalty
            + entry.recencyBonus (fromSecs 3760) := by
  intro call
  have hrun : ∃ table, (scoreStore (.byFirstByte 50)).run .empty [call] = some table := ⟨_, rfl⟩
  rcases hrun with ⟨table, hrun⟩
  rcases score_windows_iff (.byFirstByte 50) [1] .veilFront .empty table [call] .plain
    (fromSecs 3760) [(.failure .timeout, fromSecs 3700)] ⟨[], rfl⟩ rfl hrun (by decide +kernel) rfl
      (by decide +kernel)
    (by decide) with ⟨lookup, entry, hlookup, hget, hiff⟩
  refine ⟨table, lookup, entry, hrun, hlookup, hget, ?_⟩
  refine (hiff.mpr ⟨?_, ?_⟩).1 (fromSecs 3700) rfl (by decide) (by decide)
  . intro t ht _ _
    injection ht with ht
    rw [← ht]
    exact ⟨by decide, .inr ⟨by decide, by decide⟩⟩
  . intro t ht
    cases ht

/--
A failure fifty minutes into the hour, which is scored right away.
-/
theorem late_failure_decays_at_once
    : let call : RecordCall := ⟨[1], .veilFront, .failure .timeout, fromSecs 6600, .plain⟩
      ∃ table lookup entry, (scoreStore (.byFirstByte 50)).run .empty [call] = some table ∧
        CachedScoreLookup.ofStore (.byFirstByte 50) .plain table [1] = .ok lookup ∧
        lookup.get [1] .veilFront = some entry ∧ entry.consecutiveFailures = 1 ∧
        computeScore lookup [1] .veilFront (fromSecs 6600)
          ≠ entry.baseQuality - 20 * entry.consecutiveFailures.toNat - entry.latencyPenalty
            + entry.recencyBonus (fromSecs 6600) :=
  ⟨_, _, _, rfl, rfl, rfl, by decide +kernel, by decide +kernel⟩

end Veil
