import Mathlib.Data.Prod.Lex
import ConstructVeil.Util.Table
import ConstructVeil.Util.Smallest
import ConstructVeil.Coordinator.Impl.Scoring

/-!
This module contains the store of the scores: the rows of its table, the recording of an outcome
with the pruning that follows it, and the queries.
-/

namespace Veil

inductive ScoringError where
  | dbError (msg : String)
  deriving DecidableEq, Repr

def ScoringError.message : ScoringError → String
  | .dbError msg => s!"database error: {msg}"

-- The counters and the times (seconds since the epoch) are never negative, and no latency is
-- written that does not fit 32 bits.
structure ScoreRow where
  fingerprint : Bytes
  method : Nat
  successes : Nat
  failures : Nat
  lastSuccessAt : Option Nat
  lastFailureAt : Option Nat
  medianLatencyMs : UInt32
  blockedAt : Option Nat
  consecutiveFailures : Nat
  deriving DecidableEq, Repr

def ScoreRow.key (row : ScoreRow) : Bytes × Nat := (row.fingerprint, row.method)

abbrev ScoreTable := Table ScoreRow.key

def epochToSystem (secs : Nat) : SystemTime := (fromSecs secs : Nat)

def ScoreRow.toEntry (row : ScoreRow) : ScoreEntry where
  successes := UInt32.ofNat row.successes
  failures := UInt32.ofNat row.failures
  lastSuccessAt := row.lastSuccessAt.map epochToSystem
  lastFailureAt := row.lastFailureAt.map epochToSystem
  medianLatencyMs := row.medianLatencyMs
  blockedAt := row.blockedAt.map epochToSystem
  consecutiveFailures := UInt8.ofNat (min row.consecutiveFailures 255)

/--
What SQLite does in one call where the call does not determine it. Each statement may fail, a bare
column of a grouped query is taken from any row of the group, and equal sort keys come in any order.
-/
structure Sqlite where
  readError : Option String
  writeError : Option String
  countError : Option String
  deleteError : Option String
  bareRow : (fingerprint : Bytes) → Nat
  tieRank : (fingerprint : Bytes) → Nat

structure FingerprintHash where
  hmacSha256 : (key : ByteArr 32) → (msg : Bytes) → ByteArr 32
  sha256 : (msg : Bytes) → ByteArr 32

structure PersistentScores where
  maxFingerprints : Nat
  scoringKey : Option (ByteArr 32)
  hash : FingerprintHash

def coarseNow (clock : SystemTime) : Nat :=
  let now := (clock.durationSince 0).getD 0 / fromSecs 1
  now / 3600 * 3600

def ewmaLatency (currentLatency latencyMs : UInt32) : UInt32 :=
  if currentLatency == 0 then
    latencyMs
  else
    ((currentLatency.toFloat * 0.7) + (latencyMs.toFloat * 0.3)).round.toUInt32

/--
`MAX(COALESCE(last_success_at, 0), COALESCE(last_failure_at, 0))`, with the scalar `MAX`.
-/
def ScoreRow.activity (row : ScoreRow) : Nat :=
  max (row.lastSuccessAt.getD 0) (row.lastFailureAt.getD 0)

namespace ScoreTable

def fingerprints (table : ScoreTable) : List Bytes := (table.rows.map ScoreRow.fingerprint).dedup

def group (table : ScoreTable) (fingerprint : Bytes) : List ScoreRow :=
  table.rows.filter fun row => row.fingerprint = fingerprint

end ScoreTable

namespace Sqlite

def groupKey (db : Sqlite) (table : ScoreTable) (fingerprint : Bytes) : Nat :=
  let group := ScoreTable.group table fingerprint
  ((group[db.bareRow fingerprint % group.length]?).map ScoreRow.activity).getD 0

/--
`SELECT fingerprint FROM scores GROUP BY fingerprint ORDER BY .. ASC LIMIT limit`.
-/
def oldest (db : Sqlite) (table : ScoreTable) (limit : Nat) : List Bytes :=
  smallest (fun fingerprint => toLex (db.groupKey table fingerprint, db.tieRank fingerprint)) limit
    (ScoreTable.fingerprints table)

end Sqlite

namespace PersistentScores

def hashFp (scores : PersistentScores) (fingerprint : NetworkFingerprint) : Bytes :=
  match scores.scoringKey with
  | some key => (scores.hash.hmacSha256 key fingerprint).val
  | none => (scores.hash.sha256 fingerprint).val

def rowKey (scores : PersistentScores) (fingerprint : NetworkFingerprint) (method : MethodId)
    : Bytes × Nat :=
  (scores.hashFp fingerprint, method.discriminant.toNat)

def prune (scores : PersistentScores) (db : Sqlite) (table : ScoreTable)
    : Except ScoringError Unit × ScoreTable :=
  match db.countError with
  | some e => (.error (.dbError s!"count failed: {e}"), table)
  | none =>
    let count := (ScoreTable.fingerprints table).length
    if count ≤ scores.maxFingerprints then
      (.ok (), table)
    else
      let toDelete := count - scores.maxFingerprints
      match db.deleteError with
      | some e => (.error (.dbError s!"prune failed: {e}"), table)
      | none =>
        (.ok (), table.deleteWhere fun row => row.fingerprint ∈ db.oldest table toDelete)

/--
The upsert of `record`, without the pruning.
-/
def write (scores : PersistentScores) (db : Sqlite) (clock : SystemTime) (table : ScoreTable)
    (fingerprint : NetworkFingerprint) (method : MethodId) (outcome : ScoreOutcome)
    : Except ScoringError ScoreTable :=
  let fp := scores.hashFp fingerprint
  let methodId := method.discriminant.toNat
  let execute (table : ScoreTable) : Except ScoringError ScoreTable :=
    match db.writeError with
    | some e => .error (.dbError s!"insert failed: {e}")
    | none => .ok table
  match outcome with
  | .success latencyMs =>
    match db.readError with
    | some e => .error (.dbError s!"read failed: {e}")
    | none =>
      let currentLatency := ((table.find? (fp, methodId)).map ScoreRow.medianLatencyMs).getD 0
      let latency := ewmaLatency currentLatency latencyMs
      let now := coarseNow clock
      execute <| table.upsert ⟨fp, methodId, 1, 0, some now, none, latency, none, 0⟩
        (fun row =>
          { row with
            successes := row.successes + 1
            lastSuccessAt := some now
            medianLatencyMs := latency
            consecutiveFailures := 0
            blockedAt := none })
        fun _ => rfl
  | .failure reason =>
    let now := coarseNow clock
    if reason == .fingerprintBlocked then
      execute <| table.upsert ⟨fp, methodId, 0, 1, none, some now, 0, some now, 1⟩
        (fun row =>
          { row with
            failures := row.failures + 1
            lastFailureAt := some now
            blockedAt := some now
            consecutiveFailures := row.consecutiveFailures + 1 })
        fun _ => rfl
    else
      execute <| table.upsert ⟨fp, methodId, 0, 1, none, some now, 0, none, 1⟩
        (fun row =>
          { row with
            failures := row.failures + 1
            lastFailureAt := some now
            consecutiveFailures := row.consecutiveFailures + 1 })
        fun _ => rfl

def record (scores : PersistentScores) (db : Sqlite) (clock : SystemTime) (table : ScoreTable)
    (fingerprint : NetworkFingerprint) (method : MethodId) (outcome : ScoreOutcome)
    : Except ScoringError Unit × ScoreTable :=
  match scores.write db clock table fingerprint method outcome with
  | .error e => (.error e, table)
  | .ok table => scores.prune db table

section Queries

variable (scores : PersistentScores) (db : Sqlite) (table : ScoreTable)
  (fingerprint : NetworkFingerprint)

def query {α : Type} (result : α) : Except ScoringError α :=
  match db.readError with
  | some e => .error (.dbError s!"query failed: {e}")
  | none => .ok result

def isPermanentlyBlockedAsync (method : MethodId) (blockTtl : Nat) (now : SystemTime)
    : Except ScoringError Bool := do
  match ← query db (table.find? (scores.rowKey fingerprint method)) with
  | none => return false
  | some row =>
    match row.blockedAt with
    | none => return false
    | some ba =>
      let blockedTime := epochToSystem ba
      let consecutive := UInt8.ofNat (min row.consecutiveFailures 255)
      let expired : Bool :=
        match now.durationSince blockedTime with
        | some d => d > blockTtl
        | none => true
      if expired then
        return false
      return consecutive ≥ 5

def methodOfId (methodId : Nat) : Option MethodId :=
  match methodId % 256 with
  | 0 => some .obfs4
  | 1 => some .webTunnel
  | 2 => some .masque
  | 3 => some .veilFront
  | _ => none

def getAllForFingerprint : Except ScoringError (List (MethodId × ScoreEntry)) :=
  query db <| (ScoreTable.group table (scores.hashFp fingerprint)).filterMap fun row =>
    (methodOfId row.method).map fun method => (method, row.toEntry)

end Queries

end PersistentScores

namespace CachedScoreLookup

def ofStore (scores : PersistentScores) (db : Sqlite) (table : ScoreTable)
    (fingerprint : NetworkFingerprint) : Except ScoringError ScoreLookup :=
  return build (← scores.getAllForFingerprint db table fingerprint)

end CachedScoreLookup

end Veil
