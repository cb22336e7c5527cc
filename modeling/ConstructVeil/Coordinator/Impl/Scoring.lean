import Mathlib.Data.List.Sort
import Mathlib.Data.Rat.Defs
import Mathlib.Algebra.Order.Ring.Unbundled.Rat
import ConstructVeil.Coordinator.Basic

/-!
This module contains the choice of the methods to probe: the scores the FSM looks up, the score of a
method, and the selection of the best ones.
-/

namespace Veil

structure ScoreLookup where
  get : NetworkFingerprint → MethodId → Option ScoreEntry
  isPermanentlyBlocked : NetworkFingerprint → MethodId → (blockTtl : Nat) → SystemTime → Bool

namespace CachedScoreLookup

def blockedFor (entries : MethodId → Option ScoreEntry) (method : MethodId) (blockTtl : Nat)
    (now : SystemTime) : Bool :=
  match entries method with
  | none => false
  | some entry =>
    match entry.blockedAt with
    | none => false
    | some blockedAt =>
      let expired : Bool :=
        match now.durationSince blockedAt with
        | some d => d > blockTtl
        | none => true
      if expired then
        false
      else
        entry.consecutiveFailures ≥ 5

def lookup (entries : MethodId → Option ScoreEntry) : ScoreLookup where
  get _ method := entries method
  isPermanentlyBlocked _ method blockTtl now := blockedFor entries method blockTtl now

/--
The rows of the fingerprint, a later row of a method replacing an earlier one.
-/
def build (rows : List (MethodId × ScoreEntry)) : ScoreLookup :=
  lookup (rows.foldl (fun entries row => fun m => if m = row.1 then some row.2 else entries m)
    (fun _ => none))

def empty : ScoreLookup := lookup fun _ => none

end CachedScoreLookup

-- The floating point arithmetic of the scores is exact here.
def computeRecentFailurePenalty (entry : ScoreEntry) (now : SystemTime) : Rat :=
  match entry.lastFailureAt with
  | none => 0
  | some lastFailure =>
    match now.durationSince lastFailure with
    | none => 0
    | some elapsed =>
      if elapsed > fromSecs 3600 then
        0
      else if elapsed ≤ fromSecs 300 then
        (entry.consecutiveFailures.toNat : Rat) * 20
      else
        let decay : Rat := 1 - ((elapsed : Rat) / (fromSecs 1 : Rat) - 300) / (3600 - 300)
        (entry.consecutiveFailures.toNat : Rat) * 20 * max decay 0

def computeScore (scores : ScoreLookup) (fingerprint : NetworkFingerprint) (method : MethodId)
    (now : SystemTime) : Rat :=
  match scores.get fingerprint method with
  | none => 50
  | some entry =>
    let total : Rat := entry.successes.toNat + entry.failures.toNat
    if total = 0 then
      50
    else
      let baseQuality := (entry.successes.toNat : Rat) / total * 100
      let latencyPenalty : Rat :=
        if entry.medianLatencyMs > 1000 then
          min (((entry.medianLatencyMs.toNat : Rat) - 1000) / 100) 20
        else
          0
      let recencyBonus : Rat :=
        match entry.lastSuccessAt.bind now.durationSince with
        | none => 0
        | some d => if d < fromSecs 3600 then 5 else 0
      baseQuality - computeRecentFailurePenalty entry now - latencyPenalty + recencyBonus

/--
The best `topKProbes` methods that are not blocked. If there are none, the method that has been
blocked for the longest time, and if none is known to be blocked, the first one that is allowed.
-/
def selectCandidatesBy {α : Type} [LinearOrder α] (score : MethodId → α)
    (fingerprint : NetworkFingerprint) (allowed : MethodSet) (scores : ScoreLookup)
    (cfg : VeilConfig) (now : SystemTime) : List MethodId :=
  let unblocked := allowed.iterAllowed.filter fun method =>
    !scores.isPermanentlyBlocked fingerprint method cfg.blockTtl now
  let scored := unblocked.map fun method => (method, score method)
  let sorted := scored.insertionSort fun a b => b.2 ≤ a.2
  let candidates := (sorted.take (min cfg.topKProbes sorted.length)).map Prod.fst
  if candidates.isEmpty then
    let blockedMethods := allowed.iterAllowed.filterMap fun method =>
      (scores.get fingerprint method).bind fun entry => entry.blockedAt.map fun t => (method, t)
    match (blockedMethods.insertionSort fun a b => a.2 ≤ b.2).head? with
    | some (method, _) => [method]
    | none => allowed.iterAllowed.head?.toList
  else
    candidates

def selectProbeCandidates (fingerprint : NetworkFingerprint) (allowed : MethodSet)
    (scores : ScoreLookup) (cfg : VeilConfig) (now : SystemTime) : List MethodId :=
  selectCandidatesBy (fun method => computeScore scores fingerprint method now) fingerprint allowed
    scores cfg now

end Veil
