import Mathlib.Data.List.Basic
import ConstructVeil.Protocol.Basic

/-!
This module contains the data model of the session FSM: obfuscation methods and sets of them, the
states, events and effects, and the configuration.
-/

namespace Veil

inductive MethodId where
  | obfs4
  | webTunnel
  | masque
  | veilFront
  deriving DecidableEq, Repr

namespace MethodId

def discriminant : MethodId → UInt32
  | .obfs4 => 0
  | .webTunnel => 1
  | .masque => 2
  | .veilFront => 3

def all : List MethodId := [.obfs4, .webTunnel, .masque, .veilFront]

def bit (method : MethodId) : UInt32 := 1 <<< method.discriminant

end MethodId

/--
A bitmask of disabled methods: bit `n` is the method with discriminant `n`, and `0` enables all.
-/
structure MethodSet where
  bits : UInt32
  deriving DecidableEq, Repr

namespace MethodSet

def contains (set : MethodSet) (method : MethodId) : Bool :=
  if set.bits == 0 then
    true
  else
    set.bits &&& method.bit == 0

def iterAllowed (set : MethodSet) : List MethodId := MethodId.all.filter set.contains

end MethodSet

abbrev NetworkFingerprint := Bytes

def NetworkFingerprint.default : NetworkFingerprint := List.replicate 16 0

-- Both clocks count nanoseconds: `Instant` from some fixed moment, `SystemTime` from the Unix
-- epoch.
abbrev Instant := Nat
abbrev SystemTime := Int

def SystemTime.durationSince (now earlier : SystemTime) : Option Nat :=
  if earlier ≤ now then
    some (now - earlier).toNat
  else
    none

inductive ProbeFailureReason where
  | fingerprintBlocked
  | tlsCertProblem
  | connectionFailed
  | timeout
  | unknown
  deriving DecidableEq, Repr

inductive ScoreOutcome where
  | success (latencyMs : UInt32)
  | failure (reason : ProbeFailureReason)
  deriving DecidableEq, Repr

inductive TransportFailureKind where
  | fingerprintBlocked
  | tlsCertProblem
  | streamTimeout
  | unknown
  deriving DecidableEq, Repr

structure ProbeAttempt where
  startedAt : Instant
  deriving DecidableEq, Repr

inductive VeilState where
  | idle
  | probing (candidates : List MethodId) (attempts : MethodId → Option ProbeAttempt)
      (startedAt : Instant)
  | active (method : MethodId) (port : UInt16) (startedAt : Instant) (consecutiveFailures : UInt8)
  | degraded (method : MethodId) (port : UInt16) (consecutiveFailures : UInt8)
  | cooldown (until_ : Instant)

inductive VeilEvent where
  | start (relay : String) (fingerprint : NetworkFingerprint) (allowedMethods : MethodSet)
  | stop
  | probeSucceeded (method : MethodId) (port : UInt16) (latencyMs : UInt32)
  | probeFailed (method : MethodId) (reason : ProbeFailureReason)
  | allProbesFailed
  | transportFailure (kind : TransportFailureKind)
  | cooldownElapsed

inductive VeilEffect where
  | startProbes (methods : List MethodId) (relay : String)
  | cancelOtherProbes (winner : MethodId)
  | stopActive
  | scheduleCooldown (duration : Nat)
  | recordScore (method : MethodId) (fingerprint : NetworkFingerprint) (outcome : ScoreOutcome)
  deriving DecidableEq, Repr

structure VeilConfig where
  topKProbes : Nat
  interProbeDelay : Nat
  probeTimeout : Nat
  degradedThreshold : UInt8
  cooldownDuration : Nat
  blockTtl : Nat
  deriving DecidableEq, Repr

namespace VeilConfig

def default : VeilConfig where
  topKProbes := 2
  interProbeDelay := fromMillis 150
  probeTimeout := fromSecs 8
  degradedThreshold := 2
  cooldownDuration := fromSecs 30
  blockTtl := fromSecs (7 * 24 * 3600)

end VeilConfig

structure ScoreEntry where
  successes : UInt32
  failures : UInt32
  lastSuccessAt : Option SystemTime
  lastFailureAt : Option SystemTime
  medianLatencyMs : UInt32
  blockedAt : Option SystemTime
  consecutiveFailures : UInt8
  deriving DecidableEq, Repr

end Veil
