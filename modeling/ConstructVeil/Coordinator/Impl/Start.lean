import ConstructVeil.Util.Prog
import ConstructVeil.Client.Impl.Adapter
import ConstructVeil.Coordinator.Impl.Reducer
import ConstructVeil.Coordinator.Impl.Store

/-!
This module contains the start of a session: the probe race, the FSM steps and the installation of
the winner, as a program over the things it does to the outside.
-/

namespace Veil

structure ProbeRequest where
  relayAddr : String
  tlsSni : String
  spkiHex : String
  veilFrontTicketB64 : String
  authV3 : VeilFrontAuthV3
  deriving DecidableEq, Repr

structure ProxyParams where
  method : MethodId
  relayAddr : String
  tlsSni : String
  spkiHex : String
  veilFrontTicketB64 : String
  veilFrontAuthV3 : VeilFrontAuthV3
  deriving DecidableEq, Repr

structure StartParams where
  relay : String
  fingerprint : NetworkFingerprint
  allowedMethods : MethodSet
  tlsSni : String
  spkiHex : String
  veilFrontTicketB64 : String
  veilFrontAuthV3 : VeilFrontAuthV3
  deriving DecidableEq, Repr

namespace StartParams

def probeRequest (p : StartParams) : ProbeRequest :=
  ⟨p.relay, p.tlsSni, p.spkiHex, p.veilFrontTicketB64, p.veilFrontAuthV3⟩

def proxyParams (p : StartParams) (method : MethodId) : ProxyParams :=
  ⟨method, p.relay, p.tlsSni, p.spkiHex, p.veilFrontTicketB64, p.veilFrontAuthV3⟩

end StartParams

inductive CoordinatorError where
  | io (e : IoError)
  | scoring (msg : String)
  | stopped
  | allProbesFailed
  | noMethods
  deriving DecidableEq, Repr

structure CoordinatorStartResult where
  port : UInt16
  method : MethodId
  latencyMs : UInt32
  deriving DecidableEq, Repr

/--
How a start ends other than with a session. `unreachable` is the panic behind its loop, and
`outOfFuel` a bound on the receives of the probe race that no race exceeds.
-/
inductive StartAbort where
  | error (e : CoordinatorError)
  | unreachable
  | outOfFuel
  deriving DecidableEq, Repr

def classifyObfuscatorError : ObfuscatorError → ProbeFailureReason
  | .fingerprintBlocked => .fingerprintBlocked
  | .certProblem _ => .tlsCertProblem
  | .timeout => .timeout
  | .cancelled => .connectionFailed
  | .connectionRefused => .connectionFailed
  | .handshake _ => .connectionFailed
  | .tls _ => .connectionFailed
  | .io _ => .connectionFailed
  | .unknown _ => .unknown

inductive ProbeOutcome where
  | success (latencyMs : UInt32)
  | failure (reason : ProbeFailureReason) (latencyMs : UInt32)
  deriving DecidableEq, Repr

structure ProbeResult where
  method : MethodId
  outcome : ProbeOutcome
  deriving DecidableEq, Repr

inductive ProbeTask where
  | unregistered (method : MethodId)
  | probe (method : MethodId) (stagger : Nat) (req : ProbeRequest) (timeout : Nat)
  deriving DecidableEq, Repr

def ProbeTask.method : ProbeTask → MethodId
  | .unregistered method => method
  | .probe method _ _ _ => method

/--
What a start does to the outside: clocks and timers, the scores store, the obfuscators, the channel
of the probe race, the local listener, and the session slot.
-/
inductive StartAction : Type → Type where
  | now : StartAction (Instant × SystemTime)
  | sleep (duration : Nat) : StartAction Unit
  | readScores (fingerprint : NetworkFingerprint)
      : StartAction (Except ScoringError (List (MethodId × ScoreEntry)))
  | recordScore (fingerprint : NetworkFingerprint) (method : MethodId) (outcome : ScoreOutcome)
      : StartAction (Except ScoringError Unit)
  | startObfuscator (method : MethodId) (req : ProbeRequest)
      : StartAction (Except ObfuscatorError Unit)
  -- Answered by `none` if the timeout comes first
  | firstByte (method : MethodId) (timeout : Nat) : StartAction
    (Option (Except ObfuscatorError Unit))
  | spawnProbe (task : ProbeTask) : StartAction Unit
  -- Answered by `none` once every task of the race is done
  | recv : StartAction (Option ProbeResult)
  | cancelProbes : StartAction Unit
  | bindListener : StartAction (Except IoError UInt16)
  | drawId : StartAction Nat
  -- Answered by the handle of the session's proxy task
  | install (id : Nat) (port : UInt16) (params : ProxyParams) : StartAction Nat
  | spawnProxy (task : Nat) : StartAction Unit
  | stopActive : StartAction Unit

abbrev Start := Prog StartAction

open Prog

def elapsedMillis (start now : Instant) : UInt32 := UInt32.ofNat ((now - start) / fromMillis 1)

structure VeilCoordinator where
  config : VeilConfig
  -- Whether there is an obfuscator for the method
  registered : MethodId → Bool

namespace VeilCoordinator

variable (c : VeilCoordinator) (p : StartParams)

def executeProbeWithParams (method : MethodId) : Start (Except ProbeFailureReason Unit) :=
  if c.registered method then do
    match ← perform (.startObfuscator method p.probeRequest) with
    | .error e => return .error (classifyObfuscatorError e)
    | .ok () =>
      match ← perform (.firstByte method c.config.probeTimeout) with
      | some (.ok ()) => return .ok ()
      | some (.error e) => return .error (classifyObfuscatorError e)
      | none => return .error .timeout
  else
    return .error .unknown

/--
Write the scores among the effects to the store. An error of the store is logged, not returned.
-/
def recordScores : List VeilEffect → Start Unit
  | [] => return ()
  | .recordScore method _ outcome :: effects => do
    let _ ← perform (.recordScore p.fingerprint method outcome)
    recordScores effects
  | _ :: effects => recordScores effects

def installSession (port : UInt16) (params : ProxyParams) : Start Unit := do
  let id ← perform .drawId
  let task ← perform (.install id port params)
  perform (.spawnProxy task)

def handleProbeFailure (scores : ScoreLookup) (method : MethodId) (reason : ProbeFailureReason)
    (state : VeilState) : Start VeilState := do
  let clocks ← perform .now
  let (state, effects) :=
    reduce state (.probeFailed method reason) scores c.config clocks.1 clocks.2
  recordScores p effects
  return state

def handleAllProbesFailed (scores : ScoreLookup) (state : VeilState) : Start VeilState :=
  match state with
  | .probing _ _ _ => do
    let clocks ← perform .now
    return (reduce state .allProbesFailed scores c.config clocks.1 clocks.2).1
  | _ => return state

def handleProbeSuccess (scores : ScoreLookup) (method : MethodId) (latencyMs : UInt32)
    (state : VeilState) : Start (Except StartAbort VeilState) := do
  match ← perform .bindListener with
  | .error e => return .error (.error (.io e))
  | .ok port =>
    let clocks ← perform .now
    let (state, effects) :=
      reduce state (.probeSucceeded method port latencyMs) scores c.config clocks.1 clocks.2
    recordScores p effects
    installSession port (p.proxyParams method)
    return .ok state

def runSequentialProbes (scores : ScoreLookup)
    : List MethodId → VeilState → Start (Except StartAbort VeilState)
  | [], state => do
    return .ok (← c.handleAllProbesFailed scores state)
  | method :: methods, state => do
    let probeStart ← perform .now
    let result ← c.executeProbeWithParams p method
    let probeEnd ← perform .now
    match result with
    | .ok () =>
      c.handleProbeSuccess p scores method (elapsedMillis probeStart.1 probeEnd.1) state
    | .error reason =>
      let state ← c.handleProbeFailure p scores method reason state
      match state with
      | .cooldown _ | .idle => return .ok (← c.handleAllProbesFailed scores state)
      | _ => runSequentialProbes scores methods state

def launchProbes (methods : List MethodId) : Start Unit := go 0 methods
where
  go (i : Nat) : List MethodId → Start Unit
    | [] => return ()
    | method :: methods => do
      if c.registered method then
        let stagger := fromMillis (i * (c.config.interProbeDelay / fromMillis 1))
        perform (.spawnProbe (.probe method stagger p.probeRequest c.config.probeTimeout))
      else
        perform (.spawnProbe (.unregistered method))
      go (i + 1) methods

/--
Receive until the first success or until the channel is closed. Returns the failures so far and the
winner.
-/
def collectResults (fuel : Nat) (failures : List (MethodId × ProbeFailureReason))
    : Start (Option (List (MethodId × ProbeFailureReason) × Option (MethodId × UInt32))) :=
  match fuel with
  | 0 => return none
  | fuel + 1 => do
    match ← perform .recv with
    | none => return some (failures, none)
    | some ⟨method, .success latencyMs⟩ => return some (failures, some (method, latencyMs))
    | some ⟨method, .failure reason _⟩ => collectResults fuel (failures ++ [(method, reason)])

/--
Write the failures of a race that has a winner. These do not go through the FSM.
-/
def recordFailures : List (MethodId × ProbeFailureReason) → Start Unit
  | [] => return ()
  | (method, reason) :: failures => do
    let _ ← perform (.recordScore p.fingerprint method (.failure reason))
    recordFailures failures

def handleProbeFailures (scores : ScoreLookup)
    : List (MethodId × ProbeFailureReason) → VeilState → Start VeilState
  | [], state => return state
  | (method, reason) :: failures, state => do
    let state ← c.handleProbeFailure p scores method reason state
    handleProbeFailures scores failures state

def runParallelProbes (scores : ScoreLookup) (methods : List MethodId) (state : VeilState)
    : Start (Except StartAbort VeilState) := do
  if methods.length = 0 then
    return .error (.error .noMethods)
  else
    c.launchProbes p methods
    let results ← collectResults (methods.length + 1) []
    perform .cancelProbes
    match results with
    | none => return .error .outOfFuel
    | some (failures, some (winningMethod, latencyMs)) =>
      match ← perform .bindListener with
      | .error e => return .error (.error (.io e))
      | .ok port =>
        let clocks ← perform .now
        let (state, effects) :=
          reduce state (.probeSucceeded winningMethod port latencyMs) scores c.config clocks.1
            clocks.2
        recordScores p effects
        recordFailures p failures
        installSession port (p.proxyParams winningMethod)
        return .ok state
    | some (failures, none) =>
      let state ← c.handleProbeFailures p scores failures state
      return .ok (← c.handleAllProbesFailed scores state)

def executeEffectWithParams (scores : ScoreLookup) (effect : VeilEffect) (state : VeilState)
    : Start (Except StartAbort VeilState) :=
  match effect with
  | .startProbes methods _ =>
    if methods.length = 1 then
      c.runSequentialProbes p scores methods state
    else
      c.runParallelProbes p scores methods state
  | .cancelOtherProbes _ => return .ok state
  | .stopActive => do
    perform .stopActive
    return .ok state
  | .scheduleCooldown _ => return .ok state
  | .recordScore method fingerprint outcome => do
    let fingerprint := if fingerprint.all (· == 0) then p.fingerprint else fingerprint
    match ← perform (.recordScore fingerprint method outcome) with
    | .error e => return .error (.error (.scoring e.message))
    | .ok () => return .ok state

def executeEffects (scores : ScoreLookup)
    : List VeilEffect → VeilState → Start (Except StartAbort VeilState)
  | [], state => return .ok state
  | effect :: effects, state => do
    match ← c.executeEffectWithParams p scores effect state with
    | .error abort => return .error abort
    | .ok state => executeEffects scores effects state

/--
The event the loop feeds to the FSM, and how long it sleeps before.
-/
def nextEvent (allowedMethods : MethodSet) (now : Instant) : VeilState → Option (Nat × VeilEvent)
  | .idle => some (0, .start p.relay p.fingerprint allowedMethods)
  | .cooldown until_ => some (until_ - now, .cooldownElapsed)
  | .active _ _ _ _ => none
  | .probing _ _ _ => none
  | .degraded _ _ _ => none

def sleepUnlessZero (duration : Nat) : Start Unit :=
  if duration = 0 then
    return ()
  else
    perform (.sleep duration)

-- 1 for the states from which the loop takes another step
def loopRank : VeilState → Nat
  | .idle => 1
  | .cooldown _ => 1
  | .active _ _ _ _ => 0
  | .probing _ _ _ => 0
  | .degraded _ _ _ => 0

theorem loopRank_of_nextEvent {allowedMethods : MethodSet} {now : Instant} {state : VeilState}
    {next : Nat × VeilEvent} (h : nextEvent p allowedMethods now state = some next)
    : loopRank state = 1 := by
  cases state <;> simp [nextEvent, loopRank] at h ⊢

/--
The lookup the FSM gets. A store that cannot be read means no history.
-/
def cachedScores : Except ScoringError (List (MethodId × ScoreEntry)) → ScoreLookup
  | .ok rows => CachedScoreLookup.build rows
  | .error _ => CachedScoreLookup.empty

def startLoop (allowedMethods : MethodSet) (startTime : Instant) (state : VeilState)
    : Start (Except StartAbort CoordinatorStartResult) := do
  let rows ← perform (.readScores p.fingerprint)
  let scores := cachedScores rows
  let clocks ← perform .now
  match _hnext : nextEvent p allowedMethods clocks.1 state with
  | none => return .error .unreachable
  | some (remaining, event) =>
    sleepUnlessZero remaining
    let (state, effects) := reduce state event scores c.config clocks.1 clocks.2
    match ← c.executeEffects p scores effects state with
    | .error abort => return .error abort
    | .ok (.active method port _ _) =>
      let ended ← perform .now
      perform (.sleep (fromMillis 50))
      return .ok ⟨port, method, elapsedMillis startTime ended.1⟩
    | .ok (.cooldown _) => return .error (.error .allProbesFailed)
    | .ok .idle => return .error (.error .stopped)
    | .ok (.probing candidates attempts startedAt) =>
      startLoop allowedMethods startTime (.probing candidates attempts startedAt)
    | .ok (.degraded method port consecutiveFailures) =>
      startLoop allowedMethods startTime (.degraded method port consecutiveFailures)
termination_by loopRank state
decreasing_by
  all_goals
    rw [loopRank_of_nextEvent p _hnext]
    exact Nat.zero_lt_one

def restrict (allowedMethods : MethodSet) : MethodSet :=
  ⟨MethodId.all.foldl (fun bits m => if c.registered m then bits else bits ||| m.bit)
    allowedMethods.bits⟩

def startSessionWithParams : Start (Except StartAbort CoordinatorStartResult) := do
  let startTime ← perform .now
  let allowedMethods := c.restrict p.allowedMethods
  if allowedMethods.iterAllowed.isEmpty then
    return .error (.error .noMethods)
  else
    c.startLoop p allowedMethods startTime.1 .idle

end VeilCoordinator

end Veil
