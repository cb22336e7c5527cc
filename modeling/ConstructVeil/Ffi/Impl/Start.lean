import ConstructVeil.Util.Str
import ConstructVeil.Coordinator.Impl.Start

/-!
This module contains `veil_start`, the entry point that the apps call: the reading of the request,
the opening of the scores store on the first start, and the start of the session.
-/

namespace Veil

inductive CStrArg where
  | null
  | notUtf8
  | str (s : String)
  deriving DecidableEq, Repr

def CStrArg.toStr : CStrArg → Option String
  | .null => none
  | .notUtf8 => none
  | .str s => some s

-- The fields of the retired transports are not read.
structure VeilStartRequest where
  relayAddr : CStrArg
  tlsSni : CStrArg
  spkiHex : CStrArg
  networkFingerprint : Option Bytes
  allowedMethods : UInt32
  scoresPath : CStrArg
  veilFrontTicketB64 : CStrArg
  veilCapabilityV2B64 : CStrArg
  veilSkHex : CStrArg
  scoringKey : Option Bytes
  deriving DecidableEq, Repr

structure VeilStartResult where
  port : UInt16
  method : UInt8
  latencyMs : UInt32
  deriving DecidableEq, Repr

def decodeHex (s : String) : Option Bytes :=
  if s.toList.any (fun c => c.toNat ≥ 128) then none else go s.toList
where
  go : List Char → Option Bytes
    | [] => some []
    | [_] => none
    | hi :: lo :: rest =>
      match hexDigit hi, hexDigit lo, go rest with
      | some hi, some lo, some bytes => some (UInt8.ofNat (hi * 16 + lo) :: bytes)
      | _, _, _ => none

def parseSpkiPin (spkiHex : String) : Except String (ByteArr 32) :=
  if spkiHex = "" then
    .error "SPKI pin required (empty)"
  else
    match decodeHex spkiHex with
    | none => .error "SPKI pin is not hex"
    | some bytes =>
      if h : bytes.length = 32 then
        .ok ⟨bytes, h⟩
      else
        .error s!"SPKI SHA-256 must be 32 bytes, got {bytes.length}"

structure StartArgs where
  params : StartParams
  scoringKey : Option (ByteArr 32)

def readStartRequest (req : VeilStartRequest) : Except String StartArgs := do
  let some relayAddr := req.relayAddr.toStr
    | .error "relay_addr is NULL or not UTF-8"
  let tlsSni := req.tlsSni.toStr.getD ""
  let some spkiHex := req.spkiHex.toStr
    | .error "spki_hex is NULL or not UTF-8"
  let _ ← parseSpkiPin spkiHex
  let veilFrontTicketB64 := req.veilFrontTicketB64.toStr.getD ""
  let veilCapabilityV2B64 := req.veilCapabilityV2B64.toStr.getD ""
  let veilSkHex := req.veilSkHex.toStr.getD ""
  let veilFrontAuthV3 : VeilFrontAuthV3 := ⟨veilCapabilityV2B64, veilSkHex⟩
  let fingerprint : NetworkFingerprint :=
    match req.networkFingerprint with
    | some bytes => if bytes.length > 0 then bytes else NetworkFingerprint.default
    | none => NetworkFingerprint.default
  let scoringKey :=
    match req.scoringKey with
    | some bytes => if h : bytes.length = 32 then some ⟨bytes, h⟩ else none
    | none => none
  return {
    params :=
      ⟨relayAddr, fingerprint, ⟨req.allowedMethods⟩, tlsSni, spkiHex, veilFrontTicketB64,
        veilFrontAuthV3⟩
    scoringKey }

inductive Output where
  | closePool
  | removeFile (name : String)
  | clearError
  | recordError (msg : String)
  | writeOut (result : VeilStartResult)
  deriving DecidableEq, Repr

/--
What `veil_start` does to the outside besides the actions of a start: the coordinator of the
process, the files of the scores store, the sink of the last error, and the result it writes.
-/
inductive EntryAction : Type → Type where
  | hasCoordinator : EntryAction Bool
  -- Answered by `false` if there is one already
  | setCoordinator (scores : PersistentScores) : EntryAction Bool
  | stop : EntryAction Bool
  | connect (path : String) : EntryAction (Except String Unit)
  | migrate : EntryAction (Except String Unit)
  | lastError : EntryAction String
  | output (o : Output) : EntryAction Unit

abbrev FfiAction (α : Type) := EntryAction α ⊕ StartAction α

abbrev Ffi := Prog FfiAction

def ffi {α : Type} (action : EntryAction α) : Ffi α := .perform (.inl action)

def ofStart {α : Type} (start : Start α) : Ffi α := start.lift fun _ => Sum.inr

namespace PersistentScores

def connectAndMigrate (url : String) (onConnect onMigrate : String → Ffi (Except ScoringError Unit))
    : Ffi (Except ScoringError Unit) := do
  match ← ffi (.connect url) with
  | .error e => onConnect e
  | .ok () =>
    match ← ffi .migrate with
    | .error e => onMigrate e
    | .ok () => return .ok ()

def openFile (path : String) : Ffi (Except ScoringError Unit) :=
  connectAndMigrate path (fun e => return .error (.dbError s!"failed to connect to {path}: {e}"))
    fun e => do
      ffi (.output .closePool)
      return .error (.dbError s!"migration failed: {e}")

def openMemory : Ffi (Except ScoringError Unit) :=
  connectAndMigrate "sqlite::memory:"
    (fun e => return .error (.dbError s!"failed to connect to :memory:: {e}"))
    fun e => return .error (.dbError s!"migration failed: {e}")

def removeFiles (path : String) : List String → Ffi Unit
  | [] => return ()
  | suffix :: suffixes => do
    ffi (.output (.removeFile (path ++ suffix)))
    removeFiles path suffixes

/--
A file that cannot be opened is removed and opened again.
-/
def openStore (path : String) (scores : PersistentScores)
    : Ffi (Except ScoringError PersistentScores) := do
  if path = ":memory:" then
    return (← openMemory).map fun () => scores
  else
    match ← openFile path with
    | .ok () => return .ok scores
    | .error _ =>
      removeFiles path ["", "-wal", "-shm", "-journal"]
      return (← openFile path).map fun () => scores

end PersistentScores

def CoordinatorError.message (ioText : IoError → String) : CoordinatorError → String
  | .io e => s!"I/O error: {ioText e}"
  | .scoring msg => s!"scoring error: {msg}"
  | .stopped => "session was stopped"
  | .allProbesFailed => "all probes failed"
  | .noMethods => "no obfuscation method is both allowed and registered"

inductive FfiFailure where
  | failed (reason : String)
  | panicked (what : String)
  deriving DecidableEq, Repr

/--
The coordinator of the process. veil-front is the only transport.
-/
def frontCoordinator : VeilCoordinator where
  config := .default
  registered method := method == .veilFront

section VeilStart

variable (hash : FingerprintHash) (ioText : IoError → String)

def openScores (req : VeilStartRequest) (scoringKey : Option (ByteArr 32))
    : Ffi (Except String PersistentScores) := do
  match req.scoresPath with
  | .null =>
    match ← PersistentScores.openStore ":memory:" ⟨50, none, hash⟩ with
    | .error e => return .error s!"scores open (memory) failed: {e.message}"
    | .ok scores => return .ok scores
  | .notUtf8 => return .error "scores_path empty"
  | .str path =>
    if path ≠ "" then
      match ← PersistentScores.openStore path ⟨50, scoringKey, hash⟩ with
      | .error e => return .error s!"scores open failed: {e.message}"
      | .ok scores => return .ok scores
    else
      return .error "scores_path empty"

def getOrBuildCoordinator (req : VeilStartRequest) (scoringKey : Option (ByteArr 32))
    : Ffi (Except String Unit) := do
  if ← ffi .hasCoordinator then
    return .ok ()
  else
    match ← openScores hash req scoringKey with
    | .error reason => return .error reason
    | .ok scores =>
      if ← ffi (.setCoordinator scores) then
        return .ok ()
      else
        return .error "COORDINATOR already set (race)"

def stopExisting : Ffi Unit := do
  if ← ffi .hasCoordinator then
    let _ ← ffi .stop
    return ()
  else
    return ()

def startSession (req : VeilStartRequest) (args : StartArgs)
    : Ffi (Except FfiFailure VeilStartResult) := do
  stopExisting
  match ← getOrBuildCoordinator hash req args.scoringKey with
  | .error reason => return .error (.failed reason)
  | .ok () =>
    match ← ofStart (frontCoordinator.startSessionWithParams args.params) with
    | .ok r => return .ok ⟨r.port, r.method.discriminant.toUInt8, r.latencyMs⟩
    | .error (.error e) => return .error (.failed s!"start_session: {e.message ioText}")
    | .error .unreachable | .error .outOfFuel =>
      return .error (.panicked
        ("internal error: entered unreachable code: " ++
          "FSM should transition to Active, Idle, or Cooldown"))

/--
The closure that `veil_start` runs: its value, or what it panics with.
-/
def startBody (req : VeilStartRequest) (outIsNull : Bool) : Ffi (Except String Int) := do
  ffi (.output .clearError)
  match readStartRequest req with
  | .error reason =>
    ffi (.output (.recordError s!"veil_start: {reason}"))
    return .ok (-1)
  | .ok args =>
    match ← startSession hash ioText req args with
    | .ok r =>
      if outIsNull then
        return .ok 0
      else
        ffi (.output (.writeOut r))
        return .ok 0
    | .error (.failed reason) =>
      if (← ffi .lastError) = "" then
        ffi (.output (.recordError s!"veil_start: {reason}"))
        return .ok (-1)
      else
        return .ok (-1)
    | .error (.panicked what) => return .error what

def ffiGuard (fallback : Int) : Except String Int → Ffi Int
  | .ok value => return value
  | .error what => do
    ffi (.output (.recordError s!"internal error (panic): {what}"))
    return fallback

def veilStart (req : VeilStartRequest) (outIsNull : Bool) : Ffi Int :=
  startBody hash ioText req outIsNull >>= ffiGuard (-1)

end VeilStart

end Veil
