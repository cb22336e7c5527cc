import ConstructVeil.Client.Impl.Session
import ConstructVeil.Protocol.Impl.Capability

/-!
This module contains the implementation of the client's side of a tunnel: the AUTH frame that opens
it and the ferry that moves bytes between the local stream and the relay.
-/

namespace Veil

inductive ObfuscatorError where
  | io (e : IoError)
  | connectionRefused
  | tls (msg : String)
  | handshake (msg : String)
  | timeout
  | cancelled
  | fingerprintBlocked
  | certProblem (msg : String)
  | unknown (msg : String)
  deriving DecidableEq, Repr

/--
The text decoders the client calls: standard base64 and hex. Their errors come with a message.
-/
structure TextCodecs where
  base64Decode : String → Except String Bytes
  hexDecode : String → Except String Bytes

structure VeilFrontAuthV3 where
  capabilityV2B64 : String
  veilSkHex : String
  deriving DecidableEq, Repr

inductive Abort where
  | error (e : ObfuscatorError)
  | panic (msg : String)
  deriving DecidableEq, Repr

def ensureValidNow (valid : Bool) : Except ObfuscatorError Unit :=
  if valid then
    .ok ()
  else
    .error (.certProblem "veil-front capability is outside its validity window (expired?)")

def parseCapability (texts : TextCodecs) (capabilityB64 : String)
    : Except ObfuscatorError Capability :=
  if capabilityB64 = "" then
    .error (.handshake "veil-front capability is empty (not configured)")
  else
    match texts.base64Decode capabilityB64 with
    | .error e => .error (.handshake s!"capability base64 decode: {e}")
    | .ok raw =>
      match Capability.decode raw with
      | some (capability, _) => .ok capability
      | none => .error (.handshake s!"invalid capability: malformed blob ({raw.length} bytes)")

def parseCapabilityV2 (texts : TextCodecs) (capabilityV2B64 : String)
    : Except ObfuscatorError CapabilityV2 :=
  match texts.base64Decode capabilityV2B64 with
  | .error e => .error (.handshake s!"capability_v2 base64 decode: {e}")
  | .ok raw =>
    match CapabilityV2.decode raw with
    | some (capability, _) => .ok capability
    | none => .error (.handshake s!"invalid capability_v2: malformed blob ({raw.length} bytes)")

def parseVeilSk (texts : TextCodecs) (veilSkHex : String) : Except ObfuscatorError (ByteArr 32) :=
  match texts.hexDecode veilSkHex with
  | .error e => .error (.handshake s!"veil_sk hex decode: {e}")
  | .ok raw =>
    if h:raw.length = 32 then
      .ok ⟨raw, h⟩
    else
      .error (.handshake s!"veil_sk must be 32 bytes, got {raw.length}")

/--
The AUTH frame: v3 if both of its parameters are configured, v2 otherwise.
-/
def authFrame (c : Crypto) (texts : TextCodecs) (unixNow : UInt64) (exporter : ByteArr 32)
    (capabilityB64 : String) (authV3 : VeilFrontAuthV3) : Except Abort Frame := do
  if authV3.capabilityV2B64 ≠ "" ∧ authV3.veilSkHex ≠ "" then
    let capability ← (parseCapabilityV2 texts authV3.capabilityV2B64).mapError .error
    (ensureValidNow (capability.isValidAt unixNow)).mapError .error
    let veilSk ← (parseVeilSk texts authV3.veilSkHex).mapError .error
    let auth := AuthRecordV3.fromCapability c capability veilSk exporter
    let payload ← auth.encodePayload.mapError .panic
    return .authV3 payload
  else
    let capability ← (parseCapability texts capabilityB64).mapError .error
    (ensureValidNow (capability.isValidAt unixNow)).mapError .error
    let auth := AuthRecordV2.fromCapability c capability exporter
    let payload ← auth.encodePayload.mapError .panic
    return .authV2 payload

def authenticateOver (c : Crypto) (texts : TextCodecs) (unixNow : UInt64) (exporter : ByteArr 32)
    (capabilityB64 : String) (authV3 : VeilFrontAuthV3) : List WriteOp × Except Abort Unit :=
  match authFrame c texts unixNow exporter capabilityB64 authV3 with
  | .error e => ([], .error e)
  | .ok frame => ([.write (bucketCodec.encode frame []), .flush], .ok ())

def localBuf : Nat := 8192

/--
One turn of the up loop: the clock when it decides whether to run a timer, what became of the local
read, and the clock when it asks for the next frame.
-/
structure UpTick where
  waitNow : Nat
  event : ReadEvent
  wireNow : Nat

def sendNext (up : VeilFrontUp) (now : Nat) : List WriteOp × VeilFrontUp :=
  match up.nextWire now with
  | (some wire, up) => ([.write wire, .flush], up)
  | (none, up) => ([], up)

def ferryUp (up : VeilFrontUp) (ticks : List UpTick)
    : List WriteOp × Except ObfuscatorError VeilFrontUp :=
  match ticks with
  | [] => ([.shutdown], .ok up)
  | tick :: ticks =>
    match tick.event with
    | .eof => ([.shutdown], .ok up)
    | .data bytes _ =>
      let sent := sendNext (up.queueLocal bytes) tick.wireNow
      let res := ferryUp sent.2 ticks
      (sent.1 ++ res.1, res.2)
    | .err e => ([], .error (.io e))
    | .timeout =>
      if up.waitsForLocal tick.waitNow then
        -- there is no timer in this state, the read goes on
        ferryUp up ticks
      else
        let sent := sendNext up tick.wireNow
        let res := ferryUp sent.2 ticks
        (sent.1 ++ res.1, res.2)

namespace VeilFrontDown

theorem buf_nextPayload_lt {target : Target} {down down' : VeilFrontDown} {payload : Bytes}
    (h : nextPayload target down = (.ok (some payload), down'))
    : down'.buf.length < down.buf.length := by
  rw [nextPayload] at h
  split at h
  . next frame rest hattempt =>
    have hlt := (VeilFrontCodec.decoder target down.codec).item_lt hattempt
    dsimp only at h
    split at h
    . simp only [Prod.mk.injEq] at h
      rw [← h.2]
      exact hlt
    . exact Nat.lt_trans (buf_nextPayload_lt h) hlt
  . simp at h
  . simp at h
termination_by down.buf.length

def drainPayloads (target : Target) (down : VeilFrontDown)
    : List WriteOp × Except DecodeError VeilFrontDown :=
  match h:nextPayload target down with
  | (.ok (some payload), down') =>
    have := buf_nextPayload_lt h
    let res := drainPayloads target down'
    (.write payload :: res.1, res.2)
  | (.ok none, down') => ([], .ok down')
  | (.error e, _) => ([], .error e)
termination_by down.buf.length

end VeilFrontDown

def ferryDown (target : Target) (down : VeilFrontDown) (reads : List ReadEvent)
    : List WriteOp × Except ObfuscatorError VeilFrontDown :=
  match down.drainPayloads target with
  | (ops, .error e) => (ops, .error (.io (.invalidData e)))
  | (ops, .ok down) =>
    match reads with
    | [] => (ops ++ [.shutdown], .ok down)
    | .eof :: _ => (ops ++ [.shutdown], .ok down)
    | .err e :: _ => (ops, .error (.io e))
    | .timeout :: reads =>
      let res := ferryDown target down reads
      (ops ++ res.1, res.2)
    | .data bytes _ :: reads =>
      let res := ferryDown target (down.feed bytes) reads
      (ops ++ res.1, res.2)

end Veil
