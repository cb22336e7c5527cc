import ConstructVeil.Conn.Basic
import ConstructVeil.Relay.Impl.Gate
import ConstructVeil.Relay.Impl.Chain

/-!
This module contains the relay's side of a connection as a program: the gate, the dial that follows
it, and the loops that move bytes between the client and the other leg. Byte counters and log lines
are not part of the model.
-/

namespace Veil

open VeilFrontCodec

structure ChainConfig where
  capabilityV2B64 : String
  veilSk : ByteArr 32

structure RelayConfig where
  crypto : Crypto
  texts : TextCodecs
  target : Target
  issuerPubkey : ByteArr 32
  relayScope : String
  chain : Option ChainConfig
  firstByte : Nat
  dial : Nat

def RelayConfig.gateEnv (cfg : RelayConfig) (exporter : ByteArr 32) : GateEnv :=
  ⟨cfg.crypto, cfg.target, exporter, cfg.issuerPubkey, cfg.relayScope⟩

inductive HandlerError where
  | io (e : IoError)
  | chain (e : ChainError)
  | panic (msg : String)
  deriving DecidableEq, Repr

instance : FromIo HandlerError := ⟨.io⟩

instance : FromIo ChainError := ⟨.io⟩

def gateReadTimeout : Nat := fromMillis 100

def idleChaffTick : Nat := fromMillis 20

/--
How the up direction of a connection goes on after the gate. A tunnel and a chain have the bytes in
front of the decoder with them.
-/
inductive Route (τ : Type) where
  | tunnel (buf : Bytes)
  | chain (buf : Bytes)
  | site (state : τ)
  deriving DecidableEq, Repr

namespace Sock

variable {ε : Type}

/--
How a loop reads that fills idle gaps with CHAFF: with a timer, but only inside the window.
-/
def readIdle (limit : Option Nat) (chaffWindow opened : Nat) : Sock ε ReadEvent := do
  let now ← ask .now
  if now - opened < chaffWindow then
    ask (.read limit (some idleChaffTick))
  else
    ask (.read limit none)

variable [FromIo ε]

def handleFrame (emit : Frame → Option Bytes) (wrote : Bool) (frame : Frame) : Sock ε Bool := do
  match emit frame with
  | some out =>
    writeAll .leg out
    return true
  | none => return wrote

def drainFrames (target : Target) (emit : Frame → Option Bytes) (buf : Bytes)
    : Sock ε (Bool × Bytes) :=
  (decoder target .default).processM (handleFrame emit)
    (fun e => throw (FromIo.fromIo (.invalidData e))) false buf

def flushIf (wrote : Bool) : Sock ε Unit := if wrote then flush .leg else pure ()

/--
One turn of the loops that take frames from the client. Their reads have no timer, so a `timeout` is
just more waiting.
-/
def forwardFrames (target : Target) (emit : Frame → Option Bytes) (buf : Bytes)
    : Sock ε (Bytes ⊕ Unit) := do
  let (wrote, buf) ← drainFrames target emit buf
  flushIf wrote
  match ← ask (.read none none) with
  | .eof =>
    shutdown .leg
    return .inr ()
  | .data bytes _ => return .inl (buf ++ bytes)
  | .err e => throw (FromIo.fromIo e)
  | .timeout => return .inl buf

def deframeClientToBackend (target : Target) (buf : Bytes) : Sock ε (Bytes ⊕ Unit) :=
  forwardFrames target Tunnel.backendPayload buf

def ferryClientToUpstream (target : Target) (buf : Bytes) : Sock ε (Bytes ⊕ Unit) :=
  forwardFrames target Chain.reframe buf

def frameBackendToClient (chaffWindow opened : Nat) : Sock ε (Unit ⊕ Unit) := do
  match ← readIdle (some copyBuf) chaffWindow opened with
  | .eof =>
    shutdown .leg
    return .inr ()
  | .data bytes _ =>
    sendFrame (.data bytes)
    return .inl ()
  | .err e => throw (FromIo.fromIo e)
  | .timeout =>
    let rng ← ask .rng
    writeAll .leg (bucketCodec.encode (.chaff (Tunnel.randomChaff rng)) [])
    return .inl ()

def ferryUpstreamToClient (target : Target) (chaffWindow opened : Nat) (buf : Bytes)
    : Sock ε (Bytes ⊕ Unit) := do
  match ← readIdle none chaffWindow opened with
  | .eof =>
    shutdown .leg
    return .inr ()
  | .data bytes _ =>
    let (wrote, buf) ← drainFrames target Chain.reframe (buf ++ bytes)
    flushIf wrote
    return .inl buf
  | .err e => throw (FromIo.fromIo e)
  | .timeout =>
    let rng ← ask .rng
    writeAll .leg (bucketCodec.encode (.chaff (Chain.randomChaff rng)) [])
    return .inl buf

end Sock

open Sock

def gateOnSocket (env : GateEnv) (firstReadTimeout : Nat) : Sock IoError GateResult := do
  match ← ask (.read none (some firstReadTimeout)) with
  | .err e => throw e
  | .timeout => return .site []
  | .eof => return .site []
  | .data buf _ =>
    match tryDecodeAuth env buf (← ask .unixNow) with
    | some decision => return decision.consume buf
    | none =>
      match ← ask (.read none (some gateReadTimeout)) with
      | .eof => return .site buf
      | .data more _ =>
        let buf := buf ++ more
        match tryDecodeAuth env buf (← ask .unixNow) with
        | some decision => return decision.consume buf
        | none => return .site buf
      | .err _ => return .site buf
      | .timeout => return .site buf

section Gate

variable {τ : Type}

-- The configuration of the relay and the exporter of the TLS session with the client
variable (copier : Copier τ) (cfg : RelayConfig) (exporter : Except String (ByteArr 32))

def gateWithExporter : Sock IoError GateResult :=
  match exporter with
  | .error _ => return .site []
  | .ok exporter => gateOnSocket (cfg.gateEnv exporter) cfg.firstByte

/--
The AUTH frame of a relay. It does not look at the validity window of its capability.
-/
def ChainConfig.authFrame (crypto : Crypto) (capability : CapabilityV2) (chain : ChainConfig)
    (exporter : ByteArr 32) : Except String Frame :=
  (AuthRecordV3.fromCapability crypto capability chain.veilSk exporter).encodePayload.map .authV3

def ChainConfig.parseCapability (texts : TextCodecs) (chain : ChainConfig)
    : Except ChainError CapabilityV2 :=
  match texts.base64Decode chain.capabilityV2B64 with
  | .error e => .error (.capability s!"base64 decode: {e}")
  | .ok raw =>
    match CapabilityV2.decode raw with
    | some (capability, _) => .ok capability
    | none => .error (.capability "malformed CapabilityV2 blob")

/--
The limit is one for the whole dial, so it may also cut the AUTH frame short. Then the write fails.
-/
def dialUpstream (chain : ChainConfig) : Sock HandlerError Unit := do
  match chain.parseCapability cfg.texts with
  | .error e => throw (.chain e)
  | .ok capability =>
    match ← ask (.dialUpstream cfg.dial) with
    | .error e => throw (.chain e)
    | .ok exporter =>
      match chain.authFrame cfg.crypto capability exporter with
      | .error msg => throw (.panic msg)
      | .ok frame => ExceptT.adapt .chain (sendFrame frame : Sock ChainError Unit)

/--
Errors behind the gate end the handler, but not those of the site.
-/
def dispatchGateResult (result : GateResult) : Sock HandlerError (Route τ ⊕ Unit) :=
  match result with
  | .tunnel leftover =>
    match cfg.chain with
    | some chain => do
      dialUpstream cfg chain
      return .inl (.chain leftover)
    | none => do
      match ← ask (.openBackend cfg.dial) with
      | .error e => throw (.io e)
      | .ok () => return .inl (.tunnel leftover)
  | .site firstBytes =>
    if firstBytes = [] then
      return .inr ()
    else do
      match ← ask .connectSite with
      | .error _ => return .inr ()
      | .ok () =>
        tryCatch (do
          writeAll .site firstBytes
          return .inl (.site copier.start)) fun _ => return .inr ()

def openConnection : Sock HandlerError (Route τ ⊕ Unit) := ExceptT.mk do
  match ← (gateWithExporter cfg exporter).run with
  | .ok result => (dispatchGateResult copier cfg result).run
  | .error _ => return .ok (.inr ())

/--
What `forward_to_site` does after its first write. Its errors are only logged.
-/
def siteTurn (state : τ) : Sock HandlerError (Route τ ⊕ Unit) := ExceptT.mk do
  match ← (copyTo copier .site state).run with
  | .ok next => return .ok (next.map .site id)
  | .error _ => return .ok (.inr ())

def upTurn : Route τ → Sock HandlerError (Route τ ⊕ Unit)
  | .tunnel buf => do
    return (← deframeClientToBackend cfg.target buf).map .tunnel id
  | .chain buf => do
    return (← ferryClientToUpstream cfg.target buf).map .chain id
  | .site state => siteTurn copier state

def handleConnection : Loop SockAction (Route τ) (Except HandlerError Unit) :=
  Sock.loop (openConnection copier cfg exporter) (upTurn copier cfg)

end Gate

def forwardTunnelDown : Loop SockAction Nat (Except IoError Unit) :=
  Sock.loop
    (do
      let rng ← ask .rng
      sendFrame (.chaff (Tunnel.initialChaff rng))
      let opened ← ask .now
      return .inl opened)
    fun opened => do
      return (← frameBackendToClient idleChaffWindow opened).map (fun _ => opened) id

def forwardChainDown (target : Target) : Loop SockAction (Nat × Bytes) (Except IoError Unit) :=
  Sock.loop
    (do
      let opened ← ask .now
      return .inl (opened, []))
    fun (opened, buf) => do
      return (← ferryUpstreamToClient target idleChaffWindow opened buf).map
        (fun buf => (opened, buf)) id

end Veil
