import ConstructVeil.Conn.Basic

/-!
This module contains the client's side of a connection as a program: the dial, the AUTH frame, and
the two directions of the ferry.
-/

namespace Veil

instance : FromIo Abort := ⟨fun e => .error (.io e)⟩

instance : FromIo ObfuscatorError := ⟨.io⟩

structure ClientConfig where
  crypto : Crypto
  texts : TextCodecs
  capabilityB64 : String
  authV3 : VeilFrontAuthV3
  -- The answers of the random number generator to the padding
  rng : Nat → Rng

def idleTick : Nat := fromMillis 20

def tlsAndAuthTimeout : Nat := fromSecs 10

namespace Sock

def authenticateOver (cfg : ClientConfig) (exporter : ByteArr 32) : Sock Abort Unit := do
  match authFrame cfg.crypto cfg.texts (← ask .unixNow) exporter cfg.capabilityB64 cfg.authV3 with
  | .error e => throw e
  | .ok frame => sendFrame frame

/--
The handshake and the AUTH frame share a limit. A write that it cuts short is a timeout.
-/
def dialAndAuthenticate (cfg : ClientConfig) : Sock Abort Unit := do
  match ← ask .dialRelay with
  | .error e => throw (.error e)
  | .ok exporter =>
    tryCatch (authenticateOver cfg exporter) fun
      | .error (.io e) => do
        if ← ask (.expired tlsAndAuthTimeout) then
          throw (.error .timeout)
        else
          throw (.error (.io e))
      | e => throw e

variable {ε : Type} [FromIo ε]

def sendNext (up : VeilFrontUp) : Sock ε VeilFrontUp := do
  match up.nextWire (← ask .now) with
  | (some wire, up) =>
    sendWire wire
    return up
  | (none, up) => return up

/--
Local data is waited for with no timer once there is no chaff left to send.
-/
def readLocal (up : VeilFrontUp) : Sock ε ReadEvent := do
  if up.waitsForLocal (← ask .now) then
    ask (.read (some localBuf) none)
  else
    ask (.read (some localBuf) (some idleTick))

def ferryUp (up : VeilFrontUp) : Sock ε (VeilFrontUp ⊕ VeilFrontUp) := do
  match ← readLocal up with
  | .eof =>
    shutdown .leg
    return .inr up
  | .data bytes _ => return .inl (← sendNext (up.queueLocal bytes))
  | .err e => throw (FromIo.fromIo e)
  | .timeout => return .inl (← sendNext up)

def drainPayloads (target : Target) (down : VeilFrontDown) : Sock ε VeilFrontDown :=
  match h:down.nextPayload target with
  | (.ok (some payload), down') => do
    have := VeilFrontDown.buf_nextPayload_lt h
    writeAll .app payload
    drainPayloads target down'
  | (.ok none, down') => return down'
  | (.error e, _) => throw (FromIo.fromIo (.invalidData e))
termination_by down.buf.length

def ferryDown (target : Target) (down : VeilFrontDown) : Sock ε (VeilFrontDown ⊕ Unit) := do
  let down ← drainPayloads target down
  match ← ask (.read (some localBuf) none) with
  | .eof =>
    shutdown .app
    return .inr ()
  | .data bytes _ => return .inl (down.feed bytes)
  | .err e => throw (FromIo.fromIo e)
  | .timeout => return .inl down

end Sock

def openFerryUp (cfg : ClientConfig) : Loop SockAction VeilFrontUp (Except Abort VeilFrontUp) :=
  Sock.loop
    (do
      Sock.dialAndAuthenticate cfg
      return .inl (.new cfg.rng))
    Sock.ferryUp

/--
The two halves of `run_ferry`, which is handed a relay stream that is authenticated already.
-/
def ferryUpHalf (rng : Nat → Rng)
    : Loop SockAction VeilFrontUp (Except ObfuscatorError VeilFrontUp) :=
  Sock.loop (return .inl (.new rng)) Sock.ferryUp

def openFerryDown (target : Target) : Loop SockAction VeilFrontDown (Except ObfuscatorError Unit) :=
  Sock.loop (return .inl .new) (Sock.ferryDown target)

end Veil
