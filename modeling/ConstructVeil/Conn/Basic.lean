import ConstructVeil.Util.Pipe
import ConstructVeil.Client.Impl.Adapter

/-!
This module contains what the code of a connection does to its sockets and to the rest of the
outside. A read or a write may fail at any time, and a write that fails may have got a part of its
bytes through.
-/

namespace Veil

/--
Where a connection writes to: the TLS stream of its other leg, the cover site, or the app.
-/
inductive Port where
  | leg
  | site
  | app
  deriving DecidableEq, Repr

def Port.buffered : Port → Bool
  | .leg => true
  | .site => false
  | .app => false

inductive ChainError where
  | io (e : IoError)
  | tls (msg : String)
  | capability (msg : String)
  deriving DecidableEq, Repr

inductive SockAction : Type → Type where
  -- `limit` is the size of the buffer and `timer` how long the read may take
  | read (limit timer : Option Nat) : SockAction ReadEvent
  | write (port : Port) (bytes : Bytes) : SockAction (Except IoError Unit)
  | flush (port : Port) : SockAction (Except IoError Unit)
  | shutdown (port : Port) : SockAction (Except IoError Unit)
  | connectSite : SockAction (Except IoError Unit)
  | openBackend (limit : Nat) : SockAction (Except IoError Unit)
  -- TCP and TLS, answered by the exporter of the new session
  | dialUpstream (limit : Nat) : SockAction (Except ChainError (ByteArr 32))
  | dialRelay : SockAction (Except ObfuscatorError (ByteArr 32))
  -- Whether a timer of `limit`, which was started before, has run out
  | expired (limit : Nat) : SockAction Bool
  | unixNow : SockAction UInt64
  | now : SockAction Nat
  | rng : SockAction Rng

inductive CopyAction : Type → Type where
  | read (limit : Option Nat) : CopyAction ReadEvent
  | write (bytes : Bytes) : CopyAction (Except IoError Unit)
  | flush : CopyAction (Except IoError Unit)
  | shutdown : CopyAction (Except IoError Unit)

def CopyAction.onPort {α : Type} (port : Port) : CopyAction α → SockAction α
  | .read limit => .read limit none
  | .write bytes => .write port bytes
  | .flush => .flush port
  | .shutdown => .shutdown port

/--
One direction of `tokio::io::copy_bidirectional`, turn by turn. It is not part of this code, so it
can be anything that goes from one state to the next.
-/
structure Copier (τ : Type) where
  start : τ
  turn : τ → Prog CopyAction (Except IoError (τ ⊕ Unit))

class FromIo (ε : Type) where
  fromIo : IoError → ε

instance : FromIo IoError := ⟨id⟩

abbrev Sock (ε : Type) := ExceptT ε (Prog SockAction)

namespace Sock

variable {ε α σ : Type}

def ask (action : SockAction α) : Sock ε α := ExceptT.mk do
  let answer ← Prog.perform action
  return .ok answer

def fromIo [FromIo ε] (action : SockAction (Except IoError Unit)) : Sock ε Unit := ExceptT.mk do
  let answer ← Prog.perform action
  return answer.mapError FromIo.fromIo

variable [FromIo ε]

def writeAll (port : Port) (bytes : Bytes) : Sock ε Unit := fromIo (.write port bytes)

def flush (port : Port) : Sock ε Unit := fromIo (.flush port)

def shutdown (port : Port) : Sock ε Unit := fromIo (.shutdown port)

def sendWire (wire : Bytes) : Sock ε Unit := do
  writeAll .leg wire
  flush .leg

def sendFrame (frame : Frame) : Sock ε Unit := sendWire (bucketCodec.encode frame [])

def turn (x : Sock ε (σ ⊕ α)) : Prog SockAction (σ ⊕ Except ε α) := do
  match ← x.run with
  | .ok (.inl s) => return .inl s
  | .ok (.inr a) => return .inr (.ok a)
  | .error e => return .inr (.error e)

def loop (start : Sock ε (σ ⊕ α)) (body : σ → Sock ε (σ ⊕ α)) : Loop SockAction σ (Except ε α) where
  start := start.turn
  body s := (body s).turn

def copyTo {τ : Type} (copier : Copier τ) (port : Port) (state : τ) : Sock IoError (τ ⊕ Unit) :=
  ExceptT.mk ((copier.turn state).lift fun _ => CopyAction.onPort port)

end Sock

namespace SockAction

abbrev Log := Ledger UInt8

inductive Reads (limit timer : Option Nat) (l : Log) : ReadEvent → Log → Prop where
  | data (bytes : Bytes) (hne : bytes ≠ []) (hlimit : ∀ n ∈ limit, bytes.length ≤ n)
    (hend : l.atEnd = false) : Reads limit timer l (.data bytes hne) (l.read bytes)
  | eof : Reads limit timer l .eof l.readEnd
  | err (e : IoError) : Reads limit timer l (.err e) l
  | timeout (h : timer.isSome) : Reads limit timer l .timeout l

inductive Writes (buffered : Bool) (l : Log) (bytes : Bytes)
    : Except IoError Unit → Log → Prop where
  | ok (hopen : l.closed = false)
    : Writes buffered l bytes (.ok ()) (if buffered then l.write bytes else (l.write bytes).flush)
  | error (e : IoError) (part : Bytes) (hopen : l.closed = false) (hpart : part <+: bytes)
    : Writes buffered l bytes (.error e) (l.write part)
  | closed (e : IoError) (h : l.closed = true) : Writes buffered l bytes (.error e) l

inductive Flushes (l : Log) : Except IoError Unit → Log → Prop where
  | ok : Flushes l (.ok ()) l.flush
  | error (e : IoError) : Flushes l (.error e) l

inductive Shuts (l : Log) : Except IoError Unit → Log → Prop where
  | ok : Shuts l (.ok ()) l.shut
  | error (e : IoError) : Shuts l (.error e) l

/--
Once the site is connected, the input is for its port and no other.
-/
inductive Connects (watched : Port) (l : Log) : Except IoError Unit → Log → Prop where
  | ok : Connects watched l (.ok ()) (l.divert (decide (watched ≠ .site)))
  | error (e : IoError) : Connects watched l (.error e) l

/--
What an action does to the ledger of the port that is watched. Everything else gets any answer.
-/
def Handles (watched : Port) : Handler SockAction Log := fun _ l action =>
  match action with
  | .read limit timer => Reads limit timer l
  | .write port bytes =>
    if port = watched then Writes port.buffered l bytes else fun _ l' => l' = l
  | .flush port => if port = watched then Flushes l else fun _ l' => l' = l
  | .shutdown port => if port = watched then Shuts l else fun _ l' => l' = l
  | .connectSite => Connects watched l
  | .openBackend _ => fun _ l' => l' = l
  | .dialUpstream _ => fun _ l' => l' = l
  | .dialRelay => fun _ l' => l' = l
  | .expired _ => fun _ l' => l' = l
  | .unixNow => fun _ l' => l' = l
  | .now => fun _ l' => l' = l
  | .rng => fun _ l' => l' = l

end SockAction

end Veil
