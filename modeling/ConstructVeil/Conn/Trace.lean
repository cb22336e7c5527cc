import ConstructVeil.Conn.Basic
import ConstructVeil.Util.Lockstep

/-!
This module contains what a connection does as a trace of actions with their answers.
-/

namespace Veil

inductive SockEvent where
  | read (limit timer : Option Nat) (event : ReadEvent)
  | write (port : Port) (bytes : Bytes) (res : Except IoError Unit)
  | flush (port : Port) (res : Except IoError Unit)
  | shutdown (port : Port) (res : Except IoError Unit)
  | connectSite (res : Except IoError Unit)
  | openBackend (limit : Nat) (res : Except IoError Unit)
  | dialUpstream (limit : Nat) (res : Except ChainError (ByteArr 32))
  | dialRelay (res : Except ObfuscatorError (ByteArr 32))
  | expired (limit : Nat) (res : Bool)
  | unixNow (secs : UInt64)
  | now (instant : Nat)
  | rng (rng : Rng)

namespace SockAction

variable {α σ ρ : Type}

def record : SockAction α → α → SockEvent
  | .read limit timer => .read limit timer
  | .write port bytes => .write port bytes
  | .flush port => .flush port
  | .shutdown port => .shutdown port
  | .connectSite => .connectSite
  | .openBackend limit => .openBackend limit
  | .dialUpstream limit => .dialUpstream limit
  | .dialRelay => .dialRelay
  | .expired limit => .expired limit
  | .unixNow => .unixNow
  | .now => .now
  | .rng => .rng

/--
Any action may get any answer.
-/
def Records : Handler SockAction (List SockEvent) := fun _ trace action answer trace' =>
  trace' = trace ++ [action.record answer]

end SockAction

def SockEvent.received : List SockEvent → Bytes
  | [] => []
  | .read _ _ (.data bytes _) :: trace => bytes ++ received trace
  | _ :: trace => received trace

/--
The connection is opened to something behind the relay, or something is done to it.
-/
def SockAction.toLeg {α : Type} : SockAction α → Bool
  | .write port _ => decide (port = .leg)
  | .flush port => decide (port = .leg)
  | .shutdown port => decide (port = .leg)
  | .openBackend _ => true
  | .dialUpstream _ => true
  | .dialRelay => true
  | _ => false

def SockEvent.toLeg : SockEvent → Bool
  | .write port _ _ => decide (port = .leg)
  | .flush port _ => decide (port = .leg)
  | .shutdown port _ => decide (port = .leg)
  | .openBackend _ _ => true
  | .dialUpstream _ _ => true
  | .dialRelay _ => true
  | _ => false

def SockEvent.toSite : SockEvent → Bool
  | .write port _ _ => decide (port = .site)
  | .flush port _ => decide (port = .site)
  | .shutdown port _ => decide (port = .site)
  | .connectSite _ => true
  | _ => false

/--
The loop can do what the trace says, if it gets the answers that are in it.
-/
def Performs {σ ρ : Type} (l : Loop SockAction σ ρ) (trace : List SockEvent) : Prop :=
  ∃ p, l.Reaches SockAction.Records [] (p, trace)

end Veil
