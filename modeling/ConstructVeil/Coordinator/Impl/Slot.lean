import ConstructVeil.Util.Machine
import ConstructVeil.Coordinator.Basic

/-!
This module contains the coordinator's session slot as a machine: the calls that take its lock, and
the proxy tasks of the sessions with the tunnels they accept. Each action is one atomic step, so a
run is an interleaving of any number of starts, stops and proxy tasks.
-/

namespace Veil

/--
How far the proxy task of a session has come. It runs `run_proxy_loop`, which accepts until it
breaks and then cancels its tunnels, and takes the slot's lock once more before it exits.
-/
inductive LoopState where
  | unspawned
  | accepting
  | broken
  | returned
  | exited
  deriving DecidableEq, Repr

def LoopState.ended : LoopState → Bool
  | .unspawned => false
  | .accepting => false
  | .broken => true
  | .returned => true
  | .exited => true

/--
What a session's proxy task has: its id, the receiving end of the shutdown channel, and the token
its tunnels run under.
-/
structure Session where
  id : Nat
  signalled : Bool
  cancelled : Bool
  loop : LoopState
  deriving DecidableEq, Repr

def Session.shutDown (x : Session) : Session := { x with signalled := true, cancelled := true }

/--
The slot's handle to a session. The sender of the shutdown channel and the token are those of the
session's proxy task; `task` says which one that is.
-/
structure ActiveSession where
  id : Nat
  port : UInt16
  method : MethodId
  task : Nat
  deriving DecidableEq, Repr

inductive TunnelState where
  | running
  | finished
  | cancelled
  deriving DecidableEq, Repr

structure Tunnel where
  task : Nat
  state : TunnelState
  deriving DecidableEq, Repr

structure SlotState where
  nextSessionId : Nat
  -- Ids of the `install_session` calls that wait for the lock
  waiting : List Nat
  active : Option ActiveSession
  -- All sessions that have ever been installed, in this order
  sessions : List Session
  tunnels : List Tunnel
  deriving DecidableEq, Repr

namespace SlotState

def init : SlotState where
  nextSessionId := 0
  waiting := []
  active := none
  sessions := []
  tunnels := []

def isAlive (s : SlotState) : Bool := s.active.isSome

def port (s : SlotState) : UInt16 := (s.active.map ActiveSession.port).getD 0

/--
Replace the session of a proxy task by what `f` makes of it, if the task exists and can do so.
-/
def updateTask (s : SlotState) (task : Nat) (f : Session → Option Session) : Option SlotState :=
  match s.sessions[task]? with
  | some x => (f x).map fun y => { s with sessions := s.sessions.set task y }
  | none => none

def shutDown (s : SlotState) (session : ActiveSession) : SlotState :=
  { s with sessions := s.sessions.modify session.task Session.shutDown }

/--
Take the session out of the slot, if there is one, and shut it down.
-/
def stop (s : SlotState) : SlotState × Bool :=
  match s.active with
  | some session => ({ s.shutDown session with active := none }, true)
  | none => (s, false)

def install (s : SlotState) (id : Nat) (port : UInt16) (method : MethodId) : SlotState :=
  let s := s.stop.1
  { s with
    waiting := s.waiting.erase id
    active := some ⟨id, port, method, s.sessions.length⟩
    sessions := s.sessions ++ [⟨id, false, false, .unspawned⟩] }

end SlotState

inductive SlotAction where
  -- `install_session` draws its id
  | drawId
  -- `install_session` has the lock
  | install (id : Nat) (port : UInt16) (method : MethodId)
  -- `install_session` spawns the proxy task
  | spawn (task : Nat)
  | accept (task : Nat)
  -- The loop sees the shutdown signal and breaks
  | seeShutdown (task : Nat)
  -- The loop breaks on an error for which `accept_retry_delay` gives no delay
  | acceptFails (task : Nat)
  -- The loop, broken, cancels the token
  | cancelTunnels (task : Nat)
  -- The task has the lock, and clears the slot if it still holds its id
  | clear (task : Nat)
  -- `stop`, or the effect `StopActive`
  | stop
  -- A tunnel sees its token cancelled
  | endTunnel (tunnel : Nat)
  -- A tunnel is done with its connection
  | finishTunnel (tunnel : Nat)
  deriving DecidableEq, Repr

namespace SlotState

def step (s : SlotState) : SlotAction → Option SlotState
  | .drawId =>
    let id := s.nextSessionId + 1
    some { s with nextSessionId := id, waiting := s.waiting ++ [id] }
  | .install id port method =>
    if id ∈ s.waiting then
      some (s.install id port method)
    else
      none
  | .spawn task =>
    s.updateTask task fun x =>
      if x.loop = .unspawned then some { x with loop := .accepting } else none
  | .accept task =>
    match s.sessions[task]? with
    | some x =>
      if x.loop = .accepting then
        some { s with tunnels := s.tunnels ++ [⟨task, .running⟩] }
      else
        none
    | none => none
  | .seeShutdown task =>
    s.updateTask task fun x =>
      if x.loop = .accepting ∧ x.signalled then some { x with loop := .broken } else none
  | .acceptFails task =>
    s.updateTask task fun x =>
      if x.loop = .accepting then some { x with loop := .broken } else none
  | .cancelTunnels task =>
    s.updateTask task fun x =>
      if x.loop = .broken then some { x with cancelled := true, loop := .returned } else none
  | .clear task =>
    match s.sessions[task]? with
    | some x =>
      if x.loop = .returned then
        some
          { s with
            active := if s.active.any (·.id == x.id) then none else s.active
            sessions := s.sessions.set task { x with loop := .exited } }
      else
        none
    | none => none
  | .stop => some s.stop.1
  | .endTunnel tunnel =>
    match s.tunnels[tunnel]? with
    | some t =>
      match s.sessions[t.task]? with
      | some x =>
        if t.state = .running ∧ x.cancelled then
          some { s with tunnels := s.tunnels.set tunnel { t with state := .cancelled } }
        else
          none
      | none => none
    | none => none
  | .finishTunnel tunnel =>
    match s.tunnels[tunnel]? with
    | some t =>
      if t.state = .running then
        some { s with tunnels := s.tunnels.set tunnel { t with state := .finished } }
      else
        none
    | none => none

end SlotState

def slotMachine : Machine SlotState SlotAction := ⟨SlotState.init, SlotState.step⟩

end Veil
