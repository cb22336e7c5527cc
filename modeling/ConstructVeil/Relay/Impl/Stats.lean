import ConstructVeil.Util.Atomic

/-!
This module contains the statistics of the relay: the counters to which the accept loop, the tasks
of the connections and the gate add, and the summary that takes them and starts again from 0.
-/

namespace Veil

/--
The counters of `ConnStats`, and behind them the two of the gate.
-/
inductive StatCell where
  | completed
  | handshakeTimeout
  | handshakeFailed
  | handlerError
  | shedGlobal
  | shedPerIp
  | tunnelsAdmitted
  | tunnelsAfterSecondRead
  deriving DecidableEq

inductive AdmitResult where
  | shedGlobal
  | shedPerIp
  | admitted

inductive HandshakeResult where
  | done
  | failed
  | timedOut

inductive GateVerdict where
  | error
  | site
  | tunnel (afterSecondRead : Bool)

/--
What a connection does besides counting, as far as it decides what is counted.
-/
inductive TaskAction : Type → Type where
  | admission : TaskAction AdmitResult
  | handshake : TaskAction HandshakeResult
  | gate : TaskAction GateVerdict
  -- The dial and the two directions of a tunnel, answered by `false` if they fail
  | forward : TaskAction Bool

abbrev StatAction (α : Type) := AtomicOp StatCell UInt64 α ⊕ TaskAction α

namespace StatAction

abbrev Memory := AtomicMemory StatCell UInt64

/--
Everything that happens to a connection can happen.
-/
def Handles : Handler StatAction Memory := fun _ m action answer m' =>
  match action with
  | .inl op => AtomicOp.Handles m op answer m'
  | .inr _ => m' = m

end StatAction

abbrev StatProg := Prog StatAction

namespace StatProg

def task {α : Type} (action : TaskAction α) : StatProg α := .perform (.inr action)

def fetchAdd (cell : StatCell) : StatProg Unit := do
  let _ ← Prog.perform (.inl (.fetchAdd cell 1))
  return ()

def swap (cell : StatCell) : StatProg UInt64 := .perform (.inl (.swap cell 0))

end StatProg

open StatProg

def countTunnel (afterSecondRead : Bool) : StatProg Unit := do
  if afterSecondRead then
    fetchAdd .tunnelsAfterSecondRead
    fetchAdd .tunnelsAdmitted
  else
    fetchAdd .tunnelsAdmitted

/--
The handler of a connection, from the gate on. An error of the gate or of the site is not one of the
handler.
-/
def countHandler : StatProg Bool := do
  match ← task .gate with
  | .error => return true
  | .site => return true
  | .tunnel afterSecondRead =>
    countTunnel afterSecondRead
    task .forward

def countConnection : StatProg Unit := do
  match ← task .handshake with
  | .failed => fetchAdd .handshakeFailed
  | .timedOut => fetchAdd .handshakeTimeout
  | .done =>
    fetchAdd .completed
    if ← countHandler then
      return ()
    else
      fetchAdd .handlerError

/--
A turn of the accept loop together with the task that it spawns.
-/
def countAccepted : StatProg Unit := do
  match ← task .admission with
  | .shedGlobal => fetchAdd .shedGlobal
  | .shedPerIp => fetchAdd .shedPerIp
  | .admitted => countConnection

structure ConnSummary where
  completed : UInt64
  handshakeTimeout : UInt64
  handshakeFailed : UInt64
  handlerError : UInt64
  shedGlobal : UInt64
  shedPerIp : UInt64
  tunnels : UInt64
  authAfterSecondRead : UInt64
  deriving DecidableEq

namespace ConnStats

def new : StatAction.Memory := fun _ => .new 0

/--
Silent if nothing happened.
-/
def flush : StatProg (Option ConnSummary) := do
  let completed ← swap .completed
  let handshakeTimeout ← swap .handshakeTimeout
  let handshakeFailed ← swap .handshakeFailed
  let handlerError ← swap .handlerError
  let shedGlobal ← swap .shedGlobal
  let shedPerIp ← swap .shedPerIp
  let tunnels ← swap .tunnelsAdmitted
  let authAfterSecondRead ← swap .tunnelsAfterSecondRead
  if completed ||| handshakeTimeout ||| handshakeFailed ||| handlerError ||| shedGlobal |||
      shedPerIp ||| tunnels ||| authAfterSecondRead = 0 then
    return none
  else
    return some ⟨completed, handshakeTimeout, handshakeFailed, handlerError, shedGlobal, shedPerIp,
      tunnels, authAfterSecondRead⟩

end ConnStats

inductive StatResult where
  | connection
  | summary (line : Option ConnSummary)
  deriving DecidableEq

inductive IsStatTask : StatProg StatResult → Prop where
  | connection : IsStatTask (do
      countAccepted
      return .connection)
  | summary : IsStatTask (do return .summary (← ConnStats.flush))

end Veil
