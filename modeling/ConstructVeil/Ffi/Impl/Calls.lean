import ConstructVeil.Util.Lock
import ConstructVeil.Ffi.Impl.Start

/-!
This module contains the calls of an app from several threads at once: `veil_start` under its lock,
the calls that take no lock, and the probes that are left over from an earlier start and may still
record why they failed.
-/

namespace Veil

inductive QueryAction : Type → Type where
  | isAlive : QueryAction Bool
  | port : QueryAction UInt16

abbrev HostAction (α : Type) := QueryAction α ⊕ FfiAction α

/--
A call of the app. The lock is `START`, and a start that panics has no result.
-/
abbrev Call := Prog (WithLock (Option Int) HostAction)

/--
What the calls share besides the lock. The coordinator is set at most once and never replaced.
-/
structure FfiState where
  coordinator : Bool
  lastError : String
  deriving DecidableEq, Repr

/--
While a start runs, its probes record the failures that they meet.
-/
def FfiState.Handles : Handler HostAction FfiState := fun _ s action answer s' =>
  match action, answer with
  | .inl _, _ => s' = s
  | .inr (.inl .hasCoordinator), r => r = s.coordinator ∧ s' = s
  | .inr (.inl (.setCoordinator _)), r => r = !s.coordinator ∧ s' = { s with coordinator := true }
  | .inr (.inl .stop), _ => s' = s
  | .inr (.inl (.connect _)), _ => s' = s
  | .inr (.inl .migrate), _ => s' = s
  | .inr (.inl .lastError), r => r = s.lastError ∧ s' = s
  | .inr (.inl (.output .clearError)), _ => s' = { s with lastError := "" }
  | .inr (.inl (.output (.recordError msg))), _ => s' = { s with lastError := msg }
  | .inr (.inl (.output _)), _ => s' = s
  | .inr (.inr _), _ => s' = s ∨ ∃ msg, msg ≠ "" ∧ s' = { s with lastError := msg }

section Calls

variable (hash : FingerprintHash) (ioText : IoError → String)

def ofFfi {α : Type} (p : Ffi α) : Prog HostAction α := p.lift fun _ => Sum.inr

def ofHost {α : Type} (p : Prog HostAction α) : Call α := p.lift fun _ => Sum.inr

/--
The lock is released when the closure is left, so a panic is recorded without it.
-/
def lockedStart (req : VeilStartRequest) (outIsNull : Bool) : Call Int := do
  .perform (.inl .lock)
  let value ← ofHost (ofFfi (startBody hash ioText req outIsNull))
  .perform (.inl (.unlock value.toOption))
  ofHost (ofFfi (ffiGuard (-1) value))

def veilStop : Prog HostAction Int := do
  if ← .perform (.inr (.inl .hasCoordinator)) then
    if ← .perform (.inr (.inl .stop)) then
      return 0
    else
      return -1
  else
    return -1

def veilIsAlive : Prog HostAction Int := do
  if ← .perform (.inr (.inl .hasCoordinator)) then
    if ← .perform (.inl .isAlive) then
      return 1
    else
      return 0
  else
    return 0

def veilPort : Prog HostAction Int := do
  if ← .perform (.inr (.inl .hasCoordinator)) then
    return (← .perform (.inl .port)).toNat
  else
    return 0

/--
The number that is returned; what is copied is not part of the model.
-/
def veilLastError : Prog HostAction Int := do
  let s ← .perform (.inr (.inl .lastError))
  return (asBytes s).length

def lateProbe (msg : String) : Prog HostAction Int := do
  .perform (.inr (.inl (.output (.recordError msg))))
  return 0

inductive IsCall : Call Int → Prop where
  | start (req : VeilStartRequest) (outIsNull : Bool)
    : IsCall (lockedStart hash ioText req outIsNull)
  | stop : IsCall (ofHost veilStop)
  | isAlive : IsCall (ofHost veilIsAlive)
  | port : IsCall (ofHost veilPort)
  | lastError : IsCall (ofHost veilLastError)
  | lateProbe (msg : String) (h : msg ≠ "") : IsCall (ofHost (lateProbe msg))

end Calls

end Veil
