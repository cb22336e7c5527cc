import ConstructVeil.Util.Atomic

/-!
This module contains the rate limiter for the warning about an invalid AUTH frame, which the tasks
of all connections share.
-/

namespace Veil

-- In seconds
def invalidAuthWarnEvery : UInt64 := 60

def saturatingSub (a b : UInt64) : UInt64 := if b ≤ a then a - b else 0

inductive WarnCell where
  -- Unix seconds of the last emitted warning (0 = never)
  | last
  -- Warnings suppressed since then
  | suppressed
  deriving DecidableEq

namespace WarnLimiter

open Prog

def new : AtomicMemory WarnCell UInt64 := fun _ => .new 0

/--
The method `admit`: the count of suppressed warnings if this one may be logged.
-/
def admitWarning (nowSecs : UInt64) : Prog (AtomicOp WarnCell UInt64) (Option UInt64) := do
  let last ← perform (.load .last)
  if last ≠ 0 ∧ saturatingSub nowSecs last < invalidAuthWarnEvery then
    let _ ← perform (.fetchAdd .suppressed 1)
    return none
  else
    match ← perform (.compareExchange .last last (max nowSecs 1)) with
    | .error _ =>
      -- Another connection won the slot for this window
      let _ ← perform (.fetchAdd .suppressed 1)
      return none
    | .ok _ =>
      let suppressed ← perform (.swap .suppressed 0)
      return some suppressed

end WarnLimiter

end Veil
