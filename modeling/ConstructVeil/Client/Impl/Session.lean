import ConstructVeil.Client.Impl.Padding
import ConstructVeil.Protocol.Lemmas.Framing

/-!
This module contains the implementation of the two halves of a client session, which do no I/O of
their own.
-/

namespace Veil

open VeilFrontCodec

structure VeilFrontUp where
  strategy : WriteStrategy
  codec : VeilFrontCodec

namespace VeilFrontUp

def new (rng : Nat → Rng) : VeilFrontUp := ⟨.new rng, bucketCodec⟩

def queueLocal (up : VeilFrontUp) (data : Bytes) : VeilFrontUp :=
  { up with
    strategy := { up.strategy with payloadQueue := up.strategy.payloadQueue.push (.data data) } }

def nextWire (up : VeilFrontUp) (now : Nat) : Option Bytes × VeilFrontUp :=
  match up.strategy.nextFrame now with
  | (some frame, strategy) => (some (up.codec.encode frame []), { up with strategy := strategy })
  | (none, strategy) => (none, { up with strategy := strategy })

def waitsForLocal (up : VeilFrontUp) (now : Nat) : Bool := up.strategy.waitsForPayload now

end VeilFrontUp

structure VeilFrontDown where
  codec : VeilFrontCodec
  buf : Bytes

namespace VeilFrontDown

def new : VeilFrontDown := ⟨.default, []⟩

def feed (down : VeilFrontDown) (data : Bytes) : VeilFrontDown :=
  { down with buf := down.buf ++ data }

/--
The next DATA payload. Everything else in front of it is dropped on the way.
-/
def nextPayload (target : Target) (down : VeilFrontDown)
    : Except DecodeError (Option Bytes) × VeilFrontDown :=
  match h:(decoder target down.codec).attempt down.buf with
  | .item frame rest =>
    have := (decoder target down.codec).item_lt h
    if frame.frameType = frameTypeData then
      (.ok (some frame.payload), { down with buf := rest })
    else
      nextPayload target { down with buf := rest }
  | .wait => (.ok none, down)
  | .fail e => (.error e, down)
termination_by down.buf.length

end VeilFrontDown

end Veil
