import ConstructVeil.Protocol.Lemmas.Framing

/-!
This module contains the implementation of the two halves of a tunnel: client frames are unwrapped
for the backend, backend bytes are wrapped for the client. Byte counters and log lines are not part
of the model, and a write to a socket does not fail.
-/

namespace Veil

open VeilFrontCodec

def copyBuf : Nat := 8192

def idleChaffWindow : Nat := fromSecs 3

namespace Tunnel

def chaffBuckets : List Nat := [32, 64, 128, 256, 512]

def initialChaffBuckets : List Nat := [128, 256]

def randomChaff (rng : Rng) : Bytes := rng.chaffFrom chaffBuckets (by decide)

def initialChaff (rng : Rng) : Bytes := rng.chaffFrom initialChaffBuckets (by decide)

end Tunnel

/--
One turn of a loop that reads next to a timer: how much time has passed since the tunnel was opened,
what became of the read, and the random numbers that are at hand.
-/
structure Tick where
  elapsed : Nat
  event : ReadEvent
  rng : Rng

/--
Handle one frame of the peer. `emit` says what to write for it, if anything; the flag records that
something was written.
-/
def handleFrame (emit : Frame → Option Bytes) (progress : List WriteOp × Bool) (frame : Frame)
    : List WriteOp × Bool :=
  match emit frame with
  | some out => (progress.1 ++ [.write out], true)
  | none => progress

/--
Handle all complete frames in `buf`, then flush if something was written. A decoding error ends the
loop before the flush.
-/
def drainFrames (target : Target) (emit : Frame → Option Bytes) (buf : Bytes)
    : List WriteOp × Except DecodeError Bytes :=
  match (decoder target .default).process (handleFrame emit) ([], false) buf with
  | ((ops, wrote), .ok buf) => (if wrote then ops ++ [.flush] else ops, .ok buf)
  | ((ops, _), .error e) => (ops, .error e)

/--
Handle what is buffered, read more, and so on to the end of the stream. The reads of this loop have
no timer, so a `timeout` is just more waiting.
-/
def forwardFrames (target : Target) (emit : Frame → Option Bytes) (buf : Bytes)
    (reads : List ReadEvent) : List WriteOp × Except IoError Unit :=
  match drainFrames target emit buf with
  | (ops, .error e) => (ops, .error (.invalidData e))
  | (ops, .ok buf) =>
    match reads with
    | [] => (ops ++ [.shutdown], .ok ())
    | .eof :: _ => (ops ++ [.shutdown], .ok ())
    | .err e :: _ => (ops, .error e)
    | .timeout :: reads =>
      let res := forwardFrames target emit buf reads
      (ops ++ res.1, res.2)
    | .data bytes _ :: reads =>
      let res := forwardFrames target emit (buf ++ bytes) reads
      (ops ++ res.1, res.2)

namespace Tunnel

def backendPayload (frame : Frame) : Option Bytes :=
  if frame.frameType = frameTypeData then
    some frame.payload
  else if frame.frameType = frameTypeChaff then
    none
  else
    none

def deframeClientToBackend (target : Target) (leftover : Bytes) (clientReads : List ReadEvent)
    : List WriteOp × Except IoError Unit :=
  forwardFrames target backendPayload leftover clientReads

/--
Wrap every read in a DATA frame. Inside the window a read that times out is answered with CHAFF,
which is not flushed; after it there is no timer.
-/
def frameBackendToClient (chaffWindow : Nat) (ticks : List Tick)
    : List WriteOp × Except IoError Unit :=
  match ticks with
  | [] => ([.shutdown], .ok ())
  | tick :: ticks =>
    match tick.event with
    | .eof => ([.shutdown], .ok ())
    | .err e => ([], .error e)
    | .timeout =>
      let res := frameBackendToClient chaffWindow ticks
      if tick.elapsed < chaffWindow then
        (.write (bucketCodec.encode (.chaff (randomChaff tick.rng)) []) :: res.1, res.2)
      else
        res
    | .data bytes _ =>
      let res := frameBackendToClient chaffWindow ticks
      (.write (bucketCodec.encode (.data bytes) []) :: .flush :: res.1, res.2)

def forwardTunnelToClient (rng : Rng) (ticks : List Tick) : List WriteOp × Except IoError Unit :=
  let res := frameBackendToClient idleChaffWindow ticks
  (.write (bucketCodec.encode (.chaff (initialChaff rng)) []) :: .flush :: res.1, res.2)

end Tunnel

end Veil
