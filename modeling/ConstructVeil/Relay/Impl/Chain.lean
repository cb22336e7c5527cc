import ConstructVeil.Relay.Impl.Tunnel

/-!
This module contains the implementation of chain mode, in which a relay has another relay in place
of the backend and re-frames every DATA payload for the next leg.
-/

namespace Veil

open VeilFrontCodec

namespace Chain

def chaffBuckets : List Nat := [32, 64, 128, 256, 512]

def randomChaff (rng : Rng) : Bytes := rng.chaffFrom chaffBuckets (by decide)

/--
A DATA payload gets a fresh frame; CHAFF and everything else ends at this hop.
-/
def reframe (frame : Frame) : Option Bytes :=
  if frame.frameType = frameTypeData then
    some (bucketCodec.encode (.data frame.payload) [])
  else if frame.frameType = frameTypeChaff then
    none
  else
    none

def ferryClientToUpstream (target : Target) (leftover : Bytes) (clientReads : List ReadEvent)
    : List WriteOp × Except IoError Unit :=
  forwardFrames target reframe leftover clientReads

def ferryUpstreamToClient (target : Target) (chaffWindow : Nat) (ticks : List Tick)
    : List WriteOp × Except IoError Unit :=
  go [] ticks
where
  go (buf : Bytes) (ticks : List Tick) : List WriteOp × Except IoError Unit :=
    match ticks with
    | [] => ([.shutdown], .ok ())
    | tick :: ticks =>
      match tick.event with
      | .eof => ([.shutdown], .ok ())
      | .data bytes _ =>
        match drainFrames target reframe (buf ++ bytes) with
        | (ops, .error e) => (ops, .error (.invalidData e))
        | (ops, .ok buf) =>
          let res := go buf ticks
          (ops ++ res.1, res.2)
      | .err e => ([], .error e)
      | .timeout =>
        let res := go buf ticks
        if tick.elapsed < chaffWindow then
          (.write (bucketCodec.encode (.chaff (randomChaff tick.rng)) []) :: res.1, res.2)
        else
          res

end Chain

end Veil
