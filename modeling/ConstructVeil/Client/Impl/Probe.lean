import ConstructVeil.Client.Impl.Adapter

/-!
This module contains the implementation of the probe: after the AUTH frame it sends the HTTP/2
preface of a client through the tunnel and waits for the first DATA frame.
-/

namespace Veil

open VeilFrontCodec

def h2PrefaceAndSettings : Bytes :=
  "PRI * HTTP/2.0\r\n\r\nSM\r\n\r\n".toList.map (fun c => UInt8.ofNat c.toNat) ++
    [0, 0, 0, 4, 0, 0, 0, 0, 0]

/--
Decode what is buffered until a frame decides the probe. `none` asks for more.
-/
def probeVerdict (target : Target) (codec : VeilFrontCodec) (rxBuf : Bytes)
    : Option (Except ObfuscatorError Unit) × Bytes :=
  match h:(decoder target codec).attempt rxBuf with
  | .item frame rest =>
    have := (decoder target codec).item_lt h
    if frame.frameType = frameTypeData then
      (some (.ok ()), rest)
    else if frame.frameType = frameTypeChaff then
      probeVerdict target codec rest
    else
      (some (.error (.handshake
        ("unexpected frame type after auth: 0x" ++ hexByte frame.frameType ++
          " (routed to site?)"))),
        rest)
  | .wait => (none, rxBuf)
  | .fail e =>
    (some (.error (.handshake ("frame decode error (routed to site): " ++ e.message))), rxBuf)
termination_by rxBuf.length

inductive ProbeState where
  | reading (rxBuf : Bytes) (totalRead : Nat)
  | returned (res : Except ObfuscatorError Unit)

def maxProbeRead : Nat := 65536

def probeRead (target : Target) (state : ProbeState) (event : ReadEvent) : ProbeState :=
  match state with
  | .returned res => .returned res
  | .reading rxBuf totalRead =>
    match event with
    | .timeout => .returned (.error .timeout)
    | .err e => .returned (.error (.io e))
    | .eof => .returned (.error (.handshake "relay closed connection after auth"))
    | .data bytes _ =>
      match probeVerdict target bucketCodec (rxBuf ++ bytes) with
      | (some verdict, _) => .returned verdict
      | (none, rxBuf) =>
        if totalRead + bytes.length > maxProbeRead then
          .returned
            (.error (.handshake "received >64KB without a DATA frame (likely routed to site)"))
        else
          .reading rxBuf (totalRead + bytes.length)

def probeVeilFront (target : Target) (reads : List ReadEvent) : List WriteOp × ProbeState :=
  ([.write (bucketCodec.encode (.data h2PrefaceAndSettings) []), .flush],
    reads.foldl (probeRead target) (.reading [] 0))

end Veil
