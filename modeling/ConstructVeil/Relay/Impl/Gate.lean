import ConstructVeil.Protocol.Impl.Framing
import ConstructVeil.Protocol.Impl.Capability

/-!
This module contains the implementation of the gate: the relay looks at the first application data
of a connection and routes it to the tunnel or to the cover site. Log lines and the counters behind
them are not part of the model.
-/

namespace Veil

/--
Take the next event off a stream. A stream with no events left is at its end.
-/
def nextRead : List ReadEvent → ReadEvent × List ReadEvent
  | [] => (.eof, [])
  | event :: stream => (event, stream)

inductive GateDecision where
  | tunnel (leftover : Bytes)
  | site
  deriving DecidableEq, Repr

inductive GateResult where
  | tunnel (leftover : Bytes)
  | site (firstBytes : Bytes)
  deriving DecidableEq, Repr

/--
`buf` is everything that was read; the site has to see all of it.
-/
def GateDecision.consume (decision : GateDecision) (buf : Bytes) : GateResult :=
  match decision with
  | .tunnel leftover => .tunnel leftover
  | .site => .site buf

/--
What a relay knows about a connection when it decides: the primitives it calls, the issuer it pins,
its scope and the exporter of the TLS session.
-/
structure GateEnv where
  crypto : Crypto
  target : Target
  exporter : ByteArr 32
  issuerPubkey : ByteArr 32
  relayScope : String

def tryDecodeAuth (env : GateEnv) (buf : Bytes) (nowUnix : UInt64) : Option GateDecision :=
  match VeilFrontCodec.default.decodeOn env.target buf with
  | (.ok (some frame), decodeBuf) =>
    if frame.isAuthV2 then
      match AuthRecordV2.decodePayload frame.payload with
      | none => some .site
      | some rec =>
        if rec.verify env.crypto env.issuerPubkey env.relayScope env.exporter nowUnix then
          some (.tunnel decodeBuf)
        else
          some .site
    else if frame.isAuthV3 then
      match AuthRecordV3.decodePayload frame.payload with
      | none => some .site
      | some rec =>
        let role := rec.capability.role
        let roleOk := role == roleUser || role == roleRelay
        let valid := roleOk &&
          rec.verify env.crypto env.issuerPubkey env.relayScope role env.exporter nowUnix
        if valid then
          some (.tunnel decodeBuf)
        else
          some .site
    else
      some .site
  | (.ok none, _) => none
  | (.error _, _) => some .site

/--
Read once, and once more if the first read ends inside a frame. `now₁` and `now₂` are the clock when
the first and the second read are looked at. The second component is the stream after the reads.
-/
def gateStream (env : GateEnv) (now₁ now₂ : UInt64) (stream : List ReadEvent)
    : Except IoError GateResult × List ReadEvent :=
  match nextRead stream with
  | (.err e, stream) => (.error e, stream)
  | (.timeout, stream) => (.ok (.site []), stream)
  | (.eof, stream) => (.ok (.site []), stream)
  | (.data buf _, stream) =>
    match tryDecodeAuth env buf now₁ with
    | some decision => (.ok (decision.consume buf), stream)
    | none =>
      match nextRead stream with
      | (.eof, stream) => (.ok (.site buf), stream)
      | (.data more _, stream) =>
        let buf := buf ++ more
        match tryDecodeAuth env buf now₂ with
        | some decision => (.ok (decision.consume buf), stream)
        | none => (.ok (.site buf), stream)
      | (.err _, stream) => (.ok (.site buf), stream)
      | (.timeout, stream) => (.ok (.site buf), stream)

end Veil
