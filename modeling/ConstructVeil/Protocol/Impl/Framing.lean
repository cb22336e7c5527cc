import ConstructVeil.Protocol.Basic
import ConstructVeil.Protocol.Impl.Varint

/-!
This module contains the implementation of the frame codec. A frame on the wire is

`[ver] [type] [payload_len : varint] [pad_len : varint] [payload] [pad]`
-/

namespace Veil

def defaultMaxPayload : Nat := 1024 * 1024

def lengthBuckets : List Nat :=
  [64, 128, 192, 256, 384, 512, 768, 1024, 1536, 2048, 3072, 4096, 6144, 8192, 12288, 16384]

def pickBucket (buckets : List Nat) (payloadLen : Nat) : Nat :=
  match buckets with
  | [] => payloadLen
  | b :: buckets =>
    if payloadLen ≤ b then
      b
    else
      pickBucket buckets payloadLen

/--
The width of `usize` on the machine the codec runs on.
-/
inductive Target where
  | bits32
  | bits64
  deriving DecidableEq, Repr

def Target.usizeBits : Target → Nat
  | .bits32 => 32
  | .bits64 => 64

structure VeilFrontCodec where
  maxPayload : Nat
  buckets : Option (List Nat)
  deriving DecidableEq, Repr

namespace VeilFrontCodec

def default : VeilFrontCodec := ⟨defaultMaxPayload, none⟩

def withMaxPayload (maxPayload : Nat) : VeilFrontCodec := ⟨maxPayload, none⟩

def withBuckets (codec : VeilFrontCodec) (buckets : List Nat) : VeilFrontCodec :=
  { codec with buckets := some buckets }

def padLen (codec : VeilFrontCodec) (payloadLen : Nat) : Nat :=
  match codec.buckets with
  | some buckets => pickBucket buckets payloadLen - payloadLen
  | none => 0

/--
Append a frame to `dst`. The encoder has no failure path.
-/
def encode (codec : VeilFrontCodec) (item : Frame) (dst : Bytes) : Bytes :=
  let payloadLen := item.payload.length
  let padLen := codec.padLen payloadLen
  let dst := dst ++ [wireVer]
  let dst := dst ++ [item.frameType]
  let dst := dst ++ encodeVarint (UInt64.ofNat payloadLen)
  let dst := dst ++ encodeVarint (UInt64.ofNat padLen)
  let dst := dst ++ item.payload
  dst ++ List.replicate padLen 0

def boundedLen (target : Target) (len : UInt64) (max : Nat) (field : LengthField)
    : Except DecodeError Nat :=
  if len.toNat < 2 ^ target.usizeBits ∧ len.toNat ≤ max then
    .ok len.toNat
  else
    .error (.tooLarge field len max)

def checkedAdd (target : Target) (a b : Nat) : Option Nat :=
  if a + b < 2 ^ target.usizeBits then
    some (a + b)
  else
    none

/--
Decode one of the two length fields: its value and the number of bytes it took, or `none` if more
input is needed.
-/
def decodeLen (target : Target) (max : Nat) (field : LengthField) (buf : Bytes)
    : Except DecodeError (Option (Nat × Nat)) :=
  match decodeVarintChecked buf with
  | .incomplete => .ok none
  | .malformed => .error (.malformedLen field)
  | .value v n =>
    match boundedLen target v max field with
    | .ok len => .ok (some (len, n))
    | .error e => .error e

/--
Take one frame off `src`. The second component is what `src` is left with.
-/
def decodeOn (target : Target) (codec : VeilFrontCodec) (src : Bytes)
    : Except DecodeError (Option Frame) × Bytes :=
  match src with
  | [] => (.ok none, src)
  | ver :: tail =>
    if ver ≠ wireVer then
      (.error (.unknownWireVersion ver), src)
    else
      match tail with
      | [] => (.ok none, src)
      | frameType :: body =>
        match decodeLen target codec.maxPayload .payload body with
        | .error e => (.error e, src)
        | .ok none => (.ok none, src)
        | .ok (some (payloadLen, vbPayload)) =>
          let prePadOff := 2 + vbPayload
          if src.length ≤ prePadOff then
            (.ok none, src)
          else
            match decodeLen target codec.maxPayload .pad (src.drop prePadOff) with
            | .error e => (.error e, src)
            | .ok none => (.ok none, src)
            | .ok (some (padLen, vbPad)) =>
              let headerLen := 2 + vbPayload + vbPad
              -- both lengths are within `maxPayload`, but a huge cap could still wrap the sum
              match (checkedAdd target headerLen payloadLen).bind (checkedAdd target · padLen) with
              | none => (.error .malformedFrameLength, src)
              | some totalLen =>
                if src.length < totalLen then
                  (.ok none, src)
                else
                  let src := src.drop headerLen
                  let payload := src.take payloadLen
                  let src := src.drop payloadLen
                  (.ok (some ⟨frameType, payload⟩), src.drop padLen)

def decode (codec : VeilFrontCodec) (src : Bytes) : Except DecodeError (Option Frame) × Bytes :=
  codec.decodeOn .bits64 src

end VeilFrontCodec

def bucketCodec : VeilFrontCodec := VeilFrontCodec.default.withBuckets lengthBuckets

def Frame.encodeToBytes (frame : Frame) : Bytes :=
  [wireVer] ++ [frame.frameType] ++ encodeVarint (UInt64.ofNat frame.payload.length) ++
    encodeVarint 0 ++ frame.payload

end Veil
