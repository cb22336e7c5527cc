import ConstructVeil.Util.Checked
import ConstructVeil.Protocol.Impl.Framing
import ConstructVeil.Protocol.Impl.Capability

/-!
This module contains the decoders and the varint encoder once more, on the level of the machine:
every read of a buffer and every operation of `usize`, `u32` and `u64` arithmetic is one that can
fault.
-/

namespace Veil

namespace Raw

/--
The buffer with the encoding of `value` behind what it held, and the number of bytes written.
-/
def encodeVarint (target : Target) (value : UInt64) (buf : Bytes) : Checked (Bytes × Nat) :=
  if value = 0 then
    .ok (buf ++ [0], 1)
  else
    go value buf 0
where
  go (value : UInt64) (buf : Bytes) (len : Nat) : Checked (Bytes × Nat) :=
    if h:0 < value then do
      let byte := (value &&& 0x7F).toUInt8
      let rest := value >>> 7
      have : rest.toNat < value.toNat := UInt64.toNat_shiftRight_7_lt h
      let byte :=
        if 0 < rest then
          byte ||| 0x80
        else
          byte
      let len ← Checked.add target.usizeBits len 1
      go rest (buf ++ [byte]) len
    else
      .ok (buf, len)
  termination_by value.toNat

def decodeVarintChecked (target : Target) (buf : Bytes) : Checked Varint :=
  go buf 0 0
where
  go (buf : Bytes) (result : UInt64) (bytesRead : Nat) : Checked Varint :=
    if bytesRead = varintMaxBytes then
      .ok .malformed
    else if buf.isEmpty then
      .ok .incomplete
    else
      match h:Checked.get buf with
      | .error e => .error e
      | .ok (byte, buf) => do
        have := Checked.length_of_get h
        let low7 := (byte &&& 0x7F).toUInt64
        let shift ← Checked.mul 32 7 bytesRead
        let bytesRead ← Checked.add target.usizeBits bytesRead 1
        if bytesRead = varintMaxBytes ∧ 1 < low7 then
          return .malformed
        else
          let result := result ||| (← Checked.shiftLeft low7 shift)
          if byte &&& 0x80 = 0 then
            if 1 < bytesRead ∧ low7 = 0 then
              return .malformed
            else
              return .value result bytesRead
          else
            go buf result bytesRead
  termination_by buf.length

def decodeLen (target : Target) (max : Nat) (field : LengthField) (buf : Bytes)
    : Checked (Except DecodeError (Option (Nat × Nat))) := do
  match ← decodeVarintChecked target buf with
  | .incomplete => return .ok none
  | .malformed => return .error (.malformedLen field)
  | .value v n =>
    match VeilFrontCodec.boundedLen target v max field with
    | .ok len => return .ok (some (len, n))
    | .error e => return .error e

def decode (target : Target) (codec : VeilFrontCodec) (src : Bytes)
    : Checked (Except DecodeError (Option Frame) × Bytes) := do
  if src.isEmpty then
    return (.ok none, src)
  else
    let ver ← Checked.index src 0
    if ver ≠ wireVer then
      return (.error (.unknownWireVersion ver), src)
    else if src.length < 2 then
      return (.ok none, src)
    else
      let frameType ← Checked.index src 1
      let payloadLenBuf ← Checked.advance src 2
      match ← decodeLen target codec.maxPayload .payload payloadLenBuf with
      | .error e => return (.error e, src)
      | .ok none => return (.ok none, src)
      | .ok (some (payloadLen, vbPayload)) =>
        let prePadOff ← Checked.add target.usizeBits 2 vbPayload
        if src.length ≤ prePadOff then
          return (.ok none, src)
        else
          let padLenBuf ← Checked.advance src prePadOff
          match ← decodeLen target codec.maxPayload .pad padLenBuf with
          | .error e => return (.error e, src)
          | .ok none => return (.ok none, src)
          | .ok (some (padLen, vbPad)) =>
            let headerLen ← Checked.add target.usizeBits prePadOff vbPad
            let totalLen := (VeilFrontCodec.checkedAdd target headerLen payloadLen).bind
              (VeilFrontCodec.checkedAdd target · padLen)
            match totalLen with
            | none => return (.error .malformedFrameLength, src)
            | some totalLen =>
              if src.length < totalLen then
                return (.ok none, src)
              else
                let src ← Checked.advance src headerLen
                let (payload, src) ← Checked.splitTo src payloadLen
                let src ← Checked.advance src padLen
                return (.ok (some ⟨frameType, payload⟩), src)

def copyToSlice (n : Nat) (data : Bytes) : Checked (ByteArr n × Bytes) :=
  if h:n ≤ data.length then
    .ok (ByteArr.slice data 0 n (by omega), data.drop n)
  else
    .error .outOfBounds

def getU64Le (data : Bytes) : Checked (UInt64 × Bytes) := do
  let (bytes, data) ← copyToSlice 8 data
  return (u64FromLeBytes bytes, data)

def decodeFields (k : Nat) (data : Bytes)
    : Checked (Option (CapFields k × ByteArr capSigLen × Bytes)) := do
  if data.length < CapFields.fixedLen k then
    return none
  else
    let (ticketId, data) ← copyToSlice ticketIdLen data
    let (key, data) ← copyToSlice 32 data
    let (extra, data) ← copyToSlice k data
    let (notBefore, data) ← getU64Le data
    let (notAfter, data) ← getU64Le data
    let (suiteId, data) ← Checked.get data
    let (scopeLen, data) ← Checked.get data
    if data.length < scopeLen.toNat + capSigLen then
      return none
    else
      let (scopeBytes, data) ← copyToSlice scopeLen.toNat data
      match fromUtf8 scopeBytes.val with
      | none => return none
      | some scope =>
        let (sig, data) ← copyToSlice capSigLen data
        return some (⟨ticketId, key, extra, notBefore, notAfter, suiteId, scope⟩, sig, data)

def decodeCapability (data : Bytes) : Checked (Option (Capability × Bytes)) := do
  let res ← decodeFields 0 data
  return res.map fun (f, sig, rest) => (Capability.ofFields f sig, rest)

def decodeCapabilityV2 (data : Bytes) : Checked (Option (CapabilityV2 × Bytes)) := do
  let res ← decodeFields 1 data
  return res.map fun (f, sig, rest) => (CapabilityV2.ofFields f sig, rest)

def decodePayloadV2 (payload : Bytes) : Checked (Option AuthRecordV2) := do
  match ← decodeCapability payload with
  | none => return none
  | some (capability, buf) =>
    if buf.length ≠ authcodeLen then
      return none
    else
      let (authcode, _) ← copyToSlice authcodeLen buf
      return some ⟨capability, authcode⟩

def decodePayloadV3 (payload : Bytes) : Checked (Option AuthRecordV3) := do
  match ← decodeCapabilityV2 payload with
  | none => return none
  | some (capability, buf) =>
    if buf.length ≠ clientSigLen then
      return none
    else
      let (clientSig, _) ← copyToSlice clientSigLen buf
      return some ⟨capability, clientSig⟩

end Raw

end Veil
