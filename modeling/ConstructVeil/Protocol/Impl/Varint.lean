import ConstructVeil.Util.Leb128

/-!
This module contains the implementation of the varint codec for the length fields of a frame.
-/

namespace Veil

/--
LEB128 uses 7 bits per byte, so `u64::MAX` needs 10 bytes.
-/
def varintMaxBytes : Nat := 10

def encodeVarint (value : UInt64) : Bytes :=
  if value = 0 then
    [0]
  else
    go value
where
  go (value : UInt64) : Bytes :=
    if h:0 < value then
      let byte := (value &&& 0x7F).toUInt8
      let rest := value >>> 7
      have : rest.toNat < value.toNat := by
        have hpos := UInt64.lt_iff_toNat_lt.mp h
        have hrest : rest.toNat = value.toNat / 128 := UInt64.toNat_shiftRight_7 value
        simp only [UInt64.toNat_zero] at hpos
        omega
      let byte :=
        if 0 < rest then
          -- continuation bit
          byte ||| 0x80
        else
          byte
      byte :: go rest
    else
      []
  termination_by value.toNat

/--
Outcome of decoding a varint from a buffer that may hold only part of it.
-/
inductive Varint where
  | value (v : UInt64) (n : Nat)
  | incomplete
  | malformed
  deriving DecidableEq, Repr

def decodeVarintChecked (buf : Bytes) : Varint :=
  go buf 0 0
where
  go (buf : Bytes) (result : UInt64) (bytesRead : Nat) : Varint :=
    if bytesRead = varintMaxBytes then
      -- a 10th byte with the continuation bit set
      .malformed
    else
      match buf with
      | [] => .incomplete
      | byte :: buf =>
        let low7 := (byte &&& 0x7F).toUInt64
        let shift := 7 * bytesRead
        let bytesRead := bytesRead + 1
        -- the 10th byte holds only bit 63
        if bytesRead = varintMaxBytes ∧ 1 < low7 then
          .malformed
        else
          let result := result ||| (low7 <<< UInt64.ofNat shift)
          if byte &&& 0x80 = 0 then
            -- a last byte of 0 after other bytes is an overlong encoding
            if 1 < bytesRead ∧ low7 = 0 then
              .malformed
            else
              .value result bytesRead
          else
            go buf result bytesRead

end Veil
