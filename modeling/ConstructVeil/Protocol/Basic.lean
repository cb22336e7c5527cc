import ConstructVeil.Util.ByteSeq

/-!
This module contains the constants and the data types of the veil-front wire protocol.
-/

namespace Veil

def wireVer : UInt8 := 3

def suiteClassicV1 : UInt8 := 0x01

def frameTypeData : UInt8 := 0x01
def frameTypeChaff : UInt8 := 0x02
def frameTypeAuthV2 : UInt8 := 0x03
def frameTypeAuthV3 : UInt8 := 0x04

structure Frame where
  frameType : UInt8
  payload : Bytes
  deriving DecidableEq, Repr

namespace Frame

def data (payload : Bytes) : Frame := ⟨frameTypeData, payload⟩

def chaff (payload : Bytes) : Frame := ⟨frameTypeChaff, payload⟩

def authV2 (payload : Bytes) : Frame := ⟨frameTypeAuthV2, payload⟩

def authV3 (payload : Bytes) : Frame := ⟨frameTypeAuthV3, payload⟩

def isAuthV2 (frame : Frame) : Bool := frame.frameType == frameTypeAuthV2

def isAuthV3 (frame : Frame) : Bool := frame.frameType == frameTypeAuthV3

def isData (frame : Frame) : Bool := frame.frameType == frameTypeData

def isChaff (frame : Frame) : Bool := frame.frameType == frameTypeChaff

@[simp] theorem isData_data (payload : Bytes) : (data payload).isData = true := rfl
@[simp] theorem isData_chaff (payload : Bytes) : (chaff payload).isData = false := rfl
@[simp] theorem payload_data (payload : Bytes) : (data payload).payload = payload := rfl
@[simp] theorem payload_chaff (payload : Bytes) : (chaff payload).payload = payload := rfl

theorem eq_data_of_isData {frame : Frame} (h : frame.isData = true)
    : frame = data frame.payload := by
  rcases frame with ⟨frameType, payload⟩
  simp only [isData, beq_iff_eq] at h
  simp [data, h]

theorem isChaff_of_isData {frame : Frame} (h : frame.isData = true) : frame.isChaff = false := by
  rw [eq_data_of_isData h]
  rfl

end Frame

def dataPayloads (frames : List Frame) : List Bytes :=
  (frames.filter Frame.isData).map Frame.payload

@[simp]
theorem dataPayloads_nil : dataPayloads [] = [] := rfl

@[simp]
theorem dataPayloads_append (fs gs : List Frame)
    : dataPayloads (fs ++ gs) = dataPayloads fs ++ dataPayloads gs := by
  simp [dataPayloads]

@[simp]
theorem dataPayloads_data (payload : Bytes) (fs : List Frame)
    : dataPayloads (Frame.data payload :: fs) = payload :: dataPayloads fs := by
  simp [dataPayloads, List.filter_cons]

@[simp]
theorem dataPayloads_chaff (payload : Bytes) (fs : List Frame)
    : dataPayloads (Frame.chaff payload :: fs) = dataPayloads fs := by
  simp [dataPayloads]

@[simp]
theorem dataPayloads_map_data (payloads : List Bytes)
    : dataPayloads (payloads.map Frame.data) = payloads := by
  induction payloads with
  | nil => rfl
  | cons payload payloads ih => simp [ih]

theorem filter_isData (fs : List Frame)
    : fs.filter Frame.isData = (dataPayloads fs).map Frame.data := by
  induction fs with
  | nil => rfl
  | cons f fs ih =>
    cases hf : f.isData with
    | true =>
      rw [Frame.eq_data_of_isData hf]
      simp [List.filter_cons, ih]
    | false =>
      rw [List.filter_cons_of_neg (by simp [hf]), ih]
      simp [dataPayloads, hf]

inductive LengthField where
  | payload
  | pad
  deriving DecidableEq, Repr

/--
Why the frame decoder rejects a buffer; all of them are `InvalidData` errors.
-/
inductive DecodeError where
  | unknownWireVersion (ver : UInt8)
  | malformedLen (field : LengthField)
  | malformedFrameLength
  | tooLarge (field : LengthField) (len : UInt64) (max : Nat)
  deriving DecidableEq, Repr

def hexByte (b : UInt8) : String :=
  String.ofList [Nat.digitChar (b.toNat / 16), Nat.digitChar (b.toNat % 16)]

def LengthField.what : LengthField → String
  | .payload => "payload"
  | .pad => "pad"

def DecodeError.message : DecodeError → String
  | .unknownWireVersion ver =>
    "unknown wire version: got 0x" ++ hexByte ver ++ ", expected 0x" ++ hexByte wireVer
  | .malformedLen .payload => "malformed frame header: payload_len"
  | .malformedLen .pad => "malformed frame header: pad_len"
  | .malformedFrameLength => "malformed frame header: frame length"
  | .tooLarge field len max =>
    s!"frame {field.what} too large: {len} bytes (max {max})"

inductive IoError where
  | socket (code : Nat)
  | invalidData (e : DecodeError)
  deriving DecidableEq, Repr

/--
One thing that can happen to a pending read. A read that returns `0` bytes is the end of the stream;
`timeout` is the expiry of a timer that runs next to the read.
-/
inductive ReadEvent where
  | data (bytes : Bytes) (hne : bytes ≠ [])
  | eof
  | err (e : IoError)
  | timeout
  deriving DecidableEq

namespace ReadEvent

def bytes : ReadEvent → Option Bytes
  | .data bytes _ => some bytes
  | .eof => none
  | .err _ => none
  | .timeout => none

/--
The bytes a peer that reads until the end or the first error gets to see.
-/
def received : List ReadEvent → Bytes
  | [] => []
  | .data bytes _ :: events => bytes ++ received events
  | .timeout :: events => received events
  | .eof :: _ => []
  | .err _ :: _ => []

end ReadEvent

inductive WriteOp where
  | write (bytes : Bytes)
  | flush
  | shutdown
  deriving DecidableEq, Repr

def written (ops : List WriteOp) : Bytes :=
  ops.flatMap fun op =>
    match op with
    | .write bytes => bytes
    | .flush => []
    | .shutdown => []

@[simp]
theorem written_nil : written [] = [] := rfl

@[simp]
theorem written_append (xs ys : List WriteOp) : written (xs ++ ys) = written xs ++ written ys := by
  simp [written]

@[simp]
theorem written_write (bytes : Bytes) (ops : List WriteOp)
    : written (.write bytes :: ops) = bytes ++ written ops := by
  simp [written]

@[simp]
theorem written_flush (ops : List WriteOp) : written (.flush :: ops) = written ops := by
  simp [written]

@[simp]
theorem written_shutdown (ops : List WriteOp) : written (.shutdown :: ops) = written ops := by
  simp [written]

theorem written_map_write (outs : List Bytes) : written (outs.map .write) = outs.flatten := by
  induction outs with
  | nil => rfl
  | cons out outs ih => simp [ih]

/--
Durations and points in time are in nanoseconds.
-/
def fromMillis (ms : Nat) : Nat := ms * 1000000

def fromSecs (secs : Nat) : Nat := secs * 1000000000

/--
What a random number generator answers to the calls that build one chaff frame. Nothing is assumed
about the answers but their ranges.
-/
structure Rng where
  genRange : (lo hi : Nat) → lo < hi → { i : Nat // lo ≤ i ∧ i < hi }
  roll : Rat
  fillBytes : (n : Nat) → ByteArr n

def zeroRng : Rng := ⟨fun lo _ h => ⟨lo, Nat.le_refl lo, h⟩, 0, fun n => .fill n 0⟩

def Rng.chaffFrom (rng : Rng) (buckets : List Nat) (h : 0 < buckets.length) : Bytes :=
  let i := rng.genRange 0 buckets.length h
  let len := buckets.get ⟨i.val, i.property.2⟩
  (rng.fillBytes len).val

theorem Rng.length_chaffFrom_le {rng : Rng} {buckets : List Nat} {h : 0 < buckets.length}
    {max : Nat} (hmax : ∀ b ∈ buckets, b ≤ max) : (rng.chaffFrom buckets h).length ≤ max := by
  simp only [chaffFrom, ByteArr.length_val]
  exact hmax _ (List.get_mem buckets _)

end Veil
