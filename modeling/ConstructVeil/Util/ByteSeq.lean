import Mathlib.Algebra.Ring.Nat
import Mathlib.Data.List.Basic
import Mathlib.Data.List.Infix

/-!
This module contains byte sequences, byte arrays of a fixed length, the little endian encoding of
numbers and the UTF-8 bytes of strings.
-/

abbrev Bytes := List UInt8

@[ext]
structure ByteArr (n : Nat) where
  val : Bytes
  property : val.length = n
  deriving DecidableEq

namespace ByteArr

@[simp]
theorem length_val (a : ByteArr n) : a.val.length = n := a.property

def fill (n : Nat) (b : UInt8) : ByteArr n := ⟨List.replicate n b, by simp⟩

/--
The `n` bytes of `b` from `off` on. Reading past the end cannot be expressed.
-/
def slice (b : Bytes) (off n : Nat) (h : off + n ≤ b.length) : ByteArr n :=
  ⟨(b.drop off).take n, by simp; omega⟩

theorem val_slice {b : Bytes} {off n : Nat} {h : off + n ≤ b.length}
    : (slice b off n h).val = (b.drop off).take n := rfl

def getU8 (b : Bytes) (off : Nat) (h : off < b.length) : UInt8 := b.get ⟨off, h⟩

theorem slice_of_drop {b after : Bytes} {off n : Nat} {h : off + n ≤ b.length} (a : ByteArr n)
    (hd : b.drop off = a.val ++ after) : slice b off n h = a := by
  apply ByteArr.ext
  simp [slice, hd]

theorem drop_of_drop_append {b after : Bytes} {off n : Nat} (next : Nat) (a : ByteArr n)
    (hd : b.drop off = a.val ++ after) (hnext : off + n = next) : b.drop next = after := by
  rw [← hnext, ← List.drop_drop, hd]
  simp

theorem getU8_of_drop {b after : Bytes} {off : Nat} {h : off < b.length} {x : UInt8}
    (hd : b.drop off = x :: after) : getU8 b off h = x := by
  rw [← List.getElem_cons_drop h] at hd
  injection hd

theorem drop_of_drop_cons {b after : Bytes} {off : Nat} {x : UInt8} (next : Nat)
    (hd : b.drop off = x :: after) (hnext : off + 1 = next) : b.drop next = after := by
  rw [← hnext, ← List.drop_drop, hd]
  rfl

theorem drop_eq_slice_append (b : Bytes) (off n next : Nat) (h : off + n ≤ b.length)
    (hnext : off + n = next) : b.drop off = (slice b off n h).val ++ b.drop next := by
  rw [← hnext, ← List.drop_drop]
  exact (List.take_append_drop n (b.drop off)).symm

theorem drop_eq_getU8_cons (b : Bytes) (off next : Nat) (h : off < b.length)
    (hnext : off + 1 = next) : b.drop off = getU8 b off h :: b.drop next := by
  simp [← hnext, getU8]

end ByteArr

/--
The lowest `n` base 256 digits of `v`, least significant first.
-/
def leBytes : (n : Nat) → (v : Nat) → Bytes
  | 0, _ => []
  | n + 1, v => UInt8.ofNat (v % 256) :: leBytes n (v / 256)

def ofLeBytes : Bytes → Nat
  | [] => 0
  | b :: bs => b.toNat + 256 * ofLeBytes bs

@[simp]
theorem length_leBytes (n v : Nat) : (leBytes n v).length = n := by
  induction n generalizing v with
  | zero => rfl
  | succ n ih => simp [leBytes, ih]

theorem ofLeBytes_leBytes {n v : Nat} (h : v < 256 ^ n) : ofLeBytes (leBytes n v) = v := by
  induction n generalizing v with
  | zero =>
    simp only [Nat.pow_zero] at h
    simp only [leBytes, ofLeBytes]
    omega
  | succ n ih =>
    have hdiv : v / 256 < 256 ^ n := by
      rw [Nat.div_lt_iff_lt_mul (by omega)]
      rw [Nat.pow_succ] at h
      exact h
    have hmod : (UInt8.ofNat (v % 256)).toNat = v % 256 := by
      simp
    simp only [leBytes, ofLeBytes, hmod, ih hdiv]
    omega

theorem leBytes_ofLeBytes (b : Bytes) : leBytes b.length (ofLeBytes b) = b := by
  induction b with
  | nil => rfl
  | cons x xs ih =>
    have hx : x.toNat < 256 := x.toNat_lt
    have hmod : (x.toNat + 256 * ofLeBytes xs) % 256 = x.toNat := by omega
    have hdiv : (x.toNat + 256 * ofLeBytes xs) / 256 = ofLeBytes xs := by omega
    simp only [List.length_cons, leBytes, ofLeBytes, hmod, hdiv, ih]
    simp

theorem ofLeBytes_lt (b : Bytes) : ofLeBytes b < 256 ^ b.length := by
  induction b with
  | nil => simp [ofLeBytes]
  | cons x xs ih =>
    have hx : x.toNat < 256 := x.toNat_lt
    simp only [List.length_cons, ofLeBytes, Nat.pow_succ]
    omega

def u64ToLeBytes (v : UInt64) : ByteArr 8 := ⟨leBytes 8 v.toNat, by simp⟩

def u64FromLeBytes (b : ByteArr 8) : UInt64 := UInt64.ofNat (ofLeBytes b.val)

@[simp]
theorem u64FromLeBytes_toLeBytes (v : UInt64) : u64FromLeBytes (u64ToLeBytes v) = v := by
  have hv : v.toNat < 256 ^ 8 := v.toNat_lt
  simp [u64FromLeBytes, u64ToLeBytes, ofLeBytes_leBytes hv]

@[simp]
theorem u64ToLeBytes_fromLeBytes (b : ByteArr 8) : u64ToLeBytes (u64FromLeBytes b) = b := by
  have hb := ofLeBytes_lt b.val
  have hle := leBytes_ofLeBytes b.val
  rw [b.property] at hb hle
  apply ByteArr.ext
  simp only [u64FromLeBytes, u64ToLeBytes]
  rw [UInt64.toNat_ofNat_of_lt' hb]
  exact hle

theorem u64ToLeBytes_injective {v w : UInt64} (h : u64ToLeBytes v = u64ToLeBytes w) : v = w := by
  rw [← u64FromLeBytes_toLeBytes v, h, u64FromLeBytes_toLeBytes]

def asBytes (s : String) : Bytes := s.toByteArray.data.toList

def fromUtf8 (b : Bytes) : Option String := String.fromUTF8? ⟨b.toArray⟩

@[simp]
theorem fromUtf8_asBytes (s : String) : fromUtf8 (asBytes s) = some s := by
  have harr : (⟨(asBytes s).toArray⟩ : ByteArray) = s.toByteArray := by
    simp [asBytes]
  unfold fromUtf8
  rw [harr]
  simp only [String.fromUTF8?, dif_pos s.isValidUTF8]
  rfl

theorem asBytes_of_fromUtf8 {b : Bytes} {s : String} (h : fromUtf8 b = some s) : asBytes s = b := by
  simp only [fromUtf8, String.fromUTF8?] at h
  split at h
  . injection h with h
    rw [← h]
    simp [asBytes, String.fromUTF8]
  . cases h

theorem asBytes_injective {s t : String} (h : asBytes s = asBytes t) : s = t := by
  have hs := fromUtf8_asBytes s
  rw [h, fromUtf8_asBytes] at hs
  injection hs with hs
  exact hs.symm
