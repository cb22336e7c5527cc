import Mathlib.Algebra.Ring.Nat
import Mathlib.Data.List.Basic

/-!
This module contains the operations of a machine that can go wrong: reads outside of a buffer and
arithmetic whose result does not fit its type. Each of them has one lemma that says under which
condition it succeeds, so that code written with them is shown to be free of faults by following it.
-/

namespace Except

variable {ε ε' α β : Type}

@[simp]
theorem ok_bind (a : α) (f : α → Except ε β) : (.ok a : Except ε α) >>= f = f a := rfl

@[simp]
theorem pure_eq_ok (a : α) : (pure a : Except ε α) = .ok a := rfl

@[simp]
theorem mapError_ok (f : ε → ε') (a : α) : (.ok a : Except ε α).mapError f = .ok a := rfl

theorem bind_eq_ok {x : Except ε α} {f : α → Except ε β} {b : β} (h : x >>= f = .ok b)
    : ∃ a, x = .ok a ∧ f a = .ok b := by
  cases x with
  | ok a => exact ⟨a, rfl, h⟩
  | error e => cases h

theorem mapError_eq_ok {x : Except ε α} {f : ε → ε'} {a : α} (h : x.mapError f = .ok a)
    : x = .ok a := by
  cases x with
  | ok b =>
    cases h
    rfl
  | error e => cases h

end Except

inductive Fault where
  | outOfBounds
  | overflow
  -- a slice of a text that cuts through a character
  | charBoundary
  deriving DecidableEq, Repr

abbrev Checked (α : Type) : Type := Except Fault α

namespace Checked

variable {α : Type}

def add (w a b : Nat) : Checked Nat :=
  if a + b < 2 ^ w then
    .ok (a + b)
  else
    .error .overflow

def mul (w a b : Nat) : Checked Nat :=
  if a * b < 2 ^ w then
    .ok (a * b)
  else
    .error .overflow

/--
A shift of a 64 bit word that must neither exceed the width of the word nor push a bit out of it.
-/
def shiftLeft (a : UInt64) (distance : Nat) : Checked UInt64 :=
  if distance < 64 ∧ a.toNat * 2 ^ distance < 2 ^ 64 then
    .ok (a <<< UInt64.ofNat distance)
  else
    .error .overflow

def index (buf : List α) (i : Nat) : Checked α :=
  match buf[i]? with
  | some a => .ok a
  | none => .error .outOfBounds

def advance (buf : List α) (n : Nat) : Checked (List α) :=
  if n ≤ buf.length then
    .ok (buf.drop n)
  else
    .error .outOfBounds

def splitTo (buf : List α) (n : Nat) : Checked (List α × List α) :=
  if n ≤ buf.length then
    .ok (buf.take n, buf.drop n)
  else
    .error .outOfBounds

def get (buf : List α) : Checked (α × List α) :=
  match buf with
  | [] => .error .outOfBounds
  | a :: buf => .ok (a, buf)

theorem length_of_get {buf rest : List α} {a : α} (h : get buf = .ok (a, rest))
    : rest.length < buf.length := by
  cases buf with
  | nil => cases h
  | cons b buf =>
    injection h with h
    injection h with _ h
    rw [h, List.length_cons]
    omega

theorem add_eq_ok {w a b : Nat} (h : a + b < 2 ^ w) : add w a b = .ok (a + b) := if_pos h

theorem mul_eq_ok {w a b : Nat} (h : a * b < 2 ^ w) : mul w a b = .ok (a * b) := if_pos h

theorem shiftLeft_eq_ok {a : UInt64} {distance : Nat} (hdistance : distance < 64)
    (hfit : a.toNat * 2 ^ distance < 2 ^ 64)
    : shiftLeft a distance = .ok (a <<< UInt64.ofNat distance) :=
  if_pos ⟨hdistance, hfit⟩

theorem advance_eq_ok {buf : List α} {n : Nat} (h : n ≤ buf.length)
    : advance buf n = .ok (buf.drop n) := if_pos h

theorem splitTo_eq_ok {buf : List α} {n : Nat} (h : n ≤ buf.length)
    : splitTo buf n = .ok (buf.take n, buf.drop n) := if_pos h

@[simp]
theorem index_cons_zero (a : α) (buf : List α) : index (a :: buf) 0 = .ok a := rfl

@[simp]
theorem index_cons_one (a b : α) (buf : List α) : index (a :: b :: buf) 1 = .ok b := rfl

end Checked
