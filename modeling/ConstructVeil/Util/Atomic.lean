import Mathlib.Data.List.Basic
import ConstructVeil.Util.Prog

/-!
This module contains atomic cells with relaxed accesses. The stores to a cell are ordered, and every
read-modify-write sees the latest one, but a load may see any of them.
-/

/--
A cell with everything that was stored in it, in order.
-/
structure AtomicCell (V : Type) where
  initial : V
  stores : List V

namespace AtomicCell

variable {V : Type}

def new (v : V) : AtomicCell V := ⟨v, []⟩

def value (c : AtomicCell V) : V := c.stores.getLastD c.initial

def store (c : AtomicCell V) (v : V) : AtomicCell V := { c with stores := c.stores ++ [v] }

@[simp]
theorem value_store (c : AtomicCell V) (v : V) : (c.store v).value = v := by
  simp [value, store]

theorem value_eq_of_getLast? {c : AtomicCell V} {v : V} (h : c.stores.getLast? = some v)
    : c.value = v := by
  rw [value, List.getLastD_eq_getLast?, h, Option.getD_some]

@[simp]
theorem stores_store (c : AtomicCell V) (v : V) : (c.store v).stores = c.stores ++ [v] := rfl

end AtomicCell

inductive AtomicOp (C V : Type) : Type → Type where
  | load (cell : C) : AtomicOp C V V
  | compareExchange (cell : C) (current new : V) : AtomicOp C V (Except V V)
  | fetchAdd (cell : C) (n : V) : AtomicOp C V V
  | swap (cell : C) (new : V) : AtomicOp C V V

abbrev AtomicMemory (C V : Type) := C → AtomicCell V

namespace AtomicMemory

variable {C V : Type} [DecidableEq C]

def store (m : AtomicMemory C V) (cell : C) (v : V) : AtomicMemory C V :=
  fun cell' => if cell' = cell then (m cell).store v else m cell'

@[simp]
theorem store_self (m : AtomicMemory C V) (cell : C) (v : V)
    : m.store cell v cell = (m cell).store v :=
  if_pos rfl

theorem store_of_ne (m : AtomicMemory C V) {cell cell' : C} (v : V) (h : cell' ≠ cell)
    : m.store cell v cell' = m cell' :=
  if_neg h

end AtomicMemory

def AtomicOp.Handles {C V : Type} [DecidableEq C] [DecidableEq V] [Add V]
    : Handler (AtomicOp C V) (AtomicMemory C V) := fun _ m op =>
  match op with
  | .load cell => fun v m' => v ∈ (m cell).initial :: (m cell).stores ∧ m' = m
  | .compareExchange cell current new => fun res m' =>
    if (m cell).value = current then
      res = .ok current ∧ m' = m.store cell new
    else
      res = .error (m cell).value ∧ m' = m
  | .fetchAdd cell n => fun v m' => v = (m cell).value ∧ m' = m.store cell ((m cell).value + n)
  | .swap cell new => fun v m' => v = (m cell).value ∧ m' = m.store cell new
