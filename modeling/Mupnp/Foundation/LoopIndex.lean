import Mathlib.Algebra.Group.Int.Defs
import Mathlib.Data.Int.Notation
import Mathlib.Data.Nat.Notation
import Mathlib.Tactic.Common

/-!
# Indices of a loop

An index counts up and down in a machine type: an unsigned 64-bit size wraps around at both ends,
and a signed 32-bit integer must not leave its range, so that a step beyond it has no result. For a
comparison with a size both are taken modulo `2 ^ 64`.

`advance_of_le` says that counting up is addition below the last value of the type, and
`advance_int_of_lt` that a signed index does not get beyond it.
-/

set_option autoImplicit false
set_option relaxedAutoImplicit false

namespace Mupnp.Foundation

/-- The type of an index. -/
inductive IndexType where
  | size
  | int
  deriving DecidableEq

namespace IndexType

/-- The largest index. -/
def last : IndexType → ℤ
  | size => 2 ^ 64 - 1
  | int => 2 ^ 31 - 1

/-- `index++`. -/
def incr : IndexType → ℤ → Option ℤ
  | size, index => some ((index + 1) % 2 ^ 64)
  | int, index => if index = 2 ^ 31 - 1 then none else some (index + 1)

/-- `index--`. -/
def decr : IndexType → ℤ → Option ℤ
  | size, index => some ((index - 1) % 2 ^ 64)
  | int, index => if index = -2 ^ 31 then none else some (index - 1)

/-- An index as it is compared with a size. -/
def asSize (index : ℤ) : ℤ := index % 2 ^ 64

/-- `index++`, a number of times. -/
def advance (ix : IndexType) : ℕ → ℤ → Option ℤ
  | 0, index => some index
  | count + 1, index => (ix.incr index).bind (advance ix count)

variable {ix : IndexType}

theorem incr_of_lt {index : ℤ} (hpos : 0 ≤ index) (hlt : index < ix.last) :
    ix.incr index = some (index + 1) := by
  cases ix with
  | size =>
    have hmod : (index + 1) % 2 ^ 64 = index + 1 := by
      rw [last] at hlt
      omega
    rw [incr, hmod]
  | int =>
    have hne : index ≠ 2 ^ 31 - 1 := by
      rw [last] at hlt
      omega
    rw [incr, if_neg hne]

theorem decr_of_pos {index : ℤ} (hpos : 0 < index) (hle : index ≤ ix.last) :
    ix.decr index = some (index - 1) := by
  cases ix with
  | size =>
    have hmod : (index - 1) % 2 ^ 64 = index - 1 := by
      rw [last] at hle
      omega
    rw [decr, hmod]
  | int =>
    have hne : index ≠ -2 ^ 31 := by omega
    rw [decr, if_neg hne]

theorem asSize_of_le {index : ℤ} (hpos : 0 ≤ index) (hle : index ≤ ix.last) :
    asSize index = index := by
  unfold asSize
  cases ix with
  | size =>
    rw [last] at hle
    omega
  | int =>
    rw [last] at hle
    omega

theorem advance_add (first second : ℕ) (index : ℤ) :
    ix.advance (first + second) index = (ix.advance first index).bind (ix.advance second) := by
  induction first generalizing index with
  | zero => rw [Nat.zero_add, advance, Option.bind_some]
  | succ count ih =>
    rw [Nat.succ_add, advance, advance, Option.bind_assoc]
    exact Option.bind_congr fun next _ ↦ ih next

theorem advance_one (index : ℤ) : ix.advance 1 index = ix.incr index := by
  rw [advance]
  cases ix.incr index with
  | none => rfl
  | some next => rfl

/-- Below the last value, counting up is addition. -/
theorem advance_of_le {index : ℤ} {count : ℕ} (hpos : 0 ≤ index)
    (hle : index + count ≤ ix.last) : ix.advance count index = some (index + count) := by
  induction count generalizing index with
  | zero => exact congrArg some (Int.add_zero index).symm
  | succ count ih =>
    have hnext : index + 1 + count = index + (count + 1 : ℕ) := by omega
    rw [advance, incr_of_lt hpos (by omega), Option.bind_some, ih (by omega) (by omega), hnext]

/-- A signed index does not get beyond its last value. -/
theorem advance_int_of_lt {index : ℤ} {count : ℕ} (hpos : 0 ≤ index) (hle : index ≤ int.last)
    (hlt : int.last < index + count) : int.advance count index = none := by
  induction count generalizing index with
  | zero => omega
  | succ count ih =>
    by_cases hlast : index = int.last
    · rw [advance, hlast]
      rfl
    · rw [advance, incr_of_lt hpos (by omega), Option.bind_some]
      exact ih (by omega) (by omega) (by omega)

end IndexType

end Mupnp.Foundation
