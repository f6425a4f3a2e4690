import Mathlib.Data.List.Basic
import Mathlib.Tactic.Common

/-!
# Arrays with checked accesses

An array is the list of its cells, and an access outside it has no result. The lemmas are about an
array that is cut at the cell, or at the cells, that an access is about. A list with an end mark
behind it is found again in an array up to the first mark (`markIndex_append`, `upToMark_append`).
-/

set_option autoImplicit false
set_option relaxedAutoImplicit false

namespace Mupnp.Foundation

namespace CellArray

variable {α : Type}

/-- The value of a cell. -/
def load (cells : List α) (index : ℕ) : Option α := cells[index]?

/-- Stores a value in a cell. -/
def store (cells : List α) (index : ℕ) (value : α) : Option (List α) :=
  if index < cells.length then some (cells.set index value) else none

/-- Stores values in cells one behind the other. -/
def storeAll (cells : List α) (index : ℕ) (values : List α) : Option (List α) :=
  if index + values.length ≤ cells.length then
    some (cells.take index ++ (values ++ cells.drop (index + values.length)))
  else none

variable {front middle back values : List α} {index : ℕ} {old value : α}

theorem load_append (hindex : index = front.length) :
    load (front ++ value :: back) index = some value := by
  rw [load, hindex, List.getElem?_append_right (Nat.le_refl _), Nat.sub_self]
  rfl

theorem store_append (hindex : index = front.length) :
    store (front ++ old :: back) index value = some (front ++ value :: back) := by
  have hlt : index < (front ++ old :: back).length := by
    rw [hindex, List.length_append, List.length_cons]
    omega
  rw [store, if_pos hlt, hindex, List.set_append_right _ _ (Nat.le_refl _), Nat.sub_self,
    List.set_cons_zero]

theorem storeAll_append (hindex : index = front.length) (hlength : middle.length = values.length) :
    storeAll (front ++ (middle ++ back)) index values = some (front ++ (values ++ back)) := by
  have hle : index + values.length ≤ (front ++ (middle ++ back)).length := by
    rw [hindex, ← hlength, List.length_append, List.length_append]
    omega
  rw [storeAll, if_pos hle, hindex, List.take_left, ← hlength, List.drop_length_add_append,
    List.drop_left]

theorem length_of_store {cells stored : List α} (h : store cells index value = some stored) :
    stored.length = cells.length := by
  unfold store at h
  split_ifs at h
  rw [← Option.some.inj h, List.length_set]

/-! ### End marks -/

variable [DecidableEq α] {mark : α}

/-- The index of the first end mark. -/
def markIndex (mark : α) (cells : List α) : Option ℕ :=
  let before := cells.takeWhile (· ≠ mark)
  if before.length < cells.length then some before.length else none

/-- What stands in front of the first end mark. -/
def upToMark (mark : α) (cells : List α) : List α := cells.takeWhile (· ≠ mark)

theorem upToMark_append (h : mark ∉ front) : upToMark mark (front ++ mark :: back) = front := by
  unfold upToMark
  rw [List.takeWhile_append_of_pos fun c hc ↦ decide_eq_true (ne_of_mem_of_not_mem hc h)]
  simp

theorem markIndex_append (h : mark ∉ front) :
    markIndex mark (front ++ mark :: back) = some front.length := by
  have hfront : (front ++ mark :: back).takeWhile (· ≠ mark) = front := upToMark_append h
  unfold markIndex
  simp only [hfront]
  refine if_pos ?_
  rw [List.length_append, List.length_cons]
  omega

theorem exists_markIndex {cells : List α} (h : mark ∈ cells) :
    ∃ index, markIndex mark cells = some index := by
  obtain ⟨front, back, rfl, hfront⟩ := List.eq_append_cons_of_mem h
  exact ⟨_, markIndex_append hfront⟩

end CellArray

end Mupnp.Foundation
