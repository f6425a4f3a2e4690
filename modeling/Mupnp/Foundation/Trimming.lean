import Mathlib.Data.List.DropRight
import Mupnp.Foundation.CellArray
import Mupnp.Foundation.ListCut

/-!
# Trimmed lists

A list is trimmed by a property when the elements with the property are taken off at both of its
ends, as long as there are any, and everything between is kept. There is exactly one such list
(`isTrimmed_trim`, `IsTrimmed.unique`), and trimming it again gives the same list
(`IsTrimmed.isTrimmed_self`).

In an array the elements with the property are passed cell by cell (`skipWhile_front`), and
what stands behind them is moved to the front of the array (`move_to_front`).
-/

set_option autoImplicit false
set_option relaxedAutoImplicit false

namespace Mupnp.Foundation

variable {α : Type} {p : α → Bool} {text result : List α}

/-! ### The trimmed list -/

/-- A list without its longest runs of elements with a property at both of its ends. -/
structure IsTrimmed (p : α → Bool) (text result : List α) : Prop where
  cut : ∃ lead trail, (∀ c ∈ lead, p c = true) ∧ (∀ c ∈ trail, p c = true) ∧
    text = lead ++ (result ++ trail)
  head : ∀ c ∈ result.head?, p c = false
  last : ∀ c ∈ result.getLast?, p c = false

/-- Every list can be trimmed. -/
theorem isTrimmed_trim (p : α → Bool) (text : List α) :
    IsTrimmed p text ((text.dropWhile p).rdropWhile p) where
  cut := by
    refine ⟨text.takeWhile p, (text.dropWhile p).rtakeWhile p, fun c hc ↦ ?_, fun c hc ↦ ?_, ?_⟩
    · exact List.mem_takeWhile_imp hc
    · exact List.mem_rtakeWhile_imp hc
    · rw [List.rdropWhile_append_rtakeWhile, List.takeWhile_append_dropWhile]
  head c hc := by
    obtain ⟨trail, htrail⟩ := List.rdropWhile_prefix p (text.dropWhile p)
    have hfirst : (text.dropWhile p).head? = some c := by
      rw [← htrail, List.head?_append, Option.mem_def.mp hc]
      rfl
    have hhead := List.head?_dropWhile_not p text
    rw [hfirst] at hhead
    exact hhead
  last c hc := by
    obtain ⟨hne, rfl⟩ := List.mem_getLast?_eq_getLast (Option.mem_def.mp hc)
    exact eq_false_of_ne_true (List.rdropWhile_last_not p _ hne)

/-- Elements with the property behind a list that does not end with one. -/
theorem rdropWhile_append_of_last {front behind : List α}
    (hfront : ∀ c ∈ front.getLast?, p c = false) (hbehind : ∀ c ∈ behind, p c = true) :
    (front ++ behind).rdropWhile p = front := by
  have hhead : ∀ c ∈ front.reverse.head?, p c = false := by
    rw [List.head?_reverse]
    exact hfront
  have hreverse : ∀ c ∈ behind.reverse, p c = true := fun c hc ↦ hbehind c (List.mem_reverse.mp hc)
  rw [List.rdropWhile, List.reverse_append, dropWhile_append_of_head hreverse hhead,
    List.reverse_reverse]

/-- A trimmed list is what is left when the end is trimmed in front of the start. -/
theorem IsTrimmed.eq_trim (h : IsTrimmed p text result) :
    result = (text.rdropWhile p).dropWhile p := by
  obtain ⟨lead, trail, hlead, htrail, rfl⟩ := h.cut
  by_cases hnil : result = []
  · have hall : ∀ c ∈ lead ++ ([] ++ trail), p c = true := by
      intro c hc
      rw [List.nil_append] at hc
      exact (List.mem_append.mp hc).elim (hlead c) (htrail c)
    rw [hnil, List.rdropWhile_eq_nil_iff.mpr hall, List.dropWhile_nil]
  · have hlast : ∀ c ∈ (lead ++ result).getLast?, p c = false := by
      rw [List.getLast?_append_of_ne_nil _ hnil]
      exact h.last
    rw [← List.append_assoc, rdropWhile_append_of_last hlast htrail,
      dropWhile_append_of_head hlead h.head]

/-- There is one way to trim a list. -/
theorem IsTrimmed.unique {other : List α} (h : IsTrimmed p text result)
    (hother : IsTrimmed p text other) : result = other :=
  h.eq_trim.trans hother.eq_trim.symm

/-- A trimmed list is not changed by trimming it. -/
theorem IsTrimmed.isTrimmed_self (h : IsTrimmed p text result) : IsTrimmed p result result where
  cut := ⟨[], [], List.forall_mem_nil _, List.forall_mem_nil _, (List.append_nil result).symm⟩
  head := h.head
  last := h.last

theorem isTrimmed_of_forall {lead trail : List α} (hlead : ∀ c ∈ lead, p c = true)
    (htrail : ∀ c ∈ trail, p c = true) (hresult : ∀ c ∈ result, p c = false) :
    IsTrimmed p (lead ++ (result ++ trail)) result where
  cut := ⟨lead, trail, hlead, htrail, rfl⟩
  head c hc := hresult c (List.mem_of_mem_head? hc)
  last c hc := hresult c (List.mem_of_mem_getLast? hc)

/-! ### Trimming in an array -/

namespace CellArray

/-- The index behind the cells with a property, among a number of cells from an index on. -/
def skipWhile (p : α → Bool) (cells : List α) : ℕ → ℕ → Option ℕ
  | 0, index => some index
  | left + 1, index =>
    (load cells index).bind fun c ↦
      if p c then skipWhile p cells left (index + 1) else some index

theorem skipWhile_append (p : α → Bool) {front : List α} (middle back : List α) {index : ℕ}
    (hindex : index = front.length) :
    skipWhile p (front ++ (middle ++ back)) middle.length index =
      some (index + (middle.takeWhile p).length) := by
  induction middle generalizing front index with
  | nil => rfl
  | cons c middle ih =>
    have hload : load (front ++ (c :: middle ++ back)) index = some c := load_append hindex
    rw [List.length_cons, skipWhile, hload, Option.bind_some]
    by_cases hc : p c = true
    · have hcells : front ++ (c :: middle ++ back) = front ++ [c] ++ (middle ++ back) := by
        rw [List.append_assoc, List.cons_append, List.singleton_append]
      have hnext : index + 1 = (front ++ [c]).length := by
        rw [List.length_append, hindex, List.length_singleton]
      rw [if_pos hc, hcells, ih hnext, List.takeWhile_cons_of_pos hc, List.length_cons,
        Nat.add_assoc, Nat.add_comm 1]
    · rw [if_neg hc, List.takeWhile_cons_of_neg hc, List.length_nil, Nat.add_zero]

/-- The cells with a property that an array starts with. -/
theorem skipWhile_front (p : α → Bool) (front back : List α) :
    skipWhile p (front ++ back) front.length 0 = some (front.takeWhile p).length := by
  have hskip := @skipWhile_append _ p [] front back 0 rfl
  rwa [List.nil_append, Nat.zero_add] at hskip

/-- Copies a number of cells to another place, as they were before: the places may overlap. -/
def move (cells : List α) (dest source count : ℕ) : Option (List α) :=
  if source + count ≤ cells.length then
    storeAll cells dest ((cells.drop source).take count)
  else none

theorem move_to_front (front middle back : List α) :
    move (front ++ (middle ++ back)) 0 front.length middle.length =
      some (middle ++ (front ++ (middle ++ back)).drop middle.length) := by
  have hroom : front.length + middle.length ≤ (front ++ (middle ++ back)).length := by
    rw [List.length_append, List.length_append]
    omega
  have hfits : 0 + middle.length ≤ (front ++ (middle ++ back)).length := by omega
  rw [move, if_pos hroom, List.drop_left, List.take_left, storeAll, if_pos hfits, List.take_zero,
    List.nil_append, Nat.zero_add]

end CellArray

end Mupnp.Foundation
