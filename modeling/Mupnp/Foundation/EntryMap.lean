import Mathlib.Data.List.Basic
import Mathlib.Logic.Function.Basic

/-!
# Maps written as entries

A list of names with values, read as a map: of several values of one name the last one counts
(`entryMap`). A map that entries are written over keeps its values for the names that no entry has
(`foldl_update_apply`).
-/

set_option autoImplicit false
set_option relaxedAutoImplicit false

namespace Mupnp.Foundation

variable {κ β : Type} [DecidableEq κ]

/-- One entry is written over a map. -/
def writeEntry (map : κ → Option β) (entry : κ × β) : κ → Option β :=
  Function.update map entry.1 (some entry.2)

/-- The map of a list of entries. -/
def entryMap (entries : List (κ × β)) : κ → Option β := entries.foldl writeEntry fun _ ↦ none

theorem writeEntry_apply (map : κ → Option β) (entry : κ × β) (key : κ) :
    writeEntry map entry key = (writeEntry (fun _ ↦ none) entry key).or (map key) := by
  unfold writeEntry
  by_cases hkey : key = entry.1
  · rw [hkey, Function.update_self, Function.update_self, Option.some_or]
  · rw [Function.update_of_ne hkey, Function.update_of_ne hkey, Option.none_or]

/-- Entries that are written over a map. -/
theorem foldl_writeEntry_apply (entries : List (κ × β)) (map : κ → Option β) (key : κ) :
    entries.foldl writeEntry map key = (entryMap entries key).or (map key) := by
  induction entries generalizing map with
  | nil => rfl
  | cons entry rest ih =>
    rw [entryMap, List.foldl_cons, List.foldl_cons, ih, ih (writeEntry (fun _ ↦ none) entry),
      Option.or_assoc, ← writeEntry_apply]

theorem entryMap_append (first second : List (κ × β)) (key : κ) :
    entryMap (first ++ second) key = (entryMap second key).or (entryMap first key) := by
  rw [entryMap, List.foldl_append, foldl_writeEntry_apply]
  rfl

/-- A map has the names of its entries. -/
theorem entryMap_eq_none_iff (entries : List (κ × β)) (key : κ) :
    entryMap entries key = none ↔ key ∉ entries.map Prod.fst := by
  induction entries with
  | nil => exact iff_of_true rfl List.not_mem_nil
  | cons entry rest ih =>
    rw [entryMap, List.foldl_cons, foldl_writeEntry_apply, Option.or_eq_none_iff, ih, List.map_cons,
      List.mem_cons, not_or, and_comm, writeEntry]
    refine and_congr_left fun _ ↦ ?_
    by_cases hkey : key = entry.1
    · rw [hkey, Function.update_self]
      exact iff_of_false (Option.some_ne_none _) fun hne ↦ hne rfl
    · rw [Function.update_of_ne hkey]
      exact iff_of_true rfl hkey

end Mupnp.Foundation
