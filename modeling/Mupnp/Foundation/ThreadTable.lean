import Mathlib.Data.List.Basic
import Mathlib.Tactic.Common

/-!
# Thread tables

The local states of the threads of a system. A thread that is not listed is in the initial local
state `default`, so a table is a finite map over an unbounded supply of threads and every question
about all threads is decidable. `get_set_self` and `get_set_of_ne` are the frame rules: setting the
state of one thread leaves the others alone.
-/

set_option autoImplicit false
set_option relaxedAutoImplicit false

namespace Mupnp.Foundation

/-- The local states of finitely many threads; the other ones are in the state `default`. -/
structure ThreadTable (τ σ : Type*) where
  entries : List (τ × σ)

namespace ThreadTable

variable {τ σ : Type*} [DecidableEq τ] [Inhabited σ]

/-- The table in which every thread is in its initial state. -/
def init : ThreadTable τ σ := ⟨[]⟩

/-- The local state of a thread. -/
def get (table : ThreadTable τ σ) (thread : τ) : σ := (table.entries.lookup thread).getD default

/-- Puts a thread into a local state. -/
def set (table : ThreadTable τ σ) (thread : τ) (state : σ) : ThreadTable τ σ :=
  ⟨(thread, state) :: table.entries.filter (·.1 ≠ thread)⟩

/-- Every thread outside of `except` that is listed is in a state with the property. -/
def allExcept (table : ThreadTable τ σ) (except : τ → Bool) (property : σ → Bool) : Bool :=
  table.entries.all fun entry ↦ except entry.1 || property entry.2

@[simp] theorem get_init (thread : τ) : (init : ThreadTable τ σ).get thread = default := rfl

@[simp] theorem get_set_self (table : ThreadTable τ σ) (thread : τ) (state : σ) :
    (table.set thread state).get thread = state := by
  simp [get, set]

omit [Inhabited σ] in
private theorem lookup_filter_of_ne {entries : List (τ × σ)} {thread other : τ}
    (hne : other ≠ thread) :
    (entries.filter (·.1 ≠ thread)).lookup other = entries.lookup other := by
  induction entries with
  | nil => rfl
  | cons entry rest ih =>
    obtain ⟨key, state⟩ := entry
    by_cases hkey : key = thread
    · have hother : (other == key) = false := by simpa [hkey] using hne
      rw [List.filter_cons_of_neg (by simpa using hkey), List.lookup_cons, hother, ih]
    · rw [List.filter_cons_of_pos (by simpa using hkey), List.lookup_cons, List.lookup_cons, ih]

@[simp] theorem get_set_of_ne {table : ThreadTable τ σ} {thread other : τ} (hne : other ≠ thread)
    (state : σ) : (table.set thread state).get other = table.get other := by
  have hother : (other == thread) = false := by simpa using hne
  rw [get, set, List.lookup_cons, hother]
  simp only [lookup_filter_of_ne hne, get]

theorem get_set (table : ThreadTable τ σ) (thread other : τ) (state : σ) :
    (table.set thread state).get other = if other = thread then state else table.get other := by
  by_cases hother : other = thread
  · rw [hother, get_set_self, if_pos rfl]
  · rw [get_set_of_ne hother, if_neg hother]

/-- A property of the initial state that holds of every listed thread outside of `except` holds of
every thread outside of it. -/
theorem get_of_allExcept {table : ThreadTable τ σ} {except : τ → Bool} {property : σ → Bool}
    (hall : table.allExcept except property) (hdefault : property default) {thread : τ}
    (hthread : except thread = false) : property (table.get thread) := by
  rw [get]
  cases hlookup : table.entries.lookup thread with
  | none => exact hdefault
  | some state =>
    have hmem : (thread, state) ∈ table.entries := by
      obtain ⟨before, after, hentries, -⟩ := List.lookup_eq_some_iff.mp hlookup
      simp [hentries]
    simpa [hthread] using List.all_eq_true.mp hall (thread, state) hmem

end ThreadTable

end Mupnp.Foundation
