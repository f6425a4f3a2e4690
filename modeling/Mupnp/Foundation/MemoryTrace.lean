import Mathlib.Data.List.Count
import Mathlib.Tactic.Common

/-!
# Memory traces

What a program does with objects that are never reused: it allocates them, uses them and frees them.
A trace is `Safe` when every object is allocated once, and is used and freed only after that and
before it is freed. A safe trace frees no object twice (`Safe.count_free_le_one`).
-/

set_option autoImplicit false
set_option relaxedAutoImplicit false

namespace Mupnp.Foundation

/-- What can happen to an object. -/
inductive MemoryEvent (ι : Type*) where
  | alloc (object : ι)
  | use (object : ι)
  | free (object : ι)
  deriving DecidableEq

namespace MemoryEvent

variable {ι : Type*}

/-- An object that was allocated and not freed, in a trace with the newest event first. -/
def Alive (trace : List (MemoryEvent ι)) (object : ι) : Prop :=
  .alloc object ∈ trace ∧ .free object ∉ trace

instance [DecidableEq ι] (trace : List (MemoryEvent ι)) (object : ι) :
    Decidable (Alive trace object) :=
  inferInstanceAs (Decidable (_ ∧ _))

/-- The next event is allowed after the trace. -/
def Allowed (trace : List (MemoryEvent ι)) : MemoryEvent ι → Prop
  | .alloc object => .alloc object ∉ trace ∧ .free object ∉ trace
  | .use object => Alive trace object
  | .free object => Alive trace object

instance [DecidableEq ι] (trace : List (MemoryEvent ι)) :
    (event : MemoryEvent ι) → Decidable (Allowed trace event)
  | .alloc _ => inferInstanceAs (Decidable (_ ∧ _))
  | .use _ => inferInstanceAs (Decidable (Alive _ _))
  | .free _ => inferInstanceAs (Decidable (Alive _ _))

/-- Every event was allowed when it happened; the newest event is first. -/
def Safe : List (MemoryEvent ι) → Prop
  | [] => True
  | event :: earlier => Allowed earlier event ∧ Safe earlier

instance decidableSafe [DecidableEq ι] : (trace : List (MemoryEvent ι)) → Decidable (Safe trace)
  | [] => .isTrue trivial
  | event :: earlier =>
    have := decidableSafe earlier
    inferInstanceAs (Decidable (Allowed earlier event ∧ Safe earlier))

variable {trace : List (MemoryEvent ι)} {object other : ι}

@[simp] theorem alive_use : Alive (.use other :: trace) object ↔ Alive trace object := by
  simp [Alive]

theorem alive_free : Alive (.free other :: trace) object ↔ Alive trace object ∧ object ≠ other := by
  simp only [Alive, List.mem_cons, reduceCtorEq, false_or, free.injEq, not_or]
  exact ⟨fun h ↦ ⟨⟨h.1, h.2.2⟩, h.2.1⟩, fun h ↦ ⟨h.1.1, h.2, h.1.2⟩⟩

@[simp] theorem alive_map_use_append {objects : List ι} :
    Alive (objects.map .use ++ trace) object ↔ Alive trace object := by
  induction objects with
  | nil => rfl
  | cons other rest ih => rw [List.map_cons, List.cons_append, alive_use, ih]

/-- Objects that are alive may be used. -/
theorem Safe.map_use_append {objects : List ι} (h : Safe trace)
    (halive : ∀ other ∈ objects, Alive trace other) : Safe (objects.map .use ++ trace) := by
  induction objects with
  | nil => exact h
  | cons other rest ih =>
    refine ⟨?_, ih fun object hobject ↦ halive object (List.mem_cons_of_mem other hobject)⟩
    exact alive_map_use_append.mpr (halive other List.mem_cons_self)

/-- In a safe trace only allocated objects are freed. -/
theorem Safe.alloc_mem_of_free_mem (h : Safe trace) (hfree : .free object ∈ trace) :
    .alloc object ∈ trace := by
  induction trace with
  | nil => cases hfree
  | cons event earlier ih =>
    rcases List.mem_cons.mp hfree with rfl | hearlier
    · exact List.mem_cons_of_mem _ h.1.1
    · exact List.mem_cons_of_mem _ (ih h.2 hearlier)

/-- The allocation of a new object makes it alive. -/
theorem Safe.alive_alloc (h : Safe trace) (hnew : .alloc other ∉ trace) :
    Alive (.alloc other :: trace) object ↔ Alive trace object ∨ object = other := by
  have hfree : .free other ∉ trace := fun hmem ↦ hnew (h.alloc_mem_of_free_mem hmem)
  simp only [Alive, List.mem_cons, reduceCtorEq, false_or, alloc.injEq]
  constructor
  · rintro ⟨rfl | halloc, hlive⟩
    · exact .inr rfl
    · exact .inl ⟨halloc, hlive⟩
  · rintro (⟨halloc, hlive⟩ | rfl)
    · exact ⟨.inr halloc, hlive⟩
    · exact ⟨.inl rfl, hfree⟩

theorem Safe.alloc (h : Safe trace) (hnew : .alloc object ∉ trace) :
    Safe (.alloc object :: trace) :=
  ⟨⟨hnew, fun hmem ↦ hnew (h.alloc_mem_of_free_mem hmem)⟩, h⟩

/-- A safe trace frees no object twice. -/
theorem Safe.count_free_le_one [DecidableEq ι] (h : Safe trace) (object : ι) :
    trace.count (.free object) ≤ 1 := by
  induction trace with
  | nil => exact Nat.zero_le 1
  | cons event earlier ih =>
    by_cases hevent : event = .free object
    · subst hevent
      have hearlier : earlier.count (.free object) = 0 := List.count_eq_zero_of_not_mem h.1.2
      exact Nat.le_of_eq (by rw [List.count_cons_self, hearlier])
    · rw [List.count_cons_of_ne hevent]
      exact ih h.2

end MemoryEvent

end Mupnp.Foundation
