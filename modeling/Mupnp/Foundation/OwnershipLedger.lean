import Mathlib.Data.List.Nodup
import Mathlib.Tactic.Common

/-!
# Ownership ledgers

A ledger records, for objects that are never reused, which were ever allocated and which were
released. `Balanced ledger live` says that the ledger and a list `live` of the objects that are
still owned agree: no object was allocated twice, and what was allocated is what is live together
with what was released. A balanced ledger is the shape of "every object is freed exactly once": the
released objects are pairwise distinct (`Balanced.freed_nodup`), none of them is live
(`Balanced.not_mem_freed`), and an allocated object that is no longer live was released
(`Balanced.mem_freed_of_not_mem`).

`Balanced.alloc` and `Balanced.free` are the rules for the two operations.
-/

set_option autoImplicit false
set_option relaxedAutoImplicit false

namespace Mupnp.Foundation

/-- The objects that were ever allocated, and those that were released. -/
structure Ledger (ι : Type*) where
  allocated : List ι
  freed : List ι

namespace Ledger

variable {ι : Type*}

/-- The ledger of a program that has allocated nothing. -/
def empty : Ledger ι := ⟨[], []⟩

/-- Objects that were never allocated and are pairwise distinct. -/
def Fresh (ledger : Ledger ι) (objects : List ι) : Prop :=
  objects.Nodup ∧ ∀ object ∈ objects, object ∉ ledger.allocated

instance [DecidableEq ι] (ledger : Ledger ι) (objects : List ι) :
    Decidable (ledger.Fresh objects) := inferInstanceAs (Decidable (_ ∧ _))

/-- Allocates objects. -/
def alloc (ledger : Ledger ι) (objects : List ι) : Ledger ι :=
  { ledger with allocated := objects ++ ledger.allocated }

/-- Releases objects. -/
def free (ledger : Ledger ι) (objects : List ι) : Ledger ι :=
  { ledger with freed := objects ++ ledger.freed }

@[simp] theorem alloc_allocated (ledger : Ledger ι) (objects : List ι) :
    (ledger.alloc objects).allocated = objects ++ ledger.allocated := rfl

@[simp] theorem alloc_freed (ledger : Ledger ι) (objects : List ι) :
    (ledger.alloc objects).freed = ledger.freed := rfl

@[simp] theorem free_allocated (ledger : Ledger ι) (objects : List ι) :
    (ledger.free objects).allocated = ledger.allocated := rfl

@[simp] theorem free_freed (ledger : Ledger ι) (objects : List ι) :
    (ledger.free objects).freed = objects ++ ledger.freed := rfl

/-- The ledger agrees with the list of the objects that are still owned. -/
structure Balanced (ledger : Ledger ι) (live : List ι) : Prop where
  allocated_nodup : ledger.allocated.Nodup
  perm : (live ++ ledger.freed).Perm ledger.allocated

theorem balanced_empty : (empty : Ledger ι).Balanced [] :=
  ⟨List.nodup_nil, List.Perm.refl _⟩

namespace Balanced

variable {ledger : Ledger ι} {live : List ι}

theorem live_append_freed_nodup (h : ledger.Balanced live) : (live ++ ledger.freed).Nodup :=
  h.perm.nodup_iff.mpr h.allocated_nodup

/-- No object is owned twice. -/
theorem live_nodup (h : ledger.Balanced live) : live.Nodup :=
  (List.nodup_append.mp h.live_append_freed_nodup).1

/-- No object was released twice. -/
theorem freed_nodup (h : ledger.Balanced live) : ledger.freed.Nodup :=
  (List.nodup_append.mp h.live_append_freed_nodup).2.1

/-- A live object was not released. -/
theorem not_mem_freed (h : ledger.Balanced live) {object : ι} (hlive : object ∈ live) :
    object ∉ ledger.freed := fun hfreed ↦
  (List.nodup_append.mp h.live_append_freed_nodup).2.2 object hlive object hfreed rfl

theorem mem_allocated (h : ledger.Balanced live) {object : ι} (hlive : object ∈ live) :
    object ∈ ledger.allocated :=
  h.perm.subset (List.mem_append_left _ hlive)

/-- An allocated object that is not owned any more was released. -/
theorem mem_freed_of_not_mem (h : ledger.Balanced live) {object : ι}
    (halloc : object ∈ ledger.allocated) (hlive : object ∉ live) : object ∈ ledger.freed :=
  (List.mem_append.mp (h.perm.mem_iff.mpr halloc)).resolve_left hlive

/-- The ledger does not care in which order the live objects are listed. -/
theorem of_perm (h : ledger.Balanced live) {live' : List ι} (hperm : live'.Perm live) :
    ledger.Balanced live' :=
  ⟨h.allocated_nodup, (hperm.append_right _).trans h.perm⟩

/-- Allocating fresh objects adds them to the owned ones. -/
theorem alloc (h : ledger.Balanced live) {objects : List ι} (hfresh : ledger.Fresh objects) :
    (ledger.alloc objects).Balanced (objects ++ live) := by
  refine ⟨?_, ?_⟩
  · refine List.nodup_append.mpr ⟨hfresh.1, h.allocated_nodup, ?_⟩
    rintro object hobject _ hallocated rfl
    exact hfresh.2 object hobject hallocated
  · rw [List.append_assoc]
    exact h.perm.append_left objects

/-- Releasing owned objects takes them out of the owned ones. -/
theorem free {dead : List ι} (h : ledger.Balanced (dead ++ live)) :
    (ledger.free dead).Balanced live := by
  refine ⟨h.allocated_nodup, List.Perm.trans ?_ h.perm⟩
  calc (live ++ (dead ++ ledger.freed)).Perm ((live ++ dead) ++ ledger.freed) := by
        rw [List.append_assoc]
    _ |>.Perm ((dead ++ live) ++ ledger.freed) :=
        (List.perm_append_comm).append_right _

end Balanced

end Ledger

end Mupnp.Foundation
