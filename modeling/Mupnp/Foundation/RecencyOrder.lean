import Mathlib.Data.List.Nodup
import Mathlib.Tactic.Common

/-!
# Recency order

A list of uses, the latest one first, orders the keys that occur in it: the keys of a list are in
recency order when each was last used before the ones behind it. Using a key keeps the order when
the key goes to the end of the list (`InRecencyOrder.use`), and the first key of a list in recency
order is the least recently used one (`InRecencyOrder.leastRecentlyUsed`).
-/

set_option autoImplicit false
set_option relaxedAutoImplicit false

namespace Mupnp.Foundation

variable {κ : Type*} [DecidableEq κ]

/-- The keys stand in the order of their last uses, the least recently used one first. -/
def InRecencyOrder (uses keys : List κ) : Prop :=
  keys.Pairwise fun older newer ↦ uses.idxOf newer < uses.idxOf older

/-- No key of the list was last used before this one. -/
def LeastRecentlyUsed (uses keys : List κ) (key : κ) : Prop :=
  ∀ other ∈ keys, uses.idxOf other ≤ uses.idxOf key

instance (uses keys : List κ) (key : κ) : Decidable (LeastRecentlyUsed uses keys key) :=
  inferInstanceAs (Decidable (∀ other ∈ keys, _))

namespace InRecencyOrder

variable {uses keys : List κ}

theorem nil : InRecencyOrder uses ([] : List κ) := List.Pairwise.nil

theorem nodup (h : InRecencyOrder uses keys) : keys.Nodup := by
  refine h.imp fun hlt heq ↦ ?_
  rw [heq] at hlt
  exact Nat.lt_irrefl _ hlt

/-- Dropping keys keeps the order. -/
theorem sublist (h : InRecencyOrder uses keys) {keys' : List κ} (hsub : keys'.Sublist keys) :
    InRecencyOrder uses keys' :=
  List.Pairwise.sublist hsub h

/-- Using a key that is not in the list puts it behind the others. -/
theorem concat (h : InRecencyOrder uses keys) {key : κ} (hnew : key ∉ keys) :
    InRecencyOrder (key :: uses) (keys ++ [key]) := by
  have hne : ∀ {other}, other ∈ keys → key ≠ other := by
    rintro other hother rfl
    exact hnew hother
  refine List.pairwise_append.mpr ⟨?_, List.pairwise_singleton _ _, ?_⟩
  · refine h.imp_of_mem fun {older newer} holder hnewer hlt ↦ ?_
    rw [List.idxOf_cons_ne _ (hne holder), List.idxOf_cons_ne _ (hne hnewer)]
    exact Nat.succ_lt_succ hlt
  · intro other hother last hlast
    rw [List.mem_singleton.mp hlast, List.idxOf_cons_self, List.idxOf_cons_ne _ (hne hother)]
    exact Nat.succ_pos _

/-- Using a key takes it from its place to the end. -/
theorem use {before after : List κ} {key : κ} (h : InRecencyOrder uses (before ++ key :: after)) :
    InRecencyOrder (key :: uses) (before ++ after ++ [key]) := by
  have hmove : key ∉ before ++ after :=
    (List.nodup_cons.mp (List.nodup_middle.mp h.nodup)).1
  refine (InRecencyOrder.sublist h ?_).concat hmove
  exact (List.sublist_cons_self key after).append_left before

/-- The first key is the least recently used one. -/
theorem leastRecentlyUsed {key : κ} (h : InRecencyOrder uses (key :: keys)) :
    LeastRecentlyUsed uses (key :: keys) key :=
  List.forall_mem_cons.mpr
    ⟨Nat.le_refl _, fun other hother ↦ Nat.le_of_lt ((List.pairwise_cons.mp h).1 other hother)⟩

end InRecencyOrder

end Mupnp.Foundation
