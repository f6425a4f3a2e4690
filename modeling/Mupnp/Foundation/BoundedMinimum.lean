import Mathlib.Data.List.Basic
import Mathlib.Order.Lattice
import Mathlib.Order.MinMax
import Mathlib.Tactic.Common

/-!
# Minima below a bound

A search for the element with the least key below a bound. `IsFoundBelow` says that a search found
something below the bound whenever there is something, and `IsLeastBelow` that it found the least.

A search that goes on with the bound that it has reached keeps the least
(`isLeastBelow_or_append_iff`). One that goes on with the old bound and lets the last find count
does so only when nothing before it is less (`isLeastBelow_append_iff`).
-/

set_option autoImplicit false
set_option relaxedAutoImplicit false

namespace Mupnp.Foundation

variable {α β : Type*} [LinearOrder β]

/-- The elements whose key is below the bound. -/
def below (key : α → β) (bound : β) (xs : List α) : List α :=
  xs.filter fun x ↦ decide (key x < bound)

/-- Something below the bound is found when there is something. -/
def IsFoundBelow (key : α → β) (bound : β) (xs : List α) : Option α → Prop
  | none => below key bound xs = []
  | some found => found ∈ below key bound xs

/-- The least element below the bound is found when there is one. -/
def IsLeastBelow (key : α → β) (bound : β) (xs : List α) : Option α → Prop
  | none => below key bound xs = []
  | some found => found ∈ below key bound xs ∧ ∀ x ∈ below key bound xs, key found ≤ key x

/-- The least of a bound and the keys. -/
def leastKey (key : α → β) (bound : β) (xs : List α) : β := (xs.map key).foldr min bound

section search

variable {key : α → β} {bound : β} {xs ys : List α} {x : α}

theorem mem_below_iff : x ∈ below key bound xs ↔ x ∈ xs ∧ key x < bound := by
  rw [below, List.mem_filter, decide_eq_true_iff]

theorem below_append (xs ys : List α) :
    below key bound (xs ++ ys) = below key bound xs ++ below key bound ys :=
  List.filter_append xs ys

theorem below_eq_nil_iff : below key bound xs = [] ↔ ∀ x ∈ xs, bound ≤ key x := by
  simp only [below, List.filter_eq_nil_iff, decide_eq_true_iff, not_lt]

theorem le_leastKey_iff {b : β} :
    b ≤ leastKey key bound xs ↔ b ≤ bound ∧ ∀ x ∈ xs, b ≤ key x := by
  induction xs with
  | nil => exact ⟨fun h ↦ ⟨h, List.forall_mem_nil _⟩, And.left⟩
  | cons x xs ih =>
    rw [leastKey, List.map_cons, List.foldr_cons, le_min_iff, List.forall_mem_cons]
    rw [leastKey] at ih
    rw [ih]
    exact and_left_comm

theorem leastKey_append (xs ys : List α) :
    leastKey key bound (xs ++ ys) = leastKey key (leastKey key bound xs) ys := by
  refine eq_of_forall_le_iff fun b ↦ ?_
  rw [le_leastKey_iff, le_leastKey_iff, le_leastKey_iff, List.forall_mem_append, and_assoc]

theorem IsLeastBelow.isFoundBelow {found : Option α} (h : IsLeastBelow key bound xs found) :
    IsFoundBelow key bound xs found := by
  cases found with
  | none => exact h
  | some found => exact h.1

/-- A search that found the least has reached the least key. -/
theorem IsLeastBelow.leastKey_eq {found : Option α} (h : IsLeastBelow key bound xs found) :
    leastKey key bound xs = (found.map key).getD bound := by
  refine eq_of_forall_le_iff fun b ↦ le_leastKey_iff.trans ?_
  cases found with
  | none =>
    have hle := below_eq_nil_iff.mp h
    exact ⟨And.left, fun hb ↦ ⟨hb, fun x hx ↦ hb.trans (hle x hx)⟩⟩
  | some found =>
    obtain ⟨hmem, hleast⟩ := h
    obtain ⟨hxs, hlt⟩ := mem_below_iff.mp hmem
    refine ⟨fun hb ↦ hb.2 found hxs, fun hb ↦ ⟨hb.trans hlt.le, fun x hx ↦ ?_⟩⟩
    by_cases hx' : key x < bound
    · exact hb.trans (hleast x (mem_below_iff.mpr ⟨hx, hx'⟩))
    · exact (hb.trans hlt.le).trans (not_lt.mp hx')

/-- A search goes on with the least key so far as its bound. -/
theorem isLeastBelow_or_append_iff {first second : Option α}
    (hfirst : IsLeastBelow key bound xs first)
    (hsecond : IsFoundBelow key (leastKey key bound xs) ys second) :
    IsLeastBelow key bound (xs ++ ys) (second.or first) ↔
      IsLeastBelow key (leastKey key bound xs) ys second := by
  have hle : leastKey key bound xs ≤ bound := (le_leastKey_iff.mp le_rfl).1
  have hxs := (le_leastKey_iff.mp (le_refl (leastKey key bound xs))).2
  cases second with
  | none =>
    have hys := below_eq_nil_iff.mp hsecond
    refine iff_of_true ?_ hsecond
    have hkey := hfirst.leastKey_eq
    rw [Option.none_or]
    cases first with
    | none =>
      rw [Option.map_none, Option.getD_none] at hkey
      rw [hkey] at hys
      exact below_eq_nil_iff.mpr fun x hx ↦
        (List.mem_append.mp hx).elim (below_eq_nil_iff.mp hfirst x) (hys x)
    | some found =>
      obtain ⟨hmem, hleast⟩ := hfirst
      rw [Option.map_some, Option.getD_some] at hkey
      rw [IsLeastBelow, below_append]
      refine ⟨List.mem_append_left _ hmem, fun x hx ↦ ?_⟩
      rcases List.mem_append.mp hx with hx | hx
      · exact hleast x hx
      · exact hkey ▸ hys x (mem_below_iff.mp hx).1
  | some found =>
    obtain ⟨hmem, hlt⟩ := mem_below_iff.mp hsecond
    have hfound : found ∈ below key bound (xs ++ ys) :=
      mem_below_iff.mpr ⟨List.mem_append_right _ hmem, hlt.trans_le hle⟩
    rw [Option.some_or]
    refine ⟨fun h ↦ ⟨hsecond, fun x hx ↦ ?_⟩, fun h ↦ ⟨hfound, fun x hx ↦ ?_⟩⟩
    · obtain ⟨hx, hxlt⟩ := mem_below_iff.mp hx
      exact h.2 x (mem_below_iff.mpr ⟨List.mem_append_right _ hx, hxlt.trans_le hle⟩)
    · obtain ⟨hx, -⟩ := mem_below_iff.mp hx
      rcases List.mem_append.mp hx with hx | hx
      · exact hlt.le.trans (hxs x hx)
      · by_cases hxlt : key x < leastKey key bound xs
        · exact h.2 x (mem_below_iff.mpr ⟨hx, hxlt⟩)
        · exact hlt.le.trans (not_lt.mp hxlt)

/-- A search that goes on with the least key so far finds something when there is something. -/
theorem isFoundBelow_or_append {first second : Option α} (hfirst : IsLeastBelow key bound xs first)
    (hsecond : IsFoundBelow key (leastKey key bound xs) ys second) :
    IsFoundBelow key bound (xs ++ ys) (second.or first) := by
  cases second with
  | none => exact ((isLeastBelow_or_append_iff hfirst hsecond).mpr hsecond).isFoundBelow
  | some found =>
    obtain ⟨hmem, hlt⟩ := mem_below_iff.mp hsecond
    exact mem_below_iff.mpr ⟨List.mem_append_right _ hmem,
      hlt.trans_le (le_leastKey_iff.mp le_rfl).1⟩

/-- A search that goes on with the old bound finds something when there is something. -/
theorem isFoundBelow_append {first second : Option α} (hfirst : IsFoundBelow key bound xs first)
    (hsecond : IsFoundBelow key bound ys second) :
    IsFoundBelow key bound (xs ++ ys) (second.or first) := by
  cases second with
  | some found =>
    rw [Option.some_or, IsFoundBelow, below_append]
    exact List.mem_append_right _ hsecond
  | none =>
    have hys : below key bound ys = [] := hsecond
    cases first with
    | none =>
      have hxs : below key bound xs = [] := hfirst
      rw [Option.none_or, IsFoundBelow, below_append, hxs, hys, List.append_nil]
    | some found =>
      rw [Option.none_or, IsFoundBelow, below_append]
      exact List.mem_append_left _ hfirst

/-- A find of a search that goes on with the old bound counts. -/
theorem isLeastBelow_append_iff {found : α} (hfound : found ∈ below key bound ys) :
    IsLeastBelow key bound (xs ++ ys) (some found) ↔
      (∀ x ∈ below key bound xs, ∃ y ∈ ys, key y ≤ key x) ∧
        IsLeastBelow key bound ys (some found) := by
  obtain ⟨hmem, hlt⟩ := mem_below_iff.mp hfound
  rw [IsLeastBelow, IsLeastBelow, below_append]
  constructor
  · rintro ⟨-, hleast⟩
    exact ⟨fun x hx ↦ ⟨found, hmem, hleast x (List.mem_append_left _ hx)⟩, hfound,
      fun y hy ↦ hleast y (List.mem_append_right _ hy)⟩
  · rintro ⟨hbefore, -, hleast⟩
    refine ⟨List.mem_append_right _ hfound, fun x hx ↦ ?_⟩
    rcases List.mem_append.mp hx with hx | hx
    · obtain ⟨y, hy, hyx⟩ := hbefore x hx
      have hylt : key y < bound := hyx.trans_lt (mem_below_iff.mp hx).2
      exact (hleast y (mem_below_iff.mpr ⟨hy, hylt⟩)).trans hyx
    · exact hleast x hx

/-- A part without anything below the bound does not matter. -/
theorem isLeastBelow_append_of_nil {found : Option α} (h : below key bound ys = []) :
    IsLeastBelow key bound (xs ++ ys) found ↔ IsLeastBelow key bound xs found := by
  cases found with
  | none => rw [IsLeastBelow, IsLeastBelow, below_append, h, List.append_nil]
  | some found => rw [IsLeastBelow, IsLeastBelow, below_append, h, List.append_nil]

end search

end Mupnp.Foundation
