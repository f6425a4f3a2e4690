import Mathlib.Data.List.Basic
import Mathlib.Tactic.Common

/-!
# Items that at most one test passes

When at most one item of a list passes a test, changing the item at the position of the first match
changes every item that passes (`modify_findIdx?`), and erasing it leaves those that do not
(`eraseIdx_findIdx?`).
-/

set_option autoImplicit false
set_option relaxedAutoImplicit false

namespace Mupnp.Foundation

variable {α : Type} {test : α → Bool} {items : List α} {position : ℕ}

/-- Of two items not both pass the test. -/
def AtMostOne (test : α → Bool) (items : List α) : Prop :=
  items.Pairwise fun a b ↦ ¬ (test a = true ∧ test b = true)

/-- Items that are told apart by a key, of which one value is tested. -/
theorem atMostOne_of_nodup {κ : Type} {key : α → κ} {k : κ} (hnodup : (items.map key).Nodup)
    (htest : ∀ a, test a = true → key a = k) : AtMostOne test items := by
  rw [List.Nodup, List.pairwise_map] at hnodup
  refine hnodup.imp fun hne hboth ↦ hne ?_
  rw [htest _ hboth.1, htest _ hboth.2]

theorem AtMostOne.of_cons {a : α} (h : AtMostOne test (a :: items)) : AtMostOne test items :=
  (List.pairwise_cons.mp h).2

theorem AtMostOne.eq_false_of_mem {a b : α} (h : AtMostOne test (a :: items))
    (ha : test a = true) (hb : b ∈ items) : test b = false := by
  rw [← Bool.not_eq_true]
  exact fun htrue ↦ (List.pairwise_cons.mp h).1 b hb ⟨ha, htrue⟩

/-- The position of a match is that of the first item, or it is behind it. -/
theorem findIdx?_cons_cases {a : α} (h : (a :: items).findIdx? test = some position) :
    test a = true ∧ position = 0 ∨
      test a = false ∧ ∃ later, position = later + 1 ∧ items.findIdx? test = some later := by
  rw [List.findIdx?_cons] at h
  cases ha : test a with
  | true =>
    rw [ha, if_pos rfl, Option.some.injEq] at h
    exact Or.inl ⟨rfl, h.symm⟩
  | false =>
    rw [ha, if_neg Bool.false_ne_true] at h
    obtain ⟨later, hlater, rfl⟩ := Option.map_eq_some_iff.mp h
    exact Or.inr ⟨rfl, later, rfl, hlater⟩

theorem AtMostOne.modify_findIdx? (h : AtMostOne test items)
    (hfound : items.findIdx? test = some position) (change : α → α) :
    items.modify position change = items.map fun a ↦ if test a then change a else a := by
  induction items generalizing position with
  | nil => cases hfound
  | cons a rest ih =>
    rcases findIdx?_cons_cases hfound with ⟨ha, rfl⟩ | ⟨ha, later, rfl, hlater⟩
    · have hrest : rest.map (fun b ↦ if test b then change b else b) = rest := by
        refine (List.map_congr_left fun b hb ↦ ?_).trans (List.map_id rest)
        rw [h.eq_false_of_mem ha hb, if_neg Bool.false_ne_true, id_eq]
      rw [List.modify_zero_cons, List.map_cons, hrest, ha, if_pos rfl]
    · rw [List.modify_succ_cons, ih h.of_cons hlater, List.map_cons, ha,
        if_neg Bool.false_ne_true]

theorem AtMostOne.eraseIdx_findIdx? (h : AtMostOne test items)
    (hfound : items.findIdx? test = some position) :
    items.eraseIdx position = items.filter fun a ↦ !test a := by
  induction items generalizing position with
  | nil => cases hfound
  | cons a rest ih =>
    rcases findIdx?_cons_cases hfound with ⟨ha, rfl⟩ | ⟨ha, later, rfl, hlater⟩
    · have hrest : rest.filter (fun b ↦ !test b) = rest := by
        refine List.filter_eq_self.mpr fun b hb ↦ ?_
        rw [h.eq_false_of_mem ha hb, Bool.not_false]
      rw [List.eraseIdx_cons_zero, List.filter_cons_of_neg (by simp [ha]), hrest]
    · rw [List.eraseIdx_cons_succ, ih h.of_cons hlater, List.filter_cons_of_pos (by simp [ha])]

/-- The item that passes is the only one. -/
theorem AtMostOne.filter_eq_singleton {a : α} (h : AtMostOne test items) (hmem : a ∈ items)
    (ha : test a = true) : items.filter test = [a] := by
  induction items with
  | nil => cases hmem
  | cons b rest ih =>
    rcases List.mem_cons.mp hmem with rfl | hrest
    · have hnone : rest.filter test = [] :=
        List.filter_eq_nil_iff.mpr fun c hc ↦ Bool.not_eq_true _ ▸ h.eq_false_of_mem ha hc
      rw [List.filter_cons_of_pos ha, hnone]
    · have hb : ¬ test b = true := fun hb ↦
        absurd ha (Bool.not_eq_true _ ▸ h.eq_false_of_mem hb hrest)
      rw [List.filter_cons_of_neg hb, ih h.of_cons hrest]

end Mupnp.Foundation
