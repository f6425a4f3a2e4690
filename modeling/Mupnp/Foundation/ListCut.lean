import Mathlib.Data.List.TakeWhile
import Mathlib.Tactic.Common

/-!
# Lists that are cut at a sign

A list is cut where a sign stands for the first time: what is in front of it does not have the sign,
and the cut is the only one (`append_cons_inj_of_not_mem`). The same holds where the elements stop
to satisfy a predicate (`append_inj_of_head`). What does not have the sign is within a part of the
list on one side of it (`infix_append_cons_iff`).
-/

set_option autoImplicit false
set_option relaxedAutoImplicit false

namespace Mupnp.Foundation

variable {α : Type*} [DecidableEq α] {sign : α}

theorem takeWhile_ne_append_cons {before : List α} (h : sign ∉ before) (after : List α) :
    (before ++ sign :: after).takeWhile (· ≠ sign) = before := by
  rw [List.takeWhile_append_of_pos fun d hd ↦ by
    rw [decide_eq_true_eq]
    rintro rfl
    exact h hd]
  simp

theorem dropWhile_ne_append_cons {before : List α} (h : sign ∉ before) (after : List α) :
    (before ++ sign :: after).dropWhile (· ≠ sign) = sign :: after := by
  rw [List.dropWhile_append_of_pos fun d hd ↦ by
    rw [decide_eq_true_eq]
    rintro rfl
    exact h hd]
  simp

theorem takeWhile_ne_of_not_mem {list : List α} (h : sign ∉ list) :
    list.takeWhile (· ≠ sign) = list := by
  rw [List.takeWhile_eq_self_iff]
  intro d hd
  rw [decide_eq_true_eq]
  rintro rfl
  exact h hd

theorem dropWhile_ne_of_not_mem {list : List α} (h : sign ∉ list) :
    list.dropWhile (· ≠ sign) = [] := by
  rw [List.dropWhile_eq_nil_iff]
  intro d hd
  rw [decide_eq_true_eq]
  rintro rfl
  exact h hd

/-- Two lists that agree agree in front of and behind the first occurrence of a sign. -/
theorem append_cons_inj_of_not_mem {before before' after after' : List α} (h : sign ∉ before)
    (h' : sign ∉ before') (heq : before ++ sign :: after = before' ++ sign :: after') :
    before = before' ∧ after = after' := by
  have hfront := congrArg (fun list ↦ list.takeWhile (· ≠ sign)) heq
  simp only [takeWhile_ne_append_cons h, takeWhile_ne_append_cons h'] at hfront
  subst hfront
  exact ⟨rfl, (List.cons.inj (List.append_cancel_left heq)).2⟩

omit [DecidableEq α] in
/-- What does not have the sign stands in front of it or behind it. -/
theorem infix_append_cons_iff {needle : List α} (h : sign ∉ needle) (before after : List α) :
    needle <:+: before ++ sign :: after ↔ needle <:+: before ∨ needle <:+: after := by
  have hnil : ∀ front, front <+: sign :: after → sign ∉ front → front = [] := by
    intro front hfront hsign
    cases front with
    | nil => rfl
    | cons c rest =>
      rw [List.cons_prefix_cons] at hfront
      exact absurd List.mem_cons_self (hfront.1 ▸ hsign)
  constructor
  · intro hwithin
    rcases List.infix_append_iff.mp hwithin with hbefore | hbehind | ⟨front, behind, hsplit, hfront,
      hbehind⟩
    · exact Or.inl hbefore
    · rcases List.infix_cons_iff.mp hbehind with hprefix | hafter
      · rw [hnil needle hprefix h]
        exact Or.inl (List.nil_infix)
      · exact Or.inr hafter
    · have hsign : sign ∉ behind := fun hmem ↦ h (hsplit ▸ List.mem_append_right front hmem)
      rw [hsplit, hnil behind hbehind hsign, List.append_nil]
      exact Or.inl hfront.isInfix
  · rintro (hbefore | hafter)
    · exact hbefore.trans List.infix_append_left
    · exact hafter.trans ((List.suffix_cons sign after).isInfix.trans List.infix_append_right)

/-! ### Cuts at every sign -/

theorem not_mem_of_mem_splitOn {list part : List α} (h : part ∈ list.splitOn sign) :
    sign ∉ part := by
  induction list generalizing part with
  | nil =>
    rw [List.splitOn_nil, List.mem_singleton] at h
    subst h
    exact List.not_mem_nil
  | cons c rest ih =>
    rw [List.splitOn_cons_eq_if_modifyHead] at h
    split_ifs at h with hsign
    · rcases List.mem_cons.mp h with rfl | hrest
      · exact List.not_mem_nil
      · exact ih hrest
    · obtain ⟨first, others, hsplit⟩ := List.exists_cons_of_ne_nil (List.splitOn_ne_nil sign rest)
      rw [hsplit] at h ih
      rw [List.modifyHead_cons] at h
      rcases List.mem_cons.mp h with rfl | hothers
      · have hfirst := ih List.mem_cons_self
        have hne : sign ≠ c := fun heq ↦ hsign (by rw [heq, beq_self_eq_true])
        rw [List.mem_cons, not_or]
        exact ⟨hne, hfirst⟩
      · exact ih (List.mem_cons_of_mem first hothers)

/-- Everything but the sign stands in one of the parts. -/
theorem mem_iff_exists_mem_splitOn {c : α} (hne : c ≠ sign) (list : List α) :
    c ∈ list ↔ ∃ part ∈ list.splitOn sign, c ∈ part := by
  induction list with
  | nil => simp
  | cons d rest ih =>
    obtain ⟨first, others, hsplit⟩ := List.exists_cons_of_ne_nil (List.splitOn_ne_nil sign rest)
    rw [List.mem_cons, ih, List.splitOn_cons_eq_if_modifyHead, hsplit]
    by_cases hd : d = sign
    · subst hd
      simp [hne]
    · simp [hd, or_assoc]

/-! ### Cuts by a predicate -/

omit [DecidableEq α] in
theorem takeWhile_append_of_head {p : α → Bool} {front behind : List α}
    (hfront : ∀ c ∈ front, p c = true) (hbehind : ∀ c ∈ behind.head?, p c = false) :
    (front ++ behind).takeWhile p = front := by
  rw [List.takeWhile_append_of_pos hfront]
  cases behind with
  | nil => simp
  | cons c behind =>
    have hc : ¬ p c = true := by
      rw [hbehind c rfl]
      decide
    rw [List.takeWhile_cons_of_neg hc, List.append_nil]

omit [DecidableEq α] in
theorem dropWhile_append_of_head {p : α → Bool} {front behind : List α}
    (hfront : ∀ c ∈ front, p c = true) (hbehind : ∀ c ∈ behind.head?, p c = false) :
    (front ++ behind).dropWhile p = behind := by
  have hsplit := List.takeWhile_append_dropWhile (p := p) (l := front ++ behind)
  rw [takeWhile_append_of_head hfront hbehind] at hsplit
  exact List.append_cancel_left hsplit

omit [DecidableEq α] in
/-- Two lists that agree agree in front of and behind the first element without a property. -/
theorem append_inj_of_head {p : α → Bool} {front front' behind behind' : List α}
    (hfront : ∀ c ∈ front, p c = true) (hfront' : ∀ c ∈ front', p c = true)
    (hbehind : ∀ c ∈ behind.head?, p c = false) (hbehind' : ∀ c ∈ behind'.head?, p c = false)
    (heq : front ++ behind = front' ++ behind') : front = front' ∧ behind = behind' := by
  have htake := congrArg (List.takeWhile p) heq
  rw [takeWhile_append_of_head hfront hbehind, takeWhile_append_of_head hfront' hbehind'] at htake
  subst htake
  exact ⟨rfl, List.append_cancel_left heq⟩

end Mupnp.Foundation
