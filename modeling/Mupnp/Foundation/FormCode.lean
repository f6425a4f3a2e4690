import Mathlib.Data.List.Basic
import Mathlib.Tactic.Common

/-!
# Codes of leads and continuations

A form is a lead with a number of continuations behind it that the lead fixes; no continuation is a
lead. So a form does not begin within another one, and a text decomposes into forms in at most one
way. `repair` puts a mark, which is a form of its own, in place of each lead that begins no form and
of each continuation that is in none.

The repaired text decomposes (`decomposes_repair`). Nothing that is in a form of the text is changed
(`getElem?_repair_of_inForm`), so a text that decomposes stays as it is
(`repair_of_decomposes`), and a second repair changes nothing (`repair_repair`).
-/

set_option autoImplicit false
set_option relaxedAutoImplicit false

namespace Mupnp.Foundation

/-- Which symbols are leads, with the number of continuations they need, and which are
continuations. The mark is a lead that needs none. -/
structure FormCode (α : Type*) where
  followers : α → Option ℕ
  continues : α → Bool
  mark : α
  followers_of_continues : ∀ {a}, continues a = true → followers a = none
  followers_mark : followers mark = some 0

namespace FormCode

variable {α : Type*} (code : FormCode α)

/-- A lead with its continuations. -/
inductive IsForm : List α → Prop
  | intro (lead : α) (tail : List α) (hlead : code.followers lead = some tail.length)
      (htail : ∀ a ∈ tail, code.continues a = true) : IsForm (lead :: tail)

/-- A text is one form after the other. -/
def Decomposes (text : List α) : Prop :=
  ∃ forms : List (List α), (∀ form ∈ forms, code.IsForm form) ∧ text = forms.flatten

/-- A position of a text is in a form. -/
def InForm (text : List α) (i : ℕ) : Prop :=
  ∃ before form after : List α, text = before ++ (form ++ after) ∧ code.IsForm form ∧
    before.length ≤ i ∧ i < before.length + form.length

/-- The number of continuations of the form with a given lead in front of a text. -/
def more (lead : α) (rest : List α) : Option ℕ :=
  (code.followers lead).filter fun n ↦ n ≤ rest.length ∧ (rest.take n).all code.continues

/-- `repair` behind a lead some of whose continuations are still to be passed over. -/
def repairFrom : (skip : ℕ) → List α → List α
  | _, [] => []
  | skip + 1, a :: rest => a :: repairFrom skip rest
  | 0, a :: rest =>
    match code.more a rest with
    | some n => a :: repairFrom n rest
    | none => code.mark :: repairFrom 0 rest

/-- A mark for each symbol that is in no form. -/
def repair (text : List α) : List α := code.repairFrom 0 text

variable {code}

/-! ### Forms -/

theorem IsForm.ne_nil {form : List α} (h : code.IsForm form) : form ≠ [] := by
  obtain ⟨lead, tail, -, -⟩ := h
  exact List.cons_ne_nil lead tail

theorem isForm_mark : code.IsForm [code.mark] := by
  refine IsForm.intro code.mark [] code.followers_mark fun a ha ↦ ?_
  exact absurd ha List.not_mem_nil

theorem more_eq_none {lead : α} (h : code.followers lead = none) (rest : List α) :
    code.more lead rest = none := by
  unfold more
  rw [h, Option.filter_none]

theorem more_eq_ite {lead : α} {n : ℕ} (h : code.followers lead = some n) (rest : List α) :
    code.more lead rest =
      if n ≤ rest.length ∧ (rest.take n).all code.continues = true then some n else none := by
  unfold more
  rw [h, Option.filter_some]
  by_cases hfound : n ≤ rest.length ∧ (rest.take n).all code.continues = true
  · rw [if_pos hfound, if_pos (decide_eq_true hfound)]
  · rw [if_neg hfound, if_neg fun h ↦ hfound (of_decide_eq_true h)]

/-- The continuations that are found are the tail of a form. -/
theorem more_eq_some_iff {lead : α} {rest : List α} {n : ℕ} :
    code.more lead rest = some n ↔
      code.IsForm (lead :: rest.take n) ∧ n ≤ rest.length := by
  unfold more
  rw [Option.filter_eq_some_iff, decide_eq_true_eq, List.all_eq_true]
  constructor
  · rintro ⟨hlead, hlength, htail⟩
    refine ⟨IsForm.intro lead _ ?_ htail, hlength⟩
    rw [hlead, List.length_take, Nat.min_eq_left hlength]
  · rintro ⟨⟨_, _, hlead, htail⟩, hlength⟩
    rw [List.length_take, Nat.min_eq_left hlength] at hlead
    exact ⟨hlead, hlength, htail⟩

/-- A form in front of a text is found. -/
theorem more_append {lead : α} {tail : List α} (h : code.IsForm (lead :: tail))
    (after : List α) : code.more lead (tail ++ after) = some tail.length := by
  refine more_eq_some_iff.mpr ⟨?_, ?_⟩
  · rw [List.take_left]
    exact h
  · rw [List.length_append]
    exact Nat.le_add_right _ _

/-- Where no form is found, none is in front of the text. -/
theorem ne_append_of_more_eq_none {a : α} {rest form after : List α}
    (hmore : code.more a rest = none) (hform : code.IsForm form) : a :: rest ≠ form ++ after := by
  intro heq
  obtain ⟨lead, tail, hlead, htail⟩ := hform
  rw [List.cons_append] at heq
  obtain ⟨rfl, rfl⟩ := List.cons.inj heq
  rw [more_append (IsForm.intro a tail hlead htail) after] at hmore
  cases hmore

/-- A text is empty, or it begins with a form, or with a symbol that begins none. -/
@[elab_as_elim]
theorem formInduction (code : FormCode α) {motive : List α → Prop} (nil : motive [])
    (form : ∀ form after, code.IsForm form → motive after → motive (form ++ after))
    (stray : ∀ a rest, code.more a rest = none → motive rest → motive (a :: rest))
    (text : List α) : motive text := by
  induction hn : text.length using Nat.strongRecOn generalizing text with
  | ind n ih =>
    cases text with
    | nil => exact nil
    | cons a rest =>
      rw [List.length_cons] at hn
      cases hmore : code.more a rest with
      | none => exact stray a rest hmore (ih rest.length (by omega) rest rfl)
      | some n =>
        obtain ⟨hform, -⟩ := more_eq_some_iff.mp hmore
        have hlt : (rest.drop n).length < rest.length + 1 := by
          rw [List.length_drop]
          omega
        have hcut := form _ (rest.drop n) hform (ih _ (by omega) (rest.drop n) rfl)
        rwa [List.cons_append, List.take_append_drop] at hcut

/-! ### Positions in forms -/

/-- Assumes: a form somewhere in a text that begins with a form. It is that form, or it begins
behind it. -/
theorem eq_nil_or_length_le {form form' before after after' : List α} (hform : code.IsForm form)
    (hform' : code.IsForm form') (heq : form ++ after = before ++ (form' ++ after')) :
    before = [] ∧ form' = form ∨ form.length ≤ before.length := by
  obtain ⟨lead, tail, hlead, htail⟩ := hform
  obtain ⟨lead', tail', hlead', htail'⟩ := hform'
  cases before with
  | nil =>
    obtain ⟨rfl, hrest⟩ := List.cons.inj heq
    have hlength : tail.length = tail'.length := Option.some.inj (hlead.symm.trans hlead')
    refine Or.inl ⟨rfl, ?_⟩
    rw [(List.append_inj hrest hlength).1]
  | cons b before =>
    rw [List.cons_append, List.cons_append] at heq
    obtain ⟨-, hrest⟩ := List.cons.inj heq
    refine Or.inr (Nat.succ_le_succ (Nat.le_of_not_lt fun hlt ↦ ?_))
    have hget : (tail ++ after)[before.length]? = some lead' := by
      rw [hrest, List.getElem?_append_right (Nat.le_refl _), Nat.sub_self]
      rfl
    rw [List.getElem?_append_left hlt] at hget
    have hcontinues := htail lead' (List.mem_of_getElem? hget)
    rw [code.followers_of_continues hcontinues] at hlead'
    cases hlead'

/-- A position behind a form in front of a text is in a form of what follows. -/
theorem InForm.of_append {form after : List α} {i : ℕ} (hform : code.IsForm form)
    (h : code.InForm (form ++ after) i) (hi : form.length ≤ i) :
    code.InForm after (i - form.length) := by
  obtain ⟨before, form', after', heq, hform', hle, hlt⟩ := h
  rcases eq_nil_or_length_le hform hform' heq with ⟨rfl, rfl⟩ | hlength
  · rw [List.length_nil] at hlt
    omega
  · obtain ⟨between, rfl⟩ := List.prefix_of_prefix_length_le
      (List.prefix_append form after) ⟨form' ++ after', heq.symm⟩ hlength
    rw [List.append_assoc] at heq
    rw [List.length_append] at hle hlt
    exact ⟨between, form', after', List.append_cancel_left heq, hform', by omega, by omega⟩

/-- A symbol that begins no form is in none, and what follows is in a form of its own. -/
theorem InForm.of_cons {a : α} {rest : List α} {i : ℕ} (hmore : code.more a rest = none)
    (h : code.InForm (a :: rest) i) : ∃ j, i = j + 1 ∧ code.InForm rest j := by
  obtain ⟨before, form, after, heq, hform, hle, hlt⟩ := h
  cases before with
  | nil =>
    rw [List.nil_append] at heq
    exact absurd heq (ne_append_of_more_eq_none hmore hform)
  | cons b before =>
    obtain ⟨-, hrest⟩ := List.cons.inj heq
    rw [List.length_cons] at hle hlt
    exact ⟨i - 1, by omega, before, form, after, hrest, hform, by omega, by omega⟩

/-! ### The repaired text -/

theorem Decomposes.cons {form text : List α} (hform : code.IsForm form)
    (h : code.Decomposes text) : code.Decomposes (form ++ text) := by
  obtain ⟨forms, hforms, rfl⟩ := h
  exact ⟨form :: forms, List.forall_mem_cons.mpr ⟨hform, hforms⟩, rfl⟩

theorem repairFrom_append (skipped text : List α) :
    code.repairFrom skipped.length (skipped ++ text) = skipped ++ code.repair text := by
  induction skipped with
  | nil => rfl
  | cons a skipped ih =>
    change a :: code.repairFrom skipped.length (skipped ++ text) = _
    rw [ih]
    rfl

/-- A form in front of a text stays. -/
theorem repair_append {form : List α} (hform : code.IsForm form) (after : List α) :
    code.repair (form ++ after) = form ++ code.repair after := by
  obtain ⟨lead, tail, hlead, htail⟩ := hform
  have hmore := more_append (IsForm.intro lead tail hlead htail) after
  unfold repair
  rw [List.cons_append, repairFrom, hmore]
  dsimp only
  rw [repairFrom_append]
  rfl

/-- A mark is put in place of a symbol that begins no form. -/
theorem repair_cons {a : α} {rest : List α} (hmore : code.more a rest = none) :
    code.repair (a :: rest) = code.mark :: code.repair rest := by
  unfold repair
  rw [repairFrom, hmore]

theorem length_repair (text : List α) : (code.repair text).length = text.length := by
  induction text using formInduction code with
  | nil => rfl
  | form form after hform ih =>
    rw [repair_append hform, List.length_append, List.length_append, ih]
  | stray a rest hmore ih => rw [repair_cons hmore, List.length_cons, List.length_cons, ih]

theorem decomposes_repair (text : List α) : code.Decomposes (code.repair text) := by
  induction text using formInduction code with
  | nil => exact ⟨[], fun form hform ↦ absurd hform List.not_mem_nil, rfl⟩
  | form form after hform ih =>
    rw [repair_append hform]
    exact ih.cons hform
  | stray a rest hmore ih =>
    rw [repair_cons hmore]
    exact ih.cons isForm_mark

/-- What is in a form of the text is not changed. -/
theorem getElem?_repair_of_inForm {text : List α} {i : ℕ} (h : code.InForm text i) :
    (code.repair text)[i]? = text[i]? := by
  induction text using formInduction code generalizing i with
  | nil => rfl
  | form form after hform ih =>
    rw [repair_append hform]
    by_cases hi : i < form.length
    · rw [List.getElem?_append_left hi, List.getElem?_append_left hi]
    · have hle : form.length ≤ i := Nat.le_of_not_lt hi
      rw [List.getElem?_append_right hle, List.getElem?_append_right hle]
      exact ih (h.of_append hform hle)
  | stray a rest hmore ih =>
    obtain ⟨j, rfl, hj⟩ := h.of_cons hmore
    rw [repair_cons hmore, List.getElem?_cons_succ, List.getElem?_cons_succ]
    exact ih hj

/-- A text that decomposes stays as it is. -/
theorem repair_of_decomposes {text : List α} (h : code.Decomposes text) :
    code.repair text = text := by
  obtain ⟨forms, hforms, rfl⟩ := h
  induction forms with
  | nil => rfl
  | cons form forms ih =>
    obtain ⟨hform, hrest⟩ := List.forall_mem_cons.mp hforms
    rw [List.flatten_cons, repair_append hform, ih hrest]

theorem repair_repair (text : List α) : code.repair (code.repair text) = code.repair text :=
  repair_of_decomposes (decomposes_repair text)

end FormCode

end Mupnp.Foundation
