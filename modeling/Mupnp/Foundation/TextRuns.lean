import Mathlib.Data.List.Basic
import Mathlib.Tactic.Common

/-!
# The runs of a text

A run of a text is a longest part of it that is not empty and has no delimiter. `runSuffixes` lists
what is left of the text from each of its runs on, in their order; `mem_runSuffixes_iff` says where
the runs begin. `runSuffixes_append_of_delim` and `runSuffixes_of_run` are the steps of a scan that
skips the delimiters in front of a run and goes on behind the delimiter that ends it.
-/

set_option autoImplicit false
set_option relaxedAutoImplicit false

namespace Mupnp.Foundation

variable {α : Type*} (isDelim : α → Bool)

/-- What is left of a text from each of its runs on, where `inside` says whether a run has begun in
front of the text. -/
def runSuffixes : Bool → List α → List (List α)
  | _, [] => []
  | inside, c :: rest =>
    if isDelim c then runSuffixes false rest
    else if inside then runSuffixes true rest
    else (c :: rest) :: runSuffixes true rest

/-- What stands in front of the first delimiter of a text. -/
def firstRun (text : List α) : List α := text.takeWhile fun c ↦ !isDelim c

/-- The runs of a text in their order. -/
def textRuns (text : List α) : List (List α) :=
  (runSuffixes isDelim false text).map (firstRun isDelim)

section runs

variable {isDelim} {front rest text run : List α}

/-- Delimiters in front of a text. -/
theorem runSuffixes_append_of_delim (h : ∀ c ∈ front, isDelim c = true) (text : List α) :
    runSuffixes isDelim false (front ++ text) = runSuffixes isDelim false text := by
  induction front with
  | nil => rfl
  | cons c front ih =>
    rw [List.forall_mem_cons] at h
    rw [List.cons_append, runSuffixes, if_pos h.1]
    exact ih h.2

/-- The rest of a run in front of a text. -/
theorem runSuffixes_append_of_not_delim (h : ∀ c ∈ front, isDelim c = false) (text : List α) :
    runSuffixes isDelim true (front ++ text) = runSuffixes isDelim true text := by
  induction front with
  | nil => rfl
  | cons c front ih =>
    rw [List.forall_mem_cons] at h
    rw [List.cons_append, runSuffixes, h.1, if_neg Bool.false_ne_true, if_pos rfl]
    exact ih h.2

/-- A run with a delimiter behind it, or at the end. -/
theorem runSuffixes_of_run (hne : run ≠ []) (h : ∀ c ∈ run, isDelim c = false)
    (hrest : ∀ c ∈ rest.head?, isDelim c = true) :
    runSuffixes isDelim false (run ++ rest) =
      (run ++ rest) :: runSuffixes isDelim false rest.tail := by
  obtain ⟨c, run, rfl⟩ := List.exists_cons_of_ne_nil hne
  rw [List.forall_mem_cons] at h
  have hbehind : runSuffixes isDelim true rest = runSuffixes isDelim false rest.tail := by
    cases rest with
    | nil => rfl
    | cons d rest => rw [runSuffixes, if_pos (hrest d rfl), List.tail_cons]
  rw [List.cons_append, runSuffixes, h.1, if_neg Bool.false_ne_true, if_neg Bool.false_ne_true,
    runSuffixes_append_of_not_delim h.2, hbehind]

theorem firstRun_append (h : ∀ c ∈ run, isDelim c = false)
    (hrest : ∀ c ∈ rest.head?, isDelim c = true) : firstRun isDelim (run ++ rest) = run := by
  have hbehind : rest.takeWhile (fun c ↦ !isDelim c) = [] := by
    cases rest with
    | nil => rfl
    | cons d rest => rw [List.takeWhile_cons, hrest d rfl]; rfl
  rw [firstRun, List.takeWhile_append_of_pos fun c hc ↦ by rw [h c hc]; rfl, hbehind,
    List.append_nil]

theorem mem_runSuffixes_cons {inside : Bool} {c : α} {suffix : List α} :
    suffix ∈ runSuffixes isDelim inside (c :: rest) ↔
      suffix = c :: rest ∧ isDelim c = false ∧ inside = false ∨
        suffix ∈ runSuffixes isDelim (!isDelim c) rest := by
  rw [runSuffixes]
  cases hc : isDelim c <;> cases inside <;> simp

/-- The character in front of a run, or the beginning, ends what has begun before. -/
theorem mem_runSuffixes_inside_iff {inside : Bool} {suffix : List α} :
    suffix ∈ runSuffixes isDelim inside text ↔
      ∃ front, text = front ++ suffix ∧ (∃ c ∈ suffix.head?, isDelim c = false) ∧
        (front.getLast?.map isDelim).getD (!inside) = true := by
  induction text generalizing inside with
  | nil =>
    refine iff_of_false List.not_mem_nil ?_
    rintro ⟨front, htext, ⟨c, hc, -⟩, -⟩
    rw [(List.append_eq_nil_iff.mp htext.symm).2] at hc
    cases hc
  | cons d rest ih =>
    rw [mem_runSuffixes_cons, ih]
    constructor
    · rintro (⟨rfl, hd, hinside⟩ | ⟨front, rfl, hsuffix, hlast⟩)
      · exact ⟨[], rfl, ⟨d, rfl, hd⟩, by rw [hinside]; rfl⟩
      · refine ⟨d :: front, rfl, hsuffix, ?_⟩
        rw [List.getLast?_cons, Option.map_some, Option.getD_some]
        rwa [Bool.not_not, Option.getD_map] at hlast
    · rintro ⟨_ | ⟨d', front⟩, htext, hsuffix, hlast⟩
      · obtain ⟨c, hc, hdelim⟩ := hsuffix
        rw [List.nil_append] at htext
        rw [← htext] at hc
        obtain rfl := Option.some.inj hc
        exact Or.inl ⟨htext.symm, hdelim, by simpa using hlast⟩
      · obtain ⟨rfl, rfl⟩ := List.cons.inj htext
        refine Or.inr ⟨front, rfl, hsuffix, ?_⟩
        rw [List.getLast?_cons, Option.map_some, Option.getD_some] at hlast
        rwa [Bool.not_not, Option.getD_map]

/-- A run begins at a character that is no delimiter and stands in front or behind one. -/
theorem mem_runSuffixes_iff {suffix : List α} :
    suffix ∈ runSuffixes isDelim false text ↔
      ∃ front, text = front ++ suffix ∧ (∃ c ∈ suffix.head?, isDelim c = false) ∧
        ∀ c ∈ front.getLast?, isDelim c = true := by
  rw [mem_runSuffixes_inside_iff]
  refine exists_congr fun front ↦ and_congr_right' (and_congr_right' ?_)
  cases front.getLast? with
  | none => exact iff_of_true rfl fun c hc ↦ by cases hc
  | some c => exact ⟨fun h d hd ↦ Option.some.inj hd ▸ h, fun h ↦ h c rfl⟩

end runs

end Mupnp.Foundation
