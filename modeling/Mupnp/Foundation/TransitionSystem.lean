import Mathlib.Algebra.BigOperators.Group.List.Basic
import Mathlib.Tactic.Common

/-!
# Guarded transition systems

A system of threads is modelled by one executable function: `step s a` is the state after the
atomic action `a`, or `none` when `a` is not enabled in `s`. The scheduler is the list of actions,
so a statement about every run is a statement about every interleaving.

`run` replays a list of actions. A property kept by every enabled action holds at the end of every
run (`invariant_of_run`); a property kept by the actions that meet a side condition holds at the
end of every run whose actions all meet it (`invariant_of_run_of_allSteps`). A quantity that every
action changes by a known amount is at the end of a run the initial one plus the sum
(`run_measure`). `run_append_eq_some_iff` splits a run at any point.
-/

set_option autoImplicit false
set_option relaxedAutoImplicit false

namespace Mupnp.Foundation

/-- A transition system with states `σ` and atomic actions `α`: the state after an action, or
`none` when the action is not enabled. -/
structure TransitionSystem (σ α : Type*) where
  step : σ → α → Option σ

namespace TransitionSystem

variable {σ α : Type*} (M : TransitionSystem σ α)

/-- Replays a list of actions, oldest first; `none` as soon as one of them is not enabled. -/
def run (s : σ) : List α → Option σ
  | [] => some s
  | a :: rest => (M.step s a).bind fun s' ↦ run s' rest

/-- Every action of the list, taken in the state in which the run takes it, meets the side
condition `ok`. -/
def AllSteps (ok : σ → α → Prop) : σ → List α → Prop
  | _, [] => True
  | s, a :: rest => ok s a ∧ ∀ s', M.step s a = some s' → AllSteps ok s' rest

instance decidableAllSteps (ok : σ → α → Prop) [∀ s a, Decidable (ok s a)] :
    (s : σ) → (actions : List α) → Decidable (M.AllSteps ok s actions)
  | _, [] => .isTrue trivial
  | s, a :: rest =>
    match hstep : M.step s a with
    | none =>
      decidable_of_iff (ok s a)
        ⟨fun hok ↦ ⟨hok, fun _ hnext ↦ by rw [hstep] at hnext; cases hnext⟩, And.left⟩
    | some s' =>
      have := decidableAllSteps ok s' rest
      decidable_of_iff (ok s a ∧ M.AllSteps ok s' rest)
        ⟨fun hok ↦ ⟨hok.1, fun _ hnext ↦ Option.some.inj (hstep.symm.trans hnext) ▸ hok.2⟩,
          fun hok ↦ ⟨hok.1, hok.2 s' hstep⟩⟩

variable {M}

@[simp] theorem run_nil (s : σ) : M.run s [] = some s := rfl

theorem run_cons_eq_some_iff {s t : σ} {a : α} {rest : List α} :
    M.run s (a :: rest) = some t ↔ ∃ s', M.step s a = some s' ∧ M.run s' rest = some t := by
  simp only [run, Option.bind_eq_some_iff]

theorem run_append_eq_some_iff {s t : σ} {first second : List α} :
    M.run s (first ++ second) = some t ↔
      ∃ s', M.run s first = some s' ∧ M.run s' second = some t := by
  induction first generalizing s with
  | nil => simp
  | cons a rest ih =>
    simp only [List.cons_append, run_cons_eq_some_iff, ih]
    constructor
    · rintro ⟨s₁, hstep, s₂, hrest, hsecond⟩
      exact ⟨s₂, ⟨s₁, hstep, hrest⟩, hsecond⟩
    · rintro ⟨s₂, ⟨s₁, hstep, hrest⟩, hsecond⟩
      exact ⟨s₁, hstep, s₂, hrest, hsecond⟩

theorem run_singleton_eq_some_iff {s t : σ} {a : α} :
    M.run s [a] = some t ↔ M.step s a = some t := by
  simp [run_cons_eq_some_iff]

/-- A property kept by every enabled action of a run that meets `ok` holds at its end. -/
theorem invariant_of_run_of_allSteps {ok : σ → α → Prop} {I : σ → Prop}
    (hstep : ∀ s a s', I s → ok s a → M.step s a = some s' → I s') {s t : σ} {actions : List α}
    (hok : M.AllSteps ok s actions) (hs : I s) (hrun : M.run s actions = some t) : I t := by
  induction actions generalizing s with
  | nil =>
    obtain rfl : s = t := by simpa using hrun
    exact hs
  | cons a rest ih =>
    obtain ⟨s', hfirst, hrest⟩ := run_cons_eq_some_iff.mp hrun
    exact ih (hok.2 s' hfirst) (hstep s a s' hs hok.1 hfirst) hrest

theorem AllSteps.imp {ok ok' : σ → α → Prop} (himp : ∀ s a, ok s a → ok' s a) {s : σ}
    {actions : List α} (hok : M.AllSteps ok s actions) : M.AllSteps ok' s actions := by
  induction actions generalizing s with
  | nil => trivial
  | cons a rest ih => exact ⟨himp s a hok.1, fun s' hstep ↦ ih (hok.2 s' hstep)⟩

/-- A property that holds of every action of the list is a side condition met along the run. -/
theorem allSteps_of_forall_mem {ok : α → Prop} (s : σ) {actions : List α}
    (hok : ∀ a ∈ actions, ok a) : M.AllSteps (fun _ a ↦ ok a) s actions := by
  induction actions generalizing s with
  | nil => trivial
  | cons a rest ih =>
    refine ⟨hok a List.mem_cons_self, fun s' _ ↦ ih s' fun b hb ↦ ?_⟩
    exact hok b (List.mem_cons_of_mem a hb)

/-- A property kept by every enabled action whose label meets `ok` holds at the end of every run of
such actions. -/
theorem invariant_of_run_of_forall_mem {ok : α → Prop} {I : σ → Prop}
    (hstep : ∀ s a s', I s → ok a → M.step s a = some s' → I s') {s t : σ} {actions : List α}
    (hok : ∀ a ∈ actions, ok a) (hs : I s) (hrun : M.run s actions = some t) : I t :=
  invariant_of_run_of_allSteps hstep (allSteps_of_forall_mem s hok) hs hrun

/-- A property kept by every enabled action holds at the end of every run. -/
theorem invariant_of_run {I : σ → Prop} (hstep : ∀ s a s', I s → M.step s a = some s' → I s')
    {s t : σ} {actions : List α} (hs : I s) (hrun : M.run s actions = some t) : I t := by
  have hok : ∀ a ∈ actions, True := fun _ _ ↦ trivial
  exact invariant_of_run_of_forall_mem (fun s a s' h _ ↦ hstep s a s' h) hok hs hrun

/-- A quantity that each action changes by an amount depending on the action only is, at the end of
a run, the initial quantity plus the amounts of the actions. -/
theorem run_measure {β : Type*} [AddMonoid β] (measure : σ → β) (amount : α → β)
    (hstep : ∀ s a s', M.step s a = some s' → measure s' = measure s + amount a) {s t : σ}
    {actions : List α} (hrun : M.run s actions = some t) :
    measure t = measure s + (actions.map amount).sum := by
  induction actions generalizing s with
  | nil =>
    obtain rfl : s = t := by simpa using hrun
    simp
  | cons a rest ih =>
    obtain ⟨s', hfirst, hrest⟩ := run_cons_eq_some_iff.mp hrun
    rw [ih hrest, hstep s a s' hfirst, List.map_cons, List.sum_cons, add_assoc]

end TransitionSystem

end Mupnp.Foundation
