import Mathlib.Data.List.Basic
import Mathlib.Tactic.Common

/-!
# The first item that passes a test

A lookup takes the first item of a list that passes a test. When it is meant to find the items
with a property, it finds exactly these under three conditions: they pass the test, there is at
most one of them, and no item passes the test in front of it (`find?_eq_some_iff_wanted`).
-/

set_option autoImplicit false
set_option relaxedAutoImplicit false

namespace Mupnp.Foundation

variable {α : Type*}

/-- The items that are wanted are the ones that a lookup with a test finds: an item that passes is
wanted itself, or stands behind one that is. -/
structure SelectsExactly (items : List α) (test : α → Bool) (wanted : α → Prop) : Prop where
  passes : ∀ a ∈ items, wanted a → test a = true
  unique : ∀ a ∈ items, ∀ b ∈ items, wanted a → wanted b → a = b
  first : ∀ front a back, items = front ++ a :: back → test a = true →
    ∃ b ∈ front ++ [a], wanted b

variable {items : List α} {test : α → Bool} {wanted : α → Prop}

/-- An item that passes bounds what the lookup finds. -/
theorem exists_find?_of_split {front back : List α} {a : α} (hsplit : items = front ++ a :: back)
    (ha : test a = true) : ∃ b ∈ front ++ [a], items.find? test = some b := by
  have hsome : ((front ++ [a]).find? test).isSome = true :=
    List.find?_isSome.mpr ⟨a, List.mem_append_right _ List.mem_cons_self, ha⟩
  obtain ⟨b, hb⟩ := Option.isSome_iff_exists.mp hsome
  have hitems : items = front ++ [a] ++ back := by
    rw [hsplit, List.append_assoc]
    rfl
  refine ⟨b, List.mem_of_find?_eq_some hb, ?_⟩
  rw [hitems, List.find?_append, hb]
  rfl

theorem SelectsExactly.wanted_of_find? (h : SelectsExactly items test wanted) {a : α}
    (hfind : items.find? test = some a) : wanted a := by
  obtain ⟨ha, front, back, hsplit, hfront⟩ := List.find?_eq_some_iff_append.mp hfind
  obtain ⟨b, hb, hwanted⟩ := h.first front a back hsplit ha
  rcases List.mem_append.mp hb with hmem | hmem
  · have hitem : b ∈ items := hsplit ▸ List.mem_append_left _ hmem
    have hpasses := h.passes b hitem hwanted
    have hfails := hfront b hmem
    rw [hpasses] at hfails
    exact absurd hfails (by decide)
  · rwa [← List.mem_singleton.mp hmem]

/-- The lookup finds exactly the items that are wanted. -/
theorem find?_eq_some_iff_wanted :
    (∀ a ∈ items, items.find? test = some a ↔ wanted a) ↔ SelectsExactly items test wanted := by
  constructor
  · intro hfind
    refine ⟨fun a ha hwanted ↦ List.find?_some ((hfind a ha).mpr hwanted), ?_, ?_⟩
    · intro a ha b hb hwantedA hwantedB
      exact Option.some.inj (((hfind a ha).mpr hwantedA).symm.trans ((hfind b hb).mpr hwantedB))
    · intro front a back hsplit ha
      obtain ⟨b, hb, hfound⟩ := exists_find?_of_split hsplit ha
      exact ⟨b, hb, (hfind b (List.mem_of_find?_eq_some hfound)).mp hfound⟩
  · intro h a ha
    refine ⟨h.wanted_of_find?, fun hwanted ↦ ?_⟩
    have hsome : (items.find? test).isSome = true :=
      List.find?_isSome.mpr ⟨a, ha, h.passes a ha hwanted⟩
    obtain ⟨b, hb⟩ := Option.isSome_iff_exists.mp hsome
    rw [hb, h.unique b (List.mem_of_find?_eq_some hb) a ha (h.wanted_of_find? hb) hwanted]

/-- The three conditions, said of what the items are looked up by. -/
theorem selectsExactly_iff_of_map {β : Type*} {f : α → β} (accepted asked : β → Prop)
    (hinj : ∀ a ∈ items, ∀ b ∈ items, f a = f b → a = b)
    (htest : ∀ a ∈ items, test a = true ↔ accepted (f a))
    (hwanted : ∀ a ∈ items, wanted a ↔ asked (f a)) :
    SelectsExactly items test wanted ↔
      (∀ b ∈ items.map f, asked b → accepted b) ∧
        (∀ b ∈ items.map f, ∀ c ∈ items.map f, asked b → asked c → b = c) ∧
        ∀ front b back, items.map f = front ++ b :: back → accepted b →
          ∃ c ∈ front ++ [b], asked c := by
  have hsub : ∀ {front back : List α} {a b : α}, items = front ++ a :: back → b ∈ front ++ [a] →
      b ∈ items := by
    intro front back a b hsplit hb
    rw [hsplit, ← List.singleton_append, ← List.append_assoc]
    exact List.mem_append_left _ hb
  constructor
  · intro h
    refine ⟨fun b hb hasked ↦ ?_, fun b hb c hc haskedB haskedC ↦ ?_,
      fun front b back hsplit haccepted ↦ ?_⟩
    · obtain ⟨a, ha, rfl⟩ := List.mem_map.mp hb
      exact (htest a ha).mp (h.passes a ha ((hwanted a ha).mpr hasked))
    · obtain ⟨a, ha, rfl⟩ := List.mem_map.mp hb
      obtain ⟨a', ha', rfl⟩ := List.mem_map.mp hc
      exact congrArg f (h.unique a ha a' ha' ((hwanted a ha).mpr haskedB)
        ((hwanted a' ha').mpr haskedC))
    · obtain ⟨before, behind, hitems, rfl, hbehind⟩ := List.map_eq_append_iff.mp hsplit
      obtain ⟨a, after, rfl, rfl, -⟩ := List.map_eq_cons_iff.mp hbehind
      have ha : a ∈ items := hsub hitems (List.mem_append_right _ (List.mem_singleton_self a))
      obtain ⟨c, hc, hasked⟩ := h.first before a after hitems ((htest a ha).mpr haccepted)
      refine ⟨f c, ?_, (hwanted c (hsub hitems hc)).mp hasked⟩
      rw [← List.map_singleton, ← List.map_append]
      exact List.mem_map_of_mem hc
  · rintro ⟨haccepted, hunique, hfirst⟩
    refine ⟨fun a ha hasked ↦ ?_, fun a ha b hb haskedA haskedB ↦ ?_,
      fun front a back hsplit hpasses ↦ ?_⟩
    · exact (htest a ha).mpr (haccepted (f a) (List.mem_map_of_mem ha) ((hwanted a ha).mp hasked))
    · exact hinj a ha b hb (hunique (f a) (List.mem_map_of_mem ha) (f b) (List.mem_map_of_mem hb)
        ((hwanted a ha).mp haskedA) ((hwanted b hb).mp haskedB))
    · have ha : a ∈ items := hsub hsplit (List.mem_append_right _ (List.mem_singleton_self a))
      obtain ⟨c, hc, hasked⟩ := hfirst (front.map f) (f a) (back.map f)
        (by rw [hsplit, List.map_append, List.map_cons]) ((htest a ha).mp hpasses)
      rw [← List.map_singleton, ← List.map_append] at hc
      obtain ⟨b, hb, rfl⟩ := List.mem_map.mp hc
      exact ⟨b, hb, (hwanted b (hsub hsplit hb)).mpr hasked⟩

end Mupnp.Foundation
