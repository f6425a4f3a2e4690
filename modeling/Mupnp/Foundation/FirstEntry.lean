import Mathlib.Data.List.Basic
import Mathlib.Logic.Function.Basic
import Mathlib.Tactic.Common

/-!
# Lists that are read by the first entry of a key

A list may have several entries of one key, of which the first one counts (`firstEntry`), and
entries without a key, which are never found. An entry that is added comes last, and setting a key
changes its first entry, or adds one (`setEntry`).

Read as a map (`firstMap`), the list takes an added entry as an offer, which counts only when there
is none of its key yet, and a key that is set as a value that is written
(`firstMap_append_singleton`, `firstMap_setEntry`). After operations of both kinds a key has the
value that was last written (`foldl_apply_of_lastWritten`).
-/

set_option autoImplicit false
set_option relaxedAutoImplicit false

namespace Mupnp.Foundation

variable {α κ β : Type} [DecidableEq κ]

/-! ### The first entry -/

section entries

variable (key : α → Option κ)

/-- The first entry of a key. -/
def firstEntry (entries : List α) (k : κ) : Option α := entries.find? fun e ↦ key e = some k

/-- Changes the first entry of a key, or adds an entry behind the others. -/
def setEntry (k : κ) (change : α → α) (fresh : α) : List α → List α
  | [] => [fresh]
  | e :: rest => if key e = some k then change e :: rest else e :: setEntry k change fresh rest

variable {key} {entries : List α} {k other : κ} {change : α → α} {fresh : α}

theorem firstEntry_cons_of_eq {e : α} (h : key e = some k) (rest : List α) :
    firstEntry key (e :: rest) k = some e :=
  List.find?_cons_of_pos (decide_eq_true h)

theorem firstEntry_cons_of_ne {e : α} (h : key e ≠ some k) (rest : List α) :
    firstEntry key (e :: rest) k = firstEntry key rest k :=
  List.find?_cons_of_neg (by simpa using h)

theorem firstEntry_append (front back : List α) :
    firstEntry key (front ++ back) k = (firstEntry key front k).or (firstEntry key back k) :=
  List.find?_append

theorem key_of_firstEntry {e : α} (h : firstEntry key entries k = some e) : key e = some k := by
  unfold firstEntry at h
  simpa using List.find?_some h

/-- A key without an entry gets one behind the others. -/
theorem setEntry_of_eq_none (h : firstEntry key entries k = none) :
    setEntry key k change fresh entries = entries ++ [fresh] := by
  induction entries with
  | nil => rfl
  | cons e rest ih =>
    by_cases hkey : key e = some k
    · rw [firstEntry_cons_of_eq hkey] at h
      cases h
    · rw [firstEntry_cons_of_ne hkey] at h
      rw [setEntry, if_neg hkey, ih h, List.cons_append]

/-- A key with an entry has its first one changed, in the place where it is. -/
theorem setEntry_append {front back : List α} {e : α} (hfront : firstEntry key front k = none)
    (he : key e = some k) :
    setEntry key k change fresh (front ++ e :: back) = front ++ change e :: back := by
  induction front with
  | nil => rw [List.nil_append, setEntry, if_pos he, List.nil_append]
  | cons d front ih =>
    by_cases hkey : key d = some k
    · rw [firstEntry_cons_of_eq hkey] at hfront
      cases hfront
    · rw [firstEntry_cons_of_ne hkey] at hfront
      rw [List.cons_append, setEntry, if_neg hkey, ih hfront, List.cons_append]

/-- The first entry of a key has none in front of it. -/
theorem exists_of_firstEntry {e : α} (h : firstEntry key entries k = some e) :
    ∃ front back, entries = front ++ e :: back ∧ firstEntry key front k = none := by
  obtain ⟨-, front, back, hsplit, hfront⟩ := List.find?_eq_some_iff_append.mp h
  refine ⟨front, back, hsplit, List.find?_eq_none.mpr fun d hd ↦ ?_⟩
  simpa using hfront d hd

/-- Setting a key leaves an entry of the key, the changed one when there was one. -/
theorem firstEntry_setEntry_self (hchange : ∀ e, key (change e) = key e)
    (hfresh : key fresh = some k) :
    firstEntry key (setEntry key k change fresh entries) k =
      some ((firstEntry key entries k).elim fresh change) := by
  cases hfirst : firstEntry key entries k with
  | none =>
    rw [setEntry_of_eq_none hfirst, firstEntry_append, hfirst, Option.none_or,
      firstEntry_cons_of_eq hfresh]
    rfl
  | some e =>
    have hkey := key_of_firstEntry hfirst
    obtain ⟨front, back, rfl, hfront⟩ := exists_of_firstEntry hfirst
    rw [setEntry_append hfront hkey, firstEntry_append, hfront, Option.none_or,
      firstEntry_cons_of_eq ((hchange e).trans hkey)]
    rfl

/-- Setting a key does not change what is found under another one. -/
theorem firstEntry_setEntry_of_ne (hchange : ∀ e, key (change e) = key e)
    (hfresh : key fresh = some k) (hne : other ≠ k) :
    firstEntry key (setEntry key k change fresh entries) other = firstEntry key entries other := by
  have hother : ∀ e, key e = some k → key e ≠ some other := fun e hkey hsame ↦
    hne (Option.some.inj (hsame.symm.trans hkey))
  cases hfirst : firstEntry key entries k with
  | none =>
    rw [setEntry_of_eq_none hfirst, firstEntry_append, firstEntry_cons_of_ne (hother fresh hfresh)]
    exact Option.or_none
  | some e =>
    have hkey := key_of_firstEntry hfirst
    obtain ⟨front, back, rfl, hfront⟩ := exists_of_firstEntry hfirst
    rw [setEntry_append hfront hkey, firstEntry_append, firstEntry_append,
      firstEntry_cons_of_ne (hother e hkey),
      firstEntry_cons_of_ne (hother _ ((hchange e).trans hkey))]

/-- The entries that do not have the key keep their order. -/
theorem filter_setEntry (hchange : ∀ e, key (change e) = key e) (hfresh : key fresh = some k) :
    (setEntry key k change fresh entries).filter (fun e ↦ key e ≠ some k) =
      entries.filter fun e ↦ key e ≠ some k := by
  induction entries with
  | nil =>
    rw [setEntry, List.filter_cons_of_neg (by simpa using hfresh)]
  | cons e rest ih =>
    rw [setEntry]
    split_ifs with hkey
    · have hchanged : key (change e) = some k := (hchange e).trans hkey
      rw [List.filter_cons_of_neg (by simpa using hchanged),
        List.filter_cons_of_neg (by simpa using hkey)]
    · rw [List.filter_cons_of_pos (by simpa using hkey), ih,
        List.filter_cons_of_pos (by simpa using hkey)]

/-! ### The map of the first entries -/

/-- The values of the first entries. -/
def firstMap (key : α → Option κ) (value : α → β) (entries : List α) (k : κ) : Option β :=
  (firstEntry key entries k).map value

end entries

/-- What is done to a map: a value is offered for a key, or written under it. A value that is
offered for no key is not taken. -/
inductive MapOperation (κ β : Type) where
  | offer (key : Option κ) (value : β)
  | write (key : κ) (value : β)

namespace MapOperation

/-- A value that is offered is taken when there is none. -/
def apply (map : κ → Option β) : MapOperation κ β → κ → Option β
  | offer none _ => map
  | offer (some k) value => Function.update map k (some ((map k).getD value))
  | write k value => Function.update map k (some value)

/-- The value that an operation writes under a key. -/
def written (k : κ) : MapOperation κ β → Option β
  | offer _ _ => none
  | write key value => if key = k then some value else none

end MapOperation

/-- The value that is written last under a key. -/
def lastWritten (k : κ) : List (MapOperation κ β) → Option β
  | [] => none
  | operation :: rest => (lastWritten k rest).or (operation.written k)

open MapOperation

variable {k : κ} {map : κ → Option β}

theorem apply_of_written {operation : MapOperation κ β} {value : β}
    (h : operation.written k = some value) : operation.apply map k = some value := by
  cases operation with
  | offer key offered => cases h
  | write key other =>
    rw [written] at h
    split_ifs at h with hkey
    subst hkey
    rw [MapOperation.apply, Function.update_self, h]

/-- A key that has a value keeps it until one is written under it. -/
theorem apply_of_written_eq_none {operation : MapOperation κ β} {value : β}
    (h : operation.written k = none) (hmap : map k = some value) :
    operation.apply map k = some value := by
  cases operation with
  | offer key offered =>
    cases key with
    | none => exact hmap
    | some key =>
      rw [MapOperation.apply]
      by_cases hkey : k = key
      · rw [← hkey, Function.update_self, hmap, Option.getD_some]
      · rw [Function.update_of_ne hkey, hmap]
  | write key other =>
    rw [written] at h
    split_ifs at h with hkey
    rw [MapOperation.apply, Function.update_of_ne (Ne.symm hkey), hmap]

theorem foldl_apply_of_lastWritten_eq_none {operations : List (MapOperation κ β)} {value : β}
    (h : lastWritten k operations = none) (hmap : map k = some value) :
    operations.foldl MapOperation.apply map k = some value := by
  induction operations generalizing map with
  | nil => exact hmap
  | cons operation rest ih =>
    obtain ⟨hrest, hwritten⟩ := Option.or_eq_none_iff.mp h
    exact ih hrest (apply_of_written_eq_none hwritten hmap)

/-- After any operations a key has the value that was last written under it. -/
theorem foldl_apply_of_lastWritten {operations : List (MapOperation κ β)} {value : β}
    (h : lastWritten k operations = some value) :
    operations.foldl MapOperation.apply map k = some value := by
  induction operations generalizing map with
  | nil => cases h
  | cons operation rest ih =>
    rw [lastWritten] at h
    cases hrest : lastWritten k rest with
    | some last =>
      rw [hrest, Option.some_or] at h
      exact ih (hrest.trans h)
    | none =>
      rw [hrest, Option.none_or] at h
      rw [List.foldl_cons]
      exact foldl_apply_of_lastWritten_eq_none hrest (apply_of_written h)

/-! ### Lists as maps -/

section lists

variable {key : α → Option κ} {value : α → β} {entries : List α}

/-- An entry that is added is offered to the map. -/
theorem firstMap_append_singleton (e : α) :
    firstMap key value (entries ++ [e]) =
      (offer (key e) (value e)).apply (firstMap key value entries) := by
  funext k
  rw [firstMap, firstEntry_append, Option.map_or]
  cases hkey : key e with
  | none =>
    have hne : key e ≠ some k := by
      rw [hkey]
      exact (Option.some_ne_none k).symm
    rw [firstEntry_cons_of_ne hne]
    exact Option.or_none
  | some own =>
    rw [MapOperation.apply]
    by_cases hown : k = own
    · subst hown
      rw [firstEntry_cons_of_eq hkey, Function.update_self, firstMap]
      cases firstEntry key entries k with
      | none => rfl
      | some first => rfl
    · have hne : key e ≠ some k := fun hsame ↦
        hown (Option.some.inj (hsame.symm.trans hkey))
      rw [firstEntry_cons_of_ne hne, Function.update_of_ne hown]
      exact Option.or_none

/-- A key that is set has its value written. -/
theorem firstMap_setEntry {k : κ} {change : α → α} {fresh : α} {new : β}
    (hchange : ∀ e, key (change e) = key e) (hfresh : key fresh = some k)
    (hvalue : ∀ e, value (change e) = new) (hnew : value fresh = new) :
    firstMap key value (setEntry key k change fresh entries) =
      (write k new).apply (firstMap key value entries) := by
  funext other
  rw [firstMap, MapOperation.apply]
  by_cases hother : other = k
  · subst hother
    rw [firstEntry_setEntry_self hchange hfresh, Function.update_self, Option.map_some]
    cases firstEntry key entries other with
    | none => exact congrArg some hnew
    | some e => exact congrArg some (hvalue e)
  · rw [firstEntry_setEntry_of_ne hchange hfresh hother, Function.update_of_ne hother]
    rfl

end lists

end Mupnp.Foundation
