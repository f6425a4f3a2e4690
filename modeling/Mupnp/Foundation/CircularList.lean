import Mathlib.Data.List.Nodup
import Mathlib.Tactic.Common

/-!
# Circular doubly linked lists

Intrusive circular lists with a head: every record carries the two links, and `none` is the head
itself. The operations are single assignments, so that they can be interleaved.

`Chained links opened records` says that the records are linked both ways in this order, except that
the record after an open cursor is linked back only, as it is in the middle of an insertion. An
insertion at the end opens the last cursor (`Chained.insertBack`) and closes it again
(`Chained.close`); removing a record that no open cursor touches keeps the rest chained
(`Chained.remove`). A walk along the next links meets the records up to the first open
cursor (`Chained.mem_walk_iff`).
-/

set_option autoImplicit false
set_option relaxedAutoImplicit false

namespace Mupnp.Foundation

/-- The two links of the head (`none`) and of every record. -/
structure Links (ι : Type*) where
  next : Option ι → Option ι
  prev : Option ι → Option ι

namespace Links

variable {ι : Type*} [DecidableEq ι]

/-- A head that is linked to itself. -/
def init : Links ι := ⟨fun cursor ↦ cursor, fun cursor ↦ cursor⟩

def setNext (links : Links ι) (cursor target : Option ι) : Links ι :=
  { links with next := fun other ↦ if other = cursor then target else links.next other }

def setPrev (links : Links ι) (cursor target : Option ι) : Links ι :=
  { links with prev := fun other ↦ if other = cursor then target else links.prev other }

/-- Links a record to itself. -/
def isolate (links : Links ι) (record : ι) : Links ι :=
  (links.setNext (some record) (some record)).setPrev (some record) (some record)

/-- Takes a record out of its list and links it to itself. -/
def remove (links : Links ι) (record : ι) : Links ι :=
  let bypassed := links.setNext (links.prev (some record)) (links.next (some record))
  (bypassed.setPrev (bypassed.next (some record)) (bypassed.prev (some record))).isolate record

/-- The records met along the next links up to the head. -/
def walk (links : Links ι) : ℕ → Option ι → List ι
  | 0, _ => []
  | fuel + 1, cursor =>
    match links.next cursor with
    | none => []
    | some record => record :: walk links fuel (some record)

@[simp] theorem setNext_next (links : Links ι) (cursor target other : Option ι) :
    (links.setNext cursor target).next other =
      if other = cursor then target else links.next other := rfl

@[simp] theorem setNext_prev (links : Links ι) (cursor target : Option ι) :
    (links.setNext cursor target).prev = links.prev := rfl

@[simp] theorem setPrev_prev (links : Links ι) (cursor target other : Option ι) :
    (links.setPrev cursor target).prev other =
      if other = cursor then target else links.prev other := rfl

@[simp] theorem setPrev_next (links : Links ι) (cursor target : Option ι) :
    (links.setPrev cursor target).next = links.next := rfl

theorem isolate_next_of_ne {links : Links ι} {record : ι} {cursor : Option ι}
    (hne : cursor ≠ some record) : (links.isolate record).next cursor = links.next cursor := by
  simp [isolate, hne]

theorem isolate_prev_of_ne {links : Links ι} {record : ι} {cursor : Option ι}
    (hne : cursor ≠ some record) : (links.isolate record).prev cursor = links.prev cursor := by
  simp [isolate, hne]

@[simp] theorem isolate_next_self (links : Links ι) (record : ι) :
    (links.isolate record).next (some record) = some record := by
  simp [isolate]

@[simp] theorem isolate_prev_self (links : Links ι) (record : ι) :
    (links.isolate record).prev (some record) = some record := by
  simp [isolate]

/-- Removing a record that is linked to itself changes nothing. -/
theorem remove_of_self {links : Links ι} {record : ι}
    (hnext : links.next (some record) = some record)
    (hprev : links.prev (some record) = some record) : links.remove record = links := by
  have hsame : ∀ f : Option ι → Option ι, f (some record) = some record →
      (fun other ↦ if other = some record then some record else f other) = f := by
    intro f hf
    funext other
    by_cases hother : other = some record
    · rw [if_pos hother, hother, hf]
    · rw [if_neg hother]
  have hset : links.setNext (some record) (some record) = links := by
    rw [setNext, hsame _ hnext]
  have hset' : links.setPrev (some record) (some record) = links := by
    rw [setPrev, hsame _ hprev]
  simp only [remove, isolate, hprev, hnext, hset, hset']

theorem remove_next_of_ne {links : Links ι} {record : ι} {cursor : Option ι}
    (hne : cursor ≠ some record) :
    (links.remove record).next cursor =
      if cursor = links.prev (some record) then links.next (some record)
      else links.next cursor := by
  rw [remove, isolate_next_of_ne hne, setPrev_next, setNext_next]

theorem remove_prev_of_ne {links : Links ι} {record : ι} {cursor : Option ι}
    (hne : cursor ≠ some record) :
    (links.remove record).prev cursor =
      if cursor = links.next (some record) then links.prev (some record)
      else links.prev cursor := by
  have hnext : (links.setNext (links.prev (some record)) (links.next (some record))).next
      (some record) = links.next (some record) := by
    rw [setNext_next]
    split_ifs <;> rfl
  rw [remove, isolate_prev_of_ne hne, setPrev_prev, hnext, setNext_prev]

@[simp] theorem remove_next_self (links : Links ι) (record : ι) :
    (links.remove record).next (some record) = some record := by
  rw [remove, isolate_next_self]

@[simp] theorem remove_prev_self (links : Links ι) (record : ι) :
    (links.remove record).prev (some record) = some record := by
  rw [remove, isolate_prev_self]

end Links

/-- The records are linked in this order; a record after an open cursor is linked back only. -/
structure Chained {ι : Type*} (links : Links ι) (opened : Option ι → Prop) (records : List ι) :
    Prop where
  nodup : records.Nodup
  prev : ∀ before after, records = before ++ after →
    links.prev after.head? = before.getLast?
  next : ∀ before after, records = before ++ after → ¬ opened before.getLast? →
    links.next before.getLast? = after.head?
  next_open : ∀ before after, records = before ++ after → opened before.getLast? →
    links.next before.getLast? = none

namespace Chained

variable {ι : Type*} {links : Links ι} {opened : Option ι → Prop} {records : List ι}

/-! ### Cursors -/

/-- The last record before a cut says where the cut is. -/
theorem cut_eq_of_getLast? (hnodup : records.Nodup) {before after before' after' : List ι}
    (hcut : records = before ++ after) (hcut' : records = before' ++ after')
    (hlast : before.getLast? = before'.getLast?) : before = before' ∧ after = after' := by
  have key : ∀ {first between rest : List ι}, (first ++ between ++ rest).Nodup →
      first.getLast? = (first ++ between).getLast? → between = [] := by
    intro first between rest hnodup hlast
    by_contra hne
    rw [List.getLast?_append_of_ne_nil _ hne, List.getLast?_eq_getLast_of_ne_nil hne] at hlast
    have hfirst := List.mem_of_getLast? hlast
    have hdisjoint := (List.nodup_append.mp (List.nodup_append.mp hnodup).1).2.2
    exact hdisjoint _ hfirst _ (List.getLast_mem hne) rfl
  rcases List.append_eq_append_iff.mp (hcut.symm.trans hcut') with
    ⟨between, hbefore, hafter⟩ | ⟨between, hbefore, hafter⟩
  · obtain rfl := @key before between after' (by rwa [← hbefore, ← hcut']) (hbefore ▸ hlast)
    exact ⟨by simpa using hbefore.symm, by simpa using hafter⟩
  · obtain rfl := @key before' between after (by rwa [← hbefore, ← hcut]) (hbefore ▸ hlast.symm)
    exact ⟨by simpa using hbefore, by simpa using hafter.symm⟩

/-- The first record after a cut says where the cut is. -/
theorem cut_eq_of_head? (hnodup : records.Nodup) {before after before' after' : List ι}
    (hcut : records = before ++ after) (hcut' : records = before' ++ after')
    (hhead : after.head? = after'.head?) : before = before' ∧ after = after' := by
  have hlast : after.reverse.getLast? = after'.reverse.getLast? := by
    rw [List.getLast?_reverse, List.getLast?_reverse, hhead]
  have hnodup' : records.reverse.Nodup := List.nodup_reverse.mpr hnodup
  obtain ⟨hafter, hbefore⟩ := cut_eq_of_getLast? hnodup'
    (by rw [hcut, List.reverse_append]) (by rw [hcut', List.reverse_append]) hlast
  exact ⟨List.reverse_injective hbefore, List.reverse_injective hafter⟩

theorem append_sublist_middle (before after : List ι) (record : ι) :
    (before ++ after).Sublist (before ++ record :: after) :=
  (List.sublist_cons_self record after).append_left before

/-- Every cut of the chain without a record is the place of that record or a cut of the chain. -/
theorem cut_of_remove {record : ι} {before after before' after' : List ι}
    (hnodup : (before ++ record :: after).Nodup) (hcut : before ++ after = before' ++ after') :
    (before' = before ∧ after' = after) ∨
      ∃ front back, before ++ record :: after = front ++ back ∧
        front.getLast? = before'.getLast? ∧ back.head? = after'.head? ∧
        before'.getLast? ≠ before.getLast? ∧ after'.head? ≠ after.head? := by
  have hnodup' : (before ++ after).Nodup :=
    hnodup.sublist (append_sublist_middle before after record)
  have hplace : ∀ {front back : List ι}, before ++ after = front ++ back → front ≠ before →
      front.getLast? ≠ before.getLast? ∧ back.head? ≠ after.head? := by
    intro front back hfront hne
    exact ⟨fun hlast ↦ hne (cut_eq_of_getLast? hnodup' hfront rfl hlast).1,
      fun hhead ↦ hne (cut_eq_of_head? hnodup' hfront rfl hhead).1⟩
  rcases List.append_eq_append_iff.mp hcut with ⟨between, hbefore, hafter⟩ |
    ⟨between, hbefore, hafter⟩
  · by_cases hbetween : between = []
    · subst hbetween
      exact .inl ⟨by simpa using hbefore, by simpa using hafter.symm⟩
    · have hne : before' ≠ before := fun h ↦ hbetween (by simpa [h] using hbefore)
      refine .inr ⟨before ++ record :: between, after', by simp [hafter], ?_, rfl, hplace hcut hne⟩
      rw [hbefore, List.getLast?_append_of_ne_nil _ hbetween,
        List.getLast?_append_of_ne_nil _ (List.cons_ne_nil _ _),
        List.getLast?_cons_of_ne_nil hbetween]
  · by_cases hbetween : between = []
    · subst hbetween
      exact .inl ⟨by simpa using hbefore.symm, by simpa using hafter⟩
    · have hne : before' ≠ before := fun h ↦ hbetween (by simpa [h] using hbefore)
      refine .inr ⟨before', between ++ record :: after, by simp [hbefore], rfl, ?_, hplace hcut hne⟩
      rw [hafter, List.head?_append_of_ne_nil _ hbetween, List.head?_append_of_ne_nil _ hbetween]

/-! ### Operations -/

theorem init : Chained (Links.init : Links ι) (fun _ ↦ False) [] where
  nodup := List.nodup_nil
  prev := fun before after hcut ↦ by
    obtain ⟨rfl, rfl⟩ := List.append_eq_nil_iff.mp hcut.symm
    rfl
  next := fun before after hcut _ ↦ by
    obtain ⟨rfl, rfl⟩ := List.append_eq_nil_iff.mp hcut.symm
    rfl
  next_open := fun _ _ _ hopen ↦ hopen.elim

/-- The chain depends on the links of the head and of its records only. -/
theorem congr (h : Chained links opened records) {links' : Links ι} {opened' : Option ι → Prop}
    (hnext : ∀ cursor, (∀ record ∈ cursor, record ∈ records) →
      links'.next cursor = links.next cursor)
    (hprev : ∀ cursor, (∀ record ∈ cursor, record ∈ records) →
      links'.prev cursor = links.prev cursor)
    (hopen : ∀ cursor, (∀ record ∈ cursor, record ∈ records) → (opened' cursor ↔ opened cursor)) :
    Chained links' opened' records := by
  have hlast : ∀ {before after : List ι}, records = before ++ after →
      ∀ record ∈ before.getLast?, record ∈ records := fun hcut record hmem ↦ by
    rw [hcut]
    exact List.mem_append_left _ (List.mem_of_getLast? hmem)
  have hhead : ∀ {before after : List ι}, records = before ++ after →
      ∀ record ∈ after.head?, record ∈ records := fun hcut record hmem ↦ by
    rw [hcut]
    exact List.mem_append_right _ (List.mem_of_head? hmem)
  refine ⟨h.nodup, fun before after hcut ↦ ?_, fun before after hcut hclosed ↦ ?_,
    fun before after hcut hopened ↦ ?_⟩
  · rw [hprev _ (hhead hcut)]
    exact h.prev before after hcut
  · rw [hnext _ (hlast hcut)]
    exact h.next before after hcut fun hopened ↦ hclosed ((hopen _ (hlast hcut)).mpr hopened)
  · rw [hnext _ (hlast hcut)]
    exact h.next_open before after hcut ((hopen _ (hlast hcut)).mp hopened)

/-- A record between cursors that are not open can be removed. -/
theorem remove [DecidableEq ι] {record : ι} {before after : List ι}
    (h : Chained links opened (before ++ record :: after)) (hbefore : ¬ opened before.getLast?)
    (hrecord : ¬ opened (some record)) :
    Chained (links.remove record) opened (before ++ after) := by
  have hprev : links.prev (some record) = before.getLast? := h.prev before (record :: after) rfl
  have hlast : (before ++ [record]).getLast? = some record := by simp
  have hnext : links.next (some record) = after.head? := by
    rw [← hlast]
    exact h.next (before ++ [record]) after (by simp) (by rwa [hlast])
  have hnodup : (before ++ after).Nodup :=
    h.nodup.sublist (append_sublist_middle before after record)
  have hne : ∀ {front back : List ι}, before ++ after = front ++ back →
      front.getLast? ≠ some record ∧ back.head? ≠ some record := by
    intro front back hcut
    have hmem : record ∉ before ++ after := by
      have := (List.nodup_middle.mp h.nodup)
      exact (List.nodup_cons.mp this).1
    rw [hcut] at hmem
    exact ⟨fun hmem' ↦ hmem (List.mem_append_left _ (List.mem_of_getLast? hmem')),
      fun hmem' ↦ hmem (List.mem_append_right _ (List.mem_of_head? hmem'))⟩
  refine ⟨hnodup, fun front back hcut ↦ ?_, fun front back hcut hclosed ↦ ?_,
    fun front back hcut hopened ↦ ?_⟩
  · rw [Links.remove_prev_of_ne (hne hcut).2, hprev, hnext]
    rcases cut_of_remove h.nodup hcut with ⟨rfl, rfl⟩ | ⟨front', back', hcut', hl, hh, -, hdiff⟩
    · rw [if_pos rfl]
    · rw [if_neg hdiff, ← hh, ← hl]
      exact h.prev front' back' hcut'
  · rw [Links.remove_next_of_ne (hne hcut).1, hprev, hnext]
    rcases cut_of_remove h.nodup hcut with ⟨rfl, rfl⟩ | ⟨front', back', hcut', hl, hh, hdiff, -⟩
    · rw [if_pos rfl]
    · rw [if_neg hdiff, ← hh, ← hl]
      exact h.next front' back' hcut' (by rwa [hl])
  · rw [Links.remove_next_of_ne (hne hcut).1, hprev, hnext]
    rcases cut_of_remove h.nodup hcut with ⟨rfl, rfl⟩ | ⟨front', back', hcut', hl, hh, hdiff, -⟩
    · exact absurd hopened hbefore
    · rw [if_neg hdiff, ← hl]
      exact h.next_open front' back' hcut' (by rwa [hl])

/-- The back link of the head to a new record whose own links are set opens the last cursor. -/
theorem insertBack [DecidableEq ι] (h : Chained links opened records) {record : ι}
    (hnew : record ∉ records) (hprev : links.prev (some record) = records.getLast?)
    (hnext : links.next (some record) = none) (hlast : ¬ opened records.getLast?) :
    Chained (links.setPrev (links.next records.getLast?) (some record))
      (fun cursor ↦ opened cursor ∨ cursor = records.getLast?) (records ++ [record]) := by
  have hend : links.next records.getLast? = none := by
    rw [h.next records [] (by simp) hlast]
    rfl
  have hself : (some record : Option ι) ≠ records.getLast? := fun heq ↦
    hnew (List.mem_of_getLast? heq.symm)
  have hcuts : ∀ {before after : List ι}, records ++ [record] = before ++ after →
      (before = records ++ [record] ∧ after = []) ∨ (before = records ∧ after = [record]) ∨
        ∃ back, back ≠ [] ∧ records = before ++ back ∧ after.head? = back.head? ∧
          after ≠ [] ∧ before.getLast? ≠ records.getLast? := by
    intro before after hcut
    rcases List.append_eq_append_iff.mp hcut with ⟨between, hbefore, hafter⟩ |
      ⟨between, hbefore, hafter⟩
    · rcases List.singleton_eq_append_iff.mp hafter with ⟨rfl, rfl⟩ | ⟨rfl, rfl⟩
      · exact .inr (.inl ⟨by simpa using hbefore, rfl⟩)
      · exact .inl ⟨hbefore, rfl⟩
    · by_cases hbetween : between = []
      · subst hbetween
        exact .inr (.inl ⟨by simpa using hbefore.symm, by simpa using hafter⟩)
      · refine .inr (.inr ⟨between, hbetween, hbefore, ?_, by simp [hafter], fun heq ↦ hbetween ?_⟩)
        · rw [hafter, List.head?_append_of_ne_nil _ hbetween]
        · exact (cut_eq_of_getLast? h.nodup hbefore (List.append_nil records).symm heq).2
  refine ⟨?_, fun before after hcut ↦ ?_, fun before after hcut hclosed ↦ ?_,
    fun before after hcut hopened ↦ ?_⟩
  · exact List.nodup_append.mpr ⟨h.nodup, by simp, fun a ha b hb heq ↦
      hnew (by rw [← List.mem_singleton.mp hb, ← heq]; exact ha)⟩
  · rw [hend, Links.setPrev_prev]
    rcases hcuts hcut with ⟨rfl, rfl⟩ | ⟨rfl, rfl⟩ | ⟨back, hback, hcut', hhead, hafter, -⟩
    · simp
    · simpa using hprev
    · obtain ⟨first, rest, rfl⟩ := List.exists_cons_of_ne_nil hback
      rw [hhead, if_neg (by simp)]
      exact h.prev before (first :: rest) hcut'
  · rw [Links.setPrev_next]
    rcases hcuts hcut with ⟨rfl, rfl⟩ | ⟨rfl, rfl⟩ | ⟨back, hback, hcut', hhead, hafter, -⟩
    · simpa using hnext
    · exact absurd (.inr rfl) hclosed
    · rw [hhead]
      exact h.next before back hcut' fun hopened ↦ hclosed (.inl hopened)
  · rw [Links.setPrev_next]
    rcases hcuts hcut with ⟨rfl, rfl⟩ | ⟨rfl, rfl⟩ | ⟨back, hback, hcut', hhead, hafter, hdiff⟩
    · simpa using hnext
    · exact hend
    · exact h.next_open before back hcut' (hopened.resolve_right hdiff)

/-- The next link of an open cursor to the record after it closes the cursor. -/
theorem close [DecidableEq ι] {record : ι} {before after : List ι}
    (h : Chained links opened (before ++ record :: after)) :
    Chained (links.setNext before.getLast? (some record))
      (fun cursor ↦ opened cursor ∧ cursor ≠ before.getLast?) (before ++ record :: after) := by
  refine ⟨h.nodup, h.prev, fun front back hcut hclosed ↦ ?_, fun front back hcut hopened ↦ ?_⟩
  · rw [Links.setNext_next]
    by_cases hlast : front.getLast? = before.getLast?
    · obtain ⟨rfl, rfl⟩ := cut_eq_of_getLast? h.nodup hcut rfl hlast
      rw [if_pos rfl]
      rfl
    · rw [if_neg hlast]
      exact h.next front back hcut fun hopened ↦ hclosed ⟨hopened, hlast⟩
  · rw [Links.setNext_next, if_neg hopened.2]
    exact h.next_open front back hcut hopened.1

/-! ### Walks -/

/-- A next link leads to the next record of the chain. -/
theorem cut_of_next {before after : List ι} (h : Chained links opened records)
    (hcut : records = before ++ after) {record : ι}
    (hnext : links.next before.getLast? = some record) :
    ¬ opened before.getLast? ∧ ∃ rest, after = record :: rest := by
  have hclosed : ¬ opened before.getLast? := fun hopened ↦ by
    rw [h.next_open before after hcut hopened] at hnext
    cases hnext
  refine ⟨hclosed, ?_⟩
  rw [h.next before after hcut hclosed] at hnext
  obtain ⟨rest, hrest⟩ := List.head?_eq_some_iff.mp hnext
  exact ⟨rest, hrest⟩

/-- A next link from the head or a record of the chain leads to the head or a record of the
chain. -/
theorem mem_of_next (h : Chained links opened records) {cursor : Option ι} {record : ι}
    (hcursor : ∀ other ∈ cursor, other ∈ records) (hnext : links.next cursor = some record) :
    record ∈ records := by
  have hcut : ∃ before after, records = before ++ after ∧ before.getLast? = cursor := by
    cases cursor with
    | none => exact ⟨[], records, rfl, rfl⟩
    | some other =>
      obtain ⟨before, after, hrecords⟩ := List.append_of_mem (hcursor other rfl)
      exact ⟨before ++ [other], after, by simp [hrecords], by simp⟩
  obtain ⟨before, after, hrecords, rfl⟩ := hcut
  obtain ⟨-, rest, rfl⟩ := h.cut_of_next hrecords hnext
  rw [hrecords]
  exact List.mem_append_right _ List.mem_cons_self

/-- The records from the head up to the first open cursor. -/
def Reached (opened : Option ι → Prop) (records : List ι) (record : ι) : Prop :=
  ∃ front back, records = front ++ record :: back ∧
    ∀ first second, front = first ++ second → ¬ opened first.getLast?

theorem Reached.mem {record : ι} (h : Reached opened records record) : record ∈ records := by
  obtain ⟨front, back, rfl, -⟩ := h
  exact List.mem_append_right _ List.mem_cons_self

/-- A walk meets the records that are reached. -/
theorem mem_walk_iff (h : Chained links opened records) {fuel : ℕ} (hfuel : records.length ≤ fuel)
    {record : ι} : record ∈ links.walk fuel none ↔ Reached opened records record := by
  have key : ∀ (fuel : ℕ) (before after : List ι), records = before ++ after →
      after.length ≤ fuel → (record ∈ links.walk fuel before.getLast? ↔
        ∃ front back, after = front ++ record :: back ∧
          ∀ first second, front = first ++ second → ¬ opened (before ++ first).getLast?) := by
    intro fuel
    induction fuel with
    | zero =>
      intro before after _ hle
      obtain rfl := List.eq_nil_of_length_eq_zero (Nat.le_zero.mp hle)
      simp [Links.walk]
    | succ fuel ih =>
      intro before after hcut hle
      by_cases hopened : opened before.getLast?
      · rw [Links.walk, h.next_open before after hcut hopened]
        refine iff_of_false List.not_mem_nil ?_
        rintro ⟨front, back, -, hclosed⟩
        exact hclosed [] front rfl (by simpa using hopened)
      · rw [Links.walk, h.next before after hcut hopened]
        cases after with
        | nil => simp
        | cons first rest =>
          have hrest := ih (before ++ [first]) rest (by simp [hcut])
            (Nat.le_of_succ_le_succ (by simpa using hle))
          rw [List.getLast?_append_of_ne_nil _ (List.cons_ne_nil _ _)] at hrest
          rw [List.head?_cons]
          simp only [List.mem_cons]
          refine Iff.trans (or_congr_right hrest) ⟨?_, ?_⟩
          · rintro (rfl | ⟨front, back, rfl, hclosed⟩)
            · refine ⟨[], rest, rfl, fun first' second hnil ↦ ?_⟩
              obtain ⟨rfl, rfl⟩ := List.append_eq_nil_iff.mp hnil.symm
              simpa using hopened
            · refine ⟨first :: front, back, rfl, fun first' second hsplit ↦ ?_⟩
              rcases List.cons_eq_append_iff.mp hsplit with ⟨rfl, -⟩ | ⟨tail, rfl, htail⟩
              · simpa using hopened
              · simpa using hclosed tail second htail
          · rintro ⟨front, back, hsplit, hclosed⟩
            rcases List.cons_eq_append_iff.mp hsplit with ⟨rfl, hhead⟩ | ⟨tail, rfl, htail⟩
            · exact .inl (List.cons.inj hhead).1
            · refine .inr ⟨tail, back, htail, fun first' second hfront ↦ ?_⟩
              simpa using hclosed (first :: first') second (by simp [hfront])
  have hwalk := key fuel [] records rfl hfuel
  simpa [Reached] using hwalk

/-- Removing a record leaves the other records as far from the head as they were. -/
theorem reached_remove_iff {record other : ι} {before after : List ι}
    (hnodup : (before ++ record :: after).Nodup) (hrecord : ¬ opened (some record)) :
    Reached opened (before ++ after) other ↔
      other ≠ record ∧ Reached opened (before ++ record :: after) other := by
  have hmem : record ∉ before ++ after := (List.nodup_cons.mp (List.nodup_middle.mp hnodup)).1
  constructor
  · rintro ⟨front, back, hcut, hclosed⟩
    refine ⟨fun heq ↦ hmem (by rw [hcut, heq]; simp), ?_⟩
    rcases List.append_eq_append_iff.mp hcut with ⟨between, hfront, hafter⟩ |
      ⟨between, hbefore, hback⟩
    · refine ⟨before ++ record :: between, back, by simp [hafter], fun first second hsplit ↦ ?_⟩
      rcases List.append_eq_append_iff.mp hsplit with ⟨middle, hfirst, hsecond⟩ |
        ⟨middle, hbefore, hsecond⟩
      · rcases List.cons_eq_append_iff.mp hsecond with ⟨rfl, -⟩ | ⟨tail, rfl, htail⟩
        · rw [hfirst]
          exact hclosed _ between (by simpa using hfront)
        · by_cases hnil : tail = []
          · simpa [hfirst, hnil] using hrecord
          · have := hclosed (before ++ tail) second (by rw [hfront, htail, List.append_assoc])
            rw [hfirst, List.getLast?_append_of_ne_nil _ (List.cons_ne_nil _ _),
              List.getLast?_cons_of_ne_nil hnil]
            rwa [List.getLast?_append_of_ne_nil _ hnil] at this
      · exact hclosed first (middle ++ between) (by rw [hfront, hbefore, List.append_assoc])
    · cases between with
      | nil =>
        refine ⟨front ++ [record], back, by simp_all, fun first second hsplit ↦ ?_⟩
        rcases List.append_eq_append_iff.mp hsplit with ⟨middle, hfirst, hsecond⟩ |
          ⟨middle, hfront, hsecond⟩
        · rcases List.singleton_eq_append_iff.mp hsecond with ⟨rfl, -⟩ | ⟨rfl, -⟩
          · rw [hfirst]
            exact hclosed _ [] (by simp)
          · simpa [hfirst] using hrecord
        · exact hclosed first middle hfront
      | cons first rest =>
        obtain ⟨rfl, rfl⟩ := List.cons.inj hback
        exact ⟨front, rest ++ record :: after, by simp [hbefore], hclosed⟩
  · rintro ⟨hne, front, back, hcut, hclosed⟩
    rcases List.append_eq_append_iff.mp hcut with ⟨between, hfront, hafter⟩ |
      ⟨between, hbefore, hback⟩
    · rcases List.cons_eq_append_iff.mp hafter with ⟨rfl, hback⟩ | ⟨tail, rfl, htail⟩
      · exact absurd (List.cons.inj hback).1 hne
      · refine ⟨before ++ tail, back, by simp [htail], fun first second hsplit ↦ ?_⟩
        have hsub : (before ++ record :: tail).Nodup := by
          rw [hcut, hfront] at hnodup
          exact (List.nodup_append.mp hnodup).1
        rcases cut_of_remove hsub hsplit with ⟨rfl, -⟩ | ⟨first', second', hcut', hlast, -⟩
        · exact hclosed _ (record :: tail) hfront
        · rw [← hlast]
          exact hclosed first' second' (by rw [hfront, hcut'])
    · cases between with
      | nil => exact absurd (List.cons.inj hback).1 hne
      | cons first rest =>
        obtain ⟨rfl, rfl⟩ := List.cons.inj hback
        exact ⟨front, rest ++ after, by simp [hbefore], hclosed⟩

/-- Without open cursors a walk meets all records in order. -/
theorem walk_eq (h : Chained links (fun _ ↦ False) records) {fuel : ℕ}
    (hfuel : records.length ≤ fuel) : links.walk fuel none = records := by
  have key : ∀ (fuel : ℕ) (before after : List ι), records = before ++ after →
      after.length ≤ fuel → links.walk fuel before.getLast? = after := by
    intro fuel
    induction fuel with
    | zero =>
      intro before after _ hle
      obtain rfl := List.eq_nil_of_length_eq_zero (Nat.le_zero.mp hle)
      rfl
    | succ fuel ih =>
      intro before after hcut hle
      rw [Links.walk, h.next before after hcut not_false]
      cases after with
      | nil => rfl
      | cons first rest =>
        have hcut' : records = before ++ [first] ++ rest := by
          rw [hcut, List.append_assoc, List.singleton_append]
        have hrest := ih (before ++ [first]) rest hcut' (Nat.le_of_succ_le_succ hle)
        rw [List.getLast?_concat] at hrest
        exact congrArg (List.cons first) hrest
  exact key fuel [] records (List.nil_append records).symm hfuel

/-- A walk meets no record twice. -/
theorem walk_nodup (h : Chained links opened records) (fuel : ℕ) :
    (links.walk fuel none).Nodup := by
  have key : ∀ (fuel : ℕ) (before after : List ι), records = before ++ after →
      (links.walk fuel before.getLast?).Sublist after := by
    intro fuel
    induction fuel with
    | zero => exact fun _ after _ ↦ List.nil_sublist after
    | succ fuel ih =>
      intro before after hcut
      rw [Links.walk]
      cases hnext : links.next before.getLast? with
      | none => exact List.nil_sublist after
      | some first =>
        obtain ⟨-, rest, rfl⟩ := h.cut_of_next hcut hnext
        have hrest := ih (before ++ [first]) rest (by simp [hcut])
        rw [List.getLast?_append_of_ne_nil _ (List.cons_ne_nil _ _)] at hrest
        exact hrest.cons_cons first
  exact h.nodup.sublist (key fuel [] records rfl)

end Chained

end Mupnp.Foundation
