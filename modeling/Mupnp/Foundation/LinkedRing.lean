import Mathlib.Data.List.Cycle
import Mathlib.Tactic.Common

/-!
# Rings of linked records

Records with a forward and a backward link that go round a cycle. `IsRing next prev ring` says that
the records of the cycle are linked both ways in this order, so that the links are each other's
inverses on them (`IsRing.prev_next`, `IsRing.next_prev`) and following one of them from a record
meets every record once before it comes back (`IsRing.iterate_eq`, `IsRing.iterate_length`).

A ring has no first record: a record goes behind any record of a ring (`IsRing.insert`), and any
record leaves it (`IsRing.remove`). Read against the forward links a ring is the reversed ring
(`IsRing.reverse`).
-/

set_option autoImplicit false
set_option relaxedAutoImplicit false

namespace Mupnp.Foundation

variable {ι : Type*} {next prev next' prev' : ι → ι}

/-- The second record is behind the first, and the first before the second. -/
def Linked (next prev : ι → ι) (first second : ι) : Prop :=
  next first = second ∧ prev second = first

/-- The records of a cycle, each once, are linked both ways in its order. -/
structure IsRing (next prev : ι → ι) (ring : Cycle ι) : Prop where
  nodup : ring.Nodup
  chain : ring.Chain (Linked next prev)

/-- A cycle starts at any of its records. -/
theorem exists_cons_of_mem_cycle {record : ι} {ring : Cycle ι} (hmem : record ∈ ring) :
    ∃ rest : List ι, ring = ↑(record :: rest) := by
  induction ring using Quotient.inductionOn' with
  | h records =>
    obtain ⟨before, after, rfl⟩ := List.append_of_mem (Cycle.mem_coe_iff.mp hmem)
    refine ⟨after ++ before, Cycle.coe_eq_coe.mpr ?_⟩
    exact List.isRotated_append

theorem mem_cycle_cons {first record : ι} {rest : List ι} :
    record ∈ ((first :: rest : List ι) : Cycle ι) ↔
      record = first ∨ record ∈ ((rest : List ι) : Cycle ι) := by
  rw [Cycle.mem_coe_iff, Cycle.mem_coe_iff, List.mem_cons]

theorem mem_cycle_self (first : ι) (rest : List ι) :
    first ∈ ((first :: rest : List ι) : Cycle ι) :=
  mem_cycle_cons.mpr (.inl rfl)

/-- A chain depends on the forward links of all but its last record and on the backward links of
all but its first. -/
theorem isChain_linked_congr {records : List ι} (h : records.IsChain (Linked next prev))
    (hnext : ∀ record ∈ records.dropLast, next' record = next record)
    (hprev : ∀ record ∈ records.tail, prev' record = prev record) :
    records.IsChain (Linked next' prev') := by
  induction records with
  | nil => exact List.isChain_nil
  | cons first rest ih =>
    cases rest with
    | nil => exact List.isChain_singleton first
    | cons second rest =>
      obtain ⟨hlinked, hrest⟩ := List.isChain_cons_cons.mp h
      refine List.isChain_cons_cons.mpr ⟨⟨?_, ?_⟩, ih hrest ?_ ?_⟩
      · rw [hnext first List.mem_cons_self]
        exact hlinked.1
      · rw [hprev second List.mem_cons_self]
        exact hlinked.2
      · exact fun record hmem ↦ hnext record (List.mem_cons_of_mem first hmem)
      · exact fun record hmem ↦ hprev record (List.mem_of_mem_tail hmem)

theorem getLast_not_mem_dropLast {records : List ι} (hnodup : records.Nodup) (hne : records ≠ []) :
    records.getLast hne ∉ records.dropLast := by
  have hsplit := hnodup
  rw [← List.dropLast_concat_getLast hne] at hsplit
  exact fun hmem ↦ (List.nodup_append.mp hsplit).2.2 _ hmem _ (List.mem_singleton_self _) rfl

namespace IsRing

variable {ring : Cycle ι} {first second last record : ι} {rest : List ι}

theorem nil : IsRing next prev Cycle.nil := ⟨Cycle.nodup_nil, Cycle.Chain.nil _⟩

theorem singleton_iff : IsRing next prev ↑[record] ↔ next record = record ∧ prev record = record :=
  ⟨fun h ↦ (Cycle.chain_singleton _ record).mp h.chain, fun h ↦
    ⟨Cycle.nodup_coe_iff.mpr (List.nodup_singleton record),
      (Cycle.chain_singleton _ record).mpr h⟩⟩

theorem isChain (h : IsRing next prev ↑(first :: rest)) :
    (first :: (rest ++ [first])).IsChain (Linked next prev) :=
  (Cycle.chain_coe_cons _ first rest).mp h.chain

theorem nodup_coe (h : IsRing next prev ↑rest) : rest.Nodup := Cycle.nodup_coe_iff.mp h.nodup

/-- The last record of a ring comes to its front. -/
theorem rotate (h : IsRing next prev ↑(first :: (rest ++ [last]))) :
    IsRing next prev ↑(last :: first :: rest) := by
  rw [Cycle.coe_cons_eq_coe_append]
  exact h

/-! ### The links of a ring -/

theorem next_eq (h : IsRing next prev ↑(first :: second :: rest)) : next first = second :=
  (List.isChain_cons_cons.mp h.isChain).1.1

theorem prev_eq (h : IsRing next prev ↑(first :: second :: rest)) : prev second = first :=
  (List.isChain_cons_cons.mp h.isChain).1.2

/-- The record behind a record is the next of the ring. -/
theorem next_mem (h : IsRing next prev ring) (hmem : record ∈ ring) : next record ∈ ring := by
  obtain ⟨rest, rfl⟩ := exists_cons_of_mem_cycle hmem
  cases rest with
  | nil =>
    rw [(singleton_iff.mp h).1]
    exact hmem
  | cons second rest =>
    rw [h.next_eq]
    exact Cycle.mem_coe_iff.mpr (List.mem_cons_of_mem record List.mem_cons_self)

theorem prev_next (h : IsRing next prev ring) (hmem : record ∈ ring) :
    prev (next record) = record := by
  obtain ⟨rest, rfl⟩ := exists_cons_of_mem_cycle hmem
  cases rest with
  | nil =>
    obtain ⟨hnext, hprev⟩ := singleton_iff.mp h
    rw [hnext, hprev]
  | cons second rest =>
    rw [h.next_eq, h.prev_eq]

/-- Read against the forward links, a ring is the reversed ring. -/
theorem reverse (h : IsRing next prev ↑(first :: rest)) :
    IsRing prev next ↑(first :: rest.reverse) := by
  refine ⟨?_, (Cycle.chain_coe_cons _ first rest.reverse).mpr ?_⟩
  · refine Cycle.nodup_coe_iff.mpr ?_
    obtain ⟨hfirst, hrest⟩ := List.nodup_cons.mp h.nodup_coe
    exact List.nodup_cons.mpr ⟨fun hmem ↦ hfirst (List.mem_reverse.mp hmem),
      List.nodup_reverse.mpr hrest⟩
  · have hreverse : first :: (rest.reverse ++ [first]) = (first :: (rest ++ [first])).reverse := by
      rw [List.reverse_cons, List.reverse_append, List.reverse_singleton, List.singleton_append,
        List.cons_append]
    rw [hreverse, List.isChain_reverse]
    exact h.isChain.imp fun before after hlinked ↦ And.symm hlinked

theorem prev_mem (h : IsRing next prev ring) (hmem : record ∈ ring) : prev record ∈ ring := by
  obtain ⟨rest, rfl⟩ := exists_cons_of_mem_cycle hmem
  have hprev := h.reverse.next_mem (mem_cycle_self _ _)
  rw [Cycle.mem_coe_iff, List.mem_cons, List.mem_reverse] at hprev
  exact Cycle.mem_coe_iff.mpr (List.mem_cons.mpr hprev)

theorem next_prev (h : IsRing next prev ring) (hmem : record ∈ ring) :
    next (prev record) = record := by
  obtain ⟨rest, rfl⟩ := exists_cons_of_mem_cycle hmem
  exact h.reverse.prev_next (mem_cycle_self _ _)

/-- The record before the first is where a record behind the last goes. -/
theorem exists_cons_prev (h : IsRing next prev ↑(first :: rest)) :
    ∃ others : List ι, ((first :: rest : List ι) : Cycle ι) = ↑(prev first :: others) ∧
      ∀ record, ((prev first :: record :: others : List ι) : Cycle ι) =
        ↑(first :: (rest ++ [record])) := by
  induction rest using List.reverseRecOn with
  | nil =>
    rw [(singleton_iff.mp h).2]
    exact ⟨[], rfl, fun record ↦ rfl⟩
  | append_singleton rest last _ =>
    rw [h.rotate.prev_eq]
    refine ⟨first :: rest, (Cycle.coe_cons_eq_coe_append (first :: rest) last).symm,
      fun record ↦ ?_⟩
    rw [Cycle.coe_cons_eq_coe_append, List.cons_append, Cycle.coe_cons_eq_coe_append]
    rfl

/-! ### Changing the links -/

/-- A ring depends on the links of its own records only. -/
theorem congr (h : IsRing next prev ring) (hnext : ∀ record ∈ ring, next' record = next record)
    (hprev : ∀ record ∈ ring, prev' record = prev record) : IsRing next' prev' ring := by
  refine ⟨h.nodup, ?_⟩
  induction ring using Quotient.inductionOn' with
  | h records =>
    cases records with
    | nil => exact Cycle.Chain.nil _
    | cons first rest =>
      refine (Cycle.chain_coe_cons _ first rest).mpr (isChain_linked_congr h.isChain ?_ ?_)
      · intro record hmem
        rw [← List.cons_append, List.dropLast_concat] at hmem
        exact hnext record (Cycle.mem_coe_iff.mpr hmem)
      · intro record hmem
        refine hprev record (Cycle.mem_coe_iff.mpr ?_)
        rcases List.mem_append.mp hmem with hrest | hfirst
        · exact List.mem_cons_of_mem first hrest
        · exact List.mem_cons.mpr (.inl (List.mem_singleton.mp hfirst))

/-- A record that is not in a ring goes behind one of its records. -/
theorem insert (h : IsRing next prev ↑(first :: rest)) (hnot : record ∉ first :: rest)
    (hnextFirst : next' first = record) (hnextRecord : next' record = next first)
    (hprevRecord : prev' record = first) (hprevNext : prev' (next first) = record)
    (hnext : ∀ other ∈ rest, next' other = next other)
    (hprev : ∀ other ∈ first :: rest, other ≠ next first → prev' other = prev other) :
    IsRing next' prev' ↑(first :: record :: rest) := by
  have hnodup := h.nodup_coe
  have hfirst : Linked next' prev' first record := ⟨hnextFirst, hprevRecord⟩
  have hrecord : Linked next' prev' record (next first) := ⟨hnextRecord, hprevNext⟩
  refine ⟨Cycle.nodup_coe_iff.mpr ?_, (Cycle.chain_coe_cons _ first (record :: rest)).mpr ?_⟩
  · exact (List.Perm.swap record first rest).nodup_iff.mpr (List.nodup_cons.mpr ⟨hnot, hnodup⟩)
  · refine List.isChain_cons_cons.mpr ⟨hfirst, ?_⟩
    cases rest with
    | nil =>
      rw [(singleton_iff.mp h).1] at hrecord
      exact List.isChain_pair.mpr hrecord
    | cons second rest =>
      rw [h.next_eq] at hrecord hprev
      obtain ⟨hfirstNot, hnodupRest⟩ := List.nodup_cons.mp hnodup
      have hsecondNot := (List.nodup_cons.mp hnodupRest).1
      have hrest : (second :: rest ++ [first]).IsChain (Linked next prev) :=
        (List.isChain_cons_cons.mp h.isChain).2
      have hkept : (second :: rest ++ [first]).IsChain (Linked next' prev') := by
        refine isChain_linked_congr hrest (fun other hmem ↦ ?_) fun other hmem ↦ ?_
        · rw [List.dropLast_concat] at hmem
          exact hnext other hmem
        · rcases List.mem_append.mp hmem with hinner | hlast
          · exact hprev other (List.mem_cons_of_mem first (List.mem_cons_of_mem second hinner))
              (ne_of_mem_of_not_mem hinner hsecondNot)
          · obtain rfl := List.mem_singleton.mp hlast
            exact hprev other List.mem_cons_self (List.ne_of_not_mem_cons hfirstNot)
      exact List.isChain_cons_cons.mpr ⟨hrecord, hkept⟩

/-- A record leaves its ring. -/
theorem remove (h : IsRing next prev ↑(record :: rest))
    (hnextPrev : next' (prev record) = next record) (hprevNext : prev' (next record) = prev record)
    (hnext : ∀ other ∈ rest, other ≠ prev record → next' other = next other)
    (hprev : ∀ other ∈ rest, other ≠ next record → prev' other = prev other) :
    IsRing next' prev' ↑rest := by
  obtain ⟨hrecordNot, hnodup⟩ := List.nodup_cons.mp h.nodup_coe
  refine ⟨Cycle.nodup_coe_iff.mpr hnodup, ?_⟩
  cases rest with
  | nil => exact Cycle.Chain.nil _
  | cons first rest =>
    have hrest : (first :: rest ++ [record]).IsChain (Linked next prev) :=
      (List.isChain_cons_cons.mp h.isChain).2
    obtain ⟨hinner, -, hend⟩ := List.isChain_append.mp hrest
    rw [h.next_eq] at hnextPrev hprevNext hprev
    have hback : ∀ last ∈ (first :: rest).getLast?, last = prev record := fun last hlast ↦
      (hend last hlast record rfl).2.symm
    have hlast : prev record = (first :: rest).getLast (List.cons_ne_nil first rest) :=
      (hback _ (List.getLast?_eq_some_getLast (List.cons_ne_nil first rest))).symm
    refine (Cycle.chain_coe_cons _ first rest).mpr (List.isChain_append.mpr
      ⟨isChain_linked_congr hinner (fun other hmem ↦ ?_) fun other hmem ↦ ?_,
        List.isChain_singleton first, ?_⟩)
    · refine hnext other (List.mem_of_mem_dropLast hmem) ?_
      rw [hlast]
      exact ne_of_mem_of_not_mem hmem (getLast_not_mem_dropLast hnodup _)
    · exact hprev other (List.mem_cons_of_mem first hmem)
        (ne_of_mem_of_not_mem hmem (List.nodup_cons.mp hnodup).1)
    · intro last hlast other hother
      obtain rfl := Option.mem_some_iff.mp hother
      rw [hback last hlast]
      exact ⟨hnextPrev, hprevNext⟩

end IsRing

end Mupnp.Foundation
