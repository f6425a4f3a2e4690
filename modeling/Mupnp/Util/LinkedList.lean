import Mathlib.Logic.Function.Basic
import Mupnp.Foundation.CircularList
import Mupnp.Foundation.LinkedRing

/-!
# The linked lists of the library

`mupnp_list_insert`, `mupnp_list_add`, `mupnp_list_remove` and `mupnp_list_next` of `util/list.c`,
on a memory with any number of lists in it. A record has a mark that tells a header from a node, and
two links that `mupnp_list_header_init` and `mupnp_list_node_init` point to a record, so that they
are never `NULL`.

The records of a list are a ring, and so is a record without a list. An insertion puts a record
into a ring (`isRing_listInsert`), a removal takes one out (`isRing_listRemove`), and the other
rings stay as they are (`agreeAt_listInsert`, `agreeAt_listRemove`).

Seen from its header, a list is a chain of the circular lists (`IsList`), which is the same as a
ring with one header (`IsList.isRing`, `IsList.of_isRing`). `Lists` says that each of some headers
has a list and that no node is in two of them. Removing a node (`Lists.remove`) and adding one at
the end (`Lists.add`) keep this and change one list only.
-/

set_option autoImplicit false
set_option relaxedAutoImplicit false

namespace Mupnp.Util

open Foundation

/-- The list members of the records. -/
structure ListCells (ι : Type*) where
  headFlag : ι → Bool
  prev : ι → ι
  next : ι → ι

variable {ι : Type*} [DecidableEq ι]

namespace ListCells

def setPrev (cells : ListCells ι) (list target : ι) : ListCells ι :=
  { cells with prev := Function.update cells.prev list target }

def setNext (cells : ListCells ι) (list target : ι) : ListCells ι :=
  { cells with next := Function.update cells.next list target }

/-- `mupnp_list_insert`. -/
def listInsert (cells : ListCells ι) (prevList list : ι) : ListCells ι :=
  let cells := cells.setPrev list prevList
  let cells := cells.setNext list (cells.next prevList)
  let cells := cells.setPrev (cells.next prevList) list
  cells.setNext prevList list

/-- `mupnp_list_add`. -/
def listAdd (cells : ListCells ι) (headList list : ι) : ListCells ι :=
  cells.listInsert (cells.prev headList) list

/-- `mupnp_list_remove`. -/
def listRemove (cells : ListCells ι) (list : ι) : ListCells ι :=
  let cells := cells.setNext (cells.prev list) (cells.next list)
  let cells := cells.setPrev (cells.next list) (cells.prev list)
  let cells := cells.setNext list list
  cells.setPrev list list

/-- `mupnp_list_next`. -/
def listNext (cells : ListCells ι) (list : ι) : Option ι :=
  if cells.headFlag (cells.next list) then none else some (cells.next list)

/-- `mupnp_list_header_init` for every header, and `mupnp_list_node_init` for every node. -/
def initial (headFlag : ι → Bool) : ListCells ι := { headFlag, prev := id, next := id }

/-! ### The links after an operation -/

theorem listRemove_next {cells : ListCells ι} {list other : ι} (hne : other ≠ list) :
    (cells.listRemove list).next other =
      if other = cells.prev list then cells.next list else cells.next other := by
  simp only [listRemove, setNext, setPrev, Function.update_apply, if_neg hne]

theorem listRemove_prev {cells : ListCells ι} {list other : ι} (hne : other ≠ list) :
    (cells.listRemove list).prev other =
      if other = cells.next list then cells.prev list else cells.prev other := by
  have hnext : Function.update cells.next (cells.prev list) (cells.next list) list =
      cells.next list := by
    rw [Function.update_apply, ite_self]
  simp only [listRemove, setNext, setPrev, hnext, Function.update_of_ne hne]
  rw [Function.update_apply]

end ListCells

/-! ### Operations on rings -/

section Rings

variable {cells : ListCells ι} {first list : ι} {rest : List ι}

theorem listInsert_next (cells : ListCells ι) (prevList list other : ι) :
    (cells.listInsert prevList list).next other =
      if other = prevList then list
      else if other = list then cells.next prevList else cells.next other := by
  simp only [ListCells.listInsert, ListCells.setNext, ListCells.setPrev, Function.update_apply]

theorem listInsert_prev {prevList : ι} (hne : prevList ≠ list) (other : ι) :
    (cells.listInsert prevList list).prev other =
      if other = cells.next prevList then list
      else if other = list then prevList else cells.prev other := by
  simp only [ListCells.listInsert, ListCells.setNext, ListCells.setPrev, Function.update_apply,
    if_neg hne]

/-- A record that is not in a ring comes behind one of its records. -/
theorem isRing_listInsert (h : IsRing cells.next cells.prev ↑(first :: rest))
    (hnot : list ∉ first :: rest) :
    IsRing (cells.listInsert first list).next (cells.listInsert first list).prev
      ↑(first :: list :: rest) := by
  have hne : first ≠ list := ne_of_mem_of_not_mem List.mem_cons_self hnot
  have hnext : cells.next first ∈ first :: rest :=
    Cycle.mem_coe_iff.mp (h.next_mem (mem_cycle_self _ _))
  have hnextNe : list ≠ cells.next first := fun heq ↦ hnot (heq ▸ hnext)
  have hfirst : first ∉ rest := (List.nodup_cons.mp h.nodup_coe).1
  apply h.insert hnot
  · rw [listInsert_next, if_pos rfl]
  · rw [listInsert_next, if_neg (Ne.symm hne), if_pos rfl]
  · rw [listInsert_prev hne, if_neg hnextNe, if_pos rfl]
  · rw [listInsert_prev hne, if_pos rfl]
  · intro other hmem
    rw [listInsert_next, if_neg (ne_of_mem_of_not_mem hmem hfirst),
      if_neg (ne_of_mem_of_not_mem (List.mem_cons_of_mem first hmem) hnot)]
  · intro other hmem hother
    rw [listInsert_prev hne, if_neg hother, if_neg (ne_of_mem_of_not_mem hmem hnot)]

/-- A record that leaves a ring leaves the others in their order. -/
theorem isRing_listRemove (h : IsRing cells.next cells.prev ↑(list :: rest)) :
    IsRing (cells.listRemove list).next (cells.listRemove list).prev ↑rest := by
  cases rest with
  | nil => exact IsRing.nil
  | cons second rest =>
    have hlist : list ∉ second :: rest := (List.nodup_cons.mp h.nodup_coe).1
    have hnext : cells.next list ≠ list := by
      rw [h.next_eq]
      exact ne_of_mem_of_not_mem List.mem_cons_self hlist
    have hprev : cells.prev list ≠ list := by
      intro heq
      have hback := h.next_prev (mem_cycle_self _ _)
      rw [heq] at hback
      exact hnext hback
    apply h.remove
    · rw [ListCells.listRemove_next hprev, if_pos rfl]
    · rw [ListCells.listRemove_prev hnext, if_pos rfl]
    · intro other hmem hother
      rw [ListCells.listRemove_next (ne_of_mem_of_not_mem hmem hlist), if_neg hother]
    · intro other hmem hother
      rw [ListCells.listRemove_prev (ne_of_mem_of_not_mem hmem hlist), if_neg hother]

theorem listRemove_next_self (cells : ListCells ι) (list : ι) :
    (cells.listRemove list).next list = list := by
  simp only [ListCells.listRemove, ListCells.setNext, ListCells.setPrev, Function.update_self]

theorem listRemove_prev_self (cells : ListCells ι) (list : ι) :
    (cells.listRemove list).prev list = list := by
  simp only [ListCells.listRemove, ListCells.setNext, ListCells.setPrev, Function.update_self]

/-- A removed record is a ring of its own. -/
theorem isRing_listRemove_self (cells : ListCells ι) (list : ι) :
    IsRing (cells.listRemove list).next (cells.listRemove list).prev ↑[list] :=
  IsRing.singleton_iff.mpr ⟨listRemove_next_self cells list, listRemove_prev_self cells list⟩

variable {ring : Cycle ι} {other : ι}

/-- Two memories that agree on a record. -/
def AgreeAt (cells cells' : ListCells ι) (record : ι) : Prop :=
  cells'.headFlag record = cells.headFlag record ∧ cells'.next record = cells.next record ∧
    cells'.prev record = cells.prev record

/-- An insertion behind a record of a ring changes that ring and the record only. -/
theorem agreeAt_listInsert (h : IsRing cells.next cells.prev ring) (hfirst : first ∈ ring)
    (hlist : list ∉ ring) (hother : other ∉ ring) (hne : other ≠ list) :
    AgreeAt cells (cells.listInsert first list) other := by
  refine ⟨rfl, ?_, ?_⟩
  · rw [listInsert_next, if_neg (ne_of_mem_of_not_mem hfirst hother).symm, if_neg hne]
  · rw [listInsert_prev (ne_of_mem_of_not_mem hfirst hlist),
      if_neg (ne_of_mem_of_not_mem (h.next_mem hfirst) hother).symm, if_neg hne]

/-- A removal changes the ring of the record only. -/
theorem agreeAt_listRemove (h : IsRing cells.next cells.prev ring) (hlist : list ∈ ring)
    (hother : other ∉ ring) : AgreeAt cells (cells.listRemove list) other := by
  have hne : other ≠ list := (ne_of_mem_of_not_mem hlist hother).symm
  refine ⟨rfl, ?_, ?_⟩
  · rw [ListCells.listRemove_next hne,
      if_neg (ne_of_mem_of_not_mem (h.prev_mem hlist) hother).symm]
  · rw [ListCells.listRemove_prev hne,
      if_neg (ne_of_mem_of_not_mem (h.next_mem hlist) hother).symm]

end Rings

/-! ### A list seen from its header -/

/-- The record at a cursor, where no cursor is the header. -/
def atCursor (head : ι) (cursor : Option ι) : ι := cursor.getD head

/-- The cursor of a record. -/
def cursorOf (head record : ι) : Option ι := if record = head then none else some record

theorem atCursor_cursorOf (head record : ι) : atCursor head (cursorOf head record) = record := by
  unfold atCursor cursorOf
  split_ifs with heq
  · exact heq.symm
  · rfl

theorem cursorOf_atCursor {head : ι} {cursor : Option ι} (hne : cursor ≠ some head) :
    cursorOf head (atCursor head cursor) = cursor := by
  cases cursor with
  | none => exact if_pos rfl
  | some record => exact if_neg fun heq ↦ hne (congrArg some heq)

/-- The links as the records of one list have them. -/
def linksFrom (cells : ListCells ι) (head : ι) : Links ι where
  next := fun cursor ↦ cursorOf head (cells.next (atCursor head cursor))
  prev := fun cursor ↦ cursorOf head (cells.prev (atCursor head cursor))

/-- A header with its nodes, linked both ways in this order. -/
structure IsList (cells : ListCells ι) (head : ι) (nodes : List ι) : Prop where
  head_flag : cells.headFlag head = true
  node_flag : ∀ node ∈ nodes, cells.headFlag node = false
  chained : Chained (linksFrom cells head) (fun _ ↦ False) nodes

namespace IsList

variable {cells : ListCells ι} {head : ι} {nodes : List ι}

theorem head_not_mem (h : IsList cells head nodes) : head ∉ nodes := by
  intro hmem
  have hflag := h.node_flag head hmem
  rw [h.head_flag] at hflag
  cases hflag

/-- A node in no list is no record of the list. -/
theorem node_not_mem_records (h : IsList cells head nodes) {node : ι}
    (hflag : cells.headFlag node = false) (hnode : node ∉ nodes) : node ∉ head :: nodes := by
  intro hmem
  rcases List.mem_cons.mp hmem with rfl | hmem
  · rw [h.head_flag] at hflag
    cases hflag
  · exact hnode hmem

theorem next_eq (h : IsList cells head nodes) {before after : List ι}
    (hnodes : nodes = before ++ after) :
    cells.next (atCursor head before.getLast?) = atCursor head after.head? := by
  have hnext := h.chained.next before after hnodes not_false
  rw [← hnext]
  exact (atCursor_cursorOf head _).symm

theorem prev_eq (h : IsList cells head nodes) {before after : List ι}
    (hnodes : nodes = before ++ after) :
    cells.prev (atCursor head after.head?) = atCursor head before.getLast? := by
  have hprev := h.chained.prev before after hnodes
  rw [← hprev]
  exact (atCursor_cursorOf head _).symm

/-- `mupnp_list_next` gives the node behind, and `NULL` behind the last. -/
theorem listNext_eq (h : IsList cells head nodes) {before after : List ι}
    (hnodes : nodes = before ++ after) :
    cells.listNext (atCursor head before.getLast?) = after.head? := by
  unfold ListCells.listNext
  rw [h.next_eq hnodes]
  cases after with
  | nil => exact if_pos h.head_flag
  | cons node after =>
    have hflag : ¬cells.headFlag node = true := by
      rw [h.node_flag node (hnodes ▸ List.mem_append_right before List.mem_cons_self)]
      exact Bool.false_ne_true
    exact if_neg hflag

omit [DecidableEq ι] in
theorem atCursor_mem {cursor : Option ι} (hmem : ∀ record ∈ cursor, record ∈ nodes) :
    atCursor head cursor ∈ head :: nodes := by
  cases cursor with
  | none => exact List.mem_cons_self
  | some record => exact List.mem_cons_of_mem head (hmem record rfl)

/-- A list depends on its own records only. -/
theorem congr (h : IsList cells head nodes) {cells' : ListCells ι}
    (hflag : cells'.headFlag = cells.headFlag)
    (hnext : ∀ record ∈ head :: nodes, cells'.next record = cells.next record)
    (hprev : ∀ record ∈ head :: nodes, cells'.prev record = cells.prev record) :
    IsList cells' head nodes := by
  refine ⟨hflag ▸ h.head_flag, hflag ▸ h.node_flag, ?_⟩
  refine h.chained.congr (fun cursor hmem ↦ ?_) (fun cursor hmem ↦ ?_) fun cursor _ ↦ Iff.rfl
  · exact congrArg (cursorOf head) (hnext _ (atCursor_mem hmem))
  · exact congrArg (cursorOf head) (hprev _ (atCursor_mem hmem))

/-- The records of a list are a ring. -/
theorem isRing (h : IsList cells head nodes) :
    IsRing cells.next cells.prev ↑(head :: nodes) := by
  have key : ∀ after before : List ι, nodes = before ++ after →
      (atCursor head before.getLast? :: (after ++ [head])).IsChain
        (Linked cells.next cells.prev) := by
    intro after
    induction after with
    | nil => exact fun before hcut ↦ List.isChain_pair.mpr ⟨h.next_eq hcut, h.prev_eq hcut⟩
    | cons node after ih =>
      intro before hcut
      have hrest := ih (before ++ [node]) (by rw [hcut, List.append_assoc, List.singleton_append])
      rw [List.getLast?_concat] at hrest
      exact List.isChain_cons_cons.mpr ⟨⟨h.next_eq hcut, h.prev_eq hcut⟩, hrest⟩
  exact ⟨Cycle.nodup_coe_iff.mpr (List.nodup_cons.mpr ⟨h.head_not_mem, h.chained.nodup⟩),
    (Cycle.chain_coe_cons _ head nodes).mpr (key nodes [] rfl)⟩

omit [DecidableEq ι] in
/-- Every cut of a chain that starts and ends with the header is linked. -/
theorem linked_of_cut {first : ι} {before after : List ι}
    (h : (first :: (before ++ after ++ [head])).IsChain (Linked cells.next cells.prev)) :
    Linked cells.next cells.prev (atCursor first before.getLast?) (atCursor head after.head?) := by
  induction before generalizing first with
  | nil =>
    cases after with
    | nil => exact List.isChain_pair.mp h
    | cons node after => exact (List.isChain_cons_cons.mp h).1
  | cons node before ih =>
    have hlast : atCursor first (node :: before).getLast? = atCursor node before.getLast? := by
      cases before with
      | nil => rfl
      | cons other before =>
        rw [List.getLast?_cons_cons, List.getLast?_eq_some_getLast (List.cons_ne_nil other before)]
        rfl
    rw [hlast]
    exact ih (List.isChain_cons_cons.mp h).2

/-- A ring with one header is a list. -/
theorem of_isRing (h : IsRing cells.next cells.prev ↑(head :: nodes))
    (hhead : cells.headFlag head = true) (hnodes : ∀ node ∈ nodes, cells.headFlag node = false) :
    IsList cells head nodes := by
  obtain ⟨hnot, hnodup⟩ := List.nodup_cons.mp h.nodup_coe
  have hlinked : ∀ before after, nodes = before ++ after → Linked cells.next cells.prev
      (atCursor head before.getLast?) (atCursor head after.head?) := by
    rintro before after rfl
    exact linked_of_cut h.isChain
  refine ⟨hhead, hnodes, hnodup, fun before after hcut ↦ ?_, fun before after hcut _ ↦ ?_,
    fun _ _ _ hopened ↦ False.elim hopened⟩
  · change cursorOf head (cells.prev (atCursor head after.head?)) = before.getLast?
    rw [(hlinked before after hcut).2]
    refine cursorOf_atCursor fun heq ↦ hnot ?_
    rw [hcut]
    exact List.mem_append_left after (List.mem_of_getLast? heq)
  · change cursorOf head (cells.next (atCursor head before.getLast?)) = after.head?
    rw [(hlinked before after hcut).1]
    refine cursorOf_atCursor fun heq ↦ hnot ?_
    rw [hcut]
    exact List.mem_append_right before (List.mem_of_head? heq)

/-- Removing a node leaves the others in order. -/
theorem remove {node : ι} {before after : List ι}
    (h : IsList cells head (before ++ node :: after)) :
    IsList (cells.listRemove node) head (before ++ after) := by
  have hsub : ∀ record ∈ before ++ after, record ∈ before ++ node :: after :=
    (Chained.append_sublist_middle before after node).subset
  have hring := h.isRing
  have hrotate : ((head :: (before ++ node :: after) : List ι) : Cycle ι) =
      ↑(node :: (after ++ head :: before)) :=
    Cycle.coe_eq_coe.mpr (@List.isRotated_append _ (head :: before) (node :: after))
  have hrest : ((after ++ head :: before : List ι) : Cycle ι) = ↑(head :: (before ++ after)) :=
    Cycle.coe_eq_coe.mpr (@List.isRotated_append _ after (head :: before))
  rw [hrotate] at hring
  have hremoved := isRing_listRemove hring
  rw [hrest] at hremoved
  exact of_isRing hremoved h.head_flag fun record hmem ↦ h.node_flag record (hsub record hmem)

/-- Adding a node puts it behind the last. -/
theorem add {node : ι} (h : IsList cells head nodes) (hflag : cells.headFlag node = false)
    (hnew : node ∉ nodes) : IsList (cells.listAdd head node) head (nodes ++ [node]) := by
  have hring := h.isRing
  obtain ⟨others, hothers, hadded⟩ := hring.exists_cons_prev
  have hnot : node ∉ cells.prev head :: others := by
    intro hmem
    rw [← Cycle.mem_coe_iff, ← hothers] at hmem
    exact h.node_not_mem_records hflag hnew (Cycle.mem_coe_iff.mp hmem)
  rw [hothers] at hring
  have hinserted := isRing_listInsert hring hnot
  rw [hadded node] at hinserted
  refine of_isRing hinserted h.head_flag fun record hmem ↦ ?_
  rcases List.mem_append.mp hmem with hold | hnode
  · exact h.node_flag record hold
  · rw [List.mem_singleton.mp hnode]
    exact hflag

/-- Assumes: two lists without a common node. They have no record in common. -/
theorem not_mem_records {other : ι} {nodes' : List ι} (h : IsList cells head nodes)
    (h' : IsList cells other nodes') (hne : head ≠ other)
    (hdisjoint : ∀ record ∈ nodes, record ∉ nodes') {record : ι} (hmem : record ∈ head :: nodes) :
    record ∉ other :: nodes' := by
  intro hmem'
  rcases List.mem_cons.mp hmem with rfl | hnode
  · rcases List.mem_cons.mp hmem' with rfl | hnode'
    · exact hne rfl
    · have hflag := h'.node_flag record hnode'
      rw [h.head_flag] at hflag
      cases hflag
  · rcases List.mem_cons.mp hmem' with rfl | hnode'
    · have hflag := h.node_flag record hnode
      rw [h'.head_flag] at hflag
      cases hflag
    · exact hdisjoint record hnode hnode'

/-- Removing a node of another list changes nothing. -/
theorem congr_remove {other node : ι} {nodes' before after : List ι}
    (h' : IsList cells other nodes') (h : IsList cells head (before ++ node :: after))
    (hne : head ≠ other) (hdisjoint : ∀ record ∈ before ++ node :: after, record ∉ nodes') :
    IsList (cells.listRemove node) other nodes' := by
  have hnode : node ∈ ((head :: (before ++ node :: after) : List ι) : Cycle ι) :=
    mem_cycle_cons.mpr (.inr (Cycle.mem_coe_iff.mpr
      (List.mem_append_right before List.mem_cons_self)))
  have hagree : ∀ record ∈ other :: nodes', AgreeAt cells (cells.listRemove node) record :=
    fun record hmem ↦ agreeAt_listRemove h.isRing hnode fun hin ↦
      h.not_mem_records h' hne hdisjoint (Cycle.mem_coe_iff.mp hin) hmem
  exact h'.congr rfl (fun record hmem ↦ (hagree record hmem).2.1)
    fun record hmem ↦ (hagree record hmem).2.2

/-- Adding a node to another list changes nothing. -/
theorem congr_add {other node : ι} {nodes' : List ι} (h' : IsList cells other nodes')
    (h : IsList cells head nodes) (hne : head ≠ other)
    (hdisjoint : ∀ record ∈ nodes, record ∉ nodes') (hflag : cells.headFlag node = false)
    (hnode : node ∉ nodes) (hnode' : node ∉ nodes') :
    IsList (cells.listAdd head node) other nodes' := by
  have hprev : cells.prev head ∈ ((head :: nodes : List ι) : Cycle ι) :=
    h.isRing.prev_mem (mem_cycle_self head nodes)
  have hnot : node ∉ ((head :: nodes : List ι) : Cycle ι) := fun hin ↦
    h.node_not_mem_records hflag hnode (Cycle.mem_coe_iff.mp hin)
  have hagree : ∀ record ∈ other :: nodes', AgreeAt cells (cells.listAdd head node) record :=
    fun record hmem ↦ agreeAt_listInsert h.isRing hprev hnot
      (fun hin ↦ h.not_mem_records h' hne hdisjoint (Cycle.mem_coe_iff.mp hin) hmem)
      fun heq ↦ h'.node_not_mem_records hflag hnode' (heq ▸ hmem)
  exact h'.congr rfl (fun record hmem ↦ (hagree record hmem).2.1)
    fun record hmem ↦ (hagree record hmem).2.2

end IsList

/-! ### Several lists -/

/-- The lists of some headers, without a common node. -/
structure Lists (cells : ListCells ι) (heads : ι → Prop) (nodes : ι → List ι) : Prop where
  isList : ∀ head, heads head → IsList cells head (nodes head)
  disjoint : ∀ head other, heads head → heads other → head ≠ other →
    ∀ node ∈ nodes head, node ∉ nodes other

namespace Lists

variable {cells : ListCells ι} {heads : ι → Prop} {nodes : ι → List ι}

theorem initial (headFlag : ι → Bool) :
    Lists (ListCells.initial headFlag) (fun head ↦ headFlag head = true) fun _ ↦ [] := by
  refine ⟨fun head hhead ↦ ⟨hhead, fun node hnode ↦ absurd hnode List.not_mem_nil, ?_⟩,
    fun _ _ _ _ _ node hnode ↦ absurd hnode List.not_mem_nil⟩
  refine Chained.init.congr (fun cursor hmem ↦ ?_) (fun cursor hmem ↦ ?_) fun cursor _ ↦ Iff.rfl
  · exact cursorOf_atCursor fun heq ↦ absurd (hmem head heq) List.not_mem_nil
  · exact cursorOf_atCursor fun heq ↦ absurd (hmem head heq) List.not_mem_nil

/-- A list that has no node in common with the others can take the place of one. -/
theorem disjoint_update (h : Lists cells heads nodes) {head : ι} {list : List ι}
    (hhead : heads head)
    (hlist : ∀ other, heads other → head ≠ other → ∀ node ∈ list, node ∉ nodes other)
    (first second : ι) (hfirst : heads first) (hsecond : heads second) (hne : first ≠ second) :
    ∀ node ∈ Function.update nodes head list first,
      node ∉ Function.update nodes head list second := by
  by_cases hhead₁ : first = head
  · subst hhead₁
    rw [Function.update_self, Function.update_of_ne (Ne.symm hne)]
    exact hlist second hsecond hne
  · rw [Function.update_of_ne hhead₁]
    by_cases hhead₂ : second = head
    · subst hhead₂
      rw [Function.update_self]
      exact fun node hmem hmem' ↦ hlist first hfirst (Ne.symm hne) node hmem' hmem
    · rw [Function.update_of_ne hhead₂]
      exact h.disjoint first second hfirst hsecond hne

/-- A node leaves its list. -/
theorem remove (h : Lists cells heads nodes) {head node : ι} (hhead : heads head)
    {before after : List ι} (hnodes : nodes head = before ++ node :: after) :
    Lists (cells.listRemove node) heads (Function.update nodes head (before ++ after)) := by
  have hlist := h.isList head hhead
  have hdisjoint := h.disjoint head
  rw [hnodes] at hlist hdisjoint
  have hsub : ∀ record ∈ before ++ after, record ∈ before ++ node :: after :=
    (Chained.append_sublist_middle before after node).subset
  refine ⟨fun other hother ↦ ?_, h.disjoint_update hhead fun other hother hne record hmem ↦
    hdisjoint other hhead hother hne record (hsub record hmem)⟩
  by_cases heq : other = head
  · subst heq
    rw [Function.update_self]
    exact hlist.remove
  · rw [Function.update_of_ne heq]
    exact (h.isList other hother).congr_remove hlist (Ne.symm heq)
      (hdisjoint other hhead hother (Ne.symm heq))

/-- The node that has left its list is in none. -/
theorem not_mem_of_remove (h : Lists cells heads nodes) {head node : ι} (hhead : heads head)
    {before after : List ι} (hnodes : nodes head = before ++ node :: after) {other : ι}
    (hother : heads other) : node ∉ Function.update nodes head (before ++ after) other := by
  by_cases heq : other = head
  · have hnodup := (h.isList head hhead).chained.nodup
    rw [hnodes] at hnodup
    rw [heq, Function.update_self]
    exact (List.nodup_cons.mp (List.nodup_middle.mp hnodup)).1
  · have hmem : node ∈ nodes head := by
      rw [hnodes]
      exact List.mem_append_right before List.mem_cons_self
    rw [Function.update_of_ne heq]
    exact h.disjoint head other hhead hother (Ne.symm heq) node hmem

/-- A node that is in no list comes to the end of one. -/
theorem add (h : Lists cells heads nodes) {head node : ι} (hhead : heads head)
    (hflag : cells.headFlag node = false) (hloose : ∀ other, heads other → node ∉ nodes other) :
    Lists (cells.listAdd head node) heads (Function.update nodes head (nodes head ++ [node])) := by
  refine ⟨fun other hother ↦ ?_, h.disjoint_update hhead fun other hother hne record hmem ↦ ?_⟩
  · by_cases heq : other = head
    · subst heq
      rw [Function.update_self]
      exact (h.isList other hother).add hflag (hloose other hother)
    · rw [Function.update_of_ne heq]
      exact (h.isList other hother).congr_add (h.isList head hhead) (Ne.symm heq)
        (h.disjoint head other hhead hother (Ne.symm heq)) hflag (hloose head hhead)
        (hloose other hother)
  · rcases List.mem_append.mp hmem with hold | hadded
    · exact h.disjoint head other hhead hother hne record hold
    · rw [List.mem_singleton.mp hadded]
      exact hloose other hother

/-- Nodes that are in no list come to the end of one in their order. -/
theorem addAll {head : ι} (hhead : heads head) (list : List ι) :
    ∀ {cells : ListCells ι} {nodes : ι → List ι}, Lists cells heads nodes → list.Nodup →
      (∀ node ∈ list, cells.headFlag node = false ∧ ∀ other, heads other → node ∉ nodes other) →
      Lists (list.foldl (fun cells node ↦ cells.listAdd head node) cells) heads
        (Function.update nodes head (nodes head ++ list)) := by
  induction list with
  | nil =>
    intro cells nodes h _ _
    rw [List.append_nil, Function.update_eq_self]
    exact h
  | cons node list ih =>
    intro cells nodes h hnodup hloose
    obtain ⟨hnode, hnodup'⟩ := List.nodup_cons.mp hnodup
    obtain ⟨hflag, hfree⟩ := hloose node List.mem_cons_self
    have hadd := h.add hhead hflag hfree
    have hrest := ih hadd hnodup' fun record hmem ↦ ?_
    · rw [Function.update_self, Function.update_idem, List.append_assoc, List.singleton_append]
        at hrest
      exact hrest
    · obtain ⟨hflag', hfree'⟩ := hloose record (List.mem_cons_of_mem node hmem)
      refine ⟨hflag', fun other hother ↦ ?_⟩
      by_cases heq : other = head
      · subst heq
        rw [Function.update_self]
        intro hin
        rcases List.mem_append.mp hin with hold | hsame
        · exact hfree' other hother hold
        · exact hnode (List.mem_singleton.mp hsame ▸ hmem)
      · rw [Function.update_of_ne heq]
        exact hfree' other hother

end Lists

end Mupnp.Util
