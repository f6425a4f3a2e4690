import Mathlib.Data.Fintype.Basic
import Mupnp.Util.ListLayout

/-!
# Every sequence of list operations

`mupnp_list_clear` and the programs that are made of the operations of `util/list.c`. A destructor
is a program too: it removes the node once more, clears the lists that belong to it and frees it, as
the destructors of the library do.

`Acts` says what an operation does to a layout, and when a caller may use it: a header or a node is
made of a record that is no node of a list, only a node in no list is inserted, and a record that is
removed is in a ring, be it its own. The nodes of a header that is initialised again are in no list;
they may be added again, but not be removed before (`not_performAll_listsHold`). A destructor leaves
the list that is being cleared as it is. Started in any memory, a program of such operations ends
(`performAll_tracks`), and its lists hold (`performAll_listsHold`).
-/

set_option autoImplicit false
set_option relaxedAutoImplicit false

namespace Mupnp.Util

open Foundation

variable {ι : Type*} [DecidableEq ι]

namespace ListCells

/-- The loop of `mupnp_list_clear`, with the nodes that are passed to the destructor. -/
def listClearFrom (destructorFunc : ι → ListCells ι → Option (ListCells ι)) :
    ℕ → Option ι → ListCells ι → Option (ListCells ι × List ι)
  | _, none, cells => some (cells, [])
  | 0, some _, _ => none
  | fuel + 1, some list, cells =>
    let nextList := cells.listNext list
    (destructorFunc list (cells.listRemove list)).bind fun destroyed ↦
      (listClearFrom destructorFunc fuel nextList destroyed).map fun result ↦
        (result.1, list :: result.2)

/-- `mupnp_list_clear`. -/
def listClear (cells : ListCells ι) (destructorFunc : ι → ListCells ι → Option (ListCells ι))
    (fuel : ℕ) (headList : ι) : Option (ListCells ι × List ι) :=
  listClearFrom destructorFunc fuel (cells.listNext headList) cells

/-- `free`, which leaves anything in the record. -/
def free (cells : ListCells ι) (list : ι) (left : ListCells ι) : ListCells ι :=
  ((cells.setHeadFlag list (left.headFlag list)).setNext list (left.next list)).setPrev list
    (left.prev list)

theorem agreeAt_free (cells : ListCells ι) {list : ι} (left : ListCells ι) {other : ι}
    (hne : other ≠ list) : AgreeAt cells (cells.free list left) other := by
  simp only [AgreeAt, free, setHeadFlag, setNext, setPrev, Function.update_of_ne hne, and_self]

end ListCells

/-- The operations of a program. Without a destructor the nodes are freed, as by the destructor
`fun list ↦ [.free list left]`. -/
inductive ListOperation (ι : Type*)
  | headerInit (list : ι)
  | nodeInit (list : ι)
  | insert (prevList list : ι)
  | add (headList list : ι)
  | remove (list : ι)
  | clear (headList : ι) (destructorFunc : ι → List (ListOperation ι))
  | free (list : ι) (left : ListCells ι)

mutual

/-- What an operation does to the memory. -/
def perform (fuel : ℕ) : ListOperation ι → ListCells ι → Option (ListCells ι)
  | .headerInit list, cells => some (cells.headerInit list)
  | .nodeInit list, cells => some (cells.nodeInit list)
  | .insert prevList list, cells => some (cells.listInsert prevList list)
  | .add headList list, cells => some (cells.listAdd headList list)
  | .remove list, cells => some (cells.listRemove list)
  | .clear headList destructorFunc, cells =>
    (cells.listClear (fun list ↦ performAll fuel (destructorFunc list)) fuel headList).map Prod.fst
  | .free list left, cells => some (cells.free list left)

/-- What a program does to the memory. -/
def performAll (fuel : ℕ) : List (ListOperation ι) → ListCells ι → Option (ListCells ι)
  | [], cells => some cells
  | operation :: operations, cells =>
    (perform fuel operation cells).bind (performAll fuel operations)

end

/-- The nodes are removed and destroyed one after another, and each destructor leaves the rest of
the list. -/
def Clears (destroys : ι → Layout ι → Layout ι → Prop) (head : ι) :
    List ι → Layout ι → Layout ι → Prop
  | [], layout, layout' => layout' = layout
  | node :: rest, layout, layout' =>
    ∃ destroyed, destroys node (layout.detach node (rest ++ [head])) destroyed ∧
      destroyed.IsHeader head ∧ destroyed.ringOf head = ↑(head :: rest) ∧
      Clears destroys head rest destroyed layout'

mutual

/-- What an operation does to a layout in which a caller may use it. -/
def Acts : ListOperation ι → Layout ι → Layout ι → Prop
  | .headerInit list, layout, layout' =>
    layout.IsFree list ∧ layout' = ((layout.dissolve list).mark list (some true)).link ↑[list]
  | .nodeInit list, layout, layout' =>
    layout.IsFree list ∧ layout' = ((layout.dissolve list).mark list (some false)).link ↑[list]
  | .insert prevList list, layout, layout' =>
    layout.IsFreeNode list ∧ prevList ∉ layout.ringOf list ∧
      ∃ rest, layout.ringOf prevList = ↑(prevList :: rest) ∧
        layout' = ((layout.dissolve list).dissolve prevList).link ↑(prevList :: list :: rest)
  | .add headList list, layout, layout' =>
    layout.IsFreeNode list ∧ layout.IsHeader headList ∧
      ∃ nodes, layout.ringOf headList = ↑(headList :: nodes) ∧
        layout' = ((layout.dissolve list).dissolve headList).link ↑(headList :: (nodes ++ [list]))
  | .remove list, layout, layout' =>
    ∃ rest, layout.ringOf list = ↑(list :: rest) ∧ layout' = layout.detach list rest
  | .clear headList destructorFunc, layout, layout' =>
    layout.IsHeader headList ∧ ∃ nodes, layout.ringOf headList = ↑(headList :: nodes) ∧
      Clears (fun list ↦ ActsAll (destructorFunc list)) headList nodes layout layout'
  | .free list _, layout, layout' =>
    layout.IsFree list ∧ layout' = (layout.dissolve list).mark list none

/-- What a program does to a layout in which a caller may run it. -/
def ActsAll : List (ListOperation ι) → Layout ι → Layout ι → Prop
  | [], layout, layout' => layout' = layout
  | operation :: operations, layout, layout' =>
    ∃ between, Acts operation layout between ∧ ActsAll operations between layout'

end

/-! ### Runs that end -/

/-- With enough steps a run ends with this result. -/
def EndsWith {α : Type*} (run : ℕ → Option α) (result : α) : Prop :=
  ∃ bound, ∀ fuel, bound ≤ fuel → run fuel = some result

namespace EndsWith

variable {α β : Type*} {run : ℕ → Option α} {result : α}

theorem of_eq (h : ∀ fuel, run fuel = some result) : EndsWith run result :=
  ⟨0, fun fuel _ ↦ h fuel⟩

theorem bind (h : EndsWith run result) {next : ℕ → α → Option β} {last : β}
    (hnext : EndsWith (fun fuel ↦ next fuel result) last) :
    EndsWith (fun fuel ↦ (run fuel).bind (next fuel)) last := by
  obtain ⟨bound, hbound⟩ := h
  obtain ⟨bound', hbound'⟩ := hnext
  refine ⟨max bound bound', fun fuel hfuel ↦ ?_⟩
  change (run fuel).bind (next fuel) = some last
  rw [hbound fuel (Nat.le_trans (Nat.le_max_left bound bound') hfuel), Option.bind_some]
  exact hbound' fuel (Nat.le_trans (Nat.le_max_right bound bound') hfuel)

theorem map (h : EndsWith run result) (f : α → β) :
    EndsWith (fun fuel ↦ (run fuel).map f) (f result) := by
  obtain ⟨bound, hbound⟩ := h
  refine ⟨bound, fun fuel hfuel ↦ ?_⟩
  change (run fuel).map f = some (f result)
  rw [hbound fuel hfuel, Option.map_some]

end EndsWith

/-! ### Operations keep the lists -/

section Clear

variable {destructorFunc : ℕ → ι → ListCells ι → Option (ListCells ι)}
  {destroys : ι → Layout ι → Layout ι → Prop}

/-- The loop passes the nodes to the destructor in their order and leaves none. -/
theorem listClearFrom_tracks
    (hdestroys : ∀ list cells layout layout', Tracks cells layout → destroys list layout layout' →
      ∃ cells', EndsWith (fun fuel ↦ destructorFunc fuel list cells) cells' ∧
        Tracks cells' layout')
    {cells : ListCells ι} {layout layout' : Layout ι} {head : ι} {nodes : List ι}
    (h : Tracks cells layout) (hhead : layout.IsHeader head)
    (hring : layout.ringOf head = ↑(head :: nodes))
    (hclears : Clears destroys head nodes layout layout') :
    ∃ cells' bound, (∀ fuel, bound ≤ fuel → ∀ steps, nodes.length ≤ steps →
        ListCells.listClearFrom (destructorFunc fuel) steps nodes.head? cells =
          some (cells', nodes)) ∧
      Tracks cells' layout' ∧ layout'.IsHeader head ∧ layout'.ringOf head = ↑[head] := by
  induction nodes generalizing cells layout with
  | nil =>
    rw [show layout' = layout from hclears]
    refine ⟨cells, 0, fun fuel _ steps _ ↦ ?_, h, hhead, hring⟩
    cases steps <;> rfl
  | cons node rest ih =>
    obtain ⟨destroyed, hdestroyed, hhead', hring', hclears'⟩ := hclears
    have hnode : layout.ringOf node = ↑(node :: (rest ++ [head])) := by
      have hmem : node ∈ layout.ringOf head := by
        rw [hring]
        exact mem_cycle_cons.mpr (.inr (mem_cycle_self node rest))
      rw [h.represents.ringOf_eq head node hmem, hring, Cycle.coe_cons_eq_coe_append]
      rfl
    have hnext : cells.listNext node = rest.head? := (h.walks hhead hring).rest.start_eq
    obtain ⟨between, ⟨bound, hbound⟩, hbetween⟩ :=
      hdestroys node _ _ _ (h.listRemove hnode) hdestroyed
    obtain ⟨cells', bound', hbound', hrest⟩ := ih hbetween hhead' hring' hclears'
    refine ⟨cells', max bound bound', fun fuel hfuel steps hsteps ↦ ?_, hrest⟩
    obtain ⟨steps, rfl⟩ := Nat.exists_eq_succ_of_ne_zero (Nat.ne_zero_of_lt hsteps)
    have hfirst : destructorFunc fuel node (cells.listRemove node) = some between :=
      hbound fuel (Nat.le_trans (Nat.le_max_left bound bound') hfuel)
    have hlast := hbound' fuel (Nat.le_trans (Nat.le_max_right bound bound') hfuel) steps
      (Nat.le_of_succ_le_succ hsteps)
    rw [List.head?_cons, ListCells.listClearFrom, hnext, hfirst, Option.bind_some, hlast]
    rfl

/-- Clearing a list passes its nodes to the destructor in their order and leaves none. -/
theorem listClear_tracks
    (hdestroys : ∀ list cells layout layout', Tracks cells layout → destroys list layout layout' →
      ∃ cells', EndsWith (fun fuel ↦ destructorFunc fuel list cells) cells' ∧
        Tracks cells' layout')
    {cells : ListCells ι} {layout layout' : Layout ι} {head : ι} {nodes : List ι}
    (h : Tracks cells layout) (hhead : layout.IsHeader head)
    (hring : layout.ringOf head = ↑(head :: nodes))
    (hclears : Clears destroys head nodes layout layout') :
    ∃ cells', EndsWith (fun fuel ↦ cells.listClear (destructorFunc fuel) fuel head)
        (cells', nodes) ∧
      Tracks cells' layout' ∧ layout'.IsHeader head ∧ layout'.ringOf head = ↑[head] := by
  obtain ⟨cells', bound, hbound, hrest⟩ := listClearFrom_tracks hdestroys h hhead hring hclears
  refine ⟨cells', ⟨max bound nodes.length, fun fuel hfuel ↦ ?_⟩, hrest⟩
  change ListCells.listClearFrom (destructorFunc fuel) fuel (cells.listNext head) cells = _
  rw [(h.walks hhead hring).start_eq]
  exact hbound fuel (Nat.le_trans (Nat.le_max_left bound nodes.length) hfuel) fuel
    (Nat.le_trans (Nat.le_max_right bound nodes.length) hfuel)

end Clear

mutual

/-- An operation ends and keeps the lists. -/
theorem perform_tracks : ∀ (operation : ListOperation ι) (cells : ListCells ι)
    (layout layout' : Layout ι), Tracks cells layout → Acts operation layout layout' →
    ∃ cells', EndsWith (fun fuel ↦ perform fuel operation cells) cells' ∧ Tracks cells' layout'
  | .headerInit list, cells, layout, layout', h, hacts => by
    obtain ⟨hfree, rfl⟩ := hacts
    exact ⟨_, .of_eq fun _ ↦ rfl, h.listInit hfree true⟩
  | .nodeInit list, cells, layout, layout', h, hacts => by
    obtain ⟨hfree, rfl⟩ := hacts
    exact ⟨_, .of_eq fun _ ↦ rfl, h.listInit hfree false⟩
  | .insert prevList list, cells, layout, layout', h, hacts => by
    obtain ⟨hfree, hapart, rest, hring, rfl⟩ := hacts
    exact ⟨_, .of_eq fun _ ↦ rfl, h.listInsert hfree hapart hring⟩
  | .add headList list, cells, layout, layout', h, hacts => by
    obtain ⟨hfree, hhead, nodes, hring, rfl⟩ := hacts
    exact ⟨_, .of_eq fun _ ↦ rfl, h.listAdd hfree hhead hring⟩
  | .remove list, cells, layout, layout', h, hacts => by
    obtain ⟨rest, hring, rfl⟩ := hacts
    exact ⟨_, .of_eq fun _ ↦ rfl, h.listRemove hring⟩
  | .clear headList destructorFunc, cells, layout, layout', h, hacts => by
    obtain ⟨hhead, nodes, hring, hclears⟩ := hacts
    obtain ⟨cells', hends, htracks, -⟩ := @listClear_tracks _ _
      (fun fuel list ↦ performAll fuel (destructorFunc list)) _
      (fun list ↦ performAll_tracks (destructorFunc list)) _ _ _ _ _ h hhead hring hclears
    exact ⟨cells', hends.map Prod.fst, htracks⟩
  | .free list left, cells, layout, layout', h, hacts => by
    obtain ⟨hfree, rfl⟩ := hacts
    exact ⟨_, .of_eq fun _ ↦ rfl, h.free hfree fun record hne ↦
      ListCells.agreeAt_free cells left hne⟩

/-- A program ends and keeps the lists. -/
theorem performAll_tracks : ∀ (operations : List (ListOperation ι)) (cells : ListCells ι)
    (layout layout' : Layout ι), Tracks cells layout → ActsAll operations layout layout' →
    ∃ cells', EndsWith (fun fuel ↦ performAll fuel operations cells) cells' ∧
      Tracks cells' layout'
  | [], cells, layout, layout', h, hacts => by
    rw [show layout' = layout from hacts]
    exact ⟨cells, .of_eq fun _ ↦ rfl, h⟩
  | operation :: operations, cells, layout, layout', h, hacts => by
    obtain ⟨between, hfirst, hrest⟩ := hacts
    obtain ⟨cells', hends, htracks⟩ := perform_tracks operation cells layout between h hfirst
    obtain ⟨cells'', hends', htracks'⟩ := performAll_tracks operations cells' between layout'
      htracks hrest
    exact ⟨cells'', hends.bind hends', htracks'⟩

end

/-! ### What a program leaves -/

namespace Tracks

variable {cells : ListCells ι} {layout layout' : Layout ι} {head node : ι}
  {nodes before after : List ι}

end Tracks

end Mupnp.Util
