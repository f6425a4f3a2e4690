import Mupnp.Util.LinkedList
import Mupnp.Util.StringFunction

/-!
# Changes of the network interfaces

`mupnp_net_interfacelist_getchanges` of `net/interface_list.c`. Interfaces compare by their
addresses. The function takes two lists of interfaces apart: the nodes of the old list that have no
equal in the new one go to a list of what was removed, and the nodes of the new list that have no
equal in the old one to a list of what was added. Both loops move nodes out of the list that they
go through, and the second compares with an old list that the first has shrunk.

The names, netmasks, hardware addresses and indices of the interfaces play no part in it.
`getChanges_partition` says where every node is at the end.
-/

set_option autoImplicit false
set_option relaxedAutoImplicit false

namespace Mupnp.Net

open Util

variable {ι : Type*} [DecidableEq ι]

/-- `mupnp_net_interface_cmp`, with `none` for `NULL`. -/
def interfaceCmp (getAddress : ι → Option CString) : Option ι → Option ι → ℤ
  | none, none => 0
  | none, some _ => 1
  | some _, none => -1
  | some netIfA, some netIfB => strcmp (getAddress netIfA) (getAddress netIfB)

/-- The inner loop, from an interface on: whether there is one that compares as equal. Without a
result if the list does not end within a number of rounds. -/
def findInterface (cells : ListCells ι) (isEqual : ι → Bool) : (rounds : ℕ) → Option ι → Option Bool
  | _, none => some false
  | 0, some _ => none
  | rounds + 1, some netIf =>
    if isEqual netIf then some true
    else findInterface cells isEqual rounds (cells.listNext netIf)

/-- Moves an interface to a list, or takes it out of its list only. -/
def moveInterface (cells : ListCells ι) (netIf : ι) : (target : Option ι) → ListCells ι
  | some target => (cells.listRemove netIf).listAdd target netIf
  | none => cells.listRemove netIf

/-- The outer loop, from an interface on: every interface without an equal in another list is
moved. -/
def moveChanged (isEqual : ι → ι → Bool) (otherList : ι) (target : Option ι) (inner : ℕ) :
    (rounds : ℕ) → Option ι → ListCells ι → Option (ListCells ι)
  | _, none, cells => some cells
  | 0, some _, _ => none
  | rounds + 1, some netIf, cells =>
    let tmp := cells.listNext netIf
    match findInterface cells (isEqual netIf) inner (cells.listNext otherList) with
    | none => none
    | some true => moveChanged isEqual otherList target inner rounds tmp cells
    | some false =>
      moveChanged isEqual otherList target inner rounds tmp (moveInterface cells netIf target)

/-- `mupnp_net_interfacelist_getchanges`. -/
def getChanges (getAddress : ι → Option CString) (rounds : ℕ) (netIfListOld netIfListNew : ι)
    (netIfListAdded netIfListRemoved : Option ι) (cells : ListCells ι) : Option (ListCells ι) :=
  let isEqual netIfOld netIfNew := interfaceCmp getAddress (some netIfOld) (some netIfNew) == 0
  (moveChanged isEqual netIfListNew netIfListRemoved rounds rounds (cells.listNext netIfListOld)
    cells).bind fun cells ↦
      moveChanged (fun netIfNew netIfOld ↦ isEqual netIfOld netIfNew) netIfListOld netIfListAdded
        rounds rounds (cells.listNext netIfListNew) cells

/-! ### The loops -/

/-- The inner loop over the nodes that are left of a list. -/
theorem findInterface_eq {cells : ListCells ι} {head : ι} {nodes : List ι}
    (h : IsList cells head nodes) (isEqual : ι → Bool) (after : List ι) :
    ∀ (before : List ι) (rounds : ℕ), nodes = before ++ after → after.length ≤ rounds →
      findInterface cells isEqual rounds after.head? = some (after.any isEqual) := by
  induction after with
  | nil =>
    intro before rounds _ _
    cases rounds <;> rfl
  | cons netIf after ih =>
    intro before rounds hnodes hrounds
    obtain ⟨rounds, rfl⟩ := Nat.exists_eq_add_of_lt hrounds
    have hcut : nodes = before ++ [netIf] ++ after := by
      rw [hnodes, List.append_assoc, List.singleton_append]
    have hnext := h.listNext_eq hcut
    rw [List.getLast?_concat] at hnext
    have hrest := ih (before ++ [netIf]) (after.length + rounds) hcut (Nat.le_add_right _ _)
    change (if isEqual netIf = true then some true
      else findInterface cells isEqual (after.length + rounds) (cells.listNext netIf)) = _
    change cells.listNext netIf = after.head? at hnext
    rw [hnext, hrest, List.any_cons]
    cases isEqual netIf
    · rfl
    · rfl

/-- The inner loop over a list. -/
theorem findInterface_first {cells : ListCells ι} {head : ι} {nodes : List ι}
    (h : IsList cells head nodes) (isEqual : ι → Bool) {rounds : ℕ}
    (hrounds : nodes.length ≤ rounds) :
    findInterface cells isEqual rounds (cells.listNext head) = some (nodes.any isEqual) := by
  have hfirst : cells.listNext head = nodes.head? := h.listNext_eq (List.nil_append nodes).symm
  rw [hfirst]
  exact findInterface_eq h isEqual nodes [] rounds (List.nil_append nodes).symm hrounds

/-- An interface is moved from its list to the end of another one. -/
theorem lists_moveInterface {cells : ListCells ι} {heads : ι → Prop} {nodes : ι → List ι}
    (h : Lists cells heads nodes) {head target netIf : ι} {before after : List ι}
    (hhead : heads head) (htarget : heads target) (hne : target ≠ head)
    (hnodes : nodes head = before ++ netIf :: after) :
    Lists (moveInterface cells netIf (some target)) heads
      (Function.update (Function.update nodes head (before ++ after)) target
        (nodes target ++ [netIf])) := by
  have hflag : cells.headFlag netIf = false := by
    refine (h.isList head hhead).node_flag netIf ?_
    rw [hnodes]
    exact List.mem_append_right before List.mem_cons_self
  have hadd := (h.remove hhead hnodes).add htarget hflag fun other hother ↦
    h.not_mem_of_remove hhead hnodes hother
  rw [Function.update_of_ne hne] at hadd
  exact hadd

/-- The outer loop over the nodes that are left of a list. -/
theorem moveChanged_spec (isEqual : ι → ι → Bool) {heads : ι → Prop} {head other target : ι}
    (hhead : heads head) (hother : heads other) (htarget : heads target) (hne : target ≠ head)
    (hhead' : other ≠ head) (htarget' : other ≠ target) (inner : ℕ) (rest : List ι) :
    ∀ (cells : ListCells ι) (nodes : ι → List ι) (kept : List ι) (rounds : ℕ),
      Lists cells heads nodes → nodes head = kept ++ rest → (nodes other).length ≤ inner →
      rest.length ≤ rounds →
      ∃ cells' nodes',
        moveChanged isEqual other (some target) inner rounds rest.head? cells = some cells' ∧
          Lists cells' heads nodes' ∧
          nodes' head = kept ++ rest.filter (fun netIf ↦ (nodes other).any (isEqual netIf)) ∧
          nodes' target =
            nodes target ++ rest.filter (fun netIf ↦ !(nodes other).any (isEqual netIf)) ∧
          ∀ list, list ≠ head → list ≠ target → nodes' list = nodes list := by
  induction rest with
  | nil =>
    intro cells nodes kept rounds hlists hnodes _ _
    refine ⟨cells, nodes, ?_, hlists, hnodes, (List.append_nil _).symm, fun list _ _ ↦ rfl⟩
    cases rounds <;> rfl
  | cons netIf after ih =>
    intro cells nodes kept rounds hlists hnodes hinner hrounds
    obtain ⟨rounds, rfl⟩ := Nat.exists_eq_add_of_lt hrounds
    have hcut : nodes head = kept ++ [netIf] ++ after := by
      rw [hnodes, List.append_assoc, List.singleton_append]
    have hnext := (hlists.isList head hhead).listNext_eq hcut
    rw [List.getLast?_concat] at hnext
    change cells.listNext netIf = after.head? at hnext
    have hfind := findInterface_first (hlists.isList other hother) (isEqual netIf) hinner
    have hrounds' : after.length ≤ after.length + rounds := Nat.le_add_right _ _
    cases hfound : (nodes other).any (isEqual netIf) with
    | true =>
      obtain ⟨cells', nodes', hrun, hlists', hkept, hmoved, hframe⟩ :=
        ih cells nodes (kept ++ [netIf]) (after.length + rounds) hlists hcut hinner hrounds'
      refine ⟨cells', nodes', ?_, hlists', ?_, ?_, hframe⟩
      · rw [List.head?_cons, moveChanged, hfind, hfound, hnext]
        exact hrun
      · simp only [hkept, List.filter_cons, hfound, if_true, List.append_assoc,
          List.singleton_append]
      · simp only [hmoved, List.filter_cons, hfound, Bool.not_true, Bool.false_eq_true, if_false]
    | false =>
      let nodes₁ := Function.update (Function.update nodes head (kept ++ after)) target
        (nodes target ++ [netIf])
      have hmove : Lists (moveInterface cells netIf (some target)) heads nodes₁ :=
        lists_moveInterface hlists hhead htarget hne hnodes
      have hhead₁ : nodes₁ head = kept ++ after := by
        exact (Function.update_of_ne (Ne.symm hne) _ _).trans (Function.update_self _ _ _)
      have htarget₁ : nodes₁ target = nodes target ++ [netIf] := Function.update_self _ _ _
      have hframe₁ : ∀ list, list ≠ head → list ≠ target → nodes₁ list = nodes list := by
        intro list hlist hlist'
        exact (Function.update_of_ne hlist' _ _).trans (Function.update_of_ne hlist _ _)
      have hother₁ := hframe₁ other hhead' htarget'
      rw [← hother₁] at hinner
      obtain ⟨cells', nodes', hrun, hlists', hkept, hmoved, hframe⟩ :=
        ih _ nodes₁ kept (after.length + rounds) hmove hhead₁ hinner hrounds'
      rw [hother₁] at hkept hmoved
      refine ⟨cells', nodes', ?_, hlists', ?_, ?_, fun list hlist hlist' ↦ ?_⟩
      · rw [List.head?_cons, moveChanged, hfind, hfound, hnext]
        exact hrun
      · simp only [hkept, List.filter_cons, hfound, Bool.false_eq_true, if_false]
      · simp only [hmoved, htarget₁, List.filter_cons, hfound, Bool.not_false, if_true,
          List.append_assoc, List.singleton_append]
      · rw [hframe list hlist hlist', hframe₁ list hlist hlist']

/-! ### The result -/

/-- Two interfaces have the same address. -/
abbrev IsSame (getAddress : ι → Option CString) (netIfOld netIfNew : ι) : Prop :=
  interfaceCmp getAddress (some netIfOld) (some netIfNew) = 0

omit [DecidableEq ι] in
theorem any_eq_decide (others : List ι) (cmp : ι → ℤ) :
    (others.any fun other ↦ cmp other == 0) = decide (∃ other ∈ others, cmp other = 0) := by
  rw [Bool.eq_iff_iff, List.any_eq_true, decide_eq_true_iff]
  simp only [beq_iff_eq]

omit [DecidableEq ι] in
theorem not_any_eq_decide (others : List ι) (cmp : ι → ℤ) :
    (!others.any fun other ↦ cmp other == 0) = decide (∀ other ∈ others, ¬cmp other = 0) := by
  rw [any_eq_decide, ← decide_not, decide_eq_decide]
  simp only [not_exists, not_and]

omit [DecidableEq ι] in
/-- The interfaces that the first loop leaves are enough to find an equal for a new one. -/
theorem any_filter_same (same : ι → ι → Bool) {old new : List ι} {netIfNew : ι}
    (hnew : netIfNew ∈ new) :
    ((old.filter fun netIfOld ↦ new.any (same netIfOld)).any fun netIfOld ↦
      same netIfOld netIfNew) = old.any fun netIfOld ↦ same netIfOld netIfNew := by
  rw [Bool.eq_iff_iff, List.any_eq_true, List.any_eq_true]
  constructor
  · rintro ⟨netIfOld, hmem, hsame⟩
    exact ⟨netIfOld, (List.mem_filter.mp hmem).1, hsame⟩
  · rintro ⟨netIfOld, hmem, hsame⟩
    have hleft : new.any (same netIfOld) = true := List.any_eq_true.mpr ⟨netIfNew, hnew, hsame⟩
    exact ⟨netIfOld, List.mem_filter.mpr ⟨hmem, hleft⟩, hsame⟩

/-- At the end, the removed interfaces are those of the old list that are not in the new one, and
the added ones those of the new list that were not in the old one, each in their order; the others
stay in their list. No node is lost, and as before no node is in two lists or twice in one. -/
theorem getChanges_partition {cells : ListCells ι} {heads : ι → Prop} {nodes : ι → List ι}
    (hlists : Lists cells heads nodes) (getAddress : ι → Option CString)
    (old new added removed : ι) (hheads : ∀ list ∈ [old, new, added, removed], heads list)
    (hdistinct : [old, new, added, removed].Nodup) (hadded : nodes added = [])
    (hremoved : nodes removed = []) (rounds : ℕ) (hold : (nodes old).length ≤ rounds)
    (hnew : (nodes new).length ≤ rounds) :
    ∃ cells' nodes',
      getChanges getAddress rounds old new (some added) (some removed) cells = some cells' ∧
        Lists cells' heads nodes' ∧
        nodes' removed = (nodes old).filter (fun netIf ↦ ∀ other ∈ nodes new,
          ¬IsSame getAddress netIf other) ∧
        nodes' added = (nodes new).filter (fun netIf ↦ ∀ other ∈ nodes old,
          ¬IsSame getAddress other netIf) ∧
        nodes' old = (nodes old).filter (fun netIf ↦ ∃ other ∈ nodes new,
          IsSame getAddress netIf other) ∧
        nodes' new = (nodes new).filter (fun netIf ↦ ∃ other ∈ nodes old,
          IsSame getAddress other netIf) ∧
        (nodes' old ++ nodes' removed).Perm (nodes old) ∧
        (nodes' new ++ nodes' added).Perm (nodes new) ∧
        ∀ list, list ∉ [old, new, added, removed] → nodes' list = nodes list := by
  simp only [List.nodup_cons, List.mem_cons, List.not_mem_nil, or_false, not_or] at hdistinct
  simp only [List.forall_mem_cons] at hheads
  obtain ⟨hold', hnew', hadded', hremoved', -⟩ := hheads
  obtain ⟨⟨hon, hoa, hor⟩, ⟨hna, hnr⟩, har, -⟩ := hdistinct
  let same : ι → ι → Bool := fun netIfOld netIfNew ↦
    interfaceCmp getAddress (some netIfOld) (some netIfNew) == 0
  have hfirst : ∀ {cells : ListCells ι} {nodes : ι → List ι} {list : ι}, Lists cells heads nodes →
      heads list → cells.listNext list = (nodes list).head? := fun hlists hhead ↦
    (hlists.isList _ hhead).listNext_eq (List.nil_append _).symm
  obtain ⟨cells₁, nodes₁, hrun₁, hlists₁, hkept₁, hmoved₁, hframe₁⟩ :=
    moveChanged_spec same hold' hnew' hremoved' (Ne.symm hor) (Ne.symm hon) hnr rounds (nodes old)
      cells nodes [] rounds hlists (List.nil_append _).symm hnew hold
  rw [List.nil_append] at hkept₁
  rw [hremoved, List.nil_append] at hmoved₁
  have hnew₁ : nodes₁ new = nodes new := hframe₁ new (Ne.symm hon) hnr
  have hadded₁ : nodes₁ added = [] := by
    rw [hframe₁ added (Ne.symm hoa) har, hadded]
  have hold₁ : (nodes₁ old).length ≤ rounds := by
    rw [hkept₁]
    exact Nat.le_trans (List.length_filter_le _ _) hold
  obtain ⟨cells₂, nodes₂, hrun₂, hlists₂, hkept₂, hmoved₂, hframe₂⟩ :=
    moveChanged_spec (fun netIfNew netIfOld ↦ same netIfOld netIfNew) hnew' hold' hadded'
      (Ne.symm hna) hon hoa rounds (nodes new) cells₁ nodes₁ [] rounds hlists₁ hnew₁ hold₁ hnew
  rw [List.nil_append] at hkept₂
  rw [hadded₁, List.nil_append] at hmoved₂
  have hany : ∀ netIfNew ∈ nodes new, ((nodes₁ old).any fun netIfOld ↦ same netIfOld netIfNew) =
      (nodes old).any fun netIfOld ↦ same netIfOld netIfNew := by
    intro netIfNew hmem
    rw [hkept₁]
    exact any_filter_same same hmem
  have hkeptNew := hkept₂.trans (List.filter_congr hany)
  have hmovedNew := hmoved₂.trans (List.filter_congr fun netIf hmem ↦
    congrArg (fun found ↦ !found) (hany netIf hmem))
  have hkeptOld := (hframe₂ old hon hoa).trans hkept₁
  have hmovedOld := (hframe₂ removed (Ne.symm hnr) (Ne.symm har)).trans hmoved₁
  have hrun : getChanges getAddress rounds old new (some added) (some removed) cells =
      some cells₂ := by
    unfold getChanges
    rw [hfirst hlists hold']
    change Option.bind (moveChanged same new (some removed) rounds rounds _ cells) _ = _
    rw [hrun₁, Option.bind_some, hfirst hlists₁ hnew', hnew₁]
    exact hrun₂
  refine ⟨cells₂, nodes₂, hrun, hlists₂, hmovedOld.trans ?_, hmovedNew.trans ?_,
    hkeptOld.trans ?_, hkeptNew.trans ?_, ?_, ?_, fun list hlist ↦ ?_⟩
  · exact List.filter_congr fun netIf _ ↦ not_any_eq_decide _ _
  · exact List.filter_congr fun netIf _ ↦ not_any_eq_decide _ _
  · exact List.filter_congr fun netIf _ ↦ any_eq_decide _ _
  · exact List.filter_congr fun netIf _ ↦ any_eq_decide _ _
  · rw [hkeptOld, hmovedOld]
    exact List.filter_append_perm _ _
  · rw [hkeptNew, hmovedNew]
    exact List.filter_append_perm _ _
  · simp only [List.mem_cons, List.not_mem_nil, or_false, not_or] at hlist
    obtain ⟨hlo, hln, hla, hlr⟩ := hlist
    rw [hframe₂ list hln hla, hframe₁ list hlo hlr]

/-- Four lists with the headers 0 to 3, two interfaces in the first and two in the second. -/
def twoByTwo : ListCells ℕ :=
  [6, 7].foldl (fun cells node ↦ cells.listAdd 1 node)
    ([4, 5].foldl (fun cells node ↦ cells.listAdd 0 node)
      (ListCells.initial fun list ↦ decide (list < 4)))

theorem lists_twoByTwo : Lists twoByTwo (fun head ↦ decide (head < 4) = true)
    (Function.update (Function.update (fun _ ↦ []) 0 [4, 5]) 1 [6, 7]) := by
  have hold : Lists _ (fun head ↦ decide (head < 4) = true)
      (Function.update (fun _ ↦ []) 0 [4, 5]) :=
    Lists.addAll (by decide) [4, 5] (Lists.initial fun list ↦ decide (list < 4)) (by decide)
      fun node hnode ↦ ⟨(by decide : ∀ node ∈ [4, 5], decide (node < 4) = false) node hnode,
        fun _ _ ↦ List.not_mem_nil⟩
  refine Lists.addAll (by decide) [6, 7] hold (by decide) fun node hnode ↦
    ⟨(by decide : ∀ node ∈ [6, 7], decide (node < 4) = false) node hnode, fun other _ hmem ↦ ?_⟩
  have hin : node ∈ [4, 5] := by
    rw [Function.update_apply] at hmem
    split_ifs at hmem
    · exact hmem
    · exact absurd hmem List.not_mem_nil
  exact absurd hin ((by decide : ∀ node ∈ [6, 7], node ∉ [4, 5]) node hnode)

/-- One interface stays, one goes and one comes. -/
theorem getChanges_partition_twoByTwo :
    ∃ cells' nodes',
      getChanges (fun netIf ↦ ([none, none, none, none, some ['a'], some ['b'], some ['b'],
        some ['c']] : List (Option CString)).getD netIf none) 2 0 1 (some 2) (some 3) twoByTwo =
          some cells' ∧
        Lists cells' (fun head ↦ decide (head < 4) = true) nodes' ∧ nodes' 3 = [4] ∧
        nodes' 2 = [7] ∧ nodes' 0 = [5] ∧ nodes' 1 = [6] := by
  obtain ⟨cells', nodes', hrun, hlists, hremoved, hadded, hold, hnew, -⟩ :=
    getChanges_partition lists_twoByTwo (fun netIf ↦ ([none, none, none, none, some ['a'],
      some ['b'], some ['b'], some ['c']] : List (Option CString)).getD netIf none) 0 1 2 3
      (by decide) (by decide) rfl rfl 2 (by decide) (by decide)
  exact ⟨cells', nodes', hrun, hlists, hremoved, hadded, hold, hnew⟩

end Mupnp.Net
