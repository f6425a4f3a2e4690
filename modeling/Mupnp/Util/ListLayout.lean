import Mathlib.Data.Fintype.Defs
import Mupnp.Util.ListRings

/-!
# Which record is in which list

A `Layout` says of every record whether it has been initialised, and as what, and which ring it is
in. A ring with a header is a list; a node in no list is a ring of its own, or in a ring whose
header has been removed. Nothing is known of the links of a record without a ring: it has been freed
or never initialised, or its header has been initialised again.

`Represents` connects a layout with the memory. It is kept when a ring is given up
(`Represents.dissolve`), when its records become a ring in another order (`Represents.link`) and
when only records without a ring change (`Represents.congr`); each operation of `util/list.c` is
made of these.
-/

set_option autoImplicit false
set_option relaxedAutoImplicit false

namespace Mupnp.Util

open Foundation

variable {ι : Type*} [DecidableEq ι]

/-- The mark of every initialised record, and the ring that a record is in. -/
structure Layout (ι : Type*) where
  headFlag : ι → Option Bool
  ringOf : ι → Cycle ι

namespace Layout

/-- No record has been initialised. -/
def empty : Layout ι := ⟨fun _ ↦ none, fun _ ↦ Cycle.nil⟩

/-- The records of one ring are in no ring any more. -/
def dissolve (layout : Layout ι) (list : ι) : Layout ι :=
  { layout with ringOf := fun record ↦
      if record ∈ layout.ringOf list then Cycle.nil else layout.ringOf record }

/-- These records are a ring. -/
def link (layout : Layout ι) (ring : Cycle ι) : Layout ι :=
  { layout with ringOf := fun record ↦ if record ∈ ring then ring else layout.ringOf record }

def mark (layout : Layout ι) (list : ι) (headFlag : Option Bool) : Layout ι :=
  { layout with headFlag := Function.update layout.headFlag list headFlag }

/-- A record leaves its ring, which leaves the others. -/
def detach (layout : Layout ι) (list : ι) (rest : List ι) : Layout ι :=
  ((layout.dissolve list).link ↑rest).link ↑[list]

def IsHeader (layout : Layout ι) (head : ι) : Prop := layout.headFlag head = some true

/-- A record that is no node of a list. -/
def IsFree (layout : Layout ι) (list : ι) : Prop :=
  ∀ head, layout.IsHeader head → list ∈ layout.ringOf head → list = head

/-- A node that is in no list. -/
def IsFreeNode (layout : Layout ι) (list : ι) : Prop :=
  layout.headFlag list = some false ∧ layout.IsFree list

instance (layout : Layout ι) (head : ι) : Decidable (layout.IsHeader head) :=
  inferInstanceAs (Decidable (layout.headFlag head = some true))

instance [Fintype ι] (layout : Layout ι) (list : ι) : Decidable (layout.IsFree list) :=
  inferInstanceAs (Decidable
    (∀ head, layout.IsHeader head → list ∈ layout.ringOf head → list = head))

variable {layout : Layout ι} {list record : ι} {ring : Cycle ι}

theorem ringOf_dissolve_of_mem (hmem : record ∈ layout.ringOf list) :
    (layout.dissolve list).ringOf record = Cycle.nil :=
  if_pos hmem

theorem ringOf_dissolve_of_not_mem (hnot : record ∉ layout.ringOf list) :
    (layout.dissolve list).ringOf record = layout.ringOf record :=
  if_neg hnot

theorem ringOf_link_of_mem (hmem : record ∈ ring) : (layout.link ring).ringOf record = ring :=
  if_pos hmem

theorem ringOf_link_of_not_mem (hnot : record ∉ ring) :
    (layout.link ring).ringOf record = layout.ringOf record :=
  if_neg hnot

/-- A record is in its ring when it is in the new ring or was in its own. -/
theorem mem_ringOf_link (h : record ∉ ring → record ∈ layout.ringOf record) :
    record ∈ (layout.link ring).ringOf record := by
  by_cases hmem : record ∈ ring
  · rw [ringOf_link_of_mem hmem]
    exact hmem
  · rw [ringOf_link_of_not_mem hmem]
    exact h hmem

theorem headFlag_mark_self (layout : Layout ι) (list : ι) (flag : Option Bool) :
    (layout.mark list flag).headFlag list = flag := by
  simp only [mark, Function.update_self]

theorem headFlag_mark_of_ne (hne : record ≠ list) (flag : Option Bool) :
    (layout.mark list flag).headFlag record = layout.headFlag record := by
  simp only [mark, Function.update_of_ne hne]

theorem mark_mark (layout : Layout ι) (list : ι) (flag flag' : Option Bool) :
    (layout.mark list flag).mark list flag' = layout.mark list flag' := by
  simp only [mark, Function.update_idem]

theorem dissolve_congr {list' : ι} (h : layout.ringOf list = layout.ringOf list') :
    layout.dissolve list = layout.dissolve list' := by
  simp only [dissolve, h]

end Layout

/-- The memory has the rings of the layout. -/
structure Represents (cells : ListCells ι) (layout : Layout ι) : Prop where
  headFlag_eq : ∀ record flag, layout.headFlag record = some flag → cells.headFlag record = flag
  isRing : ∀ record, IsRing cells.next cells.prev (layout.ringOf record)
  mem_self : ∀ record other, other ∈ layout.ringOf record → record ∈ layout.ringOf record
  ringOf_eq : ∀ record other, other ∈ layout.ringOf record →
    layout.ringOf other = layout.ringOf record
  initialised : ∀ record other, other ∈ layout.ringOf record → layout.headFlag other ≠ none
  header_unique : ∀ record head head', head ∈ layout.ringOf record → head' ∈ layout.ringOf record →
    layout.IsHeader head → layout.IsHeader head' → head = head'

namespace Represents

variable {cells cells' : ListCells ι} {layout : Layout ι} {list record other : ι} {ring : Cycle ι}

omit [DecidableEq ι] in
theorem empty (cells : ListCells ι) : Represents cells Layout.empty where
  headFlag_eq := fun _ _ heq ↦ absurd heq (Option.some_ne_none _).symm
  isRing := fun _ ↦ IsRing.nil
  mem_self := fun _ other hmem ↦ absurd hmem (Cycle.notMem_nil other)
  ringOf_eq := fun _ other hmem ↦ absurd hmem (Cycle.notMem_nil other)
  initialised := fun _ other hmem ↦ absurd hmem (Cycle.notMem_nil other)
  header_unique := fun _ head _ hmem ↦ absurd hmem (Cycle.notMem_nil head)

omit [DecidableEq ι] in
/-- Two records are in each other's rings. -/
theorem mem_symm (h : Represents cells layout) (hmem : other ∈ layout.ringOf record) :
    record ∈ layout.ringOf other := by
  rw [h.ringOf_eq record other hmem]
  exact h.mem_self record other hmem

omit [DecidableEq ι] in
/-- A record that is in a ring is in its own. -/
theorem mem_self_of_mem (h : Represents cells layout) (hmem : other ∈ layout.ringOf record) :
    other ∈ layout.ringOf other := by
  rw [h.ringOf_eq record other hmem]
  exact hmem

omit [DecidableEq ι] in
theorem eq_nil_of_not_mem (h : Represents cells layout) (hnot : record ∉ layout.ringOf record) :
    layout.ringOf record = Cycle.nil := by
  induction hring : layout.ringOf record using Cycle.induction_on with
  | nil => rfl
  | cons other rest _ =>
    have hmem : other ∈ layout.ringOf record := by
      rw [hring]
      exact mem_cycle_self _ _
    exact absurd (h.mem_self record other hmem) hnot

/-- Records outside a dissolved ring keep theirs. -/
theorem not_mem_of_mem_dissolve (h : Represents cells layout)
    (hmem : other ∈ (layout.dissolve list).ringOf record) :
    record ∉ layout.ringOf list ∧ other ∉ layout.ringOf list ∧ other ∈ layout.ringOf record := by
  by_cases hrecord : record ∈ layout.ringOf list
  · rw [Layout.ringOf_dissolve_of_mem hrecord] at hmem
    exact absurd hmem (Cycle.notMem_nil other)
  · rw [Layout.ringOf_dissolve_of_not_mem hrecord] at hmem
    refine ⟨hrecord, fun hother ↦ hrecord ?_, hmem⟩
    rw [← h.ringOf_eq list other hother, h.ringOf_eq record other hmem]
    exact h.mem_self record other hmem

theorem dissolve (h : Represents cells layout) (list : ι) :
    Represents cells (layout.dissolve list) where
  headFlag_eq := h.headFlag_eq
  isRing := fun record ↦ by
    by_cases hrecord : record ∈ layout.ringOf list
    · rw [Layout.ringOf_dissolve_of_mem hrecord]
      exact IsRing.nil
    · rw [Layout.ringOf_dissolve_of_not_mem hrecord]
      exact h.isRing record
  mem_self := fun record other hmem ↦ by
    obtain ⟨hrecord, -, hold⟩ := h.not_mem_of_mem_dissolve hmem
    rw [Layout.ringOf_dissolve_of_not_mem hrecord]
    exact h.mem_self record other hold
  ringOf_eq := fun record other hmem ↦ by
    obtain ⟨hrecord, hother, hold⟩ := h.not_mem_of_mem_dissolve hmem
    rw [Layout.ringOf_dissolve_of_not_mem hrecord, Layout.ringOf_dissolve_of_not_mem hother]
    exact h.ringOf_eq record other hold
  initialised := fun record other hmem ↦
    h.initialised record other (h.not_mem_of_mem_dissolve hmem).2.2
  header_unique := fun record head head' hmem hmem' ↦
    h.header_unique record head head' (h.not_mem_of_mem_dissolve hmem).2.2
      (h.not_mem_of_mem_dissolve hmem').2.2

/-- Records in no ring become one. -/
theorem link (h : Represents cells layout) (hring : IsRing cells.next cells.prev ring)
    (hfree : ∀ record ∈ ring, layout.ringOf record = Cycle.nil)
    (hinitialised : ∀ record ∈ ring, layout.headFlag record ≠ none)
    (hunique : ∀ head ∈ ring, ∀ head' ∈ ring, layout.IsHeader head → layout.IsHeader head' →
      head = head') : Represents cells (layout.link ring) := by
  have hcases : ∀ {record other}, other ∈ (layout.link ring).ringOf record →
      (record ∈ ring ∧ other ∈ ring) ∨
        record ∉ ring ∧ other ∉ ring ∧ other ∈ layout.ringOf record := by
    intro record other hmem
    by_cases hrecord : record ∈ ring
    · rw [Layout.ringOf_link_of_mem hrecord] at hmem
      exact .inl ⟨hrecord, hmem⟩
    · rw [Layout.ringOf_link_of_not_mem hrecord] at hmem
      refine .inr ⟨hrecord, fun hother ↦ ?_, hmem⟩
      have hself := h.mem_self_of_mem hmem
      rw [hfree other hother] at hself
      exact Cycle.notMem_nil other hself
  exact {
    headFlag_eq := h.headFlag_eq
    isRing := fun record ↦ by
      by_cases hrecord : record ∈ ring
      · rw [Layout.ringOf_link_of_mem hrecord]
        exact hring
      · rw [Layout.ringOf_link_of_not_mem hrecord]
        exact h.isRing record
    mem_self := fun record other hmem ↦ by
      rcases hcases hmem with ⟨hrecord, -⟩ | ⟨hrecord, -, hold⟩
      · rw [Layout.ringOf_link_of_mem hrecord]
        exact hrecord
      · rw [Layout.ringOf_link_of_not_mem hrecord]
        exact h.mem_self record other hold
    ringOf_eq := fun record other hmem ↦ by
      rcases hcases hmem with ⟨hrecord, hother⟩ | ⟨hrecord, hother, hold⟩
      · rw [Layout.ringOf_link_of_mem hrecord, Layout.ringOf_link_of_mem hother]
      · rw [Layout.ringOf_link_of_not_mem hrecord, Layout.ringOf_link_of_not_mem hother]
        exact h.ringOf_eq record other hold
    initialised := fun record other hmem ↦ by
      rcases hcases hmem with ⟨-, hother⟩ | ⟨-, -, hold⟩
      · exact hinitialised other hother
      · exact h.initialised record other hold
    header_unique := fun record head head' hmem hmem' ↦ by
      rcases hcases hmem with ⟨hrecord, hhead⟩ | ⟨hrecord, -, hold⟩
      · rcases hcases hmem' with ⟨-, hhead'⟩ | ⟨hrecord', -⟩
        · exact hunique head hhead head' hhead'
        · exact absurd hrecord hrecord'
      · rcases hcases hmem' with ⟨hrecord', -⟩ | ⟨-, -, hold'⟩
        · exact absurd hrecord' hrecord
        · exact h.header_unique record head head' hold hold' }

/-- A record that is in no ring gets another mark. -/
theorem mark (h : Represents cells layout) (hfree : layout.ringOf list = Cycle.nil)
    {headFlag : Option Bool} (hflag : ∀ flag ∈ headFlag, cells.headFlag list = flag) :
    Represents cells (layout.mark list headFlag) := by
  have hne : ∀ {record other}, other ∈ layout.ringOf record → other ≠ list := by
    rintro record other hmem rfl
    have hself := h.mem_self_of_mem hmem
    rw [hfree] at hself
    exact Cycle.notMem_nil other hself
  have hkept : ∀ {record other}, other ∈ layout.ringOf record →
      (layout.mark list headFlag).headFlag other = layout.headFlag other :=
    fun hmem ↦ Layout.headFlag_mark_of_ne (hne hmem) headFlag
  exact {
    headFlag_eq := fun record flag heq ↦ by
      by_cases hrecord : record = list
      · subst hrecord
        rw [Layout.headFlag_mark_self] at heq
        exact hflag flag heq
      · rw [Layout.headFlag_mark_of_ne hrecord] at heq
        exact h.headFlag_eq record flag heq
    isRing := h.isRing
    mem_self := h.mem_self
    ringOf_eq := h.ringOf_eq
    initialised := fun record other hmem ↦ by
      rw [hkept hmem]
      exact h.initialised record other hmem
    header_unique := fun record head head' hmem hmem' hhead hhead' ↦
      h.header_unique record head head' hmem hmem' ((hkept hmem).symm.trans hhead)
        ((hkept hmem').symm.trans hhead') }

omit [DecidableEq ι] in
/-- A layout depends on the marks of the initialised records and on the links of those in rings. -/
theorem congr (h : Represents cells layout)
    (hflag : ∀ record, layout.headFlag record ≠ none →
      cells'.headFlag record = cells.headFlag record)
    (hlinks : ∀ record, record ∈ layout.ringOf record → AgreeAt cells cells' record) :
    Represents cells' layout where
  headFlag_eq := fun record flag heq ↦ by
    rw [hflag record (heq ▸ Option.some_ne_none flag)]
    exact h.headFlag_eq record flag heq
  isRing := fun record ↦ (h.isRing record).congr
    (fun other hmem ↦ (hlinks other (h.mem_self_of_mem hmem)).2.1)
    fun other hmem ↦ (hlinks other (h.mem_self_of_mem hmem)).2.2
  mem_self := h.mem_self
  ringOf_eq := h.ringOf_eq
  initialised := h.initialised
  header_unique := h.header_unique

omit [DecidableEq ι] in
/-- A header in the ring of a record that is no node of a list is that record. -/
theorem eq_of_isFree (h : Represents cells layout) (hfree : layout.IsFree list) {head : ι}
    (hhead : layout.IsHeader head) (hmem : head ∈ layout.ringOf list) : head = list :=
  (hfree head hhead (h.mem_symm hmem)).symm

theorem ringOf_dissolve_self (h : Represents cells layout) (list : ι) :
    (layout.dissolve list).ringOf list = Cycle.nil := by
  by_cases hmem : list ∈ layout.ringOf list
  · exact Layout.ringOf_dissolve_of_mem hmem
  · rw [Layout.ringOf_dissolve_of_not_mem hmem]
    exact h.eq_nil_of_not_mem hmem

end Represents

/-- The memory has the rings of the layout, and every header has a list. -/
structure Tracks (cells : ListCells ι) (layout : Layout ι) : Prop where
  represents : Represents cells layout
  header_mem : ∀ head, layout.IsHeader head → head ∈ layout.ringOf head

namespace Tracks

variable {cells cells' : ListCells ι} {layout : Layout ι} {list : ι}

omit [DecidableEq ι] in
theorem empty (cells : ListCells ι) : Tracks cells Layout.empty :=
  ⟨Represents.empty cells, fun _ hhead ↦ absurd hhead (Option.some_ne_none true).symm⟩

/-- A record that is no node of a list is given up, with what it was linked to. -/
theorem representsFreed (h : Tracks cells layout)
    (hagree : ∀ record, record ≠ list → AgreeAt cells cells' record) :
    Represents cells' ((layout.dissolve list).mark list none) := by
  have hnil := h.represents.ringOf_dissolve_self list
  have hmarked := (h.represents.dissolve list).mark hnil
    fun flag hflag ↦ absurd hflag (Option.not_mem_none flag)
  refine hmarked.congr (fun record hrecord ↦ (hagree record ?_).1) fun record hrecord ↦
    hagree record ?_
  · rintro rfl
    exact hrecord (Layout.headFlag_mark_self _ record none)
  · rintro rfl
    change record ∈ (layout.dissolve record).ringOf record at hrecord
    rw [hnil] at hrecord
    exact Cycle.notMem_nil record hrecord

/-- Every header but the record that is given up keeps its list. -/
theorem header_mem_dissolve (h : Tracks cells layout) (hfree : layout.IsFree list) {head : ι}
    (hhead : layout.IsHeader head) (hne : head ≠ list) :
    head ∈ (layout.dissolve list).ringOf head := by
  rw [Layout.ringOf_dissolve_of_not_mem fun hmem ↦
    hne (h.represents.eq_of_isFree hfree hhead hmem)]
  exact h.header_mem head hhead

theorem free (h : Tracks cells layout) (hfree : layout.IsFree list)
    (hagree : ∀ record, record ≠ list → AgreeAt cells cells' record) :
    Tracks cells' ((layout.dissolve list).mark list none) := by
  refine ⟨h.representsFreed hagree, fun head hhead ↦ ?_⟩
  by_cases hne : head = list
  · subst hne
    rw [Layout.IsHeader, Layout.headFlag_mark_self] at hhead
    exact absurd hhead (Option.some_ne_none true).symm
  · rw [Layout.IsHeader, Layout.headFlag_mark_of_ne hne] at hhead
    exact h.header_mem_dissolve hfree hhead hne

theorem listInit (h : Tracks cells layout) (hfree : layout.IsFree list) (headFlag : Bool) :
    Tracks (cells.listInit list headFlag)
      (((layout.dissolve list).mark list (some headFlag)).link ↑[list]) := by
  have hnil := h.represents.ringOf_dissolve_self list
  have hfreed : Represents (cells.listInit list headFlag)
      ((layout.dissolve list).mark list none) :=
    h.representsFreed fun record hne ↦ agreeAt_listInit cells headFlag hne
  have hflag : ∀ flag ∈ some headFlag, (cells.listInit list headFlag).headFlag list = flag := by
    intro flag hmem
    rw [← Option.mem_some_iff.mp hmem]
    exact listInit_headFlag_self cells list headFlag
  have hmarked := hfreed.mark hnil hflag
  rw [Layout.mark_mark] at hmarked
  have honly : ∀ record ∈ (([list] : List ι) : Cycle ι), record = list :=
    fun record hmem ↦ List.mem_singleton.mp (Cycle.mem_coe_iff.mp hmem)
  refine ⟨hmarked.link (isRing_listInit cells list headFlag) ?_ ?_ ?_,
    fun head hhead ↦ Layout.mem_ringOf_link fun hnot ↦ ?_⟩
  · intro record hmem
    rw [honly record hmem]
    exact hnil
  · intro record hmem
    rw [honly record hmem, Layout.headFlag_mark_self]
    exact Option.some_ne_none headFlag
  · intro head hhead head' hhead' _ _
    rw [honly head hhead, honly head' hhead']
  · have hne : head ≠ list := fun heq ↦ hnot (heq ▸ mem_cycle_self head [])
    refine h.header_mem_dissolve hfree ?_ hne
    exact (Layout.headFlag_mark_of_ne hne (some headFlag)).symm.trans hhead

/-- A node in no list comes behind a record of another ring. -/
theorem listInsert (h : Tracks cells layout) {prevList : ι} {rest : List ι}
    (hfree : layout.IsFreeNode list) (hapart : prevList ∉ layout.ringOf list)
    (hring : layout.ringOf prevList = ↑(prevList :: rest)) :
    Tracks (cells.listInsert prevList list)
      (((layout.dissolve list).dissolve prevList).link ↑(prevList :: list :: rest)) := by
  have hrepresents := h.represents
  have hold := hrepresents.isRing prevList
  have hmem : prevList ∈ layout.ringOf prevList := by
    rw [hring]
    exact mem_cycle_self _ _
  have hlist : list ∉ layout.ringOf prevList := fun hlist ↦ hapart (hrepresents.mem_symm hlist)
  have hkept : (layout.dissolve list).ringOf prevList = layout.ringOf prevList :=
    Layout.ringOf_dissolve_of_not_mem hapart
  have hdissolved := (hrepresents.dissolve list).dissolve prevList
  have hagree : ∀ record, record ∈ ((layout.dissolve list).dissolve prevList).ringOf record →
      AgreeAt cells (cells.listInsert prevList list) record := by
    intro record hrecord
    obtain ⟨hother, -, hself⟩ := (hrepresents.dissolve list).not_mem_of_mem_dissolve hrecord
    rw [hkept] at hother
    obtain ⟨hnot, -, hself⟩ := hrepresents.not_mem_of_mem_dissolve hself
    exact agreeAt_listInsert hold hmem hlist hother fun heq ↦ hnot (heq ▸ heq ▸ hself)
  have hcases : ∀ record ∈ ((prevList :: list :: rest : List ι) : Cycle ι),
      record = list ∨ record ∈ layout.ringOf prevList := by
    intro record hrecord
    rw [hring]
    rcases mem_cycle_cons.mp hrecord with rfl | hrecord
    · exact .inr (mem_cycle_self _ _)
    · rcases mem_cycle_cons.mp hrecord with rfl | hrecord
      · exact .inl rfl
      · exact .inr (mem_cycle_cons.mpr (.inr hrecord))
  have hnode : ¬ layout.IsHeader list := by
    intro hhead
    rw [Layout.IsHeader, hfree.1] at hhead
    cases hhead
  have hkeeps : Represents (cells.listInsert prevList list)
      ((layout.dissolve list).dissolve prevList) := hdissolved.congr (fun _ _ ↦ rfl) hagree
  refine ⟨hkeeps.link ?_ ?_ ?_ ?_, fun head hhead ↦ Layout.mem_ringOf_link fun hnot ↦ ?_⟩
  · rw [hring] at hold hlist
    exact isRing_listInsert hold hlist
  · intro record hrecord
    rcases hcases record hrecord with rfl | hrecord
    · have hnil := hrepresents.ringOf_dissolve_self record
      rw [Layout.ringOf_dissolve_of_not_mem (by rwa [hkept]), hnil]
    · exact Layout.ringOf_dissolve_of_mem (by rwa [hkept])
  · intro record hrecord
    rcases hcases record hrecord with rfl | hrecord
    · exact fun hnone ↦ Option.some_ne_none false (hfree.1.symm.trans hnone)
    · exact hrepresents.initialised prevList record hrecord
  · intro head hhead head' hhead' hheader hheader'
    rcases hcases head hhead with rfl | hhead
    · exact absurd hheader hnode
    · rcases hcases head' hhead' with rfl | hhead'
      · exact absurd hheader' hnode
      · exact hrepresents.header_unique prevList head head' hhead hhead' hheader hheader'
  · have hout : head ∉ layout.ringOf prevList := by
      intro hin
      rw [hring] at hin
      rcases mem_cycle_cons.mp hin with rfl | hrest
      · exact hnot (mem_cycle_self _ _)
      · exact hnot (mem_cycle_cons.mpr (.inr (mem_cycle_cons.mpr (.inr hrest))))
    rw [Layout.ringOf_dissolve_of_not_mem (by rwa [hkept])]
    exact h.header_mem_dissolve hfree.2 hhead fun heq ↦ hnode (heq ▸ hhead)

/-- A node in no list comes to the end of a list. -/
theorem listAdd (h : Tracks cells layout) {headList : ι} {nodes : List ι}
    (hfree : layout.IsFreeNode list) (hhead : layout.IsHeader headList)
    (hring : layout.ringOf headList = ↑(headList :: nodes)) :
    Tracks (cells.listAdd headList list)
      (((layout.dissolve list).dissolve headList).link ↑(headList :: (nodes ++ [list]))) := by
  have hrepresents := h.represents
  have hold := hrepresents.isRing headList
  rw [hring] at hold
  obtain ⟨others, hothers, hnew⟩ := hold.exists_cons_prev
  have hprev : cells.prev headList ∈ layout.ringOf headList := by
    rw [hring, hothers]
    exact mem_cycle_self _ _
  have hsame : layout.ringOf (cells.prev headList) = layout.ringOf headList :=
    hrepresents.ringOf_eq headList _ hprev
  have hapart : headList ∉ layout.ringOf list := by
    intro hmem
    rw [Layout.IsHeader, hrepresents.eq_of_isFree hfree.2 hhead hmem, hfree.1] at hhead
    cases hhead
  have hapartPrev : cells.prev headList ∉ layout.ringOf list := by
    intro hmem
    rw [← hrepresents.ringOf_eq list _ hmem, hsame, hring] at hapart
    exact hapart (mem_cycle_self _ _)
  have hdissolve : (layout.dissolve list).dissolve headList =
      (layout.dissolve list).dissolve (cells.prev headList) := by
    apply Layout.dissolve_congr
    rw [Layout.ringOf_dissolve_of_not_mem hapart, Layout.ringOf_dissolve_of_not_mem hapartPrev,
      hsame]
  rw [hdissolve, ← hnew list]
  exact h.listInsert hfree hapartPrev (hsame.trans (hring.trans hothers))

/-- A record leaves its ring. -/
theorem listRemove (h : Tracks cells layout) {rest : List ι}
    (hring : layout.ringOf list = ↑(list :: rest)) :
    Tracks (cells.listRemove list) (layout.detach list rest) := by
  have hrepresents := h.represents
  have hold := hrepresents.isRing list
  have hmem : list ∈ layout.ringOf list := by
    rw [hring]
    exact mem_cycle_self _ _
  have hrest : ∀ record ∈ ((rest : List ι) : Cycle ι), record ∈ layout.ringOf list := by
    intro record hrecord
    rw [hring]
    exact mem_cycle_cons.mpr (.inr hrecord)
  have hnot : list ∉ ((rest : List ι) : Cycle ι) := by
    rw [hring] at hold
    exact fun hmem ↦ (List.nodup_cons.mp hold.nodup_coe).1 (Cycle.mem_coe_iff.mp hmem)
  have honly : ∀ record ∈ (([list] : List ι) : Cycle ι), record = list :=
    fun record hrecord ↦ List.mem_singleton.mp (Cycle.mem_coe_iff.mp hrecord)
  have hdissolved : Represents (cells.listRemove list) (layout.dissolve list) :=
    (hrepresents.dissolve list).congr (fun _ _ ↦ rfl) fun record hrecord ↦
      agreeAt_listRemove hold hmem (hrepresents.not_mem_of_mem_dissolve hrecord).1
  have hlinked : Represents (cells.listRemove list) ((layout.dissolve list).link ↑rest) := by
    refine hdissolved.link ?_ ?_ ?_ ?_
    · rw [hring] at hold
      exact isRing_listRemove hold
    · exact fun record hrecord ↦ Layout.ringOf_dissolve_of_mem (hrest record hrecord)
    · exact fun record hrecord ↦ hrepresents.initialised list record (hrest record hrecord)
    · exact fun head hhead head' hhead' ↦
        hrepresents.header_unique list head head' (hrest head hhead) (hrest head' hhead')
  refine ⟨hlinked.link (isRing_listRemove_self cells list) ?_ ?_ ?_,
    fun head hhead ↦ Layout.mem_ringOf_link fun hself ↦ Layout.mem_ringOf_link fun hin ↦ ?_⟩
  · intro record hrecord
    rw [honly record hrecord, Layout.ringOf_link_of_not_mem hnot]
    exact Layout.ringOf_dissolve_of_mem hmem
  · intro record hrecord
    rw [honly record hrecord]
    exact hrepresents.initialised list list hmem
  · intro head hhead head' hhead' _ _
    rw [honly head hhead, honly head' hhead']
  · have hout : head ∉ layout.ringOf list := by
      rw [hring]
      intro hmem
      rcases mem_cycle_cons.mp hmem with rfl | hmem
      · exact hself (mem_cycle_self _ _)
      · exact hin hmem
    rw [Layout.ringOf_dissolve_of_not_mem hout]
    exact h.header_mem head hhead

/-! ### Lists -/

variable {head : ι} {nodes : List ι}

omit [DecidableEq ι] in
/-- Only the header of a list has the mark of a header. -/
theorem headFlag_of_mem (h : Tracks cells layout) (hhead : layout.IsHeader head)
    (hring : layout.ringOf head = ↑(head :: nodes)) {node : ι} (hnode : node ∈ nodes) :
    layout.headFlag node = some false := by
  have hmem : node ∈ layout.ringOf head := by
    rw [hring]
    exact mem_cycle_cons.mpr (.inr (Cycle.mem_coe_iff.mpr hnode))
  have hnodup := (h.represents.isRing head).nodup
  rw [hring, Cycle.nodup_coe_iff] at hnodup
  cases hflag : layout.headFlag node with
  | none => exact absurd hflag (h.represents.initialised head node hmem)
  | some flag =>
    cases flag with
    | false => rfl
    | true =>
      have heq := h.represents.header_unique head node head hmem (h.header_mem head hhead) hflag
        hhead
      exact absurd (heq ▸ hnode) (List.nodup_cons.mp hnodup).1

omit [DecidableEq ι] in
/-- The loop along a list meets its nodes. -/
theorem walks (h : Tracks cells layout) (hhead : layout.IsHeader head)
    (hring : layout.ringOf head = ↑(head :: nodes)) :
    Walks cells.listNext (cells.listNext head) nodes := by
  have hold := h.represents.isRing head
  rw [hring] at hold
  exact walks_of_isChain hold.isChain (h.represents.headFlag_eq head true hhead) fun node hnode ↦
    h.represents.headFlag_eq node false (h.headFlag_of_mem hhead hring hnode)

end Tracks

end Mupnp.Util
