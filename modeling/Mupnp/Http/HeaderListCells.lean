import Mupnp.Http.HeaderListMap
import Mupnp.Util.ListRings

/-!
# Header lists in memory

The functions of `http/http_header_list.c` on linked records: a header list is a record that heads a
list of header records, a lookup goes along the links until a header answers to the name, and a
header that is set without being there gets a record of its own, which is added to the list.

`HoldsHeaders` connects a memory with the list of its headers. Every operation keeps the two
together when the record that it is given for a new header is not in the list
(`holdsHeaders_performEach`), and a lookup finds in the memory what it finds in the list, so that a
header list in memory is the map that the list stands for (`headerListGetValue_of_lastValueSet`).
-/

set_option autoImplicit false
set_option relaxedAutoImplicit false

namespace Mupnp.Http

open Foundation Util

/-- The records of a memory, with the header that each of them has. -/
structure HeaderMemory (ι : Type*) where
  cells : ListCells ι
  header : ι → HttpHeader

variable {ι : Type*} [DecidableEq ι]

namespace HeaderMemory

/-! ### The functions -/

def setHeader (memory : HeaderMemory ι) (record : ι) (header : HttpHeader) : HeaderMemory ι :=
  { memory with header := Function.update memory.header record header }

/-- `mupnp_http_headerlist_new`, for a record that was allocated. -/
def headerListNew (memory : HeaderMemory ι) (headerList : ι) : HeaderMemory ι :=
  { memory.setHeader headerList ⟨none, none⟩ with cells := memory.cells.headerInit headerList }

/-- `mupnp_http_header_new`, for a record that was allocated. -/
def headerNew (memory : HeaderMemory ι) (record : ι) : HeaderMemory ι :=
  { memory.setHeader record ⟨none, none⟩ with cells := memory.cells.nodeInit record }

/-- `mupnp_http_header_setname`. -/
def headerSetName (memory : HeaderMemory ι) (record : ι) (name : Option CString) :
    HeaderMemory ι :=
  let header := memory.header record
  memory.setHeader record { header with name := stringSetValue header.name name }

/-- `mupnp_http_header_setvalue`. -/
def headerSetValue (memory : HeaderMemory ι) (record : ι) (value : Option CString) :
    HeaderMemory ι :=
  memory.setHeader record ((memory.header record).setValue value)

/-- `mupnp_http_headerlist_add`. -/
def headerListAdd (memory : HeaderMemory ι) (headerList record : ι) : HeaderMemory ι :=
  { memory with cells := memory.cells.listAdd headerList record }

/-- The loop of `mupnp_http_headerlist_get`. -/
def headerListGetFrom (memory : HeaderMemory ι) (name : CString) :
    ℕ → Option ι → Option (Option ι)
  | _, none => some none
  | 0, some _ => none
  | fuel + 1, some record =>
    if (memory.header record).hasName name then some (some record)
    else headerListGetFrom memory name fuel (memory.cells.listNext record)

/-- `mupnp_http_headerlist_get`. -/
def headerListGet (memory : HeaderMemory ι) (fuel : ℕ) (headerList : ι) (name : CString) :
    Option (Option ι) :=
  memory.headerListGetFrom name fuel (memory.cells.listNext headerList)

/-- `mupnp_http_headerlist_getvalue`. -/
def headerListGetValue (memory : HeaderMemory ι) (fuel : ℕ) (headerList : ι) (name : CString) :
    Option (Option CString) :=
  (memory.headerListGet fuel headerList name).map fun found ↦
    found.bind fun record ↦ (memory.header record).value

/-- `mupnp_http_headerlist_set`, with the record that a new header gets. -/
def headerListSet (memory : HeaderMemory ι) (fuel : ℕ) (headerList record : ι) (name : CString)
    (value : Option CString) : Option (HeaderMemory ι) :=
  (memory.headerListGet fuel headerList name).map fun found ↦
    match found with
    | some header => memory.headerSetValue header value
    | none =>
      (((memory.headerNew record).headerListAdd headerList record).headerSetName record
        (some name)).headerSetValue record value

/-- An operation on a header list, with the record that a new header gets. A parser makes a header
with its name and its value before it is added. -/
def perform (fuel : ℕ) (headerList : ι) (memory : HeaderMemory ι) (record : ι) :
    HeaderOperation → Option (HeaderMemory ι)
  | .add header =>
    some ((((memory.headerNew record).headerSetName record header.name).headerSetValue record
      header.value).headerListAdd headerList record)
  | .set name value => memory.headerListSet fuel headerList record name (some value)

/-- A sequence of operations. -/
def performAll (fuel : ℕ) (headerList : ι) :
    List (ι × HeaderOperation) → HeaderMemory ι → Option (HeaderMemory ι)
  | [], memory => some memory
  | (record, operation) :: rest, memory =>
    (memory.perform fuel headerList record operation).bind (performAll fuel headerList rest)

/-- A header that was made with a name and a value has both. -/
theorem headerSetValue_headerNew (memory : HeaderMemory ι) (record : ι)
    (name value : Option CString) :
    ((memory.headerNew record).headerSetName record name).headerSetValue record value =
      (memory.headerNew record).setHeader record ⟨name, value⟩ := by
  simp only [headerNew, headerSetName, headerSetValue, setHeader, HttpHeader.setValue,
    Function.update_self, Function.update_idem, stringSetValue_none_left]

end HeaderMemory

/-- A header list in memory: linked records, which have these headers. -/
structure HoldsHeaders (memory : HeaderMemory ι) (headerList : ι) (records : List ι)
    (headers : HttpHeaderList) : Prop where
  isList : IsList memory.cells headerList records
  headers_eq : records.map memory.header = headers

/-! ### Looking a header up -/

section holds

variable {memory : HeaderMemory ι} {headerList record : ι} {records : List ι}
  {headers : HttpHeaderList} {fuel : ℕ}

omit [DecidableEq ι] in
theorem headerListGetFrom_eq {start : Option ι} (h : Walks memory.cells.listNext start records)
    (hfuel : records.length ≤ fuel) (name : CString) :
    memory.headerListGetFrom name fuel start =
      some (records.find? fun record ↦ (memory.header record).hasName name) := by
  induction h generalizing fuel with
  | done => cases fuel <;> rfl
  | @step list rest _ ih =>
    obtain ⟨fuel, rfl⟩ := Nat.exists_eq_succ_of_ne_zero (Nat.ne_zero_of_lt hfuel)
    rw [HeaderMemory.headerListGetFrom]
    by_cases hname : (memory.header list).hasName name = true
    · rw [if_pos hname, List.find?_cons, hname]
    · rw [if_neg hname, List.find?_cons, eq_false_of_ne_true hname,
        ih (Nat.le_of_succ_le_succ hfuel)]

namespace HoldsHeaders

theorem walks (h : HoldsHeaders memory headerList records headers) :
    Walks memory.cells.listNext (memory.cells.listNext headerList) records :=
  walks_of_isChain h.isList.isRing.isChain h.isList.head_flag h.isList.node_flag

/-- A lookup finds the first record whose header answers to the name. -/
theorem headerListGet_eq (h : HoldsHeaders memory headerList records headers)
    (hfuel : records.length ≤ fuel) (name : CString) :
    memory.headerListGet fuel headerList name =
      some (records.find? fun record ↦ (memory.header record).hasName name) :=
  headerListGetFrom_eq h.walks hfuel name

/-- Its header is the one that the lookup in the list finds. -/
theorem map_find? (h : HoldsHeaders memory headerList records headers) (name : CString) :
    (records.find? fun record ↦ (memory.header record).hasName name).map memory.header =
      headerListGet headers name := by
  rw [← h.headers_eq, headerListGet, List.find?_map]
  rfl

theorem headerListGetValue_eq (h : HoldsHeaders memory headerList records headers)
    (hfuel : records.length ≤ fuel) (name : CString) :
    memory.headerListGetValue fuel headerList name = some (headerListGetValue headers name) := by
  rw [HeaderMemory.headerListGetValue, h.headerListGet_eq hfuel, Option.map_some,
    headerListGetValue, ← h.map_find?, Option.bind_map]
  rfl

/-! ### Changing a list -/

/-- Another header in a record that is not in the list. -/
theorem setHeader_of_not_mem (h : HoldsHeaders memory headerList records headers)
    (hnot : record ∉ records) (header : HttpHeader) :
    HoldsHeaders (memory.setHeader record header) headerList records headers where
  isList := h.isList
  headers_eq := by
    rw [← h.headers_eq]
    refine List.map_congr_left fun other hmem ↦ ?_
    exact Function.update_of_ne (ne_of_mem_of_not_mem hmem hnot) _ _

/-- Another header in a record of the list. -/
theorem setHeader_of_append {front back : List ι}
    (h : HoldsHeaders memory headerList (front ++ record :: back) headers) (header : HttpHeader) :
    HoldsHeaders (memory.setHeader record header) headerList (front ++ record :: back)
      (front.map memory.header ++ header :: back.map memory.header) where
  isList := h.isList
  headers_eq := by
    have hnodup : (front ++ record :: back).Nodup :=
      (List.nodup_cons.mp h.isList.isRing.nodup_coe).2
    obtain ⟨hfront, hback⟩ : record ∉ front ∧ record ∉ back :=
      not_or.mp (mt List.mem_append.mpr (List.nodup_middle.mp hnodup).notMem)
    have hothers : ∀ others : List ι, record ∉ others →
        others.map (Function.update memory.header record header) = others.map memory.header :=
      fun others hnot ↦ List.map_congr_left fun other hmem ↦
        Function.update_of_ne (ne_of_mem_of_not_mem hmem hnot) _ _
    rw [HeaderMemory.setHeader, List.map_append, List.map_cons]
    dsimp only
    rw [hothers front hfront, hothers back hback, Function.update_self]

/-- A new record is in no list. -/
theorem headerNew (h : HoldsHeaders memory headerList records headers)
    (hnot : record ∉ headerList :: records) :
    HoldsHeaders (memory.headerNew record) headerList records headers where
  isList := h.isList.nodeInit hnot
  headers_eq :=
    (h.setHeader_of_not_mem (mt (List.mem_cons_of_mem headerList) hnot) ⟨none, none⟩).headers_eq

/-- A node that is not in the list comes behind the others with its header. -/
theorem headerListAdd (h : HoldsHeaders memory headerList records headers)
    (hflag : memory.cells.headFlag record = false) (hnot : record ∉ records) :
    HoldsHeaders (memory.headerListAdd headerList record) headerList (records ++ [record])
      (headers ++ [memory.header record]) where
  isList := h.isList.add hflag hnot
  headers_eq := by
    rw [List.map_append, ← h.headers_eq]
    rfl

/-! ### Operations -/

/-- A new header that is added comes behind the others. -/
theorem headerListAdd_headerNew (h : HoldsHeaders memory headerList records headers)
    (hnot : record ∉ headerList :: records) (header : HttpHeader) :
    HoldsHeaders
      (((memory.headerNew record).setHeader record header).headerListAdd headerList record)
      headerList (records ++ [record]) (headers ++ [header]) := by
  have hrecord : record ∉ records := mt (List.mem_cons_of_mem headerList) hnot
  have hadd := ((h.headerNew hnot).setHeader_of_not_mem hrecord header).headerListAdd
    (listInit_headFlag_self memory.cells record false) hrecord
  have hheader : ((memory.headerNew record).setHeader record header).header record = header :=
    Function.update_self _ _ _
  rwa [hheader] at hadd

/-- Setting the header of a record that a lookup found. -/
theorem headerSetValue_of_find? {found : ι} (h : HoldsHeaders memory headerList records headers)
    {name : CString}
    (hfind : (records.find? fun record ↦ (memory.header record).hasName name) = some found)
    (value : CString) :
    HoldsHeaders (memory.headerSetValue found (some value)) headerList records
      (Http.headerListSet headers name (some value)) := by
  obtain ⟨hname, front, back, rfl, hfront⟩ := List.find?_eq_some_iff_append.mp hfind
  have hkey := HttpHeader.hasName_iff.mp hname
  have hnone : firstEntry HttpHeader.caselessName (front.map memory.header) (caseless name) =
      none := by
    rw [← Http.headerListGet_eq, Http.headerListGet, List.find?_eq_none, List.forall_mem_map]
    intro other hmem
    simpa using hfront other hmem
  have hset : Http.headerListSet headers name (some value) = front.map memory.header ++
      (memory.header found).setValue (some value) :: back.map memory.header := by
    rw [← h.headers_eq, List.map_append, List.map_cons, headerListSet_eq,
      setEntry_append hnone hkey]
  rw [hset]
  exact h.setHeader_of_append _

/-- Setting a header in memory sets it in the list. -/
theorem headerListSet (h : HoldsHeaders memory headerList records headers)
    (hnot : record ∉ headerList :: records) (hfuel : records.length ≤ fuel) (name value : CString) :
    ∃ after records', memory.headerListSet fuel headerList record name (some value) = some after ∧
      records' <+: records ++ [record] ∧ HoldsHeaders after headerList records'
        (Http.headerListSet headers name (some value)) := by
  rw [HeaderMemory.headerListSet, h.headerListGet_eq hfuel, Option.map_some]
  cases hfind : records.find? fun record ↦ (memory.header record).hasName name with
  | some found =>
    exact ⟨_, records, rfl, List.prefix_append records [record],
      h.headerSetValue_of_find? hfind value⟩
  | none =>
    have hnone : firstEntry HttpHeader.caselessName headers (caseless name) = none := by
      rw [← Http.headerListGet_eq, ← h.map_find?, hfind, Option.map_none]
    refine ⟨_, records ++ [record], rfl, List.prefix_refl _, ?_⟩
    rw [headerListSet_eq, setEntry_of_eq_none hnone]
    have hadd := h.headerListAdd_headerNew hnot ⟨some name, some value⟩
    rw [← HeaderMemory.headerSetValue_headerNew] at hadd
    exact hadd

/-- An operation on a header list in memory is one on the list. -/
theorem perform (h : HoldsHeaders memory headerList records headers)
    (hnot : record ∉ headerList :: records) (hfuel : records.length ≤ fuel)
    (operation : HeaderOperation) :
    ∃ after records', memory.perform fuel headerList record operation = some after ∧
      records' <+: records ++ [record] ∧
      HoldsHeaders after headerList records' (operation.perform headers) := by
  cases operation with
  | add header =>
    refine ⟨_, records ++ [record], rfl, List.prefix_refl _, ?_⟩
    rw [HeaderMemory.headerSetValue_headerNew]
    exact h.headerListAdd_headerNew hnot header
  | set name value => exact h.headerListSet hnot hfuel name value

end HoldsHeaders

/-- Assumes: records for new headers that are not in use, and enough fuel to go along the list.
Every sequence of operations in memory has a result, which holds the headers that the operations on
the list give. -/
theorem holdsHeaders_performEach (h : HoldsHeaders memory headerList records headers)
    {operations : List (ι × HeaderOperation)}
    (hnodup : (headerList :: (records ++ operations.map Prod.fst)).Nodup)
    (hfuel : records.length + operations.length ≤ fuel) :
    ∃ after records', memory.performAll fuel headerList operations = some after ∧
      records'.length ≤ fuel ∧ HoldsHeaders after headerList records'
        (HeaderOperation.performEach headers (operations.map Prod.snd)) := by
  induction operations generalizing memory records headers with
  | nil => exact ⟨memory, records, rfl, hfuel, h⟩
  | cons step rest ih =>
    obtain ⟨record, operation⟩ := step
    have hcut : headerList :: (records ++ ((record, operation) :: rest).map Prod.fst) =
        headerList :: records ++ record :: rest.map Prod.fst := rfl
    rw [hcut] at hnodup
    rw [List.length_cons] at hfuel
    have hnot : record ∉ headerList :: records := fun hmem ↦
      (List.nodup_middle.mp hnodup).notMem (List.mem_append_left _ hmem)
    obtain ⟨next, records', hperform, hwithin, hnext⟩ :=
      h.perform hnot (by omega : records.length ≤ fuel) operation
    have hlength : records'.length ≤ records.length + 1 := by
      rw [← List.length_singleton (a := record), ← List.length_append]
      exact hwithin.length_le
    have hrest : (headerList :: (records' ++ rest.map Prod.fst)).Nodup := by
      refine hnodup.sublist ?_
      rw [List.cons_append, List.append_cons]
      exact (hwithin.sublist.append_right _).cons_cons headerList
    obtain ⟨after, last, hrun, hle, hafter⟩ := ih hnext hrest (by omega)
    refine ⟨after, last, ?_, hle, hafter⟩
    rw [HeaderMemory.performAll, hperform]
    exact hrun

/-- A list in memory that was created and worked on is a map: a lookup finds the value that was set
last under the name, whatever the letter case. -/
theorem headerListGetValue_of_lastValueSet (memory : HeaderMemory ι)
    {operations : List (ι × HeaderOperation)}
    (hnodup : (headerList :: operations.map Prod.fst).Nodup) (hfuel : operations.length ≤ fuel) :
    ∃ after, (memory.headerListNew headerList).performAll fuel headerList operations = some after ∧
      ∀ name value, lastValueSet name (operations.map Prod.snd) = some value →
        after.headerListGetValue fuel headerList name = some (some value) := by
  have hnew : HoldsHeaders (memory.headerListNew headerList) headerList [] [] :=
    ⟨isList_headerInit memory.cells headerList, rfl⟩
  have hroom : ([] : List ι).length + operations.length ≤ fuel := by
    rwa [List.length_nil, Nat.zero_add]
  obtain ⟨after, records, hrun, hle, hafter⟩ := holdsHeaders_performEach hnew hnodup hroom
  refine ⟨after, hrun, fun name value hvalue ↦ ?_⟩
  rw [hafter.headerListGetValue_eq hle, headerListGetValue_performEach hvalue]

end holds

end Mupnp.Http
