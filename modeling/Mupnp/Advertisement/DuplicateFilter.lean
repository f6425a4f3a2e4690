import Mathlib.Data.List.Pairwise
import Mupnp.Util.LongString

/-!
# The filter for repeated searches

`filter_duplicate_m_search` and `simple_string_hash` of `device_ssdp_server.c`. A search leaves its
time in the slot of a table that the sum of the bytes of its address, port and target points to, and
a search that finds a recent time in its slot is suppressed. Nothing tells whose time it is.

Of a search the model keeps what the filter reads: the address and the port of the sender, the
search target and the time at which the search is looked at. The strings are lists of bytes, and the
case that there is no memory for their concatenation is left out.

The index never leaves the table (`simpleStringHash_bounds`). When no two searches of different
origin fall into one slot within the filter interval, only repeated searches are suppressed, and
with a clock that does not go back this is the only way (`suppressesRepeatedOnly_iff`).
-/

set_option autoImplicit false
set_option relaxedAutoImplicit false

namespace Mupnp.Advertisement

open Util

/-- A search as the filter sees it. -/
structure FilteredSearch where
  remoteAddress : List UInt8
  remotePort : ℕ
  st : List UInt8
  currTime : ℤ
  deriving DecidableEq

/-- `MUPNP_SSDP_FILTER_TABLE_SIZE`. -/
def ssdpFilterTableSize : ℕ := 101

/-- `MUPNP_DEVICE_M_SEARCH_FILTER_INTERVAL`. -/
def mSearchFilterInterval : ℤ := 15

/-- The filter table of a packet, which is not cleared before its first use. -/
structure FilterTable where
  initialized : Bool
  timestamps : ℕ → ℤ

/-- `simple_string_hash`. -/
def simpleStringHash (str : List UInt8) (tableSize : ℤ) : ℤ :=
  if tableSize ≤ 0 then -1
  else (str.foldl (fun sum c ↦ sum + c.toUInt32) (0 : UInt32)).toNat % tableSize

/-- The bytes of a text of ASCII characters. -/
def asciiBytes (text : CString) : List UInt8 := text.map fun c ↦ c.toNat.toUInt8

namespace FilteredSearch

/-- The concatenation that is hashed. -/
def idString (search : FilteredSearch) : List UInt8 :=
  search.remoteAddress ++ asciiBytes (long2str search.remotePort) ++ search.st

/-- The index into the table. -/
def loc (search : FilteredSearch) : ℤ := simpleStringHash search.idString ssdpFilterTableSize

/-- Two searches come from the same address and port and have the same target. -/
def SameOrigin (search other : FilteredSearch) : Prop :=
  other.remoteAddress = search.remoteAddress ∧ other.remotePort = search.remotePort ∧
    other.st = search.st

instance (search other : FilteredSearch) : Decidable (search.SameOrigin other) :=
  inferInstanceAs (Decidable (_ ∧ _ ∧ _))

theorem SameOrigin.symm {search other : FilteredSearch} (h : search.SameOrigin other) :
    other.SameOrigin search :=
  ⟨h.1.symm, h.2.1.symm, h.2.2.symm⟩

theorem SameOrigin.trans {search other third : FilteredSearch} (h : search.SameOrigin other)
    (h' : other.SameOrigin third) : search.SameOrigin third :=
  ⟨h'.1.trans h.1, h'.2.1.trans h.2.1, h'.2.2.trans h.2.2⟩

/-- Searches of the same origin fall into the same slot. -/
theorem SameOrigin.loc_eq {search other : FilteredSearch} (h : search.SameOrigin other) :
    other.loc = search.loc := by
  obtain ⟨haddress, hport, hst⟩ := h
  unfold loc idString
  rw [haddress, hport, hst]

end FilteredSearch

/-- `filter_duplicate_m_search`. -/
def filterDuplicateMSearch (table : FilterTable) (search : FilteredSearch) : FilterTable × Bool :=
  let timestamps := if table.initialized = false then fun _ ↦ 0 else table.timestamps
  let loc := search.loc
  if loc < 0 ∨ (ssdpFilterTableSize : ℤ) ≤ loc then (⟨true, timestamps⟩, false)
  else
    let updated := Function.update timestamps loc.toNat search.currTime
    if timestamps loc.toNat = 0 then (⟨true, updated⟩, false)
    else if search.currTime - timestamps loc.toNat < mSearchFilterInterval then
      (⟨true, updated⟩, true)
    else (⟨true, updated⟩, false)

/-- The table after some searches. -/
def filterTableAfter (table : FilterTable) (searches : List FilteredSearch) : FilterTable :=
  searches.foldl (fun table search ↦ (filterDuplicateMSearch table search).1) table

/-- In a run that starts with the table, a search is suppressed only if there was an earlier one of
the same origin within the filter interval. -/
def SuppressesRepeatedOnly (table : FilterTable) (searches : List FilteredSearch) : Prop :=
  ∀ before search after, searches = before ++ search :: after →
    (filterDuplicateMSearch (filterTableAfter table before) search).2 = true →
      ∃ earlier ∈ before, search.SameOrigin earlier ∧
        search.currTime - earlier.currTime < mSearchFilterInterval

/-- Two searches of different origin do not fall into one slot within the filter interval. -/
def NoCollision (searches : List FilteredSearch) : Prop :=
  searches.Pairwise fun earlier later ↦ earlier.loc = later.loc →
    later.currTime - earlier.currTime < mSearchFilterInterval → later.SameOrigin earlier

instance (searches : List FilteredSearch) : Decidable (NoCollision searches) :=
  inferInstanceAs (Decidable (List.Pairwise _ searches))

/-- A clock that has started and does not go back. -/
def ClockRuns (searches : List FilteredSearch) : Prop :=
  (∀ search ∈ searches, 0 < search.currTime) ∧
    searches.Pairwise fun earlier later ↦ earlier.currTime ≤ later.currTime

/-! ### The table -/

/-- An index into a table is within it. -/
theorem simpleStringHash_bounds (str : List UInt8) {tableSize : ℤ} (hpos : 0 < tableSize) :
    0 ≤ simpleStringHash str tableSize ∧ simpleStringHash str tableSize < tableSize := by
  unfold simpleStringHash
  rw [if_neg (by omega)]
  exact ⟨Int.emod_nonneg _ (by omega), Int.emod_lt_of_pos _ hpos⟩

theorem loc_bounds (search : FilteredSearch) :
    0 ≤ search.loc ∧ search.loc < (ssdpFilterTableSize : ℤ) :=
  simpleStringHash_bounds _ (by decide)

/-- Two searches fall into the same slot when their indices are the same. -/
theorem toNat_loc_inj {search other : FilteredSearch} :
    search.loc.toNat = other.loc.toNat ↔ search.loc = other.loc := by
  have hsearch := loc_bounds search
  have hother := loc_bounds other
  omega

/-- What a slot holds, before the first use of the table as after it. -/
def FilterTable.slot (table : FilterTable) (loc : ℕ) : ℤ :=
  if table.initialized = false then 0 else table.timestamps loc

theorem filterDuplicateMSearch_fst (table : FilterTable) (search : FilteredSearch) :
    (filterDuplicateMSearch table search).1.slot =
      Function.update table.slot search.loc.toNat search.currTime := by
  have hbounds := loc_bounds search
  have hslot :
      (if table.initialized = false then fun _ ↦ 0 else table.timestamps) = table.slot := by
    funext loc
    unfold FilterTable.slot
    split_ifs <;> rfl
  unfold filterDuplicateMSearch
  dsimp only
  rw [if_neg (by omega), hslot]
  split_ifs <;> rfl

theorem filterDuplicateMSearch_snd (table : FilterTable) (search : FilteredSearch) :
    (filterDuplicateMSearch table search).2 = true ↔ table.slot search.loc.toNat ≠ 0 ∧
      search.currTime - table.slot search.loc.toNat < mSearchFilterInterval := by
  have hbounds := loc_bounds search
  have hslot : (if table.initialized = false then fun _ ↦ 0 else table.timestamps)
      search.loc.toNat = table.slot search.loc.toNat := by
    unfold FilterTable.slot
    split_ifs <;> rfl
  unfold filterDuplicateMSearch
  dsimp only
  rw [if_neg (by omega), hslot]
  by_cases hzero : table.slot search.loc.toNat = 0
  · rw [if_pos hzero]
    exact iff_of_false (by simp) fun h ↦ h.1 hzero
  · rw [if_neg hzero]
    by_cases hrecent : search.currTime - table.slot search.loc.toNat < mSearchFilterInterval
    · rw [if_pos hrecent]
      exact iff_of_true rfl ⟨hzero, hrecent⟩
    · rw [if_neg hrecent]
      exact iff_of_false (by simp) fun h ↦ hrecent h.2

/-! ### What a slot says -/

/-- The time of the last search that fell into a slot, or zero. -/
def lastUse (searches : List FilteredSearch) (loc : ℕ) : ℤ :=
  searches.foldl (fun time search ↦
    if search.loc.toNat = loc then search.currTime else time) 0

theorem lastUse_append_singleton (searches : List FilteredSearch) (search : FilteredSearch)
    (loc : ℕ) : lastUse (searches ++ [search]) loc =
      if search.loc.toNat = loc then search.currTime else lastUse searches loc := by
  unfold lastUse
  rw [List.foldl_append, List.foldl_cons, List.foldl_nil]

/-- A slot holds the time of the last search that fell into it. -/
theorem slot_filterTableAfter {table : FilterTable} (hinit : table.initialized = false)
    (searches : List FilteredSearch) (loc : ℕ) :
    (filterTableAfter table searches).slot loc = lastUse searches loc := by
  induction searches using List.reverseRecOn with
  | nil =>
    change table.slot loc = 0
    unfold FilterTable.slot
    rw [if_pos hinit]
  | append_singleton searches search ih =>
    have hstep : filterTableAfter table (searches ++ [search]) =
        (filterDuplicateMSearch (filterTableAfter table searches) search).1 := by
      unfold filterTableAfter
      rw [List.foldl_append, List.foldl_cons, List.foldl_nil]
    rw [hstep, filterDuplicateMSearch_fst, lastUse_append_singleton]
    by_cases hloc : search.loc.toNat = loc
    · rw [if_pos hloc, ← hloc, Function.update_self]
    · rw [if_neg hloc, Function.update_of_ne (Ne.symm hloc), ih]

/-- A time in a slot is the time of a search. -/
theorem exists_of_lastUse_ne_zero {searches : List FilteredSearch} {loc : ℕ}
    (h : lastUse searches loc ≠ 0) :
    ∃ search ∈ searches, search.loc.toNat = loc ∧ search.currTime = lastUse searches loc := by
  induction searches using List.reverseRecOn with
  | nil => exact absurd rfl h
  | append_singleton searches search ih =>
    rw [lastUse_append_singleton] at h ⊢
    by_cases hloc : search.loc.toNat = loc
    · rw [if_pos hloc]
      exact ⟨search, by simp, hloc, rfl⟩
    · rw [if_neg hloc] at h ⊢
      obtain ⟨other, hother, hfound⟩ := ih h
      exact ⟨other, List.mem_append_left _ hother, hfound⟩

/-- With a clock that runs, the time in a slot is the latest. -/
theorem le_lastUse {searches : List FilteredSearch} (hclock : ClockRuns searches)
    {search : FilteredSearch} (hsearch : search ∈ searches) :
    search.currTime ≤ lastUse searches search.loc.toNat := by
  induction searches using List.reverseRecOn with
  | nil => exact absurd hsearch List.not_mem_nil
  | append_singleton searches last ih =>
    obtain ⟨hpos, hpairs⟩ := hclock
    obtain ⟨hfront, -, hlast⟩ := List.pairwise_append.mp hpairs
    rw [lastUse_append_singleton]
    rcases List.mem_append.mp hsearch with hmem | hmem
    · split_ifs with hloc
      · exact hlast search hmem last List.mem_cons_self
      · exact ih ⟨fun other hother ↦ hpos other (List.mem_append_left _ hother), hfront⟩ hmem
    · obtain rfl := List.mem_singleton.mp hmem
      exact Int.le_of_eq (if_pos rfl).symm

/-! ### Runs -/

/-- Two searches in one slot, neither of which comes long after the other, have the same origin. -/
def AgreesInSlot (first second : FilteredSearch) : Prop :=
  first.loc = second.loc → second.currTime - first.currTime < mSearchFilterInterval →
    first.currTime - second.currTime < mSearchFilterInterval → second.SameOrigin first

instance : Std.Symm AgreesInSlot :=
  ⟨fun _ _ hpair hslot hforth hback ↦ (hpair hslot.symm hback hforth).symm⟩

variable {table : FilterTable} (hinit : table.initialized = false)
include hinit

/-- When a search is suppressed, there was an earlier one in its slot. -/
theorem suppressed_iff (before : List FilteredSearch) (search : FilteredSearch) :
    (filterDuplicateMSearch (filterTableAfter table before) search).2 = true ↔
      lastUse before search.loc.toNat ≠ 0 ∧
        search.currTime - lastUse before search.loc.toNat < mSearchFilterInterval := by
  rw [filterDuplicateMSearch_snd, slot_filterTableAfter hinit]

theorem suppressesRepeatedOnly_of_noCollision {searches : List FilteredSearch}
    (h : NoCollision searches) : SuppressesRepeatedOnly table searches := by
  rintro before search after rfl hsuppressed
  obtain ⟨hused, hrecent⟩ := (suppressed_iff hinit before search).mp hsuppressed
  obtain ⟨earlier, hearlier, hloc, htime⟩ := exists_of_lastUse_ne_zero hused
  rw [← htime] at hrecent
  have hpair := (List.pairwise_append.mp h).2.2 earlier hearlier search List.mem_cons_self
  exact ⟨earlier, hearlier, hpair (toNat_loc_inj.mp hloc) hrecent, hrecent⟩

/-- The first collision of a run suppresses a search that was not made before. -/
theorem noCollision_of_suppressesRepeatedOnly {searches : List FilteredSearch}
    (hclock : ClockRuns searches) (h : SuppressesRepeatedOnly table searches) :
    NoCollision searches := by
  induction searches using List.reverseRecOn with
  | nil => exact List.Pairwise.nil
  | append_singleton searches search ih =>
    obtain ⟨hpos, hpairs⟩ := hclock
    obtain ⟨hfront, -, hlast⟩ := List.pairwise_append.mp hpairs
    have hbefore : ClockRuns searches :=
      ⟨fun other hother ↦ hpos other (List.mem_append_left _ hother), hfront⟩
    have hrest : NoCollision searches := by
      refine ih hbefore fun before other after heq ↦ h before other (after ++ [search]) ?_
      rw [heq, List.append_assoc, List.cons_append]
    refine List.pairwise_append.mpr ⟨hrest, List.pairwise_singleton _ _, ?_⟩
    intro earlier hearlier later hlater hloc hrecent
    obtain rfl := List.mem_singleton.mp hlater
    have hle := le_lastUse hbefore hearlier
    rw [hloc] at hle
    have hearlierPos := hpos earlier (List.mem_append_left _ hearlier)
    obtain ⟨other, hother, horigin, hotherRecent⟩ :=
      h searches later [] rfl ((suppressed_iff hinit searches later).mpr ⟨by omega, by omega⟩)
    have hearlierLast := hlast earlier hearlier later List.mem_cons_self
    have hotherLast := hlast other hother later List.mem_cons_self
    by_cases heq : earlier = other
    · exact heq ▸ horigin
    · have hpairs : searches.Pairwise AgreesInSlot := hrest.imp fun hpair hslot hforth _ ↦
        hpair hslot hforth
      exact horigin.trans (hpairs.forall hearlier hother heq (hloc.trans horigin.loc_eq.symm)
        (by omega) (by omega))

omit hinit

/-- The index into the table is within it for every search. A search is suppressed only as a
repeated one when no two searches of different origin fall into one slot within the filter
interval, and with a clock that runs only then. -/
theorem suppressesRepeatedOnly_iff (hinit : table.initialized = false)
    (searches : List FilteredSearch) :
    (∀ search : FilteredSearch, 0 ≤ search.loc ∧ search.loc < (ssdpFilterTableSize : ℤ)) ∧
      (NoCollision searches → SuppressesRepeatedOnly table searches) ∧
      (ClockRuns searches → (SuppressesRepeatedOnly table searches ↔ NoCollision searches)) :=
  ⟨loc_bounds, suppressesRepeatedOnly_of_noCollision hinit, fun hclock ↦
    ⟨noCollision_of_suppressesRepeatedOnly hinit hclock,
      suppressesRepeatedOnly_of_noCollision hinit⟩⟩

/-- A search for the root device. -/
def rootSearch (remoteAddress : String) (currTime : ℤ) : FilteredSearch :=
  ⟨asciiBytes remoteAddress.toList, 1900, asciiBytes "upnp:rootdevice".toList, currTime⟩

theorem suppressesRepeatedOnly_iff_twice :
    SuppressesRepeatedOnly ⟨false, fun _ ↦ 0⟩
      [rootSearch "10.0.0.12" 100, rootSearch "10.0.0.12" 101] :=
  (@suppressesRepeatedOnly_iff ⟨false, fun _ ↦ 0⟩ rfl _).2.1 (by decide +kernel)

/-- The addresses have the same digits. -/
theorem not_suppressesRepeatedOnly :
    ¬ ∀ (table : FilterTable) (searches : List FilteredSearch), table.initialized = false →
      SuppressesRepeatedOnly table searches := by
  intro h
  have hsuppressed : (filterDuplicateMSearch (filterTableAfter ⟨false, fun _ ↦ 0⟩
      [rootSearch "10.0.0.12" 100]) (rootSearch "10.0.0.21" 101)).2 = true := by decide +kernel
  obtain ⟨earlier, hearlier, horigin, -⟩ := h ⟨false, fun _ ↦ 0⟩
    [rootSearch "10.0.0.12" 100, rootSearch "10.0.0.21" 101] rfl [rootSearch "10.0.0.12" 100]
    (rootSearch "10.0.0.21" 101) [] rfl hsuppressed
  obtain rfl := List.mem_singleton.mp hearlier
  exact absurd horigin (by decide +kernel)

end Mupnp.Advertisement
