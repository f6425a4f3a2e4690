import Mupnp.Foundation.CellArray
import Mupnp.Foundation.LoopIndex
import Mupnp.Util.StringFunction

/-!
# String objects in memory

`mUpnpString` of `util/string.c` cell by cell, when every allocation may fail. A string object has a
buffer or none, the size that it has recorded for the buffer, and the length of what is stored. The
cells of new memory hold anything. Lengths and sizes are natural numbers, and what an operation is
given does not lie in the buffer of the string object.

`IsSound` is the invariant of a string object. Setting keeps it (`exists_setNValue`), and so does
appending, which adds exactly what it is given or changes nothing (`exists_naddValue`); for a
repeated append `appends_naddRepValue_iff` says when. With enough memory both are what they are for
strings without a buffer (`text_setValue`, `text_addValue`).
-/

set_option autoImplicit false
set_option relaxedAutoImplicit false

namespace Mupnp.Util

open Foundation CellArray

/-! ### Memory -/

/-- Why an operation has no result: it accesses a cell outside a buffer, an `int` leaves its range,
or it does not return. -/
inductive Fault
  | outside
  | overflow
  | endless
  deriving DecidableEq, Repr

/-- The result of an access. -/
def access {α : Type} : Option α → Except Fault α
  | some a => .ok a
  | none => .error .outside

theorem access_bind {α β : Type} {result : Option α} {a : α} (h : result = some a)
    (next : α → Except Fault β) : (access result >>= next) = next a := by
  rw [h]
  rfl

/-- What each allocation gives, counted from the first one on: nothing, or memory with a content. -/
abbrev Allocator := ℕ → Option (ℕ → Char)

/-- `mUpnpString`. -/
structure StringBuffer where
  value : Option (List Char)
  memSize : ℕ
  valueSize : ℕ
  deriving DecidableEq, Repr

/-- A string object, and the number of allocations that were asked for so far. -/
structure StringMemory where
  str : StringBuffer
  asked : ℕ
  deriving DecidableEq, Repr

/-- `malloc`. -/
def malloc (allocs : Allocator) (asked size : ℕ) : Option (List Char) :=
  (allocs asked).map fun content ↦ (List.range size).map content

/-- `realloc`. -/
def realloc (allocs : Allocator) (asked : ℕ) (old : Option (List Char)) (size : ℕ) :
    Option (List Char) :=
  (malloc allocs asked size).map fun cells ↦
    (old.getD []).take size ++ cells.drop (old.getD []).length

/-! ### Operations -/

/-- `mupnp_string_new`. -/
def stringNew : StringBuffer := ⟨none, 0, 0⟩

namespace StringBuffer

/-- `mupnp_string_clear`. -/
def clear (str : StringBuffer) : StringBuffer :=
  match str.value with
  | some _ => ⟨none, 0, 0⟩
  | none => str

/-- `mupnp_string_length`. -/
def length (str : StringBuffer) : ℕ :=
  match str.value with
  | some _ => str.valueSize
  | none => 0

/-- The bytes that are stored. -/
def bytes (str : StringBuffer) : List Char := (str.value.getD []).take str.length

/-- The string that is stored, if there is a buffer. -/
def text (str : StringBuffer) : Option CString := str.value.map fun _ ↦ str.bytes

end StringBuffer

/-- A buffer that holds a terminator at a length. -/
structure TerminatedBuffer where
  cells : List Char
  len : ℕ
  terminated : load cells len = some '\x00'

/-- `MUPNP_STRING_REALLOC_EXTRA`. -/
def stringReallocExtra : ℕ := 16

/-- An append of so many bytes allocates memory. -/
def needsMemory (hasBuffer : Bool) (memSize valueSize valueLen : ℕ) : Bool :=
  decide (memSize < valueSize + valueLen + 1) || !hasBuffer

/-- The copy at the end of `mupnp_string_naddvalue`. -/
def StringBuffer.copyBehind (str : StringBuffer) (value : List Char) :
    Except Fault StringBuffer := do
  let cells ← access str.value
  let copied ← access (storeAll cells str.valueSize value)
  let stored ← access (store copied (str.valueSize + value.length) '\x00')
  return ⟨some stored, str.memSize, str.valueSize + value.length⟩

namespace StringMemory

variable (allocs : Allocator)

/-- `mupnp_string_setnvalue`, given the bytes that it copies. -/
def setNValue (s : StringMemory) : Option (List Char) → Except Fault StringMemory
  | none => .ok { s with str := s.str.clear }
  | some value =>
    match malloc allocs s.asked (value.length + 1) with
    | none => .ok ⟨⟨none, 0, 0⟩, s.asked + 1⟩
    | some cells => do
      let copied ← access (storeAll cells 0 value)
      let stored ← access (store copied value.length '\x00')
      return ⟨⟨some stored, value.length + 1, value.length⟩, s.asked + 1⟩

/-- `mupnp_string_setvalue`. -/
def setValue (s : StringMemory) (value : Option (List Char)) : Except Fault StringMemory :=
  match value with
  | none => .ok s
  | some value => setNValue allocs s (some value)

/-- `mupnp_string_setpointervalue`. -/
def setPointerValue (s : StringMemory) (buffer : TerminatedBuffer) : StringMemory :=
  { s with str := ⟨some buffer.cells, buffer.len + 1, buffer.len⟩ }

/-- `mupnp_string_naddvalue`, given the bytes that it adds: whether the pointer that it returns is
not `NULL`, and the string object. -/
def naddValue (s : StringMemory) (value : Option (List Char)) :
    Except Fault (Bool × StringMemory) :=
  match value with
  | none => .ok (s.str.value.isSome, s)
  | some value =>
    if value.length = 0 then .ok (s.str.value.isSome, s)
    else if needsMemory s.str.value.isSome s.str.memSize s.str.valueSize value.length = true then
      let newMemSize := s.str.valueSize + value.length + 1 + stringReallocExtra
      match realloc allocs s.asked s.str.value newMemSize with
      | none => .ok (false, { s with asked := s.asked + 1 })
      | some newValue => do
        let str ← (⟨some newValue, newMemSize, s.str.valueSize⟩ : StringBuffer).copyBehind value
        return (true, ⟨str, s.asked + 1⟩)
    else do
      let str ← s.str.copyBehind value
      return (true, ⟨str, s.asked⟩)

/-- `mupnp_string_addvalue`, given the bytes in front of the terminator. -/
def addValue (s : StringMemory) (value : Option CString) : Except Fault (Bool × StringMemory) :=
  naddValue allocs s value

/-- The loop of `mupnp_string_addrepvalue` and `mupnp_string_naddrepvalue`, with the number of turns
that are left and the loop index. -/
def addRep (value : Option (List Char)) : ℕ → ℤ → StringMemory → Except Fault (Bool × StringMemory)
  | 0, _, s => .ok (s.str.value.isSome, s)
  | left + 1, n, s => do
    let added ← naddValue allocs s value
    match IndexType.int.incr n with
    | none => .error .overflow
    | some next => addRep value left next added.2

/-- `mupnp_string_addrepvalue`. -/
def addRepValue (s : StringMemory) (value : Option CString) (repeatCnt : ℕ) :
    Except Fault (Bool × StringMemory) :=
  addRep allocs value repeatCnt 0 s

/-- `mupnp_string_naddrepvalue`. -/
def naddRepValue (s : StringMemory) (value : Option (List Char)) (repeatCnt : ℕ) :
    Except Fault (Bool × StringMemory) :=
  addRep allocs value repeatCnt 0 s

end StringMemory

/-! ### The invariant -/

/-- The length is less than the recorded size of a buffer, which has no fewer cells and a terminator
at the length; without a buffer the length is zero. -/
structure IsSound (str : StringBuffer) : Prop where
  size : ∀ cells ∈ str.value, str.valueSize < str.memSize ∧ str.memSize ≤ cells.length
  terminated : ∀ cells ∈ str.value, load cells str.valueSize = some '\x00'
  empty : str.value = none → str.valueSize = 0

/-- The bytes are those of the string, if there is one. -/
theorem StringBuffer.getD_text (str : StringBuffer) : str.text.getD [] = str.bytes := by
  rw [text, bytes]
  cases str.value with
  | none => exact List.take_nil.symm
  | some cells => rfl

namespace IsSound

variable {str : StringBuffer}

/-- A sound string object without a buffer stores nothing. -/
theorem bytes_of_none (h : str.value = none) : str.bytes = [] := by
  rw [StringBuffer.bytes, h, Option.getD_none, List.take_nil]

/-- A sound string object with a buffer stores its bytes in front of a terminator. -/
theorem exists_cells (hstr : IsSound str) {cells : List Char} (h : str.value = some cells) :
    ∃ spare, cells = str.bytes ++ '\x00' :: spare ∧ str.bytes.length = str.valueSize := by
  obtain ⟨hlt, hle⟩ := hstr.size cells h
  have hterm := hstr.terminated cells h
  have hbytes : str.bytes = cells.take str.valueSize := by
    rw [StringBuffer.bytes, StringBuffer.length, h]
    rfl
  have hlength : str.valueSize < cells.length := hlt.trans_le hle
  have hdrop : cells.drop str.valueSize = '\x00' :: cells.drop (str.valueSize + 1) := by
    obtain ⟨hget, hcell⟩ := List.getElem?_eq_some_iff.mp hterm
    rw [List.drop_eq_getElem_cons hlength, hcell]
  refine ⟨cells.drop (str.valueSize + 1), ?_, ?_⟩
  · rw [hbytes, ← hdrop, List.take_append_drop]
  · rw [hbytes, List.length_take_of_le hlength.le]

/-- What a sound string object stores stands in front of its buffer. -/
theorem exists_getD (hstr : IsSound str) :
    ∃ behind, str.value.getD [] = str.bytes ++ behind ∧ str.bytes.length = str.valueSize := by
  cases h : str.value with
  | none =>
    refine ⟨[], ?_, ?_⟩
    · rw [bytes_of_none h]
      rfl
    · rw [bytes_of_none h, hstr.empty h]
      rfl
  | some cells =>
    obtain ⟨spare, rfl, hlength⟩ := hstr.exists_cells h
    exact ⟨_, rfl, hlength⟩

/-- A buffer that holds bytes in front of a terminator. -/
theorem of_cells {bytes spare : List Char} {memSize : ℕ} (hlt : bytes.length < memSize)
    (hle : memSize ≤ (bytes ++ '\x00' :: spare).length) :
    IsSound ⟨some (bytes ++ '\x00' :: spare), memSize, bytes.length⟩ ∧
      (⟨some (bytes ++ '\x00' :: spare), memSize, bytes.length⟩ : StringBuffer).bytes = bytes := by
  refine ⟨⟨fun cells h ↦ ?_, fun cells h ↦ ?_, fun h ↦ by cases h⟩, List.take_left⟩
  · obtain rfl := Option.some.inj h
    exact ⟨hlt, hle⟩
  · obtain rfl := Option.some.inj h
    exact load_append rfl

theorem stringNew : IsSound stringNew :=
  ⟨fun _ h ↦ (by cases h), fun _ h ↦ (by cases h), fun _ ↦ rfl⟩

theorem value_clear (str : StringBuffer) : str.clear.value = none := by
  unfold StringBuffer.clear
  cases hvalue : str.value with
  | none => exact hvalue
  | some cells => rfl

theorem clear (h : IsSound str) : IsSound str.clear := by
  unfold StringBuffer.clear
  cases hvalue : str.value with
  | none => exact h
  | some cells => exact stringNew

end IsSound

section memory

variable {allocs : Allocator} {s : StringMemory} {asked size : ℕ} {cells value : List Char}

theorem length_malloc (h : malloc allocs asked size = some cells) : cells.length = size := by
  obtain ⟨content, -, rfl⟩ := Option.map_eq_some_iff.mp h
  rw [List.length_map, List.length_range]

/-- What stands in front stays there as far as there is room for it. -/
theorem exists_realloc {old : Option (List Char)} {front behind : List Char}
    (hold : old.getD [] = front ++ behind) (hle : front.length ≤ size)
    (h : realloc allocs asked old size = some cells) :
    ∃ rest, cells = front ++ rest ∧ front.length + rest.length = size := by
  obtain ⟨grown, hgrown, rfl⟩ := Option.map_eq_some_iff.mp h
  have hlength := length_malloc hgrown
  refine ⟨behind.take (size - front.length) ++ grown.drop (front ++ behind).length, ?_, ?_⟩
  · rw [hold, List.take_append, List.take_of_length_le hle, List.append_assoc]
  · simp only [List.length_append, List.length_take, List.length_drop, hlength]
    omega

/-- A copy behind bytes, with room for its terminator. -/
theorem exists_copyBehind {rest : List Char} (memSize : ℕ) (bytes : List Char)
    (hroom : value.length < rest.length) :
    ∃ spare, (⟨some (bytes ++ rest), memSize, bytes.length⟩ : StringBuffer).copyBehind value =
        .ok ⟨some (bytes ++ value ++ '\x00' :: spare), memSize, (bytes ++ value).length⟩ ∧
      (bytes ++ value ++ '\x00' :: spare).length = (bytes ++ rest).length := by
  obtain ⟨middle, behind, rfl, hmiddle⟩ : ∃ middle behind, rest = middle ++ behind ∧
      middle.length = value.length :=
    ⟨rest.take value.length, rest.drop value.length, (List.take_append_drop _ _).symm,
      List.length_take_of_le hroom.le⟩
  obtain ⟨old, spare, rfl⟩ : ∃ old spare, behind = old :: spare :=
    List.exists_cons_of_length_pos (by rw [List.length_append] at hroom; omega)
  have hcopied : storeAll (bytes ++ (middle ++ old :: spare)) bytes.length value =
      some (bytes ++ (value ++ old :: spare)) := storeAll_append rfl hmiddle
  have hstored : store (bytes ++ (value ++ old :: spare)) (bytes.length + value.length) '\x00' =
      some (bytes ++ value ++ '\x00' :: spare) := by
    rw [← List.append_assoc]
    exact store_append List.length_append.symm
  refine ⟨spare, ?_, ?_⟩
  · rw [StringBuffer.copyBehind, access_bind rfl, access_bind hcopied, access_bind hstored,
      List.length_append]
    rfl
  · simp only [List.length_append, List.length_cons, hmiddle]
    omega

end memory

/-! ### Setting -/

namespace StringMemory

variable {allocs : Allocator} {s : StringMemory} {value : List Char}

/-- Setting a value keeps the invariant, and stores the value when there is memory; an allocation
that fails leaves the string object without a buffer. -/
theorem exists_setNValue (h : IsSound s.str) (value : Option (List Char)) :
    ∃ later, s.setNValue allocs value = .ok later ∧ IsSound later.str ∧
      (value = none ∨ allocs s.asked ≠ none → later.str.text = value) := by
  cases value with
  | none =>
    refine ⟨_, rfl, h.clear, fun _ ↦ ?_⟩
    rw [StringBuffer.text, IsSound.value_clear]
    rfl
  | some value =>
    rw [setNValue]
    cases hcells : malloc allocs s.asked (value.length + 1) with
    | none =>
      refine ⟨_, rfl, .stringNew, fun hvalue ↦ absurd (Option.map_eq_none_iff.mp hcells) ?_⟩
      exact hvalue.resolve_left (Option.some_ne_none value)
    | some cells =>
      have hlength := length_malloc hcells
      obtain ⟨middle, old, rfl⟩ : ∃ middle old, cells = middle ++ [old] := by
        obtain ⟨middle, old, hconcat⟩ := (List.eq_nil_or_concat cells).resolve_left
          (List.ne_nil_of_length_pos (by omega))
        exact ⟨middle, old, by rw [hconcat, List.concat_eq_append]⟩
      rw [List.length_append, List.length_singleton, Nat.add_right_cancel_iff] at hlength
      have hcopied : storeAll (middle ++ [old]) 0 value = some (value ++ [old]) :=
        @storeAll_append _ [] middle [old] value 0 rfl hlength
      have hstored : store (value ++ [old]) value.length '\x00' = some (value ++ ['\x00']) :=
        store_append rfl
      have hsize : value.length + 1 ≤ (value ++ ['\x00']).length := by
        rw [List.length_append]
        exact Nat.le_refl _
      have hsound := IsSound.of_cells (Nat.lt_succ_self value.length) hsize
      refine ⟨⟨⟨some (value ++ ['\x00']), value.length + 1, value.length⟩, s.asked + 1⟩, ?_,
        hsound.1, fun _ ↦ congrArg some hsound.2⟩
      simp only [access_bind hcopied, access_bind hstored]
      rfl

/-- A buffer that is handed over with its terminator is recorded with no more than it has. -/
theorem isSound_setPointerValue (s : StringMemory) (buffer : TerminatedBuffer) :
    IsSound (s.setPointerValue buffer).str := by
  have hlt : buffer.len < buffer.cells.length := by
    obtain ⟨hlt, -⟩ := List.getElem?_eq_some_iff.mp buffer.terminated
    exact hlt
  refine ⟨fun cells hcells ↦ ?_, fun cells hcells ↦ ?_, fun hnone ↦ by cases hnone⟩
  · obtain rfl := Option.some.inj hcells
    exact ⟨Nat.lt_succ_self _, hlt⟩
  · obtain rfl := Option.some.inj hcells
    exact buffer.terminated

/-! ### Appending -/

/-- An append of so many bytes asks for memory, and gets none. -/
def Fails (allocs : Allocator) (s : StringMemory) (valueLen : ℕ) : Prop :=
  needsMemory s.str.value.isSome s.str.memSize s.str.valueSize valueLen = true ∧
    allocs s.asked = none

/-- The recorded size after an append of so many bytes. -/
def grownSize (hasBuffer : Bool) (memSize valueSize valueLen : ℕ) : ℕ :=
  if needsMemory hasBuffer memSize valueSize valueLen = true then
    valueSize + valueLen + 1 + stringReallocExtra
  else memSize

theorem naddValue_of_fails (hne : value ≠ []) (h : Fails allocs s value.length) :
    s.naddValue allocs (some value) = .ok (false, { s with asked := s.asked + 1 }) := by
  have hlength : value.length ≠ 0 := fun hzero ↦ hne (List.eq_nil_of_length_eq_zero hzero)
  have hnone (size : ℕ) : realloc allocs s.asked s.str.value size = none := by
    rw [realloc, malloc, h.2]
    rfl
  rw [naddValue, if_neg hlength, if_pos h.1]
  simp only [hnone]

/-- An append that gets the memory that it asks for adds the bytes. -/
theorem exists_naddValue_of_not_fails (hstr : IsSound s.str) (hne : value ≠ [])
    (h : ¬ Fails allocs s value.length) :
    ∃ later, s.naddValue allocs (some value) = .ok (true, later) ∧ IsSound later.str ∧
      later.str.bytes = s.str.bytes ++ value ∧ later.str.value.isSome = true ∧
      later.str.memSize =
        grownSize s.str.value.isSome s.str.memSize s.str.valueSize value.length ∧
      later.str.valueSize = s.str.valueSize + value.length ∧
      later.asked = s.asked +
        (needsMemory s.str.value.isSome s.str.memSize s.str.valueSize value.length).toNat := by
  have hlength : value.length ≠ 0 := fun hzero ↦ hne (List.eq_nil_of_length_eq_zero hzero)
  rw [naddValue, if_neg hlength, grownSize]
  by_cases hneeds :
      needsMemory s.str.value.isSome s.str.memSize s.str.valueSize value.length = true
  · obtain ⟨content, hcontent⟩ := Option.ne_none_iff_exists'.mp fun hnone ↦ h ⟨hneeds, hnone⟩
    obtain ⟨newValue, hnew⟩ : ∃ newValue, realloc allocs s.asked s.str.value
        (s.str.valueSize + value.length + 1 + stringReallocExtra) = some newValue := by
      rw [realloc, malloc, hcontent]
      exact ⟨_, rfl⟩
    obtain ⟨behind, hold, hbytes⟩ := hstr.exists_getD
    obtain ⟨rest, rfl, hrest⟩ := exists_realloc hold (by omega) hnew
    have hroom : value.length < rest.length := by omega
    obtain ⟨spare, hcopy, hsize⟩ := exists_copyBehind
      (s.str.valueSize + value.length + 1 + stringReallocExtra) s.str.bytes hroom
    rw [hbytes] at hcopy
    have hlt : (s.str.bytes ++ value).length <
        s.str.valueSize + value.length + 1 + stringReallocExtra := by
      rw [List.length_append]
      omega
    have hle : s.str.valueSize + value.length + 1 + stringReallocExtra ≤
        (s.str.bytes ++ value ++ '\x00' :: spare).length := by
      rw [hsize, List.length_append]
      omega
    have hsound := IsSound.of_cells hlt hle
    refine ⟨⟨_, s.asked + 1⟩, ?_, hsound.1, hsound.2, rfl, (if_pos hneeds).symm, ?_, ?_⟩
    · rw [if_pos hneeds]
      simp only [hnew, hcopy]
      rfl
    · rw [List.length_append, hbytes]
    · rw [hneeds]
      rfl
  · have hfits := hneeds
    rw [needsMemory, Bool.or_eq_true, not_or, decide_eq_true_iff, not_lt, Bool.not_eq_true',
      Bool.not_eq_false] at hfits
    obtain ⟨hfits, hbuffer⟩ := hfits
    obtain ⟨cells, hcells⟩ := Option.isSome_iff_exists.mp hbuffer
    obtain ⟨-, hle⟩ := hstr.size cells hcells
    obtain ⟨old, rfl, hbytes⟩ := hstr.exists_cells hcells
    have hroom : value.length < ('\x00' :: old).length := by
      rw [List.length_append] at hle
      omega
    obtain ⟨spare, hcopy, hsize⟩ := exists_copyBehind s.str.memSize s.str.bytes hroom
    have hlt : (s.str.bytes ++ value).length < s.str.memSize := by
      rw [List.length_append]
      omega
    have hsound := IsSound.of_cells hlt (hle.trans_eq hsize.symm)
    have hcopied : s.str.copyBehind value = .ok ⟨some (s.str.bytes ++ value ++ '\x00' :: spare),
        s.str.memSize, (s.str.bytes ++ value).length⟩ := by
      refine Eq.trans (congrArg (StringBuffer.copyBehind · value) ?_) hcopy
      rw [hbytes, ← hcells]
    refine ⟨⟨_, s.asked⟩, ?_, hsound.1, hsound.2, rfl, (if_neg hneeds).symm, ?_, ?_⟩
    · rw [if_neg hneeds, hcopied]
      rfl
    · rw [List.length_append, hbytes]
    · rw [Bool.not_eq_true] at hneeds
      rw [hneeds]
      rfl

/-- What is not empty is not `NULL`. -/
theorem exists_eq_some {value : Option (List Char)} (h : value.getD [] ≠ []) :
    ∃ bytes, value = some bytes := by
  cases value with
  | none => exact absurd rfl h
  | some bytes => exact ⟨bytes, rfl⟩

/-- Appending nothing changes nothing. -/
theorem naddValue_nil (value : Option (List Char)) (hvalue : value.getD [] = []) :
    s.naddValue allocs value = .ok (s.str.value.isSome, s) := by
  cases value with
  | none => rfl
  | some value =>
    obtain rfl : value = [] := hvalue
    rfl

/-- An append adds the bytes, or returns `NULL` and changes nothing. -/
theorem exists_naddValue (hstr : IsSound s.str) (value : Option (List Char)) :
    ∃ returned later, s.naddValue allocs value = .ok (returned, later) ∧ IsSound later.str ∧
      (returned = true → later.str.bytes = s.str.bytes ++ value.getD []) ∧
      (returned = false → later.str.bytes = s.str.bytes) := by
  by_cases hnil : value.getD [] = []
  · rw [hnil, List.append_nil]
    exact ⟨_, s, naddValue_nil value hnil, hstr, fun _ ↦ rfl, fun _ ↦ rfl⟩
  · obtain ⟨bytes, rfl⟩ := exists_eq_some hnil
    by_cases hfails : Fails allocs s bytes.length
    · exact ⟨_, _, naddValue_of_fails hnil hfails, hstr, fun hnot ↦ absurd hnot (by decide),
        fun _ ↦ rfl⟩
    · obtain ⟨later, hadd, hsound, hbytes, -⟩ := exists_naddValue_of_not_fails hstr hnil hfails
      exact ⟨_, later, hadd, hsound, fun _ ↦ hbytes, fun hnot ↦ absurd hnot (by decide)⟩

/-- With enough memory the string is set as `stringSetValue` says. -/
theorem text_setValue (h : IsSound s.str) (value : Option CString) (hmem : allocs s.asked ≠ none) :
    ∃ later, s.setValue allocs value = .ok later ∧
      later.str.text = stringSetValue s.str.text value := by
  cases value with
  | none => exact ⟨s, rfl, rfl⟩
  | some value =>
    obtain ⟨later, hset, -, htext⟩ := @exists_setNValue allocs s h (some value)
    exact ⟨later, hset, htext (Or.inr hmem)⟩

/-- With enough memory the string is added to as `stringAddValue` says. -/
theorem text_addValue (h : IsSound s.str) (value : Option CString) (hmem : allocs s.asked ≠ none) :
    ∃ returned later, s.addValue allocs value = .ok (returned, later) ∧
      later.str.text = stringAddValue s.str.text value := by
  by_cases hnil : value.getD [] = []
  · refine ⟨_, s, naddValue_nil value hnil, ?_⟩
    cases value with
    | none => rfl
    | some value =>
      obtain rfl : value = [] := hnil
      rfl
  · obtain ⟨bytes, rfl⟩ := exists_eq_some hnil
    have hne : bytes ≠ [] := hnil
    have hgets : ¬ Fails allocs s bytes.length := fun hfails ↦ hmem hfails.2
    obtain ⟨later, hadd, -, hbytes, hbuffer, -⟩ := exists_naddValue_of_not_fails h hne hgets
    obtain ⟨cells, hcells⟩ := Option.isSome_iff_exists.mp hbuffer
    refine ⟨_, later, hadd, ?_⟩
    rw [stringAddValue_of_ne_nil _ hne, StringBuffer.text, hcells, Option.map_some, hbytes,
      StringBuffer.getD_text]

/-! ### Appending repeatedly -/

/-- The number of allocations that so many appends ask for when they get all of them. -/
def neededAllocations (valueLen : ℕ) : ℕ → Bool → ℕ → ℕ → ℕ
  | 0, _, _, _ => 0
  | count + 1, hasBuffer, memSize, valueSize =>
    (needsMemory hasBuffer memSize valueSize valueLen).toNat +
      neededAllocations valueLen count true (grownSize hasBuffer memSize valueSize valueLen)
        (valueSize + valueLen)

/-- All the allocations that so many appends need are successful. -/
def GetsAll (allocs : Allocator) (s : StringMemory) (valueLen count : ℕ) : Prop :=
  ∀ i < neededAllocations valueLen count s.str.value.isSome s.str.memSize s.str.valueSize,
    allocs (s.asked + i) ≠ none

/-- None of so many allocations is successful. -/
def GetsNone (allocs : Allocator) (s : StringMemory) (count : ℕ) : Prop :=
  ∀ i < count, allocs (s.asked + i) = none

theorem getsAll_succ_iff {count : ℕ} {later : StringMemory} (h : ¬ Fails allocs s value.length)
    (hbuffer : later.str.value.isSome = true)
    (hmem : later.str.memSize =
      grownSize s.str.value.isSome s.str.memSize s.str.valueSize value.length)
    (hsize : later.str.valueSize = s.str.valueSize + value.length)
    (hasked : later.asked = s.asked +
      (needsMemory s.str.value.isSome s.str.memSize s.str.valueSize value.length).toNat) :
    GetsAll allocs s value.length (count + 1) ↔ GetsAll allocs later value.length count := by
  rw [GetsAll, GetsAll, neededAllocations, hbuffer, hmem, hsize, hasked]
  cases hneeds : needsMemory s.str.value.isSome s.str.memSize s.str.valueSize value.length with
  | false => rw [Bool.toNat_false, Nat.zero_add, Nat.add_zero]
  | true =>
    have hfirst : allocs s.asked ≠ none := fun hnone ↦ h ⟨hneeds, hnone⟩
    rw [Bool.toNat_true]
    constructor
    · intro hall i hi
      have hnext := hall (i + 1) (by omega)
      rwa [Nat.add_comm i, ← Nat.add_assoc] at hnext
    · rintro hall (_ | i) hi
      · exact hfirst
      · have hnext := hall i (by omega)
        rwa [Nat.add_assoc, Nat.add_comm 1] at hnext

theorem getsNone_succ_iff {count : ℕ} (hfirst : allocs s.asked = none) :
    GetsNone allocs s (count + 1) ↔
      GetsNone allocs { s with asked := s.asked + 1 } count := by
  constructor
  · intro hall i hi
    have hnext := hall (i + 1) (by omega)
    rwa [Nat.add_comm i, ← Nat.add_assoc] at hnext
  · rintro hall (_ | i) hi
    · exact hfirst
    · have hnext := hall i (by omega)
      rwa [Nat.add_comm i, ← Nat.add_assoc]

theorem addRep_nil {value : Option (List Char)} (hvalue : value.getD [] = []) {count : ℕ} {n : ℤ}
    (hpos : 0 ≤ n) (hle : n + count ≤ IndexType.int.last) :
    addRep allocs value count n s = .ok (s.str.value.isSome, s) := by
  induction count generalizing n with
  | zero => rfl
  | succ count ih =>
    have hincr : IndexType.int.incr n = some (n + 1) := IndexType.incr_of_lt hpos (by omega)
    rw [addRep, naddValue_nil value hvalue]
    simp only [bind, Except.bind, hincr]
    exact ih (by omega) (by omega)

/-- What a repeated append has added when the index stays in its range: some of the bytes that it
was to add, all of them exactly when it got all the memory that they need; and it leaves a string
object without a buffer only when there was none and it got no memory. -/
theorem exists_addRep (hstr : IsSound s.str) (hne : value ≠ []) {count : ℕ} {n : ℤ}
    (hpos : 0 ≤ n) (hle : n + count ≤ IndexType.int.last) :
    ∃ later times, addRep allocs (some value) count n s = .ok (later.str.value.isSome, later) ∧
      IsSound later.str ∧ times ≤ count ∧
      later.str.bytes = s.str.bytes ++ (List.replicate times value).flatten ∧
      (times = count ↔ GetsAll allocs s value.length count) ∧
      (later.str.value = none ↔ s.str.value = none ∧ GetsNone allocs s count) := by
  induction count generalizing n s with
  | zero =>
    refine ⟨s, 0, rfl, hstr, Nat.le_refl 0, (List.append_nil _).symm, ?_, ?_⟩
    · exact iff_of_true rfl fun i hi ↦ absurd hi (Nat.not_lt_zero i)
    · exact (and_iff_left fun i hi ↦ absurd hi (Nat.not_lt_zero i)).symm
  | succ count ih =>
    have hincr : IndexType.int.incr n = some (n + 1) := IndexType.incr_of_lt hpos (by omega)
    by_cases hfails : Fails allocs s value.length
    · obtain ⟨later, times, hlater, hsound, htimes, hbytes, hall, hnone⟩ :=
        @ih { s with asked := s.asked + 1 } hstr (n + 1) (by omega) (by omega)
      refine ⟨later, times, ?_, hsound, by omega, hbytes, ?_, ?_⟩
      · rw [addRep, naddValue_of_fails hne hfails]
        simp only [bind, Except.bind, hincr]
        exact hlater
      · refine iff_of_false (by omega) fun hgets ↦ hgets 0 ?_ hfails.2
        rw [neededAllocations, hfails.1, Bool.toNat_true]
        omega
      · rw [hnone, getsNone_succ_iff hfails.2]
    · obtain ⟨added, hadd, hadded, haddedBytes, hbuffer, hmem, hsize, hasked⟩ :=
        exists_naddValue_of_not_fails hstr hne hfails
      obtain ⟨later, times, hlater, hsound, htimes, hbytes, hall, hnone⟩ :=
        @ih added hadded (n + 1) (by omega) (by omega)
      refine ⟨later, times + 1, ?_, hsound, by omega, ?_, ?_, ?_⟩
      · rw [addRep, hadd]
        simp only [bind, Except.bind, hincr]
        exact hlater
      · rw [hbytes, haddedBytes, List.replicate_succ, List.flatten_cons, List.append_assoc]
      · rw [getsAll_succ_iff hfails hbuffer hmem hsize hasked, ← hall]
        omega
      · have hsome : added.str.value ≠ none := Option.isSome_iff_ne_none.mp hbuffer
        refine iff_of_false (fun h ↦ hsome (hnone.mp h).1) fun h ↦ hfails ⟨?_, h.2 0 (by omega)⟩
        rw [h.1, needsMemory]
        exact Bool.or_true _

/-- A repeated append whose index does not fit its type has no result. -/
theorem addRep_overflow (hstr : IsSound s.str) (value : Option (List Char)) {count : ℕ} {n : ℤ}
    (hpos : 0 ≤ n) (hle : n ≤ IndexType.int.last) (hlt : IndexType.int.last < n + count) :
    addRep allocs value count n s = .error .overflow := by
  induction count generalizing n s with
  | zero => exact absurd hlt (by omega)
  | succ count ih =>
    obtain ⟨returned, later, hadd, hsound, -⟩ := exists_naddValue hstr value
    rw [addRep, hadd]
    by_cases hlast : n = IndexType.int.last
    · rw [hlast]
      rfl
    · have hincr : IndexType.int.incr n = some (n + 1) := IndexType.incr_of_lt hpos (by omega)
      simp only [bind, Except.bind, hincr]
      exact ih hsound (by omega) (by omega) (by omega)

/-- An append that returns, and then has added the bytes, or has returned `NULL` and left the bytes
as they were. -/
def Appends (s : StringMemory) (added : List Char) (result : Except Fault (Bool × StringMemory)) :
    Prop :=
  ∃ returned later, result = .ok (returned, later) ∧
    (returned = true → later.str.bytes = s.str.bytes ++ added) ∧
    (returned = false → later.str.bytes = s.str.bytes)

/-- The repeated appends that report what they have done: their index stays in its range, and there
is nothing to add, or all the memory that they need is there, or there is no buffer and no memory
either. -/
def Reports (allocs : Allocator) (s : StringMemory) (value : Option (List Char)) (repeatCnt : ℕ) :
    Prop :=
  repeatCnt < 2 ^ 31 ∧
    (value.getD [] = [] ∨ GetsAll allocs s (value.getD []).length repeatCnt ∨
      s.str.value = none ∧ GetsNone allocs s repeatCnt)

theorem length_flatten_replicate (count : ℕ) (value : List Char) :
    (List.replicate count value).flatten.length = count * value.length := by
  rw [List.length_flatten, List.map_replicate, List.sum_replicate_nat]

/-- A repeated append that adds something in the range of its index. -/
theorem appends_naddRepValue_some_iff (hstr : IsSound s.str) (hne : value ≠ []) {repeatCnt : ℕ}
    (hlt : repeatCnt < 2 ^ 31) :
    Appends s (List.replicate repeatCnt value).flatten
        (s.naddRepValue allocs (some value) repeatCnt) ↔
      GetsAll allocs s value.length repeatCnt ∨
        s.str.value = none ∧ GetsNone allocs s repeatCnt := by
  obtain ⟨later, times, hlater, -, htimes, hbytes, hall, hnone⟩ :=
    @exists_addRep allocs s value hstr hne repeatCnt 0 (Int.le_refl 0)
      (by rw [IndexType.last]; omega)
  rw [naddRepValue, hlater, ← hnone, ← hall]
  constructor
  · rintro ⟨returned, after, heq, hadded, -⟩
    obtain ⟨hreturned, rfl⟩ := Prod.mk.inj (Except.ok.inj heq)
    cases hvalue : later.str.value with
    | none => exact Or.inr rfl
    | some cells =>
      rw [hvalue, Option.isSome_some] at hreturned
      have hlength := congrArg List.length (hadded hreturned.symm)
      rw [hbytes, List.length_append, List.length_append, length_flatten_replicate,
        length_flatten_replicate, Nat.add_left_cancel_iff] at hlength
      exact Or.inl (Nat.eq_of_mul_eq_mul_right (List.length_pos_iff.mpr hne) hlength)
  · intro hgets
    refine ⟨_, later, rfl, fun hreturned ↦ ?_, fun hreturned ↦ ?_⟩
    · have hsome : later.str.value ≠ none := Option.isSome_iff_ne_none.mp hreturned
      rw [hbytes, hgets.resolve_right hsome]
    · have hlater : later.str.value = none :=
        Option.isNone_iff_eq_none.mp (Option.isSome_eq_false_iff.mp hreturned)
      rw [IsSound.bytes_of_none hlater, IsSound.bytes_of_none (hnone.mp hlater).1]

/-- A repeated append appends exactly when it is one of those that report what they have done. -/
theorem appends_naddRepValue_iff (hstr : IsSound s.str) (value : Option (List Char))
    (repeatCnt : ℕ) :
    Appends s (List.replicate repeatCnt (value.getD [])).flatten
        (s.naddRepValue allocs value repeatCnt) ↔
      Reports allocs s value repeatCnt := by
  rw [Reports]
  by_cases hlt : repeatCnt < 2 ^ 31
  · rw [and_iff_right hlt]
    by_cases hnil : value.getD [] = []
    · have hadd : s.naddRepValue allocs value repeatCnt = .ok (s.str.value.isSome, s) :=
        addRep_nil hnil (Int.le_refl 0) (by rw [IndexType.last]; omega)
      have hnothing : (List.replicate repeatCnt (value.getD [])).flatten = [] := by
        rw [hnil, List.flatten_replicate_nil]
      refine iff_of_true ⟨_, s, hadd, fun _ ↦ ?_, fun _ ↦ rfl⟩ (Or.inl hnil)
      rw [hnothing, List.append_nil]
    · rw [or_iff_right hnil]
      obtain ⟨bytes, rfl⟩ := exists_eq_some hnil
      exact appends_naddRepValue_some_iff hstr hnil hlt
  · have hoverflow : s.naddRepValue allocs value repeatCnt = .error .overflow :=
      addRep_overflow hstr value (Int.le_refl 0) (by decide) (by rw [IndexType.last]; omega)
    refine iff_of_false ?_ fun h ↦ hlt h.1
    rintro ⟨returned, later, hresult, -⟩
    cases hoverflow.symm.trans hresult

end StringMemory

end Mupnp.Util
