import Mupnp.Util.StringBuffer

/-!
# Runs of string operations

`mupnp_string_replace` of `util/string.c` cell by cell, and any run of operations on a string
object, when every allocation may fail. A position of a replacement that leaves the range of an
`int` has no result, and neither has a turn that replaces empty strings only, which is repeated
forever.

Every operation stays within the buffers and keeps the invariant (`safe_step`), and every append but
a repeated one adds what it is given or changes nothing. `holdsAlong_iff` says which runs are such
that the repeated ones do so as well.
-/

set_option autoImplicit false
set_option relaxedAutoImplicit false

namespace Mupnp.Util

open Foundation CellArray

/-! ### Safety -/

/-- A result that is as wanted, or a fault other than an access outside a buffer. -/
def Safe {α : Type} (post : α → Prop) : Except Fault α → Prop
  | .ok a => post a
  | .error fault => fault ≠ .outside

section safe

variable {α β : Type} {post : α → Prop} {post' : β → Prop}

theorem Safe.bind {result : Except Fault α} {next : α → Except Fault β} (h : Safe post result)
    (hnext : ∀ a, post a → Safe post' (next a)) : Safe post' (result >>= next) := by
  cases result with
  | error fault => exact h
  | ok a => exact hnext a h

theorem Safe.mono {result : Except Fault α} {weaker : α → Prop} (h : Safe post result)
    (hpost : ∀ a, post a → weaker a) : Safe weaker result := by
  cases result with
  | error fault => exact h
  | ok a => exact hpost a h

theorem Safe.map_snd {result : Except Fault (α × β)} (h : Safe (fun a ↦ post' a.2) result) :
    Safe post' (result.map Prod.snd) := by
  cases result with
  | error fault => exact h
  | ok a => exact h

end safe

/-! ### Replacing -/

/-- A string to be replaced, which is terminated by the first terminator in it, and what replaces
it. -/
structure StringEntry where
  fromStr : CString
  toStr : CString
  fromStr_nul : '\x00' ∉ fromStr

/-- `strncmp` of a string, up to its length, with the cells of a buffer from a position on: whether
they are equal. -/
def strncmpEq (cells : List Char) : CString → ℕ → Except Fault Bool
  | [], _ => .ok true
  | c :: rest, position => do
    let d ← access (load cells position)
    if c ≠ d then return false
    if c = '\x00' then return true
    strncmpEq cells rest (position + 1)

/-- How far a replacement has come. -/
structure ReplaceState where
  repValue : Option StringBuffer
  asked : ℕ
  copyPos : ℕ
  isReplaced : Bool

namespace ReplaceState

/-- Appends to the result, unless that could not be created. -/
def add (allocs : Allocator) (value : List Char) (state : ReplaceState) :
    Except Fault ReplaceState :=
  match state.repValue with
  | none => .ok state
  | some str => do
    let added ← (⟨str, state.asked⟩ : StringMemory).naddValue allocs (some value)
    return { state with repValue := some added.2.str, asked := added.2.asked }

/-- Moves the position on, which is an `int`. -/
def moveOn (count : ℕ) (state : ReplaceState) : Except Fault ReplaceState :=
  if 2 ^ 31 ≤ state.copyPos + count then .error .overflow
  else .ok { state with copyPos := state.copyPos + count }

end ReplaceState

section replace

variable (allocs : Allocator) (cells : List Char)

/-- The inner loop of `mupnp_string_replace`: a string that is found is replaced at once, and the
search goes on behind it with the next string. -/
def replaceEach : List StringEntry → ReplaceState → Except Fault ReplaceState
  | [], state => .ok state
  | entry :: rest, state => do
    let found ← strncmpEq cells entry.fromStr state.copyPos
    if found = true then
      let added ← state.add allocs entry.toStr
      let moved ← added.moveOn entry.fromStr.length
      replaceEach rest { moved with isReplaced := true }
    else replaceEach rest state

/-- The outer loop of `mupnp_string_replace`, for at most so many turns, of which each moves on. -/
def replaceTurns (strs : List StringEntry) (orgValueLen : ℕ) :
    ℕ → ReplaceState → Except Fault ReplaceState
  | 0, state => if state.copyPos < orgValueLen then .error .endless else .ok state
  | turns + 1, state =>
    if state.copyPos < orgValueLen then do
      let tried ← replaceEach allocs cells strs { state with isReplaced := false }
      if tried.isReplaced = true then
        if tried.copyPos = state.copyPos then .error .endless
        else replaceTurns strs orgValueLen turns tried
      else do
        let c ← access (load cells tried.copyPos)
        let added ← tried.add allocs [c]
        let moved ← added.moveOn 1
        replaceTurns strs orgValueLen turns moved
    else .ok state

end replace

/-- `mupnp_string_replace`. -/
def StringMemory.replace (allocs : Allocator) (s : StringMemory) (strs : List StringEntry) :
    Except Fault StringMemory :=
  let repValue := (allocs s.asked).map fun _ ↦ stringNew
  match allocs (s.asked + 1) with
  | none => .ok { s with asked := s.asked + 2 }
  | some _ =>
    if 2 ^ 31 ≤ strs.length then .error .overflow
    else do
      let done ← replaceTurns allocs (s.str.value.getD []) strs s.str.length s.str.length
        ⟨repValue, s.asked + 2, 0, false⟩
      match done.repValue.bind StringBuffer.value with
      | none => return ⟨s.str, done.asked⟩
      | some cells =>
        let length ← access (markIndex '\x00' cells)
        StringMemory.setValue allocs ⟨s.str, done.asked⟩ (some (cells.take length))

/-! ### Replacing is safe -/

section replaceSafe

variable {allocs : Allocator} {cells : List Char} {last : ℕ} {state : ReplaceState}

/-- The cells in front of a terminator are within the buffer. -/
theorem exists_load_of_le (hlast : load cells last = some '\x00') {position : ℕ}
    (hle : position ≤ last) : ∃ c, load cells position = some c := by
  obtain ⟨hlt, -⟩ := List.getElem?_eq_some_iff.mp hlast
  exact ⟨_, List.getElem?_eq_getElem (hle.trans_lt hlt)⟩

/-- A comparison stops at the terminator of the buffer at the latest. -/
theorem strncmpEq_safe (hlast : load cells last = some '\x00') {str : CString}
    (hnul : '\x00' ∉ str) {position : ℕ} (hle : position ≤ last) :
    Safe (fun found ↦ found = true → position + str.length ≤ last)
      (strncmpEq cells str position) := by
  induction str generalizing position with
  | nil => exact fun _ ↦ hle
  | cons c rest ih =>
    rw [List.mem_cons, not_or] at hnul
    obtain ⟨d, hload⟩ := exists_load_of_le hlast hle
    rw [strncmpEq, access_bind hload]
    by_cases hc : c = d
    · have hne : position ≠ last := by
        rintro rfl
        rw [hload, ← hc] at hlast
        exact hnul.1 (Option.some.inj hlast).symm
      simp only [not_not.mpr hc, if_false, Ne.symm hnul.1]
      refine (ih hnul.2 (by omega)).mono fun found hfound hyes ↦ ?_
      have hlater := hfound hyes
      rw [List.length_cons]
      omega
    · simp only [ne_eq, hc, not_false_eq_true, if_true]
      exact fun hnot ↦ absurd hnot Bool.false_ne_true

/-- The result of a replacement is sound, and the position is not behind the text. -/
def IsReady (last : ℕ) (state : ReplaceState) : Prop :=
  (∀ str ∈ state.repValue, IsSound str) ∧ state.copyPos ≤ last

theorem add_safe (h : IsReady last state) (value : List Char) :
    Safe (fun later ↦ IsReady last later ∧ later.copyPos = state.copyPos)
      (state.add allocs value) := by
  rw [ReplaceState.add]
  cases hrep : state.repValue with
  | none => exact ⟨h, rfl⟩
  | some str =>
    obtain ⟨returned, later, hadd, hsound, -⟩ :=
      @StringMemory.exists_naddValue allocs ⟨str, state.asked⟩ (h.1 str hrep) (some value)
    simp only [hadd]
    refine ⟨⟨fun added hadded ↦ ?_, h.2⟩, rfl⟩
    obtain rfl := Option.some.inj hadded
    exact hsound

theorem moveOn_safe (h : IsReady last state) {count : ℕ} (hle : state.copyPos + count ≤ last) :
    Safe (IsReady last) (state.moveOn count) := by
  rw [ReplaceState.moveOn]
  split_ifs
  · exact fun hnot ↦ by cases hnot
  · exact ⟨h.1, hle⟩

theorem replaceEach_safe (hlast : load cells last = some '\x00') (strs : List StringEntry)
    (h : IsReady last state) :
    Safe (fun later ↦ IsReady last later ∧
      (later.isReplaced = false → state.isReplaced = false ∧ later.copyPos = state.copyPos))
      (replaceEach allocs cells strs state) := by
  induction strs generalizing state with
  | nil => exact ⟨h, fun hnot ↦ ⟨hnot, rfl⟩⟩
  | cons entry rest ih =>
    rw [replaceEach]
    refine (strncmpEq_safe hlast entry.fromStr_nul h.2).bind fun found hfound ↦ ?_
    by_cases hyes : found = true
    · rw [if_pos hyes]
      refine (add_safe h entry.toStr).bind fun added hadded ↦ ?_
      have hle : added.copyPos + entry.fromStr.length ≤ last := by
        rw [hadded.2]
        exact hfound hyes
      refine (moveOn_safe hadded.1 hle).bind fun moved hmoved ↦ ?_
      refine (@ih { moved with isReplaced := true } hmoved).mono fun later hlater ↦ ⟨hlater.1, ?_⟩
      exact fun hnot ↦ Bool.noConfusion (hlater.2 hnot).1
    · rw [if_neg hyes]
      exact ih h

theorem replaceTurns_safe (hlast : load cells last = some '\x00') (strs : List StringEntry)
    (turns : ℕ) (h : IsReady last state) :
    Safe (IsReady last) (replaceTurns allocs cells strs last turns state) := by
  induction turns generalizing state with
  | zero =>
    rw [replaceTurns]
    split_ifs
    · exact fun hnot ↦ by cases hnot
    · exact h
  | succ turns ih =>
    rw [replaceTurns]
    by_cases hlt : state.copyPos < last
    · rw [if_pos hlt]
      have hstart : IsReady last { state with isReplaced := false } := h
      refine (replaceEach_safe hlast strs hstart).bind fun tried htried ↦ ?_
      by_cases hreplaced : tried.isReplaced = true
      · rw [if_pos hreplaced]
        split_ifs
        · exact fun hnot ↦ by cases hnot
        · exact ih htried.1
      · rw [if_neg hreplaced]
        obtain ⟨-, hsame⟩ := htried.2 (Bool.not_eq_true _ ▸ hreplaced)
        obtain ⟨c, hload⟩ := exists_load_of_le hlast htried.1.2
        rw [access_bind hload]
        refine (add_safe htried.1 _).bind fun added hadded ↦ ?_
        have hle : added.copyPos + 1 ≤ last := by
          rw [hadded.2, hsame]
          exact hlt
        exact (moveOn_safe hadded.1 hle).bind fun moved hmoved ↦ ih hmoved
    · rw [if_neg hlt]
      exact h

/-- The turns for the text of a string object. -/
theorem replaceTurns_str_safe {str : StringBuffer} (hstr : IsSound str) (strs : List StringEntry)
    (h : IsReady str.length state) :
    Safe (IsReady str.length)
      (replaceTurns allocs (str.value.getD []) strs str.length str.length state) := by
  cases hvalue : str.value with
  | none =>
    have hlength : str.length = 0 := by
      rw [StringBuffer.length, hvalue]
    rw [hlength] at h ⊢
    rw [replaceTurns, if_neg (Nat.not_lt_zero _)]
    exact h
  | some cells =>
    have hlength : str.length = str.valueSize := by
      rw [StringBuffer.length, hvalue]
    rw [hlength] at h ⊢
    exact replaceTurns_safe (hstr.terminated cells hvalue) strs str.valueSize h

/-- A replacement keeps the invariant and stays within the buffers. -/
theorem replace_safe {s : StringMemory} (hstr : IsSound s.str) (strs : List StringEntry) :
    Safe (fun later ↦ IsSound later.str) (s.replace allocs strs) := by
  rw [StringMemory.replace]
  cases hlens : allocs (s.asked + 1) with
  | none => exact hstr
  | some content =>
    simp only []
    split_ifs
    · exact fun hnot ↦ by cases hnot
    have hready : IsReady s.str.length
        ⟨(allocs s.asked).map fun _ ↦ stringNew, s.asked + 2, 0, false⟩ := by
      refine ⟨fun str hrep ↦ ?_, Nat.zero_le _⟩
      obtain ⟨-, -, rfl⟩ := Option.map_eq_some_iff.mp hrep
      exact .stringNew
    refine (replaceTurns_str_safe hstr strs hready).bind fun done hdone ↦ ?_
    cases hvalue : done.repValue.bind StringBuffer.value with
    | none => exact hstr
    | some cells =>
      obtain ⟨rep, hrep, hcells⟩ := Option.bind_eq_some_iff.mp hvalue
      obtain ⟨length, hlength⟩ := exists_markIndex
        (List.mem_of_getElem? ((hdone.1 rep hrep).terminated cells hcells))
      obtain ⟨later, hset, hlater, -⟩ :=
        @StringMemory.exists_setNValue allocs ⟨s.str, done.asked⟩ hstr (some (cells.take length))
      simp only [access_bind hlength, StringMemory.setValue, hset]
      exact hlater

end replaceSafe

/-! ### Runs -/

/-- The operations on a string object. -/
inductive StringOperation
  | setValue (value : Option CString)
  | setNValue (value : Option (List Char))
  | setPointerValue (buffer : TerminatedBuffer)
  | addValue (value : Option CString)
  | naddValue (value : Option (List Char))
  | addRepValue (value : Option CString) (repeatCnt : ℕ)
  | naddRepValue (value : Option (List Char)) (repeatCnt : ℕ)
  | clear
  | replace (strs : List StringEntry)

section runs

variable (allocs : Allocator)

/-- One operation. -/
def StringMemory.step (s : StringMemory) : StringOperation → Except Fault StringMemory
  | .setValue value => s.setValue allocs value
  | .setNValue value => s.setNValue allocs value
  | .setPointerValue buffer => .ok (s.setPointerValue buffer)
  | .addValue value => (s.addValue allocs value).map Prod.snd
  | .naddValue value => (s.naddValue allocs value).map Prod.snd
  | .addRepValue value repeatCnt => (s.addRepValue allocs value repeatCnt).map Prod.snd
  | .naddRepValue value repeatCnt => (s.naddRepValue allocs value repeatCnt).map Prod.snd
  | .clear => .ok { s with str := s.str.clear }
  | .replace strs => s.replace allocs strs

/-- What an operation is to do besides keeping the invariant: an append adds what it is given or
changes nothing, and none accesses a cell outside a buffer. -/
def DoesItsTask (s : StringMemory) : StringOperation → Prop
  | .addValue value => s.Appends (value.getD []) (s.addValue allocs value)
  | .naddValue value => s.Appends (value.getD []) (s.naddValue allocs value)
  | .addRepValue value repeatCnt =>
    s.Appends (List.replicate repeatCnt (value.getD [])).flatten
      (s.addRepValue allocs value repeatCnt)
  | .naddRepValue value repeatCnt =>
    s.Appends (List.replicate repeatCnt (value.getD [])).flatten
      (s.naddRepValue allocs value repeatCnt)
  | operation => Safe (fun _ ↦ True) (s.step allocs operation)

/-- The condition on an operation: a repeated append is one of those that report what they have
done. -/
def IsReporting (s : StringMemory) : StringOperation → Prop
  | .addRepValue value repeatCnt => StringMemory.Reports allocs s value repeatCnt
  | .naddRepValue value repeatCnt => StringMemory.Reports allocs s value repeatCnt
  | _ => True

/-- In every state that a run reaches the string object is sound, and every operation does its
task. -/
def HoldsAlong : List StringOperation → StringMemory → Prop
  | [], s => IsSound s.str
  | operation :: rest, s =>
    IsSound s.str ∧ DoesItsTask allocs s operation ∧
      ∀ later, s.step allocs operation = .ok later → HoldsAlong rest later

/-- The condition holds of every operation in the state in which a run reaches it. -/
def ReportsAlong : List StringOperation → StringMemory → Prop
  | [], _ => True
  | operation :: rest, s =>
    IsReporting allocs s operation ∧
      ∀ later, s.step allocs operation = .ok later → ReportsAlong rest later

end runs

section runs

variable {allocs : Allocator} {s : StringMemory}

theorem appends_naddValue (hstr : IsSound s.str) (value : Option (List Char)) :
    s.Appends (value.getD []) (s.naddValue allocs value) := by
  obtain ⟨returned, later, hadd, -, hadded, hkept⟩ := StringMemory.exists_naddValue hstr value
  exact ⟨returned, later, hadd, hadded, hkept⟩

theorem naddValue_safe (hstr : IsSound s.str) (value : Option (List Char)) :
    Safe (fun added ↦ IsSound added.2.str) (s.naddValue allocs value) := by
  obtain ⟨returned, later, hadd, hsound, -⟩ := StringMemory.exists_naddValue hstr value
  rw [hadd]
  exact hsound

theorem addRep_safe (hstr : IsSound s.str) (value : Option (List Char)) (count : ℕ) (n : ℤ) :
    Safe (fun added ↦ IsSound added.2.str) (StringMemory.addRep allocs value count n s) := by
  induction count generalizing n s with
  | zero => exact hstr
  | succ count ih =>
    rw [StringMemory.addRep]
    refine (naddValue_safe hstr value).bind fun added hadded ↦ ?_
    cases IndexType.int.incr n with
    | none => exact fun hnot ↦ by cases hnot
    | some next => exact ih hadded next

/-- Every operation keeps the invariant and stays within the buffers. -/
theorem safe_step (hstr : IsSound s.str) (operation : StringOperation) :
    Safe (fun later ↦ IsSound later.str) (s.step allocs operation) := by
  have hset (value : Option (List Char)) :
      Safe (fun later ↦ IsSound later.str) (s.setNValue allocs value) := by
    obtain ⟨later, hlater, hsound, -⟩ := StringMemory.exists_setNValue hstr value
    rw [hlater]
    exact hsound
  cases operation with
  | setValue value =>
    cases value with
    | none => exact hstr
    | some value => exact hset (some value)
  | setNValue value => exact hset value
  | setPointerValue buffer => exact StringMemory.isSound_setPointerValue s buffer
  | addValue value => exact Safe.map_snd (naddValue_safe hstr value)
  | naddValue value => exact Safe.map_snd (naddValue_safe hstr value)
  | addRepValue value repeatCnt => exact Safe.map_snd (addRep_safe hstr value repeatCnt 0)
  | naddRepValue value repeatCnt => exact Safe.map_snd (addRep_safe hstr value repeatCnt 0)
  | clear => exact hstr.clear
  | replace strs => exact replace_safe hstr strs

/-- An operation does its task exactly under the condition. -/
theorem doesItsTask_iff (hstr : IsSound s.str) (operation : StringOperation) :
    DoesItsTask allocs s operation ↔ IsReporting allocs s operation := by
  have hsafe := (@safe_step allocs s hstr operation).mono fun _ _ ↦ trivial
  cases operation with
  | setValue value => exact iff_of_true hsafe trivial
  | setNValue value => exact iff_of_true hsafe trivial
  | setPointerValue buffer => exact iff_of_true hsafe trivial
  | addValue value => exact iff_of_true (appends_naddValue hstr value) trivial
  | naddValue value => exact iff_of_true (appends_naddValue hstr value) trivial
  | addRepValue value repeatCnt =>
    exact StringMemory.appends_naddRepValue_iff hstr value repeatCnt
  | naddRepValue value repeatCnt =>
    exact StringMemory.appends_naddRepValue_iff hstr value repeatCnt
  | clear => exact iff_of_true hsafe trivial
  | replace strs => exact iff_of_true hsafe trivial

theorem holdsAlong_iff_of_isSound (hstr : IsSound s.str) (operations : List StringOperation) :
    HoldsAlong allocs operations s ↔ ReportsAlong allocs operations s := by
  induction operations generalizing s with
  | nil => exact iff_of_true hstr trivial
  | cons operation rest ih =>
    have hsafe := @safe_step allocs s hstr operation
    rw [HoldsAlong, ReportsAlong, and_iff_right hstr, doesItsTask_iff hstr]
    refine and_congr_right fun _ ↦ forall_congr' fun later ↦ forall_congr' fun hlater ↦ ih ?_
    rw [hlater] at hsafe
    exact hsafe

/-- In every run of operations the string object stays sound, and all appends add what they are
given or change nothing exactly when the repeated ones report what they have done. -/
theorem holdsAlong_iff (allocs : Allocator) (operations : List StringOperation) :
    HoldsAlong allocs operations ⟨stringNew, 0⟩ ↔
      ReportsAlong allocs operations ⟨stringNew, 0⟩ :=
  holdsAlong_iff_of_isSound .stringNew operations

/-- A repeated append to a string object with a buffer gets no memory, and still returns the
buffer. -/
theorem not_holdsAlong :
    ¬ HoldsAlong (fun asked ↦ if asked = 0 then some fun _ ↦ ' ' else none)
      [.setValue (some "x".toList), .addRepValue (some "y".toList) 1] ⟨stringNew, 0⟩ := by
  rintro ⟨-, -, hset⟩
  obtain ⟨-, hadd, -⟩ := hset ⟨⟨some "x\x00".toList, 2, 1⟩, 1⟩ rfl
  obtain ⟨returned, later, hresult, hadded, -⟩ := hadd
  have hreturns : (⟨⟨some "x\x00".toList, 2, 1⟩, 1⟩ : StringMemory).addRepValue
      (fun asked ↦ if asked = 0 then some fun _ ↦ ' ' else none) (some "y".toList) 1 =
      .ok (true, ⟨⟨some "x\x00".toList, 2, 1⟩, 2⟩) := rfl
  obtain ⟨rfl, rfl⟩ := Prod.mk.inj (Except.ok.inj (hreturns.symm.trans hresult))
  exact absurd (hadded rfl) (by decide)

end runs

end Mupnp.Util
