import Mathlib.Data.List.GetD
import Mathlib.Data.Nat.Notation
import Mathlib.Tactic.Common
import Mupnp.Foundation.FormCode

/-!
# Making a buffer UTF-8

`mupnp_xml_force_utf8` of `xml/xml_parser_libxml2.c`. When libxml2 rejects a character of a
document, `mupnp_xml_parse` lets this function put a question mark in place of what is no UTF-8 in
its copy of the document, and parses the copy again. The length that the caller passes is at most
`INT_MAX`, so `read + 3` does not wrap around.

The masks of the source tell the lead bytes and the continuation bytes apart as their ranges do
(`utf8_followers`, `utf8_continues`). The loop repairs the text in front of the length in the code
of these bytes and touches nothing else (`forceLoop_repair`). `forceUtf8_repairs` states what that
means for the buffer.
-/

set_option autoImplicit false
set_option relaxedAutoImplicit false

namespace Mupnp.Xml

open Foundation

/-! ### The source -/

/-- `UTF_RANGE1_1` and `UTF_RANGE1_1_R`: a mask, and the value under it. -/
def utfRange1 : UInt8 × UInt8 := (0x80, 0x00)

/-- `UTF_RANGE2_1` and `UTF_RANGE2_1_R`. -/
def utfRange2 : UInt8 × UInt8 := (0xE0, 0xC0)

/-- `UTF_RANGE3_1` and `UTF_RANGE3_1_R`. -/
def utfRange3 : UInt8 × UInt8 := (0xF0, 0xE0)

/-- `UTF_RANGE4_1` and `UTF_RANGE4_1_R`. -/
def utfRange4 : UInt8 × UInt8 := (0xF8, 0xF0)

/-- `UTF_RANGEX_2` and `UTF_RANGEX_2_R`. -/
def utfRangeX : UInt8 × UInt8 := (0xC0, 0x80)

/-- A byte has the value of a range under its mask. -/
def isInRange (range : UInt8 × UInt8) (c : UInt8) : Bool := range.2 == c &&& range.1

/-- The question mark. -/
def unknownByte : UInt8 := 63

/-- The buffer, the position of the loop, and the offsets that were read or written. -/
structure ForceState where
  data : List UInt8
  read : ℕ
  accesses : List ℕ

/-- Whether as many bytes as are to follow are there, and the offsets that are looked at. -/
def checkFollowing (data : List UInt8) : (start more : ℕ) → Bool × List ℕ
  | _, 0 => (true, [])
  | start, more + 1 =>
    if isInRange utfRangeX (data.getD start 0) then
      let (following, offsets) := checkFollowing data (start + 1) more
      (following, start :: offsets)
    else (false, [start])

/-- `*(data + read) = '?'`, and the next byte. -/
def setUnknown (s : ForceState) : ForceState :=
  { data := s.data.set s.read unknownByte, read := s.read + 1, accesses := s.accesses ++ [s.read] }

/-- The branch for a sequence of several bytes, which is passed over, or whose first byte is
converted. -/
def checkSequence (len : ℕ) (s : ForceState) (more : ℕ) : ForceState :=
  if len ≤ s.read + more then setUnknown s
  else
    let (following, offsets) := checkFollowing s.data (s.read + 1) more
    let checked := { s with accesses := s.accesses ++ offsets }
    if following then { checked with read := s.read + (more + 1) } else setUnknown checked

/-- The body of the loop. -/
def forceStep (len : ℕ) (s : ForceState) : ForceState :=
  let c := s.data.getD s.read 0
  let checked := { s with accesses := s.accesses ++ [s.read] }
  if isInRange utfRange1 c then { checked with read := s.read + 1 }
  else if isInRange utfRange2 c then checkSequence len checked 1
  else if isInRange utfRange3 c then checkSequence len checked 2
  else if isInRange utfRange4 c then checkSequence len checked 3
  else setUnknown checked

/-- The loop, `none` when it is not through after a number of rounds. -/
def forceLoop (len : ℕ) : (rounds : ℕ) → ForceState → Option ForceState
  | rounds, s =>
    if s.read < len then
      match rounds with
      | 0 => none
      | rounds + 1 => forceLoop len rounds (forceStep len s)
    else some s

/-- `mupnp_xml_force_utf8`. -/
def forceUtf8 (data : List UInt8) (len : ℕ) : Option ForceState :=
  forceLoop len len { data, read := 0, accesses := [] }

/-! ### The bytes of UTF-8 -/

/-- The number of continuation bytes of a lead byte. -/
def leadFollowers (c : UInt8) : Option ℕ :=
  if c < 0x80 then some 0
  else if c < 0xC0 then none
  else if c < 0xE0 then some 1
  else if c < 0xF0 then some 2
  else if c < 0xF8 then some 3
  else none

/-- A continuation byte. -/
def isContinuation (c : UInt8) : Bool := 0x80 ≤ c && c < 0xC0

/-- UTF-8 with one to four bytes, as far as its structure goes. -/
def utf8 : FormCode UInt8 where
  followers := leadFollowers
  continues := isContinuation
  mark := unknownByte
  followers_of_continues := by
    intro c hc
    rw [isContinuation, Bool.and_eq_true, decide_eq_true_eq, decide_eq_true_eq] at hc
    rw [leadFollowers, if_neg (UInt8.not_lt.mpr hc.1), if_pos hc.2]
  followers_mark := by decide

theorem forall_byte {P : UInt8 → Prop} (h : ∀ n < 256, P (UInt8.ofNat n)) (c : UInt8) : P c := by
  have hc := h c.toNat c.toNat_lt
  rwa [UInt8.ofNat_toNat] at hc

/-- The masks tell the lead bytes apart. -/
theorem utf8_followers (c : UInt8) : utf8.followers c =
    if isInRange utfRange1 c then some 0
    else if isInRange utfRange2 c then some 1
    else if isInRange utfRange3 c then some 2
    else if isInRange utfRange4 c then some 3
    else none := by
  revert c
  refine forall_byte ?_
  decide +kernel

theorem utf8_continues (c : UInt8) : utf8.continues c = isInRange utfRangeX c := by
  revert c
  refine forall_byte ?_
  decide +kernel

/-! ### The loop -/

/-- The body of the loop, with the number of bytes that are to follow. -/
theorem forceStep_eq {len : ℕ} {s : ForceState} (hread : s.read < len) :
    forceStep len s =
      match utf8.followers (s.data.getD s.read 0) with
      | some more => checkSequence len { s with accesses := s.accesses ++ [s.read] } more
      | none => setUnknown { s with accesses := s.accesses ++ [s.read] } := by
  rw [utf8_followers, forceStep]
  dsimp only
  split_ifs with h₁ h₂ h₃ h₄
  · have hnot : ¬len ≤ s.read + 0 := Nat.not_le.mpr hread
    simp only [checkSequence, if_neg hnot, checkFollowing, List.append_nil, if_true]
  · rfl
  · rfl
  · rfl
  · rfl

theorem getD_at (done rest : List UInt8) (c : UInt8) :
    (done ++ c :: rest).getD done.length 0 = c := by
  rw [List.getD_append_right _ _ _ _ (Nat.le_refl _), Nat.sub_self]
  rfl

/-- The bytes that are to follow are looked at in order up to the first that is no continuation
byte. -/
theorem checkFollowing_spec (more : ℕ) : ∀ (done rest : List UInt8), more ≤ rest.length →
    (checkFollowing (done ++ rest) done.length more).1 = (rest.take more).all utf8.continues ∧
      ∀ offset ∈ (checkFollowing (done ++ rest) done.length more).2,
        offset < done.length + more := by
  induction more with
  | zero =>
    intro done rest _
    exact ⟨rfl, fun offset hoffset ↦ absurd hoffset List.not_mem_nil⟩
  | succ more ih =>
    intro done rest hmore
    cases rest with
    | nil => exact absurd hmore (Nat.not_succ_le_zero more)
    | cons c rest =>
      have hrec := ih (done ++ [c]) rest (Nat.le_of_succ_le_succ hmore)
      rw [List.append_assoc, List.singleton_append, List.length_append, List.length_singleton]
        at hrec
      obtain ⟨hall, hoffsets⟩ := hrec
      rw [checkFollowing, getD_at, List.take_succ_cons, List.all_cons, utf8_continues]
      cases isInRange utfRangeX c with
      | false =>
        refine ⟨rfl, fun offset hoffset ↦ ?_⟩
        obtain rfl : offset = done.length := List.mem_singleton.mp hoffset
        omega
      | true =>
        refine ⟨hall, fun offset hoffset ↦ ?_⟩
        rcases List.mem_cons.mp hoffset with rfl | hlater
        · omega
        · have hlt := hoffsets offset hlater
          omega

/-- The bytes in front of the length, at the position of the loop, and the bytes behind it. -/
def forceStateAt (done rest beyond : List UInt8) (accesses : List ℕ) : ForceState :=
  { data := done ++ (rest ++ beyond), read := done.length, accesses }

theorem setUnknown_at (done rest beyond : List UInt8) (c : UInt8) (accesses : List ℕ) :
    setUnknown (forceStateAt done (c :: rest) beyond accesses) =
      forceStateAt (done ++ [unknownByte]) rest beyond (accesses ++ [done.length]) := by
  have hdata : (done ++ (c :: rest ++ beyond)).set done.length unknownByte =
      done ++ [unknownByte] ++ (rest ++ beyond) := by
    rw [List.set_append_right _ _ (Nat.le_refl _), Nat.sub_self, List.append_assoc]
    rfl
  simp only [setUnknown, forceStateAt, hdata, List.length_append, List.length_singleton]

theorem passed_at {rest : List UInt8} {more : ℕ} (hmore : more ≤ rest.length)
    (done beyond : List UInt8) (c : UInt8) (accesses : List ℕ) :
    { forceStateAt done (c :: rest) beyond accesses with read := done.length + (more + 1) } =
      forceStateAt (done ++ c :: rest.take more) (rest.drop more) beyond accesses := by
  have hdata : done ++ c :: rest.take more ++ (rest.drop more ++ beyond) =
      done ++ (c :: rest ++ beyond) := by
    rw [List.append_assoc, List.cons_append, ← List.append_assoc (rest.take more),
      List.take_append_drop, List.cons_append]
  simp only [forceStateAt, hdata, List.length_append, List.length_cons, List.length_take,
    Nat.min_eq_left hmore]

/-- The branch for a sequence of several bytes passes over a sequence in which all that are to
follow are there. -/
theorem checkSequence_at (done rest beyond : List UInt8) (c : UInt8) (accesses : List ℕ)
    (more : ℕ) :
    ∃ offsets, (∀ offset ∈ offsets, offset < done.length + (rest.length + 1)) ∧
      checkSequence (done.length + (rest.length + 1))
          (forceStateAt done (c :: rest) beyond accesses) more =
        if more ≤ rest.length ∧ (rest.take more).all utf8.continues = true then
          forceStateAt (done ++ c :: rest.take more) (rest.drop more) beyond (accesses ++ offsets)
        else forceStateAt (done ++ [unknownByte]) rest beyond (accesses ++ offsets) := by
  by_cases hmore : more ≤ rest.length
  · have hlen : ¬done.length + (rest.length + 1) ≤ done.length + more := by omega
    have hcheck := checkFollowing_spec more (done ++ [c]) (rest ++ beyond)
      (by rw [List.length_append]; omega)
    rw [List.append_assoc, List.singleton_append, List.length_append, List.length_singleton,
      List.take_append_of_le_length hmore] at hcheck
    obtain ⟨hall, hoffsets⟩ := hcheck
    generalize hchecked : checkFollowing (done ++ c :: (rest ++ beyond)) (done.length + 1) more =
      checked at hall hoffsets
    have hlong : checkSequence (done.length + (rest.length + 1))
        (forceStateAt done (c :: rest) beyond accesses) more =
        if checked.1 = true then
          { forceStateAt done (c :: rest) beyond (accesses ++ checked.2) with
            read := done.length + (more + 1) }
        else setUnknown (forceStateAt done (c :: rest) beyond (accesses ++ checked.2)) := by
      rw [← hchecked]
      exact if_neg hlen
    have hbound : ∀ offset ∈ checked.2, offset < done.length + (rest.length + 1) := by
      intro offset hoffset
      have hlt := hoffsets offset hoffset
      omega
    rw [hlong, ← hall]
    by_cases hfollowing : checked.1 = true
    · refine ⟨checked.2, hbound, ?_⟩
      rw [if_pos hfollowing, if_pos ⟨hmore, hfollowing⟩]
      exact passed_at hmore done beyond c _
    · refine ⟨checked.2 ++ [done.length], fun offset hoffset ↦ ?_, ?_⟩
      · rcases List.mem_append.mp hoffset with hlooked | hwritten
        · exact hbound offset hlooked
        · obtain rfl : offset = done.length := List.mem_singleton.mp hwritten
          omega
      · rw [if_neg hfollowing, if_neg fun h ↦ hfollowing h.2, setUnknown_at, List.append_assoc]
  · have hlen : done.length + (rest.length + 1) ≤ done.length + more := by omega
    have hshort : checkSequence (done.length + (rest.length + 1))
        (forceStateAt done (c :: rest) beyond accesses) more =
        setUnknown (forceStateAt done (c :: rest) beyond accesses) := if_pos hlen
    refine ⟨[done.length], fun offset hoffset ↦ ?_, ?_⟩
    · obtain rfl : offset = done.length := List.mem_singleton.mp hoffset
      omega
    · rw [hshort, if_neg fun h ↦ hmore h.1, setUnknown_at]

/-- One round passes over a form, or converts a byte that begins none. -/
theorem forceStep_at (done rest beyond : List UInt8) (c : UInt8) (accesses : List ℕ) :
    ∃ offsets, (∀ offset ∈ offsets, offset < done.length + (rest.length + 1)) ∧
      forceStep (done.length + (rest.length + 1)) (forceStateAt done (c :: rest) beyond accesses) =
        match utf8.more c rest with
        | some more =>
          forceStateAt (done ++ c :: rest.take more) (rest.drop more) beyond (accesses ++ offsets)
        | none => forceStateAt (done ++ [unknownByte]) rest beyond (accesses ++ offsets) := by
  have hread : done.length < done.length + (rest.length + 1) := by omega
  have hstep := forceStep_eq (s := forceStateAt done (c :: rest) beyond accesses) hread
  have hget : (done ++ (c :: rest ++ beyond)).getD done.length 0 = c := getD_at done _ c
  change _ = match utf8.followers ((done ++ (c :: rest ++ beyond)).getD done.length 0) with
    | some more => checkSequence _ (forceStateAt done (c :: rest) beyond
        (accesses ++ [done.length])) more
    | none => setUnknown (forceStateAt done (c :: rest) beyond (accesses ++ [done.length]))
    at hstep
  rw [hget] at hstep
  rw [hstep]
  cases hlead : utf8.followers c with
  | none =>
    rw [FormCode.more_eq_none hlead]
    refine ⟨[done.length] ++ [done.length], fun offset hoffset ↦ ?_, ?_⟩
    · obtain rfl : offset = done.length := by simpa using hoffset
      omega
    · rw [← List.append_assoc]
      exact setUnknown_at done rest beyond c _
  | some more =>
    obtain ⟨offsets, hoffsets, hsequence⟩ :=
      checkSequence_at done rest beyond c (accesses ++ [done.length]) more
    refine ⟨[done.length] ++ offsets, fun offset hoffset ↦ ?_, ?_⟩
    · rcases List.mem_cons.mp hoffset with rfl | hlooked
      · omega
      · exact hoffsets offset hlooked
    · dsimp only
      rw [hsequence, ← List.append_assoc, FormCode.more_eq_ite hlead]
      split_ifs
      · rfl
      · rfl

theorem forceLoop_of_le {len rounds : ℕ} {s : ForceState} (h : len ≤ s.read) :
    forceLoop len rounds s = some s := by
  unfold forceLoop
  exact if_neg (Nat.not_lt.mpr h)

theorem forceLoop_of_lt {len rounds : ℕ} {s : ForceState} (h : s.read < len) :
    forceLoop len (rounds + 1) s = forceLoop len rounds (forceStep len s) := by
  rw [forceLoop, if_pos h]

/-- The loop repairs what is left in front of the length. -/
theorem forceLoop_repair (rest : List UInt8) : ∀ (done beyond : List UInt8) (accesses : List ℕ)
    (len rounds : ℕ), len = done.length + rest.length → rest.length ≤ rounds →
    ∃ offsets, (∀ offset ∈ offsets, offset < len) ∧
      forceLoop len rounds (forceStateAt done rest beyond accesses) =
        some (forceStateAt (done ++ utf8.repair rest) [] beyond (accesses ++ offsets)) := by
  induction rest using FormCode.formInduction utf8 with
  | nil =>
    intro done beyond accesses len rounds hlen _
    refine ⟨[], fun offset hoffset ↦ absurd hoffset List.not_mem_nil, ?_⟩
    rw [forceLoop_of_le (Nat.le_of_eq hlen), List.append_nil]
    change _ = some (forceStateAt (done ++ []) _ _ _)
    rw [List.append_nil]
  | form form after hform ih =>
    intro done beyond accesses len rounds hlen hrounds
    obtain ⟨lead, tail, hlead, htail⟩ := hform
    have hform := FormCode.IsForm.intro lead tail hlead htail
    obtain ⟨offsets, hoffsets, hstep⟩ := forceStep_at done (tail ++ after) beyond lead accesses
    rw [FormCode.more_append hform after] at hstep
    dsimp only at hstep
    rw [List.take_left, List.drop_left] at hstep
    change len = done.length + ((tail ++ after).length + 1) at hlen
    change (tail ++ after).length + 1 ≤ rounds at hrounds
    rw [← hlen] at hoffsets hstep
    obtain ⟨rounds, rfl⟩ := Nat.exists_eq_add_of_lt hrounds
    rw [List.length_append] at hlen hrounds
    obtain ⟨later, hlater, hloop⟩ := ih (done ++ lead :: tail) beyond (accesses ++ offsets) len
      ((tail ++ after).length + rounds)
      (by rw [List.length_append, List.length_cons]; omega) (by rw [List.length_append]; omega)
    refine ⟨offsets ++ later, List.forall_mem_append.mpr ⟨hoffsets, hlater⟩, ?_⟩
    have hread : (forceStateAt done (lead :: tail ++ after) beyond accesses).read < len := by
      change done.length < len
      omega
    rw [forceLoop_of_lt hread, List.cons_append, hstep, hloop, ← List.cons_append,
      FormCode.repair_append hform, List.append_assoc, List.append_assoc]
  | stray c rest hmore ih =>
    intro done beyond accesses len rounds hlen hrounds
    obtain ⟨offsets, hoffsets, hstep⟩ := forceStep_at done rest beyond c accesses
    rw [hmore] at hstep
    dsimp only at hstep
    rw [List.length_cons] at hlen hrounds
    rw [← hlen] at hoffsets hstep
    obtain ⟨rounds, rfl⟩ := Nat.exists_eq_add_of_lt hrounds
    obtain ⟨later, hlater, hloop⟩ := ih (done ++ [unknownByte]) beyond (accesses ++ offsets) len
      (rest.length + rounds) (by rw [List.length_append, List.length_singleton]; omega) (by omega)
    refine ⟨offsets ++ later, List.forall_mem_append.mpr ⟨hoffsets, hlater⟩, ?_⟩
    have hread : (forceStateAt done (c :: rest) beyond accesses).read < len := by
      change done.length < len
      omega
    rw [forceLoop_of_lt hread, hstep, hloop, FormCode.repair_cons hmore, List.append_assoc,
      List.append_assoc]
    rfl

/-! ### The buffer -/

/-- The function puts the repaired text in front of the length, and only that part of the buffer is
read or written. -/
theorem forceUtf8_eq {data : List UInt8} {len : ℕ} (hlen : len ≤ data.length) :
    ∃ s, forceUtf8 data len = some s ∧ (∀ offset ∈ s.accesses, offset < len) ∧
      s.data = utf8.repair (data.take len) ++ data.drop len := by
  have htake : (data.take len).length = len := by
    rw [List.length_take, Nat.min_eq_left hlen]
  obtain ⟨offsets, hoffsets, hloop⟩ := forceLoop_repair (data.take len) [] (data.drop len) [] len
    len (by rw [htake, List.length_nil, Nat.zero_add]) (Nat.le_of_eq htake)
  have hstart : forceStateAt [] (data.take len) (data.drop len) [] =
      { data, read := 0, accesses := [] } := by
    simp only [forceStateAt, List.nil_append, List.take_append_drop, List.length_nil]
  rw [hstart] at hloop
  exact ⟨_, hloop, hoffsets, rfl⟩

/-- For a buffer and a length within it, the function ends and stays in front of the length. It
leaves a text that decomposes into forms of one to four bytes, changes no byte that is in such a
form, and so changes nothing in a text that decomposes, as its own result does. -/
theorem forceUtf8_repairs (data : List UInt8) (len : ℕ) (hlen : len ≤ data.length) :
    ∃ s, forceUtf8 data len = some s ∧ (∀ offset ∈ s.accesses, offset < len) ∧
      s.data.length = data.length ∧ s.data.drop len = data.drop len ∧
      utf8.Decomposes (s.data.take len) ∧
      (∀ i < len, s.data[i]? ≠ data[i]? → ¬utf8.InForm (data.take len) i) ∧
      (utf8.Decomposes (data.take len) → s.data = data) ∧
      ∃ again, forceUtf8 s.data len = some again ∧ again.data = s.data := by
  obtain ⟨s, hrun, haccesses, hdata⟩ := forceUtf8_eq hlen
  have hlength : (utf8.repair (data.take len)).length = len := by
    rw [FormCode.length_repair, List.length_take, Nat.min_eq_left hlen]
  have htake : s.data.take len = utf8.repair (data.take len) := by
    rw [hdata, List.take_append_of_le_length (Nat.le_of_eq hlength.symm),
      List.take_of_length_le (Nat.le_of_eq hlength)]
  have hdrop : s.data.drop len = data.drop len := by
    rw [hdata]
    exact List.drop_left' hlength
  have htotal : s.data.length = data.length := by
    rw [hdata, List.length_append, hlength, List.length_drop]
    omega
  refine ⟨s, hrun, haccesses, htotal, hdrop, ?_, ?_, ?_, ?_⟩
  · rw [htake]
    exact FormCode.decomposes_repair _
  · intro i hi hchanged hform
    have hkept := FormCode.getElem?_repair_of_inForm hform
    rw [← htake, List.getElem?_take_of_lt hi, List.getElem?_take_of_lt hi] at hkept
    exact hchanged hkept
  · intro hdecomposes
    rw [hdata, FormCode.repair_of_decomposes hdecomposes, List.take_append_drop]
  · have hlen' : len ≤ s.data.length := by omega
    obtain ⟨again, hagain, -, hdata'⟩ := forceUtf8_eq hlen'
    refine ⟨again, hagain, ?_⟩
    rw [hdata', htake, FormCode.repair_repair, ← htake, List.take_append_drop]

/-- A lead byte without its continuation byte, and a form behind it. -/
theorem forceUtf8_repairs_truncated :
    ∃ s, forceUtf8 [0xE2, 0xC3, 0xA9, 0] 3 = some s ∧
      s.data.drop 3 = ([0] : List UInt8) ∧ utf8.Decomposes (s.data.take 3) := by
  obtain ⟨s, hrun, -, -, hdrop, hdecomposes, -⟩ :=
    forceUtf8_repairs [0xE2, 0xC3, 0xA9, 0] 3 (by decide)
  exact ⟨s, hrun, hdrop, hdecomposes⟩

end Mupnp.Xml
