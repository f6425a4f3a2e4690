import Mupnp.Foundation.Trimming
import Mupnp.Ssdp.SsdpPacket

/-!
# The UDN of a USN in its buffer

`mupnp_usn_getudn` cell by cell: the copy into the buffer, its terminator, and the trimming in the
buffer, where `mupnp_strtrim` overwrites the trailing blanks and returns a pointer behind the
leading ones. What a buffer holds before is arbitrary. A text is a string of bytes here, one
character each.

All accesses stay within the buffer (`usnGetUdnBuffer_eq`). `splitsUsn_iff` says when the buffer
holds the trimmed text in front of the first `::`: the pointer behind the leading blanks is dropped,
so that they stay in the buffer.
-/

set_option autoImplicit false
set_option relaxedAutoImplicit false

namespace Mupnp.Ssdp

open Foundation CellArray Util

/-! ### The buffer -/

/-- `mupnp_strncpy`: as many characters as are asked for, with terminators behind a string that is
shorter. -/
def strncpyBuffer (str1 : List Char) (str2 : CString) (cnt : ℕ) : Option (List Char) :=
  storeAll str1 0 (str2.take cnt ++ List.replicate (cnt - str2.length) '\x00')

/-- The loop of `mupnp_strrtrim` from the last character of a string on. -/
def rtrimFrom (delim : CString) : ℕ → List Char → Option (List Char)
  | 0, str => some str
  | i + 1, str =>
    (load str i).bind fun c ↦
      if delim.contains c then (store str i '\x00').bind (rtrimFrom delim i) else some str

/-- `mupnp_strrtrim`. -/
def strrtrimBuffer (str : List Char) (delim : CString) : Option (List Char) :=
  (markIndex '\x00' str).bind fun strLen ↦ rtrimFrom delim strLen str

/-- The loop of `mupnp_strltrim`, with the number of characters that are left. -/
def ltrimFrom (str : List Char) (delim : CString) : ℕ → ℕ → Option ℕ
  | 0, i => some i
  | left + 1, i =>
    (load str i).bind fun c ↦ if delim.contains c then ltrimFrom str delim left (i + 1) else some i

/-- `mupnp_strltrim`: the index of the character that the returned pointer is at. -/
def strltrimBuffer (str : List Char) (delim : CString) : Option ℕ :=
  (markIndex '\x00' str).bind fun strLen ↦ ltrimFrom str delim strLen 0

/-- `mupnp_strtrim`: the index that is returned, and the buffer. -/
def strtrimBuffer (str : List Char) (delim : CString) : Option (ℕ × List Char) :=
  (strrtrimBuffer str delim).bind fun trimmed ↦
    (strltrimBuffer trimmed delim).map fun start ↦ (start, trimmed)

/-- A string that is cut to the whole buffer. -/
def fillBuffer (udnBuf : List Char) (usn : CString) : Option (List Char) :=
  (strncpyBuffer udnBuf usn udnBuf.length).bind (store · (udnBuf.length - 1) '\x00')

/-- `mupnp_usn_getudn`, for a buffer whose size is handed over with it. -/
def usnGetUdnBuffer (usn : Option CString) (udnBuf : List Char) : Option (List Char) :=
  match usn with
  | none => store udnBuf 0 '\x00'
  | some usn =>
    let idx := strstr (some usn) (some "::".toList)
    let copied :=
      if idx < 0 then fillBuffer udnBuf usn
      else if idx < udnBuf.length then
        (strncpyBuffer udnBuf usn idx.toNat).bind (store · idx.toNat '\x00')
      else fillBuffer udnBuf usn
    copied.bind fun copy ↦ (strtrimBuffer copy " ".toList).map Prod.snd

/-! ### What is asked of the buffer -/

/-- The text of a USN in front of the first `::`. -/
def udnText (usn : CString) : CString :=
  match indexOf "::".toList usn with
  | some idx => usn.take idx
  | none => usn

/-- The string that stands in the buffer afterwards. -/
def readUdn (usn : CString) (udnBuf : List Char) : Option CString :=
  (usnGetUdnBuffer (some usn) udnBuf).map (upToMark '\x00')

/-- No access is outside the buffer, which holds a terminator afterwards, and the string in it is
the trimmed text in front of the first `::` whenever that fits. A USN without `::` and the same one
with the suffix of a root device or of a type give the same string. -/
def SplitsUsn (usn : CString) (udnBuf : List Char) : Prop :=
  (∃ after, usnGetUdnBuffer (some usn) udnBuf = some after ∧ after.length = udnBuf.length ∧
    '\x00' ∈ after) ∧
  ((strtrim (udnText usn) " ".toList).length < udnBuf.length →
    readUdn usn udnBuf = some (strtrim (udnText usn) " ".toList)) ∧
  (¬ "::".toList <:+: usn ++ [':'] →
    readUdn (usn ++ "::upnp:rootdevice".toList) udnBuf = readUdn usn udnBuf ∧
      ∀ type, '\x00' ∉ type → readUdn (usn ++ "::".toList ++ type) udnBuf = readUdn usn udnBuf)

/-! ### Copying and trimming -/

section buffer

variable {text delim : CString}

theorem rtrimFrom_append (text : CString) (behind : List Char) :
    ∃ rest, rtrimFrom delim text.length (text ++ '\x00' :: behind) =
        some (strrtrim text delim ++ '\x00' :: rest) ∧
      (strrtrim text delim ++ '\x00' :: rest).length = (text ++ '\x00' :: behind).length := by
  induction text using List.reverseRecOn generalizing behind with
  | nil => exact ⟨behind, rfl, rfl⟩
  | append_singleton text c ih =>
    have hcells : text ++ [c] ++ '\x00' :: behind = text ++ c :: '\x00' :: behind := by
      rw [List.append_assoc, List.singleton_append]
    have hload : load (text ++ c :: '\x00' :: behind) text.length = some c := load_append rfl
    rw [List.length_append, List.length_singleton, rtrimFrom, hcells, hload, Option.bind_some]
    by_cases hc : delim.contains c = true
    · have htrim : strrtrim (text ++ [c]) delim = strrtrim text delim :=
        List.rdropWhile_concat_pos _ text c hc
      obtain ⟨rest, hloop, hlength⟩ := ih ('\x00' :: behind)
      rw [if_pos hc, store_append rfl, Option.bind_some, htrim]
      refine ⟨rest, hloop, hlength.trans ?_⟩
      rw [List.length_append, List.length_append, List.length_cons, List.length_cons]
      rfl
    · have htrim : strrtrim (text ++ [c]) delim = text ++ [c] :=
        List.rdropWhile_concat_neg _ text c hc
      rw [if_neg hc, htrim]
      exact ⟨behind, by rw [hcells], by rw [hcells]⟩

theorem strrtrimBuffer_append (htext : '\x00' ∉ text) (behind : List Char) :
    ∃ rest, strrtrimBuffer (text ++ '\x00' :: behind) delim =
        some (strrtrim text delim ++ '\x00' :: rest) ∧
      (strrtrim text delim ++ '\x00' :: rest).length = (text ++ '\x00' :: behind).length := by
  rw [strrtrimBuffer, markIndex_append htext, Option.bind_some]
  exact rtrimFrom_append text behind

theorem ltrimFrom_eq (str : List Char) (left i : ℕ) :
    ltrimFrom str delim left i = skipWhile (delim.contains ·) str left i := by
  induction left generalizing i with
  | zero => rfl
  | succ left ih =>
    rw [ltrimFrom, skipWhile]
    simp only [ih]

/-- Trimming in the buffer leaves the string without its trailing delimiters, and gives the index
behind the leading ones. -/
theorem strtrimBuffer_append (htext : '\x00' ∉ text) (behind : List Char) :
    ∃ rest, strtrimBuffer (text ++ '\x00' :: behind) delim =
        some (((strrtrim text delim).takeWhile (delim.contains ·)).length,
          strrtrim text delim ++ '\x00' :: rest) ∧
      (strrtrim text delim ++ '\x00' :: rest).length = (text ++ '\x00' :: behind).length := by
  obtain ⟨rest, htrim, hlength⟩ := @strrtrimBuffer_append text delim htext behind
  refine ⟨rest, ?_, hlength⟩
  have htrimmed : '\x00' ∉ strrtrim text delim := fun hmem ↦
    htext ((List.rdropWhile_prefix _ text).subset hmem)
  have hskip := skipWhile_front (delim.contains ·) (strrtrim text delim) ('\x00' :: rest)
  rw [strtrimBuffer, htrim, Option.bind_some, strltrimBuffer, markIndex_append htrimmed,
    Option.bind_some, ltrimFrom_eq, hskip, Option.map_some]

/-- A string that is cut to the whole buffer, with a terminator in the last cell at the latest. -/
theorem fillBuffer_eq {udnBuf : List Char} (hlength : 0 < udnBuf.length) (usn : CString) :
    ∃ rest, fillBuffer udnBuf usn = some (usn.take (udnBuf.length - 1) ++ '\x00' :: rest) ∧
      (usn.take (udnBuf.length - 1) ++ '\x00' :: rest).length = udnBuf.length := by
  obtain ⟨last, hlast⟩ := Nat.exists_eq_succ_of_ne_zero (Nat.ne_of_gt hlength)
  have hcells : (usn.take udnBuf.length ++
      List.replicate (udnBuf.length - usn.length) '\x00').length = udnBuf.length := by
    rw [List.length_append, List.length_take, List.length_replicate]
    omega
  have hcopy : strncpyBuffer udnBuf usn udnBuf.length =
      some (usn.take udnBuf.length ++ List.replicate (udnBuf.length - usn.length) '\x00') := by
    have hall := @storeAll_append Char [] udnBuf [] _ 0 rfl hcells.symm
    rwa [List.nil_append, List.append_nil, List.nil_append, List.append_nil] at hall
  have hstored : ∃ rest, fillBuffer udnBuf usn =
      some (usn.take (udnBuf.length - 1) ++ '\x00' :: rest) := by
    rw [fillBuffer, hcopy, Option.bind_some, hlast, Nat.succ_sub_one]
    by_cases hlong : last < usn.length
    · refine ⟨[], ?_⟩
      rw [Nat.sub_eq_zero_of_le hlong, List.replicate_zero, List.append_nil,
        List.take_succ_eq_append_getElem hlong]
      refine store_append ?_
      rw [List.length_take]
      omega
    · have hshort : usn.length ≤ last := Nat.not_lt.mp hlong
      refine ⟨List.replicate (last - usn.length) '\x00', ?_⟩
      rw [List.take_of_length_le hshort, List.take_of_length_le (Nat.le_succ_of_le hshort),
        Nat.succ_sub hshort, List.replicate_succ', ← List.append_assoc, ← List.replicate_succ,
        List.replicate_succ', ← List.append_assoc]
      refine store_append ?_
      rw [List.length_append, List.length_replicate]
      omega
  obtain ⟨rest, hfill⟩ := hstored
  refine ⟨rest, hfill, ?_⟩
  rw [fillBuffer, hcopy, Option.bind_some] at hfill
  exact (length_of_store hfill).trans hcells

/-- A string that is shorter than the buffer, copied up to an index. -/
theorem strncpyBuffer_store {udnBuf : List Char} {before : CString}
    (hroom : before.length < udnBuf.length) (behind : CString) :
    ∃ rest, (strncpyBuffer udnBuf (before ++ behind) before.length).bind
        (store · before.length '\x00') = some (before ++ '\x00' :: rest) ∧
      (before ++ '\x00' :: rest).length = udnBuf.length := by
  have hsplit : udnBuf = [] ++ (udnBuf.take before.length ++ udnBuf.drop before.length) := by
    rw [List.nil_append, List.take_append_drop]
  have hcopied : (before ++ behind).take before.length ++
      List.replicate (before.length - (before ++ behind).length) '\x00' = before := by
    rw [List.take_left, List.length_append, Nat.sub_eq_zero_of_le (Nat.le_add_right _ _),
      List.replicate_zero, List.append_nil]
  have hcopy : strncpyBuffer udnBuf (before ++ behind) before.length =
      some (before ++ udnBuf.drop before.length) := by
    have htake : (udnBuf.take before.length).length = before.length :=
      List.length_take_of_le (Nat.le_of_lt hroom)
    have hall := @storeAll_append Char [] _ (udnBuf.drop before.length) before 0 rfl htake
    rw [← hsplit, List.nil_append] at hall
    rw [strncpyBuffer, hcopied]
    exact hall
  rw [hcopy, Option.bind_some]
  obtain ⟨old, rest, hdrop⟩ := List.exists_cons_of_ne_nil
    (mt List.drop_eq_nil_iff.mp (Nat.not_le.mpr hroom))
  have hstore : store (before ++ udnBuf.drop before.length) before.length '\x00' =
      some (before ++ '\x00' :: rest) := by
    rw [hdrop]
    exact store_append rfl
  refine ⟨rest, hstore, (length_of_store hstore).trans ?_⟩
  rw [List.length_append, List.length_drop]
  omega

end buffer

theorem udnText_isPrefixOf (usn : CString) : udnText usn <+: usn := by
  unfold udnText
  cases indexOf "::".toList usn with
  | none => exact List.prefix_refl usn
  | some idx => exact List.take_prefix idx usn

/-- The copy and the trimming stay within the buffer, and leave the UDN with a terminator. -/
theorem usnGetUdnBuffer_eq {usn : CString} (husn : '\x00' ∉ usn) {udnBuf : List Char}
    (hlength : 0 < udnBuf.length) :
    ∃ rest, usnGetUdnBuffer (some usn) udnBuf =
        some (strrtrim ((udnText usn).take (udnBuf.length - 1)) " ".toList ++ '\x00' :: rest) ∧
      (strrtrim ((udnText usn).take (udnBuf.length - 1)) " ".toList ++ '\x00' :: rest).length =
        udnBuf.length := by
  suffices hcopied : ∃ rest, (if strstr (some usn) (some "::".toList) < 0 then
        fillBuffer udnBuf usn
      else if strstr (some usn) (some "::".toList) < udnBuf.length then
        (strncpyBuffer udnBuf usn (strstr (some usn) (some "::".toList)).toNat).bind
          (store · (strstr (some usn) (some "::".toList)).toNat '\x00')
      else fillBuffer udnBuf usn) =
        some ((udnText usn).take (udnBuf.length - 1) ++ '\x00' :: rest) ∧
      ((udnText usn).take (udnBuf.length - 1) ++ '\x00' :: rest).length = udnBuf.length by
    obtain ⟨behind, hcopy, hcells⟩ := hcopied
    have htext : '\x00' ∉ (udnText usn).take (udnBuf.length - 1) := fun hmem ↦
      husn ((udnText_isPrefixOf usn).subset (List.mem_of_mem_take hmem))
    obtain ⟨rest, htrim, hlengths⟩ := @strtrimBuffer_append _ " ".toList htext behind
    refine ⟨rest, ?_, hlengths.trans hcells⟩
    unfold usnGetUdnBuffer
    simp only [hcopy, Option.bind_some, htrim, Option.map_some]
  unfold udnText
  cases hindex : indexOf "::".toList usn with
  | none =>
    have hstrstr : strstr (some usn) (some "::".toList) = -1 := by simp only [strstr, hindex]
    rw [hstrstr, if_pos (by decide)]
    exact fillBuffer_eq hlength usn
  | some idx =>
    have hstrstr : strstr (some usn) (some "::".toList) = idx := by simp only [strstr, hindex]
    obtain ⟨before, after, rfl, rfl⟩ := exists_of_indexOf_eq_some hindex
    rw [hstrstr, if_neg (by omega), List.append_assoc, Int.toNat_natCast]
    dsimp only
    rw [List.take_left]
    by_cases hroom : before.length < udnBuf.length
    · rw [if_pos (by omega), List.take_of_length_le (by omega)]
      exact strncpyBuffer_store hroom _
    · rw [if_neg (by omega)]
      obtain ⟨rest, hfill, hcells⟩ := fillBuffer_eq hlength (before ++ ("::".toList ++ after))
      rw [List.take_append_of_le_length (by omega)] at hfill hcells
      exact ⟨rest, hfill, hcells⟩

/-! ### Leading blanks -/

theorem head?_of_prefix {first second : CString} (h : first <+: second) (hne : first ≠ []) :
    first.head? = second.head? := by
  obtain ⟨rest, rfl⟩ := h
  obtain ⟨c, front, rfl⟩ := List.exists_cons_of_ne_nil hne
  rfl

/-- A text that is trimmed on the right only, in a cut that has room for the trimmed text, is the
trimmed text when it has no leading delimiter or nothing else. -/
theorem strrtrim_take_iff {text delim : CString} {room : ℕ}
    (hroom : (strtrim text delim).length ≤ room) :
    strrtrim (text.take room) delim = strtrim text delim ↔
      (∀ c ∈ text.head?, delim.contains c = false) ∨ ∀ c ∈ text, delim.contains c = true := by
  by_cases hhead : ∀ c ∈ text.head?, delim.contains c = false
  · refine iff_of_true ?_ (Or.inl hhead)
    have hbody : text.dropWhile (delim.contains ·) = text := by
      cases text with
      | nil => rfl
      | cons c rest =>
        rw [List.dropWhile_cons_of_neg]
        rw [hhead c rfl]
        decide
    have htrim : strtrim text delim = strrtrim text delim := by rw [strtrim, hbody]
    have htext : strrtrim text delim ++ text.rtakeWhile (delim.contains ·) = text :=
      List.rdropWhile_append_rtakeWhile
    rw [htrim] at hroom ⊢
    have htake : text.take room = strrtrim text delim ++
        (text.rtakeWhile (delim.contains ·)).take (room - (strrtrim text delim).length) := by
      have hcut := congrArg (List.take room) htext.symm
      rwa [List.take_append, List.take_of_length_le hroom] at hcut
    rw [htake]
    exact strrtrim_append (fun c hc ↦ List.mem_rtakeWhile_imp (List.mem_of_mem_take hc))
      fun c ↦ contains_getLast_strrtrim
  · rw [or_iff_right hhead]
    constructor
    · intro hself
      by_contra hall
      have hbody : text.dropWhile (delim.contains ·) ≠ [] := fun hnil ↦
        hall (List.dropWhile_eq_nil_iff.mp hnil)
      obtain ⟨c, rest, hrest⟩ := List.exists_cons_of_ne_nil hbody
      have hc : delim.contains c = false := by
        have hfirst := List.head?_dropWhile_not (delim.contains ·) text
        rw [hrest] at hfirst
        simpa using hfirst
      have htrimmed : strtrim text delim ≠ [] := by
        rw [strtrim, hrest]
        intro hnil
        have hblank := List.rdropWhile_eq_nil_iff.mp hnil c List.mem_cons_self
        rw [hc] at hblank
        cases hblank
      have hbodyHead : (strtrim text delim).head? = some c := by
        have hprefix : strtrim text delim <+: c :: rest := by
          rw [strtrim, hrest]
          exact List.rdropWhile_prefix _ _
        exact head?_of_prefix hprefix htrimmed
      have htextHead : (strtrim text delim).head? = text.head? := by
        rw [← hself] at htrimmed ⊢
        exact head?_of_prefix ((List.rdropWhile_prefix _ _).trans (List.take_prefix room text))
          htrimmed
      refine hhead fun d hd ↦ ?_
      rw [← htextHead, hbodyHead] at hd
      rw [← Option.some.inj hd]
      exact hc
    · intro hall
      have hnil : strtrim text delim = [] := by
        rw [strtrim, List.dropWhile_eq_nil_iff.mpr hall]
        rfl
      rw [hnil]
      exact List.rdropWhile_eq_nil_iff.mpr fun c hc ↦ hall c (List.mem_of_mem_take hc)

/-! ### The UDN that is read -/

theorem readUdn_eq {usn : CString} (husn : '\x00' ∉ usn) {udnBuf : List Char}
    (hlength : 0 < udnBuf.length) :
    readUdn usn udnBuf = some (strrtrim ((udnText usn).take (udnBuf.length - 1)) " ".toList) := by
  obtain ⟨rest, hbuffer, -⟩ := usnGetUdnBuffer_eq husn hlength
  have htext : '\x00' ∉ strrtrim ((udnText usn).take (udnBuf.length - 1)) " ".toList := fun hmem ↦
    husn ((udnText_isPrefixOf usn).subset
      (List.mem_of_mem_take ((List.rdropWhile_prefix _ _).subset hmem)))
  rw [readUdn, hbuffer, Option.map_some, upToMark_append htext]

/-- The string in the buffer is the UDN that is taken from the USN. -/
theorem readUdn_eq_usnGetUdn {usn : CString} (husn : '\x00' ∉ usn) {udnBuf : List Char}
    (hlength : 0 < udnBuf.length) :
    readUdn usn udnBuf = some (usnGetUdn (some usn) udnBuf.length) := by
  rw [readUdn_eq husn hlength]
  unfold usnGetUdn udnText
  cases hindex : indexOf "::".toList usn with
  | none =>
    have hstrstr : strstr (some usn) (some "::".toList) = -1 := by simp only [strstr, hindex]
    simp only [hstrstr]
    rw [if_pos (by decide)]
  | some idx =>
    have hstrstr : strstr (some usn) (some "::".toList) = idx := by simp only [strstr, hindex]
    simp only [hstrstr, Int.toNat_natCast, List.take_take]
    rw [if_neg (by omega)]
    by_cases hroom : idx < udnBuf.length
    · rw [if_pos (by omega), Nat.min_eq_right (by omega)]
    · rw [if_neg (by omega), Nat.min_eq_left (by omega)]

/-- A UDN stands in front of the first `::` of its USNs. -/
theorem udnText_append {udn : CString} (h : ¬ "::".toList <:+: udn ++ [':']) (type : CString) :
    udnText (udn ++ ("::".toList ++ type)) = udn ∧ udnText udn = udn := by
  have hcolons : "::".toList = [':', ':'] := by decide
  have hself : indexOf "::".toList udn = none :=
    indexOf_eq_none_iff.mpr fun hwithin ↦ h (hwithin.trans List.infix_append_left)
  obtain ⟨position, hindex, hle⟩ := @indexOf_le_length "::".toList udn type (by decide)
  obtain ⟨before, after, hsplit, hlength⟩ := exists_of_indexOf_eq_some hindex
  have hposition : ¬ position < udn.length := by
    intro hlt
    have hfront : before ++ "::".toList <+: udn ++ ("::".toList ++ type) := ⟨after, hsplit.symm⟩
    have hcolon : udn ++ [':'] <+: udn ++ ("::".toList ++ type) :=
      ⟨':' :: type, by rw [hcolons, List.append_assoc]; rfl⟩
    have hshorter : (before ++ "::".toList).length ≤ (udn ++ [':']).length := by
      rw [List.length_append, List.length_append, hlength, hcolons]
      exact Nat.succ_le_succ hlt
    exact h ((List.suffix_append before _).isInfix.trans
      (List.prefix_of_prefix_length_le hfront hcolon hshorter).isInfix)
  have heq : position = udn.length := by omega
  unfold udnText
  rw [hindex, hself, heq]
  exact ⟨List.take_left, rfl⟩

/-- A buffer holds the trimmed text in front of the first `::` exactly when that text does not fit,
has no leading blank, or is blank. -/
theorem splitsUsn_iff {usn : CString} (husn : '\x00' ∉ usn) {udnBuf : List Char}
    (hlength : 0 < udnBuf.length) :
    SplitsUsn usn udnBuf ↔
      udnBuf.length ≤ (strtrim (udnText usn) " ".toList).length ∨
        (udnText usn).head? ≠ some ' ' ∨ ∀ c ∈ udnText usn, c = ' ' := by
  obtain ⟨rest, hbuffer, hcells⟩ := usnGetUdnBuffer_eq husn hlength
  have hbounds : ∃ after, usnGetUdnBuffer (some usn) udnBuf = some after ∧
      after.length = udnBuf.length ∧ '\x00' ∈ after :=
    ⟨_, hbuffer, hcells, List.mem_append_right _ List.mem_cons_self⟩
  have hsuffixes : ¬ "::".toList <:+: usn ++ [':'] → ∀ type, '\x00' ∉ type →
      readUdn (usn ++ ("::".toList ++ type)) udnBuf = readUdn usn udnBuf := by
    intro hudn type htype
    obtain ⟨htext, hself⟩ := udnText_append hudn type
    have hwhole : '\x00' ∉ usn ++ ("::".toList ++ type) := by
      rw [List.mem_append, List.mem_append, not_or, not_or]
      exact ⟨husn, by decide, htype⟩
    rw [readUdn_eq hwhole hlength, readUdn_eq husn hlength, htext, hself]
  have hblank : (∀ c ∈ (udnText usn).head?, " ".toList.contains c = false) ↔
      (udnText usn).head? ≠ some ' ' := by
    cases (udnText usn).head? with
    | none => simp
    | some c => simp
  have hall : (∀ c ∈ udnText usn, " ".toList.contains c = true) ↔ ∀ c ∈ udnText usn, c = ' ' := by
    simp
  have hroot : "::upnp:rootdevice".toList = "::".toList ++ "upnp:rootdevice".toList := by decide
  have hsame : ¬ "::".toList <:+: usn ++ [':'] →
      readUdn (usn ++ "::upnp:rootdevice".toList) udnBuf = readUdn usn udnBuf ∧
        ∀ type, '\x00' ∉ type → readUdn (usn ++ "::".toList ++ type) udnBuf = readUdn usn udnBuf := by
    intro hudn
    refine ⟨?_, fun type htype ↦ ?_⟩
    · rw [hroot]
      exact hsuffixes hudn _ (by decide)
    · rw [List.append_assoc]
      exact hsuffixes hudn type htype
  unfold SplitsUsn
  rw [and_iff_right hbounds, and_iff_left hsame, readUdn_eq husn hlength, Option.some.injEq,
    ← hblank, ← hall]
  constructor
  · intro hfits
    by_cases hroom : (strtrim (udnText usn) " ".toList).length < udnBuf.length
    · exact Or.inr ((strrtrim_take_iff (Nat.le_sub_one_of_lt hroom)).mp (hfits hroom))
    · exact Or.inl (Nat.not_lt.mp hroom)
  · rintro (hlong | hleading) hroom
    · exact absurd hroom (Nat.not_lt.mpr hlong)
    · exact (strrtrim_take_iff (Nat.le_sub_one_of_lt hroom)).mpr hleading

/-- A USN that fills its buffer, with a trailing blank. -/
theorem splitsUsn_rootDevice :
    SplitsUsn "uuid:7 ::upnp:rootdevice".toList (List.replicate 8 '?') :=
  (splitsUsn_iff (by decide) (by decide)).mpr (Or.inr (Or.inl (by decide)))

/-- A leading blank stays in the buffer. -/
theorem not_splitsUsn :
    ¬ ∀ (usn : CString) (udnBuf : List Char), '\x00' ∉ usn → 0 < udnBuf.length →
      SplitsUsn usn udnBuf := by
  intro h
  obtain ⟨-, hfits, -⟩ := h " uuid:7::upnp:rootdevice".toList (List.replicate 16 '?') (by decide)
    (by decide)
  have hread : readUdn " uuid:7::upnp:rootdevice".toList (List.replicate 16 '?') =
      some " uuid:7".toList := by
    decide +kernel
  have htrimmed : strtrim (udnText " uuid:7::upnp:rootdevice".toList) " ".toList =
      "uuid:7".toList := by
    decide +kernel
  rw [hread, htrimmed] at hfits
  exact absurd (hfits (by decide)) (by decide)

end Mupnp.Ssdp
