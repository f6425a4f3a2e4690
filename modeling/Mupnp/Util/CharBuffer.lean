import Mupnp.Util.StringFunction

/-!
# Character buffers of fixed size

A `char` array and the string functions that write into it, on the bytes of UTF-8. What an array
holds before its first write is arbitrary. A write behind the end of an array, or a search for a
terminator that runs over it, has no result.

`mupnp_strncat` does not terminate what it writes when the string is as long as the bound: it
appends with `strncpy`.
-/

set_option autoImplicit false
set_option relaxedAutoImplicit false

namespace Mupnp.Util

/-- The bytes of a string in UTF-8. -/
def utf8 (str : CString) : List UInt8 := str.flatMap String.utf8EncodeChar

/-- The string that some bytes stand for in UTF-8. -/
def ofUtf8 (bytes : List UInt8) : Option CString := bytes.toByteArray.utf8Decode?.map Array.toList

/-- The bytes of an array. -/
abbrev CharBuffer := List UInt8

namespace CharBuffer

/-- The length of the string in an array; nothing when no byte of it is a terminator. -/
def length? (buf : CharBuffer) : Option ℕ := buf.findIdx? (· == 0)

/-- Writes bytes at a position. -/
def write (buf : CharBuffer) (position : ℕ) (bytes : List UInt8) : Option CharBuffer :=
  if position + bytes.length ≤ buf.length then
    some (buf.take position ++ (bytes ++ buf.drop (position + bytes.length)))
  else none

/-- `mupnp_strcpy`. -/
def strcpy (buf : CharBuffer) (src : CString) : Option CharBuffer := buf.write 0 (utf8 src ++ [0])

/-- `mupnp_strcat`. -/
def strcat (buf : CharBuffer) (src : CString) : Option CharBuffer :=
  buf.length?.bind fun position ↦ buf.write position (utf8 src ++ [0])

/-- What `strncpy` writes: the first bytes of a string, filled up with terminators. -/
def strncpyBytes (src : CString) (cnt : ℕ) : List UInt8 :=
  (utf8 src).take cnt ++ List.replicate (cnt - (utf8 src).length) 0

/-- `mupnp_strncat`. -/
def strncat (buf : CharBuffer) (src : CString) (cnt : ℕ) : Option CharBuffer :=
  buf.length?.bind fun position ↦ buf.write position (strncpyBytes src cnt)

/-- The string in an array. -/
def text (buf : CharBuffer) : Option CString :=
  buf.length?.bind fun length ↦ ofUtf8 (buf.take length)

/-- An array starts with a string and its terminator. -/
def Holds (buf : CharBuffer) (str : CString) : Prop := ∃ rest, buf = utf8 str ++ 0 :: rest

end CharBuffer

/-! ### Bytes of characters -/

@[simp] theorem utf8_append (first second : CString) :
    utf8 (first ++ second) = utf8 first ++ utf8 second := List.flatMap_append

theorem length_utf8 (str : CString) : (utf8 str).length = byteLength str := by
  induction str with
  | nil => rfl
  | cons c rest ih =>
    rw [utf8] at ih
    rw [utf8, List.flatMap_cons, List.length_append, String.length_utf8EncodeChar, ih, byteLength,
      byteLength, List.map_cons, List.sum_cons]

theorem ofUtf8_utf8 (str : CString) : ofUtf8 (utf8 str) = some str := by
  have hdecode : (utf8 str).toByteArray.utf8Decode? = some str.toArray :=
    List.utf8Decode?_utf8Encode
  rw [ofUtf8, hdecode, Option.map_some]

theorem utf8EncodeChar_ne_zero {c : Char} (h : c ≠ '\x00') :
    ∀ b ∈ String.utf8EncodeChar c, b ≠ 0 := by
  have hpos : c.val.toNat ≠ 0 := fun hzero ↦ h (Char.toNat_inj.mp hzero)
  have hlt : c.val.toNat < 1114112 := by
    rcases c.valid with hlow | ⟨-, hhigh⟩
    · exact Nat.lt_of_lt_of_le hlow (by decide)
    · exact hhigh
  have hbyte : ∀ n : ℕ, n % 256 ≠ 0 → UInt8.ofNat n ≠ 0 := by
    intro n hn heq
    have htoNat := congrArg UInt8.toNat heq
    simp only [UInt8.toNat_ofNat', UInt8.toNat_zero] at htoNat
    exact hn htoNat
  unfold String.utf8EncodeChar
  simp only
  split_ifs with hone htwo hthree
  · intro b hb
    rw [List.mem_singleton.mp hb]
    exact hbyte _ (by omega)
  · simp only [List.mem_cons, List.not_mem_nil, or_false, forall_eq_or_imp, forall_eq]
    exact ⟨hbyte _ (by omega), hbyte _ (by omega)⟩
  · simp only [List.mem_cons, List.not_mem_nil, or_false, forall_eq_or_imp, forall_eq]
    exact ⟨hbyte _ (by omega), hbyte _ (by omega), hbyte _ (by omega)⟩
  · simp only [List.mem_cons, List.not_mem_nil, or_false, forall_eq_or_imp, forall_eq]
    exact ⟨hbyte _ (by omega), hbyte _ (by omega), hbyte _ (by omega), hbyte _ (by omega)⟩

/-- The bytes of a string without terminators are no terminators. -/
theorem utf8_ne_zero {str : CString} (h : '\x00' ∉ str) : ∀ b ∈ utf8 str, b ≠ 0 := by
  intro b hb
  obtain ⟨c, hc, hcb⟩ := List.mem_flatMap.mp hb
  exact utf8EncodeChar_ne_zero (fun heq ↦ h (heq ▸ hc)) b hcb

namespace CharBuffer

variable {buf : CharBuffer} {str src : CString}

theorem Holds.length?_eq (h : buf.Holds str) (hstr : '\x00' ∉ str) :
    buf.length? = some (utf8 str).length := by
  obtain ⟨rest, rfl⟩ := h
  have hne : ∀ b ∈ utf8 str, ¬ (b == 0) = true := fun b hb ↦ by
    simpa using utf8_ne_zero hstr b hb
  rw [length?, List.findIdx?_append, List.findIdx?_eq_none_iff.mpr (by simpa using hne)]
  simp [List.findIdx?_cons]

theorem Holds.text_eq (h : buf.Holds str) (hstr : '\x00' ∉ str) : buf.text = some str := by
  rw [text, h.length?_eq hstr, Option.bind_some]
  obtain ⟨rest, rfl⟩ := h
  rw [List.take_left, ofUtf8_utf8]

theorem strcpy_holds (hroom : (utf8 src).length + 1 ≤ buf.length) :
    ∃ buf', buf.strcpy src = some buf' ∧ buf'.Holds src ∧ buf'.length = buf.length := by
  rw [strcpy, write, if_pos (by simpa using hroom)]
  refine ⟨_, rfl, ⟨buf.drop ((utf8 src).length + 1), by simp⟩, ?_⟩
  simp
  omega

theorem Holds.strcat_holds (h : buf.Holds str) (hstr : '\x00' ∉ str)
    (hroom : (utf8 str).length + (utf8 src).length + 1 ≤ buf.length) :
    ∃ buf', buf.strcat src = some buf' ∧ buf'.Holds (str ++ src) ∧ buf'.length = buf.length := by
  rw [strcat, h.length?_eq hstr, Option.bind_some, write,
    if_pos (by simp only [List.length_append, List.length_singleton]; omega)]
  obtain ⟨rest, rfl⟩ := h
  refine ⟨_, rfl, ⟨(utf8 str ++ 0 :: rest).drop ((utf8 str).length + (utf8 src ++ [0]).length), ?_⟩,
    ?_⟩
  · rw [List.take_left, utf8_append]
    simp only [List.append_assoc, List.singleton_append]
  · simp only [List.length_append, List.length_drop, List.length_take, List.length_cons,
      List.length_nil] at hroom ⊢
    omega

/-- `mupnp_strncat` appends a string that is shorter than the bound. -/
theorem Holds.strncat_holds (h : buf.Holds str) (hstr : '\x00' ∉ str) {cnt : ℕ}
    (hshort : (utf8 src).length < cnt) (hroom : (utf8 str).length + cnt ≤ buf.length) :
    ∃ buf', buf.strncat src cnt = some buf' ∧ buf'.Holds (str ++ src) ∧
      buf'.length = buf.length := by
  have hbytes : strncpyBytes src cnt =
      utf8 src ++ 0 :: List.replicate (cnt - (utf8 src).length - 1) 0 := by
    have hpad : cnt - (utf8 src).length = (cnt - (utf8 src).length - 1) + 1 := by omega
    rw [strncpyBytes, List.take_of_length_le (Nat.le_of_lt hshort), hpad, List.replicate_succ]
    rfl
  have hlength : (strncpyBytes src cnt).length = cnt := by
    rw [hbytes]
    simp
    omega
  rw [strncat, h.length?_eq hstr, Option.bind_some, write, hlength, if_pos hroom]
  obtain ⟨rest, rfl⟩ := h
  refine ⟨_, rfl, ⟨List.replicate (cnt - (utf8 src).length - 1) 0 ++
    (utf8 str ++ 0 :: rest).drop ((utf8 str).length + cnt), ?_⟩, ?_⟩
  · rw [List.take_left, utf8_append, hbytes]
    simp only [List.append_assoc, List.cons_append]
  · rw [List.take_left]
    simp only [List.length_append, List.length_drop, List.length_cons, hlength] at hroom ⊢
    omega

/-- `mupnp_strncat` leaves the bytes behind a string that fills the bound as they were. -/
theorem Holds.strncat_of_le (h : buf.Holds str) (hstr : '\x00' ∉ str) {cnt : ℕ}
    (hlong : cnt ≤ (utf8 src).length) (hroom : (utf8 str).length + cnt ≤ buf.length) :
    buf.strncat src cnt =
      some (utf8 str ++ ((utf8 src).take cnt ++ buf.drop ((utf8 str).length + cnt))) := by
  have hbytes : strncpyBytes src cnt = (utf8 src).take cnt := by
    rw [strncpyBytes, Nat.sub_eq_zero_of_le hlong]
    simp
  have hlength : (strncpyBytes src cnt).length = cnt := by
    rw [hbytes, List.length_take, Nat.min_eq_left hlong]
  rw [strncat, h.length?_eq hstr, Option.bind_some, write, hlength, if_pos hroom, hbytes]
  obtain ⟨rest, rfl⟩ := h
  rw [List.take_left]

end CharBuffer

end Mupnp.Util
