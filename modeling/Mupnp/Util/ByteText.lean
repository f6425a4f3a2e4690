import Mupnp.Util.CharBuffer

/-!
# Texts as bytes

A message has one character for each byte, and a text has the characters that the bytes stand for in
UTF-8. `ofBytes_toBytes` says that a text is told by its bytes, and `mem_toBytes` that the bytes of a
text have no ASCII character but those of the text.
-/

set_option autoImplicit false
set_option relaxedAutoImplicit false

namespace Mupnp.Util

/-- The bytes of a text, one character each. -/
def toBytes (text : CString) : List Char := (utf8 text).map fun b ↦ Char.ofNat b.toNat

/-- The text of some bytes; there is none when they are not UTF-8. -/
def ofBytes (bytes : List Char) : Option CString :=
  if ∀ c ∈ bytes, c.toNat < 256 then ofUtf8 (bytes.map fun c ↦ UInt8.ofNat c.toNat) else none

@[simp] theorem toBytes_nil : toBytes [] = [] := rfl

@[simp] theorem toBytes_append (first second : CString) :
    toBytes (first ++ second) = toBytes first ++ toBytes second := by
  rw [toBytes, utf8_append, List.map_append]
  rfl

@[simp] theorem length_toBytes (text : CString) : (toBytes text).length = byteLength text := by
  rw [toBytes, List.length_map, length_utf8]

theorem toNat_ofNat_byte (b : UInt8) : (Char.ofNat b.toNat).toNat = b.toNat := by
  have hlt : b.toNat < 256 := b.toNat_lt
  have hvalid : b.toNat.isValidChar := Or.inl (hlt.trans (by decide))
  rw [Char.ofNat, dif_pos hvalid]
  rfl

/-- A text is read back from its bytes. -/
theorem ofBytes_toBytes (text : CString) : ofBytes (toBytes text) = some text := by
  have hbound : ∀ c ∈ toBytes text, c.toNat < 256 := by
    intro c hc
    obtain ⟨b, -, rfl⟩ := List.mem_map.mp hc
    rw [toNat_ofNat_byte]
    exact b.toNat_lt
  have hback : (toBytes text).map (fun c ↦ UInt8.ofNat c.toNat) = utf8 text := by
    rw [toBytes, List.map_map]
    refine (List.map_congr_left fun b _ ↦ ?_).trans (List.map_id _)
    rw [Function.comp_apply, toNat_ofNat_byte, UInt8.ofNat_toNat]
    rfl
  rw [ofBytes, if_pos hbound, hback, ofUtf8_utf8]

/-! ### ASCII -/

/-- An ASCII character is one byte. -/
theorem utf8EncodeChar_of_lt {c : Char} (h : c.toNat < 128) :
    String.utf8EncodeChar c = [UInt8.ofNat c.toNat] := by
  have hle : c.val.toNat ≤ 127 := Nat.le_of_lt_succ h
  unfold String.utf8EncodeChar
  simp only [if_pos hle]
  rfl

/-- The bytes of a character that is not ASCII are not ASCII. -/
theorem le_of_mem_utf8EncodeChar {c : Char} (h : 128 ≤ c.toNat) :
    ∀ b ∈ String.utf8EncodeChar c, 128 ≤ b.toNat := by
  have hnot : ¬ c.val.toNat ≤ 127 := Nat.not_le.mpr h
  have hbyte : ∀ n : ℕ, 128 ≤ n % 256 → 128 ≤ (UInt8.ofNat n).toNat := by
    intro n hn
    rwa [UInt8.toNat_ofNat']
  have hlt : c.val.toNat < 1114112 := by
    rcases c.valid with hlow | ⟨-, hhigh⟩
    · exact Nat.lt_of_lt_of_le hlow (by decide)
    · exact hhigh
  unfold String.utf8EncodeChar
  simp only [if_neg hnot]
  split_ifs with htwo hthree
  · simp only [List.mem_cons, List.not_mem_nil, or_false, forall_eq_or_imp, forall_eq]
    exact ⟨hbyte _ (by omega), hbyte _ (by omega)⟩
  · simp only [List.mem_cons, List.not_mem_nil, or_false, forall_eq_or_imp, forall_eq]
    exact ⟨hbyte _ (by omega), hbyte _ (by omega), hbyte _ (by omega)⟩
  · simp only [List.mem_cons, List.not_mem_nil, or_false, forall_eq_or_imp, forall_eq]
    exact ⟨hbyte _ (by omega), hbyte _ (by omega), hbyte _ (by omega), hbyte _ (by omega)⟩

/-- A text of ASCII characters is its own bytes. -/
theorem toBytes_of_lt {text : CString} (h : ∀ c ∈ text, c.toNat < 128) : toBytes text = text := by
  induction text with
  | nil => rfl
  | cons c rest ih =>
    have hc := h c List.mem_cons_self
    have hrest := ih fun d hd ↦ h d (List.mem_cons_of_mem c hd)
    have hbyte : (UInt8.ofNat c.toNat).toNat = c.toNat := by
      rw [UInt8.toNat_ofNat']
      omega
    rw [show c :: rest = [c] ++ rest from rfl, toBytes_append, hrest, toBytes, utf8,
      List.flatMap_singleton, utf8EncodeChar_of_lt hc, List.map_singleton, hbyte, Char.ofNat_toNat]

/-- An ASCII byte is a character of the text. -/
theorem mem_toBytes {text : CString} {c : Char} (hc : c.toNat < 128) (h : c ∈ toBytes text) :
    c ∈ text := by
  obtain ⟨b, hb, rfl⟩ := List.mem_map.mp h
  obtain ⟨d, hd, hbd⟩ := List.mem_flatMap.mp hb
  rw [toNat_ofNat_byte] at hc
  by_cases hlt : d.toNat < 128
  · rw [utf8EncodeChar_of_lt hlt, List.mem_singleton] at hbd
    have hbyte : (UInt8.ofNat d.toNat).toNat = d.toNat := by
      rw [UInt8.toNat_ofNat']
      omega
    rwa [hbd, hbyte, Char.ofNat_toNat]
  · have hle := le_of_mem_utf8EncodeChar (Nat.not_lt.mp hlt) b hbd
    omega

end Mupnp.Util
