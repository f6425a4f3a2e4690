import Mathlib.Data.List.GetD
import Mathlib.Data.List.TakeWhile
import Mathlib.Tactic.Common

/-!
# Escaping in URIs

`mupnp_net_uri_escapestring` and `mupnp_net_uri_unescapestring` of `net/uri.c` as they are built in,
with the size zero that stands for the whole string: the functions then process a string together
with its terminator. A string is the list of its bytes before the terminator.

Both loops are inverse to each other (`unescapeBytes_pieces`). The functions are not, for no string
(`escape_never_round_trips`): the terminator is escaped too, and a string with an escaped character
in it is given back as it is, although it was to be unescaped.
-/

set_option autoImplicit false
set_option relaxedAutoImplicit false

namespace Mupnp.Net

/-- A character between two others. -/
def isBetween (low high : Char) (c : UInt8) : Bool :=
  decide (low.toNat ≤ c.toNat) && decide (c.toNat ≤ high.toNat)

/-- `mupnp_net_uri_isalphanumchar`; the bytes from 128 on are negative characters. -/
def isAlphanumByte (c : UInt8) : Bool :=
  isBetween 'a' 'z' c || isBetween 'A' 'Z' c || isBetween '0' '9' c

/-- The percent sign. -/
def escapingByte : UInt8 := 37

/-- The value of a hexadecimal digit. -/
def hexByteValue (c : UInt8) : Option ℕ :=
  if isBetween '0' '9' c then some (c.toNat - '0'.toNat)
  else if isBetween 'a' 'f' c then some (c.toNat - 'a'.toNat + 10)
  else if isBetween 'A' 'F' c then some (c.toNat - 'A'.toNat + 10)
  else none

/-- `%X` for a number below 16. -/
def hexByte (digit : ℕ) : UInt8 :=
  if digit < 10 then UInt8.ofNat ('0'.toNat + digit) else UInt8.ofNat ('A'.toNat + (digit - 10))

/-- `strtol` in base 16 on a string without a sign, after a number that was read. -/
def strtolHex (read : ℕ) : List UInt8 → ℕ
  | [] => read
  | c :: rest =>
    match hexByteValue c with
    | some digit => strtolHex (16 * read + digit) rest
    | none => read

/-! ### The functions -/

/-- What `mupnp_net_uri_escapestring` writes for a character. -/
def escapeByte (c : UInt8) : List UInt8 :=
  if isAlphanumByte c then [c]
  else [escapingByte, hexByte (c.toNat / 16), hexByte (c.toNat % 16)]

/-- `mupnp_net_uri_escapestring`. -/
def escapeString (buf : List UInt8) : List UInt8 := (buf ++ [0]).flatMap escapeByte

/-- `mupnp_net_uri_isescapedstring`. Below a size of four, the bound on the position of the percent
sign wraps around to a number that is larger than every position. -/
def isEscapedBytes (buf : List UInt8) : Bool :=
  let bufSize := buf.length + 1
  let idx := buf.findIdx (· = escapingByte)
  if idx = buf.length ∨ 4 ≤ bufSize ∧ bufSize - 4 < idx then false
  else
    (hexByteValue (buf.getD (idx + 1) 0)).isSome && (hexByteValue (buf.getD (idx + 2) 0)).isSome

/-- The loop of `mupnp_net_uri_unescapestring` over what is left of the string and its
terminator. -/
def unescapeBytes : List UInt8 → List UInt8
  | [] => []
  | [c] => [c]
  | [c, d] => [c, d]
  | c :: first :: second :: rest =>
    if c = escapingByte ∧ isAlphanumByte first = true ∧ isAlphanumByte second = true then
      UInt8.ofNat (strtolHex 0 [first, second]) :: unescapeBytes rest
    else c :: unescapeBytes (first :: second :: rest)

/-- `mupnp_net_uri_unescapestring`: the string that it returns, and the one in `retBuf`. -/
def unescapeString (buf : List UInt8) : List UInt8 × List UInt8 :=
  if isEscapedBytes buf then (buf, [])
  else
    let unescaped := (unescapeBytes (buf ++ [0])).takeWhile (· ≠ 0)
    (unescaped, unescaped)

/-! ### Pieces of an escaped string -/

/-- A byte stands for itself when it is a letter or a digit, or is written as a triplet. -/
inductive IsPiece (c : UInt8) : List UInt8 → Prop
  | plain (h : isAlphanumByte c = true) : IsPiece c [c]
  | triplet {first second : UInt8} {high low : ℕ} (hfirst : hexByteValue first = some high)
      (hsecond : hexByteValue second = some low) (hvalue : UInt8.ofNat (16 * high + low) = c) :
      IsPiece c [escapingByte, first, second]

/-- A string that consists of letters and digits and of triplets, each for a character of another
string. -/
def ConsistsOf (buf escaped : List UInt8) : Prop :=
  ∃ pieces : List (UInt8 × List UInt8),
    (∀ piece ∈ pieces, piece.1 ∈ buf ∧ IsPiece piece.1 piece.2) ∧
      escaped = pieces.flatMap Prod.snd

theorem hexByteValue_hexByte {digit : ℕ} (h : digit < 16) :
    hexByteValue (hexByte digit) = some digit := by
  have hall : ∀ digit < 16, hexByteValue (hexByte digit) = some digit := by decide
  exact hall digit h

theorem isAlphanumByte_of_hexByteValue {c : UInt8} {digit : ℕ}
    (h : hexByteValue c = some digit) : isAlphanumByte c = true := by
  unfold hexByteValue at h
  simp only [isAlphanumByte, isBetween, Bool.or_eq_true, Bool.and_eq_true, decide_eq_true_eq]
    at h ⊢
  have hf : 'f'.toNat ≤ 'z'.toNat := by decide
  have hF : 'F'.toNat ≤ 'Z'.toNat := by decide
  split_ifs at h with hdigit hlower hupper
  · exact Or.inr hdigit
  · exact Or.inl (Or.inl ⟨hlower.1, Nat.le_trans hlower.2 hf⟩)
  · exact Or.inl (Or.inr ⟨hupper.1, Nat.le_trans hupper.2 hF⟩)

/-- A character is escaped to a piece for it. -/
theorem isPiece_escapeByte (c : UInt8) : IsPiece c (escapeByte c) := by
  unfold escapeByte
  split_ifs with hplain
  · exact IsPiece.plain hplain
  · have hlt : c.toNat < 256 := c.toNat_lt
    refine IsPiece.triplet (hexByteValue_hexByte (by omega)) (hexByteValue_hexByte (by omega)) ?_
    rw [Nat.div_add_mod, UInt8.ofNat_toNat]

theorem unescapeBytes_cons {c : UInt8} (hc : c ≠ escapingByte) (rest : List UInt8) :
    unescapeBytes (c :: rest) = c :: unescapeBytes rest := by
  match rest with
  | [] => rfl
  | [d] => rfl
  | first :: second :: rest => rw [unescapeBytes, if_neg fun h ↦ hc h.1]

/-- The loop reads a piece as the character that it stands for. -/
theorem unescapeBytes_piece {c : UInt8} {piece : List UInt8} (h : IsPiece c piece)
    (rest : List UInt8) : unescapeBytes (piece ++ rest) = c :: unescapeBytes rest := by
  cases h with
  | plain hplain =>
    refine unescapeBytes_cons (fun hc ↦ ?_) rest
    rw [hc] at hplain
    exact absurd hplain (by decide)
  | @triplet first second high low hfirst hsecond hvalue =>
    have hfirst' := isAlphanumByte_of_hexByteValue hfirst
    have hsecond' := isAlphanumByte_of_hexByteValue hsecond
    have hread : strtolHex 0 [first, second] = 16 * high + low := by
      simp only [strtolHex, hfirst, hsecond, Nat.mul_zero, Nat.zero_add]
    change unescapeBytes (escapingByte :: first :: second :: rest) = c :: unescapeBytes rest
    rw [unescapeBytes, if_pos ⟨rfl, hfirst', hsecond'⟩, hread, hvalue]

/-- The loop reads pieces as the characters that they stand for. -/
theorem unescapeBytes_pieces {pieces : List (UInt8 × List UInt8)}
    (h : ∀ piece ∈ pieces, IsPiece piece.1 piece.2) :
    unescapeBytes (pieces.flatMap Prod.snd) = pieces.map Prod.fst := by
  induction pieces with
  | nil => rfl
  | cons piece pieces ih =>
    rw [List.flatMap_cons, unescapeBytes_piece (h piece List.mem_cons_self), List.map_cons,
      ih fun other hother ↦ h other (List.mem_cons_of_mem _ hother)]

theorem unescapeBytes_escapeByte (buf : List UInt8) :
    unescapeBytes (buf.flatMap escapeByte) = buf := by
  have hpieces := @unescapeBytes_pieces (buf.map fun c ↦ (c, escapeByte c)) (by
    intro piece hpiece
    obtain ⟨c, -, rfl⟩ := List.mem_map.mp hpiece
    exact isPiece_escapeByte c)
  rw [List.flatMap_map, List.map_map] at hpieces
  exact hpieces.trans (List.map_id buf)

/-! ### No round trip -/

/-- The escaped string is more than the pieces of the string. -/
theorem not_consistsOf_escapeString {buf : List UInt8} (hbuf : 0 ∉ buf) :
    ¬ ConsistsOf buf (escapeString buf) := by
  rintro ⟨pieces, hpieces, hescaped⟩
  have hread := unescapeBytes_pieces fun piece hpiece ↦ (hpieces piece hpiece).2
  rw [← hescaped, escapeString, unescapeBytes_escapeByte] at hread
  have hmem : (0 : UInt8) ∈ pieces.map Prod.fst := by
    rw [← hread]
    exact List.mem_append_right _ List.mem_cons_self
  obtain ⟨piece, hpiece, hzero⟩ := List.mem_map.mp hmem
  exact hbuf (hzero ▸ (hpieces piece hpiece).1)

/-- The first character of an escaped string that is not a letter or a digit begins a triplet. -/
theorem exists_escapeString (buf : List UInt8) :
    ∃ plain first second rest, (∀ c ∈ plain, c ≠ escapingByte) ∧
      (hexByteValue first).isSome = true ∧ (hexByteValue second).isSome = true ∧
      escapeString buf = plain ++ escapingByte :: first :: second :: rest := by
  induction buf with
  | nil => exact ⟨[], _, _, [], by simp, by decide, by decide, rfl⟩
  | cons c buf ih =>
    have hcons : escapeString (c :: buf) = escapeByte c ++ escapeString buf := by
      rw [escapeString, List.cons_append, List.flatMap_cons, escapeString]
    by_cases hc : isAlphanumByte c = true
    · obtain ⟨plain, first, second, rest, hplain, hfirst, hsecond, heq⟩ := ih
      refine ⟨c :: plain, first, second, rest, ?_, hfirst, hsecond, ?_⟩
      · refine List.forall_mem_cons.mpr ⟨fun hpercent ↦ ?_, hplain⟩
        rw [hpercent] at hc
        exact absurd hc (by decide)
      · rw [hcons, heq, escapeByte, if_pos hc]
        rfl
    · have hlt : c.toNat < 256 := c.toNat_lt
      refine ⟨[], hexByte (c.toNat / 16), hexByte (c.toNat % 16), escapeString buf, by simp, ?_, ?_,
        ?_⟩
      · rw [hexByteValue_hexByte (by omega)]
        rfl
      · rw [hexByteValue_hexByte (by omega)]
        rfl
      · rw [hcons, escapeByte, if_neg hc]
        rfl

/-- An escaped string counts as escaped, so that it is given back as it is. -/
theorem unescapeString_escapeString (buf : List UInt8) :
    unescapeString (escapeString buf) = (escapeString buf, []) := by
  obtain ⟨plain, first, second, rest, hplain, hfirst, hsecond, heq⟩ := exists_escapeString buf
  have hidx : (escapeString buf).findIdx (· = escapingByte) = plain.length := by
    rw [heq, List.findIdx_append, List.findIdx_eq_length_of_false, if_neg (Nat.lt_irrefl _),
      List.findIdx_cons]
    · exact Nat.zero_add plain.length
    · intro c hc
      exact decide_eq_false (hplain c hc)
  have hlength : (escapeString buf).length = plain.length + (rest.length + 3) := by
    rw [heq, List.length_append]
    rfl
  have hnext : (escapeString buf).getD (plain.length + 1) 0 = first := by
    rw [heq, List.getD_append_right _ _ _ _ (Nat.le_add_right _ _), Nat.add_sub_cancel_left]
    rfl
  have hlast : (escapeString buf).getD (plain.length + 2) 0 = second := by
    rw [heq, List.getD_append_right _ _ _ _ (Nat.le_add_right _ _), Nat.add_sub_cancel_left]
    rfl
  have hescaped : isEscapedBytes (escapeString buf) = true := by
    unfold isEscapedBytes
    dsimp only
    rw [hidx, hlength, if_neg (by omega), hnext, hlast, hfirst, hsecond]
    rfl
  rw [unescapeString, if_pos hescaped]

/-- An escaped string is longer. -/
theorem length_lt_escapeString (buf : List UInt8) : buf.length < (escapeString buf).length := by
  have hpiece : ∀ c : UInt8, 1 ≤ (escapeByte c).length := by
    intro c
    unfold escapeByte
    split_ifs
    · exact Nat.le_refl 1
    · exact Nat.le_add_left 1 2
  have hle : ∀ text : List UInt8, text.length ≤ (text.flatMap escapeByte).length := by
    intro text
    induction text with
    | nil => exact Nat.le_refl 0
    | cons c rest ih =>
      rw [List.flatMap_cons, List.length_append, List.length_cons]
      have hc := hpiece c
      omega
  have hescaped := hle (buf ++ [0])
  rw [List.length_append] at hescaped
  exact hescaped

/-- For no string is the escaped form made of its characters alone, and for none does unescaping
give it back. -/
theorem escape_never_round_trips (buf : List UInt8) (hbuf : 0 ∉ buf) :
    ¬ ConsistsOf buf (escapeString buf) ∧ (unescapeString (escapeString buf)).1 ≠ buf := by
  refine ⟨not_consistsOf_escapeString hbuf, fun hback ↦ ?_⟩
  rw [unescapeString_escapeString] at hback
  have hlonger := length_lt_escapeString buf
  rw [congrArg List.length hback] at hlonger
  exact Nat.lt_irrefl _ hlonger

theorem escape_never_round_trips_word :
    ¬ ConsistsOf [97] (escapeString [97]) ∧ (unescapeString (escapeString [97])).1 ≠ [97] :=
  escape_never_round_trips [97] (by decide)

/-- The letter `a` is escaped to `a%00`, and stays so when it is unescaped. -/
theorem not_escape_round_trips :
    escapeString [97] = [97, 37, 48, 48] ∧
      unescapeString [97, 37, 48, 48] = ([97, 37, 48, 48], []) ∧
      ¬ ∀ buf : List UInt8, 0 ∉ buf →
        ConsistsOf buf (escapeString buf) ∧ (unescapeString (escapeString buf)).1 = buf := by
  refine ⟨by decide, by decide, fun hall ↦ ?_⟩
  exact not_consistsOf_escapeString (by decide) (hall [97] (by decide)).1

end Mupnp.Net
