import Mupnp.Foundation.ListCut
import Mupnp.Http.HttpRoundTrip

/-!
# The line in front of a chunk

Which lines the reader of a chunk takes for a size (`lineSize_eq_some_iff`), beside the lines that
say one: digits in base sixteen, perhaps an extension, and the line end. The two are the same except
on three kinds of lines (`lineSize_iff_isSizeLine_iff`): the reader also takes digits behind `0x`
and digits behind which a carriage return stands within the line, and it loses the line end behind
digits that fill its buffer.
-/

set_option autoImplicit false
set_option relaxedAutoImplicit false

namespace Mupnp.Http

open Foundation Net Util

/-- The size that is read in a line, which comes without its line feed. -/
def lineSize (line : CString) : Option ℕ :=
  HttpPacket.chunkLength (bufferString ((line ++ ['\n']).take (readlineBufSize - 1)))

/-- The number that digits in base sixteen stand for. -/
def hexNumber (digits : CString) : ℕ :=
  digits.foldl (fun read c ↦ 16 * read + (HttpPacket.hexDigit c).getD 0) 0

/-- Digits in base sixteen that stand for a size; one byte more than the size has to fit a `long`.
-/
structure IsSize (digits : CString) (size : ℕ) : Prop where
  ne_nil : digits ≠ []
  digit : ∀ c ∈ digits, (HttpPacket.hexDigit c).isSome = true
  value : hexNumber digits = size
  fits : (size : ℤ) ≤ longMax - 1

/-- What may follow the digits of a size: the line end, or an extension. -/
def EndsSize (behind : CString) : Prop :=
  behind = [] ∨ behind = ['\r'] ∨ behind.head? = some ';'

instance (behind : CString) : Decidable (EndsSize behind) :=
  inferInstanceAs (Decidable (behind = [] ∨ behind = ['\r'] ∨ behind.head? = some ';'))

/-- What follows the digits when the reader accepts a size. -/
def StopsSize (behind : CString) : Prop :=
  behind = [] ∨ behind.head? = some '\r' ∨ behind.head? = some ';'

/-- A line that says a size, without its line feed. -/
def IsSizeLine (line : CString) (size : ℕ) : Prop :=
  ∃ digits behind, line = digits ++ behind ∧ IsSize digits size ∧ EndsSize behind

/-- What the reader skips in front of digits. -/
def IsHexPrefix (front : CString) : Prop := front = "0x".toList ∨ front = "0X".toList

/-! ### Digits -/

theorem hexDigit_eq_none {c : Char}
    (h : c = '\r' ∨ c = '\n' ∨ c = ';' ∨ c = 'x' ∨ c = 'X' ∨ c = '\x00') :
    HttpPacket.hexDigit c = none := by
  rcases h with rfl | rfl | rfl | rfl | rfl | rfl <;> decide

theorem hexValue_eq (read : ℕ) (text : CString) :
    ∃ digits rest, HttpPacket.hexValue read text = (digits.foldl
        (fun read c ↦ 16 * read + (HttpPacket.hexDigit c).getD 0) read, rest) ∧
      text = digits ++ rest ∧ (∀ c ∈ digits, (HttpPacket.hexDigit c).isSome = true) ∧
      ∀ c ∈ rest.head?, HttpPacket.hexDigit c = none := by
  induction text generalizing read with
  | nil => exact ⟨[], [], rfl, rfl, by simp, by simp⟩
  | cons c text ih =>
    cases hc : HttpPacket.hexDigit c with
    | none =>
      refine ⟨[], c :: text, ?_, rfl, by simp, by simpa using hc⟩
      rw [HttpPacket.hexValue, hc]
      rfl
    | some digit =>
      obtain ⟨digits, rest, hvalue, rfl, hdigits, hrest⟩ := ih (16 * read + digit)
      refine ⟨c :: digits, rest, ?_, rfl, ?_, hrest⟩
      · rw [HttpPacket.hexValue, hc]
        simp only [hvalue, List.foldl_cons, hc, Option.getD_some]
      · intro d hd
        rcases List.mem_cons.mp hd with rfl | hmem
        · rw [hc]
          rfl
        · exact hdigits d hmem

/-- Digits end where the next character is none. -/
theorem digits_inj {digits digits' behind behind' : CString}
    (h : ∀ c ∈ digits, (HttpPacket.hexDigit c).isSome = true)
    (h' : ∀ c ∈ digits', (HttpPacket.hexDigit c).isSome = true)
    (hbehind : ∀ c ∈ behind.head?, HttpPacket.hexDigit c = none)
    (hbehind' : ∀ c ∈ behind'.head?, HttpPacket.hexDigit c = none)
    (heq : digits ++ behind = digits' ++ behind') : digits = digits' ∧ behind = behind' :=
  @append_inj_of_head Char (fun c ↦ (HttpPacket.hexDigit c).isSome) digits digits' behind behind'
    h h' (fun c hc ↦ by rw [hbehind c hc]; rfl) (fun c hc ↦ by rw [hbehind' c hc]; rfl) heq

theorem StopsSize.head {behind : CString} (h : StopsSize behind) :
    ∀ c ∈ behind.head?, HttpPacket.hexDigit c = none := by
  intro c hc
  rcases h with rfl | hhead | hhead
  · cases hc
  · rw [hhead] at hc
    exact hexDigit_eq_none (Or.inl (Option.some.inj hc).symm)
  · rw [hhead] at hc
    exact hexDigit_eq_none (Or.inr (Or.inr (Or.inl (Option.some.inj hc).symm)))

theorem EndsSize.stopsSize {behind : CString} (h : EndsSize behind) : StopsSize behind := by
  rcases h with hnil | rfl | hhead
  · exact Or.inl hnil
  · exact Or.inr (Or.inl rfl)
  · exact Or.inr (Or.inr hhead)

/-! ### What the reader accepts -/

theorem skipHexPrefix_eq (text : CString) :
    HttpPacket.skipHexPrefix text = text ∨
      ∃ front c rest, IsHexPrefix front ∧ text = front ++ c :: rest ∧
        (HttpPacket.hexDigit c).isSome = true ∧ HttpPacket.skipHexPrefix text = c :: rest := by
  unfold HttpPacket.skipHexPrefix
  split
  next x c rest =>
    split_ifs with h
    · refine Or.inr ⟨['0', x], c, rest, ?_, rfl, h.2, rfl⟩
      rcases h.1 with rfl | rfl
      · exact Or.inl rfl
      · exact Or.inr rfl
    · exact Or.inl rfl
  · exact Or.inl rfl

theorem skipHexPrefix_append {front : CString} (hfront : IsHexPrefix front) {c : Char}
    (hc : (HttpPacket.hexDigit c).isSome = true) (rest : CString) :
    HttpPacket.skipHexPrefix (front ++ c :: rest) = c :: rest := by
  rcases hfront with rfl | rfl
  · exact if_pos ⟨Or.inl rfl, hc⟩
  · exact if_pos ⟨Or.inr rfl, hc⟩

theorem skipHexPrefix_of_digits {digits : CString} (hne : digits ≠ [])
    (hdigits : ∀ c ∈ digits, (HttpPacket.hexDigit c).isSome = true) {c : Char}
    (hc : c ≠ 'x' ∧ c ≠ 'X') (rest : CString) :
    HttpPacket.skipHexPrefix (digits ++ c :: rest) = digits ++ c :: rest := by
  have hletter : ∀ d ∈ digits, d ≠ 'x' ∧ d ≠ 'X' := by
    intro d hd
    have hdigit := hdigits d hd
    constructor <;>
    · rintro rfl
      exact absurd hdigit (by decide)
  unfold HttpPacket.skipHexPrefix
  split
  next x d later heq =>
    rw [heq]
    refine if_neg fun hskip ↦ ?_
    have hx : x ≠ 'x' ∧ x ≠ 'X' := by
      obtain ⟨first, digits, rfl⟩ := List.exists_cons_of_ne_nil hne
      cases digits with
      | nil =>
        obtain ⟨-, htail⟩ := List.cons.inj heq
        rw [← (List.cons.inj htail).1]
        exact hc
      | cons second digits =>
        obtain ⟨-, htail⟩ := List.cons.inj heq
        rw [← (List.cons.inj htail).1]
        exact hletter second (List.mem_cons_of_mem _ List.mem_cons_self)
    rcases hskip.1 with rfl | rfl
    · exact hx.1 rfl
    · exact hx.2 rfl
  · rfl

/-- The length in a text: digits, perhaps behind `0x`, in front of a character that ends them. -/
theorem chunkLength_eq_some_iff {text : CString} {size : ℕ} :
    HttpPacket.chunkLength text = some size ↔
      ∃ front digits c rest, text = front ++ (digits ++ c :: rest) ∧
        (front = [] ∨ IsHexPrefix front) ∧ IsSize digits size ∧
        (c = ';' ∨ c = '\r' ∨ c = '\n') := by
  constructor
  · intro h
    unfold HttpPacket.chunkLength at h
    split_ifs at h with hhead
    obtain ⟨digits, rest, hvalue, hskip, hdigits, -⟩ :=
      hexValue_eq 0 (HttpPacket.skipHexPrefix text)
    simp only [hvalue] at h
    split_ifs at h with hstop hfits
    obtain rfl := Option.some.inj h
    obtain ⟨c, rest, rfl⟩ : ∃ c rest', rest = c :: rest' := by
      cases rest with
      | nil => simp at hstop
      | cons c rest => exact ⟨c, rest, rfl⟩
    have hc : c = ';' ∨ c = '\r' ∨ c = '\n' := by simpa using hstop
    have hne : (∃ d later, HttpPacket.skipHexPrefix text = d :: later ∧
        (HttpPacket.hexDigit d).isSome = true) → digits ≠ [] := by
      rintro ⟨d, later, heq, hd⟩ rfl
      rw [heq, List.nil_append] at hskip
      obtain ⟨rfl, -⟩ := List.cons.inj hskip
      rw [hexDigit_eq_none (by tauto)] at hd
      cases hd
    have hfits' : (hexNumber digits : ℤ) ≤ longMax - 1 := Int.not_lt.mp hfits
    rcases skipHexPrefix_eq text with hself | ⟨front, d, later, hfront, rfl, hd, heq⟩
    · refine ⟨[], digits, c, rest, hself.symm.trans hskip, Or.inl rfl,
        ⟨hne ?_, hdigits, rfl, hfits'⟩, hc⟩
      cases text with
      | nil => simp at hhead
      | cons d later => exact ⟨d, later, hself, by simpa [Option.isSome_iff_ne_none] using hhead⟩
    · refine ⟨front, digits, c, rest, ?_, Or.inr hfront,
        ⟨hne ⟨d, later, heq, hd⟩, hdigits, rfl, hfits'⟩, hc⟩
      rw [← hskip, heq]
  · rintro ⟨front, digits, c, rest, rfl, hfront, hsize, hc⟩
    have hnone : HttpPacket.hexDigit c = none := hexDigit_eq_none (by tauto)
    obtain ⟨d, later, hcons⟩ := List.exists_cons_of_ne_nil hsize.ne_nil
    have hd : (HttpPacket.hexDigit d).isSome = true := hsize.digit d (by rw [hcons]; simp)
    have hskip : HttpPacket.skipHexPrefix (front ++ (digits ++ c :: rest)) =
        digits ++ c :: rest := by
      rcases hfront with rfl | hfront
      · refine skipHexPrefix_of_digits hsize.ne_nil hsize.digit ⟨?_, ?_⟩ rest <;>
        · rintro rfl
          simp at hc
      · rw [hcons, List.cons_append]
        exact skipHexPrefix_append hfront hd _
    have hhead : ¬ ((front ++ (digits ++ c :: rest)).head?.bind
        HttpPacket.hexDigit).isNone = true := by
      rcases hfront with rfl | rfl | rfl
      · rw [hcons]
        simpa using Option.isSome_iff_ne_none.mp hd
      · exact (by decide : ¬ (HttpPacket.hexDigit '0').isNone = true)
      · exact (by decide : ¬ (HttpPacket.hexDigit '0').isNone = true)
    obtain ⟨digits', rest', hvalue, happend, hdigits', hrest'⟩ :=
      hexValue_eq 0 (digits ++ c :: rest)
    obtain ⟨rfl, rfl⟩ := digits_inj hsize.digit hdigits' (by simpa using hnone) hrest' happend
    have hnumber : digits.foldl
        (fun read c ↦ 16 * read + (HttpPacket.hexDigit c).getD 0) 0 = size := hsize.value
    have hfits := hsize.fits
    have hrange : ¬ longMax - 1 < (size : ℤ) := by omega
    unfold HttpPacket.chunkLength
    rw [if_neg hhead]
    simp only [hskip, hvalue, hnumber]
    rw [if_pos (by simpa using hc), if_neg hrange]

/-- The size in a line: its digits stand within the buffer, perhaps behind `0x`. -/
theorem lineSize_eq_some_iff {line : CString} (hline : '\n' ∉ line) {size : ℕ} :
    lineSize line = some size ↔
      ∃ front digits behind, line = front ++ (digits ++ behind) ∧
        (front = [] ∨ IsHexPrefix front) ∧ IsSize digits size ∧ StopsSize behind ∧
        (front ++ digits).length < readlineBufSize - 1 := by
  unfold lineSize
  rw [chunkLength_eq_some_iff]
  constructor
  · rintro ⟨front, digits, c, rest, heq, hfront, hsize, hc⟩
    have hbuffer : bufferString ((line ++ ['\n']).take (readlineBufSize - 1)) <+:
        (line ++ ['\n']).take (readlineBufSize - 1) := List.takeWhile_prefix _
    have hlength : (front ++ digits).length < readlineBufSize - 1 := by
      have hle := hbuffer.length_le
      rw [heq, List.length_take] at hle
      simp only [List.length_append, List.length_cons] at hle ⊢
      omega
    obtain ⟨later, hlater⟩ := hbuffer.trans (List.take_prefix _ _)
    rw [heq] at hlater
    have hwhole : front ++ (digits ++ c :: (rest ++ later)) = line ++ ['\n'] := by
      rw [← hlater]
      simp
    rcases List.eq_nil_or_concat' (rest ++ later) with hnil | ⟨behind, last, hlast⟩
    · rw [hnil, ← List.append_assoc] at hwhole
      obtain ⟨hshort, -⟩ := List.append_inj' hwhole rfl
      exact ⟨front, digits, [], by rw [← hshort, List.append_nil], hfront, hsize, Or.inl rfl,
        hlength⟩
    · rw [hlast, ← List.cons_append, ← List.append_assoc, ← List.append_assoc] at hwhole
      obtain ⟨hlong, -⟩ := List.append_inj' hwhole rfl
      rw [List.append_assoc] at hlong
      refine ⟨front, digits, c :: behind, hlong.symm, hfront, hsize, ?_, hlength⟩
      rcases hc with rfl | rfl | rfl
      · exact Or.inr (Or.inr rfl)
      · exact Or.inr (Or.inl rfl)
      · exact absurd (by rw [← hlong]; simp) hline
  · rintro ⟨front, digits, behind, rfl, hfront, hsize, hstops, hlength⟩
    obtain ⟨c, rest, hrest, hc⟩ : ∃ c rest, behind ++ ['\n'] = c :: rest ∧
        (c = ';' ∨ c = '\r' ∨ c = '\n') := by
      cases behind with
      | nil => exact ⟨'\n', [], rfl, Or.inr (Or.inr rfl)⟩
      | cons c behind =>
        refine ⟨c, behind ++ ['\n'], rfl, ?_⟩
        rcases hstops with hnil | hhead | hhead
        · cases hnil
        · exact Or.inr (Or.inl (Option.some.inj hhead))
        · exact Or.inl (Option.some.inj hhead)
    have hdigitChar : ∀ d ∈ digits, d ≠ '\x00' := by
      rintro d hd rfl
      exact absurd (hsize.digit _ hd) (by decide)
    have hfrontChar : ∀ d ∈ front, d ≠ '\x00' := by
      rcases hfront with rfl | rfl | rfl <;> decide
    have hchar : ∀ d ∈ front ++ (digits ++ [c]), decide (d ≠ '\x00') = true := by
      intro d hd
      rw [decide_eq_true_eq]
      rcases List.mem_append.mp hd with hmem | hmem
      · exact hfrontChar d hmem
      · rcases List.mem_append.mp hmem with hmem | hmem
        · exact hdigitChar d hmem
        · rw [List.mem_singleton.mp hmem]
          rcases hc with rfl | rfl | rfl <;> decide
    have hsplit : front ++ (digits ++ behind) ++ ['\n'] =
        (front ++ (digits ++ [c])) ++ rest := by
      rw [List.append_assoc, List.append_assoc, hrest]
      simp
    obtain ⟨room, hroom⟩ : ∃ room, readlineBufSize - 1 =
        (front ++ (digits ++ [c])).length + room := by
      refine ⟨readlineBufSize - 1 - (front ++ (digits ++ [c])).length, ?_⟩
      simp only [List.length_append, List.length_singleton] at hlength ⊢
      omega
    refine ⟨front, digits, c, (rest.take room).takeWhile (· ≠ '\x00'), ?_, hfront, hsize, hc⟩
    unfold bufferString
    rw [hsplit, hroom, List.take_length_add_append, List.takeWhile_append_of_pos hchar]
    simp

/-! ### Lines that say a size -/

/-- The digits that a line begins with, and what stands behind them. -/
def leadingDigits (line : CString) : CString :=
  line.takeWhile fun c ↦ (HttpPacket.hexDigit c).isSome

def behindDigits (line : CString) : CString :=
  line.dropWhile fun c ↦ (HttpPacket.hexDigit c).isSome

theorem leadingDigits_append {digits behind : CString}
    (hdigits : ∀ c ∈ digits, (HttpPacket.hexDigit c).isSome = true)
    (hbehind : ∀ c ∈ behind.head?, HttpPacket.hexDigit c = none) :
    leadingDigits (digits ++ behind) = digits ∧ behindDigits (digits ++ behind) = behind := by
  have hwhole : leadingDigits (digits ++ behind) ++ behindDigits (digits ++ behind) =
      digits ++ behind := List.takeWhile_append_dropWhile
  have hfront : leadingDigits (digits ++ behind) = digits :=
    takeWhile_append_of_head hdigits fun c hc ↦ by rw [hbehind c hc]; rfl
  rw [hfront] at hwhole
  exact ⟨hfront, List.append_cancel_left hwhole⟩

theorem isSizeLine_iff {line : CString} {size : ℕ} :
    IsSizeLine line size ↔ IsSize (leadingDigits line) size ∧ EndsSize (behindDigits line) := by
  constructor
  · rintro ⟨digits, behind, rfl, hsize, hends⟩
    obtain ⟨hleading, hleft⟩ := leadingDigits_append hsize.digit hends.stopsSize.head
    rw [hleading, hleft]
    exact ⟨hsize, hends⟩
  · rintro ⟨hsize, hends⟩
    exact ⟨_, _, List.takeWhile_append_dropWhile.symm, hsize, hends⟩

theorem isSizeLine_unique {line : CString} {size size' : ℕ} (h : IsSizeLine line size)
    (h' : IsSizeLine line size') : size = size' := by
  rw [← (isSizeLine_iff.mp h).1.value, (isSizeLine_iff.mp h').1.value]

/-- Digits behind `0x` are not the digits that the line begins with. -/
theorem not_endsSize_of_isHexPrefix {front : CString} (hfront : IsHexPrefix front)
    (rest : CString) : ¬ EndsSize (behindDigits (front ++ rest)) := by
  have hletter : ∀ letter, letter = 'x' ∨ letter = 'X' →
      behindDigits ('0' :: letter :: rest) = letter :: rest := by
    intro letter hletter
    refine (@leadingDigits_append ['0'] (letter :: rest) (by decide) ?_).2
    intro c hc
    obtain rfl := Option.some.inj hc
    exact hexDigit_eq_none (by tauto)
  rcases hfront with rfl | rfl
  · have hbehind : behindDigits ("0x".toList ++ rest) = 'x' :: rest := hletter 'x' (Or.inl rfl)
    rw [hbehind]
    rintro (hnil | hreturn | hhead)
    · cases hnil
    · cases hreturn
    · cases hhead
  · have hbehind : behindDigits ("0X".toList ++ rest) = 'X' :: rest := hletter 'X' (Or.inr rfl)
    rw [hbehind]
    rintro (hnil | hreturn | hhead)
    · cases hnil
    · cases hreturn
    · cases hhead

/-- A line that is accepted says the size when what stands behind its digits ends one. -/
theorem isSizeLine_iff_of_lineSize {line : CString} (hline : '\n' ∉ line) {size : ℕ}
    (h : lineSize line = some size) : IsSizeLine line size ↔ EndsSize (behindDigits line) := by
  refine ⟨fun hsaid ↦ (isSizeLine_iff.mp hsaid).2, fun hends ↦ ?_⟩
  obtain ⟨front, digits, behind, rfl, hfront, hsize, hstops, -⟩ := (lineSize_eq_some_iff hline).mp h
  rcases hfront with rfl | hfront
  · rw [List.nil_append] at hends ⊢
    obtain ⟨-, hbehind⟩ := leadingDigits_append hsize.digit hstops.head
    rw [hbehind] at hends
    exact ⟨digits, behind, rfl, hsize, hends⟩
  · exact absurd hends (not_endsSize_of_isHexPrefix hfront _)

/-- A line that says a size is accepted when its digits leave room in the buffer. -/
theorem lineSize_of_isSizeLine {line : CString} (hline : '\n' ∉ line) {size : ℕ}
    (h : IsSizeLine line size) :
    lineSize line = some size ↔ (leadingDigits line).length < readlineBufSize - 1 := by
  obtain ⟨hsaid, hends⟩ := isSizeLine_iff.mp h
  have hwhole : leadingDigits line ++ behindDigits line = line := List.takeWhile_append_dropWhile
  rw [lineSize_eq_some_iff hline]
  constructor
  · rintro ⟨front, digits, behind, rfl, hfront, hsize, hstops, hlength⟩
    rcases hfront with rfl | hfront
    · rw [List.nil_append] at hlength ⊢
      rw [(leadingDigits_append hsize.digit hstops.head).1]
      exact hlength
    · exact absurd hends (not_endsSize_of_isHexPrefix hfront _)
  · intro hlength
    exact ⟨[], leadingDigits line, behindDigits line, hwhole.symm, Or.inl rfl, hsaid,
      hends.stopsSize, hlength⟩

/-- The lines that are accepted exactly when they say a size: there is no size behind `0x`, no
carriage return within the line behind the digits, and the digits of a size leave room in the
buffer. -/
structure IsRegularLine (line : CString) : Prop where
  unprefixed : ∀ front digits behind size, IsHexPrefix front → line = front ++ (digits ++ behind) →
    IsSize digits size → StopsSize behind → readlineBufSize - 1 ≤ (front ++ digits).length
  lineEnd : ∀ digits behind size, line = digits ++ behind → IsSize digits size →
    StopsSize behind → digits.length < readlineBufSize - 1 → EndsSize behind
  short : ∀ digits behind size, line = digits ++ behind → IsSize digits size → EndsSize behind →
    digits.length < readlineBufSize - 1

/-- Exactly the regular lines are accepted if and only if they say a size. -/
theorem lineSize_iff_isSizeLine_iff {line : CString} (hline : '\n' ∉ line) :
    (∀ size, lineSize line = some size ↔ IsSizeLine line size) ↔ IsRegularLine line := by
  constructor
  · intro hall
    refine ⟨?_, ?_, ?_⟩
    · intro front digits behind size hfront heq hsize hstops
      by_contra hlength
      have haccepted := (lineSize_eq_some_iff hline).mpr
        ⟨front, digits, behind, heq, Or.inr hfront, hsize, hstops, by omega⟩
      have hends := (isSizeLine_iff_of_lineSize hline haccepted).mp ((hall size).mp haccepted)
      rw [heq] at hends
      exact not_endsSize_of_isHexPrefix hfront _ hends
    · intro digits behind size heq hsize hstops hlength
      have haccepted := (lineSize_eq_some_iff hline).mpr
        ⟨[], digits, behind, heq, Or.inl rfl, hsize, hstops, hlength⟩
      have hends := (isSizeLine_iff_of_lineSize hline haccepted).mp ((hall size).mp haccepted)
      rw [heq, (leadingDigits_append hsize.digit hstops.head).2] at hends
      exact hends
    · intro digits behind size heq hsize hends
      have hsaid : IsSizeLine line size := ⟨digits, behind, heq, hsize, hends⟩
      have hlength := (lineSize_of_isSizeLine hline hsaid).mp ((hall size).mpr hsaid)
      rw [heq, (leadingDigits_append hsize.digit hends.stopsSize.head).1] at hlength
      exact hlength
  · intro hregular size
    constructor
    · intro haccepted
      obtain ⟨front, digits, behind, heq, hfront, hsize, hstops, hlength⟩ :=
        (lineSize_eq_some_iff hline).mp haccepted
      rcases hfront with rfl | hfront
      · exact ⟨digits, behind, heq, hsize,
          hregular.lineEnd digits behind size heq hsize hstops hlength⟩
      · have hlong := hregular.unprefixed front digits behind size hfront heq hsize hstops
        omega
    · intro hsaid
      obtain ⟨hsize, hends⟩ := isSizeLine_iff.mp hsaid
      exact (lineSize_of_isSizeLine hline hsaid).mpr
        (hregular.short _ _ size List.takeWhile_append_dropWhile.symm hsize hends)

end Mupnp.Http
