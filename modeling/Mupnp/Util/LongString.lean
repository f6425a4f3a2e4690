import Mupnp.Util.StringFunction

/-!
# Numbers as text

`mupnp_long2str` writes a `long` in decimal, and `atol` reads it back (`atol_long2str`). What `atol`
makes of any text is the number that stands in front (`atol_eq_iff`).

Sums of `long`s wrap around (`longAdd`), so that they are sums only as far as a `long` can hold them
(`longAdd_eq_iff`).
-/

set_option autoImplicit false
set_option relaxedAutoImplicit false

namespace Mupnp.Util

/-! ### Sums -/

/-- A number that a `long` can hold. -/
def IsLong (value : ℤ) : Prop := -longMax - 1 ≤ value ∧ value ≤ longMax

instance (value : ℤ) : Decidable (IsLong value) :=
  inferInstanceAs (Decidable (-longMax - 1 ≤ value ∧ value ≤ longMax))

/-- A sum of `long`s. It wraps around where C leaves the overflow open. -/
def longAdd (a b : ℤ) : ℤ := (a + b).bmod (2 ^ 64)

theorem isLong_longAdd (a b : ℤ) : IsLong (longAdd a b) := by
  have hlower := @Int.le_bmod (a + b) (2 ^ 64) (by decide)
  have hupper := @Int.bmod_lt (a + b) (2 ^ 64) (by decide)
  unfold IsLong longAdd longMax
  omega

theorem longAdd_eq_iff {a b : ℤ} : longAdd a b = a + b ↔ IsLong (a + b) := by
  constructor
  · intro h
    exact h ▸ isLong_longAdd a b
  · intro h
    unfold IsLong longMax at h
    exact Int.bmod_eq_of_le (by omega) (by omega)

/-- A sum of `long`s that is too large for a `long` becomes negative. -/
theorem longAdd_neg {a b : ℤ} (ha : a ≤ longMax) (hb : b ≤ longMax) (hsum : longMax < a + b) :
    longAdd a b < 0 := by
  unfold longMax at *
  unfold longAdd Int.bmod
  dsimp only
  split_ifs
  · omega
  · omega

/-! ### Decimal text -/

/-- `mupnp_long2str`: the decimal digits, after a sign when the number is negative. -/
def long2str (value : ℤ) : CString :=
  if value < 0 then '-' :: Nat.toDigits 10 value.natAbs else Nat.toDigits 10 value.natAbs

/-- The numbers whose texts have at most some number of characters: the sign is one of them. -/
theorem length_long2str_le_iff {value : ℤ} {n : ℕ} (hn : 0 < n) :
    (long2str value).length ≤ n + 1 ↔ -10 ^ n < value ∧ value < 10 ^ (n + 1) := by
  have hcast : ∀ k : ℕ, ((10 ^ k : ℕ) : ℤ) = 10 ^ k := fun k ↦ Int.natCast_pow 10 k
  have hpos : 0 < 10 ^ n := Nat.pow_pos (by decide)
  rw [← hcast, ← hcast]
  unfold long2str
  split_ifs with hneg
  · rw [List.length_cons, Nat.add_le_add_iff_right, Nat.length_toDigits_le_iff (by decide) hn]
    omega
  · rw [Nat.length_toDigits_le_iff (by decide) (by omega)]
    omega

theorem digitsValue_eq_ofDigitChars {digits : CString} (hdigits : ∀ c ∈ digits, c.isDigit = true)
    (read : ℕ) : digitsValue read digits = Nat.ofDigitChars 10 digits read := by
  induction digits generalizing read with
  | nil => rfl
  | cons c rest ih =>
    rw [digitsValue, if_pos (hdigits c List.mem_cons_self), Nat.ofDigitChars_cons]
    exact ih (fun other hother ↦ hdigits other (List.mem_cons_of_mem _ hother)) _

/-- The value that leading digits have does not depend on what follows them. -/
theorem digitsValue_append {digits behind : CString} (hdigits : ∀ c ∈ digits, c.isDigit = true)
    (hbehind : ∀ c ∈ behind.head?, c.isDigit = false) (read : ℕ) :
    digitsValue read (digits ++ behind) = digitsValue read digits := by
  induction digits generalizing read with
  | nil =>
    cases behind with
    | nil => rfl
    | cons c behind =>
      have hc := hbehind c rfl
      simp [digitsValue, hc]
  | cons c digits ih =>
    rw [List.cons_append, digitsValue, digitsValue, if_pos (hdigits c List.mem_cons_self),
      if_pos (hdigits c List.mem_cons_self)]
    exact ih (fun other hother ↦ hdigits other (List.mem_cons_of_mem _ hother)) _

theorem isDigit_of_mem_toDigits {n : ℕ} {c : Char} (hc : c ∈ Nat.toDigits 10 n) :
    c.isDigit = true :=
  Nat.isDigit_of_mem_toDigits (by decide) (by decide) hc

theorem digitsValue_toDigits (n : ℕ) : digitsValue 0 (Nat.toDigits 10 n) = n := by
  rw [digitsValue_eq_ofDigitChars fun c hc ↦ isDigit_of_mem_toDigits hc,
    Nat.ofDigitChars_ten_toDigits]

/-- A digit is neither blank nor a sign. -/
theorem ne_of_isDigit {c : Char} (hc : c.isDigit = true) :
    isspace c = false ∧ c ≠ '-' ∧ c ≠ '+' := by
  have hrange : 48 ≤ c.toNat ∧ c.toNat ≤ 57 := by
    simp only [Char.isDigit, Bool.and_eq_true, decide_eq_true_eq, UInt32.le_iff_toNat_le] at hc
    exact hc
  refine ⟨?_, ?_, ?_⟩
  · rw [Bool.eq_false_iff]
    intro hspace
    simp only [isspace, Bool.or_eq_true, Bool.and_eq_true, decide_eq_true_eq] at hspace
    rcases hspace with rfl | hcontrol
    · exact absurd hrange (by decide)
    · omega
  · rintro rfl
    exact absurd hrange (by decide)
  · rintro rfl
    exact absurd hrange (by decide)

theorem atol_append_of_isspace {spaces : CString} (hspaces : ∀ c ∈ spaces, isspace c = true)
    (text : CString) : atol (spaces ++ text) = atol text := by
  rw [atol, atol, List.dropWhile_append_of_pos hspaces]

/-- A text without white space and a sign in front is read from its first character on. -/
theorem atol_cons_of_unsigned {c : Char} (hspace : isspace c = false) (hminus : c ≠ '-')
    (hplus : c ≠ '+') (rest : CString) :
    atol (c :: rest) = min longMax (digitsValue 0 (c :: rest)) := by
  rw [atol, List.dropWhile_cons_of_neg (by simp [hspace])]
  split
  · rename_i heq
    exact absurd (List.cons.inj heq).1 hminus
  · rename_i heq
    exact absurd (List.cons.inj heq).1 hplus
  · rfl

/-- A text of digits is read as their value. -/
theorem atol_of_isDigit {digits : CString} (hne : digits ≠ [])
    (hdigits : ∀ c ∈ digits, c.isDigit = true) :
    atol digits = min longMax (digitsValue 0 digits) := by
  obtain ⟨c, rest, rfl⟩ := List.exists_cons_of_ne_nil hne
  obtain ⟨hspace, hminus, hplus⟩ := ne_of_isDigit (hdigits c List.mem_cons_self)
  exact atol_cons_of_unsigned hspace hminus hplus rest

/-- The text of a length is read back as the length, up to the largest `long`. -/
theorem atol_long2str_natCast (n : ℕ) : atol (long2str n) = min longMax n := by
  rw [long2str, if_neg (by omega), Int.natAbs_natCast,
    atol_of_isDigit Nat.toDigits_ne_nil fun c hc ↦ isDigit_of_mem_toDigits hc, digitsValue_toDigits]

/-- A number that a `long` can hold is read back from its decimal text. -/
theorem atol_long2str {value : ℤ} (hpos : 0 ≤ value) (hmax : value ≤ longMax) :
    atol (long2str value) = value := by
  obtain ⟨n, rfl⟩ := Int.eq_ofNat_of_zero_le hpos
  rw [atol_long2str_natCast]
  exact Int.min_eq_right hmax

/-- A negative number that a `long` can hold is read back from its text. -/
theorem atol_long2str_of_neg {value : ℤ} (hneg : value < 0) (hmin : -longMax - 1 ≤ value) :
    atol (long2str value) = value := by
  have habs : (value.natAbs : ℤ) = -value := by omega
  rw [long2str, if_pos hneg, atol, List.dropWhile_cons_of_neg (by decide)]
  simp only [digitsValue_toDigits, habs, neg_neg]
  exact Int.max_eq_right hmin

/-! ### The number in front of a text -/

/-- A text of digits after an optional sign, and its value. -/
def IsNumeral (text : CString) (value : ℤ) : Prop :=
  ∃ digits : CString, (∀ c ∈ digits, c.isDigit = true) ∧
    (text = '-' :: digits ∧ value = -(digitsValue 0 digits : ℤ) ∨
      (text = '+' :: digits ∨ text = digits) ∧ value = digitsValue 0 digits)

theorem digitsValue_append_cons {stop : Char} (hstop : stop.isDigit = false)
    (text behind behind' : CString) (read : ℕ) :
    digitsValue read (text ++ stop :: behind) = digitsValue read (text ++ stop :: behind') := by
  induction text generalizing read with
  | nil => simp [digitsValue, hstop]
  | cons c rest ih => rw [List.cons_append, List.cons_append, digitsValue, digitsValue, ih]

/-- What stands behind a character that is no part of a number does not count. -/
theorem atol_append_cons {stop : Char} (hstop : isspace stop = false ∧ stop.isDigit = false ∧
    stop ≠ '-' ∧ stop ≠ '+') (front behind behind' : CString) :
    atol (front ++ stop :: behind) = atol (front ++ stop :: behind') := by
  obtain ⟨hspace, hdigit, hminus, hplus⟩ := hstop
  have hdigits := digitsValue_append_cons hdigit
  induction front with
  | nil =>
    have hvalue := hdigits [] behind behind' 0
    simp only [List.nil_append] at hvalue ⊢
    rw [atol_cons_of_unsigned hspace hminus hplus, atol_cons_of_unsigned hspace hminus hplus,
      hvalue]
  | cons c rest ih =>
    by_cases hc : isspace c = true
    · rw [List.cons_append, List.cons_append, atol, atol, List.dropWhile_cons_of_pos hc,
        List.dropWhile_cons_of_pos hc]
      exact ih
    · by_cases hneg : c = '-'
      · subst hneg
        rw [List.cons_append, List.cons_append, atol, atol, List.dropWhile_cons_of_neg hc,
          List.dropWhile_cons_of_neg hc]
        simp only [hdigits rest behind behind']
      · by_cases hpos : c = '+'
        · subst hpos
          rw [List.cons_append, List.cons_append, atol, atol, List.dropWhile_cons_of_neg hc,
            List.dropWhile_cons_of_neg hc]
          simp only [hdigits rest behind behind']
        · have hnot : isspace c = false := Bool.eq_false_iff.mpr hc
          have hvalue := hdigits (c :: rest) behind behind' 0
          rw [List.cons_append, List.cons_append] at hvalue ⊢
          rw [atol_cons_of_unsigned hnot hneg hpos, atol_cons_of_unsigned hnot hneg hpos, hvalue]

/-- A text in front of which a number stands behind white space, limited to the range of `long`. The
number is as long as it can be, and it is zero where there are no digits. -/
def StartsWithNumber (text : CString) (n : ℤ) : Prop :=
  ∃ spaces numeral rest value, text = spaces ++ (numeral ++ rest) ∧
    (∀ c ∈ spaces, isspace c = true) ∧ IsNumeral numeral value ∧
    (∀ c ∈ rest.head?, c.isDigit = false) ∧
    (numeral = [] → ∀ c ∈ rest.head?, isspace c = false ∧ c ≠ '-' ∧ c ≠ '+') ∧
    n = max (-longMax - 1) (min longMax value)

/-- The digits that a text starts with, and what follows them. -/
theorem exists_digits (text : CString) :
    ∃ digits rest, text = digits ++ rest ∧ (∀ c ∈ digits, c.isDigit = true) ∧
      ∀ c ∈ rest.head?, c.isDigit = false := by
  refine ⟨text.takeWhile (·.isDigit), text.dropWhile (·.isDigit),
    List.takeWhile_append_dropWhile.symm, fun c hc ↦ List.mem_takeWhile_imp hc, fun c hc ↦ ?_⟩
  have hhead := List.head?_dropWhile_not (·.isDigit) text
  rw [Option.mem_def.mp hc] at hhead
  simpa using hhead

/-- What `atol` reads in front of a text behind white space. -/
theorem atol_append {spaces numeral rest : CString} {value : ℤ}
    (hspaces : ∀ c ∈ spaces, isspace c = true) (hnumeral : IsNumeral numeral value)
    (hrest : ∀ c ∈ rest.head?, c.isDigit = false)
    (hempty : numeral = [] → ∀ c ∈ rest.head?, isspace c = false ∧ c ≠ '-' ∧ c ≠ '+') :
    atol (spaces ++ (numeral ++ rest)) = max (-longMax - 1) (min longMax value) := by
  have hmax : (0 : ℤ) ≤ longMax := by decide
  obtain ⟨digits, hdigits, ⟨rfl, rfl⟩ | ⟨rfl | rfl, rfl⟩⟩ := hnumeral
  · rw [atol, List.dropWhile_append_of_pos hspaces, List.cons_append,
      List.dropWhile_cons_of_neg (by decide)]
    have hvalue := digitsValue_append hdigits hrest 0
    simp only [hvalue]
    omega
  · rw [atol, List.dropWhile_append_of_pos hspaces, List.cons_append,
      List.dropWhile_cons_of_neg (by decide)]
    have hvalue := digitsValue_append hdigits hrest 0
    simp only [hvalue]
    omega
  · have hhead : ∀ c ∈ (numeral ++ rest).head?, isspace c = false ∧ c ≠ '-' ∧ c ≠ '+' := by
      cases numeral with
      | nil => exact hempty rfl
      | cons d numeral =>
        intro c hc
        obtain rfl : d = c := Option.some.inj hc
        exact ne_of_isDigit (hdigits d List.mem_cons_self)
    have hvalue := digitsValue_append hdigits hrest 0
    rw [atol_append_of_isspace hspaces]
    cases htext : numeral ++ rest with
    | nil =>
      obtain ⟨rfl, rfl⟩ := List.append_eq_nil_iff.mp htext
      decide
    | cons c behind =>
      rw [htext] at hhead hvalue
      obtain ⟨hspace, hminus, hplus⟩ := hhead c rfl
      rw [atol_cons_of_unsigned hspace hminus hplus, hvalue]
      omega

/-- `atol` reads the number that stands in front. -/
theorem atol_eq_iff {text : CString} {n : ℤ} : atol text = n ↔ StartsWithNumber text n := by
  constructor
  · rintro rfl
    have hsplit : text = text.takeWhile isspace ++ text.dropWhile isspace :=
      List.takeWhile_append_dropWhile.symm
    have hspaces : ∀ c ∈ text.takeWhile isspace, isspace c = true :=
      fun c hc ↦ List.mem_takeWhile_imp hc
    have hhead : ∀ c ∈ (text.dropWhile isspace).head?, isspace c = false := by
      intro c hc
      have hnot := List.head?_dropWhile_not isspace text
      rw [Option.mem_def.mp hc] at hnot
      simpa using hnot
    obtain ⟨numeral, rest, value, htext, hnumeral, hrest, hempty⟩ :
        ∃ numeral rest value, text.dropWhile isspace = numeral ++ rest ∧
          IsNumeral numeral value ∧ (∀ c ∈ rest.head?, c.isDigit = false) ∧
          (numeral = [] → ∀ c ∈ rest.head?, isspace c = false ∧ c ≠ '-' ∧ c ≠ '+') := by
      by_cases hsign : ∃ sign behind, text.dropWhile isspace = sign :: behind ∧
          (sign = '-' ∨ sign = '+')
      · obtain ⟨sign, behind, heq, hsign⟩ := hsign
        obtain ⟨digits, rest, rfl, hdigits, hrest⟩ := exists_digits behind
        rcases hsign with rfl | rfl
        · exact ⟨'-' :: digits, rest, _, heq, ⟨digits, hdigits, Or.inl ⟨rfl, rfl⟩⟩, hrest,
            fun h ↦ absurd h (List.cons_ne_nil _ _)⟩
        · exact ⟨'+' :: digits, rest, _, heq, ⟨digits, hdigits, Or.inr ⟨Or.inl rfl, rfl⟩⟩, hrest,
            fun h ↦ absurd h (List.cons_ne_nil _ _)⟩
      · obtain ⟨digits, rest, heq, hdigits, hrest⟩ := exists_digits (text.dropWhile isspace)
        refine ⟨digits, rest, _, heq, ⟨digits, hdigits, Or.inr ⟨Or.inr rfl, rfl⟩⟩, hrest, ?_⟩
        rintro rfl c hc
        rw [List.nil_append] at heq
        have hnot : ¬ (c = '-' ∨ c = '+') := fun hc' ↦
          hsign ⟨c, rest.tail, heq.trans (List.cons_head?_tail hc).symm, hc'⟩
        rw [not_or] at hnot
        exact ⟨hhead c (heq ▸ hc), hnot⟩
    refine ⟨_, numeral, rest, value, by rw [← htext, ← hsplit], hspaces, hnumeral, hrest,
      hempty, ?_⟩
    conv_lhs => rw [hsplit, htext]
    exact atol_append hspaces hnumeral hrest hempty
  · rintro ⟨spaces, numeral, rest, value, rfl, hspaces, hnumeral, hrest, hempty, rfl⟩
    exact atol_append hspaces hnumeral hrest hempty

theorem isLong_str2long (str : Option CString) : IsLong (str2long str) := by
  cases str with
  | none => exact ⟨by decide, by decide⟩
  | some text =>
    obtain ⟨-, -, -, value, -, -, -, -, -, hvalue⟩ := atol_eq_iff.mp (rfl : atol text = atol text)
    show IsLong (atol text)
    rw [hvalue]
    unfold IsLong longMax
    omega

end Mupnp.Util
