import Mathlib.Algebra.Group.Int.Defs
import Mathlib.Algebra.Group.Nat.Defs
import Mathlib.Algebra.GroupWithZero.Nat
import Mathlib.Data.List.DropRight
import Mathlib.Data.List.Infix
import Mathlib.Tactic.Common
import Mupnp.Foundation.CharText

/-!
# C strings and their functions

`util/string_function.c` and the part of `util/string.c` that decides what a string object holds.
A C string is the list of its characters before the terminator, and a `char*` that may be `NULL`
an `Option` of one. An `mUpnpString` is modelled by its content: `none` when it has no buffer.

`stringSetValue` is `mupnp_string_setvalue`, which leaves the content as it is when it is given
`NULL`; `stringSetNValue` is `mupnp_string_setnvalue`, which clears it.
-/

set_option autoImplicit false
set_option relaxedAutoImplicit false

namespace Mupnp.Util

/-- The characters of a C string before its terminator. -/
abbrev CString := List Char

/-- `mupnp_strlen`: the length of a string, and zero for `NULL`. -/
def strlen (str : Option CString) : ℕ := (str.getD []).length

/-- The number of bytes of a string in UTF-8. -/
def byteLength (str : CString) : ℕ := (str.map Char.utf8Size).sum

/-- `mupnp_strcmp`: `NULL` compares below on the left and above on the right, also with itself. -/
def strcmp : Option CString → Option CString → ℤ
  | none, _ => -1
  | some _, none => 1
  | some str1, some str2 => if str1 = str2 then 0 else if str1 < str2 then -1 else 1

/-- `mupnp_streq`: two strings are equal; a missing string equals nothing. -/
def streq : Option CString → Option CString → Bool
  | some str1, some str2 => strcmp (some str1) (some str2) == 0
  | _, _ => false

/-- `mupnp_strcasecmp(str1, str2) == 0`, on strings that are present. -/
def strcaseeq (str1 str2 : CString) : Bool := str1.map Char.toLower == str2.map Char.toLower

/-- The position of the first occurrence of a string in another one. -/
def indexOf (needle : CString) : CString → Option ℕ
  | [] => if needle = [] then some 0 else none
  | c :: rest => if needle.isPrefixOf (c :: rest) then some 0 else (indexOf needle rest).map (· + 1)

/-- `mupnp_strstr`: the position of the first occurrence, or `-1`. -/
def strstr (haystack needle : Option CString) : ℤ :=
  match haystack, needle with
  | some haystack, some needle =>
    match indexOf needle haystack with
    | some position => position
    | none => -1
  | _, _ => -1

/-- `mupnp_strrtrim`: the string without its trailing delimiters. -/
def strrtrim (str : CString) (delim : CString) : CString := str.rdropWhile (delim.contains ·)

/-- `mupnp_strtrim`: the string without the delimiters at both of its ends. -/
def strtrim (str : CString) (delim : CString) : CString :=
  strrtrim (str.dropWhile (delim.contains ·)) delim

/-- The characters that `atol` skips in front of a number. -/
def isspace (c : Char) : Bool := c = ' ' || (9 ≤ c.toNat && c.toNat ≤ 13)

/-- The value of the digits that a string starts with, after the digits read so far. -/
def digitsValue (read : ℕ) : CString → ℕ
  | [] => read
  | c :: rest => if c.isDigit then digitsValue (10 * read + (c.toNat - '0'.toNat)) rest else read

/-- The largest `long`. -/
def longMax : ℤ := 2 ^ 63 - 1

/-- `atol`: an optional sign and a run of digits after leading white space, saturating at the limits
of a 64-bit `long`. -/
def atol (str : CString) : ℤ :=
  match str.dropWhile isspace with
  | '-' :: digits => max (-longMax - 1) (-(digitsValue 0 digits : ℤ))
  | '+' :: digits => min longMax (digitsValue 0 digits)
  | digits => min longMax (digitsValue 0 digits)

/-- `mupnp_str2long`: zero for `NULL`. -/
def str2long (str : Option CString) : ℤ := (str.map atol).getD 0

/-- `mupnp_string_setvalue`: a string object keeps its content when it is given `NULL`. -/
def stringSetValue (str value : Option CString) : Option CString :=
  match value with
  | some value => some value
  | none => str

/-- `mupnp_string_setnvalue`: a string object loses its content when it is given `NULL`. -/
def stringSetNValue (_str value : Option CString) : Option CString := value

/-- `mupnp_string_addvalue`: adding `NULL` or an empty string changes nothing. -/
def stringAddValue (str value : Option CString) : Option CString :=
  match value with
  | none | some [] => str
  | some value => some (str.getD [] ++ value)

/-- `mupnp_string_length`: zero for a string object without a buffer. -/
def stringLength (str : Option CString) : ℕ := strlen str

@[simp] theorem byteLength_nil : byteLength [] = 0 := rfl

@[simp] theorem byteLength_cons (c : Char) (str : CString) :
    byteLength (c :: str) = c.utf8Size + byteLength str := by
  simp [byteLength]

@[simp] theorem byteLength_append (first second : CString) :
    byteLength (first ++ second) = byteLength first + byteLength second := by
  simp [byteLength]

theorem byteLength_replicate (count : ℕ) (c : Char) :
    byteLength (List.replicate count c) = count * c.utf8Size := by
  simp [byteLength]

theorem strcmp_eq_zero_iff {str1 str2 : Option CString} :
    strcmp str1 str2 = 0 ↔ ∃ str, str1 = some str ∧ str2 = some str := by
  rcases str1 with _ | a <;> rcases str2 with _ | b
  · simp [strcmp]
  · simp [strcmp]
  · simp [strcmp]
  · by_cases h : a = b
    · subst h
      simp [strcmp]
    · have h' : b ≠ a := fun hb ↦ h hb.symm
      by_cases hlt : a < b <;> simp [strcmp, h, h', hlt]

theorem streq_eq_true_iff {str1 str2 : Option CString} :
    streq str1 str2 = true ↔ ∃ str, str1 = some str ∧ str2 = some str := by
  rcases str1 with _ | a <;> rcases str2 with _ | b
  · simp [streq]
  · simp [streq]
  · simp [streq]
  · rw [streq, beq_iff_eq, strcmp_eq_zero_iff]

@[simp] theorem streq_some_some {a b : CString} : streq (some a) (some b) = true ↔ a = b := by
  rw [streq_eq_true_iff]
  constructor
  · rintro ⟨str, ha, hb⟩
    exact (Option.some.inj ha).trans (Option.some.inj hb).symm
  · rintro rfl
    exact ⟨a, rfl, rfl⟩

@[simp] theorem streq_none_left (b : Option CString) : streq none b = false := rfl

@[simp] theorem streq_none_right (a : Option CString) : streq a none = false := by
  cases a <;> rfl

@[simp] theorem stringSetValue_some (str : Option CString) (value : CString) :
    stringSetValue str (some value) = some value := rfl

@[simp] theorem stringSetValue_none (str : Option CString) : stringSetValue str none = str := rfl

theorem strcaseeq_self (str : CString) : strcaseeq str str = true := by simp [strcaseeq]

theorem stringSetValue_none_left (value : Option CString) : stringSetValue none value = value := by
  cases value <;> rfl

theorem stringAddValue_of_ne_nil (str : Option CString) {value : CString} (h : value ≠ []) :
    stringAddValue str (some value) = some (str.getD [] ++ value) := by
  cases value with
  | nil => exact absurd rfl h
  | cons c rest => rfl

theorem stringAddValue_append (str : Option CString) (first second : CString) :
    stringAddValue (stringAddValue str (some first)) (some second) =
      stringAddValue str (some (first ++ second)) := by
  cases first with
  | nil => rfl
  | cons c first =>
    cases second with
    | nil => rw [List.append_nil, stringAddValue]
    | cons d second => simp [stringAddValue]

/-- A string without an occurrence of another one is one that does not contain it. -/
theorem indexOf_eq_none_iff {needle str : CString} :
    indexOf needle str = none ↔ ¬ needle <:+: str := by
  induction str with
  | nil =>
    rw [indexOf, List.infix_nil]
    split <;> simp_all
  | cons c rest ih =>
    rw [indexOf, List.infix_cons_iff, not_or, ← ih, ← List.isPrefixOf_iff_prefix]
    split <;> simp_all

/-- The test for an occurrence. -/
theorem strstr_nonneg_iff {needle str : CString} :
    0 ≤ strstr (some str) (some needle) ↔ needle <:+: str := by
  rw [← not_iff_not, ← indexOf_eq_none_iff, strstr]
  cases indexOf needle str with
  | none => exact iff_of_true (by decide) rfl
  | some position => simp

theorem indexOf_singleton_eq_none {c : Char} {str : CString} (h : c ∉ str) :
    indexOf [c] str = none := by
  induction str with
  | nil => rfl
  | cons d rest ih =>
    rw [List.mem_cons, not_or] at h
    obtain ⟨hne, hrest⟩ := h
    rw [indexOf, if_neg, ih hrest]
    · rfl
    · simpa using hne

/-- The first occurrence of a string whose first character does not stand in front of it. -/
theorem indexOf_append {c : Char} {needle before : CString} (h : c ∉ before) (after : CString) :
    indexOf (c :: needle) (before ++ (c :: needle) ++ after) = some before.length := by
  induction before with
  | nil => simp [indexOf]
  | cons d rest ih =>
    rw [List.mem_cons, not_or] at h
    obtain ⟨hne, hrest⟩ := h
    rw [List.cons_append, List.cons_append, indexOf, if_neg, ih hrest]
    · rfl
    · simp [List.isPrefixOf, hne]

/-- The first occurrence of a character. -/
theorem indexOf_singleton_append {c : Char} {before : CString} (h : c ∉ before) (after : CString) :
    indexOf [c] (before ++ c :: after) = some before.length := by
  have happend := @indexOf_append c [] before h after
  rwa [List.append_assoc, List.singleton_append] at happend

/-- A string is found where it stands. -/
theorem exists_of_indexOf_eq_some {needle str : CString} {position : ℕ}
    (h : indexOf needle str = some position) :
    ∃ before after, str = before ++ needle ++ after ∧ before.length = position := by
  induction str generalizing position with
  | nil =>
    rw [indexOf] at h
    split_ifs at h with hnil
    rw [Option.some.injEq] at h
    exact ⟨[], [], by simp [hnil], h⟩
  | cons c rest ih =>
    rw [indexOf] at h
    split_ifs at h with hstart
    · obtain ⟨after, hafter⟩ := List.isPrefixOf_iff_prefix.mp hstart
      rw [Option.some.injEq] at h
      exact ⟨[], after, hafter.symm, h⟩
    · obtain ⟨later, hlater, hposition⟩ := Option.map_eq_some_iff.mp h
      obtain ⟨before, after, hrest, hlength⟩ := ih hlater
      refine ⟨c :: before, after, ?_, ?_⟩
      · rw [hrest]
        rfl
      · rw [List.length_cons, hlength, hposition]

/-- An occurrence that is found stands behind as many characters as its position says. -/
theorem exists_of_strstr_nonneg {needle str : CString} (h : 0 ≤ strstr (some str) (some needle)) :
    ∃ before after, str = before ++ needle ++ after ∧
      strstr (some str) (some needle) = before.length := by
  cases hindex : indexOf needle str with
  | none =>
    rw [strstr_nonneg_iff, ← not_not (a := needle <:+: str), ← indexOf_eq_none_iff] at h
    exact absurd hindex h
  | some position =>
    obtain ⟨before, after, hstr, hlength⟩ := exists_of_indexOf_eq_some hindex
    refine ⟨before, after, hstr, ?_⟩
    simp only [strstr, hindex, hlength]

/-- The first place where a string is found is not behind a place where it stands. -/
theorem indexOf_le_length {needle before after : CString} (hne : needle ≠ []) :
    ∃ position, indexOf needle (before ++ (needle ++ after)) = some position ∧
      position ≤ before.length := by
  induction before with
  | nil =>
    refine ⟨0, ?_, le_refl _⟩
    obtain ⟨c, rest, rfl⟩ := List.exists_cons_of_ne_nil hne
    rw [List.nil_append, List.cons_append, indexOf, if_pos]
    exact List.isPrefixOf_iff_prefix.mpr (List.prefix_append (c :: rest) after)
  | cons d before ih =>
    obtain ⟨position, hposition, hle⟩ := ih
    rw [List.cons_append, indexOf]
    split_ifs
    · exact ⟨0, rfl, Nat.zero_le _⟩
    · rw [hposition]
      exact ⟨position + 1, rfl, Nat.succ_le_succ hle⟩

theorem strstr_singleton_of_not_mem {c : Char} {str : CString} (h : c ∉ str) :
    strstr (some str) (some [c]) = -1 := by
  simp only [strstr, indexOf_singleton_eq_none h]

theorem strstr_singleton_append {c : Char} {before : CString} (h : c ∉ before) (after : CString) :
    strstr (some (before ++ c :: after)) (some [c]) = before.length := by
  simp only [strstr, indexOf_singleton_append h after]

/-- A character that does not stand in a front part occurs behind it or not at all. -/
theorem strstr_singleton_append_of_not_mem {c : Char} {before : CString} (h : c ∉ before)
    (after : CString) :
    strstr (some (before ++ after)) (some [c]) = -1 ∨
      (before.length : ℤ) ≤ strstr (some (before ++ after)) (some [c]) := by
  by_cases hafter : c ∈ after
  · obtain ⟨front, back, hsplit, hfront⟩ := List.eq_append_cons_of_mem hafter
    have hnot : c ∉ before ++ front := by
      rw [List.mem_append, not_or]
      exact ⟨h, hfront⟩
    rw [hsplit, ← List.append_assoc, strstr_singleton_append hnot, List.length_append]
    omega
  · have hnot : c ∉ before ++ after := by
      rw [List.mem_append, not_or]
      exact ⟨h, hafter⟩
    exact Or.inl (strstr_singleton_of_not_mem hnot)

/-- A string that does not end with a delimiter is the one that trimming keeps. -/
theorem strrtrim_eq_self_iff {str delim : CString} :
    strrtrim str delim = str ↔ ∀ c, str.getLast? = some c → delim.contains c = false := by
  rw [strrtrim, List.rdropWhile_eq_self_iff]
  constructor
  · intro h c hc
    obtain ⟨hne, rfl⟩ := List.mem_getLast?_eq_getLast hc
    exact Bool.not_eq_true _ |>.mp (h hne)
  · intro h hne
    exact Bool.not_eq_true _ |>.mpr (h _ (List.getLast?_eq_some_getLast hne))

/-- Trimming goes on in front of what consists of delimiters only. -/
theorem strrtrim_append_eq (first second delim : CString) :
    strrtrim (first ++ second) delim =
      if strrtrim second delim = [] then strrtrim first delim
      else first ++ strrtrim second delim := by
  unfold strrtrim List.rdropWhile
  rw [List.reverse_append, List.dropWhile_append]
  by_cases hnil : second.reverse.dropWhile (delim.contains ·) = []
  · rw [hnil]
    rfl
  · rw [if_neg (by simpa using hnil), if_neg (by simpa using hnil), List.reverse_append,
      List.reverse_reverse]

/-- Trailing delimiters behind a string that does not end with one are trimmed. -/
theorem strrtrim_append {str suffix delim : CString}
    (hsuffix : ∀ c ∈ suffix, delim.contains c = true)
    (hlast : ∀ c, str.getLast? = some c → delim.contains c = false) :
    strrtrim (str ++ suffix) delim = str := by
  have hreverse : ∀ c ∈ suffix.reverse, delim.contains c = true :=
    fun c hc ↦ hsuffix c (List.mem_reverse.mp hc)
  have hself : str.reverse.dropWhile (delim.contains ·) = str.reverse := by
    rw [List.dropWhile_eq_self_iff]
    intro hlength
    have hhead := hlast (str.reverse[0]) (by
      rw [← List.head?_reverse, List.head?_eq_getElem?, List.getElem?_eq_getElem hlength])
    rw [hhead]
    decide
  unfold strrtrim List.rdropWhile
  rw [List.reverse_append, List.dropWhile_append_of_pos hreverse, hself, List.reverse_reverse]

/-- Delimiters behind a string are trimmed with it. -/
theorem strtrim_append {str suffix delim : CString}
    (hsuffix : ∀ c ∈ suffix, delim.contains c = true) :
    strtrim (str ++ suffix) delim = strtrim str delim := by
  have hnil : strrtrim suffix delim = [] := List.rdropWhile_eq_nil_iff.mpr hsuffix
  unfold strtrim
  rw [List.dropWhile_append]
  split
  next hempty =>
    rw [List.isEmpty_iff.mp hempty, List.dropWhile_eq_nil_iff.mpr hsuffix]
  next => rw [strrtrim_append_eq, if_pos hnil]

theorem length_strtrim_le (str delim : CString) : (strtrim str delim).length ≤ str.length :=
  (List.rdropWhile_prefix _ _).length_le.trans (List.dropWhile_suffix _).length_le

/-- A trimmed string does not end with a delimiter. -/
theorem contains_getLast_strrtrim {str delim : CString} {c : Char}
    (h : (strrtrim str delim).getLast? = some c) : delim.contains c = false := by
  obtain ⟨hne, rfl⟩ := List.mem_getLast?_eq_getLast h
  exact Bool.not_eq_true _ |>.mp (List.rdropWhile_last_not _ str hne)

theorem not_strlen_some_le_zero {str : CString} (hne : str ≠ []) : ¬ strlen (some str) ≤ 0 :=
  Nat.not_le.mpr (List.length_pos_of_ne_nil hne)

theorem eq_some_of_strlen_pos {str : Option CString} (h : 0 < strlen str) :
    ∃ value, str = some value ∧ value ≠ [] := by
  cases str with
  | none => exact absurd h (by decide)
  | some value => exact ⟨value, rfl, List.ne_nil_of_length_pos h⟩

/-- A name that is not empty is none of some others when no comparison with them succeeds. -/
theorem all_not_streq_iff {α : Type*} {items : List α} {key : α → Option CString}
    {name : Option CString} (hpos : 0 < strlen name) :
    (items.all fun other ↦ !streq (key other) name) = true ↔ name ∉ items.map key := by
  obtain ⟨value, rfl, -⟩ := eq_some_of_strlen_pos hpos
  rw [List.all_eq_true, List.mem_map, not_exists]
  refine forall_congr' fun other ↦ ?_
  rw [not_and, Bool.not_eq_true', ← Bool.not_eq_true, streq_eq_true_iff]
  refine forall_congr' fun _ ↦ not_congr ?_
  constructor
  · rintro ⟨str, hother, hvalue⟩
    rw [hother, hvalue]
  · intro hother
    exact ⟨value, hother, rfl⟩

end Mupnp.Util
