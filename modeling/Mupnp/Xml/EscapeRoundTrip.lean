import Mathlib.Algebra.BigOperators.Group.List.Basic
import Mupnp.Xml.XmlSerialize

/-!
# Escaping and unescaping

`mupnp_xml_unescapechars` of `xml/xml_function.c` is the inverse of `mupnp_xml_escapechars`. Both
are replacements by a table, and no string of either table begins with another one, so that both
are single passes (`stringReplace_of_noOvertaking`): what was written for a character is not read
again.

`unescape_escape_iff` is the round trip, together with what an escaped string looks like; it needs
an escaped string in which every position fits an `int`.
-/

set_option autoImplicit false
set_option relaxedAutoImplicit false

namespace Mupnp.Xml

open Foundation.TextReplacement Util

/-- The strings of `mupnp_xml_unescapechars`. -/
def unescapes : List (CString × CString) :=
  [("&amp;".toList, "&".toList), ("&gt;".toList, ">".toList), ("&lt;".toList, "<".toList),
    ("&quot;".toList, "\"".toList), ("&apos;".toList, "'".toList)]

/-- `mupnp_xml_unescapechars` with a position that has no bound. -/
def unescapeChars (str : Option CString) : Option CString := stringReplace str unescapes

/-- `mupnp_xml_escapechars`: no result when a position leaves the range of an `int`. -/
def Positioned.escapeChars (str : Option CString) : Option (Option CString) :=
  stringReplace str escapes

/-- `mupnp_xml_unescapechars`: no result when a position leaves the range of an `int`. -/
def Positioned.unescapeChars (str : Option CString) : Option (Option CString) :=
  stringReplace str unescapes

/-- The five entities. -/
def entities : List CString :=
  ["&amp;".toList, "&gt;".toList, "&lt;".toList, "&quot;".toList, "&apos;".toList]

/-- The form of an escaped string: the characters of markup are not there, and an ampersand is only
there at the start of an entity. -/
structure IsEscaped (text : CString) : Prop where
  noMarkup : ∀ c ∈ ['<', '>', '"', '\''], c ∉ text
  ampersand : ∀ before after, text = before ++ '&' :: after →
    ∃ entity ∈ entities, entity <+: '&' :: after

/-- A character that is not escaped is not an ampersand. -/
theorem escapeChar_entity_or (c : Char) :
    (escapeChar c, [c]) ∈ unescapes ∨ escapeChar c = [c] ∧ c ≠ '&' := by
  unfold escapeChar
  split_ifs with hamp hgt hlt hquot hapos
  · exact Or.inl (hamp ▸ by decide)
  · exact Or.inl (hgt ▸ by decide)
  · exact Or.inl (hlt ▸ by decide)
  · exact Or.inl (hquot ▸ by decide)
  · exact Or.inl (hapos ▸ by decide)
  · exact Or.inr ⟨rfl, hamp⟩

/-! ### Unescaping -/

/-- No entity begins with another one. -/
theorem unescapes_pairwise : (unescapes.map Prod.fst).Pairwise
    fun pattern other ↦ ¬ pattern <+: other ∧ ¬ other <+: pattern := by
  decide

/-- Every pattern begins with an ampersand. -/
theorem find?_unescapes_eq_none {c : Char} (hc : c ≠ '&') (rest : CString) :
    unescapes.find? (fun entry ↦ entry.1.isPrefixOf (c :: rest)) = none := by
  have hhead : ∀ entry ∈ unescapes, entry.1.head? = some '&' := by decide
  refine List.find?_eq_none.mpr fun entry hentry hprefix ↦ ?_
  obtain ⟨behind, hbehind⟩ := List.isPrefixOf_iff_prefix.mp hprefix
  have hfirst := hhead entry hentry
  cases hpattern : entry.1 with
  | nil =>
    rw [hpattern] at hfirst
    cases hfirst
  | cons d pattern =>
    rw [hpattern] at hbehind hfirst
    exact hc ((List.cons.inj hbehind).1.symm.trans (Option.some.inj hfirst))

/-- An entity is the first entry that is there. -/
theorem find?_unescapes_eq_some (rest : CString) :
    ∀ entry ∈ unescapes,
      unescapes.find? (fun other ↦ other.1.isPrefixOf (entry.1 ++ rest)) = some entry := by
  intro entry hentry
  simp only [unescapes, List.mem_cons, List.not_mem_nil, or_false] at hentry
  rcases hentry with rfl | rfl | rfl | rfl | rfl
  · rfl
  · rfl
  · rfl
  · rfl
  · rfl

/-- What a character was written as is read as this character, whatever is behind it. -/
theorem replacePass_unescapes (c : Char) (rest : CString) :
    replacePass unescapes (escapeChar c ++ rest) = c :: replacePass unescapes rest := by
  rcases escapeChar_entity_or c with hentity | ⟨hplain, hc⟩
  · have hfind := find?_unescapes_eq_some rest _ hentity
    rw [replacePass_of_some unescapes hfind (escapeChar_ne_nil c), List.drop_left]
    rfl
  · rw [hplain]
    exact replacePass_of_none unescapes (find?_unescapes_eq_none hc rest)

theorem replacePass_unescapes_escaped (text : CString) :
    replacePass unescapes (text.flatMap escapeChar) = text := by
  induction text with
  | nil => rfl
  | cons c rest ih => rw [List.flatMap_cons, replacePass_unescapes, ih]

/-- `mupnp_xml_unescapechars` on a string that was escaped. -/
theorem unescapeChars_escaped (text : CString) :
    unescapeChars (some (text.flatMap escapeChar)) = some text := by
  have hpass := noOvertaking_of_pairwise unescapes_pairwise (text.flatMap escapeChar)
  have hnil : replacePass unescapes (text.flatMap escapeChar) = [] →
      text.flatMap escapeChar = [] := by
    rw [replacePass_unescapes_escaped]
    intro htext
    rw [htext]
    rfl
  rw [unescapeChars, stringReplace_of_noOvertaking (by decide) hpass hnil,
    replacePass_unescapes_escaped]

/-! ### The escaped form -/

/-- An ampersand in what a character is written as is its first character. -/
theorem ampersand_not_mem_tail (c : Char) : '&' ∉ (escapeChar c).tail := by
  unfold escapeChar
  split_ifs
  · decide
  · decide
  · decide
  · decide
  · decide
  · exact List.not_mem_nil

theorem noMarkup_escapeChar (c : Char) :
    ∀ d ∈ ['<', '>', '"', '\''], d ∉ escapeChar c := by
  unfold escapeChar
  split_ifs with hamp hgt hlt hquot hapos
  · decide
  · decide
  · decide
  · decide
  · decide
  · intro d hd hmem
    rw [List.mem_singleton] at hmem
    subst hmem
    simp only [List.mem_cons, List.not_mem_nil, or_false] at hd
    tauto

/-- An ampersand of an escaped string stands at the start of an entity. -/
theorem ampersand_escaped {text before after : CString}
    (h : text.flatMap escapeChar = before ++ '&' :: after) :
    ∃ entity ∈ entities, entity <+: '&' :: after := by
  induction text generalizing before with
  | nil => exact absurd h.symm (List.append_ne_nil_of_right_ne_nil _ (List.cons_ne_nil _ _))
  | cons c rest ih =>
    rw [List.flatMap_cons] at h
    rcases List.append_eq_append_iff.mp h with ⟨front, hbefore, hrest⟩ | ⟨back, hchar, hafter⟩
    · exact ih hrest
    · cases back with
      | nil => exact @ih [] hafter.symm
      | cons d back =>
        obtain ⟨rfl, hback⟩ := List.cons.inj hafter
        cases before with
        | cons e before =>
          refine absurd ?_ (ampersand_not_mem_tail c)
          rw [hchar]
          exact List.mem_append_right _ List.mem_cons_self
        | nil =>
          rcases escapeChar_entity_or c with hentity | ⟨hplain, hc⟩
          · have hmem : ∀ entry ∈ unescapes, entry.1 ∈ entities := by decide
            refine ⟨escapeChar c, hmem _ hentity, ?_⟩
            rw [hchar, hback]
            exact List.prefix_append _ _
          · rw [hplain] at hchar
            exact absurd (List.cons.inj hchar).1 hc

theorem isEscaped_escaped (text : CString) : IsEscaped (text.flatMap escapeChar) := by
  refine ⟨fun d hd hmem ↦ ?_, fun before after h ↦ ampersand_escaped h⟩
  obtain ⟨c, -, hc⟩ := List.mem_flatMap.mp hmem
  exact noMarkup_escapeChar c d hd hc

/-! ### The round trip -/

/-- Unescaping what a string was escaped to gives the string back, and the escaped string has no
markup. -/
def RoundTripsEscaped (text : CString) : Prop :=
  ∃ escaped, Positioned.escapeChars (some text) = some (some escaped) ∧
    Positioned.unescapeChars (some escaped) = some (some text) ∧ IsEscaped escaped

/-- The number of characters that a character is escaped to. -/
def escapedSize (c : Char) : ℕ :=
  if c = '&' then 5
  else if c = '>' ∨ c = '<' then 4
  else if c = '"' ∨ c = '\'' then 6
  else 1

theorem length_escapeChar (c : Char) : (escapeChar c).length = escapedSize c := by
  unfold escapeChar escapedSize
  split_ifs <;> simp_all

theorem length_escaped (text : CString) :
    (text.flatMap escapeChar).length = (text.map escapedSize).sum := by
  rw [List.length_flatMap]
  simp only [length_escapeChar]

theorem length_le_escapedSize (text : CString) : text.length ≤ (text.map escapedSize).sum := by
  rw [← List.length_map escapedSize]
  refine List.length_le_sum_of_one_le _ fun size hsize ↦ ?_
  obtain ⟨c, -, rfl⟩ := List.mem_map.mp hsize
  unfold escapedSize
  split_ifs <;> omega

theorem sum_escapedSize_lt {text : CString} (h : RoundTripsEscaped text) :
    (text.map escapedSize).sum < 2 ^ 31 := by
  obtain ⟨escaped, hescaped, hunescaped, -⟩ := h
  have hfits := Positioned.fits_of_stringReplace (by decide) hescaped
  rw [Positioned.escapeChars, Positioned.stringReplace_of_fits hfits, Option.some.injEq] at hescaped
  obtain rfl := Option.some.inj ((escapeChars_some text).symm.trans hescaped)
  rw [← length_escaped]
  exact (Positioned.fits_of_stringReplace (by decide) hunescaped).1

/-- Unescaping what a string was escaped to gives the string back, also when it has the text of an
entity in it, and the escaped string has no markup; exactly when the escaped string is so short that
every position in it is an `int`. -/
theorem unescape_escape_iff (text : CString) :
    RoundTripsEscaped text ↔ (text.map escapedSize).sum < 2 ^ 31 := by
  refine ⟨sum_escapedSize_lt, fun hsize ↦ ?_⟩
  have hescapes : Positioned.Fits escapes text :=
    ⟨(length_le_escapedSize text).trans_lt hsize, by decide⟩
  have hunescapes : Positioned.Fits unescapes (text.flatMap escapeChar) :=
    ⟨(length_escaped text).trans_lt hsize, by decide⟩
  refine ⟨text.flatMap escapeChar, ?_, ?_, isEscaped_escaped text⟩
  · rw [Positioned.escapeChars, Positioned.stringReplace_of_fits hescapes]
    exact congrArg some (escapeChars_some text)
  · rw [Positioned.unescapeChars, Positioned.stringReplace_of_fits hunescapes]
    exact congrArg some (unescapeChars_escaped text)

/-- The position behind the last character of a string of `2^31` characters is no `int`. -/
theorem not_roundTripsEscaped : ¬ RoundTripsEscaped (List.replicate (2 ^ 31) 'a') := by
  intro h
  have hsize := sum_escapedSize_lt h
  rw [List.map_replicate, List.sum_replicate] at hsize
  exact absurd hsize (by decide)

/-- The text of an entity is escaped too. -/
example : Positioned.escapeChars (some "a < &lt;".toList) = some (some "a &lt; &amp;lt;".toList) := by
  decide

end Mupnp.Xml
