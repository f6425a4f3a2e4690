import Mupnp.Foundation.XmlPieces
import Mupnp.Xml.StringReplace
import Mupnp.Xml.XmlNode

/-!
# XML nodes as text

The characters that `xml/xml_function.c` escapes, and the functions of `xml/xml_node.c` that write a
node as text. Each level is indented by a space and ends its tags with a line feed; a node with
child nodes is written without its value.

`escapeChars_some` says that escaping works on each character alone.
-/

set_option autoImplicit false
set_option relaxedAutoImplicit false

namespace Mupnp.Xml

open Foundation Foundation.TextReplacement Foundation.XmlText Util

/-! ### Escaping -/

/-- The strings of `mupnp_xml_escapechars`. -/
def escapes : List (CString × CString) :=
  [("&".toList, "&amp;".toList), (">".toList, "&gt;".toList), ("<".toList, "&lt;".toList),
    ("\"".toList, "&quot;".toList), ("'".toList, "&apos;".toList)]

/-- `mupnp_xml_escapechars` with a position that has no bound. -/
def escapeChars (str : Option CString) : Option CString := stringReplace str escapes

/-! ### Writing -/

/-- `mupnp_xml_node_attribute_tostring`: what it appends. One string object holds the values of all
attributes in turn, so that a missing value leaves the one before in it. -/
def attributesToString (valueStr : Option CString) : List XmlAttribute → CString
  | [] => []
  | attr :: rest =>
    let escaped := escapeChars (stringSetValue valueStr attr.value)
    ' ' :: (attr.name.getD [] ++ '=' :: '"' :: (escaped.getD [] ++ '"' ::
      attributesToString escaped rest))

mutual

/-- `mupnp_xml_node_tostring_indent` with the child nodes: what it appends. -/
def toStringIndent : XmlNode → ℕ → CString
  | .node element [], indentLevel =>
    List.replicate indentLevel ' ' ++ '<' :: (element.name.getD [] ++
      (attributesToString none element.attributes ++ '>' ::
        ((escapeChars (stringSetValue none element.value)).getD [] ++
          '<' :: '/' :: (element.name.getD [] ++ ['>', '\n']))))
  | .node element (child :: rest), indentLevel =>
    List.replicate indentLevel ' ' ++ '<' :: (element.name.getD [] ++
      (attributesToString none element.attributes ++ '>' :: '\n' ::
        (childrenToString (child :: rest) (indentLevel + 1) ++
          (List.replicate indentLevel ' ' ++
            '<' :: '/' :: (element.name.getD [] ++ ['>', '\n'])))))

/-- The nodes of a list, one after the other. -/
def childrenToString : List XmlNode → ℕ → CString
  | [], _ => []
  | child :: rest, indentLevel =>
    toStringIndent child indentLevel ++ childrenToString rest indentLevel

end

/-- `mupnp_xml_node_tostring` with the child nodes. -/
def nodeToString (node : XmlNode) : CString := toStringIndent node 0

/-! ### Each character is escaped alone -/

/-- What a character is written as. -/
def escapeChar (c : Char) : CString :=
  if c = '&' then "&amp;".toList
  else if c = '>' then "&gt;".toList
  else if c = '<' then "&lt;".toList
  else if c = '"' then "&quot;".toList
  else if c = '\'' then "&apos;".toList
  else [c]

theorem escapeChar_ne_nil (c : Char) : escapeChar c ≠ [] := by
  unfold escapeChar
  repeat' split
  all_goals simp

theorem escapes_spec : ∀ str ∈ escapes, ∃ c, str = ([c], escapeChar c) := by
  intro str hstr
  simp only [escapes, List.mem_cons, List.not_mem_nil, or_false] at hstr
  rcases hstr with rfl | rfl | rfl | rfl | rfl
  · exact ⟨'&', rfl⟩
  · exact ⟨'>', rfl⟩
  · exact ⟨'<', rfl⟩
  · exact ⟨'"', rfl⟩
  · exact ⟨'\'', rfl⟩

theorem escapeChar_of_not_escaped {c : Char} {rest : CString}
    (h : ∀ str ∈ escapes, ¬ str.1.isPrefixOf (c :: rest) = true) : escapeChar c = [c] := by
  have hne : ∀ d : Char, ([d], escapeChar d) ∈ escapes → c ≠ d := by
    rintro d hd rfl
    exact h _ hd (by simp)
  have hamp : c ≠ '&' := hne _ (by decide)
  have hgt : c ≠ '>' := hne _ (by decide)
  have hlt : c ≠ '<' := hne _ (by decide)
  have hquot : c ≠ '"' := hne _ (by decide)
  have hapos : c ≠ '\'' := hne _ (by decide)
  rw [escapeChar, if_neg hamp, if_neg hgt, if_neg hlt, if_neg hquot, if_neg hapos]

/-- No string to be escaped begins with another one. -/
theorem escapes_pairwise : (escapes.map Prod.fst).Pairwise
    fun pattern other ↦ ¬ pattern <+: other ∧ ¬ other <+: pattern := by
  decide

/-- A pass over a text escapes each character. -/
theorem replacePass_escapes (text : CString) :
    replacePass escapes text = text.flatMap escapeChar := by
  induction text with
  | nil => rfl
  | cons c rest ih =>
    rw [List.flatMap_cons, ← ih]
    cases hfind : escapes.find? fun entry ↦ entry.1.isPrefixOf (c :: rest) with
    | none =>
      rw [replacePass_of_none escapes hfind,
        escapeChar_of_not_escaped (List.find?_eq_none.mp hfind)]
      rfl
    | some entry =>
      obtain ⟨d, rfl⟩ := escapes_spec entry (List.mem_of_find?_eq_some hfind)
      have hprefix := List.find?_some (p := fun (entry : CString × CString) ↦
        entry.1.isPrefixOf (c :: rest)) hfind
      have hcd : d = c := by simpa using hprefix
      rw [replacePass_of_some escapes hfind (List.cons_ne_nil d []), hcd]
      rfl

/-- `mupnp_xml_escapechars` writes each character alone. -/
theorem escapeChars_some (text : CString) :
    escapeChars (some text) = some (text.flatMap escapeChar) := by
  rw [← replacePass_escapes, escapeChars]
  refine stringReplace_of_noOvertaking (by decide) (noOvertaking_of_pairwise escapes_pairwise text)
    fun hnil ↦ ?_
  rw [replacePass_escapes, List.flatMap_eq_nil_iff] at hnil
  refine List.eq_nil_iff_forall_not_mem.mpr fun c hc ↦ escapeChar_ne_nil c (hnil c hc)

/-- A character that is not escaped is written. -/
theorem mem_escapeChars {str : Option CString} {c : Char} (h : c ∈ str.getD [])
    (hc : escapeChar c = [c]) : c ∈ (escapeChars str).getD [] := by
  cases str with
  | none => cases h
  | some text =>
    rw [escapeChars_some, Option.getD_some]
    exact List.mem_flatMap.mpr ⟨c, h, hc ▸ List.mem_singleton_self c⟩

/-- The length of what a string is written as. -/
def escapedLength (str : Option CString) : ℕ := byteLength ((str.getD []).flatMap escapeChar)

/-- Escaping makes no text shorter. -/
theorem byteLength_le_escapedLength (text : CString) :
    byteLength text ≤ escapedLength (some text) := by
  have hchar : ∀ c : Char, c.utf8Size ≤ byteLength (escapeChar c) := by
    intro c
    unfold escapeChar
    repeat' split
    all_goals first
      | (subst_vars; decide)
      | simp
  induction text with
  | nil => exact Nat.zero_le _
  | cons c rest ih =>
    rw [escapedLength, Option.getD_some] at ih ⊢
    rw [List.flatMap_cons, byteLength_append, byteLength_cons]
    exact Nat.add_le_add (hchar c) ih

theorem byteLength_escapeChars (str : Option CString) :
    byteLength ((escapeChars str).getD []) = escapedLength str := by
  cases str with
  | none => rfl
  | some text => rw [escapeChars_some, Option.getD_some, escapedLength, Option.getD_some]

end Mupnp.Xml
