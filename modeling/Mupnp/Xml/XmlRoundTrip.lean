import Mupnp.Foundation.XmlPieces
import Mupnp.Xml.XmlParser
import Mupnp.Xml.XmlSerialize

/-!
# Writing and reading XML

A tree of nodes that is written as a document and read by a conforming parser comes back as
`readBack` says: with the same names and child nodes, the values of its leaves, and white space as
the values of the other nodes. Attribute values lose their tabs and line ends.

`reads_childrenToString` follows the text through the reader, `builds_atomsIn` the reports of the
parser through the handlers to the tree that is `restored`; `readContent_nodeToString` and
`xmlParse_document` put them together.
-/

set_option autoImplicit false
set_option relaxedAutoImplicit false

namespace Mupnp.Xml

open Foundation Foundation.RoseTree Foundation.XmlText Util

/-! ### What can be written -/

/-- The values that `mupnp_xml_node_attribute_tostring` escapes, with the names of their
attributes. -/
def attributeSources (valueStr : Option CString) : List XmlAttribute → List (CString × CString)
  | [] => []
  | attr :: rest =>
    let source := stringSetValue valueStr attr.value
    (attr.name.getD [], source.getD []) :: attributeSources (escapeChars source) rest

/-- What an attribute value is read as. -/
def readValue (value : CString) : CString := (readLineEnds false value).map valueChar

def readAttributes (attributes : List XmlAttribute) : List XmlText.Attribute :=
  (attributeSources none attributes).map fun source ↦ (source.1, readValue source.2)

/-- A character of XML that is not a carriage return. -/
def IsTextChar (c : Char) : Prop := isXmlChar c = true ∧ c ≠ '\r'

instance (c : Char) : Decidable (IsTextChar c) := inferInstanceAs (Decidable (_ ∧ _))

/-- A node that can be written as XML: its names are names of XML, its attributes are told apart
whatever the case of their letters, and its values are made of characters of XML. -/
structure Writable (element : XmlElement) : Prop where
  name : ∃ name, element.name = some name ∧ IsName name
  attributeNames : ∀ source ∈ attributeSources none element.attributes, IsName source.1
  attributeValues : ∀ source ∈ attributeSources none element.attributes,
    ∀ c ∈ source.2, isXmlChar c = true
  distinct : ((attributeSources none element.attributes).map Prod.fst).Pairwise
    fun name other ↦ strcaseeq name other = false
  value : ∀ value ∈ element.value, ∀ c ∈ value, IsTextChar c

/-- A node whose text is XML, with attributes of different names. -/
structure Legible (element : XmlElement) : Prop where
  name : ∃ name, element.name = some name ∧ IsName name
  attributeNames : ∀ source ∈ attributeSources none element.attributes, IsName source.1
  attributeValues : ∀ source ∈ attributeSources none element.attributes,
    ∀ c ∈ source.2, isXmlChar c = true
  nodup : ((attributeSources none element.attributes).map Prod.fst).Nodup
  value : ∀ value ∈ element.value, ∀ c ∈ value, IsTextChar c

theorem Writable.legible {element : XmlElement} (h : Writable element) : Legible element where
  name := h.name
  attributeNames := h.attributeNames
  attributeValues := h.attributeValues
  nodup := h.distinct.imp fun hne heq ↦ by
    rw [heq, strcaseeq_self] at hne
    cases hne
  value := h.value

/-! ### The tree that is read -/

/-- The text in front of a tag at a level. -/
def indent (level : ℕ) : CString := List.replicate level ' '

/-- The white space between the child nodes of a node, with what stands before the first one and
after the last one. -/
def innerText (count level : ℕ) : CString :=
  '\n' :: ((List.replicate count (indent (level + 1) ++ ['\n'])).flatten ++ indent level)

def readElement (element : XmlElement) (text : CString) : XmlElement where
  name := element.name
  value := stringAddValue none (some text)
  attributes := (readAttributes element.attributes).map fun a ↦ ⟨some a.1, some a.2⟩

mutual

/-- The node that a written node is read as. -/
def readBack : XmlNode → ℕ → XmlNode
  | .node element [], _ => .node (readElement element (element.value.getD [])) []
  | .node element (child :: rest), level =>
    .node (readElement element (innerText (rest.length + 1) level))
      (readBackIn (child :: rest) (level + 1))

def readBackIn : List XmlNode → ℕ → List XmlNode
  | [], _ => []
  | child :: rest, level => readBack child level :: readBackIn rest level

end

/-- The name, the attributes and the child nodes of a node that was read. -/
theorem readBack_node (element : XmlElement) (children : List XmlNode) (level : ℕ) :
    ∃ text, readBack (.node element children) level =
      .node (readElement element text) (readBackIn children (level + 1)) := by
  cases children with
  | nil => exact ⟨element.value.getD [], by rw [readBack, readBackIn]⟩
  | cons child rest => exact ⟨innerText (rest.length + 1) level, by rw [readBack]⟩

mutual

/-- The number of levels of a node. -/
def height : XmlNode → ℕ
  | .node _ children => heightIn children + 1

def heightIn : List XmlNode → ℕ
  | [] => 0
  | child :: rest => max (height child) (heightIn rest)

end

/-! ### The reports on a written tree -/

mutual

def atomsOf : XmlNode → ℕ → List Atom
  | .node element [], level =>
    (indent level).map .character ++
      (.start (element.name.getD []) (readAttributes element.attributes) ::
        ((element.value.getD []).map .character ++
          [.stop (element.name.getD []), .character '\n']))
  | .node element (child :: rest), level =>
    (indent level).map .character ++
      (.start (element.name.getD []) (readAttributes element.attributes) ::
        (.character '\n' :: (atomsIn (child :: rest) (level + 1) ++
          ((indent level).map .character ++ [.stop (element.name.getD []), .character '\n']))))

def atomsIn : List XmlNode → ℕ → List Atom
  | [], _ => []
  | child :: rest, level => atomsOf child level ++ atomsIn rest level

end

/-! ### Reading the text -/

section text

theorem isDataChar_of_escapeChar_eq {c : Char} (hc : IsTextChar c) (h : escapeChar c = [c]) :
    isDataChar c = true ∧ c ≠ '"' := by
  have hne : ∀ d : Char, escapeChar d ≠ [d] → c ≠ d := by
    rintro d hd rfl
    exact hd h
  have hamp : c ≠ '&' := hne _ (by decide)
  have hgt : c ≠ '>' := hne _ (by decide)
  have hlt : c ≠ '<' := hne _ (by decide)
  have hquot : c ≠ '"' := hne _ (by decide)
  refine ⟨?_, hquot⟩
  simp [isDataChar, hc.1, hc.2, hamp, hgt, hlt]

/-- An escaped character is a reference or stands for itself. -/
theorem escapeChar_cases (c : Char) :
    (∃ name, (∀ d ∈ name, isLocalChar d = true) ∧ entity name = some c ∧
      escapeChar c = '&' :: (name ++ [';'])) ∨ escapeChar c = [c] := by
  unfold escapeChar
  split
  · rename_i h
    exact .inl ⟨"amp".toList, by decide, h ▸ rfl, rfl⟩
  split
  · rename_i h
    exact .inl ⟨"gt".toList, by decide, h ▸ rfl, rfl⟩
  split
  · rename_i h
    exact .inl ⟨"lt".toList, by decide, h ▸ rfl, rfl⟩
  split
  · rename_i h
    exact .inl ⟨"quot".toList, by decide, h ▸ rfl, rfl⟩
  split
  · rename_i h
    exact .inl ⟨"apos".toList, by decide, h ▸ rfl, rfl⟩
  · exact .inr rfl

/-- Escaped text is read as character data. -/
theorem scans_escaped {text : CString} (h : ∀ c ∈ text, IsTextChar c) :
    Scans .content (text.flatMap escapeChar) .content (text.map .character) := by
  induction text with
  | nil => exact Scans.nil _
  | cons c rest ih =>
    have hc := h c List.mem_cons_self
    have hrest := ih fun d hd ↦ h d (List.mem_cons_of_mem _ hd)
    have hfirst : Scans .content (escapeChar c) .content [.character c] := by
      rcases escapeChar_cases c with ⟨name, hname, hentity, hescape⟩ | hescape
      · rw [hescape]
        exact scans_reference hname hentity
      · rw [hescape]
        exact Scans.single (step_content_of_isDataChar (isDataChar_of_escapeChar_eq hc hescape).1)
    exact hfirst.append hrest

/-- Escaped text is read as an attribute value. -/
theorem scans_escapedValue {text : CString} (h : ∀ c ∈ text, IsTextChar c) (element : CString)
    (attributes : List XmlText.Attribute) (key value : CString) :
    Scans (.attributeValue element attributes key value) (text.flatMap escapeChar)
      (.attributeValue element attributes key (value ++ text.map valueChar)) [] := by
  induction text generalizing value with
  | nil =>
    rw [List.map_nil, List.append_nil]
    exact Scans.nil _
  | cons c rest ih =>
    have hc := h c List.mem_cons_self
    have hrest := ih (fun d hd ↦ h d (List.mem_cons_of_mem _ hd)) (value ++ [valueChar c])
    have hfirst : Scans (.attributeValue element attributes key value) (escapeChar c)
        (.attributeValue element attributes key (value ++ [valueChar c])) [] := by
      rcases escapeChar_cases c with ⟨name, hname, hentity, hescape⟩ | hescape
      · have hvalue : valueChar c = c := by
          rw [valueChar, if_neg]
          rintro (rfl | rfl) <;> exact absurd hescape (by simp [escapeChar])
        rw [hescape, hvalue]
        exact scans_valueReference hname hentity _ _ _ _
      · rw [hescape]
        obtain ⟨hdata, hquot⟩ := isDataChar_of_escapeChar_eq hc hescape
        have hamp : c ≠ '&' := by
          rintro rfl
          exact absurd hescape (by decide)
        have hvalue : isValueChar c = true := by simp [isValueChar, hdata, hquot]
        refine Scans.single ?_
        rw [step, if_neg hquot, if_neg hamp, if_pos hvalue]
    rw [List.map_cons, List.append_cons]
    exact hfirst.append hrest

theorem ne_of_mem_escapeChar {c : Char} (hreturn : c ≠ '\r') (hfeed : c ≠ '\n') :
    ∀ d ∈ escapeChar c, d ≠ '\r' ∧ d ≠ '\n' := by
  unfold escapeChar
  repeat' split
  all_goals first
    | decide
    | simpa using ⟨hreturn, hfeed⟩

/-- Escaping keeps the line ends. -/
theorem readLineEnds_escaped (afterReturn : Bool) (text : CString) :
    readLineEnds afterReturn (text.flatMap escapeChar) =
      (readLineEnds afterReturn text).flatMap escapeChar := by
  induction text generalizing afterReturn with
  | nil => rfl
  | cons c rest ih =>
    rw [List.flatMap_cons]
    by_cases hreturn : c = '\r'
    · rw [hreturn, readLineEnds, if_pos rfl, List.flatMap_cons, ← ih true]
      rfl
    · by_cases hfeed : c = '\n'
      · rw [hfeed, show escapeChar '\n' ++ rest.flatMap escapeChar =
          '\n' :: rest.flatMap escapeChar from rfl, readLineEnds, readLineEnds]
        cases afterReturn
        · simp only [Char.reduceEq, Bool.false_eq_true, and_false, if_false, List.flatMap_cons, ih]
          rfl
        · simp only [Char.reduceEq, and_self, if_true, if_false, ih]
      · obtain ⟨d, tail, hescape⟩ := List.exists_cons_of_ne_nil (escapeChar_ne_nil c)
        have hne := ne_of_mem_escapeChar hreturn hfeed
        have hd := hne d (hescape ▸ List.mem_cons_self)
        have htail : ∀ e ∈ tail, e ≠ '\r' := fun e he ↦
          (hne e (hescape ▸ List.mem_cons_of_mem _ he)).1
        rw [readLineEnds, if_neg hreturn, if_neg fun h ↦ hfeed h.1, List.flatMap_cons, ← ih false,
          hescape, List.cons_append, readLineEnds, if_neg hd.1, if_neg fun h ↦ hd.2 h.1,
          readLineEnds_of_ne htail, List.cons_append]

theorem isTextChar_of_mem_readLineEnds {text : CString} (h : ∀ c ∈ text, isXmlChar c = true)
    (afterReturn : Bool) : ∀ c ∈ readLineEnds afterReturn text, IsTextChar c := by
  intro c hc
  rcases mem_of_mem_readLineEnds hc with rfl | ⟨hmem, hreturn⟩
  · exact ⟨rfl, by decide⟩
  · exact ⟨h c hmem, hreturn⟩

theorem ne_return_of_mem_readLineEnds {text : CString} {afterReturn : Bool} :
    ∀ c ∈ readLineEnds afterReturn text, c ≠ '\r' := by
  intro c hc
  rcases mem_of_mem_readLineEnds hc with rfl | ⟨-, hreturn⟩
  · decide
  · exact hreturn

/-- A value without tabs and line ends is read as it is. -/
theorem readValue_eq_self_iff {value : CString} :
    readValue value = value ↔ ∀ c ∈ value, c ≠ '\t' ∧ c ≠ '\n' ∧ c ≠ '\r' := by
  constructor
  · intro hsame c hc
    rw [← hsame, readValue] at hc
    obtain ⟨d, hd, rfl⟩ := List.mem_map.mp hc
    have hreturn := ne_return_of_mem_readLineEnds d hd
    unfold valueChar
    split
    · decide
    · rename_i hspace
      push Not at hspace
      exact ⟨hspace.1, hspace.2, hreturn⟩
  · intro h
    have hends := readLineEnds_of_ne (fun c hc ↦ (h c hc).2.2) []
    rw [List.append_nil, readLineEnds, List.append_nil] at hends
    have hchar : ∀ c ∈ value, valueChar c = c := by
      intro c hc
      obtain ⟨htab, hfeed, -⟩ := h c hc
      rw [valueChar, if_neg (not_or_intro htab hfeed)]
    rw [readValue, hends, List.map_congr_left hchar, List.map_id']

theorem escapeChars_getD (str : Option CString) :
    (escapeChars str).getD [] = (str.getD []).flatMap escapeChar := by
  cases str with
  | none => rfl
  | some text => rw [escapeChars_some, Option.getD_some, Option.getD_some]

/-- The attributes of a node in its start tag, after some attributes. -/
theorem reads_attributesToString {name : CString} (valueStr : Option CString)
    (attributes : List XmlAttribute) (before : List XmlText.Attribute)
    (hnames : ∀ source ∈ attributeSources valueStr attributes, IsName source.1)
    (hvalues : ∀ source ∈ attributeSources valueStr attributes,
      ∀ c ∈ source.2, isXmlChar c = true)
    (hdistinct : ((attributeSources valueStr attributes).map Prod.fst).Nodup)
    (hbefore : ∀ source ∈ attributeSources valueStr attributes, source.1 ∉ before.map Prod.fst) :
    ReadsAs (tagState name before) (attributesToString valueStr attributes)
      (tagState name (before ++ (attributeSources valueStr attributes).map fun source ↦
        (source.1, readValue source.2))) [] := by
  induction attributes generalizing valueStr before with
  | nil =>
    rw [attributeSources, List.map_nil, List.append_nil]
    exact ReadsAs.nil _
  | cons attr rest ih =>
    rw [attributeSources] at hnames hvalues hdistinct hbefore ⊢
    rw [attributesToString]
    generalize stringSetValue valueStr attr.value = source at hnames hvalues hdistinct hbefore ⊢
    obtain ⟨hkey, hnames'⟩ := List.forall_mem_cons.mp hnames
    obtain ⟨hvalue, hvalues'⟩ := List.forall_mem_cons.mp hvalues
    obtain ⟨hnew, hbefore'⟩ := List.forall_mem_cons.mp hbefore
    obtain ⟨hfirst, hdistinct'⟩ := List.nodup_cons.mp hdistinct
    have hread := scans_escapedValue (isTextChar_of_mem_readLineEnds hvalue false) name before
      (attr.name.getD []) []
    rw [← readLineEnds_escaped, List.nil_append] at hread
    have hattribute := ReadsAs.ofAttribute hkey hnew hread
    have hrest := ih (escapeChars source)
        (before ++ [(attr.name.getD [], readValue (source.getD []))])
      hnames' hvalues' hdistinct' fun other hother ↦ by
        rw [List.map_append, List.mem_append, not_or]
        refine ⟨hbefore' other hother, fun hmem ↦ hfirst ?_⟩
        rw [← List.mem_singleton.mp hmem]
        exact List.mem_map_of_mem hother
    have hall := hattribute.append hrest
    rw [escapeChars_getD]
    simpa using hall

/-- Escaped text has no carriage returns of its own. -/
theorem ne_return_of_mem_escaped {text : CString} (h : ∀ c ∈ text, IsTextChar c) :
    ∀ c ∈ text.flatMap escapeChar, c ≠ '\r' := by
  intro c hc
  obtain ⟨d, hd, hcd⟩ := List.mem_flatMap.mp hc
  by_cases hfeed : d = '\n'
  · rw [hfeed] at hcd
    have hc' : c = '\n' := List.mem_singleton.mp hcd
    rw [hc']
    decide
  · exact (ne_of_mem_escapeChar (h d hd).2 hfeed c hcd).1

theorem isDataChar_of_mem_indent {level : ℕ} : ∀ c ∈ indent level, isDataChar c = true := by
  intro c hc
  rw [List.eq_of_mem_replicate hc]
  rfl

theorem reads_startTag {element : XmlElement} (h : Legible element) :
    ReadsAs .content
      ('<' :: (element.name.getD [] ++ (attributesToString none element.attributes ++ ['>'])))
      .content [.start (element.name.getD []) (readAttributes element.attributes)] := by
  obtain ⟨name, hsome, hname⟩ := h.name
  have hattributes := @reads_attributesToString name none element.attributes [] h.attributeNames
    h.attributeValues h.nodup fun source _ ↦ List.not_mem_nil
  rw [hsome, Option.getD_some]
  exact ReadsAs.startTag hname hattributes

theorem reads_stopTag {element : XmlElement} (h : Legible element) :
    ReadsAs .content ('<' :: '/' :: (element.name.getD [] ++ ['>', '\n'])) .content
      [.stop (element.name.getD []), .character '\n'] := by
  obtain ⟨name, hsome, hname⟩ := h.name
  have hfeed : ReadsAs .content ['\n'] .content [.character '\n'] := ReadsAs.characters (by decide)
  have hall := (ReadsAs.stopTag hname).append hfeed
  rw [hsome, Option.getD_some]
  simpa using hall

/-- Written nodes are read as the reports on them. -/
theorem reads_childrenToString (nodes : List XmlNode) :
    (∀ element ∈ preorderIn nodes, Legible element) → ∀ level,
      ReadsAs .content (childrenToString nodes level) .content (atomsIn nodes level) := by
  induction nodes using forest_induction with
  | nil => exact fun _ level ↦ ReadsAs.nil _
  | cons element children rest ihChildren ihRest =>
    intro hlegible level
    rw [preorderIn_cons, List.forall_mem_cons] at hlegible
    obtain ⟨helement, hbelow⟩ := hlegible
    have hchildren := ihChildren (fun other hother ↦ hbelow other (List.mem_append_left _ hother))
      (level + 1)
    have hrest := ihRest (fun other hother ↦ hbelow other (List.mem_append_right _ hother)) level
    have hindent : ReadsAs .content (indent level) .content ((indent level).map .character) :=
      ReadsAs.characters isDataChar_of_mem_indent
    have hstart := reads_startTag helement
    have hstop := reads_stopTag helement
    cases children with
    | nil =>
      have hvalue : ReadsAs .content ((element.value.getD []).flatMap escapeChar) .content
          ((element.value.getD []).map .character) := by
        have htext : ∀ c ∈ element.value.getD [], IsTextChar c := by
          cases hsome : element.value with
          | none => exact fun c hc ↦ by cases hc
          | some value => exact helement.value value hsome
        exact ReadsAs.of_scans (ne_return_of_mem_escaped htext) (scans_escaped htext)
      have hall := (hindent.append (hstart.append (hvalue.append hstop))).append hrest
      rw [childrenToString, atomsIn, toStringIndent, atomsOf, escapeChars_getD]
      simpa [indent, stringSetValue_none_left] using hall
    | cons child children =>
      have hfeed : ReadsAs .content ['\n'] .content [.character '\n'] :=
        ReadsAs.characters (by decide)
      have hall := (hindent.append (hstart.append (hfeed.append (hchildren.append
        (hindent.append hstop))))).append hrest
      rw [childrenToString, atomsIn, toStringIndent, atomsOf]
      simpa [indent] using hall

end text

/-! ### Building the tree -/

/-- Text and child nodes that a node receives. -/
def receive (node : XmlNode) (text : CString) (children : List XmlNode) : XmlNode :=
  .node { node.value with value := stringAddValue node.value.value (some text) }
    (node.children ++ children)

theorem receive_receive (node : XmlNode) (text text' : CString)
    (children children' : List XmlNode) :
    receive (receive node text children) text' children' =
      receive node (text ++ text') (children ++ children') := by
  simp only [receive, RoseTree.value_node, RoseTree.children_node, stringAddValue_append,
    List.append_assoc]

/-- Reports that add text and child nodes to the current node, and go down at most some levels. -/
def Builds (atoms : List Atom) (text : CString) (children : List XmlNode) (levels : ℕ) : Prop :=
  ∀ node rest depth, depth + levels ≤ xmlMaxDepth →
    expat.run ⟨none, node :: rest, depth⟩ (atoms.map Callback.ofAtom) =
      some ⟨none, receive node text children :: rest, depth⟩

namespace Builds

variable {atoms atoms' : List Atom} {text text' : CString} {children children' : List XmlNode}
  {levels levels' : ℕ}

theorem nil : Builds [] [] [] 0 := by
  rintro ⟨element, children⟩ rest depth _
  simp [receive, stringAddValue]

theorem append (h : Builds atoms text children levels)
    (h' : Builds atoms' text' children' levels') :
    Builds (atoms ++ atoms') (text ++ text') (children ++ children') (max levels levels') := by
  intro node rest depth hdepth
  rw [List.map_append, TransitionSystem.run_append_eq_some_iff]
  refine ⟨_, h node rest depth ?_, ?_⟩
  · exact (Nat.add_le_add_left (Nat.le_max_left _ _) _).trans hdepth
  · rw [h' _ rest depth ((Nat.add_le_add_left (Nat.le_max_right _ _) _).trans hdepth),
      receive_receive]

theorem characters (text : CString) : Builds (text.map .character) text [] 0 := by
  rintro ⟨element, children⟩ rest depth _
  rw [run_characters]
  simp [characterData, receive, XmlNode.addValue, XmlNode.withElement]

/-- An element becomes a child node. -/
theorem element (h : Builds atoms text children levels) (name : CString)
    (attributes : List XmlText.Attribute) :
    Builds (.start name attributes :: (atoms ++ [.stop name])) []
      [receive (startedNode name attributes) text children] (levels + 1) := by
  rintro ⟨parent, before⟩ rest depth hdepth
  have hopen : elementStart ⟨none, .node parent before :: rest, depth⟩ name attributes =
      some ⟨none, startedNode name attributes :: .node parent before :: rest, depth + 1⟩ := by
    rw [elementStart, if_neg (by simp only; omega)]
    simp
  rw [List.map_cons, TransitionSystem.run_cons_eq_some_iff]
  refine ⟨_, hopen, ?_⟩
  rw [List.map_append, TransitionSystem.run_append_eq_some_iff]
  refine ⟨_, h _ _ (depth + 1) (by omega), ?_⟩
  rw [List.map_singleton, TransitionSystem.run_singleton_eq_some_iff]
  simp [expat, Callback.ofAtom, elementEnd, XmlNode.addChildNode, receive, stringAddValue]

end Builds

theorem attributeListSet_of_ne {attributes : List XmlAttribute} {name : CString}
    (h : ∀ attr ∈ attributes, attr.name.any (strcaseeq · name) = false) (value : Option CString) :
    attributeListSet attributes name value =
      attributes ++ [⟨some name, stringSetValue none value⟩] := by
  induction attributes with
  | nil => rfl
  | cons attr rest ih =>
    rw [attributeListSet, if_neg (by simp [h attr List.mem_cons_self]),
      ih fun other hother ↦ h other (List.mem_cons_of_mem _ hother), List.cons_append]

/-- Attributes that are told apart are set one after the other. -/
theorem foldl_setAttribute (attributes : List XmlText.Attribute) (element : XmlElement)
    (hdistinct : (attributes.map Prod.fst).Pairwise fun name other ↦ strcaseeq name other = false)
    (hbefore : ∀ attr ∈ element.attributes, ∀ a ∈ attributes,
      attr.name.any (strcaseeq · a.1) = false) :
    attributes.foldl (fun node a ↦ XmlNode.setAttribute node a.1 (some a.2)) (.node element []) =
      .node { element with
        attributes := element.attributes ++ attributes.map fun a ↦ ⟨some a.1, some a.2⟩ } [] := by
  induction attributes generalizing element with
  | nil => simp
  | cons a rest ih =>
    obtain ⟨hfirst, hrest⟩ := List.pairwise_cons.mp hdistinct
    have hset : XmlNode.setAttribute (.node element []) a.1 (some a.2) =
        .node { element with attributes := element.attributes ++ [⟨some a.1, some a.2⟩] } [] := by
      rw [XmlNode.setAttribute, XmlNode.withElement]
      simp only [RoseTree.value_node, RoseTree.children_node]
      rw [attributeListSet_of_ne fun attr hattr ↦ hbefore attr hattr a List.mem_cons_self]
      rfl
    rw [List.foldl_cons, hset, ih _ hrest]
    · simp
    · intro attr hattr other hother
      rcases List.mem_append.mp hattr with hattr | hattr
      · exact hbefore attr hattr other (List.mem_cons_of_mem _ hother)
      · rw [List.mem_singleton.mp hattr]
        exact hfirst other.1 (List.mem_map_of_mem hother)

theorem startedNode_eq {name : CString} {attributes : List XmlText.Attribute}
    (hdistinct : (attributes.map Prod.fst).Pairwise fun name other ↦ strcaseeq name other = false) :
    startedNode name attributes =
      .node ⟨some name, none, attributes.map fun a ↦ ⟨some a.1, some a.2⟩⟩ [] :=
  foldl_setAttribute attributes ⟨some name, none, []⟩ hdistinct fun attr hattr ↦ by cases hattr

/-- The node of an element that was written. -/
theorem receive_startedNode {element : XmlElement} (h : Writable element) (text : CString)
    (children : List XmlNode) :
    receive (startedNode (element.name.getD []) (readAttributes element.attributes)) text children =
      .node (readElement element text) children := by
  obtain ⟨name, hsome, -⟩ := h.name
  have hdistinct : ((readAttributes element.attributes).map Prod.fst).Pairwise
      fun name other ↦ strcaseeq name other = false := by
    have hnames : (readAttributes element.attributes).map Prod.fst =
        (attributeSources none element.attributes).map Prod.fst := by
      simp [readAttributes, Function.comp_def]
    rw [hnames]
    exact h.distinct
  rw [startedNode_eq hdistinct]
  simp [receive, readElement, hsome]

/-- What the nodes of a list leave in the text of their parent. -/
def spaceBetween (count level : ℕ) : CString :=
  (List.replicate count (indent level ++ ['\n'])).flatten

mutual

/-- The node that the handlers make of a written node, whatever its attributes. -/
def restored : XmlNode → ℕ → XmlNode
  | .node element [], _ =>
    receive (startedNode (element.name.getD []) (readAttributes element.attributes))
      (element.value.getD []) []
  | .node element (child :: rest), level =>
    receive (startedNode (element.name.getD []) (readAttributes element.attributes))
      (innerText (rest.length + 1) level) (restoredIn (child :: rest) (level + 1))

def restoredIn : List XmlNode → ℕ → List XmlNode
  | [], _ => []
  | child :: rest, level => restored child level :: restoredIn rest level

end

/-- The reports on written nodes build the nodes that are restored. -/
theorem builds_atomsIn (nodes : List XmlNode) :
    ∀ level, Builds (atomsIn nodes level) (spaceBetween nodes.length level) (restoredIn nodes level)
      (heightIn nodes) := by
  induction nodes using forest_induction with
  | nil => exact fun level ↦ Builds.nil
  | cons element children rest ihChildren ihRest =>
    intro level
    have hchildren := ihChildren (level + 1)
    have hrest := ihRest level
    have hindent := Builds.characters (indent level)
    have hfeed := Builds.characters ['\n']
    cases children with
    | nil =>
      have hvalue := Builds.characters (element.value.getD [])
      have hnode := hvalue.element (element.name.getD []) (readAttributes element.attributes)
      have hall := ((hindent.append hnode).append hfeed).append hrest
      simpa [atomsIn, atomsOf, restoredIn, restored, heightIn, height, spaceBetween,
        List.replicate_succ] using hall
    | cons child children =>
      have hinner := (hfeed.append hchildren).append hindent
      have hnode := hinner.element (element.name.getD []) (readAttributes element.attributes)
      have hall := ((hindent.append hnode).append hfeed).append hrest
      simpa [atomsIn, atomsOf, restoredIn, restored, heightIn, height, spaceBetween, innerText,
        List.replicate_succ] using hall

/-- Nodes whose attributes are told apart are restored with all of them. -/
theorem restoredIn_eq_readBackIn (nodes : List XmlNode) :
    (∀ element ∈ preorderIn nodes, Writable element) → ∀ level,
      restoredIn nodes level = readBackIn nodes level := by
  induction nodes using forest_induction with
  | nil => exact fun _ level ↦ rfl
  | cons element children rest ihChildren ihRest =>
    intro hwritable level
    rw [preorderIn_cons, value_node, children_node, List.forall_mem_cons] at hwritable
    obtain ⟨helement, hbelow⟩ := hwritable
    have hchildren := ihChildren (fun other hother ↦ hbelow other (List.mem_append_left _ hother))
      (level + 1)
    have hrest := ihRest (fun other hother ↦ hbelow other (List.mem_append_right _ hother)) level
    rw [restoredIn, readBackIn, hrest]
    cases children with
    | nil => rw [restored, readBack, receive_startedNode helement]
    | cons child children =>
      rw [restored, readBack, receive_startedNode helement, hchildren]

theorem balanced_atomsIn (nodes : List XmlNode) : ∀ level, Balanced (atomsIn nodes level) := by
  induction nodes using forest_induction with
  | nil => exact fun level ↦ Balanced.nil
  | cons element children rest ihChildren ihRest =>
    intro level
    have hindent := Balanced.characters (indent level)
    have hfeed := Balanced.characters ['\n']
    cases children with
    | nil =>
      have hnode := (Balanced.characters (element.value.getD [])).element (element.name.getD [])
        (readAttributes element.attributes)
      have hall := ((hindent.append hnode).append hfeed).append (ihRest level)
      simpa [atomsIn, atomsOf] using hall
    | cons child children =>
      have hinner := (hfeed.append (ihChildren (level + 1))).append hindent
      have hnode := hinner.element (element.name.getD []) (readAttributes element.attributes)
      have hall := ((hindent.append hnode).append hfeed).append (ihRest level)
      simpa [atomsIn, atomsOf] using hall

/-- The reports on one node, taken apart. -/
theorem atomsOf_eq (element : XmlElement) (children : List XmlNode) (level : ℕ) :
    ∃ inner text children',
      atomsOf (.node element children) level = (indent level).map .character ++
        (.start (element.name.getD []) (readAttributes element.attributes) ::
          (inner ++ .stop (element.name.getD []) :: ['\n'].map .character)) ∧
      Balanced inner ∧ Builds inner text children' (heightIn children) ∧
      restored (.node element children) level =
        receive (startedNode (element.name.getD []) (readAttributes element.attributes)) text
          children' := by
  cases children with
  | nil =>
    refine ⟨(element.value.getD []).map .character, element.value.getD [], [], ?_,
      Balanced.characters _, Builds.characters _, ?_⟩
    · simp [atomsOf]
    · rw [restored]
  | cons child rest =>
    have hbuilds := ((Builds.characters ['\n']).append
      (builds_atomsIn (child :: rest) (level + 1))).append (Builds.characters (indent level))
    have hbalanced := ((Balanced.characters ['\n']).append
      (balanced_atomsIn (child :: rest) (level + 1))).append (Balanced.characters (indent level))
    refine ⟨_, innerText (rest.length + 1) level, restoredIn (child :: rest) (level + 1), ?_,
      hbalanced, ?_, ?_⟩
    · simp [atomsOf]
    · simpa [innerText, spaceBetween] using hbuilds
    · rw [restored]

/-! ### Documents -/

/-- A document with a node as its root: the declaration, a line feed and the node. -/
def document (root : XmlNode) : CString := declaration ++ '\n' :: nodeToString root

theorem document_ne_nil (root : XmlNode) : document root ≠ [] := by
  simp [document]

theorem toStringIndent_getLast? (node : XmlNode) (level : ℕ) :
    (toStringIndent node level).getLast? = some '\n' := by
  obtain ⟨element, children⟩ := node
  cases children with
  | nil => simp [toStringIndent, List.getLast?_cons]
  | cons child rest => simp [toStringIndent, List.getLast?_cons]

theorem document_getLast? (root : XmlNode) : (document root).getLast? ≠ some '\x00' := by
  have hlast : (document root).getLast? = some '\n' := by
    rw [document, List.getLast?_append, List.getLast?_cons, nodeToString, toStringIndent_getLast?]
    rfl
  rw [hlast]
  decide

/-- The reports on a root element. -/
theorem run_element {atoms : List Atom} {text name : CString} {children : List XmlNode} {levels : ℕ}
    {attributes : List XmlText.Attribute} (h : Builds atoms text children levels)
    (hlevels : 1 + levels ≤ xmlMaxDepth) :
    expat.run .init
        ((Atom.start name attributes :: (atoms ++ [.stop name])).map Callback.ofAtom) =
      some ⟨some (receive (startedNode name attributes) text children), [], 0⟩ := by
  rw [List.map_cons, TransitionSystem.run_cons_eq_some_iff]
  refine ⟨⟨none, [startedNode name attributes], 1⟩, rfl, ?_⟩
  rw [List.map_append, TransitionSystem.run_append_eq_some_iff]
  exact ⟨_, h _ _ 1 hlevels, rfl⟩

/-- The text of a tree, behind white space, is read as reports that restore the tree. -/
theorem readContent_nodeToString {root : XmlNode}
    (hlegible : ∀ element ∈ preorderIn [root], Legible element)
    (hheight : height root ≤ xmlMaxDepth)
    {before : CString} (hdata : ∀ c ∈ before, isDataChar c = true)
    (hbefore : ∀ c ∈ before, isSpace c = true) :
    ∃ atoms, readContent (before ++ nodeToString root) = some atoms ∧
      expat.run .init (atoms.map Callback.ofAtom) = some ⟨some (restored root 0), [], 0⟩ := by
  obtain ⟨element, children⟩ := root
  obtain ⟨inner, text, children', hatoms, hbalanced, hbuilds, hrestored⟩ :=
    atomsOf_eq element children 0
  have hspace : ReadsAs .content before .content (before.map .character) :=
    ReadsAs.characters hdata
  have hscans := (hspace.append (reads_childrenToString [.node element children] hlegible 0)).scans
  have hread : Scans .content (readLineEnds false (before ++ nodeToString (.node element children)))
      .content (before.map .character ++
        (.start (element.name.getD []) (readAttributes element.attributes) ::
          (inner ++ .stop (element.name.getD []) :: ['\n'].map .character))) := by
    simpa [atomsIn, hatoms, indent, childrenToString, nodeToString] using hscans
  have hroom : 1 + heightIn children ≤ xmlMaxDepth := by
    rw [height] at hheight
    omega
  exact ⟨_, readContent_eq hbalanced hbefore (by decide) hread,
    by rw [run_element hbuilds hroom, hrestored]⟩

/-- A document that is written is read as the tree with its names and leaves. -/
theorem xmlParse_document {parser : Parser} (hparser : Conforming parser) {root : XmlNode}
    (hwritable : ∀ element ∈ preorderIn [root], Writable element)
    (hheight : height root ≤ xmlMaxDepth) (hsize : byteLength (document root) ≤ intMax) :
    xmlParse parser (document root) = some (readBack root 0) := by
  obtain ⟨atoms, hcontent, hrun⟩ := @readContent_nodeToString root
    (fun element helement ↦ (hwritable element helement).legible) hheight ['\n'] (by decide)
    (by decide)
  have hread : readDocument (document root) = some atoms := by
    rw [document, readDocument, if_pos (List.isPrefixOf_iff_prefix.mpr (List.prefix_append _ _)),
      List.drop_left]
    exact hcontent
  have hback : restored root 0 = readBack root 0 :=
    (List.cons.inj (restoredIn_eq_readBackIn [root] hwritable 0)).1
  rw [xmlParse_of_readDocument hparser hread (document_ne_nil _) (document_getLast? _) hsize, hrun,
    ← hback]
  rfl

/-- A document that is too long is not read. -/
theorem xmlParse_of_lt {data : CString} (h : intMax < byteLength data) (parser : Parser) :
    xmlParse parser data = none := by
  rw [xmlParse, if_pos (.inr h)]

end Mupnp.Xml
