import Mupnp.Soap.Soap

/-!
# Sending and receiving SOAP messages

A message is written as the text of its envelope and read by a conforming parser.
`xmlParse_setContent` says what is read of an envelope around one node, and
`byteLength_setContent` how long its text is.
-/

set_option autoImplicit false
set_option relaxedAutoImplicit false

namespace Mupnp.Soap

open Foundation Foundation.RoseTree Foundation.XmlText Util Xml

/-! ### Envelopes -/

theorem writable_envelope : ∀ content, Writable (envelopeAround content).value := by
  intro content
  have hsources : attributeSources none (envelopeAround content).value.attributes =
      [("xmlns:s".toList, xmlnsUrl), ("s:encodingStyle".toList, encStyleUrl)] := by
    simp only [envelopeAround, value_node, attributeSources, stringSetValue_some]
    rfl
  refine ⟨⟨_, rfl, by decide⟩, ?_, ?_, ?_, ?_⟩
  · rw [hsources]
    decide
  · rw [hsources]
    decide
  · rw [hsources]
    decide
  · rintro value ⟨⟩

theorem writable_body : Writable ⟨some "s:Body".toList, none, []⟩ := by
  refine ⟨⟨_, rfl, by decide⟩, ?_, ?_, ?_, ?_⟩
  · rintro source ⟨⟩
  · rintro source ⟨⟩
  · exact List.Pairwise.nil
  · rintro value ⟨⟩

/-- The body of a message as it is read. -/
def readBody (content : XmlNode) : XmlNode :=
  .node ⟨some "s:Body".toList, some (innerText 1 1), []⟩ [content]

/-- The envelope of a message as it is read. -/
def readEnvelope (content : XmlNode) : XmlNode :=
  .node ⟨some "s:Envelope".toList, some (innerText 1 0),
      [⟨some "xmlns:s".toList, some xmlnsUrl⟩, ⟨some "s:encodingStyle".toList, some encStyleUrl⟩]⟩
    [readBody content]

theorem readBack_envelopeAround (node : XmlNode) :
    readBack (envelopeAround [node]) 0 = readEnvelope (readBack node 2) := by
  have hattributes : readAttributes
      [⟨some "xmlns:s".toList, some xmlnsUrl⟩, ⟨some "s:encodingStyle".toList, some encStyleUrl⟩] =
      [("xmlns:s".toList, xmlnsUrl), ("s:encodingStyle".toList, encStyleUrl)] := by
    decide
  simp only [envelopeAround, readBack, readBackIn, readElement, hattributes]
  rfl

/-- What a message starts with. -/
def envelopeStart : CString :=
  versionHeader ++ '\n' :: '<' :: ("s:Envelope".toList ++
    (attributesToString none (envelopeAround []).attributes ++
      '>' :: '\n' :: ' ' :: '<' :: ("s:Body".toList ++ ['>', '\n'])))

/-- What a message ends with. -/
def envelopeEnd : CString :=
  ' ' :: '<' :: '/' :: ("s:Body".toList ++ '>' :: '\n' :: '<' :: '/' ::
    ("s:Envelope".toList ++ ['>', '\n']))

theorem setContent_envelopeAround (node : XmlNode) :
    setContent (envelopeAround [node]) =
      envelopeStart ++ (toStringIndent node 2 ++ envelopeEnd) := by
  have hbody : attributesToString none [] = [] := rfl
  simp only [setContent, nodeToString, envelopeAround, toStringIndent, childrenToString, hbody,
    envelopeStart, envelopeEnd, XmlNode.attributes, value_node, Option.getD_some,
      List.replicate_zero,
    List.replicate_succ, List.nil_append, List.append_nil, List.cons_append, List.append_assoc]

/-- The length of a message without its content. -/
def envelopeLength : ℕ := 199

theorem byteLength_setContent (node : XmlNode) :
    byteLength (setContent (envelopeAround [node])) =
      envelopeLength + byteLength (toStringIndent node 2) := by
  have haround : byteLength envelopeStart + byteLength envelopeEnd = envelopeLength := by
    decide +kernel
  rw [setContent_envelopeAround, byteLength_append, byteLength_append]
  omega

/-- An envelope around a node that can be written is read by a conforming parser. -/
theorem xmlParse_setContent {parser : Parser} (hparser : Conforming parser) {node : XmlNode}
    (hwritable : ∀ element ∈ preorderIn [node], Writable element)
    (hheight : height node + 2 ≤ xmlMaxDepth)
    (hsize : byteLength (setContent (envelopeAround [node])) ≤ intMax) :
    xmlParse parser (setContent (envelopeAround [node])) =
      some (readEnvelope (readBack node 2)) := by
  have hall : ∀ element ∈ preorderIn [envelopeAround [node]], Writable element := by
    have hnodes : preorderIn [envelopeAround [node]] =
        (envelopeAround [node]).value :: ⟨some "s:Body".toList, none, []⟩ :: preorderIn [node] := by
      simp only [envelopeAround, preorderIn_cons, preorderIn_nil, value_node, children_node,
        List.append_nil]
    rw [hnodes, List.forall_mem_cons, List.forall_mem_cons]
    exact ⟨writable_envelope _, writable_body, hwritable⟩
  have hlevels : height (envelopeAround [node]) = height node + 2 := by
    simp only [envelopeAround, height, heightIn, Nat.max_zero]
  rw [setContent_eq, xmlParse_document hparser hall (hlevels.trans_le hheight) hsize,
    readBack_envelopeAround]

/-- No parser reads a message with a character that XML does not have. -/
theorem xmlParse_setContent_of_mem {parser : Parser} (hparser : Conforming parser) {node : XmlNode}
    {c : Char} (hmem : c ∈ toStringIndent node 2) (hc : isXmlChar c = false) :
    xmlParse parser (setContent (envelopeAround [node])) = none := by
  have hrefused : parser (setContent (envelopeAround [node])) = none := by
    refine hparser.refuses _ ⟨c, ?_, hc⟩
    rw [setContent_envelopeAround]
    exact List.mem_append_right _ (List.mem_append_left _ hmem)
  have hlast := document_getLast? (envelopeAround [node])
  rw [← setContent_eq] at hlast
  rw [xmlParse, if_neg hlast, hrefused]
  split <;> rfl

end Mupnp.Soap
