import Mupnp.Control.ResponseRoundTrip
import Mupnp.Soap.SoapMessage
import Mupnp.Util.LongString

/-!
# From a fault to a control point

`mupnp_control_soap_response_setfaultresponse` of `control/control_function.c`: a device answers a
request that it cannot perform with a fault, which has a code and a description in it. A control
point that decodes the fault finds both of them (`resultFromResponse_fault`): a code that is not
positive counts as none, and an empty description is not there at all.
-/

set_option autoImplicit false
set_option relaxedAutoImplicit false

namespace Mupnp.Control

open Foundation Foundation.RoseTree Foundation.XmlText Util Xml Soap

/-- `MUPNP_CONTROL_XMLNS`. -/
def controlXmlns : CString := "urn:schemas-upnp-org:control-1-0".toList

/-- `mupnp_control_soap_response_createfaultresponsenode`. -/
def createFaultResponseNode (errCode : ℤ) (errDescr : Option CString) : XmlNode :=
  let faultCodeNode :=
    (XmlNode.new.setName (some "faultcode".toList)).setValue (some "s:Client".toList)
  let faultStringNode :=
    (XmlNode.new.setName (some "faultstring".toList)).setValue (some "UPnPError".toList)
  let errorCodeNode :=
    (XmlNode.new.setName (some "errorCode".toList)).setValue (some (long2str errCode))
  let errorDescriptionNode :=
    (XmlNode.new.setName (some "errorDescription".toList)).setValue errDescr
  let upnpErrorNode := (((XmlNode.new.setName (some "UPnPError".toList)).setAttribute
    "xmlns".toList (some controlXmlns)).addChildNode errorCodeNode).addChildNode
      errorDescriptionNode
  let detailNode := (XmlNode.new.setName (some "detail".toList)).addChildNode upnpErrorNode
  (((XmlNode.new.setName (some "s:Fault".toList)).addChildNode faultCodeNode).addChildNode
    faultStringNode).addChildNode detailNode

/-- `mupnp_control_soap_response_setfaultresponse`: the content of the response. -/
def setFaultResponse (errCode : ℤ) (errDescr : Option CString) : CString :=
  setContent (addToBody createEnvelopeBodyNode (responseBodyPosition createEnvelopeBodyNode)
    (createFaultResponseNode errCode errDescr))

/-! ### The text of a fault -/

/-- A node without attributes and child nodes. -/
def leafNode (name : CString) (value : Option CString) : XmlNode := .node ⟨some name, value, []⟩ []

/-- The node that such a node is read as. -/
def readLeaf (name : CString) (value : Option CString) : XmlNode :=
  leafNode name (stringAddValue none (some (value.getD [])))

theorem readBack_leafNode (name : CString) (value : Option CString) (level : ℕ) :
    readBack (leafNode name value) level = readLeaf name value := by
  rw [leafNode, readBack]
  rfl

theorem createFaultResponseNode_eq (errCode : ℤ) (errDescr : Option CString) :
    createFaultResponseNode errCode errDescr =
      .node ⟨some "s:Fault".toList, none, []⟩
        [leafNode "faultcode".toList (some "s:Client".toList),
          leafNode "faultstring".toList (some "UPnPError".toList),
          .node ⟨some "detail".toList, none, []⟩
            [.node ⟨some "UPnPError".toList, none, [⟨some "xmlns".toList, some controlXmlns⟩]⟩
              [leafNode "errorCode".toList (some (long2str errCode)),
                leafNode "errorDescription".toList errDescr]]] := by
  have hdescr : (XmlNode.new.setName (some "errorDescription".toList)).setValue errDescr =
      leafNode "errorDescription".toList errDescr := by
    simp only [XmlNode.new, XmlNode.setName, XmlNode.setValue, XmlNode.withElement, value_node,
      children_node, stringSetValue_none_left, leafNode]
  rw [createFaultResponseNode, hdescr]
  rfl

theorem setFaultResponse_eq (errCode : ℤ) (errDescr : Option CString) :
    setFaultResponse errCode errDescr =
      setContent (envelopeAround [createFaultResponseNode errCode errDescr]) := by
  rw [setFaultResponse, addToBody_response]

theorem writable_leafNode {name : CString} (hname : IsName name) {value : Option CString}
    (hvalue : ∀ text ∈ value, ∀ c ∈ text, IsTextChar c) :
    Writable (leafNode name value).value := by
  rw [leafNode, value_node]
  refine ⟨⟨name, rfl, hname⟩, ?_, ?_, List.Pairwise.nil, hvalue⟩
  · rintro source ⟨⟩
  · rintro source ⟨⟩

/-- A character between the blank and the tilde is a character of a text. -/
theorem isTextChar_of_printable {c : Char} (hmin : 0x20 ≤ c.toNat) (hmax : c.toNat ≤ 0x7E) :
    IsTextChar c := by
  refine ⟨?_, ?_⟩
  · have hrange : (0x20 ≤ c.toNat && c.toNat ≤ 0xD7FF) = true := by
      rw [Bool.and_eq_true, decide_eq_true_eq, decide_eq_true_eq]
      omega
    rw [isXmlChar, hrange]
    simp only [Bool.or_true, Bool.true_or]
  · rintro rfl
    exact absurd hmin (by decide)

theorem isTextChar_long2str (value : ℤ) : ∀ c ∈ long2str value, IsTextChar c := by
  have hdigits : ∀ c ∈ Nat.toDigits 10 value.natAbs, IsTextChar c := by
    intro c hc
    have hdigit := isDigit_of_mem_toDigits hc
    rw [Char.isDigit, Bool.and_eq_true, decide_eq_true_eq, decide_eq_true_eq] at hdigit
    have hmin : 48 ≤ c.toNat := hdigit.1
    have hmax : c.toNat ≤ 57 := hdigit.2
    exact isTextChar_of_printable (by omega) (by omega)
  intro c hc
  rw [long2str] at hc
  split_ifs at hc
  · rcases List.mem_cons.mp hc with rfl | hc
    · decide
    · exact hdigits c hc
  · exact hdigits c hc

/-- A fault can be written when its description can. -/
theorem writable_fault (errCode : ℤ) {errDescr : Option CString}
    (htext : ∀ text ∈ errDescr, ∀ c ∈ text, IsTextChar c) :
    ∀ element ∈ preorderIn [createFaultResponseNode errCode errDescr], Writable element := by
  have hcode : ∀ text ∈ some (long2str errCode), ∀ c ∈ text, IsTextChar c := by
    rintro text ⟨⟩
    exact isTextChar_long2str errCode
  have hplain : ∀ {name : CString}, IsName name → Writable ⟨some name, none, []⟩ :=
    fun hname ↦ @writable_leafNode _ hname none fun text htext ↦ by cases htext
  have hleaf : ∀ {name text : CString}, IsName name → (∀ c ∈ text, IsTextChar c) →
      Writable ⟨some name, some text, []⟩ := by
    intro name text hname htext
    refine @writable_leafNode _ hname (some text) ?_
    rintro other ⟨⟩
    exact htext
  have herror : Writable
      ⟨some "UPnPError".toList, none, [⟨some "xmlns".toList, some controlXmlns⟩]⟩ := by
    refine ⟨⟨_, rfl, by decide⟩, ?_, ?_, List.pairwise_singleton _ _, ?_⟩
    · decide
    · decide
    · rintro text ⟨⟩
  simp only [createFaultResponseNode_eq, leafNode, preorderIn_cons, preorderIn_nil, value_node,
    children_node, List.append_nil, List.nil_append, List.forall_mem_cons]
  refine ⟨hplain (by decide), hleaf (by decide) (by decide), hleaf (by decide) (by decide),
    hplain (by decide), herror, hleaf (by decide) (isTextChar_long2str errCode),
    writable_leafNode (by decide) htext, fun element hmem ↦ absurd hmem List.not_mem_nil⟩

/-- The element with the code and the description of a fault as it is read. -/
def readUpnpError (errCode : ℤ) (errDescr : Option CString) : XmlNode :=
  .node ⟨some "UPnPError".toList, some (innerText 2 4), [⟨some "xmlns".toList, some controlXmlns⟩]⟩
    [readLeaf "errorCode".toList (some (long2str errCode)),
      readLeaf "errorDescription".toList errDescr]

/-- The element around it as it is read. -/
def readDetail (errCode : ℤ) (errDescr : Option CString) : XmlNode :=
  .node ⟨some "detail".toList, some (innerText 1 3), []⟩ [readUpnpError errCode errDescr]

/-- The element of a fault as it is read. -/
def readFault (errCode : ℤ) (errDescr : Option CString) : XmlNode :=
  .node ⟨some "s:Fault".toList, some (innerText 3 2), []⟩
    [readLeaf "faultcode".toList (some "s:Client".toList),
      readLeaf "faultstring".toList (some "UPnPError".toList), readDetail errCode errDescr]

theorem readBack_fault (errCode : ℤ) (errDescr : Option CString) :
    readBack (createFaultResponseNode errCode errDescr) 2 = readFault errCode errDescr := by
  have hattributes : readAttributes [⟨some "xmlns".toList, some controlXmlns⟩] =
      [("xmlns".toList, controlXmlns)] := by decide
  rw [createFaultResponseNode_eq]
  simp only [readBack, readBackIn, readBack_leafNode, readElement, hattributes]
  rfl

theorem height_fault (errCode : ℤ) (errDescr : Option CString) :
    height (createFaultResponseNode errCode errDescr) = 4 := by
  rw [createFaultResponseNode_eq]
  rfl

/-- A fault that is not too long is read by a conforming parser. -/
theorem xmlParse_setFaultResponse {parser : Parser} (hparser : Conforming parser) {errCode : ℤ}
    {errDescr : Option CString} (htext : ∀ text ∈ errDescr, ∀ c ∈ text, IsTextChar c)
    (hsize : byteLength (setFaultResponse errCode errDescr) ≤ intMax) :
    xmlParse parser (setFaultResponse errCode errDescr) =
      some (readEnvelope (readFault errCode errDescr)) := by
  rw [setFaultResponse_eq] at hsize ⊢
  rw [xmlParse_setContent hparser (writable_fault errCode htext)
    (by rw [height_fault]; decide) hsize, readBack_fault]

/-! ### Decoding a fault -/

theorem long2str_ne_nil (value : ℤ) : long2str value ≠ [] := by
  rw [long2str]
  split_ifs
  · exact List.cons_ne_nil _ _
  · exact Nat.toDigits_ne_nil

/-- The code that is read of a fault: one that is not positive counts as none. -/
theorem parseErrorCode_long2str {errCode : ℤ} (hmin : -2 ^ 31 ≤ errCode) (hmax : errCode < 2 ^ 31) :
    parseErrorCode (some (long2str errCode)) = max 0 errCode := by
  have hlong : longMax = 2 ^ 63 - 1 := rfl
  have hint : (intMax : ℤ) = 2 ^ 31 - 1 := rfl
  have hdigit : ∀ c ∈ Nat.toDigits 10 errCode.natAbs, c.isDigit = true :=
    fun c hc ↦ isDigit_of_mem_toDigits hc
  have hany : ((Nat.toDigits 10 errCode.natAbs).any fun c ↦ !c.isDigit) = false :=
    List.any_eq_false.mpr fun c hc ↦ by rw [hdigit c hc]; decide
  by_cases hneg : errCode < 0
  · have htext : long2str errCode = '-' :: Nat.toDigits 10 errCode.natAbs := by
      rw [long2str, if_pos hneg]
    have hread : atol (long2str errCode) = errCode := atol_long2str_of_neg hneg (by omega)
    have hspace : (long2str errCode).dropWhile isspace = long2str errCode := by
      rw [htext, List.dropWhile_cons_of_neg (by decide)]
    simp only [parseErrorCode, hspace, hread]
    rw [htext, List.head?_cons, if_pos (Or.inl rfl), List.tail_cons, hany, if_neg, if_neg (by omega)]
    · omega
    · rintro (h | h)
      · exact Nat.toDigits_ne_nil h
      · cases h
  · have htext : long2str errCode = Nat.toDigits 10 errCode.natAbs := by
      rw [long2str, if_neg hneg]
    have hread : atol (long2str errCode) = errCode := atol_long2str (by omega) (by omega)
    obtain ⟨first, rest, hcons⟩ :=
      List.exists_cons_of_ne_nil (@Nat.toDigits_ne_nil errCode.natAbs 10)
    have hfirst := ne_of_isDigit (hdigit first (hcons ▸ List.mem_cons_self))
    have hspace : (long2str errCode).dropWhile isspace = long2str errCode := by
      rw [htext, hcons, List.dropWhile_cons_of_neg (by rw [hfirst.1]; decide)]
    have hsign : ¬ ((long2str errCode).head? = some '-' ∨ (long2str errCode).head? = some '+') := by
      rw [htext, hcons, List.head?_cons, Option.some.injEq, Option.some.injEq]
      exact fun h ↦ h.elim hfirst.2.1 hfirst.2.2
    simp only [parseErrorCode, hspace, hread]
    rw [if_neg hsign, htext, hany, if_neg]
    · split_ifs <;> omega
    · rintro (h | h)
      · exact Nat.toDigits_ne_nil h
      · cases h

/-- **Faults arrive.** A control point that decodes the fault of a device has its code, if that is
positive, and its description. -/
theorem resultFromResponse_fault {parser : Parser} (hparser : Conforming parser)
    (action : ServiceAction) {errCode : ℤ} {errDescr : Option CString}
    (hmin : -2 ^ 31 ≤ errCode) (hmax : errCode < 2 ^ 31)
    (htext : ∀ text ∈ errDescr, ∀ c ∈ text, IsTextChar c)
    (hsize : byteLength (setFaultResponse errCode errDescr) ≤ intMax) :
    resultFromResponse parser (some action) 500 (some (setFaultResponse errCode errDescr)) =
      { ActionResult.new with
        code := .soapFault
        httpStatusCode := 500
        upnpErrorCode := max 0 errCode
        faultCode := some "s:Client".toList
        faultString := some "UPnPError".toList
        errorDescription := stringAddValue none (some (errDescr.getD [])) } := by
  have hcode := parseErrorCode_long2str hmin hmax
  have hnumber : stringAddValue none (some (long2str errCode)) = some (long2str errCode) :=
    stringAddValue_of_ne_nil none (long2str_ne_nil errCode)
  have hcontent : actionResponseContent [readEnvelope (readFault errCode errDescr)] =
      some (responsePath (readFault errCode errDescr)) := rfl
  have hfault : actionNodeIs (responsePath (readFault errCode errDescr)) (some "Fault".toList)
      (some xmlnsUrl) = true := rfl
  have herror : actionNodeIs (readUpnpError errCode errDescr :: readDetail errCode errDescr ::
      responsePath (readFault errCode errDescr)) (some "UPnPError".toList)
        (some controlXmlns) = true := rfl
  have hset : setFault (statusResult 500) (responsePath (readFault errCode errDescr))
      (readFault errCode errDescr) =
      if actionNodeIs (readUpnpError errCode errDescr :: readDetail errCode errDescr ::
          responsePath (readFault errCode errDescr)) (some "UPnPError".toList)
            (some controlXmlns) = true then
        { statusResult 500 with
          code := .soapFault
          upnpErrorCode := parseErrorCode (stringAddValue none (some (long2str errCode)))
          faultCode := some "s:Client".toList
          faultString := some "UPnPError".toList
          errorDescription := stringSetValue none (stringAddValue none (some (errDescr.getD []))) }
      else
        { statusResult 500 with
          code := .soapFault
          faultCode := some "s:Client".toList
          faultString := some "UPnPError".toList } := rfl
  rw [resultFromResponse_of_ne_zero (by decide), xmlParse_setFaultResponse hparser htext hsize,
    Option.toList_some, decodeNodes, hcontent]
  show (if actionNodeIs (responsePath (readFault errCode errDescr)) _ _ = true then _ else _) = _
  rw [if_pos hfault]
  exact hset.trans (by rw [if_pos herror, hnumber, hcode, stringSetValue_none_left]; rfl)

end Mupnp.Control
