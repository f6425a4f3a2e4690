import Mathlib.Data.List.Pairwise
import Mupnp.Control.CallElement
import Mupnp.Control.ResponseAcceptance

/-!
# From a device to a control point

A device writes the response to an action, and a control point parses and decodes it.
`response_arrives_iff` says when the values of the output arguments arrive, whatever the memory of
the array held in which the device puts the name of the response together: the name of the action
has to be shorter than the array has room for, since `mupnp_strncat` leaves a longer one without a
terminator; the service needs a type that an attribute carries unchanged; and the message must not
be longer than the parser accepts.
-/

set_option autoImplicit false
set_option relaxedAutoImplicit false

namespace Mupnp.Control

open Foundation Foundation.RoseTree Foundation.XmlText Util Xml Soap

/-! ### Schemas -/

/-- An action whose response can be written: its name and the names of its output arguments are
names of XML, its arguments are told apart whatever the case of their letters, and its output
values are made of characters of XML. -/
structure ResponseSchema (action : ServiceAction) : Prop where
  name : ∃ name, action.getName = some name ∧ IsLocalName name
  outputs : ∀ arg ∈ action.argumentList, arg.isOutDirection = true → WritableArgument arg
  distinct : (action.argumentList.filterMap Argument.getName).Pairwise
    fun name other ↦ strcaseeq name other = false

/-- The values of the output arguments by name, an unset value as the empty string. -/
def outputValues (argList : List Argument) : Dictionary :=
  (argList.filter Argument.isOutDirection).map fun arg ↦ ⟨arg.getName, some (arg.value.getD [])⟩

/-- The response of a device arrives at a control point, whatever the array for its name held
before. -/
def ResponseArrives (parser : Parser) (action : ServiceAction) : Prop :=
  ∀ memory : CharBuffer, memory.length = nodeNameSize →
    ∃ content, setResponse memory action = some content ∧
      (resultFromResponse parser (some action) 200 (some content)).code = .success ∧
      (resultFromResponse parser (some action) 200 (some content)).outputs =
        outputValues action.argumentList

/-- A character that an attribute carries unchanged. -/
def isAttributeChar (c : Char) : Bool := isXmlChar c && c ≠ '\t' && c ≠ '\n' && c ≠ '\r'

/-- The length of the response to an action. -/
def responseLength (action : ServiceAction) : ℕ :=
  envelopeLength + callLength ("u:".toList ++ action.getName.getD [] ++ "Response".toList)
    (11 + escapedLength action.service.getServiceType)
    (action.argumentList.filter Argument.isOutDirection)

section schema

variable {action : ServiceAction}

theorem strcaseeq_comm (str1 str2 : CString) : strcaseeq str1 str2 = strcaseeq str2 str1 := by
  rw [strcaseeq, strcaseeq, Bool.beq_comm]

/-- Arguments that are told apart have different names. -/
theorem eq_of_strcaseeq {argList : List Argument}
    (h : (argList.filterMap Argument.getName).Pairwise fun name other ↦
      strcaseeq name other = false)
    {arg other : Argument} (harg : arg ∈ argList) (hother : other ∈ argList) {name name' : CString}
    (hname : arg.getName = some name) (hname' : other.getName = some name')
    (hsame : strcaseeq name name' = true) : arg = other := by
  by_contra hne
  have hsymm : Std.Symm fun arg other : Argument ↦ ∀ name, arg.getName = some name →
      ∀ name', other.getName = some name' → strcaseeq name name' = false := by
    refine ⟨fun arg other hdiffer name hname name' hname' ↦ ?_⟩
    rw [strcaseeq_comm]
    exact hdiffer name' hname' name hname
  have hdiffer := (List.pairwise_filterMap.mp h).forall harg hother hne name hname name' hname'
  rw [hsame] at hdiffer
  cases hdiffer

theorem ResponseSchema.distinctOutputs (h : ResponseSchema action) :
    DistinctOutputs action.argumentList := by
  have hnamed : ∀ arg ∈ action.argumentList, arg.isOutDirection = true →
      ∃ name, arg.getName = some name ∧ name ≠ [] := by
    intro arg harg hout
    obtain ⟨name, hname, hlocal⟩ := (h.outputs arg harg hout).name
    exact ⟨name, hname, ne_nil_of_isName (isName_of_isLocalName hlocal)⟩
  refine ⟨?_, ?_, ?_⟩
  · intro arg harg hout
    obtain ⟨name, hname, hne⟩ := hnamed arg harg hout
    rw [hname]
    exact List.length_pos_of_ne_nil hne
  · intro arg harg hout other hother hname
    obtain ⟨name, hself, -⟩ := hnamed arg harg hout
    rw [eq_of_strcaseeq h.distinct hother harg (hname.trans hself) hself (strcaseeq_self name)]
    exact hout
  · have hpairwise := (List.pairwise_filterMap.mp h.distinct).filter Argument.isOutDirection
    refine List.pairwise_map.mpr (hpairwise.imp_of_mem ?_)
    intro arg other harg _ hdiffer hname
    obtain ⟨hmem, hout⟩ := List.mem_filter.mp harg
    obtain ⟨name, hself, -⟩ := hnamed arg hmem hout
    have hfalse := hdiffer name hself name (hname ▸ hself)
    rw [strcaseeq_self] at hfalse
    cases hfalse

end schema

/-! ### The name of the response -/

section name

variable {memory : CharBuffer} {name : CString}

/-- A short name is put together whatever the array held. -/
theorem responseNodeName_of_lt (hmemory : memory.length = nodeNameSize) (hname : '\x00' ∉ name)
    (hlt : byteLength name < actionNameLenMax) :
    responseNodeName memory (some name) =
      some ("u:".toList ++ name ++ "Response".toList) := by
  have hsize : nodeNameSize = 142 := rfl
  have hmax : actionNameLenMax = 128 := rfl
  have hprefixLength : (utf8 "u".toList).length = 1 := rfl
  have hdelimLength : (utf8 ":".toList).length = 1 := rfl
  have hnamedLength : (utf8 ("u".toList ++ ":".toList)).length = 2 := rfl
  have hsuffixLength : (utf8 "Response".toList).length = 8 := rfl
  have hlength : (utf8 name).length = byteLength name := length_utf8 name
  obtain ⟨named, hnamed, hnamedHolds, hnamedSize⟩ :=
    @CharBuffer.strcpy_holds memory "u".toList (by omega)
  obtain ⟨delimited, hdelimited, hdelimitedHolds, hdelimitedSize⟩ :=
    @CharBuffer.Holds.strcat_holds named "u".toList ":".toList hnamedHolds (by decide) (by omega)
  obtain ⟨appended, happended, happendedHolds, happendedSize⟩ :=
    @CharBuffer.Holds.strncat_holds delimited _ name hdelimitedHolds (by decide) actionNameLenMax
      (by omega) (by omega)
  have hnul : '\x00' ∉ "u".toList ++ ":".toList ++ name := by
    rw [List.mem_append]
    rintro (h | h)
    · exact absurd h (by decide)
    · exact hname h
  have happendedLength : (utf8 ("u".toList ++ ":".toList ++ name)).length =
      2 + byteLength name := by
    rw [utf8_append, List.length_append, hnamedLength, hlength]
  obtain ⟨full, hfull, hfullHolds, -⟩ :=
    @CharBuffer.Holds.strcat_holds appended _ "Response".toList happendedHolds hnul (by omega)
  have htext := hfullHolds.text_eq (by
    rw [List.mem_append]
    rintro (h | h)
    · exact hnul h
    · exact absurd h (by decide))
  rw [responseNodeName, hnamed, Option.bind_some, hdelimited, Option.bind_some, Option.bind_some,
    happended, Option.bind_some, hfull, Option.bind_some, htext]
  rfl

/-- A name that fills its part of the array is not terminated when the array held no terminator
behind it. -/
theorem responseNodeName_of_le (hle : actionNameLenMax ≤ byteLength name) (hname : '\x00' ∉ name) :
    responseNodeName (List.replicate nodeNameSize 1) (some name) = none := by
  have hlong : actionNameLenMax ≤ (utf8 name).length := hle.trans_eq (length_utf8 name).symm
  have hnamed : CharBuffer.strcpy (List.replicate nodeNameSize 1) "u".toList =
      some (utf8 "u".toList ++ 0 :: List.replicate 140 1) := by decide +kernel
  have hdelimited : CharBuffer.strcat (utf8 "u".toList ++ 0 :: List.replicate 140 1) ":".toList =
      some (utf8 "u:".toList ++ 0 :: List.replicate 139 1) := by decide +kernel
  have happended := @CharBuffer.Holds.strncat_of_le (utf8 "u:".toList ++ 0 :: List.replicate 139 1)
    "u:".toList name ⟨_, rfl⟩ (by decide) actionNameLenMax hlong (by decide +kernel)
  have hrest : (utf8 "u:".toList ++ 0 :: List.replicate 139 1 : CharBuffer).drop
      ((utf8 "u:".toList).length + actionNameLenMax) = List.replicate 12 1 := by
    decide +kernel
  have hnone : ∀ b ∈ utf8 "u:".toList ++ ((utf8 name).take actionNameLenMax ++
      List.replicate 12 1), b ≠ 0 := by
    intro b hb
    rcases List.mem_append.mp hb with hb | hb
    · exact utf8_ne_zero (by decide) b hb
    · rcases List.mem_append.mp hb with hb | hb
      · exact utf8_ne_zero hname b (List.mem_of_mem_take hb)
      · rw [List.eq_of_mem_replicate hb]
        decide
  have hunterminated : CharBuffer.length? (utf8 "u:".toList ++ ((utf8 name).take actionNameLenMax ++
      List.replicate 12 1)) = none := by
    rw [CharBuffer.length?, List.findIdx?_eq_none_iff]
    intro b hb
    exact beq_false_of_ne (hnone b hb)
  rw [hrest] at happended
  rw [responseNodeName, hnamed, Option.bind_some, hdelimited, Option.bind_some, Option.bind_some,
    happended, Option.bind_some, CharBuffer.strcat, hunterminated]
  rfl

theorem localName_of_isLocalName (h : IsLocalName name) : localName name = name := by
  rw [localName, if_neg (ne_colon_of_isLocalName h)]

theorem isName_responseElement (h : IsLocalName name) :
    IsName ("u:".toList ++ name ++ "Response".toList) := by
  have hlocal : IsLocalName (name ++ "Response".toList) := isLocalName_append h (by decide)
  exact @isName_append "u".toList _ (by decide) hlocal

end name

/-! ### The text of the response -/

section text

variable {action : ServiceAction}

/-- The attributes of the response element. -/
def responseAttributes (service : ControlledService) : List XmlAttribute :=
  if service.serviceNode.isSome then [serviceDeclaration service.getServiceType] else []

/-- The response element with a name. -/
def responseElement (action : ServiceAction) (nodeName : CString) : XmlNode :=
  callNode nodeName (responseAttributes action.service)
    (action.argumentList.filter Argument.isOutDirection)

theorem setResponse_eq (memory : CharBuffer) (action : ServiceAction) :
    setResponse memory action = (responseNodeName memory action.getName).map fun nodeName ↦
      setContent (envelopeAround [responseElement action nodeName]) := by
  rw [setResponse, createResponseNode, Option.map_map]
  congr 1
  funext nodeName
  rw [Function.comp_apply, addToBody_response, XmlNode.foldl_addChildNode, responseElement,
    callNode, responseAttributes]
  by_cases hservice : action.service.serviceNode.isSome = true
  · have hnamed : (XmlNode.new.setName (some nodeName)).setAttribute "xmlns:u".toList
        action.service.getServiceType =
        .node ⟨some nodeName, none, [serviceDeclaration action.service.getServiceType]⟩ [] := by
      simp only [XmlNode.new, XmlNode.setName, XmlNode.setAttribute, XmlNode.withElement,
        value_node,
        children_node, attributeListSet, stringSetValue_none_left, serviceDeclaration]
    rw [if_pos hservice, if_pos hservice, hnamed]
    rfl
  · rw [if_neg hservice, if_neg hservice]
    rfl

theorem responseAttributes_eq (service : ControlledService) :
    responseAttributes service = [] ∧ service.getServiceType = none ∨
      responseAttributes service = [serviceDeclaration service.getServiceType] := by
  rw [responseAttributes]
  cases hservice : service.serviceNode with
  | none =>
    refine .inl ⟨rfl, ?_⟩
    rw [ControlledService.getServiceType, hservice, Option.bind_none]
  | some node => exact .inr rfl

end text

/-! ### Decoding the response -/

section decoding

variable {parser : Parser} {action : ServiceAction} {content name : CString} {response : XmlNode}

theorem resultFromResponse_of_none (h : xmlParse parser content = none) :
    (resultFromResponse parser (some action) 200 (some content)).code = .parseError := by
  rw [resultFromResponse_of_ne_zero (by decide), h]
  rfl

theorem resultFromResponse_of_some (h : xmlParse parser content = some (readEnvelope response)) :
    resultFromResponse parser (some action) 200 (some content) =
      decodeNodes (statusResult 200) action [readEnvelope response] := by
  rw [resultFromResponse_of_ne_zero (by decide), h]
  rfl

/-- The path to the response element of an envelope that was read. -/
def responsePath (response : XmlNode) : List XmlNode :=
  [response, readBody response, readEnvelope response]

/-- The shape of an envelope that was read, when its content is the response element. -/
theorem responseShape_readEnvelope
    (his : ElementIs (responsePath response) (responseName action) action.service.getServiceType) :
    ResponseShape ElementIs action [readEnvelope response] (readEnvelope response)
      (readBody response) response :=
  responseShape_iff.mpr ⟨rfl, his⟩

/-- Other content is not decoded. -/
theorem decodeNodes_of_not_elementIs
    (his : ¬ ElementIs (responsePath response)
      (responseName action) action.service.getServiceType) :
    (decodeNodes (statusResult 200) action [readEnvelope response]).code ≠ .success := by
  have hshape : ∀ envelope body other,
      ¬ ResponseShape ElementIs action [readEnvelope response] envelope body other := by
    intro envelope body other hshape
    obtain ⟨hother, hotherIs⟩ := responseShape_iff.mp hshape
    have hcontent : actionResponseContent [readEnvelope response] = some (responsePath response) :=
        rfl
    rw [← Option.some.inj (hcontent.symm.trans hother)] at hotherIs
    exact his hotherIs
  obtain ⟨-, hcode⟩ := @decodeNodes_of_not_shape action (statusResult 200) _ (.inr hshape)
  intro hsuccess
  rcases hcode with hcode | hcode
  · cases hcode.symm.trans hsuccess
  · cases hcode.symm.trans hsuccess

/-- The test of an element with the prefix of a service. -/
theorem elementIs_of_prefix {ancestors : List XmlNode} {ns : Option CString}
    (hname : response.name = some ("u:".toList ++ name)) :
    ElementIs (response :: ancestors) (some name) ns ↔
      ∃ value, Declares getAttributeValue (response :: ancestors) "xmlns:u".toList value ∧
        some value = ns := by
  have hlocal : localName ("u:".toList ++ name) = name := rfl
  have hstart : namespacePrefix ("u:".toList ++ name) = some "u".toList := rfl
  have hdeclaration : xmlDeclarationName ("u:".toList ++ name) = "xmlns:u".toList := rfl
  constructor
  · rintro ⟨node, others, full, value, hpath, hfull, -, -, hdeclares, hns⟩
    obtain ⟨rfl, rfl⟩ := List.cons.inj hpath
    obtain rfl := Option.some.inj (hname.symm.trans hfull)
    exact ⟨value, hdeclares, hns⟩
  · rintro ⟨value, hdeclares, hns⟩
    refine ⟨response, ancestors, _, value, rfl, hname, congrArg some hlocal, ?_, hdeclares, hns⟩
    intro nsPrefix hmem
    obtain rfl := Option.some.inj (hstart.symm.trans hmem)
    decide

/-- The response element that was read is in the namespace of the service when an attribute carries
its type unchanged. -/
theorem elementIs_readElement {text full : CString} {leaves : List XmlNode}
    (hname : action.getName = some name)
    (hfull : full = "u:".toList ++ name ++ "Response".toList) :
    ElementIs
        (responsePath (.node (readElement ⟨some full, none, responseAttributes action.service⟩ text)
          leaves))
        (responseName action) action.service.getServiceType ↔
      ∃ serviceType, action.service.getServiceType = some serviceType ∧
        readValue serviceType = serviceType := by
  have hresponse : responseName action = some (name ++ "Response".toList) := by
    rw [responseName, hname, Option.getD_some]
  rw [hresponse, responsePath, elementIs_of_prefix (by rw [hfull, List.append_assoc]; rfl)]
  rcases responseAttributes_eq action.service with ⟨-, hnone⟩ | hattributes
  · rw [hnone]
    constructor
    · rintro ⟨value, -, ⟨⟩⟩
    · rintro ⟨serviceType, ⟨⟩, -⟩
  · have hread : readAttributes [serviceDeclaration action.service.getServiceType] =
        [("xmlns:u".toList, readValue (action.service.getServiceType.getD []))] := by
      simp only [readAttributes, serviceDeclaration, attributeSources, stringSetValue_none_left,
        Option.getD_some, List.map_cons, List.map_nil]
    rw [hattributes]
    simp only [declares_iff, readElement, hread, List.map_cons, List.map_nil]
    constructor
    · rintro ⟨value, hvalue, htype⟩
      rw [← htype, Option.getD_some] at hvalue
      exact ⟨value, htype.symm, Option.some.inj hvalue⟩
    · rintro ⟨serviceType, htype, hsame⟩
      rw [htype, Option.getD_some, hsame]
      exact ⟨serviceType, rfl, rfl⟩

/-- What a leaf of the response element gives. -/
theorem outputOf_readArgument {arg : Argument} (h : WritableArgument arg) :
    outputOf (readArgument arg) = ⟨arg.getName, some (arg.value.getD [])⟩ ∧
      actionLocalName (readArgument arg) = arg.getName := by
  obtain ⟨argName, hargName, hlocal⟩ := h.name
  have hname : actionLocalName (readArgument arg) = arg.getName := by
    rw [actionLocalName, readArgument, XmlNode.name, value_node, hargName, Option.map_some,
      localName_of_isLocalName hlocal]
  have htext : (readArgument arg).text.getD [] = arg.value.getD [] := by
    rw [readArgument, XmlNode.text, value_node]
    cases arg.value.getD [] with
    | nil => rfl
    | cons c rest => rfl
  exact ⟨by rw [outputOf, hname, htext], hname⟩

/-- The outputs of a response element that was read. -/
theorem decodeNodes_of_elementIs (hschema : ResponseSchema action)
    (hleaves : response.children =
      (action.argumentList.filter Argument.isOutDirection).map readArgument)
    (his : ElementIs (responsePath response) (responseName action) action.service.getServiceType) :
    (decodeNodes (statusResult 200) action [readEnvelope response]).code = .success ∧
      (decodeNodes (statusResult 200) action [readEnvelope response]).outputs =
        outputValues action.argumentList := by
  have hread : ∀ arg ∈ action.argumentList.filter Argument.isOutDirection,
      outputOf (readArgument arg) = ⟨arg.getName, some (arg.value.getD [])⟩ ∧
        actionLocalName (readArgument arg) = arg.getName := by
    intro arg harg
    obtain ⟨hmem, hout⟩ := List.mem_filter.mp harg
    exact outputOf_readArgument (hschema.outputs arg hmem hout)
  have hnames : response.children.map actionLocalName = outNames action.argumentList := by
    rw [hleaves, List.map_map, outNames]
    exact List.map_congr_left fun arg harg ↦ (hread arg harg).2
  have houtputs : response.children.map outputOf = outputValues action.argumentList := by
    rw [hleaves, List.map_map, outputValues]
    exact List.map_congr_left fun arg harg ↦ (hread arg harg).1
  have hchildren : ∀ child ∈ response.children, child.children = [] := by
    rw [hleaves]
    intro child hchild
    obtain ⟨arg, -, rfl⟩ := List.mem_map.mp hchild
    rfl
  have hset := setOutputs_of_subperm hschema.distinctOutputs
    (show (statusResult 200).outputs = [] from rfl) his hchildren
    (hnames ▸ List.Subperm.refl _)
  rw [decodeNodes_of_shape ActionResultCode.noConfusion (responseShape_readEnvelope his)]
  rw [responsePath] at hset
  rw [hset, if_pos (hnames ▸ List.Subset.refl _)]
  exact ⟨rfl, houtputs⟩

end decoding

/-! ### Which responses arrive -/

section arrival

variable {parser : Parser} {action : ServiceAction} {name : CString}

/-- The text of the response of an action with a name. -/
def responseText (action : ServiceAction) (name : CString) : CString :=
  setContent (envelopeAround [responseElement action ("u:".toList ++ name ++ "Response".toList)])

theorem setResponse_of_lt (hname : action.getName = some name) (hlocal : IsLocalName name)
    (hlt : byteLength name < actionNameLenMax) {memory : CharBuffer}
    (hmemory : memory.length = nodeNameSize) :
    setResponse memory action = some (responseText action name) := by
  rw [setResponse_eq, hname, responseNodeName_of_lt hmemory (ne_nul_of_isLocalName hlocal) hlt]
  rfl

theorem byteLength_responseText (hname : action.getName = some name) {serviceType : CString}
    (htype : action.service.getServiceType = some serviceType) :
    byteLength (responseText action name) = responseLength action := by
  have hattributes : responseAttributes action.service =
      [serviceDeclaration action.service.getServiceType] := by
    rcases responseAttributes_eq action.service with ⟨-, hnone⟩ | hattributes
    · cases htype.symm.trans hnone
    · exact hattributes
  rw [responseText, byteLength_setContent, responseElement, byteLength_callNode, hattributes,
    byteLength_serviceDeclaration, responseLength, hname, Option.getD_some]

theorem mem_responseElement {c : Char} {nodeName : CString}
    (hc : c ∈ action.service.getServiceType.getD []) (hxml : isXmlChar c = false) :
    c ∈ toStringIndent (responseElement action nodeName) 2 := by
  rcases responseAttributes_eq action.service with ⟨-, hnone⟩ | hattributes
  · rw [hnone] at hc
    cases hc
  · rw [responseElement, hattributes]
    exact mem_callNode hc hxml

/-- The response element can be written when the type of the service is made of characters of XML.
-/
theorem writable_responseElement (hschema : ResponseSchema action) (hlocal : IsLocalName name)
    (htype : ∀ c ∈ action.service.getServiceType.getD [], isXmlChar c = true) :
    ∀ element ∈ preorderIn [responseElement action ("u:".toList ++ name ++ "Response".toList)],
      Writable element := by
  refine writable_callNode ?_ fun arg harg ↦ ?_
  · rcases responseAttributes_eq action.service with ⟨hattributes, -⟩ | hattributes
    · rw [hattributes]
      exact writable_of_attributes_nil (isName_responseElement hlocal)
    · rw [hattributes]
      exact writable_of_serviceDeclaration (isName_responseElement hlocal) htype
  · obtain ⟨hmem, hout⟩ := List.mem_filter.mp harg
    exact hschema.outputs arg hmem hout

/-- A response that is not too long is decoded when an attribute carries the type of the service. -/
theorem decoded_responseText_iff (hparser : Conforming parser) (hschema : ResponseSchema action)
    (hname : action.getName = some name) (hlocal : IsLocalName name) :
    ((resultFromResponse parser (some action) 200 (some (responseText action name))).code =
      .success ∧
      (resultFromResponse parser (some action) 200 (some (responseText action name))).outputs =
        outputValues action.argumentList) ↔
      byteLength (responseText action name) ≤ intMax ∧
        ∃ serviceType, action.service.getServiceType = some serviceType ∧
          ∀ c ∈ serviceType, isAttributeChar c = true := by
  by_cases hsize : byteLength (responseText action name) ≤ intMax
  · by_cases htype : ∀ c ∈ action.service.getServiceType.getD [], isXmlChar c = true
    · obtain ⟨text, hback⟩ := readBack_callNode ("u:".toList ++ name ++ "Response".toList)
        (responseAttributes action.service) (action.argumentList.filter Argument.isOutDirection) 2
      have hheight : height (responseElement action
          ("u:".toList ++ name ++ "Response".toList)) + 2 ≤ xmlMaxDepth :=
        (Nat.add_le_add_right (height_callNode _ _ _) 2).trans (by decide)
      have hparse := xmlParse_setContent hparser (writable_responseElement hschema hlocal htype)
        hheight hsize
      rw [responseElement, hback] at hparse
      have his := @elementIs_readElement action name text _
        ((action.argumentList.filter Argument.isOutDirection).map readArgument) hname rfl
      have hresult := @resultFromResponse_of_some parser action _ _ hparse
      rw [responseText, responseElement, hresult]
      constructor
      · rintro ⟨hsuccess, -⟩
        have hresponse := not_not.mp fun hnot ↦ decodeNodes_of_not_elementIs hnot hsuccess
        obtain ⟨serviceType, hsome, hsame⟩ := his.mp hresponse
        refine ⟨hsize, serviceType, hsome, fun c hc ↦ ?_⟩
        obtain ⟨htab, hfeed, hreturn⟩ := readValue_eq_self_iff.mp hsame c hc
        have hxml := htype c (by rwa [hsome, Option.getD_some])
        simp [isAttributeChar, hxml, htab, hfeed, hreturn]
      · rintro ⟨-, serviceType, hsome, hchars⟩
        have hsame : readValue serviceType = serviceType := by
          refine readValue_eq_self_iff.mpr fun c hc ↦ ?_
          have hattribute := hchars c hc
          simp only [isAttributeChar, Bool.and_eq_true, decide_eq_true_eq] at hattribute
          exact ⟨hattribute.1.1.2, hattribute.1.2, hattribute.2⟩
        exact decodeNodes_of_elementIs hschema rfl (his.mpr ⟨serviceType, hsome, hsame⟩)
    · push Not at htype
      obtain ⟨c, hc, hxml⟩ := htype
      have hrefused : isXmlChar c = false := by simpa using hxml
      have hnone : xmlParse parser (responseText action name) = none :=
        xmlParse_setContent_of_mem hparser (mem_responseElement hc hrefused) hrefused
      constructor
      · rintro ⟨hsuccess, -⟩
        cases (resultFromResponse_of_none hnone).symm.trans hsuccess
      · rintro ⟨-, serviceType, hsome, hchars⟩
        rw [hsome, Option.getD_some] at hc
        have hattribute := hchars c hc
        simp only [isAttributeChar, Bool.and_eq_true] at hattribute
        exact absurd hattribute.1.1.1 hxml
  · constructor
    · rintro ⟨hsuccess, -⟩
      have hnone := xmlParse_of_lt (Nat.not_le.mp hsize) parser
      cases (resultFromResponse_of_none hnone).symm.trans hsuccess
    · rintro ⟨hle, -⟩
      exact absurd hle hsize

end arrival

/-- **When responses arrive.** -/
theorem response_arrives_iff {parser : Parser} (hparser : Conforming parser)
    {action : ServiceAction}
    (hschema : ResponseSchema action) :
    ResponseArrives parser action ↔
      byteLength (action.getName.getD []) < actionNameLenMax ∧
        (∃ serviceType, action.service.getServiceType = some serviceType ∧
          ∀ c ∈ serviceType, isAttributeChar c = true) ∧
        responseLength action ≤ intMax := by
  obtain ⟨name, hname, hlocal⟩ := hschema.name
  have hdecoded := decoded_responseText_iff hparser hschema hname hlocal
  rw [hname, Option.getD_some]
  constructor
  · intro harrives
    have hlt : byteLength name < actionNameLenMax := by
      by_contra hle
      obtain ⟨content, hcontent, -⟩ := harrives
        (List.replicate nodeNameSize 1) List.length_replicate
      rw [setResponse_eq, hname,
        responseNodeName_of_le (Nat.not_lt.mp hle) (ne_nul_of_isLocalName hlocal)] at hcontent
      cases hcontent
    obtain ⟨content, hcontent, hresult⟩ :=
      harrives (List.replicate nodeNameSize 1) List.length_replicate
    rw [setResponse_of_lt hname hlocal hlt List.length_replicate] at hcontent
    obtain rfl := Option.some.inj hcontent
    obtain ⟨hsize, serviceType, htype, hchars⟩ := hdecoded.mp hresult
    rw [byteLength_responseText hname htype] at hsize
    exact ⟨hlt, ⟨serviceType, htype, hchars⟩, hsize⟩
  · rintro ⟨hlt, ⟨serviceType, htype, hchars⟩, hsize⟩ memory hmemory
    rw [← byteLength_responseText hname htype] at hsize
    exact ⟨_, setResponse_of_lt hname hlocal hlt hmemory,
      hdecoded.mpr ⟨hsize, serviceType, htype, hchars⟩⟩

/-- An output argument with a value. -/
def outputArgument (name value : CString) : Argument where
  argumentNode := (XmlNode.new.setChildNode "name".toList (some name)).setChildNode
    "direction".toList (some "out".toList)
  value := some value

/-- An action of a name with one output argument. -/
def queryAction (name : CString) : ServiceAction where
  actionNode := XmlNode.new.setChildNode "name".toList (some name)
  argumentList := [outputArgument "Level".toList "1 < 2".toList]
  service := playerService

theorem responseSchema_queryAction {name : CString} (h : IsLocalName name) :
    ResponseSchema (queryAction name) where
  name := ⟨name, rfl, h⟩
  outputs := by
    intro arg harg _
    obtain rfl := List.mem_singleton.mp harg
    exact ⟨⟨"Level".toList, rfl, by decide⟩, by decide⟩
  distinct := List.pairwise_singleton _ _

theorem response_arrives_iff_query :
    ResponseArrives subsetParser (queryAction "GetLevel".toList) :=
  (response_arrives_iff conforming_subsetParser (responseSchema_queryAction (by decide))).mpr
    ⟨by decide, ⟨"urn:x".toList, rfl, by decide⟩, by decide⟩

/-- **Some responses do not arrive.** The name of the action is too long for the array. -/
theorem not_response_arrives :
    ResponseSchema (queryAction (List.replicate actionNameLenMax 'A')) ∧
      Conforming subsetParser ∧
      ¬ ResponseArrives subsetParser (queryAction (List.replicate actionNameLenMax 'A')) := by
  have hlocal : IsLocalName (List.replicate actionNameLenMax 'A') := by decide +kernel
  refine ⟨responseSchema_queryAction hlocal, conforming_subsetParser, fun harrives ↦ ?_⟩
  obtain ⟨content, hcontent, -⟩ := harrives (List.replicate nodeNameSize 1) List.length_replicate
  have hname : (queryAction (List.replicate actionNameLenMax 'A')).getName =
      some (List.replicate actionNameLenMax 'A') := rfl
  rw [setResponse_eq, hname,
    responseNodeName_of_le (by decide +kernel) (ne_nul_of_isLocalName hlocal)] at hcontent
  cases hcontent

end Mupnp.Control
