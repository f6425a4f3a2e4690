import Mupnp.Control.InvocationExchange
import Mupnp.Control.SoapPost

/-!
# Queries of state variables

`mupnp_statevariable_post` of `control/query_ctrl.c` at a control point, with
`control/query_request.c` and `control/query_response.c`, and the query that it makes of a device.
`query_exchange` says what the variable of the control point holds afterwards: the value that the
listener of the device gives, nothing for a query that fails, and what it held before for a value
that is empty.
-/

set_option autoImplicit false
set_option relaxedAutoImplicit false

namespace Mupnp.Control

open DeviceServer Event Foundation Foundation.RoseTree Foundation.XmlText Http Net Util Xml Soap

/-! ### The control point -/

/-- `mupnp_control_query_request_cratestatevariablenode`. -/
def createStateVariableNode (statVar : StateVariable) : XmlNode :=
  let queryVarNode := (XmlNode.new.setName (some "u:QueryStateVariable".toList)).setNamespace
    "u".toList (some controlXmlns)
  queryVarNode.addChildNode
    ((XmlNode.new.setName (some "u:varName".toList)).setValue statVar.name)

/-- `mupnp_control_query_request_setstatevariable`: the content of the request. -/
def setStateVariable (statVar : StateVariable) : CString :=
  setContent (addToBody createEnvelopeBodyNode (requestBodyPosition createEnvelopeBodyNode)
    (createStateVariableNode statVar))

/-- `mupnp_control_query_response_getreturnnode`. -/
def getReturnNode (rootNode : Option XmlNode) : Option XmlNode :=
  rootNode.bind fun envNode ↦ envNode.children.head?.bind fun (bodyNode : XmlNode) ↦
    bodyNode.children.head?.bind fun (queryResNode : XmlNode) ↦ queryResNode.children.head?

/-- `mupnp_control_query_response_getreturnvalue`. -/
def getReturnValue (rootNode : Option XmlNode) : Option CString :=
  match getReturnNode rootNode with
  | none => some []
  | some returnNode => returnNode.text

/-- What `mupnp_statevariable_post` makes of a response: the variable afterwards, and whether the
query was successful. -/
def receivedQuery (statVar : StateVariable) (queryRes : SoapResponse) :
    StateVariable × Bool :=
  (statVar.setValue (if queryRes.isSuccessful then getReturnValue queryRes.rootNode else some []),
    queryRes.isSuccessful)

/-- `mupnp_statevariable_post`. -/
def postStateVariable (parser : Parser) (userAgent : CString) (statVar : StateVariable)
    (ctrlUrl : NetUri) (peers : ℕ → Option (List Char → Socket)) : StateVariable × Bool :=
  receivedQuery statVar (soapPost parser
    (controlRequest userAgent (some querySoapAction) ctrlUrl (setStateVariable statVar))
    (ctrlUrl.host.getD []) ctrlUrl.port peers)

/-! ### Elements with one leaf -/

/-- An element in the namespace of control with one leaf. -/
def leafElement (elementName leafName : CString) (value : Option CString) : XmlNode :=
  .node ⟨some elementName, none, [serviceDeclaration (some controlXmlns)]⟩ [leafNode leafName value]

/-- An element with a leaf that can be written is read by a conforming parser. -/
theorem xmlParse_leafElement {parser : Parser} (hparser : Conforming parser)
    {elementName leafName : CString} (helement : IsName elementName) (hleaf : IsName leafName)
    {value : Option CString} (hvalue : ∀ text ∈ value, ∀ c ∈ text, IsTextChar c)
    (hsize : byteLength (setContent (envelopeAround [leafElement elementName leafName value])) ≤
      Xml.intMax) :
    ∃ element, xmlParse parser
        (setContent (envelopeAround [leafElement elementName leafName value])) =
      some (readEnvelope (.node element [readLeaf leafName value])) := by
  have hwritable : ∀ element ∈ preorderIn [leafElement elementName leafName value],
      Writable element := by
    simp only [leafElement, leafNode, preorderIn_cons, preorderIn_nil, value_node, children_node,
      List.append_nil, List.forall_mem_cons]
    exact ⟨writable_of_serviceDeclaration helement (by decide), writable_leafNode hleaf hvalue,
      fun element hmem ↦ absurd hmem List.not_mem_nil⟩
  have hheight : height (leafElement elementName leafName value) + 2 ≤ xmlMaxDepth := by
    have hlevels : height (leafElement elementName leafName value) = 2 := rfl
    rw [hlevels]
    decide
  obtain ⟨text, hback⟩ := readBack_node ⟨some elementName, none,
    [serviceDeclaration (some controlXmlns)]⟩ [leafNode leafName value] 2
  refine ⟨readElement ⟨some elementName, none, [serviceDeclaration (some controlXmlns)]⟩ text, ?_⟩
  rw [xmlParse_setContent hparser hwritable hheight hsize, leafElement, hback, readBackIn,
    readBackIn, readBack_leafNode]

section Text

variable {parser : Parser} {statVar : StateVariable}

theorem setStateVariable_eq (statVar : StateVariable) :
    setStateVariable statVar = setContent (envelopeAround
      [leafElement "u:QueryStateVariable".toList "u:varName".toList statVar.name]) := by
  have hleaf : (XmlNode.new.setName (some "u:varName".toList)).setValue statVar.name =
      leafNode "u:varName".toList statVar.name := by
    simp only [XmlNode.new, XmlNode.setName, XmlNode.setValue, XmlNode.withElement, value_node,
      children_node, stringSetValue_none_left, leafNode]
  rw [setStateVariable, createStateVariableNode, hleaf, addToBody_request]
  rfl

theorem setQueryResponse_eq (statVar : StateVariable) :
    setQueryResponse statVar = setContent (envelopeAround
      [leafElement "u:QueryStateVariableResponse".toList "return".toList statVar.value]) := by
  have hleaf : (XmlNode.new.setName (some "return".toList)).setValue statVar.value =
      leafNode "return".toList statVar.value := by
    simp only [XmlNode.new, XmlNode.setName, XmlNode.setValue, XmlNode.withElement, value_node,
      children_node, stringSetValue_none_left, leafNode]
  rw [setQueryResponse, createQueryResponseNode, hleaf, addToBody_response]
  rfl

/-- A device reads the name of the variable of a query. -/
theorem getVarName_receivedBody (hparser : Conforming parser) {name : CString}
    (hname : statVar.name = some name) (hne : name ≠ []) (hchars : ∀ c ∈ name, IsTextChar c)
    (hsize : byteLength (setStateVariable statVar) ≤ Xml.intMax) :
    getVarName (receivedBody parser (setStateVariable statVar)) = some name := by
  have htext : ∀ text ∈ statVar.name, ∀ c ∈ text, IsTextChar c := by
    intro text hmem
    obtain rfl : name = text := Option.some.inj (hname.symm.trans hmem)
    exact hchars
  rw [setStateVariable_eq] at hsize ⊢
  obtain ⟨element, hparse⟩ :=
    @xmlParse_leafElement parser hparser "u:QueryStateVariable".toList "u:varName".toList
      (by decide) (by decide) _ htext hsize
  have hbody : requestBodyNode (readEnvelope (.node element
      [readLeaf "u:varName".toList statVar.name])) =
        some (readBody (.node element [readLeaf "u:varName".toList statVar.name])) := rfl
  rw [receivedBody, hparse, Option.bind_some, hbody, hname]
  exact stringAddValue_of_ne_nil none hne

/-- A control point reads the value that a device returns, an empty one as none. -/
theorem getReturnValue_xmlParse (hparser : Conforming parser)
    (hchars : ∀ text ∈ statVar.value, ∀ c ∈ text, IsTextChar c)
    (hsize : byteLength (setQueryResponse statVar) ≤ Xml.intMax) :
    getReturnValue (xmlParse parser (setQueryResponse statVar)) =
      stringAddValue none (some (statVar.value.getD [])) := by
  rw [setQueryResponse_eq] at hsize ⊢
  obtain ⟨element, hparse⟩ :=
    @xmlParse_leafElement parser hparser "u:QueryStateVariableResponse".toList "return".toList
      (by decide) (by decide) _ hchars hsize
  rw [hparse]
  rfl

end Text

/-! ### The device -/

/-- The listener that answers queries of a name, and the variable that it is called with. -/
def queryTarget (ctrl : ControlService) (name : CString) : Option (QueryHandler × StateVariable) :=
  (ctrl.stateTable.findIdx? (·.isName (some name))).bind fun position ↦
    (ctrl.queryListener position).bind fun handler ↦
      ctrl.stateTable[position]?.map fun statVar ↦ (handler, statVar.setValue (some []))

/-- The answer for a listener and its variable. -/
def queryAnswer (target : Option (QueryHandler × StateVariable)) : ControlAnswer :=
  match target with
  | none => invalidControlReceived 404
  | some (handler, asked) => performQuery handler asked

/-- What a control point is to have of a query: the value that the listener leaves, or an empty one
when there is no listener or it fails. An empty value leaves the variable as it is. -/
def expectedQuery (target : Option (QueryHandler × StateVariable)) (statVar : StateVariable) :
    StateVariable × Bool :=
  match target with
  | none => (statVar.setValue (some []), false)
  | some (handler, asked) =>
    if (handler asked).isSuccessful then
      (statVar.setValue (stringAddValue none (some ((handler.left asked).value.getD []))), true)
    else (statVar.setValue (some []), false)

/-- What the listener of a query gives can be written, and no more than a parser accepts. -/
structure WritableQueryReply (handler : QueryHandler) (asked : StateVariable) : Prop where
  value : (handler asked).isSuccessful = true →
    ∀ text ∈ (handler.left asked).value, ∀ c ∈ text, IsTextChar c
  size : (handler asked).isSuccessful = true →
    byteLength (setQueryResponse (handler.left asked)) ≤ Xml.intMax
  fault : (handler asked).isSuccessful = false →
    byteLength (handler asked).fault.content ≤ Xml.intMax

section Device

variable {ctrl ctrl' : ControlService} {name : CString}

/-- The target of a query does not depend on the requests before. -/
theorem queryTarget_congr (h : ControlService.SameShape ctrl ctrl') (name : CString) :
    queryTarget ctrl' name = queryTarget ctrl name := by
  have hcleared : ∀ (stateTable : List StateVariable),
      stateTable.findIdx? (·.isName (some name)) =
        (stateTable.map (StateVariable.setValue · (some []))).findIdx? (·.isName (some name)) := by
    intro stateTable
    rw [List.findIdx?_map]
    rfl
  have hposition : ∀ position : ℕ,
      ctrl'.stateTable[position]?.map (StateVariable.setValue · (some [])) =
        ctrl.stateTable[position]?.map (StateVariable.setValue · (some [])) := by
    intro position
    rw [← List.getElem?_map, ← List.getElem?_map, h.stateVariables]
  have hpair : ∀ (handler : QueryHandler) (found : Option StateVariable),
      (found.map fun statVar ↦ (handler, statVar.setValue (some []))) =
        (found.map (StateVariable.setValue · (some []))).map (Prod.mk handler) := by
    intro handler found
    rw [Option.map_map]
    rfl
  rw [queryTarget, queryTarget, hcleared ctrl'.stateTable, hcleared ctrl.stateTable,
    h.stateVariables, h.queryListener]
  simp only [hpair, hposition]

/-- A variable is asked with an empty value, so that its value does not matter. -/
theorem performQuery_setValue (handler : QueryHandler) (statVar : StateVariable) :
    performQuery handler (statVar.setValue (some [])) = performQuery handler statVar := rfl

/-- A variable is asked with an empty value. -/
theorem setValue_of_queryTarget {ctrl : ControlService} {name : CString} {handler : QueryHandler}
    {asked : StateVariable} (h : queryTarget ctrl name = some (handler, asked)) :
    asked.setValue (some []) = asked := by
  obtain ⟨position, hfound, hlistener⟩ := Option.bind_eq_some_iff.mp h
  obtain ⟨handler', hhandler, hasked⟩ := Option.bind_eq_some_iff.mp hlistener
  obtain ⟨statVar, hstatVar, hpair⟩ := Option.map_eq_some_iff.mp hasked
  obtain rfl : statVar.setValue (some []) = asked := congrArg Prod.snd hpair
  rfl

/-- What a service answers to a query of a name. -/
theorem queryControlReceived_eq {bodyNode : Option XmlNode} (hname : getVarName bodyNode = some name)
    (hne : name ≠ []) :
    (ctrl.queryControlReceived bodyNode).2 = some (queryAnswer (queryTarget ctrl name)) := by
  rw [ControlService.queryControlReceived, hname, queryTarget]
  rw [if_neg (not_strlen_some_le_zero hne)]
  cases hfound : ctrl.stateTable.findIdx? (·.isName (some name)) with
  | none => rfl
  | some position =>
    have hlt : position < ctrl.stateTable.length :=
      (List.findIdx?_eq_some_iff_getElem.mp hfound).1
    rw [Option.bind_some]
    cases hlistener : ctrl.queryListener position with
    | none => simp only [hlistener, Option.bind_none, queryAnswer]
    | some handler =>
      simp only [hlistener, Option.bind_some, List.getElem?_eq_getElem hlt, Option.map_some,
        queryAnswer, performQuery_setValue]

end Device

/-! ### The exchange -/

section Exchange

variable {parser : Parser} {dev : ControlDevice} {service : ServedService}
  {statVar : StateVariable} {name : CString}

/-- A fault about an unknown variable or a listener is short enough. -/
theorem size_invalidControlReceived :
    byteLength (invalidControlReceived 404).content ≤ Xml.intMax := by decide +kernel

/-- What a control point makes of the answer to a query. -/
theorem expectedQuery_of_answer (hparser : Conforming parser)
    {target : Option (QueryHandler × StateVariable)}
    (hasked : ∀ handler asked, target = some (handler, asked) → asked.setValue (some []) = asked)
    (hreply : ∀ handler asked, target = some (handler, asked) →
      WritableQueryReply handler asked) :
    ((queryAnswer target).statusCode = 200 ∨ (queryAnswer target).statusCode = 500) ∧
      IsContent (queryAnswer target).content ∧
      receivedQuery statVar ⟨(queryAnswer target).statusCode,
        xmlParse parser (queryAnswer target).content⟩ = expectedQuery target statVar := by
  cases target with
  | none => exact ⟨Or.inr rfl, ⟨setContent_ne_nil _, size_invalidControlReceived⟩, rfl⟩
  | some target =>
    obtain ⟨handler, asked⟩ := target
    have hwritten := hreply handler asked rfl
    have hcleared := hasked handler asked rfl
    cases hsuccess : (handler asked).isSuccessful with
    | false =>
      have hanswer : queryAnswer (some (handler, asked)) = (handler asked).fault := by
        rw [queryAnswer, performQuery, hcleared, hsuccess, if_neg Bool.false_ne_true]
      have hexpected : expectedQuery (some (handler, asked)) statVar =
          (statVar.setValue (some []), false) := by
        rw [expectedQuery, hsuccess, if_neg Bool.false_ne_true]
      rw [hanswer, hexpected]
      exact ⟨Or.inr rfl, ⟨setContent_ne_nil _, hwritten.fault hsuccess⟩, rfl⟩
    | true =>
      have hanswer : queryAnswer (some (handler, asked)) =
          ⟨200, setQueryResponse (handler.left asked)⟩ := by
        rw [queryAnswer, performQuery, hcleared, hsuccess, if_pos rfl]
      have hexpected : expectedQuery (some (handler, asked)) statVar =
          (statVar.setValue (stringAddValue none (some ((handler.left asked).value.getD []))),
            true) := by
        rw [expectedQuery, hsuccess, if_pos rfl]
      rw [hanswer, hexpected, ← getReturnValue_xmlParse hparser (hwritten.value hsuccess)
        (hwritten.size hsuccess)]
      refine ⟨Or.inl rfl, ⟨setContent_ne_nil _, hwritten.size hsuccess⟩, ?_⟩
      have hok : SoapResponse.isSuccessful ⟨200, xmlParse parser (setQueryResponse
          (handler.left asked))⟩ = true := rfl
      simp only [receivedQuery, hok, if_true]

/-- The header for a query makes a request one. -/
theorem isQueryRequest_querySoapAction (bodyNode : Option XmlNode) :
    SoapRequest.isQueryRequest ⟨some querySoapAction, none, bodyNode⟩ = true := by
  have hself : 0 ≤ strstr (some querySoapAction) (some querySoapAction) :=
    strstr_nonneg_iff.mpr (List.infix_refl querySoapAction)
  simp only [SoapRequest.isQueryRequest, decide_eq_true hself, Bool.true_or]

/-- The header for a query fits in both forms. -/
theorem isHeader_querySoapAction : IsHeader "01-SOAPACTION".toList querySoapAction :=
  ⟨⟨by decide, by decide⟩, by decide, ⟨by decide, by decide, by decide⟩, by decide +kernel⟩

/-- **Queries are exchanged.** A control point that queries a variable is given what the listener of
the device leaves in it, after any history of requests, whether the first attempt is refused or not,
and however the streams are cut. -/
theorem query_exchange (hparser : Conforming parser) (hname : statVar.name = some name)
    (hne : name ≠ []) (hchars : ∀ c ∈ name, IsTextChar c)
    (hsize : byteLength (setStateVariable statVar) ≤ Xml.intMax)
    (hreply : ∀ handler asked, queryTarget (dev.control service) name = some (handler, asked) →
      WritableQueryReply handler asked)
    {userAgent host uri : CString} {ctrlUrl : NetUri}
    (hurl : IsRetryUrl userAgent ctrlUrl host uri)
    (hservice : dev.getServiceByControlUrl (receivedUri (some uri)) = some service)
    (history : List (CharBuffer × HttpRequest)) {peers : ℕ → Option (List Char → Socket)}
    (hreaches : Reaches parser (dev.afterRequests parser history) peers) :
    postStateVariable parser userAgent statVar ctrlUrl peers =
      expectedQuery (queryTarget (dev.control service) name) statVar := by
  have hshape := ControlDevice.sameShape_afterRequests parser dev history
  have hcontent : IsContent (setStateVariable statVar) := ⟨setContent_ne_nil _, hsize⟩
  obtain ⟨hcode, hanswered, hexpected⟩ := @expectedQuery_of_answer parser statVar hparser
    (queryTarget (dev.control service) name) (fun _ _ ↦ setValue_of_queryTarget) hreply
  -- The device answers for the variable as it was described.
  have hanswer : ∀ memory : CharBuffer,
      (((dev.afterRequests parser history).control service).controlReceived memory
        ⟨some querySoapAction, none, receivedBody parser (setStateVariable statVar)⟩).2 =
          some (queryAnswer (queryTarget (dev.control service) name)) := by
    intro memory
    rw [ControlService.controlReceived, if_pos (isQueryRequest_querySoapAction _),
      queryControlReceived_eq (getVarName_receivedBody hparser hname hne hchars hsize) hne,
      queryTarget_congr (hshape.control service)]
  obtain ⟨memory, answer, hmemory, hreceived, hposted⟩ := soapPost_eq hcontent hurl
    isHeader_querySoapAction (hshape.device ▸ hservice)
    (fun memory _ ↦ ⟨_, hanswer memory, hcode, hanswered⟩) hreaches
  obtain rfl : queryAnswer (queryTarget (dev.control service) name) = answer :=
    Option.some.inj ((hanswer memory).symm.trans hreceived)
  rw [postStateVariable, hurl.host_eq, Option.getD_some, hposted]
  exact hexpected

end Exchange

/-! ### A query -/

/-- A listener that always gives the same value. -/
def volumeHandler : QueryHandler := fun _ ↦ ⟨⟨true, none, none⟩, [some "7 & 8".toList]⟩

/-- A device with one variable. -/
def volumeDevice : ControlDevice where
  tree := .node { descriptionUri := none, rootNode := none, services := [seekService] } []
  httpPort := 4004
  location := some "http://10.0.0.1:4004/description.xml".toList
  presentationUrl := none
  hasPresentationListener := false
  control _ :=
    { service := playerService
      actionList := []
      stateTable := [⟨some "Volume".toList, some "no".toList, some "1".toList⟩]
      actionListener := fun _ ↦ none
      queryListener := fun _ ↦ some volumeHandler }

/-- What a device that does not know the method answers. -/
def refusal : HttpResponse := { exampleResponse with statusCode := 405 }

/-- The variable that a control point holds. -/
def askedVolume : StateVariable := ⟨some "Volume".toList, some "no".toList, some "2".toList⟩

/-- The same query, which the device has answered before. -/
def volumeHistory : List (CharBuffer × HttpRequest) :=
  [(seekMemory, (controlPosting "test".toList querySoapAction seekUrl
    (setStateVariable askedVolume) "10.0.0.1".toList "/control".toList).sent)]

/-- The device after it. -/
def queriedVolume : ControlDevice := volumeDevice.afterRequests subsetParser volumeHistory

/-- What the device answers. -/
def volumeAnswer (_ : ℕ) (httpReq : HttpRequest) : HttpResponse :=
  ((queriedVolume.requestReceived subsetParser seekMemory httpReq).2).getD HttpResponse.new

/-- The first connection is to something that refuses, and the second one to the device. -/
def volumePeers (attempt : ℕ) : Option (List Char → Socket) :=
  if attempt = 0 then some fun _ ↦ ⟨[(refusal.post "now".toList).getD []]⟩
  else some fun message ↦ ⟨[((ClientThread.answering volumeAnswer fun _ ↦ "now".toList).run []
    ⟨[message]⟩).flatMap Turn.written]⟩

theorem refuses_refusal : Refuses fun _ ↦ ⟨[(refusal.post "now".toList).getD []]⟩ := by
  refine fun _ ↦ ⟨refusal, "now".toList, [], ⟨"HTTP/1.1".toList, "OK".toList, ?_⟩, rfl, ?_⟩
  · exact { isResponse_exampleResponse with
      statusCode_int := ⟨by decide, by decide⟩
      line := by decide +kernel }
  · simp only [SegmentedStream.content, List.flatten_cons, List.flatten_nil]

theorem reaches_volumePeers : Reaches subsetParser queriedVolume volumePeers :=
  Or.inr ⟨_, _, rfl, refuses_refusal, rfl, seekMemory, List.length_replicate, volumeAnswer,
    fun _ ↦ "now".toList, [], isHeader_seekDate,
    fun _ _ hsome ↦ congrArg (Option.getD · HttpResponse.new) hsome,
    fun message ↦ ⟨⟨[message]⟩, by simp [SegmentedStream.content],
      by simp [SegmentedStream.content]⟩⟩

theorem isContent_askedVolume : IsContent (setStateVariable askedVolume) :=
  ⟨setContent_ne_nil _, by decide +kernel⟩

/-- The device keeps what its listener has left in the variable. -/
theorem value_queriedVolume :
    (queriedVolume.control seekService).stateTable.map StateVariable.value =
      [some "7 & 8".toList] := by
  have hname : getVarName (receivedBody subsetParser (setStateVariable askedVolume)) =
      some "Volume".toList :=
    getVarName_receivedBody conforming_subsetParser rfl (by decide) (by decide)
      isContent_askedVolume.size
  have hservice : volumeDevice.getServiceByControlUrl (receivedUri (some "/control".toList)) =
      some seekService := by
    decide +kernel
  have hheader := isHeader_soapAction isHeader_querySoapAction
  have hrequest := isRequest_controlPosting isContent_askedVolume isPostUrl_seekUrl hheader
  have hserved := requestReceived_of_sent subsetParser seekMemory isContent_askedVolume
    isPostUrl_seekUrl hheader hservice
    ⟨hrequest.method_eq, hrequest.uri_eq, hrequest.version_eq, rfl, rfl⟩
  rw [queriedVolume, volumeHistory, ControlDevice.afterRequests_singleton, hserved]
  simp only [Function.update_self]
  rw [ControlService.controlReceived, if_pos (isQueryRequest_querySoapAction _),
    ControlService.queryControlReceived, hname]
  decide +kernel

/-- A variable is queried after a refusal, at a device that has answered for it before. -/
theorem query_exchange_volume :
    (queriedVolume.control seekService).stateTable.map StateVariable.value =
        [some "7 & 8".toList] ∧
      postStateVariable subsetParser "test".toList askedVolume seekUrl volumePeers =
        expectedQuery (queryTarget (volumeDevice.control seekService) "Volume".toList)
          askedVolume := by
  refine ⟨value_queriedVolume, ?_⟩
  exact @query_exchange subsetParser volumeDevice seekService askedVolume "Volume".toList
    conforming_subsetParser rfl (by decide) (by decide) isContent_askedVolume.size
    (fun handler asked h ↦ by
      have hpair := Option.some.inj h
      obtain rfl : volumeHandler = handler := congrArg Prod.fst hpair
      obtain rfl : (⟨some "Volume".toList, some "no".toList, some "1".toList⟩ :
        StateVariable).setValue (some []) = asked := congrArg Prod.snd hpair
      exact ⟨fun _ ↦ by decide, fun _ ↦ by decide +kernel, nofun⟩)
    "test".toList "10.0.0.1".toList "/control".toList seekUrl
    ⟨isPostUrl_seekUrl, by decide⟩ (by decide +kernel) volumeHistory volumePeers
    reaches_volumePeers

end Mupnp.Control
