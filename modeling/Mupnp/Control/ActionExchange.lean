import Mupnp.Control.ControlServer
import Mupnp.Control.RequestRoundTrip

/-!
# Calls of actions

`mupnp_action_postwitharguments` of `control/action_ctrl.c` at a control point and
`mupnp_action_performlistner` at a device are the two ends of one call. `heard_invocation` says what
the listener of an action is called with, after any history of control requests, and
`result_of_answer` that the control point is given what the listener left and returned.

The HTTP messages between the two are in a module of their own.
-/

set_option autoImplicit false
set_option relaxedAutoImplicit false

namespace Mupnp.Control

open Foundation Foundation.RoseTree Foundation.XmlText Util Xml Soap

/-! ### Invocations -/

/-- `mupnp_argument_isargumentnode`. -/
def isArgumentNode (node : XmlNode) : Bool := streq node.name (some "argument".toList)

/-- `mupnp_action_initargumentlist`: the arguments that a description has for an action. -/
def initArgumentList (actionNode : XmlNode) : List Argument :=
  match actionNode.getChildNodeByName "argumentList".toList with
  | none => []
  | some argumentListNode =>
    (argumentListNode.children.filter isArgumentNode).map fun childNode ↦ ⟨childNode, none⟩

/-- The value that a dictionary has for an argument. -/
def inputValue (inputs : Option Dictionary) (arg : Argument) : Option CString :=
  inputs.bind (dictionaryGetValue · arg.getName)

/-- The invocation that `mupnp_action_postwitharguments` makes of an action: a new action of the
same node and service with the values of the inputs. -/
def invocation (action : ServiceAction) (inputs : Option Dictionary) : ServiceAction :=
  { action with
    argumentList := (initArgumentList action.actionNode).map fun arg ↦
      if arg.isInDirection then arg.setValue (inputValue inputs arg) else arg }

/-- What the listener of an action is called with: the inputs of the call, what is left of earlier
calls in place of an empty one, and no outputs. -/
def heardArguments (inputs : Option Dictionary) (argList : List Argument) : List Argument :=
  argList.map fun arg ↦
    if arg.isInDirection then
      arg.setValue (stringAddValue none (some ((inputValue inputs arg).getD [])))
    else if arg.isOutDirection then arg.setValue (some []) else arg

/-- The arguments of an action are those of its description. -/
def IsDescribed (actionNode : XmlNode) (argList : List Argument) : Prop :=
  nodes argList = nodes (initArgumentList actionNode)

/-- The action at a position of a service is the one that a control point knows: it is the first one
of its name, and it was made of the same description. -/
structure Serves (ctrl : ControlService) (position : ℕ) (action : ServiceAction) : Prop where
  first : getActionByName ctrl.actionList (action.getName.getD []) = some position
  served : (ctrl.actionList.map Action.shape)[position]? =
    some (action.actionNode, nodes (initArgumentList action.actionNode))
  described : IsDescribed action.actionNode action.argumentList
  serviceType : ctrl.service.getServiceType = action.service.getServiceType

section Serves

variable {ctrl ctrl' : ControlService} {position : ℕ} {action : ServiceAction}

theorem Serves.of_sameShape (h : Serves ctrl position action)
    (hshape : ControlService.SameShape ctrl ctrl') : Serves ctrl' position action where
  first := (getActionByName_congr hshape.actions _).trans h.first
  served := by rw [hshape.actions, h.served]
  described := h.described
  serviceType := by rw [hshape.service, h.serviceType]

theorem Serves.exists_served (h : Serves ctrl position action) :
    ∃ served, ctrl.actionList[position]? = some served ∧
      served.actionNode = action.actionNode ∧
      IsDescribed action.actionNode served.argumentList := by
  have hserved := h.served
  rw [List.getElem?_map] at hserved
  obtain ⟨served, hget, hshape⟩ := Option.map_eq_some_iff.mp hserved
  exact ⟨served, hget, congrArg Prod.fst hshape, congrArg Prod.snd hshape⟩

end Serves

theorem nodes_heardArguments (inputs : Option Dictionary) (argList : List Argument) :
    nodes (heardArguments inputs argList) = nodes argList := by
  rw [nodes, heardArguments, List.map_map]
  refine List.map_congr_left fun arg _ ↦ ?_
  simp only [Function.comp_apply]
  split_ifs <;> rfl

theorem nodes_invocation (action : ServiceAction) (inputs : Option Dictionary) :
    nodes (invocation action inputs).argumentList = nodes (initArgumentList action.actionNode) := by
  rw [nodes, invocation, List.map_map]
  refine List.map_congr_left fun arg _ ↦ ?_
  simp only [Function.comp_apply]
  split_ifs <;> rfl

/-! ### What the listener hears -/

section Heard

variable {argList argList' : List Argument}

/-- The arguments that a device reads of the request for some arguments. -/
def requestArguments (argList : List Argument) : List Argument :=
  (argList.filter Argument.isInDirection).map fun arg ↦ requestArgument (readArgument arg)

/-- A text is not changed by adding it to nothing, unless it is empty. -/
theorem stringAddValue_getD {value : Option CString} (h : value ≠ some []) :
    stringAddValue none (some (value.getD [])) = value := by
  cases value with
  | none => rfl
  | some text => exact stringAddValue_of_ne_nil none fun hnil ↦ h (congrArg some hnil)

/-- A request has no empty values. -/
theorem value_requestArgument_ne (arg : Argument) :
    (requestArgument (readArgument arg)).value ≠ some [] := by
  rw [(requestArgument_readArgument arg).2]
  cases arg.value.getD [] with
  | nil => exact (Option.some_ne_none []).symm
  | cons c rest => simp [stringAddValue]

/-- The value that a request has for the argument at a position. -/
theorem suppliedValue_requestArguments
    (hdistinct : (argList.filterMap Argument.getName).Pairwise fun name other ↦
      strcaseeq name other = false)
    (hnamed : ∀ arg ∈ argList, arg.isInDirection = true → ∃ name, arg.getName = some name)
    {i : ℕ} {arg : Argument} (harg : argList[i]? = some arg) :
    suppliedValue argList (requestArguments argList) i =
      if arg.isInDirection then stringAddValue none (some (arg.value.getD [])) else none := by
  have hcopied := argumentListSet_freshArguments hdistinct hnamed
  obtain ⟨hi, rfl⟩ := List.getElem?_eq_some_iff.mp harg
  have hfresh : (freshArguments argList)[i]? = some ⟨argList[i].argumentNode, none⟩ := by
    rw [freshArguments, List.getElem?_map, harg, Option.map_some]
  have hvalue := value_argumentListSet (freshArguments argList) (requestArguments argList) i
  rw [hfresh, Option.map_some, stringSetValue_none_left,
    suppliedValue_congr (nodes_freshArguments argList)] at hvalue
  obtain ⟨received, hget, hsupplied⟩ := Option.map_eq_some_iff.mp hvalue
  obtain ⟨hi', rfl⟩ := List.getElem?_eq_some_iff.mp hget
  have harrived : ArgumentArrived argList[i] _ := (List.forall₂_iff_get.mp hcopied).2 i hi hi'
  have hne : suppliedValue argList (requestArguments argList) i ≠ some [] := by
    intro hempty
    obtain ⟨srcArg, hsource, hsame⟩ := List.mem_filterMap.mp (List.mem_of_getLast? hempty)
    obtain ⟨other, -, rfl⟩ := List.mem_map.mp (List.mem_filter.mp hsource).1
    exact value_requestArgument_ne other hsame
  rw [← hsupplied] at hne ⊢
  split_ifs with hin
  · have hinput : (argumentListSet (freshArguments argList) (requestArguments argList))[i].value.getD
        [] = argList[i].value.getD [] := harrived.input hin
    rw [← hinput, stringAddValue_getD hne]
  · exact harrived.other (by simpa using hin)

/-- A direction is not both. -/
theorem isOutDirection_of_isInDirection {arg : Argument} (h : arg.isInDirection = true) :
    arg.isOutDirection = false := by
  obtain ⟨direction, hdirection, hin⟩ := streq_eq_true_iff.mp h
  rw [Argument.isOutDirection, hdirection, ← Option.some.inj hin]
  decide

theorem inputValue_congr (inputs : Option Dictionary) {arg arg' : Argument}
    (h : arg'.argumentNode = arg.argumentNode) : inputValue inputs arg' = inputValue inputs arg := by
  rw [inputValue, inputValue, Argument.getName, Argument.getName, h]

/-- The value of an input of an invocation. -/
theorem value_invocation {action : ServiceAction} {inputs : Option Dictionary} {i : ℕ}
    {arg : Argument} (harg : (invocation action inputs).argumentList[i]? = some arg)
    (hin : arg.isInDirection = true) : arg.value = inputValue inputs arg := by
  rw [invocation, List.getElem?_map] at harg
  obtain ⟨declared, hdeclared, heq⟩ := Option.map_eq_some_iff.mp harg
  have hvalue : declared.value = none := by
    have hmem := List.mem_of_getElem? hdeclared
    rw [initArgumentList] at hmem
    split at hmem
    · cases hmem
    · obtain ⟨childNode, -, rfl⟩ := List.mem_map.mp hmem
      rfl
  split_ifs at heq with hdirection
  · subst heq
    rw [Argument.setValue, hvalue, stringSetValue_none_left]
    rfl
  · subst heq
    exact absurd hin hdirection

/-- A device that reads the request for an invocation calls the listener with its inputs. -/
theorem seenArguments_eq_heardArguments {action : ServiceAction} {inputs : Option Dictionary}
    (hschema : RequestSchema (invocation action inputs))
    (hdescribed : IsDescribed action.actionNode argList) {bodyNode : Option XmlNode}
    (hbody : setSoapRequest bodyNode = requestArguments (invocation action inputs).argumentList) :
    seenArguments bodyNode argList = heardArguments inputs argList := by
  have hnamed : ∀ arg ∈ (invocation action inputs).argumentList, arg.isInDirection = true →
      ∃ name, arg.getName = some name := by
    intro arg harg hin
    obtain ⟨name, hname, -⟩ := (hschema.inputs arg harg hin).name
    exact ⟨name, hname⟩
  have hnodes : nodes argList = nodes (invocation action inputs).argumentList :=
    hdescribed.trans (nodes_invocation action inputs).symm
  refine List.ext_getElem? fun i ↦ ?_
  cases harg : argList[i]? with
  | none =>
    have hlength : argList.length ≤ i := List.getElem?_eq_none_iff.mp harg
    have hseen : (seenArguments bodyNode argList).length = argList.length := by
      have hmap := congrArg List.length (nodes_seenArguments bodyNode argList)
      rwa [nodes, nodes, List.length_map, List.length_map] at hmap
    rw [List.getElem?_eq_none_iff.mpr (hseen ▸ hlength), heardArguments, List.getElem?_map, harg]
    rfl
  | some arg =>
    obtain ⟨given, hgiven, hgivenNode⟩ := exists_getElem?_of_nodes
      (nodes_argumentListSet argList (setSoapRequest bodyNode)).symm harg
    obtain ⟨invoked, hinvoked, hinvokedNode⟩ := exists_getElem?_of_nodes hnodes harg
    have hvalue := value_argumentListSet argList (setSoapRequest bodyNode) i
    rw [hgiven, harg, hbody, suppliedValue_congr hnodes,
      suppliedValue_requestArguments hschema.distinct hnamed hinvoked,
      isInDirection_congr hinvokedNode, Option.map_some, Option.map_some,
      Option.some.injEq] at hvalue
    have hcopied : given = if arg.isInDirection then
        arg.setValue (stringAddValue none (some ((inputValue inputs arg).getD []))) else arg := by
      obtain ⟨node, value⟩ := given
      split_ifs at hvalue ⊢ with hin
      · have hinvokedIn : invoked.isInDirection = true := by
          rw [isInDirection_congr hinvokedNode, hin]
        rw [value_invocation hinvoked hinvokedIn, inputValue_congr inputs hinvokedNode] at hvalue
        rw [Argument.setValue, ← hvalue, ← hgivenNode]
      · obtain ⟨argNode, argValue⟩ := arg
        obtain rfl : node = argNode := hgivenNode
        obtain rfl : value = argValue := hvalue
        rfl
    rw [seenArguments, clearOutputArgumentValues, givenArguments, List.getElem?_map, hgiven,
      heardArguments, List.getElem?_map, harg, Option.map_some, Option.map_some, hcopied]
    split_ifs with hin hout hout
    · exact absurd ((isOutDirection_of_isInDirection hin).symm.trans hout) Bool.false_ne_true
    · rfl
    · rfl
    · rfl

end Heard

/-! ### What a device answers -/

section Answer

variable {parser : Parser} {action : ServiceAction} {inputs : Option Dictionary}

/-- What a device reads of the request for an action. -/
theorem read_setAction (hparser : Conforming parser) (hschema : RequestSchema action)
    (htype : ∀ c ∈ action.service.getServiceType.getD [], isXmlChar c = true)
    (hsize : byteLength (setAction action) ≤ intMax) {name : CString}
    (hname : action.getName = some name) :
    getActionName (receivedBody parser (setAction action)) = name ∧
      setSoapRequest (receivedBody parser (setAction action)) =
        requestArguments action.argumentList := by
  obtain ⟨element, helement, hbody⟩ := receivedBody_setAction hparser hschema htype hsize hname
  have hdelim : indexOf ":".toList ("u:".toList ++ name) = some 1 := rfl
  rw [hbody]
  constructor
  · rw [getActionName]
    simp only [getActionNode, Option.bind_some, readBody, children_node, List.head?_cons,
      XmlNode.name, value_node, helement, hdelim]
    rfl
  · simp [setSoapRequest, getActionNode, readBody, requestArguments, Function.comp_def]

/-- The request for an invocation can be written, and is no longer than a parser accepts. -/
structure WritableInvocation (action : ServiceAction) (inputs : Option Dictionary) : Prop where
  schema : RequestSchema (invocation action inputs)
  serviceType : ∀ c ∈ action.service.getServiceType.getD [], isXmlChar c = true
  size : byteLength (setAction (invocation action inputs)) ≤ intMax

/-- A device that serves an action calls its listener with what an invocation asks for. -/
theorem actionControlReceived_invocation (hparser : Conforming parser) {ctrl : ControlService}
    {position : ℕ} (hserves : Serves ctrl position action)
    (hwritable : WritableInvocation action inputs) {handler : ActionHandler}
    (hlistener : ctrl.actionListener position = some handler) {served : Action}
    (hserved : ctrl.actionList[position]? = some served)
    (hdescribed : IsDescribed action.actionNode served.argumentList) (memory : CharBuffer) :
    (ctrl.actionControlReceived memory
        (receivedBody parser (setAction (invocation action inputs)))).2 =
      performListener memory ctrl.service handler served
        (heardArguments inputs served.argumentList) := by
  obtain ⟨name, hname, -⟩ := hwritable.schema.name
  obtain ⟨hread, harguments⟩ :=
    read_setAction hparser hwritable.schema hwritable.serviceType hwritable.size hname
  have hfirst := hserves.first
  have hsame : action.getName = some name := hname
  rw [hsame, Option.getD_some] at hfirst
  have hheard := seenArguments_eq_heardArguments hwritable.schema hdescribed harguments
  rw [ControlService.actionControlReceived, hread, hfirst]
  simp only [hlistener, hserved, Option.bind_some, hheard]

end Answer

/-! ### What a control point makes of the answer -/

/-- Two actions that a response is decoded for in the same way. -/
structure SameCall (action action' : ServiceAction) : Prop where
  name : action.getName = action'.getName
  nodes : nodes action.argumentList = nodes action'.argumentList
  serviceType : action.service.getServiceType = action'.service.getServiceType

section SameCall

variable {argList argList' : List Argument}

theorem map_getArgumentByName (argList : List Argument) (name : Option CString) :
    (getArgumentByName argList name).map Argument.argumentNode =
      if strlen name ≤ 0 then none
      else (nodes argList).find? fun node ↦ streq (node.getChildNodeValue "name".toList) name := by
  rw [getArgumentByName]
  split_ifs
  · rfl
  · rw [nodes, List.find?_map]
    rfl

theorem collectOutputs_congr (h : nodes argList = nodes argList') (outputs : Dictionary)
    (children : List XmlNode) :
    collectOutputs argList outputs children = collectOutputs argList' outputs children := by
  induction children generalizing outputs with
  | nil => rfl
  | cons node rest ih =>
    have hmap := map_getArgumentByName argList (actionLocalName node)
    rw [h, ← map_getArgumentByName argList'] at hmap
    simp only [collectOutputs]
    cases hfound : getArgumentByName argList (actionLocalName node) with
    | none =>
      rw [hfound] at hmap
      rw [Option.map_eq_none_iff.mp hmap.symm]
    | some arg =>
      rw [hfound, Option.map_some] at hmap
      obtain ⟨arg', harg', hnode⟩ := Option.map_eq_some_iff.mp hmap.symm
      have hdirection : arg'.isOutDirection = arg.isOutDirection := by
        rw [Argument.isOutDirection, Argument.isOutDirection, Argument.getDirection,
          Argument.getDirection, hnode]
      simp only [harg', hdirection, ih]

/-- A response is decoded with the name, the type of the service and the description only. -/
theorem resultFromResponse_congr {action action' : ServiceAction} (h : SameCall action action')
    (parser : Parser) (httpStatusCode : ℤ) (content : Option CString) :
    resultFromResponse parser (some action) httpStatusCode content =
      resultFromResponse parser (some action') httpStatusCode content := by
  have hany : ∀ (argList : List Argument) (outputs : Dictionary),
      (argList.any fun arg ↦
          arg.isOutDirection && (dictionaryGetValue outputs arg.getName).isNone) =
        (nodes argList).any fun node ↦
          streq (node.getChildNodeValue "direction".toList) (some "out".toList) &&
            (dictionaryGetValue outputs (node.getChildNodeValue "name".toList)).isNone := by
    intro argList outputs
    rw [nodes, List.any_map]
    rfl
  have hset : ∀ result path response,
      setOutputs result action path response = setOutputs result action' path response := by
    intro result path response
    simp only [setOutputs, h.name, h.serviceType, collectOutputs_congr h.nodes, hany, h.nodes]
  cases content with
  | none => rfl
  | some content =>
    have hdecode : decodeNodes (statusResult httpStatusCode) action (xmlParse parser content).toList =
        decodeNodes (statusResult httpStatusCode) action' (xmlParse parser content).toList := by
      simp only [decodeNodes, hset]
    exact congrArg (fun result ↦ if httpStatusCode = 0 then statusResult httpStatusCode else result)
      hdecode

end SameCall

section Result

variable {parser : Parser} {handler : ActionHandler} {seen : List Argument}

/-- Nothing but the code and the outputs tells a result with all outputs from the one before. -/
theorem decodeNodes_of_success {result : ActionResult} {action : ServiceAction}
    {parsed : List XmlNode} (hcode : result.code ≠ .success)
    (h : (decodeNodes result action parsed).code = .success) :
    decodeNodes result action parsed =
      { result with
        code := .success
        outputs := (decodeNodes result action parsed).outputs } := by
  have hfault : ∀ path response, (setFault result path response).code ≠ .success := by
    intro path response
    unfold setFault
    split
    · exact ActionResultCode.noConfusion
    · split
      · exact ActionResultCode.noConfusion
      · dsimp only
        split_ifs
        · exact ActionResultCode.noConfusion
        · exact ActionResultCode.noConfusion
  have hset : ∀ path response, (setOutputs result action path response).code = .success →
      setOutputs result action path response =
        { result with
          code := .success
          outputs := (setOutputs result action path response).outputs } := by
    intro path response hsuccess
    unfold setOutputs at hsuccess ⊢
    dsimp only at hsuccess ⊢
    split_ifs at hsuccess ⊢ with hname
    · split at hsuccess
      · exact absurd hsuccess hcode
      · split_ifs at hsuccess ⊢ with hmissing
        · simp_all
    · exact absurd hsuccess hcode
  unfold decodeNodes at h ⊢
  split at h
  · split_ifs at h ⊢
    · exact absurd h (hfault _ _)
    · exact hset _ _ h
    · exact absurd h hcode
  · exact absurd h hcode

/-- The action of a device with what its listener has left of the arguments. -/
def answeredAction (service : ControlledService) (handler : ActionHandler) (action : Action)
    (seen : List Argument) : ServiceAction :=
  ⟨{ action with argumentList := handler.left seen }, service⟩

/-- What a listener gives for some arguments can be written, and no more than a parser accepts. -/
structure WritableReply (service : ControlledService) (handler : ActionHandler) (action : Action)
    (seen : List Argument) : Prop where
  outputs : (handler seen).isSuccessful = true →
    ResponseSchema (answeredAction service handler action seen) ∧
      responseLength (answeredAction service handler action seen) ≤ intMax
  description : (handler seen).isSuccessful = false →
    ∀ text ∈ (handler seen).statusDescription, ∀ c ∈ text, IsTextChar c
  statusCode : (handler seen).isSuccessful = false →
    ∀ code ∈ (handler seen).statusCode, -2 ^ 31 ≤ code ∧ code < 2 ^ 31
  fault : (handler seen).isSuccessful = false →
    byteLength (handler seen).fault.content ≤ intMax

/-- The result that a control point is to have of a listener: what it left in the outputs, or the
status that it set. -/
def expectedResult (handler : ActionHandler) (seen : List Argument) : ActionResult :=
  if (handler seen).isSuccessful then
    { ActionResult.new with
      code := .success
      httpStatusCode := 200
      outputs := outputValues (handler.left seen) }
  else
    { ActionResult.new with
      code := .soapFault
      httpStatusCode := 500
      upnpErrorCode := max 0 ((handler seen).statusCode.getD 401)
      faultCode := some "s:Client".toList
      faultString := some "UPnPError".toList
      errorDescription := stringAddValue none
        (some ((handler seen).statusDescription.getD (statusCode2String 401).toList)) }

theorem nodes_left (handler : ActionHandler) (seen : List Argument) :
    nodes (handler.left seen) = nodes seen := nodes_callListener _ _

theorem isTextChar_statusCode2String : ∀ c ∈ (statusCode2String 401).toList, IsTextChar c := by
  decide

/-- **Answers are understood.** What a device answers for an action is decoded as the outputs or the
status of its listener. -/
theorem resultFromResponse_performListener (hparser : Conforming parser) {action : ServiceAction}
    {service : ControlledService} {served : Action}
    (hsame : SameCall action (answeredAction service handler served seen))
    (hlt : byteLength (served.getName.getD []) < actionNameLenMax) {serviceType : CString}
    (htype : service.getServiceType = some serviceType)
    (hchars : ∀ c ∈ serviceType, isAttributeChar c = true)
    (hreply : WritableReply service handler served seen) {memory : CharBuffer}
    (hmemory : memory.length = nodeNameSize) :
    ∃ answer, performListener memory service handler served seen = some answer ∧
      resultFromResponse parser (some action) answer.statusCode (some answer.content) =
        expectedResult handler seen := by
  unfold performListener expectedResult
  split_ifs with hsuccessful
  · obtain ⟨hschema, hsize⟩ := hreply.outputs hsuccessful
    obtain ⟨name, hname, hlocal⟩ := hschema.name
    have hserved : served.getName = some name := hname
    rw [hserved, Option.getD_some] at hlt
    have hset : setResponse memory (answeredAction service handler served seen) =
        some (responseText (answeredAction service handler served seen) name) :=
      setResponse_of_lt hname hlocal hlt hmemory
    have hlength := @byteLength_responseText (answeredAction service handler served seen) name hname
      serviceType htype
    obtain ⟨hcode, houtputs⟩ := (decoded_responseText_iff hparser hschema hname hlocal).mpr
      ⟨hlength ▸ hsize, serviceType, htype, hchars⟩
    refine ⟨⟨200, responseText (answeredAction service handler served seen) name⟩, ?_, ?_⟩
    · exact congrArg (Option.map _) hset
    · rw [resultFromResponse_congr hsame]
      have hok : (200 : ℤ) ≠ 0 := by decide
      rw [resultFromResponse_of_ne_zero hok] at hcode houtputs ⊢
      rw [decodeNodes_of_success (by decide) hcode, houtputs]
      rfl
  · rw [Bool.not_eq_true] at hsuccessful
    refine ⟨(handler seen).fault, rfl, ?_⟩
    have hcode : -2 ^ 31 ≤ (handler seen).statusCode.getD 401 ∧
        (handler seen).statusCode.getD 401 < 2 ^ 31 := by
      cases hstatus : (handler seen).statusCode with
      | none => decide
      | some code => exact hreply.statusCode hsuccessful code hstatus
    have hdescription : stringSetValue (some (statusCode2String 401).toList)
        (handler seen).statusDescription =
          some ((handler seen).statusDescription.getD (statusCode2String 401).toList) := by
      cases (handler seen).statusDescription <;> rfl
    have htext : ∀ c ∈ (handler seen).statusDescription.getD (statusCode2String 401).toList,
        IsTextChar c := by
      cases hstatus : (handler seen).statusDescription with
      | none => exact isTextChar_statusCode2String
      | some text => exact hreply.description hsuccessful text hstatus
    have hsize := hreply.fault hsuccessful
    rw [ListenerVerdict.fault, hdescription, faultAnswer] at hsize ⊢
    exact resultFromResponse_fault hparser action hcode.1 hcode.2
      (fun text hsome ↦ Option.some.inj hsome ▸ htext) hsize

end Result

end Mupnp.Control
