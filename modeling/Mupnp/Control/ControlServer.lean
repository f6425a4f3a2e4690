import Mupnp.Control.ArgumentIsolation
import Mupnp.Control.FaultResponse
import Mupnp.Event.StateVariable

/-!
# Control requests at a service

What a device makes of a SOAP request for one of its services, `mupnp_device_controlrequestrecieved`
of `device_http_server.c` with `control/action_ctrl.c`, `control/query_ctrl.c`,
`control/query_request.c` and `control/query_response.c`: the header `SOAPACTION` tells a query of a
state variable from a call of an action, the action or the variable is looked up by the name in the
body, and its listener is called. The answer is the response that the listener gives values for, or
a fault.

Listeners belong to the application. Here they are functions of what they are given, which say what
they set and what they return. The notification that follows a new value of a state variable is left
out.
-/

set_option autoImplicit false
set_option relaxedAutoImplicit false

namespace Mupnp.Control

open Util Xml Soap Event

/-- `mupnp_status_code2string`. -/
def statusCode2String (code : ℤ) : String :=
  match code with
  | 401 => "Invalid Action"
  | 402 => "Invalid Args"
  | 403 => "Out of Sync"
  | 404 => "Invalid Var"
  | 501 => "Action Failed"
  | _ => ""

/-! ### Answers -/

/-- The status code and the content of the response to a control request. -/
structure ControlAnswer where
  statusCode : ℤ
  content : CString
  deriving DecidableEq

/-- `mupnp_control_soap_response_setfaultresponse`. -/
def faultAnswer (errCode : ℤ) (errDescr : Option CString) : ControlAnswer :=
  ⟨500, setFaultResponse errCode errDescr⟩

/-- `mupnp_device_invalidcontrolrecieved`. -/
def invalidControlReceived (code : ℤ) : ControlAnswer :=
  faultAnswer code (some (statusCode2String code).toList)

/-- What a listener leaves in the status of its action or variable, and what it returns. -/
structure ListenerVerdict where
  isSuccessful : Bool
  statusCode : Option ℤ
  statusDescription : Option CString

/-- The fault of a listener that fails: before it is called, the status is that of an invalid
action. -/
def ListenerVerdict.fault (verdict : ListenerVerdict) : ControlAnswer :=
  faultAnswer (verdict.statusCode.getD 401)
    (stringSetValue (some (statusCode2String 401).toList) verdict.statusDescription)

/-! ### Actions -/

/-- What a listener of an action does: the values that it sets, each for the argument at a position,
and its verdict. -/
structure ActionReply extends ListenerVerdict where
  writes : List (ℕ × Option CString)

/-- A listener of one action, which is given its arguments. -/
abbrev ActionHandler := List Argument → ActionReply

/-- The arguments of an action after its listener was called with them. -/
def ActionHandler.left (handler : ActionHandler) (argList : List Argument) : List Argument :=
  callListener (fun args ↦ (handler args).writes) argList

/-- The answer of `mupnp_action_performlistner` when the listener was called with some arguments. -/
def performListener (memory : CharBuffer) (service : ControlledService) (handler : ActionHandler)
    (action : Action) (seen : List Argument) : Option ControlAnswer :=
  if (handler seen).isSuccessful then
    (setResponse memory ⟨{ action with argumentList := handler.left seen }, service⟩).map
      (⟨200, ·⟩)
  else some (handler seen).fault

/-! ### State variables -/

/-- What a listener of a state variable does: the values that it sets, and its verdict. -/
structure QueryReply extends ListenerVerdict where
  writes : List (Option CString)

/-- A listener of one state variable. -/
abbrev QueryHandler := StateVariable → QueryReply

/-- `mupnp_control_query_request_getvarnamenode`. -/
def getVarNameNode (bodyNode : Option XmlNode) : Option XmlNode :=
  bodyNode.bind fun body ↦ body.children.head?.bind fun (queryStateVarNode : XmlNode) ↦
    queryStateVarNode.children.head?

/-- `mupnp_control_query_request_getvarname`. -/
def getVarName (bodyNode : Option XmlNode) : Option CString :=
  match getVarNameNode bodyNode with
  | none => some []
  | some node => node.text

/-- `mupnp_control_query_response_createresponsenode`. -/
def createQueryResponseNode (statVar : StateVariable) : XmlNode :=
  let queryResNode := (XmlNode.new.setName
    (some "u:QueryStateVariableResponse".toList)).setNamespace "u".toList (some controlXmlns)
  queryResNode.addChildNode
    ((XmlNode.new.setName (some "return".toList)).setValue statVar.value)

/-- `mupnp_control_query_response_setresponse`: the content of the response. -/
def setQueryResponse (statVar : StateVariable) : CString :=
  setContent (addToBody createEnvelopeBodyNode (responseBodyPosition createEnvelopeBodyNode)
    (createQueryResponseNode statVar))

/-- A state variable after its listener was called: its value is empty at first. -/
def QueryHandler.left (handler : QueryHandler) (statVar : StateVariable) : StateVariable :=
  (handler (statVar.setValue (some []))).writes.foldl StateVariable.setValue
    (statVar.setValue (some []))

/-- The answer of `mupnp_statevariable_performlistner`. -/
def performQuery (handler : QueryHandler) (statVar : StateVariable) : ControlAnswer :=
  if (handler (statVar.setValue (some []))).isSuccessful then
    ⟨200, setQueryResponse (handler.left statVar)⟩
  else (handler (statVar.setValue (some []))).fault

/-! ### Services -/

/-- A service with its actions and its state table, and the listeners of the actions and the
variables at each position. -/
structure ControlService where
  service : ControlledService
  actionList : List Action
  stateTable : List StateVariable
  actionListener : ℕ → Option ActionHandler
  queryListener : ℕ → Option QueryHandler

/-- A SOAP request: its two headers for the action, and its body. -/
structure SoapRequest where
  soapAction : Option CString
  soapActionWithNs : Option CString
  bodyNode : Option XmlNode

/-- `MUPNP_CONTROL_QUERY_SOAPACTION`. -/
def querySoapAction : CString :=
  "\"urn:schemas-upnp-org:control-1-0#QueryStateVariable\"".toList

/-- `mupnp_control_isqueryrequest`; every other request is one for an action. -/
def SoapRequest.isQueryRequest (soapReq : SoapRequest) : Bool :=
  decide (0 ≤ strstr soapReq.soapAction (some querySoapAction)) ||
    decide (0 ≤ strstr soapReq.soapActionWithNs (some querySoapAction))

namespace ControlService

/-- `mupnp_device_actioncontrolrequestrecieved`. The array for the name of the response is a
parameter. -/
def actionControlReceived (memory : CharBuffer) (ctrl : ControlService)
    (bodyNode : Option XmlNode) : ControlService × Option ControlAnswer :=
  match getActionByName ctrl.actionList (getActionName bodyNode) with
  | none => (ctrl, some (invalidControlReceived 401))
  | some position =>
    match ctrl.actionListener position with
    | none =>
      ({ ctrl with
          actionList := changeArguments ctrl.actionList position (givenArguments bodyNode) },
        some (invalidControlReceived 401))
    | some handler =>
      ({ ctrl with
          actionList := changeArguments ctrl.actionList position fun argList ↦
            handler.left (seenArguments bodyNode argList) },
        ctrl.actionList[position]?.bind fun action ↦
          performListener memory ctrl.service handler action
            (seenArguments bodyNode action.argumentList))

/-- `mupnp_device_querycontrolrequestrecieved`. -/
def queryControlReceived (ctrl : ControlService) (bodyNode : Option XmlNode) :
    ControlService × Option ControlAnswer :=
  let varName := getVarName bodyNode
  if strlen varName ≤ 0 then (ctrl, some (invalidControlReceived 404))
  else
    match ctrl.stateTable.findIdx? (·.isName varName) with
    | none => (ctrl, some (invalidControlReceived 404))
    | some position =>
      match ctrl.queryListener position with
      | none => (ctrl, some (invalidControlReceived 404))
      | some handler =>
        ({ ctrl with stateTable := ctrl.stateTable.modify position handler.left },
          ctrl.stateTable[position]?.map (performQuery handler))

/-- `mupnp_device_controlrequestrecieved`: the service afterwards, and the answer. -/
def controlReceived (memory : CharBuffer) (ctrl : ControlService) (soapReq : SoapRequest) :
    ControlService × Option ControlAnswer :=
  if soapReq.isQueryRequest then ctrl.queryControlReceived soapReq.bodyNode
  else ctrl.actionControlReceived memory soapReq.bodyNode

/-! ### What requests leave alone -/

/-- What no control request changes in a service. -/
structure SameShape (ctrl ctrl' : ControlService) : Prop where
  service : ctrl'.service = ctrl.service
  actions : ctrl'.actionList.map Action.shape = ctrl.actionList.map Action.shape
  stateVariables : ctrl'.stateTable.map (StateVariable.setValue · (some [])) =
    ctrl.stateTable.map (StateVariable.setValue · (some []))
  actionListener : ctrl'.actionListener = ctrl.actionListener
  queryListener : ctrl'.queryListener = ctrl.queryListener

variable {ctrl ctrl' ctrl'' : ControlService}

theorem SameShape.refl (ctrl : ControlService) : SameShape ctrl ctrl := ⟨rfl, rfl, rfl, rfl, rfl⟩

theorem SameShape.trans (h : SameShape ctrl ctrl') (h' : SameShape ctrl' ctrl'') :
    SameShape ctrl ctrl'' where
  service := h'.service.trans h.service
  actions := h'.actions.trans h.actions
  stateVariables := h'.stateVariables.trans h.stateVariables
  actionListener := h'.actionListener.trans h.actionListener
  queryListener := h'.queryListener.trans h.queryListener

/-- A listener changes no more than the value of a variable. -/
theorem setValue_left (handler : QueryHandler) (statVar : StateVariable) :
    (handler.left statVar).setValue (some []) = statVar.setValue (some []) := by
  have hwrites : ∀ (writes : List (Option CString)) (statVar : StateVariable),
      (writes.foldl StateVariable.setValue statVar).setValue (some []) =
        statVar.setValue (some []) := by
    intro writes
    induction writes with
    | nil => exact fun statVar ↦ rfl
    | cons data rest ih => exact fun statVar ↦ ih (statVar.setValue data)
  exact hwrites _ _

theorem sameShape_actionControlReceived (memory : CharBuffer) (ctrl : ControlService)
    (bodyNode : Option XmlNode) :
    SameShape ctrl (ctrl.actionControlReceived memory bodyNode).1 := by
  unfold actionControlReceived
  cases getActionByName ctrl.actionList (getActionName bodyNode) with
  | none => exact SameShape.refl ctrl
  | some position =>
    cases hlistener : ctrl.actionListener position with
    | none =>
      simp only [hlistener]
      refine ⟨rfl, ?_, rfl, rfl, rfl⟩
      exact shape_changeArguments ctrl.actionList position fun args ↦ nodes_argumentListSet args _
    | some handler =>
      simp only [hlistener]
      refine ⟨rfl, ?_, rfl, rfl, rfl⟩
      exact shape_changeArguments ctrl.actionList position fun args ↦
        (nodes_callListener _ _).trans (nodes_seenArguments bodyNode args)

theorem sameShape_queryControlReceived (ctrl : ControlService) (bodyNode : Option XmlNode) :
    SameShape ctrl (ctrl.queryControlReceived bodyNode).1 := by
  unfold queryControlReceived
  dsimp only
  split_ifs
  · exact SameShape.refl ctrl
  cases ctrl.stateTable.findIdx? (·.isName (getVarName bodyNode)) with
  | none => exact SameShape.refl ctrl
  | some position =>
    cases hlistener : ctrl.queryListener position with
    | none =>
      simp only [hlistener]
      exact SameShape.refl ctrl
    | some handler =>
      simp only [hlistener]
      refine ⟨rfl, rfl, ?_, rfl, rfl⟩
      refine List.ext_getElem? fun i ↦ ?_
      simp only [List.getElem?_map, List.getElem?_modify]
      cases ctrl.stateTable[i]? with
      | none => rfl
      | some statVar =>
        simp only [Option.map_some]
        split_ifs
        · exact congrArg some (setValue_left handler statVar)
        · rfl

/-- A control request changes values only. -/
theorem sameShape_controlReceived (memory : CharBuffer) (ctrl : ControlService)
    (soapReq : SoapRequest) : SameShape ctrl (ctrl.controlReceived memory soapReq).1 := by
  unfold controlReceived
  split_ifs
  · exact sameShape_queryControlReceived ctrl soapReq.bodyNode
  · exact sameShape_actionControlReceived memory ctrl soapReq.bodyNode

end ControlService

end Mupnp.Control
