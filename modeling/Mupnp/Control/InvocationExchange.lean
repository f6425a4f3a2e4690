import Mupnp.Control.ActionExchange
import Mupnp.Control.ControlMessage
import Mupnp.Control.ActionInputs

/-!
# Invocations over a connection

`mupnp_action_postwitharguments` of `control/action_ctrl.c` posts the request for an action, and the
server of a device answers it. `invocation_exchange` composes the two over HTTP and XML: after any
history of requests the control point is given what the listener of the device leaves and returns
for its inputs. No step of it depends on how the streams are cut.
-/

set_option autoImplicit false
set_option relaxedAutoImplicit false

namespace Mupnp.Control

open DeviceServer Foundation Foundation.XmlText Http Net Util Xml Soap

/-- `mupnp_action_postwitharguments`. `peer` is what comes back over the connection when a message
is written to it; there is none when connecting fails. -/
def postWithArguments (parser : Parser) (userAgent : CString) (action : ServiceAction)
    (ctrlUrl : NetUri) (inputs : Option Dictionary) (peer : Option (List Char → Socket)) :
    ActionResult :=
  if validInputs action inputs then
    let response := postMainStatus (actionHttpRequest userAgent (invocation action inputs) ctrlUrl)
      HttpResponse.new (ctrlUrl.host.getD []) ctrlUrl.port peer
    resultFromResponse parser (some action) (if response.2 then response.1.statusCode else 0)
      (response.1.content.bind ofBytes)
  else { ActionResult.new with code := .invalidArguments }

/-! ### The header for an action -/

section SoapAction

/-- Two texts in quotes, of which one is within the other, are the same. -/
theorem eq_of_quoted_infix {inner outer : List Char} (hinner : '"' ∉ inner) (houter : '"' ∉ outer)
    (h : '"' :: inner ++ ['"'] <:+: '"' :: outer ++ ['"']) : inner = outer := by
  obtain ⟨front, behind, heq⟩ := h
  cases front with
  | nil =>
    have hquoted : outer ++ '"' :: [] = inner ++ '"' :: behind := by simpa using heq.symm
    have hparts := (List.append_cons_inj_of_notMem houter List.not_mem_nil).mp hquoted
    exact hparts.1.symm
  | cons c front =>
    have hcount := congrArg (List.count '"') heq
    have hfirst : c = '"' := by
      have hhead := congrArg List.head? heq
      simpa using hhead
    simp only [hfirst, List.cons_append, List.count_cons_self, List.count_append, List.count_nil,
      List.count_eq_zero.mpr hinner, List.count_eq_zero.mpr houter] at hcount
    omega

variable {action : ServiceAction} {serviceType name : CString}

theorem soapActionValue_eq (htype : action.service.getServiceType = some serviceType)
    (hname : action.getName = some name) :
    soapActionValue action = some ('"' :: (serviceType ++ '#' :: name) ++ ['"']) := by
  rw [soapActionValue, htype, hname]
  simp only [List.foldl_cons, List.foldl_nil, Service.stringAddValue_some_some]
  simp

/-- A type of a service that a request can name: an attribute carries it, there is no quotation mark
in it, and it is not the type for queries. -/
structure CallableType (serviceType : CString) : Prop where
  chars : ∀ c ∈ serviceType, isAttributeChar c = true
  unquoted : '"' ∉ serviceType
  other : serviceType ≠ controlXmlns

/-- The value of the header for an action, as it is sent. -/
def soapActionBytes (serviceType name : CString) : CString :=
  toBytes ('"' :: (serviceType ++ '#' :: name) ++ ['"'])

theorem soapActionBytes_eq (serviceType name : CString) :
    soapActionBytes serviceType name =
      '"' :: (toBytes serviceType ++ '#' :: toBytes name) ++ ['"'] := by
  have hquote : toBytes ['"'] = ['"'] := by decide
  have hsharp : toBytes ['#'] = ['#'] := by decide
  have hparts : '"' :: (serviceType ++ '#' :: name) ++ ['"'] =
      ['"'] ++ serviceType ++ ['#'] ++ name ++ ['"'] := by simp
  rw [soapActionBytes, hparts]
  simp only [toBytes_append, hquote, hsharp]
  simp

theorem not_mem_of_isLocalName (h : IsLocalName name) {c : Char} (hc : isNameChar c = false) :
    c ∉ name := by
  intro hmem
  rw [isNameChar_of_mem (isName_of_isLocalName h) c hmem] at hc
  cases hc

/-- The header for an action is read as it was sent. -/
theorem isHeader_soapActionBytes (htype : CallableType serviceType) (hname : IsLocalName name)
    (hline : byteLength serviceType + byteLength name + 17 < readlineBufSize) :
    IsHeader "SOAPACTION".toList (soapActionBytes serviceType name) := by
  have hchars : ∀ c ∈ soapActionBytes serviceType name, c ≠ '\r' ∧ c ≠ '\n' ∧ c ≠ '\x00' := by
    have hnot : ∀ c : Char, c.toNat < 128 → isAttributeChar c = false → isNameChar c = false →
        c ≠ '"' → c ≠ '#' → c ∉ soapActionBytes serviceType name := by
      intro c hascii hattribute hnameChar hquote hsharp hmem
      have hcases := mem_toBytes hascii hmem
      simp only [List.cons_append, List.mem_cons, List.mem_append, List.not_mem_nil, or_false,
        hquote, hsharp, false_or] at hcases
      rcases hcases with htypeChar | hnamed
      · rw [htype.chars c htypeChar] at hattribute
        cases hattribute
      · exact not_mem_of_isLocalName hname hnameChar hnamed
    intro c hc
    refine ⟨?_, ?_, ?_⟩
    · rintro rfl
      exact hnot _ (by decide) (by decide) (by decide) (by decide) (by decide) hc
    · rintro rfl
      exact hnot _ (by decide) (by decide) (by decide) (by decide) (by decide) hc
    · rintro rfl
      exact hnot _ (by decide) (by decide) (by decide) (by decide) (by decide) hc
  have hquote : '"' ∉ " :".toList := by decide
  refine ⟨⟨by decide, by decide⟩, by decide, ⟨hchars, fun c hc ↦ ?_, fun c hc ↦ ?_⟩, ?_⟩
  · rw [soapActionBytes_eq, List.cons_append, List.head?_cons, Option.some.injEq] at hc
    exact hc ▸ hquote
  · rw [soapActionBytes_eq, List.getLast?_append] at hc
    simp only [List.getLast?_singleton, Option.some_or, Option.some.injEq] at hc
    exact hc ▸ hquote
  · have hfield : "SOAPACTION".toList.length = 10 := rfl
    have hcolon : ": ".toList.length = 2 := rfl
    have hend : "\r\n".toList.length = 2 := rfl
    rw [HttpPacket.headerLine_some, soapActionBytes_eq]
    simp only [List.length_append, List.length_cons, List.length_nil, length_toBytes, hfield,
      hcolon, hend]
    omega

/-- A request for an action is not taken for a query. -/
theorem isQueryRequest_soapActionBytes (htype : CallableType serviceType)
    (hname : IsLocalName name) (bodyNode : Option XmlNode) :
    SoapRequest.isQueryRequest ⟨some (soapActionBytes serviceType name), none, bodyNode⟩ =
      false := by
  have hquoted : ∀ text : CString, '"' ∉ text → '"' ∉ toBytes text := fun text hnot hmem ↦
    hnot (mem_toBytes (by decide) hmem)
  have hnone : ¬ 0 ≤ strstr none (some querySoapAction) := by decide
  have hnot : ¬ 0 ≤ strstr (some (soapActionBytes serviceType name)) (some querySoapAction) := by
    rw [strstr_nonneg_iff, soapActionBytes_eq]
    intro hwithin
    have hquery : querySoapAction =
        '"' :: (controlXmlns ++ '#' :: "QueryStateVariable".toList) ++ ['"'] := rfl
    have hunquoted : '"' ∉ toBytes serviceType ++ '#' :: toBytes name := by
      simp only [List.mem_append, List.mem_cons, not_or]
      exact ⟨hquoted _ htype.unquoted, by decide,
        hquoted _ (not_mem_of_isLocalName hname (by decide))⟩
    rw [hquery] at hwithin
    have hsame := eq_of_quoted_infix (by decide) hunquoted hwithin
    have hparts := (List.append_cons_inj_of_notMem (by decide) (by decide)).mp hsame
    have hbytes : toBytes serviceType = toBytes controlXmlns := by
      have hascii : toBytes controlXmlns = controlXmlns := toBytes_of_lt (by decide)
      rw [hascii]
      exact hparts.1.symm
    have hback := congrArg ofBytes hbytes
    rw [ofBytes_toBytes, ofBytes_toBytes] at hback
    exact htype.other (Option.some.inj hback)
  simp only [SoapRequest.isQueryRequest, decide_eq_false hnot, decide_eq_false hnone, Bool.or_false]

end SoapAction

/-! ### Arguments that do not depend on the past -/

section Past

variable {inputs : Option Dictionary} {argList argList' : List Argument}

/-- A call without empty inputs is heard in the same way whatever the arguments were before. -/
theorem heardArguments_congr (hnodes : nodes argList = nodes argList')
    (hdirected : ∀ arg ∈ argList, arg.getDirection = some "in".toList ∨
      arg.getDirection = some "out".toList)
    (hinputs : ∀ arg ∈ argList, arg.isInDirection = true → (inputValue inputs arg).getD [] ≠ []) :
    heardArguments inputs argList = heardArguments inputs argList' := by
  refine List.ext_getElem? fun i ↦ ?_
  rw [heardArguments, heardArguments, List.getElem?_map, List.getElem?_map]
  cases harg : argList[i]? with
  | none =>
    have hlength := congrArg List.length hnodes
    rw [nodes, nodes, List.length_map, List.length_map] at hlength
    have hnone : argList'[i]? = none := by
      rw [List.getElem?_eq_none_iff, ← hlength]
      exact List.getElem?_eq_none_iff.mp harg
    rw [hnone]
  | some arg =>
    obtain ⟨⟨node, value⟩, hsame, hnode⟩ := exists_getElem?_of_nodes hnodes harg
    obtain rfl : node = arg.argumentNode := hnode
    have hin : Argument.isInDirection ⟨arg.argumentNode, value⟩ = arg.isInDirection := rfl
    have hout : Argument.isOutDirection ⟨arg.argumentNode, value⟩ = arg.isOutDirection := rfl
    have hinput : inputValue inputs ⟨arg.argumentNode, value⟩ = inputValue inputs arg := rfl
    have hmem := List.mem_of_getElem? harg
    rw [hsame, Option.map_some, Option.map_some, hin, hout, hinput]
    split_ifs with hisIn hisOut
    · rw [stringAddValue_of_ne_nil none (hinputs arg hmem hisIn)]
      rfl
    · rfl
    · rcases hdirected arg hmem with hdirection | hdirection
      · exact absurd (streq_some_iff.mpr hdirection) hisIn
      · exact absurd (streq_some_iff.mpr hdirection) hisOut

/-- Inputs that are accepted and not empty are heard as by an action that was never called. -/
theorem heardArguments_of_validInputs {action : ServiceAction}
    (hvalid : validInputs action inputs = true)
    (hclient : IsDescribed action.actionNode action.argumentList)
    (hinputs : ∀ arg ∈ action.argumentList, arg.isInDirection = true →
      inputValue inputs arg ≠ some [])
    (hdevice : IsDescribed action.actionNode argList) :
    heardArguments inputs argList =
      heardArguments inputs (initArgumentList action.actionNode) := by
  rw [validInputs, validSchema, Bool.and_eq_true, Bool.and_eq_true, Bool.and_eq_true,
    validArguments_iff_validArguments] at hvalid
  obtain ⟨⟨⟨-, harguments⟩, hall⟩, -⟩ := hvalid
  have hgiven : ∀ arg ∈ action.argumentList, arg.isInDirection = true →
      (inputValue inputs arg).getD [] ≠ [] := by
    intro arg harg hin
    have hfound := List.all_eq_true.mp hall arg harg
    rw [hin, Bool.not_true, Bool.false_or] at hfound
    obtain ⟨value, hvalue⟩ := Option.isSome_iff_exists.mp hfound
    have hsame : inputValue inputs arg = some value := hvalue
    have hne := hinputs arg harg hin
    rw [hsame] at hne ⊢
    exact fun hnil ↦ hne (congrArg some hnil)
  have hpast := heardArguments_congr (hclient.trans hdevice.symm) harguments.directed hgiven
  exact hpast.symm.trans (heardArguments_congr hclient harguments.directed hgiven)

end Past

/-! ### The exchange -/

/-- An action that a device serves with a listener, and that requests and responses can name. -/
structure Callable (dev : ControlDevice) (service : ServedService) (position : ℕ)
    (action : ServiceAction) (handler : ActionHandler) (serviceType name : CString) : Prop where
  serves : Serves (dev.control service) position action
  listener : (dev.control service).actionListener position = some handler
  type_eq : action.service.getServiceType = some serviceType
  callable : CallableType serviceType
  name_eq : action.getName = some name
  nameLength : byteLength name < actionNameLenMax
  line : byteLength serviceType + byteLength name + 17 < readlineBufSize

section Exchange

variable {parser : Parser} {dev : ControlDevice} {service : ServedService} {position : ℕ}
  {action : ServiceAction} {handler : ActionHandler} {serviceType name : CString}
  {inputs : Option Dictionary}

/-- What a listener gives is answered with a status code and a content that can be sent. -/
theorem isContent_performListener {controlled : ControlledService} {served : Action}
    {seen : List Argument} (htype : controlled.getServiceType = some serviceType)
    (hname : served.getName = some name) (hlt : byteLength name < actionNameLenMax)
    (hreply : WritableReply controlled handler served seen) {memory : CharBuffer}
    (hmemory : memory.length = nodeNameSize) {answer : ControlAnswer}
    (h : performListener memory controlled handler served seen = some answer) :
    (answer.statusCode = 200 ∨ answer.statusCode = 500) ∧ IsContent answer.content := by
  unfold performListener at h
  split_ifs at h with hsuccessful
  · obtain ⟨content, hcontent, rfl⟩ := Option.map_eq_some_iff.mp h
    obtain ⟨hschema, hsize⟩ := hreply.outputs hsuccessful
    obtain ⟨other, hother, hlocal⟩ := hschema.name
    obtain rfl : other = name := Option.some.inj (hother.symm.trans hname)
    have hset : setResponse memory (answeredAction controlled handler served seen) =
        some (responseText (answeredAction controlled handler served seen) other) :=
      setResponse_of_lt hother hlocal hlt hmemory
    obtain rfl := Option.some.inj (hset.symm.trans hcontent)
    refine ⟨Or.inl rfl, setContent_ne_nil _, ?_⟩
    rw [byteLength_responseText hother htype]
    exact hsize
  · obtain rfl := Option.some.inj h
    rw [Bool.not_eq_true] at hsuccessful
    exact ⟨Or.inr rfl, setContent_ne_nil _, hreply.fault hsuccessful⟩

/-- What a device answers to an invocation after any history of requests, and what is made of it. -/
theorem exists_answer (hparser : Conforming parser)
    (hcallable : Callable dev service position action handler serviceType name)
    (hwritable : WritableInvocation action inputs)
    (hreply : ∀ argList, IsDescribed action.actionNode argList →
      WritableReply (dev.control service).service handler action.toAction
        (heardArguments inputs argList))
    (history : List (CharBuffer × HttpRequest)) {memory : CharBuffer}
    (hmemory : memory.length = nodeNameSize) :
    ∃ served answer,
      ((dev.afterRequests parser history).control service).actionList[position]? = some served ∧
      IsDescribed action.actionNode served.argumentList ∧
      (((dev.afterRequests parser history).control service).actionControlReceived memory
        (receivedBody parser (setAction (invocation action inputs)))).2 = some answer ∧
      (answer.statusCode = 200 ∨ answer.statusCode = 500) ∧ IsContent answer.content ∧
      resultFromResponse parser (some action) answer.statusCode (some answer.content) =
        expectedResult handler (heardArguments inputs served.argumentList) := by
  have hshape := (ControlDevice.sameShape_afterRequests parser dev history).control service
  have hserves := hcallable.serves.of_sameShape hshape
  obtain ⟨served, hserved, hnode, hdescribed⟩ := hserves.exists_served
  have hlistener : ((dev.afterRequests parser history).control service).actionListener position =
      some handler := by rw [hshape.actionListener, hcallable.listener]
  have hanswer := actionControlReceived_invocation hparser hserves hwritable hlistener hserved
    hdescribed memory
  rw [hshape.service] at hanswer
  have hsameAction : answeredAction (dev.control service).service handler action.toAction
      (heardArguments inputs served.argumentList) =
        answeredAction (dev.control service).service handler served
          (heardArguments inputs served.argumentList) := by
    rw [answeredAction, answeredAction, ← hnode]
  have hwritten := hreply served.argumentList hdescribed
  have hwrittenServed : WritableReply (dev.control service).service handler served
      (heardArguments inputs served.argumentList) :=
    ⟨hsameAction ▸ hwritten.outputs, hwritten.description, hwritten.statusCode, hwritten.fault⟩
  have hnodes : nodes action.argumentList =
      nodes (handler.left (heardArguments inputs served.argumentList)) := by
    rw [nodes_left, nodes_heardArguments, hdescribed, hcallable.serves.described]
  have hsame : SameCall action (answeredAction (dev.control service).service handler served
      (heardArguments inputs served.argumentList)) :=
    ⟨hsameAction ▸ rfl, hnodes, hcallable.serves.serviceType.symm⟩
  have hname : served.getName = some name := by
    rw [Action.getName, hnode]
    exact hcallable.name_eq
  have hlength : byteLength (served.getName.getD []) < actionNameLenMax := by
    rw [hname]
    exact hcallable.nameLength
  have htype : (dev.control service).service.getServiceType = some serviceType := by
    rw [hcallable.serves.serviceType, hcallable.type_eq]
  obtain ⟨answer, hperformed, hresult⟩ := resultFromResponse_performListener hparser hsame hlength
    htype hcallable.callable.chars hwrittenServed hmemory
  obtain ⟨hcode, hcontent⟩ := isContent_performListener htype hname hcallable.nameLength
    hwrittenServed hmemory hperformed
  exact ⟨served, answer, hserved, hdescribed, hanswer.trans hperformed, hcode, hcontent, hresult⟩

/-- **Invocations are exchanged.** A control point that invokes an action is given what the listener
of the device leaves and returns for the inputs, after any history of requests and however the
streams are cut. When no input is empty, that is what it would be given of a device that was never
called before. -/
theorem invocation_exchange (hparser : Conforming parser)
    (hcallable : Callable dev service position action handler serviceType name)
    (hvalid : validInputs action inputs = true) (hwritable : WritableInvocation action inputs)
    (hreply : ∀ argList, IsDescribed action.actionNode argList →
      WritableReply (dev.control service).service handler action.toAction
        (heardArguments inputs argList))
    {userAgent host uri : CString} {ctrlUrl : NetUri}
    (hurl : IsPostUrl userAgent ctrlUrl host uri)
    (hservice : dev.getServiceByControlUrl (receivedUri (some uri)) = some service)
    (history : List (CharBuffer × HttpRequest)) {peer : List Char → Socket}
    (hpeer : (dev.afterRequests parser history).IsServed parser peer) :
    (∃ served,
      ((dev.afterRequests parser history).control service).actionList[position]? = some served ∧
      postWithArguments parser userAgent action ctrlUrl inputs (some peer) =
        expectedResult handler (heardArguments inputs served.argumentList)) ∧
    ((∀ arg ∈ action.argumentList, arg.isInDirection = true → inputValue inputs arg ≠ some []) →
      postWithArguments parser userAgent action ctrlUrl inputs (some peer) =
        expectedResult handler (heardArguments inputs (initArgumentList action.actionNode))) := by
  have hlocal : IsLocalName name := by
    obtain ⟨other, hother, hlocal⟩ := hwritable.schema.name
    obtain rfl : other = name := Option.some.inj (hother.symm.trans hcallable.name_eq)
    exact hlocal
  have hheader := isHeader_soapActionBytes hcallable.callable hlocal hcallable.line
  have hrequest : IsContent (setAction (invocation action inputs)) :=
    ⟨setContent_ne_nil _, hwritable.size⟩
  -- The request is posted with the header for the action.
  have hhttp : actionHttpRequest userAgent (invocation action inputs) ctrlUrl =
      controlRequest userAgent (some (soapActionBytes serviceType name)) ctrlUrl
        (setAction (invocation action inputs)) := by
    have hvalue : soapActionValue (invocation action inputs) =
        some ('"' :: (serviceType ++ '#' :: name) ++ ['"']) :=
      soapActionValue_eq hcallable.type_eq hcallable.name_eq
    rw [actionHttpRequest, hvalue]
    rfl
  have hconforming : (controlPosting userAgent (soapActionBytes serviceType name) ctrlUrl
      (setAction (invocation action inputs)) host uri).IsConforming :=
    Or.inl (isRequest_controlPosting hrequest hurl hheader)
  obtain ⟨memory, received, httpDate, more, hmemory, hdate, harrives, hwritten⟩ :=
    hpeer.exists_written hconforming
  -- The device answers the request that it has read.
  obtain ⟨served, answered, hserved, hdescribed, hreceived, hcode, hcontent, hresult⟩ :=
    exists_answer hparser hcallable hwritable hreply history hmemory
  have hdevice : ((dev.afterRequests parser history).requestReceived parser memory received).2 =
      some answered.toHttpResponse := by
    have hsame := (ControlDevice.sameShape_afterRequests parser dev history).device
    rw [requestReceived_of_arrives parser memory hrequest hurl hheader (hsame ▸ hservice) harrives,
      ControlService.controlReceived, isQueryRequest_soapActionBytes hcallable.callable hlocal,
      if_neg Bool.false_ne_true, hreceived, Option.map_some]
  -- The control point decodes the answer that it has read.
  have hmethod : "POST".toList ≠ "HEAD".toList := by decide
  obtain ⟨read, hposted, hread⟩ := exists_postMainStatus_eq hconforming hmethod
    (isConforming_toHttpResponse hcontent hcode hdate) (hwritten _ hdevice) HttpResponse.new
  obtain ⟨hstatus, htext⟩ := content_of_arrives hcontent hread
  have hgiven : postWithArguments parser userAgent action ctrlUrl inputs (some peer) =
      expectedResult handler (heardArguments inputs served.argumentList) := by
    rw [postWithArguments, if_pos hvalid, hurl.host_eq, Option.getD_some, hhttp]
    have hexchanged : postMainStatus (controlRequest userAgent
        (some (soapActionBytes serviceType name)) ctrlUrl (setAction (invocation action inputs)))
          HttpResponse.new host ctrlUrl.port (some peer) = (read, true) := hposted
    simp only [hexchanged, if_true, hstatus, htext]
    exact hresult
  refine ⟨⟨served, hserved, hgiven⟩, fun hinputs ↦ hgiven.trans ?_⟩
  exact congrArg (expectedResult handler)
    (heardArguments_of_validInputs hvalid hcallable.serves.described hinputs hdescribed)

end Exchange

/-! ### A call -/

/-- The description of an argument. -/
def argumentDescription (name direction : String) : XmlNode :=
  ((XmlNode.new.setName (some "argument".toList)).setChildNode "name".toList
    (some name.toList)).setChildNode "direction".toList (some direction.toList)

/-- The description of an action with an input and an output. -/
def seekDescription : XmlNode :=
  (XmlNode.new.setChildNode "name".toList (some "Seek".toList)).addChildNode
    (((XmlNode.new.setName (some "argumentList".toList)).addChildNode
      (argumentDescription "Target" "in")).addChildNode (argumentDescription "Result" "out"))

/-- The action of a control point. -/
def describedSeek : ServiceAction :=
  ⟨⟨seekDescription, initArgumentList seekDescription⟩, playerService⟩

/-- A listener that always gives the same result. -/
def seekHandler : ActionHandler := fun _ ↦ ⟨⟨true, none, none⟩, [(1, some "1 < 2".toList)]⟩

/-- The service of a device with the action. -/
def seekControl : ControlService where
  service := playerService
  actionList := [describedSeek.toAction]
  stateTable := []
  actionListener _ := some seekHandler
  queryListener _ := none

def seekService : ServedService := ⟨none, some "/control".toList, none, none⟩

/-- A device with the service. -/
def seekDevice : ControlDevice where
  tree := .node { descriptionUri := none, rootNode := none, services := [seekService] } []
  httpPort := 4004
  location := some "http://10.0.0.1:4004/description.xml".toList
  presentationUrl := none
  hasPresentationListener := false
  control _ := seekControl

/-- The control URL of the service. -/
def seekUrl : NetUri := NetUri.setValue "http://10.0.0.1:4004/control".toList

def seekInputs : Option Dictionary := some [⟨some "Target".toList, some "a & b".toList⟩]

theorem isPostUrl_seekUrl :
    IsPostUrl "test".toList seekUrl "10.0.0.1".toList "/control".toList := by
  have hrelative : ¬ "://".toList <:+: "/control".toList :=
    mt strstr_nonneg_iff.mpr (by decide +kernel)
  have hport : seekUrl.port = 4004 := by decide +kernel
  refine ⟨by decide +kernel, by decide +kernel, ⟨by decide, by decide⟩, hrelative, by decide, ?_,
    ?_⟩
  · rw [hport]
    exact ⟨⟨by decide, by decide⟩, by decide, ⟨by decide +kernel, by decide +kernel,
      by decide +kernel⟩, by decide +kernel⟩
  · exact ⟨⟨by decide, by decide⟩, by decide, ⟨by decide, by decide, by decide⟩, by decide⟩

theorem callable_seek :
    Callable seekDevice seekService 0 describedSeek seekHandler "urn:x".toList "Seek".toList where
  serves := ⟨by decide +kernel, rfl, rfl, rfl⟩
  listener := rfl
  type_eq := rfl
  callable := ⟨by decide, by decide, by decide⟩
  name_eq := rfl
  nameLength := by decide
  line := by decide

theorem writableReply_seek (argList : List Argument)
    (h : IsDescribed describedSeek.actionNode argList) :
    WritableReply seekControl.service seekHandler describedSeek.toAction
      (heardArguments seekInputs argList) := by
  obtain ⟨⟨inNode, inValue⟩, rest, rfl, hin, hrest⟩ := List.map_eq_cons_iff.mp h
  obtain ⟨⟨outNode, outValue⟩, rest, rfl, hout, hnone⟩ := List.map_eq_cons_iff.mp hrest
  obtain rfl : rest = [] := List.map_eq_nil_iff.mp hnone
  obtain rfl : inNode = argumentDescription "Target" "in" := hin
  obtain rfl : outNode = argumentDescription "Result" "out" := hout
  set argList : List Argument := [⟨argumentDescription "Target" "in", inValue⟩,
    ⟨argumentDescription "Result" "out", outValue⟩]
  have hleft : (answeredAction seekControl.service seekHandler describedSeek.toAction
      (heardArguments seekInputs argList)).argumentList =
        [⟨argumentDescription "Target" "in", stringSetValue inValue (some "a & b".toList)⟩,
          ⟨argumentDescription "Result" "out", some "1 < 2".toList⟩] := rfl
  have hlength : responseLength (answeredAction seekControl.service seekHandler
      describedSeek.toAction (heardArguments seekInputs argList)) = 283 := by
    rw [responseLength, hleft]
    rfl
  have hnot : Argument.isOutDirection ⟨argumentDescription "Target" "in",
      stringSetValue inValue (some "a & b".toList)⟩ = false := rfl
  have hnever : (seekHandler (heardArguments seekInputs argList)).isSuccessful ≠ false :=
    Bool.false_ne_true.symm
  refine ⟨fun _ ↦ ⟨⟨⟨"Seek".toList, rfl, by decide⟩, ?_, ?_⟩, ?_⟩, fun hfails ↦
    absurd hfails hnever, fun hfails ↦ absurd hfails hnever, fun hfails ↦ absurd hfails hnever⟩
  · rw [hleft]
    intro arg harg hdirection
    rcases List.mem_cons.mp harg with rfl | hresult
    · exact absurd (hnot.symm.trans hdirection) Bool.false_ne_true
    · obtain rfl := List.mem_singleton.mp hresult
      exact ⟨⟨"Result".toList, rfl, by decide⟩, by decide⟩
  · rw [hleft]
    have hnames : List.filterMap Argument.getName
        [⟨argumentDescription "Target" "in", stringSetValue inValue (some "a & b".toList)⟩,
          ⟨argumentDescription "Result" "out", some "1 < 2".toList⟩] =
        ["Target".toList, "Result".toList] := rfl
    rw [hnames]
    decide
  · rw [hlength]
    decide

/-- What the requests before have left in the array for a name. -/
def seekMemory : CharBuffer := List.replicate nodeNameSize 1

/-- A request that came before, for nothing that the device has. -/
def seekHistory : List (CharBuffer × HttpRequest) := [(seekMemory, HttpRequest.new [])]

/-- What the device answers afterwards. -/
def seekAnswer (_ : ℕ) (httpReq : HttpRequest) : HttpResponse :=
  (((seekDevice.afterRequests subsetParser seekHistory).requestReceived subsetParser seekMemory
    httpReq).2).getD HttpResponse.new

/-- The connection to the device, in one segment each way. -/
def seekPeer (message : List Char) : Socket :=
  ⟨[((ClientThread.answering seekAnswer fun _ ↦ "now".toList).run [] ⟨[message]⟩).flatMap
    Turn.written]⟩

theorem isHeader_seekDate : IsHeader "Date".toList "now".toList :=
  ⟨⟨by decide, by decide⟩, by decide, ⟨by decide, by decide, by decide⟩, by decide⟩

theorem writableInvocation_seek : WritableInvocation describedSeek seekInputs where
  schema := by
    refine ⟨⟨"Seek".toList, rfl, by decide⟩, fun arg harg hin ↦ ?_, by decide⟩
    have hcases : arg = ⟨argumentDescription "Target" "in", some "a & b".toList⟩ ∨
        arg = ⟨argumentDescription "Result" "out", none⟩ :=
      (List.mem_cons.mp harg).imp_right List.mem_singleton.mp
    rcases hcases with rfl | rfl
    · exact ⟨⟨"Target".toList, rfl, by decide⟩, by decide⟩
    · exact absurd hin (by decide)
  serviceType := by decide
  size := by decide +kernel

theorem isServed_seekPeer :
    (seekDevice.afterRequests subsetParser seekHistory).IsServed subsetParser seekPeer :=
  ⟨seekMemory, List.length_replicate, seekAnswer, fun _ ↦ "now".toList, [], isHeader_seekDate,
    fun _ _ hsome ↦ congrArg (Option.getD · HttpResponse.new) hsome,
    fun message ↦ ⟨⟨[message]⟩, by simp [SegmentedStream.content],
      by simp [seekPeer, SegmentedStream.content]⟩⟩

/-- An action with an input and an output is called. -/
theorem invocation_exchange_seek :
    (∃ served, ((seekDevice.afterRequests subsetParser seekHistory).control
        seekService).actionList[0]? = some served ∧
      postWithArguments subsetParser "test".toList describedSeek seekUrl seekInputs
          (some seekPeer) =
        expectedResult seekHandler (heardArguments seekInputs served.argumentList)) ∧
    ((∀ arg ∈ describedSeek.argumentList, arg.isInDirection = true →
        inputValue seekInputs arg ≠ some []) →
      postWithArguments subsetParser "test".toList describedSeek seekUrl seekInputs
          (some seekPeer) =
        expectedResult seekHandler
          (heardArguments seekInputs (initArgumentList describedSeek.actionNode))) :=
  @invocation_exchange subsetParser seekDevice seekService 0 describedSeek seekHandler
    "urn:x".toList "Seek".toList seekInputs conforming_subsetParser callable_seek
    (by decide +kernel) writableInvocation_seek writableReply_seek "test".toList
    "10.0.0.1".toList "/control".toList seekUrl isPostUrl_seekUrl (by decide +kernel) seekHistory
    seekPeer isServed_seekPeer

end Mupnp.Control
