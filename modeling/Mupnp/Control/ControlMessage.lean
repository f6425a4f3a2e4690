import Mupnp.Control.ControlServer
import Mupnp.Control.RequestRoundTrip
import Mupnp.DeviceServer.ServiceRouting
import Mupnp.Http.PipelinedExchange
import Mupnp.Util.ByteText

/-!
# Control messages over HTTP

The HTTP requests and responses around SOAP messages: `soap/soap_request.c`, `soap/soap_response.c`,
and the parts of `control/control_function.c`, `control/action_request.c` and `device_http_server.c`
that make them and that hand them to a service. The content of a message has one character for each
byte, and the XML tree in it is that of the text which the bytes stand for.
-/

set_option autoImplicit false
set_option relaxedAutoImplicit false

namespace Mupnp.Control

open DeviceServer Foundation Foundation.XmlText Http Net Util Xml Soap

/-! ### Messages -/

/-- `MUPNP_SOAP_CONTENT_TYPE`, which is `MUPNP_XML_CONTENT_TYPE`. -/
def soapContentType : CString := "text/xml; charset=\"utf-8\"".toList

/-- `mupnp_http_request_setcontenttype`, for requests and for responses. -/
def setSoapContentType (httpPkt : HttpPacket) : HttpPacket :=
  httpPkt.setHeaderValue "Content-Type".toList (some soapContentType)

/-- `mupnp_soap_request_setcontent` and `mupnp_soap_response_setcontent` with the text of an XML
tree. -/
def setSoapContent (httpPkt : HttpPacket) (content : CString) : HttpPacket :=
  let filled := (setSoapContentType httpPkt).appendContent (toBytes content)
  filled.setContentLength (stringLength filled.content)

/-- `mupnp_soap_request_new`. -/
def soapRequestNew (userAgent : CString) : HttpRequest :=
  { HttpRequest.new userAgent with
    toHttpPacket := setSoapContentType HttpPacket.empty
    method := some "POST".toList }

/-- A request of a control point: the header for the action, the target
(`mupnp_control_request_sethostfromservice`), the type of the content
(`mupnp_control_soap_request_initializeenvelopenode`) and the content. -/
def controlRequest (userAgent : CString) (soapAction : Option CString) (ctrlUrl : NetUri)
    (content : CString) : HttpRequest :=
  let soapReq := soapRequestNew userAgent
  { soapReq with
    toHttpPacket := setSoapContent (setSoapContentType
      (soapReq.toHttpPacket.setHeaderValue "SOAPACTION".toList soapAction)) content
    uri := stringSetValue soapReq.uri ctrlUrl.getRequest }

/-- The value of the header `SOAPACTION` for an action. -/
def soapActionValue (action : ServiceAction) : Option CString :=
  [action.service.getServiceType, some "#".toList, action.getName, some "\"".toList].foldl
    stringAddValue (some "\"".toList)

/-- `mupnp_control_action_request_setaction`, for a request that is new. -/
def actionHttpRequest (userAgent : CString) (action : ServiceAction) (ctrlUrl : NetUri) :
    HttpRequest :=
  controlRequest userAgent ((soapActionValue action).map toBytes) ctrlUrl (setAction action)

/-- The text that `mupnp_soap_request_sethttprequest` parses: as many bytes of the content as the
header `Content-Length` says. -/
def soapText (httpPkt : HttpPacket) : Option CString :=
  httpPkt.sentContent.bind fun content ↦ if content = [] then none else ofBytes content

/-- `mupnp_soap_request_sethttprequest`. -/
def toSoapRequest (parser : Parser) (httpReq : HttpRequest) : SoapRequest where
  soapAction := httpReq.toHttpPacket.getHeaderValue "SOAPACTION".toList
  soapActionWithNs := httpReq.toHttpPacket.getHeaderValue "01-SOAPACTION".toList
  bodyNode := (soapText httpReq.toHttpPacket).bind (receivedBody parser)

/-- The response with an answer: its status code, the type of the content
(`mupnp_control_soap_response_initializeenvelopenode`) and the content. -/
def ControlAnswer.toHttpResponse (answer : ControlAnswer) : HttpResponse :=
  let coded := HttpResponse.new.setStatusCode answer.statusCode
  { coded with
    toHttpPacket := setSoapContent (setSoapContentType coded.toHttpPacket) answer.content }

/-! ### Devices -/

/-- A device whose services are controlled. -/
structure ControlDevice extends HttpDevice where
  control : ServedService → ControlService

namespace ControlDevice

/-- What `mupnp_device_httprequestrecieved` does with a request as far as control is concerned: the
device afterwards, and the response. Requests for documents and for subscriptions change nothing that
is controlled, and their responses are left out. -/
def requestReceived (parser : Parser) (memory : CharBuffer) (dev : ControlDevice)
    (httpReq : HttpRequest) : ControlDevice × Option HttpResponse :=
  match dev.dispatch httpReq with
  | .control service =>
    let (ctrl, answer) :=
      (dev.control service).controlReceived memory (toSoapRequest parser httpReq)
    ({ dev with control := Function.update dev.control service ctrl },
      answer.map ControlAnswer.toHttpResponse)
  | .status code => (dev, some (HttpResponse.ofStatusCode code))
  | _ => (dev, none)

/-- The device after a history of requests, oldest first. -/
def afterRequests (parser : Parser) (dev : ControlDevice)
    (history : List (CharBuffer × HttpRequest)) : ControlDevice :=
  history.foldl (fun dev entry ↦ (dev.requestReceived parser entry.1 entry.2).1) dev

theorem afterRequests_singleton (parser : Parser) (dev : ControlDevice) (memory : CharBuffer)
    (httpReq : HttpRequest) :
    dev.afterRequests parser [(memory, httpReq)] = (dev.requestReceived parser memory httpReq).1 :=
  rfl

/-- What no request changes in a device. -/
structure SameShape (dev dev' : ControlDevice) : Prop where
  device : dev'.toHttpDevice = dev.toHttpDevice
  control : ∀ service, ControlService.SameShape (dev.control service) (dev'.control service)

theorem sameShape_requestReceived (parser : Parser) (memory : CharBuffer) (dev : ControlDevice)
    (httpReq : HttpRequest) : SameShape dev (dev.requestReceived parser memory httpReq).1 := by
  unfold requestReceived
  cases dev.dispatch httpReq with
  | control service =>
    refine ⟨rfl, fun other ↦ ?_⟩
    by_cases hsame : other = service
    · subst hsame
      simp only [Function.update_self]
      exact ControlService.sameShape_controlReceived memory _ _
    · simp only [Function.update_of_ne hsame]
      exact ControlService.SameShape.refl _
  | _ => exact ⟨rfl, fun other ↦ ControlService.SameShape.refl _⟩

/-- A history of requests changes values of arguments and state variables only. -/
theorem sameShape_afterRequests (parser : Parser) (dev : ControlDevice)
    (history : List (CharBuffer × HttpRequest)) :
    SameShape dev (dev.afterRequests parser history) := by
  induction history generalizing dev with
  | nil => exact ⟨rfl, fun service ↦ ControlService.SameShape.refl _⟩
  | cons entry rest ih =>
    have hfirst := sameShape_requestReceived parser entry.1 dev entry.2
    have hrest := ih (dev.requestReceived parser entry.1 entry.2).1
    exact ⟨hrest.device.trans hfirst.device,
      fun service ↦ (hfirst.control service).trans (hrest.control service)⟩

end ControlDevice

/-! ### The content of a message -/

/-- A text that a message can carry. -/
structure IsContent (content : CString) : Prop where
  ne_nil : content ≠ []
  size : byteLength content ≤ Xml.intMax

theorem setContent_ne_nil (node : XmlNode) : setContent node ≠ [] :=
  List.append_ne_nil_of_right_ne_nil _ (List.cons_ne_nil _ _)

section Content

variable {httpPkt : HttpPacket} {content : CString}

theorem IsContent.toBytes_ne_nil (h : IsContent content) : toBytes content ≠ [] := by
  intro hnil
  have hback := ofBytes_toBytes content
  rw [hnil] at hback
  exact h.ne_nil (Option.some.inj hback).symm

theorem content_setSoapContent (h : IsContent content) (hempty : httpPkt.content = none) :
    (setSoapContent httpPkt content).content = some (toBytes content) := by
  have hadded := stringAddValue_of_ne_nil httpPkt.content h.toBytes_ne_nil
  rw [hempty] at hadded
  have hcontent : (setSoapContent httpPkt content).content =
      stringAddValue httpPkt.content (some (toBytes content)) := rfl
  rw [hcontent, hempty, hadded]
  rfl

/-- The length of a content is written in a header. -/
theorem isHeader_contentLength {n : ℕ} (h : n ≤ Xml.intMax) :
    IsHeader "Content-Length".toList (long2str n) := by
  have hdigits : long2str n = Nat.toDigits 10 n := by
    rw [long2str, if_neg (by omega)]
    rfl
  have hlength : (Nat.toDigits 10 n).length ≤ 10 := by
    have hmax : Xml.intMax = 2147483647 := rfl
    exact (Nat.length_toDigits_le_iff (by decide) (by decide)).mpr (by omega)
  have hchar : ∀ c ∈ long2str n, c.isDigit = true := by
    rw [hdigits]
    exact fun c hc ↦ isDigit_of_mem_toDigits hc
  have hblank : ∀ c ∈ long2str n, c ∉ " :".toList := by
    intro c hc hmem
    have hdigit := hchar c hc
    simp only [String.reduceToList, List.mem_cons, List.not_mem_nil, or_false] at hmem
    rcases hmem with rfl | rfl
    · exact absurd hdigit (by decide)
    · exact absurd hdigit (by decide)
  refine ⟨⟨by decide, by decide⟩, by decide, ⟨fun c hc ↦ ?_, fun c hc ↦ ?_, fun c hc ↦ ?_⟩, ?_⟩
  · have hdigit := hchar c hc
    refine ⟨?_, ?_, ?_⟩ <;>
    · rintro rfl
      exact absurd hdigit (by decide)
  · exact hblank c (List.mem_of_head? hc)
  · exact hblank c (List.mem_of_getLast? hc)
  · rw [HttpPacket.headerLine_some, hdigits]
    have hname : "Content-Length".toList.length = 14 := rfl
    have hcolon : ": ".toList.length = 2 := rfl
    have hend : "\r\n".toList.length = 2 := rfl
    have hbuffer : readlineBufSize = 512 := rfl
    simp only [List.length_append, hname, hcolon, hend, hbuffer]
    omega

theorem isHeader_contentType : IsHeader "Content-Type".toList soapContentType :=
  ⟨⟨by decide, by decide⟩, by decide, ⟨by decide, by decide, by decide⟩, by decide⟩

/-- A packet with a content is one that is read as it was posted, when its headers are. -/
theorem isPacket_of_content (h : IsContent content) (hcontent : httpPkt.content =
      some (toBytes content))
    (hlength : httpPkt.getHeaderValue "Content-Length".toList =
      some (long2str (byteLength content)))
    (hheaders : ∀ header ∈ httpPkt.headers, ∃ name value,
      header = ⟨some name, some value⟩ ∧ IsHeader name value) : IsPacket httpPkt := by
  have hdigits : long2str (byteLength content) = Nat.toDigits 10 (byteLength content) := by
    rw [long2str, if_neg (by omega)]
    rfl
  have hbytes : (httpPkt.content.getD []).length = byteLength content := by
    rw [hcontent, Option.getD_some, length_toBytes]
  refine ⟨hheaders, ⟨_, hlength, long2str_ne_nil _, ?_, ?_⟩, ?_⟩
  · rw [hdigits]
    exact fun c hc ↦ isDigit_of_mem_toDigits hc
  · rw [hdigits, digitsValue_toDigits, hbytes]
  · have hint : Xml.intMax = 2147483647 := rfl
    have hlong : longMax = 2 ^ 63 - 1 := rfl
    have hsize := h.size
    rw [hbytes]
    omega

/-- The bytes of a packet that are posted are all of its content. -/
theorem sentContent_of_isPacket (h : IsPacket httpPkt) :
    httpPkt.sentContent = some (httpPkt.content.getD []) := by
  obtain ⟨sent, hsent, hpost⟩ := Option.map_eq_some_iff.mp h.post
  rw [hsent, List.append_cancel_left hpost]

/-- The text of a message that was received as it was sent. -/
theorem soapText_of_sent {sent received : HttpPacket} (h : IsContent content)
    (hpacket : IsPacket sent) (hbody : sent.content = some (toBytes content))
    (hheaders : received.headers = sent.headers)
    (hsame : received.content.getD [] = sent.content.getD []) : soapText received = some content := by
  have hreceived : IsPacket received := by
    obtain ⟨hall, hlength, hmemory⟩ := hpacket
    rw [HttpPacket.getHeaderValue, ← hheaders, ← hsame] at hlength
    rw [← hheaders] at hall
    rw [← hsame] at hmemory
    exact ⟨hall, hlength, hmemory⟩
  rw [soapText, sentContent_of_isPacket hreceived, hsame, hbody, Option.getD_some,
    Option.bind_some, if_neg h.toBytes_ne_nil, ofBytes_toBytes]

end Content

/-! ### Requests -/

section Request

variable {userAgent soapAction content ipaddr : CString} {ctrlUrl : NetUri} {port : ℤ}

theorem headers_controlRequest (h : IsContent content) :
    ((controlRequest userAgent (some soapAction) ctrlUrl content).addressed ipaddr port).headers =
      [⟨some "Content-Type".toList, some soapContentType⟩,
        ⟨some "SOAPACTION".toList, some soapAction⟩,
        ⟨some "Content-Length".toList, some (long2str (byteLength content))⟩,
        ⟨some "HOST".toList, some (hostHeaderValue ipaddr port)⟩,
        ⟨some "User-Agent".toList, some userAgent⟩] := by
  have hcontent : (controlRequest userAgent (some soapAction) ctrlUrl content).content =
      some (toBytes content) := content_setSoapContent h rfl
  have hlength : stringLength (controlRequest userAgent (some soapAction) ctrlUrl content).content =
      byteLength content := by
    rw [hcontent]
    exact length_toBytes content
  rw [← hlength]
  rfl

/-- A control URL that a request can be posted to: its parts fit the first line and the headers of
the request. -/
structure IsPostUrl (userAgent : CString) (ctrlUrl : NetUri) (host uri : CString) : Prop where
  host_eq : ctrlUrl.host = some host
  uri_eq : ctrlUrl.getRequest = some uri
  uri_token : IsToken uri
  relative : ¬ "://".toList <:+: uri
  line : ("POST".toList ++ " ".toList ++ uri ++ " ".toList ++ "HTTP/1.1".toList ++
    "\r\n".toList).length < readlineBufSize
  hostHeader : IsHeader "HOST".toList (hostHeaderValue host ctrlUrl.port)
  userAgentHeader : IsHeader "User-Agent".toList userAgent

/-- A request of a control point as it is posted. -/
def controlPosting (userAgent soapAction : CString) (ctrlUrl : NetUri) (content host uri : CString) :
    Posting :=
  ⟨controlRequest userAgent (some soapAction) ctrlUrl content, host, ctrlUrl.port, "POST".toList,
    uri⟩

variable {host uri : CString}

/-- The request of a control point can be read as it was posted. -/
theorem isRequest_controlPosting (hcontent : IsContent content)
    (hurl : IsPostUrl userAgent ctrlUrl host uri)
    (hheader : IsHeader "SOAPACTION".toList soapAction) :
    IsRequest (controlPosting userAgent soapAction ctrlUrl content host uri).sent "POST".toList uri
      "HTTP/1.1".toList := by
  have hheaders := @headers_controlRequest userAgent soapAction content host ctrlUrl ctrlUrl.port
    hcontent
  have hbody : ((controlRequest userAgent (some soapAction) ctrlUrl content).addressed host
      ctrlUrl.port).content = some (toBytes content) := content_setSoapContent hcontent rfl
  have hmethod : IsToken "POST".toList := ⟨by decide, by decide⟩
  have hversion : IsToken "HTTP/1.1".toList := ⟨by decide, by decide⟩
  refine ⟨isPacket_of_content hcontent hbody ?_ ?_, rfl, ?_, rfl, hmethod, hurl.uri_token, hversion,
    hurl.relative, hurl.line⟩
  · rw [HttpPacket.getHeaderValue]
    exact (congrArg (headerListGetValue · _) hheaders).trans rfl
  · show ∀ header ∈ ((controlRequest userAgent (some soapAction) ctrlUrl content).addressed
      host ctrlUrl.port).headers, _
    rw [hheaders]
    exact forall_isHeader_cons isHeader_contentType (forall_isHeader_cons hheader
      (forall_isHeader_cons (isHeader_contentLength hcontent.size)
        (forall_isHeader_cons hurl.hostHeader
          (forall_isHeader_cons hurl.userAgentHeader forall_isHeader_nil))))
  · exact (stringSetValue_none_left _).trans hurl.uri_eq

/-- A posted request with a content, as a device reads it. -/
theorem toSoapRequest_of_sent (parser : Parser) {posting : Posting} (hcontent : IsContent content)
    (hpacket : IsPacket posting.sent.toHttpPacket)
    (hbody : posting.sent.content = some (toBytes content)) {httpReq : HttpRequest}
    (h : posting.Arrives httpReq) :
    toSoapRequest parser httpReq =
      ⟨posting.sent.toHttpPacket.getHeaderValue "SOAPACTION".toList,
        posting.sent.toHttpPacket.getHeaderValue "01-SOAPACTION".toList,
        receivedBody parser content⟩ := by
  have htext := soapText_of_sent hcontent hpacket hbody h.headers h.content
  rw [toSoapRequest, htext, Option.bind_some]
  simp only [HttpPacket.getHeaderValue, h.headers]

/-- A request with the header for an action, or a mandatory one, goes to the service that is found
for its target. -/
theorem dispatch_of_sent {dev : HttpDevice} {service : ServedService} {posting : Posting}
    (hservice : dev.getServiceByControlUrl (receivedUri (some posting.uri)) = some service)
    (hposted : posting.method = "POST".toList ∧
      posting.sent.toHttpPacket.hasHeader "SOAPACTION".toList = true ∨
        posting.method = "M-POST".toList) {httpReq : HttpRequest} (h : posting.Arrives httpReq) :
    dev.dispatch httpReq = .control service := by
  set lookedUp := { httpReq with uri := receivedUri httpReq.uri }
  have hmethod : ∀ method, isMethod lookedUp method =
      streq (some posting.method) (some method.toList) := by
    intro method
    rw [isMethod, h.method]
  have hheader : lookedUp.toHttpPacket.hasHeader "SOAPACTION".toList =
      posting.sent.toHttpPacket.hasHeader "SOAPACTION".toList := by
    rw [HttpPacket.hasHeader, HttpPacket.hasHeader, h.headers]
  have hmethods : isMethod lookedUp "GET" = false ∧ isMethod lookedUp "HEAD" = false ∧
      (isMethod lookedUp "POST" || isMethod lookedUp "M-POST") = true := by
    simp only [hmethod]
    rcases hposted with ⟨hpost, -⟩ | hpost
    · rw [hpost]
      decide
    · rw [hpost]
      decide
  obtain ⟨hget, hhead, hpost⟩ := hmethods
  have hsoap : isSoapAction lookedUp = true := by
    rcases hposted with ⟨-, hfield⟩ | hpost
    · rw [isSoapAction, hheader, hfield, Bool.true_or]
    · have hmandatory : isMethod lookedUp "M-POST" = true := by
        rw [hmethod, hpost]
        decide
      rw [isSoapAction, hmandatory, Bool.or_true]
  unfold HttpDevice.dispatch
  simp only [lookedUp, isPresentationRequest_eq_false hget, hget, hhead, hpost, Bool.false_and,
    Bool.or_false, Bool.false_eq_true, if_false, if_true]
  have huri : lookedUp.uri = receivedUri (some posting.uri) := congrArg receivedUri h.uri
  rw [postRequestReceived_eq_iff hsoap, huri]
  exact hservice

/-- A request of a control point is served by the service that is found for its target. -/
theorem requestReceived_of_sent (parser : Parser) (memory : CharBuffer) {dev : ControlDevice}
    {service : ServedService} (hcontent : IsContent content)
    (hurl : IsPostUrl userAgent ctrlUrl host uri)
    (hheader : IsHeader "SOAPACTION".toList soapAction)
    (hservice : dev.getServiceByControlUrl (receivedUri (some uri)) = some service)
    {httpReq : HttpRequest}
    (h : (controlPosting userAgent soapAction ctrlUrl content host uri).Arrives httpReq) :
    dev.requestReceived parser memory httpReq =
      let served := (dev.control service).controlReceived memory
        ⟨some soapAction, none, receivedBody parser content⟩
      ({ dev with control := Function.update dev.control service served.1 },
        served.2.map ControlAnswer.toHttpResponse) := by
  have hheaders : (controlPosting userAgent soapAction ctrlUrl content host uri).sent.headers = _ :=
    headers_controlRequest hcontent
  have hfield : (controlPosting userAgent soapAction ctrlUrl content host
      uri).sent.toHttpPacket.hasHeader "SOAPACTION".toList = true := by
    rw [HttpPacket.hasHeader, hheaders]
    rfl
  have hsoap : toSoapRequest parser httpReq =
      ⟨some soapAction, none, receivedBody parser content⟩ := by
    rw [toSoapRequest_of_sent parser hcontent (isRequest_controlPosting hcontent hurl
      hheader).packet (content_setSoapContent hcontent rfl) h, HttpPacket.getHeaderValue,
      HttpPacket.getHeaderValue, hheaders]
    rfl
  rw [ControlDevice.requestReceived, dispatch_of_sent hservice (Or.inl ⟨rfl, hfield⟩) h]
  simp only [hsoap]

/-- A request of a control point is answered by the service that is found for its target. -/
theorem requestReceived_of_arrives (parser : Parser) (memory : CharBuffer) {dev : ControlDevice}
    {service : ServedService} (hcontent : IsContent content)
    (hurl : IsPostUrl userAgent ctrlUrl host uri)
    (hheader : IsHeader "SOAPACTION".toList soapAction)
    (hservice : dev.getServiceByControlUrl (receivedUri (some uri)) = some service)
    {httpReq : HttpRequest}
    (h : (controlPosting userAgent soapAction ctrlUrl content host uri).Arrives httpReq) :
    (dev.requestReceived parser memory httpReq).2 =
      ((dev.control service).controlReceived memory
        ⟨some soapAction, none, receivedBody parser content⟩).2.map
          ControlAnswer.toHttpResponse :=
  congrArg Prod.snd (requestReceived_of_sent parser memory hcontent hurl hheader hservice h)

end Request

/-! ### Responses -/

section Response

variable {answer : ControlAnswer} {httpDate : CString}

/-- The response with an answer can be read as it was posted. -/
theorem isConforming_toHttpResponse (hcontent : IsContent answer.content)
    (hcode : answer.statusCode = 200 ∨ answer.statusCode = 500)
    (hdate : IsHeader "Date".toList httpDate) : answer.toHttpResponse.IsConforming httpDate := by
  have hbody : (answer.toHttpResponse.dated httpDate).content = some (toBytes answer.content) :=
    content_setSoapContent hcontent rfl
  have hlength : stringLength answer.toHttpResponse.content = byteLength answer.content := by
    have hsame : answer.toHttpResponse.content = some (toBytes answer.content) := hbody
    rw [hsame]
    exact length_toBytes answer.content
  have hheaders : (answer.toHttpResponse.dated httpDate).headers =
      [⟨some "Content-Type".toList, some soapContentType⟩,
        ⟨some "Content-Length".toList, some (long2str (byteLength answer.content))⟩,
        ⟨some "Date".toList, some httpDate⟩] := by
    rw [← hlength]
    rfl
  have hpacket : IsPacket (answer.toHttpResponse.dated httpDate).toHttpPacket := by
    refine isPacket_of_content hcontent hbody ?_ ?_
    · rw [HttpPacket.getHeaderValue, hheaders]
      rfl
    · rw [hheaders]
      exact forall_isHeader_cons isHeader_contentType
        (forall_isHeader_cons (isHeader_contentLength hcontent.size)
          (forall_isHeader_cons hdate forall_isHeader_nil))
  have hstatus : ∀ code : ℤ, code = 200 ∨ code = 500 → (-2 ^ 31 ≤ code ∧ code < 2 ^ 31) ∧
      (statusCode2ReasonPhrase code).toList ≠ [] ∧
      IsTrimmed " ".toList (statusCode2ReasonPhrase code).toList ∧
      ("HTTP/1.1".toList ++ " ".toList ++ long2str code ++ " ".toList ++
        (statusCode2ReasonPhrase code).toList ++ "\r\n".toList).length < readlineBufSize := by
    rintro code (rfl | rfl)
    · exact ⟨by decide, by decide, ⟨by decide, by decide, by decide⟩, by decide +kernel⟩
    · exact ⟨by decide, by decide, ⟨by decide, by decide, by decide⟩, by decide +kernel⟩
  obtain ⟨hint, hne, htrimmed, hline⟩ := hstatus answer.statusCode hcode
  exact ⟨_, _, hpacket, rfl, rfl, ⟨by decide, by decide⟩, hint, hne, htrimmed, hline⟩

/-- What a control point has of an answer that it has read. -/
theorem content_of_arrives (hcontent : IsContent answer.content) {read : HttpResponse}
    (h : answer.toHttpResponse.Arrives read httpDate) :
    read.statusCode = answer.statusCode ∧ read.content.bind ofBytes = some answer.content := by
  have hbody : answer.toHttpResponse.content = some (toBytes answer.content) :=
    content_setSoapContent hcontent rfl
  have hread : read.content.getD [] = toBytes answer.content := by
    rw [h.content, hbody, Option.getD_some]
  refine ⟨h.statusCode, ?_⟩
  cases hsome : read.content with
  | none =>
    rw [hsome, Option.getD_none] at hread
    exact absurd hread.symm hcontent.toBytes_ne_nil
  | some bytes =>
    rw [hsome, Option.getD_some] at hread
    rw [hread, Option.bind_some, ofBytes_toBytes]

end Response

/-! ### Connections to a device -/

/-- A connection to a device. The array for the name of a response may hold anything. -/
def ControlDevice.IsServed (parser : Parser) (dev : ControlDevice) (peer : List Char → Socket) :
    Prop :=
  ∃ memory : CharBuffer, memory.length = nodeNameSize ∧
    IsServedBy (fun httpReq ↦ (dev.requestReceived parser memory httpReq).2) peer

/-- What comes back for a request that is posted over a connection to a device. -/
theorem ControlDevice.IsServed.exists_written {parser : Parser} {dev : ControlDevice}
    {peer : List Char → Socket} (h : dev.IsServed parser peer) {posting : Posting}
    (hconforming : posting.IsConforming) :
    ∃ (memory : CharBuffer) (received : HttpRequest) (httpDate : CString) (more : List Char),
      memory.length = nodeNameSize ∧ IsHeader "Date".toList httpDate ∧ posting.Arrives received ∧
      ∀ httpRes, (dev.requestReceived parser memory received).2 = some httpRes →
        (peer posting.message).content = (httpRes.post httpDate).getD [] ++ more := by
  obtain ⟨memory, hmemory, hserved⟩ := h
  obtain ⟨received, httpDate, more, hdate, harrives, hwritten⟩ := hserved.exists_written hconforming
  exact ⟨memory, received, httpDate, more, hmemory, hdate, harrives, hwritten⟩

end Mupnp.Control
