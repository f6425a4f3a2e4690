import Mupnp.Control.ControlMessage

/-!
# Posting SOAP requests

`mupnp_soap_request_post` of `soap/soap_request.c`: a request that is refused with the status 405 is
posted once more as a mandatory one, with the method `M-POST` and the header for the action in a
namespace. A device answers both forms in the same way (`requestReceived_of_mandatory`), so that what
comes of a request does not depend on whether the first attempt was refused (`soapPost_eq`).
-/

set_option autoImplicit false
set_option relaxedAutoImplicit false

namespace Mupnp.Control

open DeviceServer Foundation Foundation.XmlText Http Net Util Xml Soap

/-- `MUPNP_HTTP_SOAP_MAN_VALUE`. -/
def soapManValue : CString := "\"http://schemas.xmlsoap.org/soap/envelope/\"; ns=01".toList

/-- The headers after the first one of a name got another name. -/
def renameHeader (headers : HttpHeaderList) (name newName : CString) : HttpHeaderList :=
  headers.modify (headers.findIdx (·.hasName name)) fun header ↦ { header with name := some newName }

/-- The request of the second attempt. -/
def mandatoryRequest (httpReq : HttpRequest) : HttpRequest :=
  { httpReq with
    headers := renameHeader (httpReq.headers ++ [⟨some "MAN".toList, some soapManValue⟩])
      "SOAPACTION".toList "01-SOAPACTION".toList
    method := some "M-POST".toList }

/-- What a control point has of the response to a SOAP request: the status code, and the XML tree of
the content. -/
structure SoapResponse where
  statusCode : ℤ
  rootNode : Option XmlNode

/-- `mupnp_soap_request_post`, where `peers` are the connections of the two attempts. -/
def soapPost (parser : Parser) (httpReq : HttpRequest) (ipaddr : CString) (port : ℤ)
    (peers : ℕ → Option (List Char → Socket)) : SoapResponse :=
  let first := (postMainStatus httpReq HttpResponse.new ipaddr port (peers 0)).1
  let httpRes :=
    if first.statusCode = 405 then
      (postMainStatus (mandatoryRequest (httpReq.addressed ipaddr port)) first ipaddr port
        (peers 1)).1
    else first
  ⟨httpRes.statusCode, (soapText httpRes.toHttpPacket).bind (xmlParse parser)⟩

/-- `mupnp_http_response_issuccessful`. -/
def SoapResponse.isSuccessful (response : SoapResponse) : Bool :=
  decide (200 ≤ response.statusCode ∧ response.statusCode < 300)

/-! ### Mandatory requests -/

section Mandatory

variable {userAgent soapAction content host uri : CString} {ctrlUrl : NetUri}

/-- The second attempt with a request of a control point. -/
def mandatoryPosting (userAgent soapAction : CString) (ctrlUrl : NetUri)
    (content host uri : CString) : Posting :=
  ⟨mandatoryRequest (controlPosting userAgent soapAction ctrlUrl content host uri).sent, host,
    ctrlUrl.port, "M-POST".toList, uri⟩

theorem headers_mandatoryPosting (h : IsContent content) :
    (mandatoryPosting userAgent soapAction ctrlUrl content host uri).sent.headers =
      [⟨some "Content-Type".toList, some soapContentType⟩,
        ⟨some "01-SOAPACTION".toList, some soapAction⟩,
        ⟨some "Content-Length".toList, some (long2str (byteLength content))⟩,
        ⟨some "HOST".toList, some (hostHeaderValue host ctrlUrl.port)⟩,
        ⟨some "User-Agent".toList, some userAgent⟩,
        ⟨some "MAN".toList, some soapManValue⟩] := by
  have hfirst : (controlPosting userAgent soapAction ctrlUrl content host uri).sent.headers =
      _ := headers_controlRequest h
  have hheaders : (mandatoryPosting userAgent soapAction ctrlUrl content host uri).sent.headers =
      headerListSet (headerListSet (renameHeader ((controlPosting userAgent soapAction ctrlUrl
        content host uri).sent.headers ++ [⟨some "MAN".toList, some soapManValue⟩])
          "SOAPACTION".toList "01-SOAPACTION".toList) "HOST".toList
            (some (hostHeaderValue host ctrlUrl.port))) "User-Agent".toList (some userAgent) := rfl
  rw [hheaders, hfirst]
  rfl

/-- A control URL that a request can be posted to in both attempts. -/
structure IsRetryUrl (userAgent : CString) (ctrlUrl : NetUri) (host uri : CString) : Prop extends
    IsPostUrl userAgent ctrlUrl host uri where
  retryLine : ("M-POST".toList ++ " ".toList ++ uri ++ " ".toList ++ "HTTP/1.1".toList ++
    "\r\n".toList).length < readlineBufSize

theorem content_mandatoryPosting (h : IsContent content) :
    (mandatoryPosting userAgent soapAction ctrlUrl content host uri).sent.content =
      some (toBytes content) := content_setSoapContent h rfl

theorem isPacket_mandatoryPosting (hcontent : IsContent content)
    (hurl : IsRetryUrl userAgent ctrlUrl host uri)
    (hheader : IsHeader "01-SOAPACTION".toList soapAction) :
    IsPacket (mandatoryPosting userAgent soapAction ctrlUrl content host uri).sent.toHttpPacket := by
  have hheaders := @headers_mandatoryPosting userAgent soapAction content host uri ctrlUrl hcontent
  refine isPacket_of_content hcontent (content_mandatoryPosting hcontent) ?_ ?_
  · rw [HttpPacket.getHeaderValue, hheaders]
    rfl
  · rw [hheaders]
    refine forall_isHeader_cons isHeader_contentType (forall_isHeader_cons hheader
      (forall_isHeader_cons (isHeader_contentLength hcontent.size)
        (forall_isHeader_cons hurl.hostHeader (forall_isHeader_cons hurl.userAgentHeader
          (forall_isHeader_cons ?_ forall_isHeader_nil)))))
    exact ⟨⟨by decide, by decide⟩, by decide, ⟨by decide, by decide, by decide⟩, by decide⟩

/-- A mandatory request can be read as it was posted. -/
theorem isConforming_mandatoryPosting (hcontent : IsContent content)
    (hurl : IsRetryUrl userAgent ctrlUrl host uri)
    (hheader : IsHeader "01-SOAPACTION".toList soapAction) :
    (mandatoryPosting userAgent soapAction ctrlUrl content host uri).IsConforming := by
  have hmethod : IsToken "M-POST".toList := ⟨by decide, by decide⟩
  have hversion : IsToken "HTTP/1.1".toList := ⟨by decide, by decide⟩
  exact Or.inl ⟨isPacket_mandatoryPosting hcontent hurl hheader, rfl,
    (stringSetValue_none_left _).trans hurl.uri_eq, rfl, hmethod, hurl.uri_token, hversion,
    hurl.relative, hurl.retryLine⟩

/-- A header that fits under its name in the namespace fits without it. -/
theorem isHeader_soapAction (h : IsHeader "01-SOAPACTION".toList soapAction) :
    IsHeader "SOAPACTION".toList soapAction := by
  have hlong : "01-SOAPACTION".toList.length = 13 := rfl
  have hshort : "SOAPACTION".toList.length = 10 := rfl
  have hline := h.line
  refine ⟨⟨by decide, by decide⟩, by decide, h.value_trimmed, ?_⟩
  rw [HttpPacket.headerLine_some] at hline ⊢
  simp only [List.length_append, hlong, hshort] at hline ⊢
  omega

/-- Both forms of the header for an action are looked at in the same way. -/
theorem controlReceived_mandatory (memory : CharBuffer) (ctrl : ControlService)
    (soapAction : CString) (bodyNode : Option XmlNode) :
    ctrl.controlReceived memory ⟨none, some soapAction, bodyNode⟩ =
      ctrl.controlReceived memory ⟨some soapAction, none, bodyNode⟩ := by
  have hquery : SoapRequest.isQueryRequest ⟨none, some soapAction, bodyNode⟩ =
      SoapRequest.isQueryRequest ⟨some soapAction, none, bodyNode⟩ := by
    rw [SoapRequest.isQueryRequest, SoapRequest.isQueryRequest, Bool.or_comm]
  rw [ControlService.controlReceived, ControlService.controlReceived, hquery]

/-- A mandatory request is answered in the same way as the request of the first attempt. -/
theorem requestReceived_of_mandatory (parser : Parser) (memory : CharBuffer) {dev : ControlDevice}
    {service : ServedService} (hcontent : IsContent content)
    (hurl : IsRetryUrl userAgent ctrlUrl host uri)
    (hheader : IsHeader "01-SOAPACTION".toList soapAction)
    (hservice : dev.getServiceByControlUrl (receivedUri (some uri)) = some service)
    {httpReq : HttpRequest}
    (h : (mandatoryPosting userAgent soapAction ctrlUrl content host uri).Arrives httpReq) :
    (dev.requestReceived parser memory httpReq).2 =
      ((dev.control service).controlReceived memory
        ⟨some soapAction, none, receivedBody parser content⟩).2.map
          ControlAnswer.toHttpResponse := by
  have hheaders := @headers_mandatoryPosting userAgent soapAction content host uri ctrlUrl hcontent
  have hsoap : toSoapRequest parser httpReq =
      ⟨none, some soapAction, receivedBody parser content⟩ := by
    rw [toSoapRequest_of_sent parser hcontent (isPacket_mandatoryPosting hcontent hurl hheader)
      (content_mandatoryPosting hcontent) h, HttpPacket.getHeaderValue, HttpPacket.getHeaderValue,
      hheaders]
    rfl
  rw [ControlDevice.requestReceived, dispatch_of_sent hservice (Or.inr rfl) h]
  simp only [hsoap, controlReceived_mandatory]

end Mandatory

/-! ### Attempts -/

/-- A connection over which every message is refused with the status 405. -/
def Refuses (peer : List Char → Socket) : Prop :=
  ∀ message, ∃ (httpRes : HttpResponse) (httpDate : CString) (more : List Char),
    httpRes.IsConforming httpDate ∧ httpRes.statusCode = 405 ∧
      (peer message).content = (httpRes.post httpDate).getD [] ++ more

/-- The connections of the two attempts reach a device: the first one does, or it is refused and the
second one does. -/
def Reaches (parser : Parser) (dev : ControlDevice) (peers : ℕ → Option (List Char → Socket)) :
    Prop :=
  (∃ peer, peers 0 = some peer ∧ dev.IsServed parser peer) ∨
    ∃ refusing peer, peers 0 = some refusing ∧ Refuses refusing ∧ peers 1 = some peer ∧
      dev.IsServed parser peer

section Attempts

variable {parser : Parser} {dev : ControlDevice} {service : ServedService}
  {userAgent soapAction content host uri : CString} {ctrlUrl : NetUri}

/-- The SOAP response that is made of an answer which was read. -/
theorem soapText_of_arrives {answer : ControlAnswer} {httpDate : CString}
    (hcontent : IsContent answer.content)
    (hcode : answer.statusCode = 200 ∨ answer.statusCode = 500)
    (hdate : IsHeader "Date".toList httpDate) {read : HttpResponse}
    (h : answer.toHttpResponse.Arrives read httpDate) :
    soapText read.toHttpPacket = some answer.content := by
  obtain ⟨version, reasonPhrase, hresponse⟩ := isConforming_toHttpResponse hcontent hcode hdate
  have hbody : (answer.toHttpResponse.dated httpDate).content = some (toBytes answer.content) :=
    content_setSoapContent hcontent rfl
  exact soapText_of_sent hcontent hresponse.packet hbody h.headers h.content

/-- **A refused request is answered nevertheless.** What comes of a SOAP request is the answer of
the service, whether the device is reached with the first attempt or with the second one. -/
theorem soapPost_eq (hcontent : IsContent content) (hurl : IsRetryUrl userAgent ctrlUrl host uri)
    (hheader : IsHeader "01-SOAPACTION".toList soapAction)
    (hservice : dev.getServiceByControlUrl (receivedUri (some uri)) = some service)
    (hanswer : ∀ memory : CharBuffer, memory.length = nodeNameSize → ∃ answer,
      ((dev.control service).controlReceived memory
        ⟨some soapAction, none, receivedBody parser content⟩).2 = some answer ∧
      (answer.statusCode = 200 ∨ answer.statusCode = 500) ∧ IsContent answer.content)
    {peers : ℕ → Option (List Char → Socket)} (hreaches : Reaches parser dev peers) :
    ∃ (memory : CharBuffer) (answer : ControlAnswer), memory.length = nodeNameSize ∧
      ((dev.control service).controlReceived memory
        ⟨some soapAction, none, receivedBody parser content⟩).2 = some answer ∧
      soapPost parser (controlRequest userAgent (some soapAction) ctrlUrl content) host ctrlUrl.port
        peers = ⟨answer.statusCode, xmlParse parser answer.content⟩ := by
  have hpost : "POST".toList ≠ "HEAD".toList := by decide
  have hmandatory : "M-POST".toList ≠ "HEAD".toList := by decide
  have hposting : (controlPosting userAgent soapAction ctrlUrl content host uri).IsConforming :=
    Or.inl (isRequest_controlPosting hcontent hurl.toIsPostUrl (isHeader_soapAction hheader))
  rcases hreaches with ⟨peer, hfirst, hserved⟩ | ⟨refusing, peer, hfirst, hrefuses, hsecond, hserved⟩
  · obtain ⟨memory, received, httpDate, more, hmemory, hdate, harrives, hwritten⟩ :=
      hserved.exists_written hposting
    obtain ⟨answer, hreceived, hcode, hanswered⟩ := hanswer memory hmemory
    have hdevice := requestReceived_of_arrives parser memory hcontent hurl.toIsPostUrl
      (isHeader_soapAction hheader) hservice harrives
    rw [hreceived, Option.map_some] at hdevice
    obtain ⟨read, hread, hres⟩ := exists_postMainStatus_eq hposting hpost
      (isConforming_toHttpResponse hanswered hcode hdate) (hwritten _ hdevice) HttpResponse.new
    have hexchanged : postMainStatus (controlRequest userAgent (some soapAction) ctrlUrl content)
        HttpResponse.new host ctrlUrl.port (peers 0) = (read, true) := by
      rw [hfirst]
      exact hread
    have hstatus : read.statusCode = answer.statusCode := hres.statusCode
    have hnot : ¬ answer.statusCode = 405 := by omega
    refine ⟨memory, answer, hmemory, hreceived, ?_⟩
    simp only [soapPost, hexchanged, hstatus, if_neg hnot,
      soapText_of_arrives hanswered hcode hdate hres, Option.bind_some]
  · obtain ⟨refused, refusedDate, behind, hrefused, hstatus, hback⟩ := hrefuses
      (controlPosting userAgent soapAction ctrlUrl content host uri).message
    obtain ⟨first, hread, hres⟩ :=
      exists_postMainStatus_eq hposting hpost hrefused hback HttpResponse.new
    have hrefusal : postMainStatus (controlRequest userAgent (some soapAction) ctrlUrl content)
        HttpResponse.new host ctrlUrl.port (peers 0) = (first, true) := by
      rw [hfirst]
      exact hread
    have hcoded : first.statusCode = 405 := hres.statusCode.trans hstatus
    have hretry := isConforming_mandatoryPosting hcontent hurl hheader
    obtain ⟨memory, received, httpDate, more, hmemory, hdate, harrives, hwritten⟩ :=
      hserved.exists_written hretry
    obtain ⟨answer, hreceived, hcode, hanswered⟩ := hanswer memory hmemory
    have hdevice := requestReceived_of_mandatory parser memory hcontent hurl hheader hservice harrives
    rw [hreceived, Option.map_some] at hdevice
    obtain ⟨read, hsecondRead, hsecondRes⟩ := exists_postMainStatus_eq hretry hmandatory
      (isConforming_toHttpResponse hanswered hcode hdate) (hwritten _ hdevice) first
    have hexchanged : postMainStatus (mandatoryRequest ((controlRequest userAgent (some soapAction)
        ctrlUrl content).addressed host ctrlUrl.port)) first host ctrlUrl.port (peers 1) =
          (read, true) := by
      rw [hsecond]
      exact hsecondRead
    have hanswerCode : read.statusCode = answer.statusCode := hsecondRes.statusCode
    refine ⟨memory, answer, hmemory, hreceived, ?_⟩
    simp only [soapPost, hrefusal, hcoded, if_true, hexchanged, hanswerCode,
      soapText_of_arrives hanswered hcode hdate hsecondRes, Option.bind_some]

end Attempts

end Mupnp.Control
