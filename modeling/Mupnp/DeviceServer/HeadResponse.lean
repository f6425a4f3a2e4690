import Mupnp.DeviceServer.RequestDispatch

/-!
# Requests for the header alone

A GET request and a HEAD request for one target reach the same document, and one function builds
the response to both. For a HEAD request it then means to clear the content, but a text that is
set to `NULL` stays as it is, so that the two responses are the same (`documentResponse_eq`) and
the document follows the header of both. The answer to a HEAD request mirrors the one to the GET
request exactly when there is no document to follow: when what was asked for has no XML tree
(`headMirrorsGet_iff`).
-/

set_option autoImplicit false
set_option relaxedAutoImplicit false

namespace Mupnp.DeviceServer

open Foundation Http Net Service Util Xml

/-- What is written of a response in front of its content: the status line, the headers and the
empty line. -/
def headPart (httpRes : HttpResponse) (httpDate : CString) : Option (List Char) :=
  HttpResponse.post { httpRes with content := none } httpDate

/-- The XML tree of the document that a request is about. -/
def Dispatch.documentNode : Dispatch → Option (Option XmlNode)
  | .description object => some object.rootNode
  | .scpd service => some service.scpdNode
  | _ => none

/-- A HEAD request mirrors a GET request: what answers the first is, at every date, what answers the
second without the content. -/
def HeadMirrorsGet (dev : HttpDevice) (nmprMode : Bool) (ifAddr : CString)
    (getReq headReq : HttpRequest) : Prop :=
  ∀ getRes, dev.answer nmprMode ifAddr getReq = some getRes →
    ∃ headRes, dev.answer nmprMode ifAddr headReq = some headRes ∧
      ∀ httpDate, headRes.post httpDate = headPart getRes httpDate

/-! ### Where the two requests go -/

section Dispatch

variable {dev : HttpDevice} {httpReq : HttpRequest}

theorem dispatch_of_isMethod_get (hget : httpReq.method = some "GET".toList)
    (hanswered : dev.dispatch httpReq ≠ .presentation) :
    dev.dispatch httpReq = dev.getRequestReceived (receivedUri httpReq.uri) := by
  have hmethod : isMethod { httpReq with uri := receivedUri httpReq.uri } "GET" = true := by
    rw [isMethod, hget]
    rfl
  unfold HttpDevice.dispatch at hanswered ⊢
  simp only [hmethod, Bool.true_or, if_true] at hanswered ⊢
  split_ifs at hanswered ⊢ with hpresentation
  · exact absurd rfl hanswered
  · rfl

theorem dispatch_of_isMethod_head (hhead : httpReq.method = some "HEAD".toList) :
    dev.dispatch httpReq = dev.getRequestReceived (receivedUri httpReq.uri) := by
  have hget : isMethod { httpReq with uri := receivedUri httpReq.uri } "GET" = false := by
    rw [isMethod, hhead]
    rfl
  have hmethod : isMethod { httpReq with uri := receivedUri httpReq.uri } "HEAD" = true := by
    rw [isMethod, hhead]
    rfl
  unfold HttpDevice.dispatch
  simp only [HttpDevice.isPresentationRequest, hget, hmethod, Bool.false_and, Bool.false_or,
    Bool.false_eq_true, if_false, if_true]

theorem documentText_eq_none_iff {node : Option XmlNode} :
    documentText node = none ↔ node = none := Option.map_eq_none_iff

/-- A document that has a text has the declaration at least. -/
theorem documentText_ne_nil {node : Option XmlNode} : documentText node ≠ some [] := by
  intro hnil
  obtain ⟨tree, -, htext⟩ := Option.map_eq_some_iff.mp hnil
  have hdeclaration := (List.append_eq_nil_iff.mp htext).1
  exact absurd (List.append_eq_nil_iff.mp hdeclaration).2 (by decide)

theorem getDescription_eq_none_iff {nmprMode : Bool} {ifAddr : CString} {object : ServedObject} :
    dev.getDescription nmprMode ifAddr object = none ↔ object.rootNode = none := by
  rw [HttpDevice.getDescription, documentText_eq_none_iff, Option.map_eq_none_iff]

theorem document_eq_none_iff {nmprMode : Bool} {ifAddr : CString} {received : Dispatch} :
    dev.document nmprMode ifAddr received = some none ↔ received.documentNode = some none := by
  cases received <;>
    simp [HttpDevice.document, Dispatch.documentNode, getDescription_eq_none_iff,
      documentText_eq_none_iff]

theorem document_ne_nil {nmprMode : Bool} {ifAddr : CString} {received : Dispatch} :
    dev.document nmprMode ifAddr received ≠ some (some []) := by
  cases received with
  | description object => exact fun hnil ↦ documentText_ne_nil (Option.some.inj hnil)
  | scpd service => exact fun hnil ↦ documentText_ne_nil (Option.some.inj hnil)
  | _ => simp [HttpDevice.document]

end Dispatch

/-! ### What the responses say -/

section Response

variable {httpRes : HttpResponse} {httpDate : CString}

/-- Of a response with a version and a reason phrase no more than its head is written exactly when
nothing is sent of its content. -/
theorem post_eq_headPart_iff {body : List Char} (hversion : httpRes.version.isSome = true)
    (hphrase : httpRes.reasonPhrase.isSome = true)
    (hbody : (httpRes.dated httpDate).toHttpPacket.sentContent = some body) :
    httpRes.post httpDate = headPart httpRes httpDate ↔ body = [] := by
  obtain ⟨version, hversion⟩ := Option.isSome_iff_exists.mp hversion
  obtain ⟨reasonPhrase, hphrase⟩ := Option.isSome_iff_exists.mp hphrase
  have hbare : (HttpResponse.dated { httpRes with content := none } httpDate).sentContent =
      some [] := rfl
  unfold headPart HttpResponse.post HttpResponse.message
  simp only [HttpPacket.post, hbody, hbare, Option.map_some]
  simp only [HttpResponse.dated, HttpPacket.setHeaderValue, hversion, hphrase, Option.some.injEq]
  rw [List.append_right_inj, List.append_right_inj]

variable {descStr : Option CString}

/-- A HEAD request is answered with the response to the GET request. -/
theorem documentResponse_eq (isHead : Bool) (descStr : Option CString) :
    documentResponse isHead descStr = documentResponse false descStr := by
  cases isHead <;> rfl

theorem getContentLength_documentResponse :
    ((documentResponse false descStr).dated httpDate).toHttpPacket.getContentLength =
      atol (long2str (stringLength descStr)) := by
  have hne : strcaseeq "Date".toList "Content-Length".toList = false := by decide
  have hvalue : ((documentResponse false descStr).dated httpDate).toHttpPacket.getHeaderValue
      "Content-Length".toList = some (long2str (stringLength descStr)) := by
    refine (headerListGetValue_set_of_ne _ hne _).trans ?_
    exact headerListGetValue_set_self _ _ _
  rw [HttpPacket.getContentLength, hvalue]
  rfl

/-- The content of a document that has a text is sent, from its first character on. -/
theorem exists_sentContent {text : CString} (htext : text ≠ []) :
    ∃ body, ((documentResponse false (some text)).dated httpDate).toHttpPacket.sentContent =
      some body ∧ body ≠ [] := by
  have hlength : 0 < text.length := List.length_pos_iff.mpr htext
  have hsent : (BitVec.ofInt 64 (atol (long2str text.length))).toNat =
      (min longMax (text.length : ℤ)).toNat := by
    rw [atol_long2str_natCast, BitVec.toNat_ofInt]
    have hpos : 0 < longMax := by decide
    have hmax : longMax < 2 ^ 64 := by decide
    rw [Int.emod_eq_of_lt (by omega) (by omega)]
  have hle : (min longMax (text.length : ℤ)).toNat ≤ text.length := by omega
  have hpos : 0 < (min longMax (text.length : ℤ)).toNat := by
    have hmax : 0 < longMax := by decide
    omega
  refine ⟨text.take (min longMax (text.length : ℤ)).toNat, ?_, ?_⟩
  · have hcontent : ((documentResponse false (some text)).dated httpDate).content = some text := rfl
    rw [HttpPacket.sentContent, hcontent]
    simp only [getContentLength_documentResponse]
    rw [show stringLength (some text) = text.length from rfl, hsent, if_pos hle]
  · intro hnil
    have hzero := congrArg List.length hnil
    rw [List.length_take, min_eq_left hle, List.length_nil] at hzero
    omega

/-- The response to a GET request says no more than its head exactly when there is no document. -/
theorem post_documentResponse_iff (hdescStr : descStr ≠ some []) :
    (∀ httpDate, (documentResponse false descStr).post httpDate =
      headPart (documentResponse false descStr) httpDate) ↔ descStr = none := by
  cases descStr with
  | none => exact ⟨fun _ ↦ rfl, fun _ _ ↦ rfl⟩
  | some text =>
    have htext : text ≠ [] := fun hnil ↦ hdescStr (congrArg some hnil)
    obtain ⟨body, hbody, hne⟩ := @exists_sentContent [] text htext
    have hiff := @post_eq_headPart_iff (documentResponse false (some text)) [] body rfl rfl hbody
    refine ⟨fun hpost ↦ absurd (hiff.mp (hpost [])) hne, ?_⟩
    rintro ⟨⟩

end Response

/-! ### When the answer mirrors -/

section Mirror

variable {dev : HttpDevice} {nmprMode : Bool} {ifAddr : CString} {getReq headReq : HttpRequest}

/-- The requests for a document and for its header alone go to the same place. -/
theorem dispatch_head_eq (hget : getReq.method = some "GET".toList)
    (hhead : headReq.method = some "HEAD".toList) (huri : headReq.uri = getReq.uri)
    (hanswered : (dev.answer nmprMode ifAddr getReq).isSome = true) :
    dev.dispatch headReq = dev.dispatch getReq := by
  have hpresentation : dev.dispatch getReq ≠ .presentation := by
    intro hpresentation
    rw [HttpDevice.answer, hpresentation] at hanswered
    simp [HttpDevice.document] at hanswered
  rw [dispatch_of_isMethod_head hhead, dispatch_of_isMethod_get hget hpresentation, huri]

/-- For a target whose GET request is answered with a document, the HEAD request is answered in the
same way without the document exactly when the document has no XML tree. -/
theorem headMirrorsGet_iff (hget : getReq.method = some "GET".toList)
    (hhead : headReq.method = some "HEAD".toList) (huri : headReq.uri = getReq.uri)
    (hanswered : (dev.answer nmprMode ifAddr getReq).isSome = true) :
    HeadMirrorsGet dev nmprMode ifAddr getReq headReq ↔
      (dev.dispatch getReq).documentNode = some none := by
  have hdispatch := dispatch_head_eq hget hhead huri hanswered
  obtain ⟨descStr, hdocument⟩ : ∃ descStr,
      dev.document nmprMode ifAddr (dev.dispatch getReq) = some descStr := by
    rw [HttpDevice.answer, Option.isSome_map] at hanswered
    exact Option.isSome_iff_exists.mp hanswered
  have hgetRes : dev.answer nmprMode ifAddr getReq = some (documentResponse false descStr) := by
    rw [HttpDevice.answer, hdocument, Option.map_some, documentResponse_eq]
  have hheadRes : dev.answer nmprMode ifAddr headReq = some (documentResponse false descStr) := by
    rw [HttpDevice.answer, hdispatch, hdocument, Option.map_some, documentResponse_eq]
  have hne : descStr ≠ some [] := fun hnil ↦ document_ne_nil (hnil ▸ hdocument)
  calc HeadMirrorsGet dev nmprMode ifAddr getReq headReq
      ↔ ∀ httpDate, (documentResponse false descStr).post httpDate =
          headPart (documentResponse false descStr) httpDate := by
        simp [HeadMirrorsGet, hgetRes, hheadRes]
    _ ↔ descStr = none := post_documentResponse_iff hne
    _ ↔ (dev.dispatch getReq).documentNode = some none := by
        rw [← @document_eq_none_iff dev nmprMode ifAddr,
          hdocument, Option.some.injEq]

end Mirror

/-- A root device whose description has one empty element. -/
def bareDevice : HttpDevice where
  tree := .node
    { descriptionUri := some "/description.xml".toList
      rootNode := some (XmlNode.new.setName (some "root".toList))
      services := [] } []
  httpPort := 4004
  location := none
  presentationUrl := none
  hasPresentationListener := false

/-- A request with a method for the description of a device. -/
def descriptionRequest (method : String) : HttpRequest :=
  { HttpRequest.new [] with
    method := some method.toList
    uri := some "/description.xml".toList }

theorem headMirrorsGet_iff_bare :
    HeadMirrorsGet bareDevice true [] (descriptionRequest "GET") (descriptionRequest "HEAD") ↔
      (bareDevice.dispatch (descriptionRequest "GET")).documentNode = some none :=
  headMirrorsGet_iff rfl rfl rfl (by decide +kernel)

/-- The document follows the header also when the header alone was asked for. -/
theorem not_headMirrorsGet :
    ¬ ∀ (dev : HttpDevice) (nmprMode : Bool) (ifAddr : CString) (getReq headReq : HttpRequest),
      getReq.method = some "GET".toList → headReq.method = some "HEAD".toList →
      headReq.uri = getReq.uri → (dev.answer nmprMode ifAddr getReq).isSome = true →
      HeadMirrorsGet dev nmprMode ifAddr getReq headReq := by
  intro hmirrors
  have hmirror := hmirrors bareDevice true [] (descriptionRequest "GET") (descriptionRequest "HEAD")
    rfl rfl rfl (by decide +kernel)
  let response := documentResponse false (some "<?xml version=\"1.0\"?>\n<root></root>\n".toList)
  obtain ⟨headRes, hanswer, hpost⟩ := hmirror response (by decide +kernel)
  have hheadRes : bareDevice.answer true [] (descriptionRequest "HEAD") = some response := by
    decide +kernel
  obtain rfl : headRes = response := Option.some.inj (hanswer.symm.trans hheadRes)
  exact absurd (hpost []) (by decide +kernel)

end Mupnp.DeviceServer
