import Mathlib.Data.List.Nodup
import Mathlib.Data.List.Pairwise
import Mupnp.DeviceServer.RequestDispatch
import Mupnp.Foundation.FirstMatch
import Mupnp.Service.UrlResolution

/-!
# Where the requests for a service go

A control point computes the request target for a service from its URL, and a device looks for the
service whose URL belongs to the target of a request. The two do not always agree: a control
request goes to the first service whose address contains the target (`isControlUrl_iff`), an event
subscription and a description request to the first one whose path is the target, whatever its
query (`isEventSubUrl_iff`, `isScpdUrl_iff`), and an address with a percent sign may be decoded
before. `dispatch_iff_target` says for which targets they do agree, and `dispatch_plain` that they
do so for addresses without a query that are no parts of one another.
-/

set_option autoImplicit false
set_option relaxedAutoImplicit false

namespace Mupnp.DeviceServer

open Foundation Http Net Service Util

/-! ### What the lookups compare -/

section Lookup

variable {dev : HttpDevice} {service : ServedService} {target : CString}

omit target in
theorem strstr_ne_iff {needle str : CString} :
    strstr (some str) (some needle) ≠ -1 ↔ needle <:+: str := by
  rw [← strstr_nonneg_iff, strstr]
  cases indexOf needle str with
  | none => exact iff_of_false (fun h ↦ h rfl) (by decide)
  | some position =>
    simp only
    omega

/-- A control address belongs to every target that is a part of it. -/
theorem isControlUrl_iff :
    dev.isControlUrl (some target) service = true ↔
      ∃ address, (dev.mangleUrl service.controlUrl).bind NetUri.getRequest = some address ∧
        target <:+: address := by
  unfold HttpDevice.isControlUrl
  cases dev.mangleUrl service.controlUrl with
  | none => simp
  | some serviceUrl =>
    rw [Option.bind_some, decide_eq_true_eq]
    cases serviceUrl.getRequest with
    | none =>
      refine iff_of_false (fun h ↦ h rfl) ?_
      rintro ⟨address, haddress, -⟩
      cases haddress
    | some address =>
      rw [strstr_ne_iff]
      constructor
      · exact fun hwithin ↦ ⟨address, rfl, hwithin⟩
      · rintro ⟨other, hother, hwithin⟩
        rwa [Option.some.inj hother]

omit target in
theorem exists_some_and_iff {text : Option CString} {target : CString} :
    (∃ str, text = some str ∧ some target = some str) ↔ text = some target := by
  simp

/-- An event subscription address belongs to the target that is its path. -/
theorem isEventSubUrl_iff :
    dev.isEventSubUrl (some target) service = true ↔
      (dev.mangleUrl service.eventSubUrl).bind NetUri.path = some target := by
  unfold HttpDevice.isEventSubUrl
  cases dev.mangleUrl service.eventSubUrl with
  | none => simp
  | some eventSubUrl =>
    rw [Option.bind_some, streq_eq_true_iff]
    exact exists_some_and_iff

/-- The address of a service description belongs to the target that is its path. -/
theorem isScpdUrl_iff :
    HttpDevice.isScpdUrl (some target) service = true ↔
      (service.scpdUrl.bind fun url ↦ (NetUri.setValue url).path) = some target := by
  unfold HttpDevice.isScpdUrl NetUri.isEquivalent
  rw [beq_iff_eq, strcmp_eq_zero_iff]
  exact exists_some_and_iff

end Lookup

/-! ### Kinds of requests -/

/-- The requests that go to a service. -/
inductive RequestKind where
  | control
  | eventSub
  | scpd
  deriving DecidableEq

namespace RequestKind

/-- The URL of a service that requests of a kind are for. -/
def url (service : ServedService) : RequestKind → Option CString
  | control => service.controlUrl
  | eventSub => service.eventSubUrl
  | scpd => service.scpdUrl

/-- A request is of a kind: a control request is a POST request with the header of a SOAP action, or
an M-POST request. -/
def IsRequest (httpReq : HttpRequest) : RequestKind → Prop
  | control => (isMethod httpReq "POST" || isMethod httpReq "M-POST") && isSoapAction httpReq
  | eventSub => isMethod httpReq "SUBSCRIBE" || isMethod httpReq "UNSUBSCRIBE"
  | scpd => isMethod httpReq "GET"

/-- The place where requests of a kind for a service belong. -/
def place (service : ServedService) : RequestKind → Dispatch
  | control => .control service
  | eventSub => .subscription service
  | scpd => .scpd service

/-- The request target that a control point computes for a service. -/
def clientTarget (kind : RequestKind) (urlBase location : Option CString)
    (service : ServedService) : Option CString :=
  (mangleAbsoluteUrl (kind.url service) urlBase location).bind NetUri.getRequest

/-- A GET request that the listener for the presentation or the description of the root device
takes. -/
def isIntercepted (dev : HttpDevice) (httpReq : HttpRequest) : RequestKind → Bool
  | scpd => (dev.isPresentationRequest httpReq && dev.hasPresentationListener) ||
      streq dev.tree.value.descriptionUri httpReq.uri
  | _ => false

/-- The address of a service belongs to a target. -/
def isAddress (dev : HttpDevice) (target : Option CString) (service : ServedService) :
    RequestKind → Bool
  | control => dev.isControlUrl target service
  | eventSub => dev.isEventSubUrl target service
  | scpd => HttpDevice.isScpdUrl target service

/-- The request that a device looks up: its target has been made relative and decoded. -/
def lookedUp (httpReq : HttpRequest) : HttpRequest :=
  { httpReq.makeUriRelative with uri := receivedUri httpReq.makeUriRelative.uri }

/-- The test by which a device looks for the service of a request. -/
def isFor (kind : RequestKind) (dev : HttpDevice) (httpReq : HttpRequest)
    (service : ServedService) : Bool :=
  decide (0 < strlen (lookedUp httpReq).uri) && !kind.isIntercepted dev (lookedUp httpReq) &&
    kind.isAddress dev (lookedUp httpReq).uri service

end RequestKind

/-- The services of a device and of the devices embedded in it, in the order in which they are
looked up. -/
def HttpDevice.services (dev : HttpDevice) : List ServedService :=
  dev.tree.preorder.flatMap ServedObject.services

/-! ### The lookup of a request -/

section Dispatch

variable {dev : HttpDevice} {httpReq : HttpRequest} {service : ServedService}

theorem isMethod_iff {method : String} :
    isMethod httpReq method = true ↔ httpReq.method = some method.toList := by
  rw [isMethod, streq_eq_true_iff]
  exact exists_some_and_iff

theorem getServiceBy_eq {target : Option CString} {test : ServedService → Bool} :
    dev.getServiceBy target test =
      dev.services.find? fun service ↦ decide (0 < strlen target) && test service := by
  unfold HttpDevice.getServiceBy
  by_cases hempty : strlen target ≤ 0
  · rw [if_pos hempty]
    refine (List.find?_eq_none.mpr fun service _ ↦ ?_).symm
    have hnot : decide (0 < strlen target) = false := by
      rw [decide_eq_false_iff_not]
      omega
    rw [hnot, Bool.false_and]
    decide
  · have hlength : decide (0 < strlen target) = true := by
      rw [decide_eq_true_eq]
      omega
    rw [if_neg hempty, RoseTree.search_eq_find]
    simp only [hlength, Bool.true_and]
    rfl

/-- A control request is for the service that is found by its control address. -/
theorem postRequestReceived_eq_iff (hsoap : isSoapAction httpReq = true) :
    dev.postRequestReceived httpReq = .control service ↔
      dev.getServiceByControlUrl httpReq.uri = some service := by
  unfold HttpDevice.postRequestReceived
  rw [if_pos hsoap]
  cases dev.getServiceByControlUrl httpReq.uri <;> simp

theorem subscriptionReceived_eq_iff {uri : Option CString} :
    dev.subscriptionReceived uri = .subscription service ↔
      dev.getServiceByEventSubUrl uri = some service := by
  unfold HttpDevice.subscriptionReceived HttpDevice.getServiceByEventSubUrl
    HttpDevice.getServiceBy
  by_cases hempty : strlen uri ≤ 0
  · rw [if_pos hempty, if_pos hempty]
    simp
  · rw [if_neg hempty, if_neg hempty]
    cases dev.tree.search ServedObject.services (dev.isEventSubUrl uri) <;> simp

/-- A GET request for a description is for the service that is found by its address, unless it is
for the description of the root device. -/
theorem getRequestReceived_eq_iff {uri : Option CString} :
    dev.getRequestReceived uri = .scpd service ↔
      streq dev.tree.value.descriptionUri uri = false ∧
        dev.getServiceByScpdUrl uri = some service := by
  unfold HttpDevice.getRequestReceived
  by_cases hempty : strlen uri ≤ 0
  · have hnone : dev.getServiceByScpdUrl uri = none := if_pos hempty
    rw [if_pos hempty, hnone]
    simp
  · rw [if_neg hempty]
    cases hdescription : streq dev.tree.value.descriptionUri uri with
    | true => simp
    | false =>
      rw [if_neg (by decide)]
      cases dev.getServiceByScpdUrl uri with
      | some embService => simp
      | none =>
        cases getDeviceByDescriptionUri dev.tree uri <;> simp

/-- The method and the headers of a request are looked up as they are. -/
theorem lookedUp_fields (httpReq : HttpRequest) :
    (RequestKind.lookedUp httpReq).method = httpReq.method ∧
      (RequestKind.lookedUp httpReq).toHttpPacket = httpReq.toHttpPacket := by
  unfold RequestKind.lookedUp HttpRequest.makeUriRelative
  simp only
  split_ifs <;> exact ⟨rfl, rfl⟩

theorem isMethod_lookedUp (httpReq : HttpRequest) (method : String) :
    isMethod (RequestKind.lookedUp httpReq) method = isMethod httpReq method := by
  rw [isMethod, isMethod, (lookedUp_fields httpReq).1]

theorem isSoapAction_lookedUp (httpReq : HttpRequest) :
    isSoapAction (RequestKind.lookedUp httpReq) = isSoapAction httpReq := by
  rw [isSoapAction, isSoapAction, isMethod_lookedUp, (lookedUp_fields httpReq).2]

theorem isMethod_eq_false {method other : String} (hmethod : isMethod httpReq method = true)
    (hne : method.toList ≠ other.toList) : isMethod httpReq other = false := by
  rw [← Bool.not_eq_true, isMethod_iff, isMethod_iff.mp hmethod, Option.some.injEq]
  exact hne

/-- Only a request whose method is GET can be one for the presentation. -/
theorem isPresentationRequest_eq_false (hget : isMethod httpReq "GET" = false) :
    dev.isPresentationRequest httpReq = false := by
  rw [HttpDevice.isPresentationRequest, hget, Bool.false_and, Bool.false_and, Bool.false_and]

theorem dispatch_makeUriRelative (dev : HttpDevice) (httpReq : HttpRequest) :
    dev.dispatch httpReq.makeUriRelative =
      if dev.isPresentationRequest (RequestKind.lookedUp httpReq) &&
          dev.hasPresentationListener then .presentation
      else if isMethod httpReq "GET" || isMethod httpReq "HEAD" then
        dev.getRequestReceived (RequestKind.lookedUp httpReq).uri
      else if isMethod httpReq "POST" || isMethod httpReq "M-POST" then
        dev.postRequestReceived (RequestKind.lookedUp httpReq)
      else if isMethod httpReq "SUBSCRIBE" || isMethod httpReq "UNSUBSCRIBE" then
        dev.subscriptionReceived (RequestKind.lookedUp httpReq).uri
      else .status 400 := by
  simp only [← isMethod_lookedUp httpReq]
  rfl

theorem dispatch_control (hkind : RequestKind.control.IsRequest httpReq) :
    dev.dispatch httpReq.makeUriRelative =
      dev.postRequestReceived (RequestKind.lookedUp httpReq) := by
  obtain ⟨hpost, -⟩ := Bool.and_eq_true_iff.mp hkind
  have hother : isMethod httpReq "GET" = false ∧ isMethod httpReq "HEAD" = false := by
    rcases Bool.or_eq_true_iff.mp hpost with hmethod | hmethod
    · exact ⟨isMethod_eq_false hmethod (by decide), isMethod_eq_false hmethod (by decide)⟩
    · exact ⟨isMethod_eq_false hmethod (by decide), isMethod_eq_false hmethod (by decide)⟩
  have hpresentation := @isPresentationRequest_eq_false dev (RequestKind.lookedUp httpReq)
    ((isMethod_lookedUp httpReq "GET").trans hother.1)
  rw [dispatch_makeUriRelative, hpresentation, hother.1, hother.2, hpost]
  simp only [Bool.false_and, Bool.or_false, Bool.false_eq_true, if_false, if_true]

theorem dispatch_eventSub (hkind : RequestKind.eventSub.IsRequest httpReq) :
    dev.dispatch httpReq.makeUriRelative =
      dev.subscriptionReceived (RequestKind.lookedUp httpReq).uri := by
  have hsubscribe : (isMethod httpReq "SUBSCRIBE" || isMethod httpReq "UNSUBSCRIBE") = true := hkind
  have hother : ∀ method ∈ ["GET", "HEAD", "POST", "M-POST"], isMethod httpReq method = false := by
    intro method hmem
    have hne : method.toList ≠ "SUBSCRIBE".toList ∧ method.toList ≠ "UNSUBSCRIBE".toList := by
      revert method
      decide
    rcases Bool.or_eq_true_iff.mp hsubscribe with hmethod | hmethod
    · exact isMethod_eq_false hmethod hne.1.symm
    · exact isMethod_eq_false hmethod hne.2.symm
  have hpresentation := @isPresentationRequest_eq_false dev (RequestKind.lookedUp httpReq)
    ((isMethod_lookedUp httpReq "GET").trans (hother "GET" (by decide)))
  rw [dispatch_makeUriRelative, hpresentation, hother "GET" (by decide), hother "HEAD" (by decide),
    hother "POST" (by decide), hother "M-POST" (by decide), hsubscribe]
  simp only [Bool.false_and, Bool.or_false, Bool.false_eq_true, if_false, if_true]

/-- A kind whose requests are not intercepted is looked up by its address alone. -/
theorem isFor_eq {kind : RequestKind}
    (hnot : kind.isIntercepted dev (RequestKind.lookedUp httpReq) = false) :
    kind.isFor dev httpReq = fun service ↦
      decide (0 < strlen (RequestKind.lookedUp httpReq).uri) &&
        kind.isAddress dev (RequestKind.lookedUp httpReq).uri service := by
  funext service
  rw [RequestKind.isFor, hnot, Bool.not_false, Bool.and_true]

/-- No service is looked up for a request that is intercepted. -/
theorem find?_isFor_eq_none {kind : RequestKind}
    (hintercepted : kind.isIntercepted dev (RequestKind.lookedUp httpReq) = true) :
    dev.services.find? (kind.isFor dev httpReq) = none := by
  refine List.find?_eq_none.mpr fun service _ ↦ ?_
  rw [RequestKind.isFor, hintercepted, Bool.not_true, Bool.and_false, Bool.false_and]
  decide

theorem dispatch_scpd_iff (hkind : RequestKind.scpd.IsRequest httpReq) :
    dev.dispatch httpReq.makeUriRelative = .scpd service ↔
      RequestKind.scpd.isIntercepted dev (RequestKind.lookedUp httpReq) = false ∧
        dev.getServiceByScpdUrl (RequestKind.lookedUp httpReq).uri = some service := by
  have hget : isMethod httpReq "GET" = true := hkind
  rw [dispatch_makeUriRelative, hget, Bool.true_or, RequestKind.isIntercepted]
  cases dev.isPresentationRequest (RequestKind.lookedUp httpReq) && dev.hasPresentationListener with
  | true => simp
  | false =>
    rw [if_neg (by decide), if_pos rfl, getRequestReceived_eq_iff, Bool.false_or]

/-- Where a request goes that is of a kind. -/
theorem dispatch_eq_place_iff {kind : RequestKind} (hkind : kind.IsRequest httpReq) :
    dev.dispatch httpReq.makeUriRelative = kind.place service ↔
      dev.services.find? (kind.isFor dev httpReq) = some service := by
  cases kind with
  | control =>
    have hsoap : isSoapAction (RequestKind.lookedUp httpReq) = true :=
      (isSoapAction_lookedUp httpReq).trans (Bool.and_eq_true_iff.mp hkind).2
    rw [dispatch_control hkind, isFor_eq rfl]
    refine (postRequestReceived_eq_iff hsoap).trans ?_
    rw [HttpDevice.getServiceByControlUrl, getServiceBy_eq]
    rfl
  | eventSub =>
    rw [dispatch_eventSub hkind, isFor_eq rfl]
    refine subscriptionReceived_eq_iff.trans ?_
    rw [HttpDevice.getServiceByEventSubUrl, getServiceBy_eq]
    rfl
  | scpd =>
    refine (dispatch_scpd_iff hkind).trans ?_
    cases hintercepted : RequestKind.scpd.isIntercepted dev (RequestKind.lookedUp httpReq) with
    | true => simp [find?_isFor_eq_none hintercepted]
    | false =>
      rw [isFor_eq hintercepted, HttpDevice.getServiceByScpdUrl, getServiceBy_eq]
      simp only [true_and]
      rfl

end Dispatch

/-! ### What is read from the URL of a service -/

/-- The path that the scanner reads from a URL. -/
def urlPath (url : CString) : CString := (NetUri.setValue url).path.getD []

/-- The query that the scanner reads from a URL. A URL without one gets the query of the base, unless
it looks like an absolute one. -/
def urlQuery (baseQuery : Option CString) (url : CString) : Option CString :=
  if "://".toList <:+: url then (NetUri.setValue url).query
  else stringSetValue baseQuery (NetUri.setValue url).query

/-- The path with the query behind it, if that is not empty. -/
def urlRequest (baseQuery : Option CString) (url : CString) : CString :=
  urlPath url ++ queryText ((urlQuery baseQuery url).filter fun query ↦ decide (query ≠ []))

/-- The query of the base that a URL of a service is resolved against. -/
def baseQuery (urlBase location : Option CString) : Option CString :=
  if strlen (chosenBase urlBase location) ≤ 0 then none
  else (NetUri.setValue ((chosenBase urlBase location).getD [])).query

theorem getRequest_of_path {uri : NetUri} {path : CString} (hpath : uri.path = some path) :
    uri.getRequest =
      some (path ++ queryText (uri.query.filter fun query ↦ decide (query ≠ []))) := by
  unfold NetUri.getRequest NetUri.hasQuery
  rw [hpath]
  cases uri.query with
  | none => simp [stringLength, strlen, queryText]
  | some query =>
    cases query with
    | nil =>
      rw [if_pos (by decide)]
      exact congrArg some (List.append_nil path).symm
    | cons c rest =>
      rw [if_neg (by simp [stringLength, strlen]), stringSetValue_some, stringAddValue_some_some,
        stringAddValue_some_some, List.append_assoc]
      rfl

section Absolute

variable {url : CString} (habsolute : url.head? = some '/')
include habsolute

/-- The URL of a service that is an absolute path keeps its path, whatever it is resolved against. -/
theorem mangleAbsoluteUrl_read (urlBase location : Option CString) :
    ∃ resolved, mangleAbsoluteUrl (some url) urlBase location = some resolved ∧
      (NetUri.setValue url).path = some (urlPath url) ∧ resolved.path = some (urlPath url) ∧
      resolved.query = urlQuery (baseQuery urlBase location) url := by
  have hne : url ≠ [] := by
    rintro rfl
    cases habsolute
  by_cases hscheme : "://".toList <:+: url
  · have hhead : url.head? ≠ some ':' := by
      rw [habsolute]
      decide
    obtain ⟨before, -, -, hbefore, hprotocol⟩ := exists_protocol_of_infix hscheme hhead
    have hprotocol' : (NetUri.setValue url).protocol = some before := hprotocol
    have hisAbsolute : (NetUri.setValue url).isAbsolute = true := by
      rw [NetUri.isAbsolute, hprotocol', decide_eq_true_eq]
      exact List.length_pos_iff.mpr hbefore
    have hpath : (NetUri.setValue url).path = some (urlPath url) := by
      unfold urlPath NetUri.setValue
      simp only [hprotocol, Option.isSome_some, if_true, Option.getD_some]
    refine ⟨_, mangleAbsoluteUrl_absolute hne hisAbsolute urlBase location, hpath, hpath, ?_⟩
    rw [urlQuery, if_pos hscheme]
  · obtain ⟨read, hread⟩ := exists_path_of_not_infix hne hscheme
    have hpath : (NetUri.setValue url).path = some (urlPath url) := by
      rw [urlPath, hread, Option.getD_some]
    rw [urlQuery, if_neg hscheme]
    by_cases hempty : strlen (chosenBase urlBase location) ≤ 0
    · have hurlBase : ¬ 0 < strlen urlBase := by
        intro hpos
        rw [chosenBase, if_pos hpos] at hempty
        omega
      have hlocation : strlen location ≤ 0 := by
        rwa [chosenBase, if_neg hurlBase] at hempty
      have hnot : (NetUri.setValue url).isAbsolute = false := by
        rw [NetUri.isAbsolute, (setValue_of_no_scheme hscheme).1]
        decide
      refine ⟨NetUri.setValue url, ?_, hpath, hpath, ?_⟩
      · rw [mangleAbsoluteUrl, if_neg (not_strlen_some_le_zero hne)]
        simp only [Option.getD_some, hnot, Bool.false_eq_true, if_false]
        rw [if_neg hurlBase, if_pos hlocation]
      · rw [baseQuery, if_pos hempty, stringSetValue_none_left]
    · have hpos : 0 < strlen (chosenBase urlBase location) := by omega
      obtain ⟨baseText, hbase, hbaseNe⟩ := eq_some_of_strlen_pos hpos
      obtain ⟨resolved, hresolved, -, hresolvedPath, hresolvedQuery⟩ :=
        mangleAbsoluteUrl_relative hne hscheme hbase hbaseNe
      refine ⟨resolved, hresolved, hpath, ?_, ?_⟩
      · have hisPath : isAbsolutePath url = true := beq_iff_eq.mpr habsolute
        rw [hresolvedPath, if_pos hisPath, hpath, stringSetValue_some]
      · rw [hresolvedQuery, baseQuery, if_neg hempty, hbase, Option.getD_some]

theorem mangleAbsoluteUrl_getRequest (urlBase location : Option CString) :
    (mangleAbsoluteUrl (some url) urlBase location).bind NetUri.getRequest =
      some (urlRequest (baseQuery urlBase location) url) := by
  obtain ⟨resolved, hresolved, -, hpath, hquery⟩ := mangleAbsoluteUrl_read habsolute urlBase location
  rw [hresolved, Option.bind_some, getRequest_of_path hpath, hquery]
  rfl

end Absolute

/-- A target belongs to the URL of a service: as a part of its path and query for a control request,
as its path otherwise. -/
def RequestKind.Belongs (kind : RequestKind) (deviceQuery : Option CString) (received url : CString) :
    Prop :=
  match kind with
  | .control => received <:+: urlRequest deviceQuery url
  | .eventSub => urlPath url = received
  | .scpd => urlPath url = received

section Address

variable {kind : RequestKind} {service : ServedService} {url : CString}
  (hurl : kind.url service = some url) (habsolute : url.head? = some '/')
include hurl habsolute

theorem clientTarget_eq (urlBase location : Option CString) :
    kind.clientTarget urlBase location service =
      some (urlRequest (baseQuery urlBase location) url) := by
  rw [RequestKind.clientTarget, hurl, mangleAbsoluteUrl_getRequest habsolute]

theorem isAddress_iff {dev : HttpDevice} (received : CString) :
    kind.isAddress dev (some received) service = true ↔
      kind.Belongs (baseQuery dev.getUrlBase dev.location) received url := by
  obtain ⟨resolved, hresolved, hread, hpath, -⟩ :=
    mangleAbsoluteUrl_read habsolute dev.getUrlBase dev.location
  cases kind with
  | control =>
    have haddress : (dev.mangleUrl service.controlUrl).bind NetUri.getRequest =
        some (urlRequest (baseQuery dev.getUrlBase dev.location) url) :=
      @clientTarget_eq .control service url hurl habsolute _ _
    refine isControlUrl_iff.trans ?_
    rw [haddress]
    constructor
    · rintro ⟨address, heq, hwithin⟩
      rw [← Option.some.inj heq] at hwithin
      exact hwithin
    · exact fun hwithin ↦ ⟨_, rfl, hwithin⟩
  | eventSub =>
    have haddress : (dev.mangleUrl service.eventSubUrl).bind NetUri.path = some (urlPath url) := by
      have hservice : service.eventSubUrl = some url := hurl
      rw [HttpDevice.mangleUrl, hservice, hresolved, Option.bind_some, hpath]
    refine isEventSubUrl_iff.trans ?_
    rw [haddress, Option.some.injEq]
    rfl
  | scpd =>
    have hservice : service.scpdUrl = some url := hurl
    refine isScpdUrl_iff.trans ?_
    rw [hservice, Option.bind_some, hread, Option.some.injEq]
    rfl

end Address

/-! ### Which URL a target selects -/

/-- The target of a request as it is looked up: made relative, and decoded. -/
def receivedTarget (uri : Option CString) : Option CString :=
  let target := NetUri.setValue (uri.getD [])
  receivedUri (if target.isAbsolute then stringSetValue uri target.getRequest else uri)

namespace RequestKind

/-- A GET request is taken by the listener for the presentation when the address of the presentation
occurs in its target, but not in front, and it is taken for the description of the root device. -/
def IsTaken (kind : RequestKind) (dev : HttpDevice) (received : Option CString) : Prop :=
  kind = .scpd ∧
    ((dev.hasPresentationListener = true ∧ ∃ presentationUrl,
        dev.presentationUrl = some presentationUrl ∧
          0 < strstr received (some presentationUrl)) ∨
      ∃ target, dev.tree.value.descriptionUri = some target ∧ received = some target)

/-- A target belongs to the URL of a service, and is not taken before. -/
def Accepts (kind : RequestKind) (dev : HttpDevice) (received : Option CString) (url : CString) :
    Prop :=
  ¬ kind.IsTaken dev received ∧ ∃ target, received = some target ∧ target ≠ [] ∧
    kind.Belongs (baseQuery dev.getUrlBase dev.location) target url

end RequestKind

namespace HttpDevice

/-- The URLs of the services, in the order in which they are looked up. -/
def urls (dev : HttpDevice) (kind : RequestKind) : List CString :=
  dev.services.map fun service ↦ (kind.url service).getD []

/-- The URL whose path and query are the target at the control point accepts the target, there is at
most one such URL, and every URL that accepts the target is that one or stands behind it. -/
structure RoutesAsTargeted (dev : HttpDevice) (kind : RequestKind) (clientQuery : Option CString)
    (target : Option CString) : Prop where
  accepts : ∀ url ∈ dev.urls kind, some (urlRequest clientQuery url) = target →
    kind.Accepts dev (receivedTarget target) url
  unique : ∀ url ∈ dev.urls kind, ∀ other ∈ dev.urls kind,
    some (urlRequest clientQuery url) = target → some (urlRequest clientQuery other) = target →
      url = other
  first : ∀ front url back, dev.urls kind = front ++ url :: back →
    kind.Accepts dev (receivedTarget target) url →
      ∃ other ∈ front ++ [url], some (urlRequest clientQuery other) = target

end HttpDevice

section Routes

variable {dev : HttpDevice} {kind : RequestKind} {httpReq : HttpRequest}

theorem lookedUp_uri (httpReq : HttpRequest) :
    (RequestKind.lookedUp httpReq).uri = receivedTarget httpReq.uri := by
  unfold RequestKind.lookedUp receivedTarget HttpRequest.makeUriRelative
  simp only
  split_ifs <;> rfl

theorem isIntercepted_iff (hkind : kind.IsRequest httpReq) :
    kind.isIntercepted dev (RequestKind.lookedUp httpReq) = true ↔
      kind.IsTaken dev (receivedTarget httpReq.uri) := by
  cases kind with
  | control => exact iff_of_false Bool.false_ne_true fun h ↦ RequestKind.noConfusion h.1
  | eventSub => exact iff_of_false Bool.false_ne_true fun h ↦ RequestKind.noConfusion h.1
  | scpd =>
    have hget : isMethod (RequestKind.lookedUp httpReq) "GET" = true :=
      (isMethod_lookedUp httpReq "GET").trans hkind
    unfold RequestKind.isIntercepted RequestKind.IsTaken HttpDevice.isPresentationRequest
    rw [hget, lookedUp_uri, Bool.or_eq_true, streq_eq_true_iff]
    refine Iff.trans (or_congr ?_ Iff.rfl) (and_iff_right rfl).symm
    rw [Bool.and_eq_true, and_comm]
    refine and_congr_right fun _ ↦ ?_
    cases dev.presentationUrl with
    | none => simp
    | some presentationUrl =>
      cases receivedTarget httpReq.uri with
      | none => simp [strstr]
      | some target => simp

theorem isFor_iff (hkind : kind.IsRequest httpReq) {service : ServedService} {url : CString}
    (hurl : kind.url service = some url) (habsolute : url.head? = some '/') :
    kind.isFor dev httpReq service = true ↔
      kind.Accepts dev (receivedTarget httpReq.uri) url := by
  unfold RequestKind.isFor RequestKind.Accepts
  rw [Bool.and_eq_true, Bool.and_eq_true, decide_eq_true_eq, Bool.not_eq_true', ← Bool.not_eq_true,
    isIntercepted_iff hkind, lookedUp_uri]
  cases receivedTarget httpReq.uri with
  | none => simp [strlen]
  | some target =>
    rw [isAddress_iff hurl habsolute, and_comm (a := 0 < strlen (some target)), and_assoc]
    refine and_congr_right fun _ ↦ ?_
    have hlength : 0 < strlen (some target) ↔ target ≠ [] := List.length_pos_iff
    rw [hlength]
    simp

/-- Assumes: the URLs of the services are different absolute paths. -/
theorem find?_isFor_iff_routesAsTargeted (hkind : kind.IsRequest httpReq)
    (hurl : ∀ service ∈ dev.services, ∃ url, kind.url service = some url ∧ url.head? = some '/')
    (hdistinct : ∀ service ∈ dev.services, ∀ other ∈ dev.services,
      kind.url service = kind.url other → service = other) (urlBase location : Option CString) :
    (∀ service ∈ dev.services, dev.services.find? (kind.isFor dev httpReq) = some service ↔
        kind.clientTarget urlBase location service = httpReq.uri) ↔
      dev.RoutesAsTargeted kind (baseQuery urlBase location) httpReq.uri := by
  have hinj : ∀ service ∈ dev.services, ∀ other ∈ dev.services,
      (kind.url service).getD [] = (kind.url other).getD [] → service = other := by
    intro service hservice other hother heq
    obtain ⟨url, hserviceUrl, -⟩ := hurl service hservice
    obtain ⟨otherUrl, hotherUrl, -⟩ := hurl other hother
    rw [hserviceUrl, hotherUrl] at heq
    exact hdistinct service hservice other hother
      (hserviceUrl.trans ((congrArg some heq).trans hotherUrl.symm))
  rw [find?_eq_some_iff_wanted, selectsExactly_iff_of_map
    (kind.Accepts dev (receivedTarget httpReq.uri))
    (fun url ↦ some (urlRequest (baseQuery urlBase location) url) = httpReq.uri) hinj]
  · exact ⟨fun ⟨haccepts, hunique, hfirst⟩ ↦ ⟨haccepts, hunique, hfirst⟩,
      fun ⟨haccepts, hunique, hfirst⟩ ↦ ⟨haccepts, hunique, hfirst⟩⟩
  · intro service hservice
    obtain ⟨url, hserviceUrl, habsolute⟩ := hurl service hservice
    rw [hserviceUrl]
    exact isFor_iff hkind hserviceUrl habsolute
  · intro service hservice
    obtain ⟨url, hserviceUrl, habsolute⟩ := hurl service hservice
    rw [clientTarget_eq hserviceUrl habsolute, hserviceUrl]
    rfl

end Routes

/-! ### Paths that are read as they stand -/

/-- An absolute path that the scanner reads as it stands. -/
structure IsPlainPath (path : CString) : Prop where
  absolute : path.head? = some '/'
  chars : ∀ c ∈ path, c ≠ '?' ∧ c ≠ '#' ∧ c ≠ '@'
  not_scheme : ¬ "://".toList <:+: path

section Plain

variable {path : CString} (h : IsPlainPath path)
include h

theorem setValue_plain :
    (NetUri.setValue path).path = some path ∧ (NetUri.setValue path).query = none := by
  have hnot : ∀ c, c = '?' ∨ c = '#' ∨ c = '@' → c ∉ path := by
    intro c hc hmem
    obtain ⟨hquestion, hsharp, hat⟩ := h.chars c hmem
    rcases hc with rfl | rfl | rfl
    · exact hquestion rfl
    · exact hsharp rfl
    · exact hat rfl
  have hleft := (referenceLeft_suffix path).subset
  refine setValue_of_question_not_mem ?_ h.not_scheme (fun hmem ↦ hnot '#' (by simp) (hleft hmem))
    fun hmem ↦ hnot '?' (by simp) (hleft hmem)
  rintro rfl
  cases h.absolute

/-- The path and the query of a plain path are its own, when the base has no query. -/
theorem urlRequest_plain : urlPath path = path ∧ urlRequest none path = path := by
  obtain ⟨hpath, hquery⟩ := setValue_plain h
  have hread : urlPath path = path := by rw [urlPath, hpath, Option.getD_some]
  refine ⟨hread, ?_⟩
  rw [urlRequest, urlQuery, if_neg h.not_scheme, hread, hquery, stringSetValue_none]
  exact List.append_nil path

end Plain

/-- Between a device and a control point whose bases have no query, the services whose URLs are
different absolute paths without a query are reached with their own targets only, unless the target
of a control request is a proper part of an address, or the presentation or the root description is
asked for. -/
theorem dispatch_plain {dev : HttpDevice} {kind : RequestKind} {httpReq : HttpRequest}
    (hkind : kind.IsRequest httpReq) {target : CString} (hne : target ≠ [])
    (huri : httpReq.uri = some target) (hread : receivedTarget httpReq.uri = some target)
    (hnot : ¬ kind.IsTaken dev (some target)) {path : ServedService → CString}
    (hpath : ∀ service ∈ dev.services,
      kind.url service = some (path service) ∧ IsPlainPath (path service))
    (hdistinct : ∀ service ∈ dev.services, ∀ other ∈ dev.services,
      path service = path other → service = other)
    {urlBase location : Option CString} (hdev : baseQuery dev.getUrlBase dev.location = none)
    (hclient : baseQuery urlBase location = none)
    (hpart : ∀ service ∈ dev.services, target <:+: path service → path service = target) :
    ∀ service ∈ dev.services, dev.dispatch httpReq.makeUriRelative = kind.place service ↔
      kind.clientTarget urlBase location service = httpReq.uri := by
  have hplain : ∀ url ∈ dev.urls kind, IsPlainPath url ∧ (target <:+: url → url = target) := by
    intro url hmem
    obtain ⟨service, hservice, rfl⟩ := List.mem_map.mp hmem
    rw [(hpath service hservice).1]
    exact ⟨(hpath service hservice).2, hpart service hservice⟩
  simp only [dispatch_eq_place_iff hkind]
  refine (find?_isFor_iff_routesAsTargeted hkind
    (fun service hservice ↦ ⟨_, (hpath service hservice).1, (hpath service hservice).2.absolute⟩)
    (fun service hservice other hother heq ↦ hdistinct service hservice other hother ?_)
    urlBase location).mpr ?_
  · rw [(hpath service hservice).1, (hpath other hother).1] at heq
    exact Option.some.inj heq
  · rw [hclient]
    have htarget : ∀ url ∈ dev.urls kind,
        some (urlRequest none url) = httpReq.uri ↔ url = target := by
      intro url hmem
      rw [(urlRequest_plain (hplain url hmem).1).2, huri, Option.some.injEq]
    have haccepts : ∀ url ∈ dev.urls kind,
        kind.Accepts dev (receivedTarget httpReq.uri) url ↔ url = target := by
      intro url hmem
      obtain ⟨hurl, hwithin⟩ := hplain url hmem
      have hbelongs : kind.Belongs none target url ↔ url = target := by
        obtain ⟨hurlPath, hrequest⟩ := urlRequest_plain hurl
        cases kind with
        | control =>
          rw [RequestKind.Belongs, hrequest]
          exact ⟨hwithin, fun heq ↦ heq ▸ List.infix_rfl⟩
        | eventSub => rw [RequestKind.Belongs, hurlPath]
        | scpd => rw [RequestKind.Belongs, hurlPath]
      rw [RequestKind.Accepts, hread, hdev, ← hbelongs]
      constructor
      · rintro ⟨-, other, hother, -, hown⟩
        rwa [Option.some.inj hother]
      · exact fun hown ↦ ⟨hnot, target, rfl, hne, hown⟩
    refine ⟨fun url hmem hurl ↦ ?_, fun url hmem other hother hurl hotherUrl ↦ ?_,
      fun front url back hsplit hurl ↦ ?_⟩
    · exact (haccepts url hmem).mpr ((htarget url hmem).mp hurl)
    · rw [(htarget url hmem).mp hurl, (htarget other hother).mp hotherUrl]
    · have hmem : url ∈ dev.urls kind := hsplit ▸ List.mem_append_right _ List.mem_cons_self
      exact ⟨url, List.mem_append_right _ List.mem_cons_self,
        (htarget url hmem).mpr ((haccepts url hmem).mp hurl)⟩

/-! ### When the two sides agree -/

/-- The URLs of all services are different absolute paths, with or without a query and without
percent signs. -/
structure HttpDevice.HasServiceUrls (dev : HttpDevice) : Prop where
  absolute : ∀ service ∈ dev.services, ∀ kind : RequestKind, ∃ path query,
    kind.url service = some (path ++ queryText query) ∧ path.head? = some '/' ∧
      ¬ ['/', '/'] <+: path ∧ IsUriText "?#[]%" path ∧ ∀ text ∈ query, IsUriText "#[]%" text
  distinct : (dev.services.flatMap fun service ↦
    [service.controlUrl, service.eventSubUrl, service.scpdUrl]).Nodup

namespace HttpDevice.HasServiceUrls

variable {dev : HttpDevice} (h : dev.HasServiceUrls) (kind : RequestKind)
include h

theorem exists_url (service : ServedService) (hservice : service ∈ dev.services) :
    ∃ url, kind.url service = some url ∧ url.head? = some '/' := by
  obtain ⟨path, query, hurl, habsolute, -⟩ := h.absolute service hservice kind
  refine ⟨_, hurl, ?_⟩
  rw [List.head?_append, habsolute]
  rfl

theorem eq_of_url_eq (service : ServedService) (hservice : service ∈ dev.services)
    (other : ServedService) (hother : other ∈ dev.services)
    (heq : kind.url service = kind.url other) : service = other := by
  by_contra hne
  have hmem : ∀ service : ServedService,
      kind.url service ∈ [service.controlUrl, service.eventSubUrl, service.scpdUrl] := by
    intro service
    cases kind with
    | control => exact List.mem_cons_self
    | eventSub => exact List.mem_cons_of_mem _ List.mem_cons_self
    | scpd => exact List.mem_cons_of_mem _ (List.mem_cons_of_mem _ List.mem_cons_self)
  have hsymm : Std.Symm (Function.onFun List.Disjoint fun service : ServedService ↦
      [service.controlUrl, service.eventSubUrl, service.scpdUrl]) :=
    ⟨fun _ _ hrel _ hother hservice ↦ hrel hservice hother⟩
  have hdisjoint := (List.nodup_flatMap.mp h.distinct).2.forall hservice hother hne
  exact hdisjoint (hmem service) (heq ▸ hmem other)

end HttpDevice.HasServiceUrls

/-- For a request of a kind, the device goes to exactly the service whose target this is at the
control point, if and only if the URLs select it: the URL whose path and query are the target has
the target as its path, or for a control request as a part of its path and query, no other URL has
this path and query, and none in front of it has the target as its path, or as a part. -/
theorem dispatch_iff_target {dev : HttpDevice} (hurls : dev.HasServiceUrls) {kind : RequestKind}
    {httpReq : HttpRequest} (hkind : kind.IsRequest httpReq) (urlBase location : Option CString) :
    (∀ service ∈ dev.services, dev.dispatch httpReq.makeUriRelative = kind.place service ↔
        kind.clientTarget urlBase location service = httpReq.uri) ↔
      dev.RoutesAsTargeted kind (baseQuery urlBase location) httpReq.uri := by
  simp only [dispatch_eq_place_iff hkind]
  exact find?_isFor_iff_routesAsTargeted hkind (hurls.exists_url kind) (hurls.eq_of_url_eq kind)
    urlBase location

/-- A service whose event subscription URL has a query. -/
def queryService : ServedService where
  scpdUrl := some "/scpd.xml".toList
  controlUrl := some "/control".toList
  eventSubUrl := some "/event?id=1".toList
  scpdNode := none

/-- A device with this service. -/
def queryDevice : HttpDevice where
  tree := .node
    { descriptionUri := some "/description.xml".toList
      rootNode := none
      services := [queryService] } []
  httpPort := 4004
  location := none
  presentationUrl := none
  hasPresentationListener := false

/-- A subscription to the events of the service. -/
def queryRequest : HttpRequest :=
  { HttpRequest.new [] with
    method := some "SUBSCRIBE".toList
    uri := some "/event?id=1".toList }

theorem hasServiceUrls_queryDevice : queryDevice.HasServiceUrls where
  absolute := by
    intro service hservice kind
    have heq : service = queryService := List.mem_singleton.mp hservice
    rw [heq]
    cases kind with
    | control =>
      refine ⟨"/control".toList, none, rfl, rfl, by decide, by decide, fun text htext ↦ ?_⟩
      cases htext
    | scpd =>
      refine ⟨"/scpd.xml".toList, none, rfl, rfl, by decide, by decide, fun text htext ↦ ?_⟩
      cases htext
    | eventSub =>
      refine ⟨"/event".toList, some "id=1".toList, rfl, rfl, by decide, by decide,
        fun text htext ↦ ?_⟩
      rw [← Option.some.inj htext]
      decide
  distinct := by decide

theorem dispatch_iff_target_event :
    (∀ service ∈ queryDevice.services,
        queryDevice.dispatch queryRequest.makeUriRelative = RequestKind.eventSub.place service ↔
        RequestKind.eventSub.clientTarget none
          (some "http://192.168.0.2:4004/description.xml".toList) service = queryRequest.uri) ↔
      queryDevice.RoutesAsTargeted .eventSub
        (baseQuery none (some "http://192.168.0.2:4004/description.xml".toList))
        queryRequest.uri :=
  @dispatch_iff_target queryDevice hasServiceUrls_queryDevice .eventSub queryRequest
    (show _ = true by decide +kernel) _ _

/-- The subscription finds no service, since its target is more than a path. -/
theorem not_dispatch_iff_target :
    ¬ ∀ (dev : HttpDevice) (kind : RequestKind) (httpReq : HttpRequest)
      (urlBase location : Option CString), dev.HasServiceUrls → kind.IsRequest httpReq →
      ∀ service ∈ dev.services, dev.dispatch httpReq.makeUriRelative = kind.place service ↔
        kind.clientTarget urlBase location service = httpReq.uri := by
  intro hroutes
  have hroute := hroutes queryDevice .eventSub queryRequest none
    (some "http://192.168.0.2:4004/description.xml".toList) hasServiceUrls_queryDevice
    (show _ = true by decide +kernel) queryService (List.mem_singleton.mpr rfl)
  have htarget : RequestKind.eventSub.clientTarget none
      (some "http://192.168.0.2:4004/description.xml".toList) queryService = queryRequest.uri := by
    decide +kernel
  have hnone : queryDevice.getServiceByEventSubUrl
      (RequestKind.lookedUp queryRequest).uri = none := by decide +kernel
  have hdispatch := hroute.mpr htarget
  rw [dispatch_eventSub (show _ = true by decide +kernel)] at hdispatch
  rw [subscriptionReceived_eq_iff.mp hdispatch] at hnone
  cases hnone

end Mupnp.DeviceServer
