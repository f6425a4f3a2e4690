import Mupnp.Advertisement.AdvertisedIdentity
import Mupnp.Advertisement.AnnouncedDiscovery

/-!
# A search and its answers

The request that `mupnp_controlpoint_search` sends through `mupnp_ssdpresponse_server_post`, the
responses of `mupnp_device_postsearchresponse` with all of their headers, and what a control point
does with them.

A request that fits the receive buffer is accepted as it was written (`heard_search`). Every
response leads the control point to the location of the root device, whichever device of the tree it
is about (`responses_heard`). So the first response adds the tree, and the other ones renew it: the
searched device is cached once (`search_discovers`).
-/

set_option autoImplicit false
set_option relaxedAutoImplicit false

namespace Mupnp.Advertisement

open Foundation Util Http Net Ssdp Discovery

/-! ### The request -/

/-- The request of `mupnp_controlpoint_search`, as `mupnp_ssdpresponse_server_post` sends it. -/
def searchRequest (texts : NotifyTexts) (ifAddr target : CString) (mx : ℤ) : HttpRequest :=
  let new := ssdpRequestNew texts.userAgent
  let ssdpReq := { new with method := stringSetValue new.method (some "M-SEARCH".toList) }
  let targeted := setRequestHeader ssdpReq "ST" target
  let waiting := setRequestHeader targeted "MX" (long2str mx)
  let discovering := setRequestHeader waiting "MAN" "\"ssdp:discover\"".toList
  setRequestHeader discovering "HOST" (hostHeaderValue (getHostAddress texts ifAddr) 1900)

/-- The headers of a search. -/
def searchHeaders (texts : NotifyTexts) (ifAddr target : CString) (mx : ℤ) : HttpHeaderList :=
  [⟨some "Content-Length".toList, some (long2str 0)⟩, ⟨some "ST".toList, some target⟩,
    ⟨some "MX".toList, some (long2str mx)⟩,
    ⟨some "MAN".toList, some "\"ssdp:discover\"".toList⟩,
    ⟨some "HOST".toList, some (hostHeaderValue (getHostAddress texts ifAddr) 1900)⟩]

theorem ssdpRequestToString_searchRequest (texts : NotifyTexts) (ifAddr target : CString) (mx : ℤ) :
    ssdpRequestToString (searchRequest texts ifAddr target mx) =
      messageText "M-SEARCH".toList "* HTTP/1.1".toList (searchHeaders texts ifAddr target mx) :=
  ssdpRequestToString_eq _

/-- A received packet as the listener of a device reads it. -/
def toSearchRequest (ssdpPkt : ReceivedPacket) : SearchRequest :=
  ⟨ssdpPkt.data.getD [], ssdpPkt.headers⟩

theorem isFirstLine_search : IsFirstLine "M-SEARCH".toList "* HTTP/1.1".toList :=
  ⟨⟨by decide, by decide⟩, by decide, ⟨by decide, by decide, by decide⟩⟩

/-- What the loop of `mupnp_ssdp_packet_getmx` makes of digits. -/
theorem mxValue_of_isDigit {digits : CString} (hdigits : ∀ c ∈ digits, c.isDigit = true) (mx : ℕ) :
    SearchRequest.mxValue (min 5 mx) digits = min 5 (digitsValue mx digits) := by
  induction digits generalizing mx with
  | nil => rfl
  | cons c rest ih =>
    have hc := hdigits c List.mem_cons_self
    have hrest := ih fun other hother ↦ hdigits other (List.mem_cons_of_mem _ hother)
    rw [SearchRequest.mxValue, if_neg (by simp [hc]), digitsValue, if_pos hc, ← hrest]
    congr 1
    split_ifs <;> omega

section Request

variable {texts : NotifyTexts} {ifAddr target : CString} {mx : ℤ}

/-- A text with a colon behind its first character, which is none, looks like an IPv6 address. -/
theorem isIpv6Address_cons {c : Char} {rest : CString} (hc : c ≠ ':') (hrest : ':' ∈ rest) :
    isIpv6Address (some (c :: rest)) = true := by
  have hinfix : [':'] <:+: rest := by
    obtain ⟨before, after, rfl⟩ := List.append_of_mem hrest
    exact ⟨before, after, by simp⟩
  obtain ⟨position, hposition⟩ := Option.ne_none_iff_exists'.mp
    (mt indexOf_eq_none_iff.mp (not_not_intro hinfix))
  have hhead : List.isPrefixOf [':'] (c :: rest) = false := by
    rw [List.isPrefixOf, beq_false_of_ne hc.symm, Bool.false_and]
  have hindex : indexOf ":".toList (c :: rest) = some (position + 1) := by
    show indexOf [':'] (c :: rest) = some (position + 1)
    rw [indexOf, hhead, hposition]
    rfl
  simp only [isIpv6Address, strstr, hindex]
  exact decide_eq_true (by omega)

/-- The host of a search is the multicast address, which has a colon in front of its port. -/
theorem isIpv6Address_host (hipv6 : isIpv6Address (some texts.ipv6Address) = true) :
    isIpv6Address (some (hostHeaderValue (getHostAddress texts ifAddr) 1900)) = true := by
  unfold getHostAddress
  split_ifs
  · rw [hostHeaderValue, if_pos (by decide), if_pos hipv6]
    exact isIpv6Address_cons (by decide) (by simp)
  · decide

/-- A search that fits the receive buffer is accepted by a device that has not seen it before, with
its target and its wait. -/
theorem heard_search (hfields : ∀ header ∈ searchHeaders texts ifAddr target mx, IsField header)
    (hlength : (ssdpRequestToString (searchRequest texts ifAddr target mx)).length ≤
      dgramRecvBufSize)
    (htarget : target ≠ []) (hmx : 1 ≤ mx)
    (hipv6 : isIpv6Address (some texts.ipv6Address) = true)
    {ssdpPkt : ReceivedPacket} (hclear : ssdpPkt.headers = []) (sender : Option (CString × ℤ))
    (selected : Option CString) :
    let heard := toSearchRequest (ssdpPkt.recv
      ⟨ssdpRequestToString (searchRequest texts ifAddr target mx), sender, selected⟩)
    heard.isAccepted false = true ∧ heard.getSt = some target ∧ (heard.getMx : ℤ) = min 5 mx := by
  intro heard
  rw [ssdpRequestToString_searchRequest] at hlength
  obtain ⟨hheaders, hdata⟩ := recv_message hclear isFirstLine_search hfields hlength sender selected
  have hheard : heard = ⟨messageText "M-SEARCH".toList "* HTTP/1.1".toList
      (searchHeaders texts ifAddr target mx), firstLineHeader "M-SEARCH".toList
        "* HTTP/1.1".toList :: searchHeaders texts ifAddr target mx⟩ := by
    simp only [heard, toSearchRequest, ssdpRequestToString_searchRequest, hheaders, hdata,
      Option.getD_some]
  have hst : heard.getSt = some target := by rw [hheard]; rfl
  have hman : heard.getHeaderValue "MAN" = some "\"ssdp:discover\"".toList := by rw [hheard]; rfl
  have hmxValue : heard.getHeaderValue "MX" = some (long2str mx) := by rw [hheard]; rfl
  have hhost : heard.getHeaderValue "HOST" =
      some (hostHeaderValue (getHostAddress texts ifAddr) 1900) := by rw [hheard]; rfl
  have hrequestLine : ∀ text : String, text.toList <:+: "M-SEARCH * HTTP/1.1".toList →
      SsdpPacket.mentions (some heard.data) text = true := by
    intro text htext
    rw [hheard]
    refine decide_eq_true (strstr_nonneg_iff.mpr (htext.trans (List.prefix_append _ _).isInfix))
  obtain ⟨count, rfl⟩ := Int.eq_ofNat_of_zero_le (show 0 ≤ mx by omega)
  have hdigits : long2str count = Nat.toDigits 10 count := by
    rw [long2str, if_neg (by omega), Int.natAbs_natCast]
  have hisDigit : ∀ c ∈ long2str count, c.isDigit = true := by
    rw [hdigits]
    exact fun c hc ↦ isDigit_of_mem_toDigits hc
  have hgetMx : heard.getMx = min 5 count := by
    have hvalue := mxValue_of_isDigit hisDigit 0
    rw [hdigits, digitsValue_toDigits] at hvalue
    rw [SearchRequest.getMx, hmxValue, hdigits]
    exact hvalue
  refine ⟨?_, hst, by rw [hgetMx]; omega⟩
  have hnil : long2str count ≠ [] := hdigits ▸ Nat.toDigits_ne_nil
  have htargetLength : 0 < strlen (some target) := not_le.mp (not_strlen_some_le_zero htarget)
  have hlen : 0 < strlen (some (long2str count)) := not_le.mp (not_strlen_some_le_zero hnil)
  have hall : (long2str count).all Char.isDigit = true := List.all_eq_true.mpr hisDigit
  have hdiscover : strstr (some "\"ssdp:discover\"".toList)
      (some "\"ssdp:discover\"".toList) = 0 := by decide
  have hwait : 1 ≤ heard.getMx := by omega
  unfold SearchRequest.isAccepted
  simp only [hrequestLine "M-SEARCH" (by decide), hrequestLine "*" (by decide),
    hrequestLine "HTTP/1.1" (by decide), hhost, isIpv6Address_host hipv6, hman, hdiscover, hmxValue,
    hst, hlen, hall, htargetLength, hwait, Option.getD_some, Bool.or_true, Bool.and_true,
    Bool.not_false, decide_true, beq_self_eq_true]

end Request

/-! ### The responses -/

/-- `mupnp_ssdpresponse_new`. -/
def ssdpResponseNew : HttpResponse :=
  let new := HttpResponse.new
  { new with version := stringSetValue new.version (some "HTTP/1.1".toList) }.setStatusCode 200

/-- The macros of `ssdp.h` that set one header of a response. -/
def setResponseHeader (ssdpRes : HttpResponse) (name : String) (value : CString) : HttpResponse :=
  { ssdpRes with toHttpPacket := ssdpRes.toHttpPacket.setHeaderValue name.toList (some value) }

/-- The array in which `mupnp_ssdpresponse_setleasetime` prints its text:
`char buf[MUPNP_SSDP_MAXAGE_LEN + 1 + MUPNP_STRING_INTEGER_BUFLEN]`. -/
def responseLeaseTimeBufLen : ℕ := 7 + 1 + 16

/-- The text of a response fits its array, since the lease time is cast to an `int` there. -/
theorem length_leaseTimeText_bmod (value : ℤ) :
    (leaseTimeText (value.bmod (2 ^ 32))).length < responseLeaseTimeBufLen := by
  have hlower := @Int.le_bmod value (2 ^ 32) (by decide)
  have hupper := @Int.bmod_lt value (2 ^ 32) (by decide)
  have hiff := @length_long2str_le_iff (value.bmod (2 ^ 32)) 10 (by decide)
  simp only [Int.reducePow, Nat.reduceAdd] at hiff
  rw [responseLeaseTimeBufLen, length_leaseTimeText]
  omega

/-- The response of `mupnp_device_postsearchresponse` for a device, at a date. The lease time is cast
to an `int`. -/
def searchResponse (texts : NotifyTexts) (date rootDevLocation : CString) (dev : AnnouncedDevice)
    (pair : SsdpPair) : HttpResponse :=
  let leased := setResponseHeader ssdpResponseNew "Cache-Control"
    (leaseTimeText (dev.leaseTime.bmod (2 ^ 32)))
  let dated := setResponseHeader leased "Date" date
  let targeted := setResponseHeader dated "ST" pair.1
  let booted := setResponseHeader targeted "BOOTID.UPNP.ORG" (long2str dev.bootId)
  let extended := setResponseHeader booted "EXT" []
  let served := setResponseHeader extended "SERVER" texts.server
  setResponseHeader (setResponseHeader served "USN" pair.2) "Location" rootDevLocation

mutual

/-- `mupnp_device_ssdpmessagereceived` behind its checks, with the responses that are sent. -/
def sentResponses (texts : NotifyTexts) (date rootDevLocation : CString) (ssdpCount : ℕ)
    (ssdpPkt : SearchRequest) (isRootDevice : Bool) : AnnouncedTree → List HttpResponse
  | .node dev devices =>
    (deviceResponses ssdpCount ssdpPkt isRootDevice dev.toDeviceEntry ++
        dev.serviceTypes.flatMap (serviceSsdpMessageReceived ssdpCount ssdpPkt
          dev.toDeviceEntry)).map (searchResponse texts date rootDevLocation dev) ++
      sentResponsesIn texts date rootDevLocation ssdpCount ssdpPkt devices

/-- The loop of `mupnp_device_ssdpmessagereceived` over the embedded devices. -/
def sentResponsesIn (texts : NotifyTexts) (date rootDevLocation : CString) (ssdpCount : ℕ)
    (ssdpPkt : SearchRequest) : List AnnouncedTree → List HttpResponse
  | [] => []
  | childDev :: rest =>
    sentResponses texts date rootDevLocation ssdpCount ssdpPkt false childDev ++
      sentResponsesIn texts date rootDevLocation ssdpCount ssdpPkt rest

end

/-- `mupnp_device_ssdplistener`, with the responses that are sent from a local address. -/
def ssdpListener (texts : NotifyTexts) (date localAddr : CString) (ssdpCount : ℕ)
    (root : AnnouncedTree) (ssdpPkt : SearchRequest) (isDuplicate : Bool) : List HttpResponse :=
  if ssdpPkt.isAccepted isDuplicate = true then
    sentResponses texts date (root.value.getLocationUrl localAddr) ssdpCount ssdpPkt true root
  else []

/-- The headers of a response. -/
def responseHeaders (texts : NotifyTexts) (date rootDevLocation : CString) (dev : AnnouncedDevice)
    (pair : SsdpPair) : HttpHeaderList :=
  [⟨some "Cache-Control".toList, some (leaseTimeText (dev.leaseTime.bmod (2 ^ 32)))⟩,
    ⟨some "Date".toList, some date⟩, ⟨some "ST".toList, some pair.1⟩,
    ⟨some "BOOTID.UPNP.ORG".toList, some (long2str dev.bootId)⟩, ⟨some "EXT".toList, some []⟩,
    ⟨some "SERVER".toList, some texts.server⟩, ⟨some "USN".toList, some pair.2⟩,
    ⟨some "Location".toList, some rootDevLocation⟩]

section Responses

variable {texts : NotifyTexts} {date rootDevLocation : CString} {ssdpCount : ℕ}
  {ssdpPkt : SearchRequest}

theorem ssdpResponseToString_searchResponse (dev : AnnouncedDevice) (pair : SsdpPair) :
    ssdpResponseToString (searchResponse texts date rootDevLocation dev pair) =
      messageText "HTTP/1.1".toList "200 OK".toList
        (responseHeaders texts date rootDevLocation dev pair) := by
  have hstatus : long2str 200 ++ " ".toList ++ "OK".toList = "200 OK".toList := by decide
  rw [← hstatus, ssdpResponseToString_eq]
  rfl

/-- A response answers with a pair for one of some devices. -/
def IsResponseOf (texts : NotifyTexts) (date rootDevLocation : CString)
    (devices : List AnnouncedDevice) (ssdpRes : HttpResponse) (pair : SsdpPair) : Prop :=
  ∃ dev ∈ devices, ssdpRes = searchResponse texts date rootDevLocation dev pair

theorem IsResponseOf.mono {devices others : List AnnouncedDevice} (h : devices ⊆ others)
    {ssdpRes : HttpResponse} {pair : SsdpPair}
    (hres : IsResponseOf texts date rootDevLocation devices ssdpRes pair) :
    IsResponseOf texts date rootDevLocation others ssdpRes pair := by
  obtain ⟨dev, hdev, hsame⟩ := hres
  exact ⟨dev, h hdev, hsame⟩

/-- The responses of a device for pairs are responses with these pairs. -/
theorem forall₂_searchResponse {devices : List AnnouncedDevice} {dev : AnnouncedDevice}
    (hdev : dev ∈ devices) (pairs : List SsdpPair) :
    List.Forall₂ (IsResponseOf texts date rootDevLocation devices)
      (pairs.map (searchResponse texts date rootDevLocation dev)) pairs :=
  List.forall₂_map_left_iff.mpr (List.forall₂_same.mpr fun _ _ ↦ ⟨dev, hdev, rfl⟩)

/-- The responses of embedded devices are responses with the pairs that answer the search. -/
theorem isResponseOf_sentResponsesIn (trees : List AnnouncedTree) :
    List.Forall₂ (IsResponseOf texts date rootDevLocation (RoseTree.preorderIn trees))
      (sentResponsesIn texts date rootDevLocation ssdpCount ssdpPkt trees)
      (deviceSsdpMessageReceivedIn ssdpCount ssdpPkt (RoseTree.relabelIn LocatedDevice.toDeviceEntry
        (RoseTree.relabelIn AnnouncedDevice.toLocatedDevice trees))) := by
  induction trees using RoseTree.forest_induction with
  | nil => exact List.Forall₂.nil
  | cons dev devices rest ihDevices ihRest =>
    rw [sentResponsesIn, sentResponses, RoseTree.preorderIn_cons]
    refine List.rel_append (List.rel_append (forall₂_searchResponse List.mem_cons_self _)
      (ihDevices.imp fun _ _ ↦ IsResponseOf.mono ?_)) (ihRest.imp fun _ _ ↦ IsResponseOf.mono ?_)
    · exact fun other hother ↦ List.mem_cons_of_mem _ (List.mem_append_left _ hother)
    · exact fun other hother ↦ List.mem_cons_of_mem _ (List.mem_append_right _ hother)

theorem isResponseOf_sentResponses (root : AnnouncedTree) :
    List.Forall₂ (IsResponseOf texts date rootDevLocation root.preorder)
      (sentResponses texts date rootDevLocation ssdpCount ssdpPkt true root)
      (deviceSsdpMessageReceived ssdpCount ssdpPkt true (entries (located root))) := by
  obtain ⟨dev, devices⟩ := root
  rw [sentResponses, RoseTree.preorder_eq]
  refine List.rel_append (forall₂_searchResponse List.mem_cons_self _)
    ((isResponseOf_sentResponsesIn devices).imp fun _ _ ↦ IsResponseOf.mono ?_)
  exact List.subset_cons_self _ _

end Responses

/-! ### What is heard of the responses -/

/-- A response that can be written and fits the receive buffer. -/
structure IsResponseDatagram (ssdpRes : HttpResponse) : Prop where
  fields : ∀ header ∈ ssdpRes.headers, IsField header
  length : (ssdpResponseToString ssdpRes).length ≤ dgramRecvBufSize

instance (ssdpRes : HttpResponse) : Decidable (IsResponseDatagram ssdpRes) :=
  decidable_of_iff ((∀ header ∈ ssdpRes.headers, IsField header) ∧
      (ssdpResponseToString ssdpRes).length ≤ dgramRecvBufSize)
    ⟨fun h ↦ ⟨h.1, h.2⟩, fun h ↦ ⟨h.fields, h.length⟩⟩

/-- A thread hears responses, each at a time of its own. -/
def HearsResponses (responses : List HttpResponse) (heard : List (ReceivedPacket × ℤ)) : Prop :=
  ∃ ssdpPkt sender selected, ssdpPkt.headers = [] ∧
    heard.map Prod.fst = receiveThread ssdpPkt (responses.map fun ssdpRes ↦
      .received ⟨ssdpResponseToString ssdpRes, sender, selected⟩)

theorem isFirstLine_response : IsFirstLine "HTTP/1.1".toList "200 OK".toList :=
  ⟨⟨by decide, by decide⟩, by decide, ⟨by decide, by decide, by decide⟩⟩

/-- Every device of a tree has a name that comes back from what it advertises. -/
structure IsReadable (root : AnnouncedTree) : Prop where
  fits : ∀ owner ∈ owners (entries (located root)), Fits owner.1 owner.2
  readable : ∀ dev ∈ root.preorder, ReadableUdn dev.udn
  named : ∀ dev ∈ root.preorder, dev.udn ≠ []

section Heard

variable {texts : NotifyTexts} {date rootDevLocation : CString} {root : AnnouncedTree}

theorem mem_preorder_of_mem_owners {owner : Bool × DeviceEntry}
    (howner : owner ∈ owners (entries (located root))) :
    ∃ dev ∈ root.preorder, dev.toDeviceEntry = owner.2 := by
  have htree : owner.2 ∈ (entries (located root)).preorder := by
    rw [RoseTree.preorder_eq]
    rcases List.mem_cons.mp howner with rfl | hembedded
    · exact List.mem_cons_self
    · obtain ⟨dev, hdev, rfl⟩ := List.mem_map.mp hembedded
      exact List.mem_cons_of_mem _ hdev
  rw [entries, located, RoseTree.preorder_relabel, RoseTree.preorder_relabel, List.map_map] at htree
  obtain ⟨dev, hdev, hsame⟩ := List.mem_map.mp htree
  exact ⟨dev, hdev, hsame⟩

/-- The service name of an answer is that of a device of the tree. -/
theorem usnGetUdn_of_mem_answers (h : IsReadable root) {st : CString} {pair : SsdpPair}
    (hpair : pair ∈ answers st (entries (located root))) :
    ∃ owner ∈ root.preorder, usnGetUdn (some pair.2) udnLenMax = owner.udn := by
  obtain ⟨owner, howner, hidentity⟩ :=
    List.mem_flatMap.mp (mem_treeIdentities_of_mem_answers h.fits hpair)
  obtain ⟨dev, hdev, hsame⟩ := mem_preorder_of_mem_owners howner
  have hroom : owner.2.udn.length < udnLenMax := h.fits owner howner _ udn_mem_identities
  have hreadable : ReadableUdn owner.2.udn := hsame ▸ h.readable dev hdev
  exact ⟨dev, hdev, ((usnGetUdn_identities_iff hroom).mpr hreadable pair hidentity).trans
    (congrArg DeviceEntry.udn hsame.symm)⟩

/-- A response leads the control point to the location of the root device. -/
theorem response_values (h : IsReadable root) {st : CString} {pair : SsdpPair}
    (hpair : pair ∈ answers st (entries (located root))) (hne : rootDevLocation ≠ [])
    {dev : AnnouncedDevice} {ssdpPkt : SsdpPacket}
    (hheaders : ssdpPkt.headers = firstLineHeader "HTTP/1.1".toList "200 OK".toList ::
      responseHeaders texts date rootDevLocation dev pair) :
    ssdpPkt.getMaxAge = dev.leaseTime.bmod (2 ^ 32) ∧ ∃ owner ∈ root.preorder,
      ControlPoint.fetchTarget ssdpPkt = some (owner.udn, rootDevLocation) := by
  obtain ⟨owner, howner, hudn⟩ := usnGetUdn_of_mem_answers h hpair
  obtain ⟨localAddress, headers, timeStamp⟩ := ssdpPkt
  obtain rfl : headers = _ := hheaders
  constructor
  · have hlower := @Int.le_bmod dev.leaseTime (2 ^ 32) (by decide)
    have hupper := @Int.bmod_lt dev.leaseTime (2 ^ 32) (by decide)
    have hlong : longMax = 2 ^ 63 - 1 := rfl
    refine getMaxAge_leaseTimeText rfl ?_ ?_
    · omega
    · omega
  · refine ⟨owner, howner, ?_⟩
    have hlength : ¬ strlen (some owner.udn) ≤ 0 :=
      not_strlen_some_le_zero (h.named owner howner)
    have hurl : ¬ strlen (some rootDevLocation) ≤ 0 := not_strlen_some_le_zero hne
    have husn : SsdpPacket.getUsn ⟨localAddress, firstLineHeader "HTTP/1.1".toList
        "200 OK".toList :: responseHeaders texts date rootDevLocation dev pair, timeStamp⟩ =
          some pair.2 := rfl
    have hlocation : SsdpPacket.getLocation ⟨localAddress, firstLineHeader "HTTP/1.1".toList
        "200 OK".toList :: responseHeaders texts date rootDevLocation dev pair, timeStamp⟩ =
          some rootDevLocation := rfl
    unfold ControlPoint.fetchTarget
    rw [husn, hlocation, hudn]
    simp only [if_neg (not_or.mpr ⟨hlength, hurl⟩), Option.map_some]

/-- A heard packet leads to a location for a device of a tree, with the lease time of one. -/
def LeadsTo (root : AnnouncedTree) (location : CString) (heard : ReceivedPacket × ℤ) : Prop :=
  (∃ dev ∈ root.preorder,
      (heard.1.toSsdpPacket heard.2).getMaxAge = dev.leaseTime.bmod (2 ^ 32)) ∧
    ∃ owner ∈ root.preorder, ControlPoint.fetchTarget (heard.1.toSsdpPacket heard.2) =
      some (owner.udn, location)

/-- As many packets are heard as responses were sent, and each leads to the location of the root
device. -/
theorem responses_heard (h : IsReadable root) {st : CString} {responses : List HttpResponse}
    {pairs : List SsdpPair}
    (hpairs : List.Forall₂ (IsResponseOf texts date rootDevLocation root.preorder) responses pairs)
    (hanswers : ∀ pair ∈ pairs, pair ∈ answers st (entries (located root)))
    (hdatagram : ∀ ssdpRes ∈ responses, IsResponseDatagram ssdpRes) (hne : rootDevLocation ≠ [])
    {heard : List (ReceivedPacket × ℤ)} (hheard : HearsResponses responses heard) :
    heard.length = responses.length ∧ ∀ packet ∈ heard, LeadsTo root rootDevLocation packet := by
  obtain ⟨ssdpPkt, sender, selected, hclear, hpackets⟩ := hheard
  have htext : ∀ ssdpRes ∈ responses, ssdpResponseToString ssdpRes =
      messageText "HTTP/1.1".toList "200 OK".toList ssdpRes.headers := by
    intro ssdpRes hmem
    obtain ⟨pair, -, dev, -, rfl⟩ := exists_of_forall₂_left hpairs hmem
    exact ssdpResponseToString_searchResponse dev pair
  have hsent : (responses.map fun ssdpRes ↦
        Reception.received ⟨ssdpResponseToString ssdpRes, sender, selected⟩) =
      (responses.map fun ssdpRes ↦ ssdpRes.headers).map fun headers ↦ .received
        ⟨messageText "HTTP/1.1".toList "200 OK".toList headers, sender, selected⟩ := by
    rw [List.map_map]
    exact List.map_congr_left fun ssdpRes hmem ↦ by rw [htext ssdpRes hmem]; rfl
  have hmessages : ∀ headers ∈ responses.map fun ssdpRes ↦ ssdpRes.headers,
      (∀ header ∈ headers, IsField header) ∧
        (messageText "HTTP/1.1".toList "200 OK".toList headers).length ≤ dgramRecvBufSize := by
    intro headers hmem
    obtain ⟨ssdpRes, hres, rfl⟩ := List.mem_map.mp hmem
    exact ⟨(hdatagram ssdpRes hres).fields, htext ssdpRes hres ▸ (hdatagram ssdpRes hres).length⟩
  have hheaders := headers_receiveThread isFirstLine_response hmessages hclear sender selected
  rw [← hsent, ← hpackets, List.map_map, List.map_map] at hheaders
  constructor
  · simpa using congrArg List.length hheaders
  · intro packet hmem
    have hmap : packet.1.headers ∈ heard.map (ReceivedPacket.headers ∘ Prod.fst) :=
      List.mem_map_of_mem hmem
    rw [hheaders] at hmap
    obtain ⟨ssdpRes, hres, hsame⟩ := List.mem_map.mp hmap
    obtain ⟨pair, hpair, dev, hdev, rfl⟩ := exists_of_forall₂_left hpairs hres
    obtain ⟨hmaxAge, howner⟩ := response_values h (hanswers pair hpair) hne
      (show (packet.1.toSsdpPacket packet.2).headers = _ from hsame.symm)
    exact ⟨⟨dev, hdev, hmaxAge⟩, howner⟩

end Heard

/-! ### What the control point does -/

/-- The listener for responses is called with a packet at a time. -/
def responded (t : ThreadId) (heard : ReceivedPacket × ℤ) : Action :=
  .ssdpResponse t (heard.1.toSsdpPacket heard.2) heard.2 true

section Run

variable {root : AnnouncedTree} {location : CString} {t : ThreadId} {s : System}
  {before : List Device} {description : Device}

theorem step_responded (hidle : s.thread t = .idle) (heard : ReceivedPacket × ℤ) :
    s.step (responded t heard) =
      some (s.addDeviceBySsdpPacket t (heard.1.toSsdpPacket heard.2) heard.2 true) := by
  simp only [responded, System.step, hidle]

/-- Responses that lead to the location of a cached tree only renew its packet. -/
theorem run_responded (hquiet : IsQuiet t s) (haccounted : s.Accounted)
    (hunknown : ∀ dev ∈ root.preorder, IsUnknown dev.udn before)
    (hdeclares : ∀ dev ∈ root.preorder, Declares dev.udn description)
    {heard : List (ReceivedPacket × ℤ)} (hheard : ∀ packet ∈ heard, LeadsTo root location packet)
    (hcaches : ∃ dev ∈ root.preorder, ∃ time,
      Caches s.ctrlPoint before description location (dev.leaseTime.bmod (2 ^ 32)) time) :
    ∃ s', discovery.run s (heard.map (responded t)) = some s' ∧ IsQuiet t s' ∧
      ∃ dev ∈ root.preorder, ∃ time,
        Caches s'.ctrlPoint before description location (dev.leaseTime.bmod (2 ^ 32)) time := by
  induction heard generalizing s with
  | nil => exact ⟨s, rfl, hquiet, hcaches⟩
  | cons packet heard ih =>
    rw [List.forall_mem_cons] at hheard
    obtain ⟨⟨⟨dev, hdev, hmaxAge⟩, owner, howner, htarget⟩, hheard⟩ := hheard
    obtain ⟨_, -, time, hcaches⟩ := hcaches
    obtain ⟨s₁, hrun₁, hquiet₁, -, hcaches₁⟩ := run_renewed hquiet
      (step_responded hquiet.idle packet) htarget hcaches haccounted.live_nodup
      (hunknown owner howner) (hdeclares owner howner)
    rw [hmaxAge] at hcaches₁
    obtain ⟨s₂, hrun₂, hquiet₂, hcaches₂⟩ := ih hquiet₁ (System.accounted_of_run haccounted hrun₁)
      hheard ⟨dev, hdev, packet.2, hcaches₁⟩
    exact ⟨s₂, TransitionSystem.run_append_eq_some_iff.mpr ⟨s₁, hrun₁, hrun₂⟩, hquiet₂, hcaches₂⟩

/-- The first response adds the tree of an unknown root device, and the other ones renew it. -/
theorem run_discovered (hquiet : IsQuiet t s) (haccounted : s.Accounted)
    (hunknown : ∀ dev ∈ root.preorder, IsUnknown dev.udn s.ctrlPoint.deviceList)
    (hdeclares : ∀ dev ∈ root.preorder, Declares dev.udn description)
    (hudn : description.udn = some root.value.udn) (hnamed : root.value.udn ≠ [])
    (hfresh : s.ledger.Fresh (deviceIds [description])) {heard : List (ReceivedPacket × ℤ)}
    (hheard : ∀ packet ∈ heard, LeadsTo root location packet) (hne : heard ≠ [])
    (fetchTime now : ℤ) :
    ∃ s', discovery.run s (fetching (responded t) t description fetchTime now heard) = some s' ∧
      IsQuiet t s' ∧ ∃ dev ∈ root.preorder, ∃ time, Caches s'.ctrlPoint s.ctrlPoint.deviceList
        description location (dev.leaseTime.bmod (2 ^ 32)) time := by
  obtain ⟨first, rest, rfl⟩ := List.exists_cons_of_ne_nil hne
  rw [List.forall_mem_cons] at hheard
  obtain ⟨⟨⟨dev, hdev, hmaxAge⟩, owner, howner, htarget⟩, hheard⟩ := hheard
  have hroot : root.value ∈ root.preorder := by
    rw [RoseTree.preorder_eq]
    exact List.mem_cons_self
  obtain ⟨s₁, hrun₁, hquiet₁, -, hcaches₁⟩ := run_added hquiet (step_responded hquiet.idle first)
    htarget (hunknown owner howner) (hdeclares owner howner) hudn hnamed
    (hunknown root.value hroot) hfresh fetchTime now
  rw [hmaxAge] at hcaches₁
  obtain ⟨s₂, hrun₂, hquiet₂, hcaches₂⟩ := run_responded hquiet₁
    (System.accounted_of_run haccounted hrun₁) hunknown hdeclares hheard
    ⟨dev, hdev, fetchTime, hcaches₁⟩
  exact ⟨s₂, TransitionSystem.run_append_eq_some_iff.mpr ⟨s₁, hrun₁, hrun₂⟩, hquiet₂, hcaches₂⟩

end Run

/-- A search and its answers can be sent and heard: the request and every response fit, the names of
the tree come back, and the multicast address for IPv6 is one. -/
structure IsSearchable (texts : NotifyTexts) (date ifAddr localAddr target : CString) (mx : ℤ)
    (root : AnnouncedTree) : Prop where
  target_ne : target ≠ []
  mx_pos : 1 ≤ mx
  ipv6 : isIpv6Address (some texts.ipv6Address) = true
  request_fields : ∀ header ∈ searchHeaders texts ifAddr target mx, IsField header
  request_length : (ssdpRequestToString (searchRequest texts ifAddr target mx)).length ≤
    dgramRecvBufSize
  responses : ∀ pair ∈ answers target (entries (located root)), ∀ dev ∈ root.preorder,
    IsResponseDatagram
      (searchResponse texts date (root.value.getLocationUrl localAddr) dev pair)
  readable : IsReadable root

/-- **A search finds what answers it.** A control point that knows nothing of a device tree searches
for a target, and a device that has not seen the search hears it. The device answers if the target
names anything that the tree advertises, and then the control point ends up with the tree in its
cache, once, at the location of the root device, however many responses there are and whichever
devices they are about. Otherwise nothing is sent. -/
theorem search_discovers {texts : NotifyTexts} {date ifAddr localAddr target : CString} {mx : ℤ}
    {ssdpCount : ℕ} {root : AnnouncedTree}
    (h : IsSearchable texts date ifAddr localAddr target mx root)
    {devicePkt : ReceivedPacket} (hclear : devicePkt.headers = []) (sender : Option (CString × ℤ))
    (selected : Option CString) {deviceListener : Bool} {actions : List Action} {s : System}
    (hreach : discovery.run (System.init deviceListener) actions = some s) {t : ThreadId}
    (hquiet : IsQuiet t s)
    (hunknown : ∀ dev ∈ root.preorder, IsUnknown dev.udn s.ctrlPoint.deviceList)
    {description : Device} (hdeclares : ∀ dev ∈ root.preorder, Declares dev.udn description)
    (hudn : description.udn = some root.value.udn)
    (hfresh : s.ledger.Fresh (deviceIds [description])) {heard : List (ReceivedPacket × ℤ)}
    (hheard : HearsResponses (ssdpListener texts date localAddr ssdpCount root
      (toSearchRequest (devicePkt.recv
        ⟨ssdpRequestToString (searchRequest texts ifAddr target mx), sender, selected⟩)) false)
      heard) (fetchTime now : ℤ) :
    heard.length = ssdpCount * (answers target (entries (located root))).length ∧
      (heard ≠ [] → ∃ s', discovery.run s
          (fetching (responded t) t description fetchTime now heard) = some s' ∧ IsQuiet t s' ∧
        ∃ dev ∈ root.preorder, ∃ time, Caches s'.ctrlPoint s.ctrlPoint.deviceList description
          (root.value.getLocationUrl localAddr) (dev.leaseTime.bmod (2 ^ 32)) time) := by
  obtain ⟨haccepted, hst, -⟩ := heard_search h.request_fields h.request_length h.target_ne h.mx_pos
    h.ipv6 hclear sender selected
  rw [ssdpListener, if_pos haccepted] at hheard
  have hpairs := @isResponseOf_sentResponses texts date (root.value.getLocationUrl localAddr)
    ssdpCount (toSearchRequest (devicePkt.recv
      ⟨ssdpRequestToString (searchRequest texts ifAddr target mx), sender, selected⟩)) root
  rw [deviceSsdpMessageReceived_eq hst h.target_ne] at hpairs
  have hanswers : ∀ pair ∈ (answers target (entries (located root))).flatMap
      (List.replicate ssdpCount), pair ∈ answers target (entries (located root)) := by
    intro pair hpair
    obtain ⟨answer, hanswer, hrepeated⟩ := List.mem_flatMap.mp hpair
    exact List.eq_of_mem_replicate hrepeated ▸ hanswer
  have hdatagram : ∀ ssdpRes ∈ sentResponses texts date (root.value.getLocationUrl localAddr)
      ssdpCount (toSearchRequest (devicePkt.recv
        ⟨ssdpRequestToString (searchRequest texts ifAddr target mx), sender, selected⟩)) true root,
      IsResponseDatagram ssdpRes := by
    intro ssdpRes hmem
    obtain ⟨pair, hpair, dev, hdev, rfl⟩ := exists_of_forall₂_left hpairs hmem
    exact h.responses pair (hanswers pair hpair) dev hdev
  obtain ⟨hlength, hleads⟩ := responses_heard h.readable hpairs hanswers hdatagram
    (List.cons_ne_nil _ _) hheard
  refine ⟨?_, fun hne ↦ ?_⟩
  · rw [hlength, hpairs.length_eq, List.length_flatMap]
    simp [mul_comm]
  · exact run_discovered hquiet (System.accounted_of_run (System.accounted_init _) hreach) hunknown
      hdeclares hudn (h.readable.named root.value (by simp [RoseTree.preorder_eq])) hfresh hleads hne
      fetchTime now

theorem isSearchable_announcedRoot :
    IsSearchable announcedTexts "Thu, 01 Jan 1970 00:00:00 GMT".toList "10.0.0.2".toList
      "10.0.0.1".toList "ssdp:all".toList 3 announcedRoot where
  target_ne := by decide
  mx_pos := by decide
  ipv6 := by decide
  request_fields := by decide +kernel
  request_length := by decide +kernel
  responses := by decide +kernel
  readable := {
    fits := by decide +kernel
    readable := fun dev hdev ↦ by
      have hdevices : announcedRoot.preorder = [announcedRoot.value,
          ⟨⟨⟨"uuid:b".toList, "urn:e".toList, []⟩, "/description.xml".toList, 38400⟩, 1800, 1⟩] := rfl
      rw [hdevices] at hdev
      rcases List.mem_cons.mp hdev with rfl | hdev
      · exact ⟨by decide, by decide⟩
      · rw [List.mem_singleton.mp hdev]
        exact ⟨by decide, by decide⟩
    named := by decide +kernel }

/-- Responses that a new thread hears at a time. -/
def responsesAt (time : ℤ) (responses : List HttpResponse) : List (ReceivedPacket × ℤ) :=
  (receiveThread .new (responses.map fun ssdpRes ↦
    .received ⟨ssdpResponseToString ssdpRes, none, none⟩)).map fun ssdpPkt ↦ (ssdpPkt, time)

theorem hearsResponses_responsesAt (time : ℤ) (responses : List HttpResponse) :
    HearsResponses responses (responsesAt time responses) :=
  ⟨.new, none, none, rfl, by simp [responsesAt, List.map_map, Function.comp_def]⟩

/-- The packets that are heard of the answers to a search for everything. -/
def heardAnswers : List (ReceivedPacket × ℤ) :=
  responsesAt 0 (ssdpListener announcedTexts "Thu, 01 Jan 1970 00:00:00 GMT".toList
    "10.0.0.1".toList 3 announcedRoot (toSearchRequest (ReceivedPacket.new.recv
      ⟨ssdpRequestToString (searchRequest announcedTexts "10.0.0.2".toList "ssdp:all".toList 3),
        none, none⟩)) false)

theorem search_discovers_sample :
    heardAnswers.length = 18 ∧
      ∃ s', discovery.run (System.init true)
          (fetching (responded (.worker 0)) (.worker 0) rootDescription 1 2 heardAnswers) = some s' ∧
        IsQuiet (.worker 0) s' ∧ ∃ dev ∈ announcedRoot.preorder, ∃ time,
          Caches s'.ctrlPoint [] rootDescription "http://10.0.0.1:38400/description.xml".toList
            (dev.leaseTime.bmod (2 ^ 32)) time := by
  have hrun : discovery.run (System.init true) [] = some (System.init true) := rfl
  have hunknown : ∀ dev ∈ announcedRoot.preorder,
      IsUnknown dev.udn (System.init true).ctrlPoint.deviceList :=
    fun dev _ object hobject ↦ by cases hobject
  have hdeclares : ∀ dev ∈ announcedRoot.preorder, Declares dev.udn rootDescription := by
    unfold Declares
    decide +kernel
  have hheard : HearsResponses _ heardAnswers := hearsResponses_responsesAt 0 _
  obtain ⟨hlength, hcaches⟩ := search_discovers isSearchable_announcedRoot rfl none none hrun
    ⟨rfl, rfl, rfl⟩ hunknown hdeclares rfl (by decide) hheard 1 2
  have hcount : (answers "ssdp:all".toList (entries (located announcedRoot))).length = 6 := by
    decide +kernel
  rw [hcount] at hlength
  exact ⟨hlength, hcaches fun hnil ↦ by simp [hnil] at hlength⟩

end Mupnp.Advertisement
