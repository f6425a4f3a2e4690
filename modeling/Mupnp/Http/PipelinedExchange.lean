import Mathlib.Data.List.Forall2
import Mupnp.Http.BodilessMessage
import Mupnp.Http.ClientThread

/-!
# Exchanges over a connection

The poster of a request, `mupnp_http_request_post_main_status` of `http/http_request.c`, at the
other end of the connection that `mupnp_http_server_clientthread` serves. Requests that are posted
one behind the other, without waiting for the answers, are heard in their order as they were posted,
and the answers that the listener posts are read in the same order (`pipelined_exchange`). A poster
is given the response to its own request (`post_exchange`).
-/

set_option autoImplicit false
set_option relaxedAutoImplicit false

namespace Mupnp.Http

open Foundation Net Util

/-! ### Requests that are posted -/

/-- A request, the address that it is posted to, and the words of its first line. -/
structure Posting where
  httpReq : HttpRequest
  ipaddr : CString
  port : ℤ
  method : CString
  uri : CString

namespace Posting

/-- The request with the headers that the poster sets. -/
def sent (posting : Posting) : HttpRequest :=
  posting.httpReq.addressed posting.ipaddr posting.port

/-- The bytes that are posted. -/
def message (posting : Posting) : List Char :=
  (posting.httpReq.post posting.ipaddr posting.port).getD []

/-- The request is of the version 1.1 and can be written, with a body or without one. -/
def IsConforming (posting : Posting) : Prop :=
  IsRequest posting.sent posting.method posting.uri "HTTP/1.1".toList ∨
    IsBareRequest posting.sent posting.method posting.uri "HTTP/1.1".toList

/-- A request that was read is the one that was posted. -/
structure Arrives (posting : Posting) (httpReq : HttpRequest) : Prop where
  method : httpReq.method = some posting.method
  uri : httpReq.uri = some posting.uri
  version : httpReq.version = some "HTTP/1.1".toList
  headers : httpReq.headers = posting.sent.headers
  content : httpReq.content.getD [] = posting.httpReq.content.getD []

instance (posting : Posting) (httpReq : HttpRequest) : Decidable (posting.Arrives httpReq) :=
  decidable_of_iff (httpReq.method = some posting.method ∧ httpReq.uri = some posting.uri ∧
      httpReq.version = some "HTTP/1.1".toList ∧ httpReq.headers = posting.sent.headers ∧
      httpReq.content.getD [] = posting.httpReq.content.getD [])
    ⟨fun ⟨method, uri, version, headers, content⟩ ↦ ⟨method, uri, version, headers, content⟩,
      fun h ↦ ⟨h.method, h.uri, h.version, h.headers, h.content⟩⟩

/-- A request is written, and read by any object as it was written; what is behind it is left. -/
theorem IsConforming.exists_message {posting : Posting} (h : posting.IsConforming) :
    posting.httpReq.post posting.ipaddr posting.port = some posting.message ∧
      ∀ (fresh : HttpRequest) (sock : Socket) (rest : List Char),
        sock.content = posting.message ++ rest →
          ∃ (httpReq : HttpRequest) (later : Socket), fresh.read sock = (true, httpReq, later) ∧
            posting.Arrives httpReq ∧ later.content = rest := by
  have hmessage : ∀ message, posting.sent.message = some message →
      posting.httpReq.post posting.ipaddr posting.port = some message ∧
        posting.message = message := by
    intro message hsome
    have hpost : posting.httpReq.post posting.ipaddr posting.port = some message := hsome
    exact ⟨hpost, by rw [Posting.message, hpost, Option.getD_some]⟩
  rcases h with hframed | hbare
  · obtain ⟨message, hsome, hread⟩ := hframed.read
    obtain ⟨hpost, rfl⟩ := hmessage message hsome
    refine ⟨hpost, fun fresh sock rest hsock ↦ ?_⟩
    obtain ⟨httpReq, later, heq, hmethod, huri, hversion, hheaders, hcontent, hrest⟩ :=
      hread fresh sock rest hsock
    exact ⟨httpReq, later, heq, ⟨hmethod, huri, hversion, hheaders, hcontent⟩, hrest⟩
  · obtain ⟨message, hsome, hread⟩ := hbare.read
    obtain ⟨hpost, rfl⟩ := hmessage message hsome
    refine ⟨hpost, fun fresh sock rest hsock ↦ ?_⟩
    obtain ⟨httpReq, later, heq, hmethod, huri, hversion, hheaders, hnone, hrest⟩ :=
      hread fresh sock rest hsock
    have hcontent : httpReq.content.getD [] = posting.httpReq.content.getD [] := by
      have hempty : posting.httpReq.content = none := hbare.content
      rw [hnone, hempty]
    exact ⟨httpReq, later, heq, ⟨hmethod, huri, hversion, hheaders, hcontent⟩, hrest⟩

theorem IsConforming.method_eq {posting : Posting} (h : posting.IsConforming) :
    posting.httpReq.method = some posting.method := by
  rcases h with hframed | hbare
  · exact hframed.method_eq
  · exact hbare.method_eq

/-- The poster names the host. -/
theorem getHost_sent (posting : Posting) : posting.sent.getHost.isSome = true := by
  have hhost : posting.sent.getHost =
      some (hostHeaderValue posting.ipaddr posting.port) := by
    have hother : strcaseeq "User-Agent".toList "HOST".toList = false := by decide
    apply (headerListGetValue_set_of_ne _ hother _).trans
    exact headerListGetValue_set_self _ _ _
  rw [hhost]
  rfl

theorem Arrives.getHost {posting : Posting} {httpReq : HttpRequest} (h : posting.Arrives httpReq) :
    httpReq.getHost.isSome = true := by
  have hsame : httpReq.getHost = posting.sent.getHost := by
    unfold HttpRequest.getHost HttpPacket.getHeaderValue
    rw [h.headers]
  rw [hsame]
  exact posting.getHost_sent

theorem Arrives.isKeepAliveConnection {posting : Posting} {httpReq : HttpRequest}
    (h : posting.Arrives httpReq) :
    httpReq.isKeepAliveConnection = posting.sent.isKeepAliveConnection := by
  unfold HttpRequest.isKeepAliveConnection HttpPacket.getHeaderValue
  rw [h.headers]

end Posting

/-- Requests that were posted one behind the other are read one after the other. -/
theorem exists_requestsIn_eq {postings : List Posting} (h : ∀ posting ∈ postings,
    posting.IsConforming) (userAgent : CString) {bound : ℕ} (hbound : postings.length ≤ bound)
    {sock : Socket} {rest : List Char}
    (hsock : sock.content = postings.flatMap Posting.message ++ rest) :
    ∃ requests more, requestsIn userAgent bound sock = requests ++ more ∧
      List.Forall₂ Posting.Arrives postings requests := by
  induction postings generalizing bound sock with
  | nil => exact ⟨[], _, rfl, List.Forall₂.nil⟩
  | cons posting postings ih =>
    rw [List.length_cons] at hbound
    obtain ⟨bound, rfl⟩ := Nat.exists_eq_succ_of_ne_zero (by omega : bound ≠ 0)
    rw [List.flatMap_cons, List.append_assoc] at hsock
    obtain ⟨httpReq, later, hread, harrives, hlater⟩ :=
      (h posting List.mem_cons_self).exists_message.2 (HttpRequest.new userAgent) sock _ hsock
    obtain ⟨requests, more, hrequests, hall⟩ :=
      ih (fun other hother ↦ h other (List.mem_cons_of_mem _ hother))
        (Nat.le_of_succ_le_succ hbound) hlater
    refine ⟨httpReq :: requests, more, ?_, List.Forall₂.cons harrives hall⟩
    rw [requestsIn, hread]
    simp only [hrequests, List.cons_append]

/-! ### A listener that answers -/

/-- The thread of a server that runs on, with a listener that posts a response to each request and
leaves the request as it is. -/
def ClientThread.answering (answer : ℕ → HttpRequest → HttpResponse) (httpDate : ℕ → CString) :
    ClientThread where
  listener := some fun n httpReq ↦ ⟨((answer n httpReq).post (httpDate n)).getD [], httpReq⟩
  isRunnable _ := true
  isRunnableBehind _ := true
  httpDate := httpDate

/-- The turns over requests that keep the connection. -/
def ClientThread.turns (thread : ClientThread) : ℕ → List HttpRequest → List Turn
  | _, [] => []
  | n, httpReq :: rest => thread.turn n httpReq :: thread.turns (n + 1) rest

/-- A response that was read is the one that was posted. -/
structure HttpResponse.Arrives (httpRes read : HttpResponse) (httpDate : CString) : Prop where
  version : read.version = httpRes.version
  statusCode : read.statusCode = httpRes.statusCode
  reasonPhrase : read.reasonPhrase = httpRes.reasonPhrase
  headers : read.headers = (httpRes.dated httpDate).headers
  content : read.content.getD [] = httpRes.content.getD []

instance (httpRes read : HttpResponse) (httpDate : CString) :
    Decidable (httpRes.Arrives read httpDate) :=
  decidable_of_iff (read.version = httpRes.version ∧ read.statusCode = httpRes.statusCode ∧
      read.reasonPhrase = httpRes.reasonPhrase ∧
      read.headers = (httpRes.dated httpDate).headers ∧
      read.content.getD [] = httpRes.content.getD [])
    ⟨fun ⟨version, statusCode, reasonPhrase, headers, content⟩ ↦
        ⟨version, statusCode, reasonPhrase, headers, content⟩,
      fun h ↦ ⟨h.version, h.statusCode, h.reasonPhrase, h.headers, h.content⟩⟩

/-- The response can be written on a date. -/
def HttpResponse.IsConforming (httpRes : HttpResponse) (httpDate : CString) : Prop :=
  ∃ version reasonPhrase, IsResponse (httpRes.dated httpDate) version reasonPhrase

/-- A posted response is read by any object, and what is behind it is left. -/
theorem HttpResponse.IsConforming.read {httpRes : HttpResponse} {httpDate : CString}
    (h : httpRes.IsConforming httpDate) (fresh : HttpResponse) {sock : Socket} {rest : List Char}
    (hsock : sock.content = (httpRes.post httpDate).getD [] ++ rest) :
    ∃ (read : HttpResponse) (later : Socket), fresh.read sock false = (true, read, later) ∧
      httpRes.Arrives read httpDate ∧ later.content = rest := by
  obtain ⟨version, reasonPhrase, hres⟩ := h
  obtain ⟨message, hmessage, hread⟩ := hres.read
  have hpost : httpRes.post httpDate = some message := hmessage
  rw [hpost, Option.getD_some] at hsock
  obtain ⟨read, later, heq, hversion, hcode, hphrase, hheaders, hcontent, hrest⟩ :=
    hread fresh sock rest hsock
  exact ⟨read, later, heq, ⟨hversion.trans hres.version_eq.symm, hcode,
    hphrase.trans hres.reasonPhrase_eq.symm, hheaders, hcontent⟩, hrest⟩

/-- The responses that a reader reads from a stream one after the other, into an object of their
own each, and what is left. -/
def readResponses : ℕ → Socket → List HttpResponse × Socket
  | 0, sock => ([], sock)
  | count + 1, sock =>
    match HttpResponse.new.read sock false with
    | (false, _, later) => ([], later)
    | (true, httpRes, later) =>
      (httpRes :: (readResponses count later).1, (readResponses count later).2)

section Answering

variable {answer : ℕ → HttpRequest → HttpResponse} {httpDate : ℕ → CString}

theorem keepsRequest_answering : (ClientThread.answering answer httpDate).KeepsRequest := by
  constructor
  · intro listener hlistener n httpReq
    obtain rfl := Option.some.inj hlistener
    rfl
  · intro listener hlistener n httpReq
    obtain rfl := Option.some.inj hlistener
    rfl

/-- A posted request is heard, and it is the last one if it closes the connection. -/
theorem turn_answering {posting : Posting} {httpReq : HttpRequest}
    (h : posting.Arrives httpReq) (n : ℕ) :
    (ClientThread.answering answer httpDate).turn n httpReq =
      { request := httpReq
        isHeard := true
        written := ((answer n httpReq).post (httpDate n)).getD []
        left := httpReq
        isLast := !posting.sent.isKeepAliveConnection } := by
  have hhost : httpReq.getHost.isNone = false := by
    rw [← Option.not_isSome, h.getHost]
    rfl
  have hversion : streq httpReq.version (some "HTTP/1.0".toList) = false := by
    rw [h.version]
    decide
  rw [ClientThread.turn, hhost, Bool.and_false, if_neg Bool.false_ne_true]
  simp only [ClientThread.answering, hversion, Option.isSome_some, Bool.not_true, Bool.and_false,
    Bool.false_or, h.isKeepAliveConnection]

/-- Requests of which none but the last closes the connection are all served. -/
theorem turns_prefix_serve {postings : List Posting} {requests : List HttpRequest}
    (harrive : List.Forall₂ Posting.Arrives postings requests)
    (hkeep : ∀ posting ∈ postings.dropLast, posting.sent.isKeepAliveConnection = true) (n : ℕ)
    (more : List HttpRequest) :
    (ClientThread.answering answer httpDate).turns n requests <+:
      (ClientThread.answering answer httpDate).serve n (requests ++ more) := by
  induction harrive generalizing n with
  | nil => exact List.nil_prefix
  | @cons posting httpReq postings requests hfirst hrest ih =>
    have hlast : ((ClientThread.answering answer httpDate).turn n httpReq).isLast =
        !posting.sent.isKeepAliveConnection := by
      rw [turn_answering hfirst n]
    have hrunnable : (ClientThread.answering answer httpDate).isRunnable n = true := rfl
    rw [ClientThread.turns, List.cons_append, ClientThread.serve, hrunnable,
      if_neg (by decide)]
    simp only [hlast]
    cases hrest with
    | nil =>
      split_ifs
      · exact List.prefix_rfl
      · exact List.cons_prefix_cons.mpr ⟨rfl, List.nil_prefix⟩
    | @cons next second postings requests hsecond hrest =>
      have hopen : posting.sent.isKeepAliveConnection = true := hkeep posting List.mem_cons_self
      rw [hopen, Bool.not_true, if_neg Bool.false_ne_true]
      exact List.cons_prefix_cons.mpr
        ⟨rfl, ih (fun other hother ↦ hkeep other (List.mem_cons_of_mem _ hother)) (n + 1)⟩

/-- What the turns write is read as the answers, one after the other. -/
theorem exists_readResponses_eq {postings : List Posting} {requests : List HttpRequest}
    (harrive : List.Forall₂ Posting.Arrives postings requests) (n : ℕ)
    (hanswer : ∀ posting ∈ postings, ∀ (n : ℕ) (httpReq : HttpRequest), posting.Arrives httpReq →
      (answer n httpReq).IsConforming (httpDate n))
    {sock : Socket} {rest : List Char}
    (hsock : sock.content = ((ClientThread.answering answer httpDate).turns n requests).flatMap
      Turn.written ++ rest) :
    ∃ responses later, readResponses requests.length sock = (responses, later) ∧
      later.content = rest ∧ responses.length = requests.length ∧
      ∀ (i : ℕ) (httpReq : HttpRequest) (httpRes : HttpResponse), requests[i]? = some httpReq →
        responses[i]? = some httpRes →
          (answer (n + i) httpReq).Arrives httpRes (httpDate (n + i)) := by
  induction harrive generalizing n sock with
  | nil => exact ⟨[], sock, rfl, hsock, rfl, fun i httpReq httpRes h ↦ by simp at h⟩
  | @cons posting httpReq postings requests hfirst hrest ih =>
    rw [ClientThread.turns, List.flatMap_cons, turn_answering hfirst n, List.append_assoc] at hsock
    obtain ⟨httpRes, next, hread, hres, hnext⟩ :=
      (hanswer posting List.mem_cons_self n httpReq hfirst).read HttpResponse.new hsock
    obtain ⟨responses, later, hreads, hlater, hlength, hall⟩ := ih (n + 1)
      (fun other hother ↦ hanswer other (List.mem_cons_of_mem _ hother)) hnext
    refine ⟨httpRes :: responses, later, ?_, hlater, by simp [hlength], ?_⟩
    · rw [List.length_cons, readResponses, hread]
      simp only [hreads]
    · intro i request response hrequest hresponse
      cases i with
      | zero =>
        obtain rfl : httpReq = request := by simpa using hrequest
        obtain rfl : httpRes = response := by simpa using hresponse
        exact hres
      | succ i =>
        rw [List.getElem?_cons_succ] at hrequest hresponse
        have harrives := hall i request response hrequest hresponse
        rw [show n + (i + 1) = n + 1 + i by omega]
        exact harrives

theorem isHeard_of_mem_turns {postings : List Posting} {requests : List HttpRequest}
    (harrive : List.Forall₂ Posting.Arrives postings requests) (n : ℕ) :
    ∀ turn ∈ (ClientThread.answering answer httpDate).turns n requests, turn.isHeard = true := by
  induction harrive generalizing n with
  | nil => exact fun turn hturn ↦ absurd hturn List.not_mem_nil
  | cons hfirst hrest ih =>
    intro turn hturn
    rw [ClientThread.turns, List.mem_cons] at hturn
    rcases hturn with rfl | hturn
    · rw [turn_answering hfirst n]
    · exact ih (n + 1) turn hturn

theorem turns_request (thread : ClientThread) (n : ℕ) (requests : List HttpRequest) :
    (thread.turns n requests).map Turn.request = requests := by
  induction requests generalizing n with
  | nil => rfl
  | cons httpReq requests ih =>
    have hrequest : (thread.turn n httpReq).request = httpReq := by
      unfold ClientThread.turn
      split_ifs <;> rfl
    rw [ClientThread.turns, List.map_cons, hrequest, ih (n + 1)]

/-- A message is not empty. -/
theorem length_le_flatMap_message {postings : List Posting}
    (hconforming : ∀ posting ∈ postings, posting.IsConforming) :
    postings.length ≤ (postings.flatMap Posting.message).length := by
  induction postings with
  | nil => exact Nat.le_refl _
  | cons posting postings ih =>
    have hrest := ih fun other hother ↦ hconforming other (List.mem_cons_of_mem _ hother)
    obtain ⟨httpReq, later, hread, -, -⟩ :=
      (hconforming posting List.mem_cons_self).exists_message.2 (HttpRequest.new [])
        ⟨[posting.message]⟩ [] rfl
    have hlt := HttpRequest.length_read_lt
      (show ((HttpRequest.new []).read ⟨[posting.message]⟩).1 = true by rw [hread])
    have hcontent : (⟨[posting.message]⟩ : Socket).content = posting.message := by
      simp [SegmentedStream.content]
    rw [hcontent] at hlt
    rw [List.flatMap_cons, List.length_cons, List.length_append]
    omega

/-- **A pipeline of requests is answered in order.** Requests that are posted one behind the other
over a connection, of which none but the last closes it, come to the listener in their order and as
they were posted, however the stream is cut; and one reader reads the answers in the same order as
the listener posted them. -/
theorem pipelined_exchange (userAgent : CString) (postings : List Posting)
    (hconforming : ∀ posting ∈ postings, posting.IsConforming)
    (hkeep : ∀ posting ∈ postings.dropLast, posting.sent.isKeepAliveConnection = true)
    (hanswer : ∀ posting ∈ postings, ∀ (n : ℕ) (httpReq : HttpRequest), posting.Arrives httpReq →
      (answer n httpReq).IsConforming (httpDate n))
    (sock : Socket) (rest : List Char)
    (hsock : sock.content = postings.flatMap Posting.message ++ rest) :
    ∃ turns more, (ClientThread.answering answer httpDate).run userAgent sock = turns ++ more ∧
      List.Forall₂ Posting.Arrives postings (turns.map Turn.request) ∧
      (∀ turn ∈ turns, turn.isHeard = true) ∧
      ∀ (peer : Socket) (behind : List Char),
        peer.content = turns.flatMap Turn.written ++ behind →
          ∃ responses later, readResponses postings.length peer = (responses, later) ∧
            later.content = behind ∧ responses.length = postings.length ∧
            ∀ (i : ℕ) (turn : Turn) (httpRes : HttpResponse), turns[i]? = some turn →
              responses[i]? = some httpRes →
                (answer i turn.request).Arrives httpRes (httpDate i) := by
  have hlong : postings.length ≤ sock.content.length + 1 := by
    have hlength := length_le_flatMap_message hconforming
    rw [hsock, List.length_append]
    omega
  obtain ⟨requests, rest', hrequests, harrive⟩ :=
    exists_requestsIn_eq hconforming userAgent hlong hsock
  obtain ⟨more, hmore⟩ :=
    @turns_prefix_serve answer httpDate postings requests harrive hkeep 0 rest'
  refine ⟨(ClientThread.answering answer httpDate).turns 0 requests, more, ?_, ?_, ?_, ?_⟩
  · rw [ClientThread.run_eq keepsRequest_answering userAgent sock, receivedRequests,
      hrequests]
    exact hmore.symm
  · rw [turns_request]
    exact harrive
  · exact isHeard_of_mem_turns harrive 0
  · intro peer behind hpeer
    obtain ⟨responses, later, hreads, hlater, hlength, hall⟩ :=
      exists_readResponses_eq harrive 0 hanswer hpeer
    refine ⟨responses, later, ?_, hlater, ?_, ?_⟩
    · rw [harrive.length_eq, hreads]
    · rw [harrive.length_eq, hlength]
    · intro i turn httpRes hturn hresponse
      have hrequest : requests[i]? = some turn.request := by
        rw [← turns_request _ 0 requests, List.getElem?_map, hturn, Option.map_some]
      have harrives := hall i turn.request httpRes hrequest hresponse
      rwa [Nat.zero_add] at harrives

/-! ### The poster -/

/-- `mupnp_http_request_post_main_status`: the response of the request, and whether it was received.
`peer` is what comes back over the connection when a message is written to it; there is none when
connecting fails. -/
def postMainStatus (httpReq : HttpRequest) (httpRes : HttpResponse) (ipaddr : CString) (port : ℤ)
    (peer : Option (List Char → Socket)) : HttpResponse × Bool :=
  match peer, httpReq.post ipaddr port with
  | some peer, some message =>
    match httpRes.clear.read (peer message) (streq httpReq.method (some "HEAD".toList)) with
    | (true, httpRes, _) => (httpRes, true)
    | (false, httpRes, _) => (httpRes.clear, false)
  | _, _ => (httpRes.clear, false)

/-- The request that is posted over a connection is the first one that is answered. -/
theorem exists_written_eq (userAgent : CString) {posting : Posting}
    (hconforming : posting.IsConforming) {sock : Socket} (hsock : sock.content = posting.message) :
    ∃ received more, posting.Arrives received ∧
      ((ClientThread.answering answer httpDate).run userAgent sock).flatMap Turn.written =
        ((answer 0 received).post (httpDate 0)).getD [] ++ more := by
  obtain ⟨requests, rest, hrequests, harrive⟩ := exists_requestsIn_eq
    (List.forall_mem_singleton.mpr hconforming) userAgent (Nat.le_add_left 1 _)
    (show sock.content = [posting].flatMap Posting.message ++ [] by simp [hsock])
  obtain ⟨received, none, hreceived, hnone, rfl⟩ := List.forall₂_cons_left_iff.mp harrive
  obtain rfl := List.forall₂_nil_left_iff.mp hnone
  obtain ⟨more, hmore⟩ := @turns_prefix_serve answer httpDate [posting] [received] harrive
    (fun _ hmem ↦ absurd hmem List.not_mem_nil) 0 rest
  have hrun : (ClientThread.answering answer httpDate).run userAgent sock =
      (ClientThread.answering answer httpDate).turns 0 [received] ++ more := by
    rw [ClientThread.run_eq keepsRequest_answering userAgent sock, receivedRequests,
      hrequests]
    exact hmore.symm
  refine ⟨received, more.flatMap Turn.written, hreceived, ?_⟩
  rw [hrun, List.flatMap_append, ClientThread.turns, ClientThread.turns,
    turn_answering hreceived 0, List.flatMap_singleton]

/-- A poster reads the first response that comes back. -/
theorem exists_postMainStatus_eq {posting : Posting} (hconforming : posting.IsConforming)
    (hhead : posting.method ≠ "HEAD".toList) {posted : HttpResponse} {date : CString}
    (hposted : posted.IsConforming date) {peer : List Char → Socket} {more : List Char}
    (hpeer : (peer posting.message).content = (posted.post date).getD [] ++ more)
    (httpRes : HttpResponse) :
    ∃ read, postMainStatus posting.httpReq httpRes posting.ipaddr posting.port (some peer) =
        (read, true) ∧ posted.Arrives read date := by
  obtain ⟨read, later, hread, hres, -⟩ := hposted.read httpRes.clear hpeer
  refine ⟨read, ?_, hres⟩
  have hmethod : streq posting.httpReq.method (some "HEAD".toList) = false := by
    rw [hconforming.method_eq, ← Bool.not_eq_true, streq_some_some]
    exact hhead
  unfold postMainStatus
  rw [hconforming.exists_message.1, hmethod]
  simp only [hread]

/-- A connection to a server: over it comes back what the server writes for a message, which begins
with the response to the first request in the message. The streams may be cut anywhere. -/
def IsServedBy (response : HttpRequest → Option HttpResponse) (peer : List Char → Socket) : Prop :=
  ∃ (answer : ℕ → HttpRequest → HttpResponse) (httpDate : ℕ → CString) (userAgent : CString),
    IsHeader "Date".toList (httpDate 0) ∧
    (∀ httpReq httpRes, response httpReq = some httpRes → answer 0 httpReq = httpRes) ∧
    ∀ message, ∃ sock : Socket, sock.content = message ∧ (peer message).content =
      ((ClientThread.answering answer httpDate).run userAgent sock).flatMap Turn.written

/-- What comes back for a request that is posted to a server. -/
theorem IsServedBy.exists_written {response : HttpRequest → Option HttpResponse}
    {peer : List Char → Socket} (h : IsServedBy response peer) {posting : Posting}
    (hconforming : posting.IsConforming) :
    ∃ (received : HttpRequest) (httpDate : CString) (more : List Char),
      IsHeader "Date".toList httpDate ∧ posting.Arrives received ∧
      ∀ httpRes, response received = some httpRes →
        (peer posting.message).content = (httpRes.post httpDate).getD [] ++ more := by
  obtain ⟨answer, httpDate, userAgent, hdate, hanswer, hpeer⟩ := h
  obtain ⟨sock, hsock, hback⟩ := hpeer posting.message
  obtain ⟨received, more, harrives, hwritten⟩ :=
    @exists_written_eq answer httpDate userAgent posting hconforming sock hsock
  refine ⟨received, httpDate 0, more, hdate, harrives, fun httpRes hsome ↦ ?_⟩
  rw [hback, hwritten, hanswer received httpRes hsome]

/-- The status code that a poster reads of a response whose first line comes back, whatever is behind
it: when the rest is not read, the code is that of a server error. -/
theorem statusCode_postMainStatus {posting : Posting} (hconforming : posting.IsConforming)
    {version reasonPhrase : CString} {code : ℤ} (hversion : IsToken version)
    (hcode : -2 ^ 31 ≤ code ∧ code < 2 ^ 31) (hne : reasonPhrase ≠ [])
    (hreason : IsTrimmed " ".toList reasonPhrase)
    (hline : (version ++ " ".toList ++ long2str code ++ " ".toList ++ reasonPhrase ++
      "\r\n".toList).length < readlineBufSize) {peer : List Char → Socket} {rest : List Char}
    (hpeer : (peer posting.message).content = version ++ " ".toList ++ long2str code ++
      " ".toList ++ reasonPhrase ++ "\r\n".toList ++ rest) (httpRes : HttpResponse) :
    (postMainStatus posting.httpReq httpRes posting.ipaddr posting.port (some peer)).1.statusCode =
        code ∨
      (postMainStatus posting.httpReq httpRes posting.ipaddr posting.port
        (some peer)).1.statusCode = 500 := by
  have hread := statusCode_read hversion hcode hne hreason hline hpeer httpRes.clear
    (streq posting.httpReq.method (some "HEAD".toList))
  unfold postMainStatus
  rw [hconforming.exists_message.1]
  dsimp only
  rcases hres : httpRes.clear.read (peer posting.message)
    (streq posting.httpReq.method (some "HEAD".toList)) with ⟨complete, read, later⟩
  rw [hres] at hread
  cases complete with
  | true => exact Or.inl hread
  | false => exact Or.inr rfl

/-- **A poster is given the response to its request.** What comes back over the connection may be
cut anywhere, and the object for the response may hold anything of a response before. -/
theorem post_exchange (userAgent : CString) (posting : Posting)
    (hconforming : posting.IsConforming) (hhead : posting.method ≠ "HEAD".toList)
    (hanswer : ∀ (n : ℕ) (httpReq : HttpRequest), posting.Arrives httpReq →
      (answer n httpReq).IsConforming (httpDate n))
    (peer : List Char → Socket)
    (hpeer : ∀ message, ∃ sock : Socket, sock.content = message ∧ (peer message).content =
      ((ClientThread.answering answer httpDate).run userAgent sock).flatMap Turn.written)
    (httpRes : HttpResponse) :
    ∃ (received : HttpRequest) (read : HttpResponse), posting.Arrives received ∧
      postMainStatus posting.httpReq httpRes posting.ipaddr posting.port (some peer) =
        (read, true) ∧ (answer 0 received).Arrives read (httpDate 0) := by
  obtain ⟨sock, hsock, hback⟩ := hpeer posting.message
  obtain ⟨received, more, hreceived, hwritten⟩ :=
    @exists_written_eq answer httpDate userAgent posting hconforming sock hsock
  obtain ⟨read, hread, hres⟩ := exists_postMainStatus_eq hconforming hhead
    (hanswer 0 received hreceived) (hback.trans hwritten) httpRes
  exact ⟨received, read, hreceived, hread, hres⟩

end Answering

/-- A request that is posted to an address. -/
def examplePosting : Posting :=
  ⟨exampleRequest, "10.0.0.1".toList, 80, "POST".toList, "/control".toList⟩

theorem isConforming_exampleResponse (httpReq : HttpRequest) :
    examplePosting.Arrives httpReq → exampleResponse.IsConforming "now".toList :=
  fun _ ↦ ⟨_, _, isResponse_exampleResponse⟩

/-- Two requests that are posted one behind the other. -/
theorem pipelined_exchange_two :
    ∃ turns more,
      (ClientThread.answering (fun _ _ ↦ exampleResponse) fun _ ↦ "now".toList).run "test".toList
        ⟨[examplePosting.message, examplePosting.message]⟩ = turns ++ more ∧
      List.Forall₂ Posting.Arrives [examplePosting, examplePosting] (turns.map Turn.request) ∧
      (∀ turn ∈ turns, turn.isHeard = true) ∧
      ∀ (peer : Socket) (behind : List Char),
        peer.content = turns.flatMap Turn.written ++ behind →
          ∃ responses later, readResponses 2 peer = (responses, later) ∧ later.content = behind ∧
            responses.length = 2 ∧ ∀ (i : ℕ) (turn : Turn) (httpRes : HttpResponse),
              turns[i]? = some turn → responses[i]? = some httpRes →
                exampleResponse.Arrives httpRes "now".toList :=
  pipelined_exchange "test".toList [examplePosting, examplePosting]
    (fun posting hmem ↦ by
      obtain rfl : posting = examplePosting := by simpa using hmem
      exact Or.inl isRequest_exampleRequest)
    (fun posting hmem ↦ by
      obtain rfl : posting = examplePosting := by simpa using hmem
      decide +kernel)
    (fun posting hmem _ httpReq ↦ by
      obtain rfl : posting = examplePosting := by simpa using hmem
      exact isConforming_exampleResponse httpReq)
    ⟨[examplePosting.message, examplePosting.message]⟩ [] (by simp [SegmentedStream.content])

/-- A request whose connection is served in one segment each way. -/
theorem post_exchange_one :
    ∃ (received : HttpRequest) (read : HttpResponse), examplePosting.Arrives received ∧
      postMainStatus exampleRequest HttpResponse.new "10.0.0.1".toList 80
          (some fun message ↦ ⟨[((ClientThread.answering (fun _ _ ↦ exampleResponse)
            fun _ ↦ "now".toList).run "test".toList ⟨[message]⟩).flatMap Turn.written]⟩) =
        (read, true) ∧ exampleResponse.Arrives read "now".toList :=
  post_exchange "test".toList examplePosting (Or.inl isRequest_exampleRequest) (by decide)
    (fun _ httpReq ↦ isConforming_exampleResponse httpReq) _
    (fun message ↦ ⟨⟨[message]⟩, by simp [SegmentedStream.content],
      by simp [SegmentedStream.content]⟩) HttpResponse.new

end Mupnp.Http
