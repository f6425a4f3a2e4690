import Mupnp.Http.HttpRoundTrip
import Mupnp.Http.StreamConsumption

/-!
# The thread that serves a connection

`mupnp_http_server_clientthread` of `http/http_server.c` reads one request after the other from a
connection, all into the same object, and hands each to the listener of the server. A request of the
version 1.1 without a host is answered with the status 400 and not heard. The loop ends when a
request is not read, when the thread is stopped, behind a request of the version 1.0, and behind a
request whose header `Connection` says `close`.

`Serve` is what such a thread is for: a server over a list of requests that came apart, each in an
object of its own. The thread refines it over every stream of bytes (`run_eq_serve`), and it ends by
itself. What requesters have posted one behind the other is therefore heard in order, and what the
listener posts is read in the same order (`pipelined_exchange`).

The listener may leave anything in the method, the target, the headers and the content of the object
(`KeepsRequest`). The thread takes a pointer to the version before it calls the listener and compares
it again behind the call, and it answers through the socket of the object: a listener that sets the
version frees what the pointer points to, and one that sets the socket sends later answers elsewhere.
Such listeners are left out, and so is that writing to the socket can fail.
-/

set_option autoImplicit false
set_option relaxedAutoImplicit false

namespace Mupnp.Http

open Foundation Net Util

/-! ### Answers without a body -/

/-- The response that `mupnp_http_request_poststatuscode` makes. -/
def HttpResponse.ofStatusCode (httpStatCode : ℤ) : HttpResponse :=
  let coded := HttpResponse.new.setStatusCode httpStatCode
  { coded with toHttpPacket := coded.toHttpPacket.setContentLength 0 }

/-- `mupnp_http_request_poststatuscode`, with the date of the moment. -/
def postStatusCode (httpStatCode : ℤ) (httpDate : CString) : Option (List Char) :=
  (HttpResponse.ofStatusCode httpStatCode).post httpDate

/-! ### The thread -/

/-- `mupnp_http_request_iskeepaliveconnection`. -/
def HttpRequest.isKeepAliveConnection (httpReq : HttpRequest) : Bool :=
  match httpReq.toHttpPacket.getHeaderValue "Connection".toList with
  | some connection => !strcaseeq connection "close".toList
  | none => true

/-- `mupnp_http_request_gethost`. -/
def HttpRequest.getHost (httpReq : HttpRequest) : Option CString :=
  httpReq.toHttpPacket.getHeaderValue "HOST".toList

/-- What a listener writes to the connection, and how it leaves the request. It leaves the socket of
the request, which is not part of `HttpRequest`. -/
structure ListenerRun where
  written : List Char
  left : HttpRequest

/-- What a client thread meets at each turn of its loop: the listener of its server, whether the
thread is runnable at the head of the loop and behind the listener, and the date. -/
structure ClientThread where
  listener : Option (ℕ → HttpRequest → ListenerRun)
  isRunnable : ℕ → Bool
  isRunnableBehind : ℕ → Bool
  httpDate : ℕ → CString

/-- What a turn of the loop does with a request. -/
structure Turn where
  request : HttpRequest
  isHeard : Bool
  written : List Char
  left : HttpRequest
  isLast : Bool

namespace ClientThread

/-- The body of the loop for a request that was read. The version that is compared behind the listener
is the one that was read: the listener has not set it. -/
def turn (thread : ClientThread) (n : ℕ) (httpReq : HttpRequest) : Turn :=
  if streq httpReq.version (some "HTTP/1.1".toList) && httpReq.getHost.isNone then
    { request := httpReq
      isHeard := false
      written := (postStatusCode 400 (thread.httpDate n)).getD []
      left := httpReq
      isLast := false }
  else
    let run := match thread.listener with
      | some listener => listener n httpReq
      | none => ⟨[], httpReq⟩
    { request := httpReq
      isHeard := thread.listener.isSome
      written := run.written
      left := run.left
      isLast := (thread.listener.isSome && !thread.isRunnableBehind n) ||
        streq httpReq.version (some "HTTP/1.0".toList) || !run.left.isKeepAliveConnection }

/-- The loop of `mupnp_http_server_clientthread`; `bound` bounds the number of turns. -/
def loop (thread : ClientThread) : ℕ → ℕ → HttpRequest → Socket → List Turn × Socket
  | 0, _, _, sock => ([], sock)
  | bound + 1, n, httpReq, sock =>
    match httpReq.read sock with
    | (false, _, later) => ([], later)
    | (true, httpReq, later) =>
      if thread.isRunnable n = false then ([], later)
      else
        let turn := thread.turn n httpReq
        if turn.isLast then ([turn], later)
        else
          let (turns, final) := loop thread bound (n + 1) turn.left later
          (turn :: turns, final)

/-- `mupnp_http_server_clientthread`: the turns over a connection, with the user agent of the
library. -/
def run (thread : ClientThread) (userAgent : CString) (sock : Socket) : List Turn :=
  (thread.loop (sock.content.length + 1) 0 (HttpRequest.new userAgent) sock).1

/-! ### Requests that come apart -/

/-- A server over a list of requests. -/
def serve (thread : ClientThread) : ℕ → List HttpRequest → List Turn
  | _, [] => []
  | n, httpReq :: rest =>
    if thread.isRunnable n = false then []
    else
      let turn := thread.turn n httpReq
      if turn.isLast then [turn] else turn :: serve thread (n + 1) rest

/-- The listener sets neither the user agent of the object, which the object keeps when the next
request is read, nor the version, to which the thread holds a pointer. -/
structure KeepsRequest (thread : ClientThread) : Prop where
  userAgent : ∀ listener ∈ thread.listener, ∀ (n : ℕ) (httpReq : HttpRequest),
    (listener n httpReq).left.userAgent = httpReq.userAgent
  version : ∀ listener ∈ thread.listener, ∀ (n : ℕ) (httpReq : HttpRequest),
    (listener n httpReq).left.version = httpReq.version

end ClientThread

/-- The requests of a stream, each read into an object of its own; `bound` bounds their number. -/
def requestsIn (userAgent : CString) : ℕ → Socket → List HttpRequest
  | 0, _ => []
  | bound + 1, sock =>
    match (HttpRequest.new userAgent).read sock with
    | (false, _, _) => []
    | (true, httpReq, later) => httpReq :: requestsIn userAgent bound later

/-- The requests of a stream, up to the first that is not read. -/
def receivedRequests (userAgent : CString) (sock : Socket) : List HttpRequest :=
  requestsIn userAgent (sock.content.length + 1) sock

/-! ### An object that is read into again -/

namespace HttpRequest

/-- A first line of a request that is read has all its words. -/
theorem firstLine_of_read {httpReq : HttpRequest} {sock : Socket}
    (h : (httpReq.read sock).1 = true) :
    (firstLine sock).method.isSome = true ∧ (firstLine sock).uri.isSome = true ∧
      (firstLine sock).version.isSome = true := by
  unfold HttpRequest.read at h
  unfold firstLine
  rcases hfirst : readFirstLine (sock.content.length + 1) sock with ⟨result, later⟩
  rw [hfirst] at h
  cases result with
  | none => cases h
  | some line =>
    have hcomplete := setFirstLine_snd httpReq.clear (bufferString line)
    simp only at h ⊢
    by_cases hfail : (httpReq.clear.setFirstLine (bufferString line)).2 = false
    · rw [if_pos hfail] at h
      cases h
    · rw [Bool.not_eq_false, hcomplete, Bool.and_eq_true, Bool.and_eq_true, and_assoc] at hfail
      exact hfail

/-- Whether a request is read, and what it takes of the stream, does not depend on the object. -/
theorem read_eq_of_read {httpReq httpReq' : HttpRequest} {sock : Socket}
    (hagent : httpReq.userAgent = httpReq'.userAgent) (h : (httpReq.read sock).1 = true) :
    httpReq.read sock = httpReq'.read sock := by
  obtain ⟨hmethod, huri, hversion⟩ := firstLine_of_read h
  exact (read_eq_iff httpReq httpReq' sock hagent).mpr
    ⟨Or.inl hmethod, Or.inl huri, Or.inl hversion⟩

theorem userAgent_read (httpReq : HttpRequest) (sock : Socket) :
    (httpReq.read sock).2.1.userAgent = httpReq.userAgent := (read_fields httpReq sock).1

end HttpRequest

namespace ClientThread

variable {thread : ClientThread}

theorem userAgent_turn (hkeeps : thread.KeepsRequest) (n : ℕ) (httpReq : HttpRequest) :
    (thread.turn n httpReq).left.userAgent = httpReq.userAgent := by
  unfold turn
  split_ifs
  · rfl
  · cases hlistener : thread.listener with
    | none => rfl
    | some listener => exact hkeeps.userAgent listener hlistener n httpReq

/-- The turns from any object that has the user agent of the library. -/
theorem loop_eq_serve (hkeeps : thread.KeepsRequest) (userAgent : CString) {bound : ℕ} (n : ℕ)
    {httpReq : HttpRequest} (hagent : httpReq.userAgent = some userAgent) {sock : Socket} :
    (thread.loop bound n httpReq sock).1 = thread.serve n (requestsIn userAgent bound sock) := by
  induction bound generalizing n httpReq sock with
  | zero => rfl
  | succ bound ih =>
    have hfresh : httpReq.userAgent = (HttpRequest.new userAgent).userAgent := hagent
    rw [loop, requestsIn]
    rcases hread : (HttpRequest.new userAgent).read sock with ⟨complete, received, later⟩
    cases complete with
    | false =>
      -- A request that a fresh object does not read is not read into the used one either.
      have hfail : (httpReq.read sock).1 = false := by
        rw [← Bool.not_eq_true]
        intro htrue
        have hsame := HttpRequest.read_eq_of_read hfresh htrue
        rw [hsame, hread] at htrue
        cases htrue
      rcases hused : httpReq.read sock with ⟨complete, left, final⟩
      rw [hused] at hfail
      obtain rfl : complete = false := hfail
      rfl
    | true =>
      have hsame : httpReq.read sock = (true, received, later) := by
        rw [← hread]
        exact (HttpRequest.read_eq_of_read hfresh.symm (by rw [hread])).symm
      have hreceived : received.userAgent = some userAgent := by
        have hkept := HttpRequest.userAgent_read httpReq sock
        rw [hsame] at hkept
        exact hkept.trans hagent
      rw [hsame]
      simp only [serve]
      split_ifs
      · rfl
      · rfl
      · have hleft : (thread.turn n received).left.userAgent = some userAgent :=
          (userAgent_turn hkeeps n received).trans hreceived
        exact congrArg _ (ih (n + 1) hleft)

end ClientThread

/-- More turns than the stream has bytes read nothing more. -/
theorem requestsIn_eq (userAgent : CString) {bound bound' : ℕ} {sock : Socket}
    (hbound : sock.content.length < bound) (hbound' : sock.content.length < bound') :
    requestsIn userAgent bound sock = requestsIn userAgent bound' sock := by
  induction bound generalizing bound' sock with
  | zero => omega
  | succ bound ih =>
    obtain ⟨bound', rfl⟩ := Nat.exists_eq_succ_of_ne_zero (by omega : bound' ≠ 0)
    rw [requestsIn, requestsIn]
    rcases hread : (HttpRequest.new userAgent).read sock with ⟨complete, httpReq, later⟩
    cases complete with
    | false => rfl
    | true =>
      have hlt := HttpRequest.length_read_lt
        (show ((HttpRequest.new userAgent).read sock).1 = true by rw [hread])
      rw [hread] at hlt
      simp only at hlt ⊢
      rw [ih (by omega) (by omega : later.content.length < bound')]

namespace ClientThread

/-- With room for more turns than the stream has bytes, the turns of the loop are those of a server
over the requests that are read into an object of their own each. -/
theorem loop_eq_of_lt {thread : ClientThread} (hkeeps : thread.KeepsRequest) (userAgent : CString)
    {sock : Socket} {bound : ℕ} (hbound : sock.content.length < bound) :
    (thread.loop bound 0 (HttpRequest.new userAgent) sock).1 =
      thread.serve 0 (receivedRequests userAgent sock) := by
  have hturns : (thread.loop bound 0 (HttpRequest.new userAgent) sock).1 =
      thread.serve 0 (requestsIn userAgent bound sock) := loop_eq_serve hkeeps userAgent 0 rfl
  rw [hturns, receivedRequests, requestsIn_eq userAgent hbound (Nat.lt_succ_self _)]

theorem run_eq {thread : ClientThread} (hkeeps : thread.KeepsRequest) (userAgent : CString)
    (sock : Socket) :
    thread.run userAgent sock = thread.serve 0 (receivedRequests userAgent sock) :=
  loop_eq_of_lt hkeeps userAgent (Nat.lt_succ_self _)

/-- **A connection is served as if its requests had come apart.** Whatever a listener that sets
neither the user agent nor the version leaves in the object that all requests are read into, the
turns are those of a server over the requests that are read into an object of their own each; and
the loop ends by itself: with room for any larger number of turns it makes the same ones. -/
theorem run_eq_serve {thread : ClientThread} (hkeeps : thread.KeepsRequest)
    (userAgent : CString) (sock : Socket) :
    thread.run userAgent sock = thread.serve 0 (receivedRequests userAgent sock) ∧
      ∀ bound, sock.content.length < bound →
        (thread.loop bound 0 (HttpRequest.new userAgent) sock).1 = thread.run userAgent sock := by
  refine ⟨run_eq hkeeps userAgent sock, fun bound hbound ↦ ?_⟩
  rw [loop_eq_of_lt hkeeps userAgent hbound]
  exact (run_eq hkeeps userAgent sock).symm

/-- The stream of two requests that are posted one behind the other. -/
def exampleStream : Socket :=
  ⟨[(exampleRequest.post "10.0.0.1".toList 80).getD [],
    (exampleRequest.post "10.0.0.1".toList 80).getD []]⟩

/-- A thread whose listener empties the request but for what it must keep. -/
def replacingThread : ClientThread where
  listener := some fun _ httpReq ↦
    ⟨"ok".toList,
      { HttpRequest.new [] with userAgent := httpReq.userAgent, version := httpReq.version }⟩
  isRunnable _ := true
  isRunnableBehind _ := true
  httpDate _ := []

theorem run_eq_serve_replacing :
    replacingThread.run [] exampleStream =
        replacingThread.serve 0 (receivedRequests [] exampleStream) ∧
      ∀ bound, exampleStream.content.length < bound →
        (replacingThread.loop bound 0 (HttpRequest.new []) exampleStream).1 =
          replacingThread.run [] exampleStream :=
  run_eq_serve
    { userAgent := fun listener hlistener n httpReq ↦ by
        obtain rfl := Option.some.inj hlistener
        rfl
      version := fun listener hlistener n httpReq ↦ by
        obtain rfl := Option.some.inj hlistener
        rfl } [] exampleStream

end ClientThread

end Mupnp.Http
