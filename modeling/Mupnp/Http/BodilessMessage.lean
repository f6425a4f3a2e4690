import Mupnp.Http.HttpRoundTrip

/-!
# Messages without a body

A request without the headers `Content-Length` and `Transfer-Encoding` has no body, and nothing
behind its headers is read (`IsBareRequest.read`). A response without them has everything up to the
end of the stream for a body; its status code is read in any case (`statusCode_read`).
-/

set_option autoImplicit false
set_option relaxedAutoImplicit false

namespace Mupnp.Http

open Net Util

/-! ### Requests -/

/-- A request whose first line has three words, with headers that say nothing about a body. -/
structure IsBareRequest (httpReq : HttpRequest) (method uri version : CString) : Prop where
  headers : ∀ header ∈ httpReq.headers, ∃ name value,
    header = ⟨some name, some value⟩ ∧ IsHeader name value
  content : httpReq.content = none
  length : httpReq.toHttpPacket.hasHeader "Content-Length".toList = false
  coding : httpReq.toHttpPacket.hasHeader "Transfer-Encoding".toList = false
  method_eq : httpReq.method = some method
  uri_eq : httpReq.uri = some uri
  version_eq : httpReq.version = some version
  method_token : IsToken method
  uri_token : IsToken uri
  version_token : IsToken version
  relative : ¬ "://".toList <:+: uri
  line : (method ++ " ".toList ++ uri ++ " ".toList ++ version ++ "\r\n".toList).length <
    readlineBufSize

section Bare

variable {httpReq : HttpRequest} {method uri version : CString}

/-- With a length of zero in front the request is one with a body. -/
theorem IsBareRequest.framed (h : IsBareRequest httpReq method uri version) :
    IsRequest { httpReq with
      headers := ⟨some "Content-Length".toList, some "0".toList⟩ :: httpReq.headers } method uri
        version := by
  have hheader : IsHeader "Content-Length".toList "0".toList :=
    ⟨⟨by decide, by decide⟩, by decide, ⟨by decide, by decide, by decide⟩, by decide⟩
  refine ⟨⟨List.forall_mem_cons.mpr ⟨⟨_, _, rfl, hheader⟩, h.headers⟩,
    ⟨"0".toList, rfl, by decide, by decide, ?_⟩, ?_⟩, h.method_eq, h.uri_eq, h.version_eq,
    h.method_token, h.uri_token, h.version_token, h.relative, h.line⟩
  · rw [h.content]
    rfl
  · rw [h.content]
    decide

/-- A request is read as it was written, and what is behind it is left. -/
theorem IsBareRequest.read (h : IsBareRequest httpReq method uri version) :
    ∃ message, httpReq.message = some message ∧
      ∀ (fresh : HttpRequest) (sock : Socket) (rest : List Char), sock.content = message ++ rest →
        ∃ (read : HttpRequest) (later : Socket), fresh.read sock = (true, read, later) ∧
          read.method = some method ∧ read.uri = some uri ∧ read.version = some version ∧
          read.headers = httpReq.headers ∧ read.content = none ∧ later.content = rest := by
  have hmessage : httpReq.message = some (method ++ " ".toList ++ uri ++ " ".toList ++ version ++
      "\r\n".toList ++ (httpReq.headers.flatMap HttpPacket.headerLine ++ "\r\n".toList)) := by
    have hpost : httpReq.toHttpPacket.post =
        some (httpReq.headers.flatMap HttpPacket.headerLine ++ "\r\n".toList) := by
      rw [HttpPacket.post, HttpPacket.sentContent, h.content]
      simp only [Option.map_some, List.append_nil]
    rw [HttpRequest.message, h.method_eq, h.uri_eq, h.version_eq]
    simp only [hpost, Option.map_some]
  refine ⟨_, hmessage, ?_⟩
  intro fresh sock rest hsock
  rw [List.append_assoc] at hsock
  obtain ⟨behindLine, hfirst, hbehindLine, hbuffer⟩ :=
    h.framed.readFirstLine hsock (Nat.succ_pos sock.content.length)
  have hbound : httpReq.headers.length < behindLine.content.length + 1 := by
    have hlines := length_le_flatMap_headerLine h.headers
    rw [hbehindLine, List.length_append, List.length_append]
    omega
  obtain ⟨later, hloop, hrest⟩ := readHeadersLoop_append h.headers hbound [] hbehindLine
  have hheaders : HttpPacket.empty.readHeaders behindLine = (⟨httpReq.headers, none⟩, later) := by
    rw [HttpPacket.readHeaders]
    simp only [HttpPacket.empty, hloop, List.nil_append]
  have htokens :=
    setFirstLine_tokens fresh.clear h.method_token h.uri_token h.version_token
  have hrelative := @makeUriRelative_eq_self
    { fresh.clear with method := some method, uri := some uri, version := some version } uri rfl
    h.relative
  have hframe : (HttpPacket.hasHeader ⟨httpReq.headers, none⟩ "Content-Length".toList ||
      HttpPacket.hasHeader ⟨httpReq.headers, none⟩ "Transfer-Encoding".toList) = false := by
    rw [Bool.or_eq_false_iff]
    exact ⟨h.length, h.coding⟩
  refine ⟨{ fresh.clear with
    toHttpPacket := ⟨httpReq.headers, none⟩
    method := some method
    uri := some uri
    version := some version }, later, ?_, rfl, rfl, rfl, rfl, rfl, hrest⟩
  rw [HttpRequest.read, hfirst]
  simp only [hbuffer, htokens, hrelative, hheaders, hframe, Bool.false_eq_true, if_false]
  rfl

end Bare

/-! ### Responses -/

/-- The status code of a response is read whatever is behind its first line. -/
theorem statusCode_read {version reasonPhrase : CString} {code : ℤ} (hversion : IsToken version)
    (hcode : -2 ^ 31 ≤ code ∧ code < 2 ^ 31) (hne : reasonPhrase ≠ [])
    (hreason : IsTrimmed " ".toList reasonPhrase)
    (hline : (version ++ " ".toList ++ long2str code ++ " ".toList ++ reasonPhrase ++
      "\r\n".toList).length < readlineBufSize) {sock : Socket} {rest : List Char}
    (hsock : sock.content = version ++ " ".toList ++ long2str code ++ " ".toList ++ reasonPhrase ++
      "\r\n".toList ++ rest) (fresh : HttpResponse) (onlyHeader : Bool) :
    (fresh.read sock onlyHeader).2.1.statusCode = code := by
  have hchars := lineChars_words hversion.lineChars (isToken_long2str code).lineChars
    fun c hc ↦ (hreason.chars c hc).2
  obtain ⟨behindLine, hread, -, hbuffer⟩ := readLine_crlf hchars hline hsock
  rw [HttpResponse.read, hread]
  simp only [hbuffer, setStatusLine_tokens fresh.clear hversion hcode hne hreason]

end Mupnp.Http
