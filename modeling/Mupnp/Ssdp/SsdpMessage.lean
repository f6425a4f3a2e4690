import Mupnp.Http.HttpRoundTrip
import Mupnp.Ssdp.SsdpPacket

/-!
# SSDP messages on the wire

The texts that `mupnp_ssdprequest_tostring` and `mupnp_ssdpresponse_tostring` write into a datagram,
and `mupnp_ssdp_packet_setheader`, which reads the headers of one. The reader does not skip the
first line: it becomes a header whose name is the first word. Behind it stand the headers as they
were written (`setHeader_message`). A receiver has a buffer of `MUPNP_NET_SOCKET_DGRAM_RECV_BUFSIZE`
bytes; of a datagram that is longer it gets the headers whose lines end within the buffer
(`received_message`).
-/

set_option autoImplicit false
set_option relaxedAutoImplicit false

namespace Mupnp.Ssdp

open Foundation Util Http

/-! ### Writing -/

/-- The loop over the headers of both writers. A header without a name or a value is written without
it. -/
def headerLines (headers : HttpHeaderList) : CString :=
  headers.flatMap fun header ↦
    header.name.getD [] ++ ": ".toList ++ header.value.getD [] ++ "\r\n".toList

/-- `mupnp_ssdprequest_tostring`, into an empty string. -/
def ssdpRequestToString (ssdpReq : HttpRequest) : CString :=
  ssdpReq.method.getD [] ++ " ".toList ++ ssdpReq.uri.getD [] ++ " ".toList ++
    ssdpReq.version.getD [] ++ "\r\n".toList ++ headerLines ssdpReq.headers ++ "\r\n".toList

/-- `mupnp_ssdpresponse_tostring`, into an empty string. -/
def ssdpResponseToString (ssdpRes : HttpResponse) : CString :=
  ssdpRes.version.getD [] ++ " ".toList ++ long2str ssdpRes.statusCode ++ " ".toList ++
    ssdpRes.reasonPhrase.getD [] ++ "\r\n".toList ++ headerLines ssdpRes.headers ++ "\r\n".toList

/-! ### Reading -/

/-- `MUPNP_HTTP_CRLF`, as the delimiters of lines. -/
def crlf : CString := "\r\n".toList

/-- The header that `mupnp_ssdp_packet_setheader` makes of a line. -/
def lineHeader (lineMsg : CString) : Option HttpHeader :=
  let (name, ssdpLineTok) := (StringTokenizer.new lineMsg headerlineDelim).nextToken
  let value := ssdpLineTok.nextAllToken.map fun value ↦ strrtrim value headerlineDelim
  name.map fun name ↦ ⟨some name, some (value.getD [])⟩

/-- The loop of `mupnp_ssdp_packet_setheader`; `bound` bounds the number of lines. -/
def setHeaderLoop : ℕ → StringTokenizer → HttpHeaderList → HttpHeaderList
  | 0, _, headers => headers
  | bound + 1, ssdpTok, headers =>
    match ssdpTok.nextToken with
    | (none, _) => headers
    | (some lineMsg, ssdpTok) =>
      setHeaderLoop bound ssdpTok (headers ++ (lineHeader lineMsg).toList)

/-- `mupnp_ssdp_packet_setheader`, which adds to the headers of the packet. -/
def setHeader (headers : HttpHeaderList) (ssdpMsg : CString) : HttpHeaderList :=
  setHeaderLoop (ssdpMsg.length + 1) (StringTokenizer.new ssdpMsg crlf) headers

/-- `MUPNP_NET_SOCKET_DGRAM_RECV_BUFSIZE`. -/
def dgramRecvBufSize : ℕ := 512

/-- What `mupnp_socket_recv` stores of the bytes of a datagram, as a C string. -/
def recvData (bytes : List Char) : CString := bufferString (bytes.take dgramRecvBufSize)

/-! ### Lines -/

/-- Lines with their ends. -/
def linesText (lines : List CString) : CString := lines.flatMap fun line ↦ line ++ crlf

/-- A line is not empty and has no end within itself. -/
structure IsLine (line : CString) : Prop where
  ne_nil : line ≠ []
  chars : ∀ c ∈ line, crlf.contains c = false

theorem lookAhead_crlf (rest : CString) :
    StringTokenizer.lookAhead crlf ('\n' :: rest) = StringTokenizer.lookAhead crlf rest := rfl

/-- A loop over a text that begins with lines reads them one after the other. -/
theorem setHeaderLoop_linesText {lines : List CString} (h : ∀ line ∈ lines, IsLine line)
    (bound : ℕ) (headers : HttpHeaderList) (rest : CString) :
    setHeaderLoop (lines.length + bound) ⟨crlf, StringTokenizer.lookAhead crlf
        (linesText lines ++ rest)⟩ headers =
      setHeaderLoop bound ⟨crlf, StringTokenizer.lookAhead crlf rest⟩
        (headers ++ lines.filterMap lineHeader) := by
  induction lines generalizing headers with
  | nil => simp [linesText]
  | cons line lines ih =>
    have hline := h line List.mem_cons_self
    have htext : linesText (line :: lines) ++ rest =
        line ++ '\r' :: ('\n' :: (linesText lines ++ rest)) := by
      rw [linesText, List.flatMap_cons, ← linesText]
      simp [crlf]
    have hahead := StringTokenizer.lookAhead_token hline.ne_nil hline.chars
      (show crlf.contains '\r' = true from rfl) ('\n' :: (linesText lines ++ rest))
    rw [htext, hahead, List.length_cons, Nat.add_right_comm, setHeaderLoop]
    simp only [StringTokenizer.nextToken, Option.map_some, Option.bind_some, lookAhead_crlf]
    have hcons : (line :: lines).filterMap lineHeader =
        (lineHeader line).toList ++ lines.filterMap lineHeader := by
      rw [List.filterMap_cons]
      cases lineHeader line <;> rfl
    rw [ih (fun other hother ↦ h other (List.mem_cons_of_mem _ hother)), List.append_assoc, hcons]

theorem prefix_setHeaderLoop (bound : ℕ) (ssdpTok : StringTokenizer) (headers : HttpHeaderList) :
    headers <+: setHeaderLoop bound ssdpTok headers := by
  induction bound generalizing ssdpTok headers with
  | zero => exact List.prefix_rfl
  | succ bound ih =>
    rw [setHeaderLoop]
    split
    · exact List.prefix_rfl
    · exact (List.prefix_append _ _).trans (ih _ _)

theorem length_le_linesText {lines : List CString} : lines.length ≤ (linesText lines).length := by
  induction lines with
  | nil => exact Nat.le_refl 0
  | cons line lines ih =>
    rw [linesText, List.flatMap_cons, ← linesText, List.length_append, List.length_append,
      List.length_cons]
    have htwo : crlf.length = 2 := rfl
    omega

/-- The headers of a text of lines with an empty line behind them. -/
theorem setHeader_linesText {lines : List CString} (h : ∀ line ∈ lines, IsLine line)
    (headers : HttpHeaderList) :
    setHeader headers (linesText lines ++ crlf) = headers ++ lines.filterMap lineHeader := by
  obtain ⟨bound, hbound⟩ : ∃ bound, (linesText lines ++ crlf).length + 1 =
      lines.length + (bound + 1) := by
    have hlength := @length_le_linesText lines
    exact ⟨(linesText lines ++ crlf).length - lines.length, by rw [List.length_append]; omega⟩
  rw [setHeader, StringTokenizer.new, hbound, setHeaderLoop_linesText h]
  rfl

/-- The headers of a text that begins with lines begin with those of the lines. -/
theorem prefix_setHeader_linesText {lines : List CString} (h : ∀ line ∈ lines, IsLine line)
    (headers : HttpHeaderList) (rest : CString) :
    headers ++ lines.filterMap lineHeader <+: setHeader headers (linesText lines ++ rest) := by
  obtain ⟨bound, hbound⟩ : ∃ bound, (linesText lines ++ rest).length + 1 =
      lines.length + bound := by
    have hlength := @length_le_linesText lines
    exact ⟨(linesText lines ++ rest).length + 1 - lines.length, by rw [List.length_append]; omega⟩
  rw [setHeader, StringTokenizer.new, hbound, setHeaderLoop_linesText h]
  exact prefix_setHeaderLoop _ _ _

/-! ### Messages that can be written -/

/-- A header with a name that is a word without a colon, and a trimmed value. -/
structure IsField (header : HttpHeader) : Prop where
  exists_name : ∃ name, header.name = some name ∧ IsToken name ∧ ':' ∉ name
  exists_value : ∃ value, header.value = some value ∧ IsTrimmed " :".toList value

instance (token : CString) : Decidable (IsToken token) :=
  decidable_of_iff (token ≠ [] ∧ ∀ c ∈ token, isspace c = false ∧ c ≠ '\x00')
    ⟨fun h ↦ ⟨h.1, h.2⟩, fun h ↦ ⟨h.ne_nil, h.chars⟩⟩

instance (trimmed text : CString) : Decidable (IsTrimmed trimmed text) :=
  decidable_of_iff ((∀ c ∈ text, c ≠ '\r' ∧ c ≠ '\n' ∧ c ≠ '\x00') ∧
      (∀ c ∈ text.head?, c ∉ trimmed) ∧ ∀ c ∈ text.getLast?, c ∉ trimmed)
    ⟨fun h ↦ ⟨h.1, h.2.1, h.2.2⟩, fun h ↦ ⟨h.chars, h.head, h.last⟩⟩

instance (header : HttpHeader) : Decidable (IsField header) :=
  decidable_of_iff ((∃ name ∈ header.name, IsToken name ∧ ':' ∉ name) ∧
      ∃ value ∈ header.value, IsTrimmed " :".toList value)
    ⟨fun h ↦ ⟨h.1, h.2⟩, fun h ↦ ⟨h.exists_name, h.exists_value⟩⟩

/-- The header in a line behind a word that a delimiter ends. -/
theorem lineHeader_token {name : CString} (hname : IsToken name) (hcolon : ':' ∉ name) {d : Char}
    (hd : headerlineDelim.contains d = true) (text : CString) :
    lineHeader (name ++ d :: text) =
      some ⟨some name, some (strtrim text headerlineDelim)⟩ := by
  have hchars : ∀ c ∈ name, headerlineDelim.contains c = false := by
    intro c hc
    rw [← Bool.not_eq_true, contains_headerlineDelim]
    obtain ⟨hreturn, hfeed, hblank⟩ := hname.ne hc
    rintro (rfl | rfl | rfl | rfl)
    · exact hreturn rfl
    · exact hfeed rfl
    · exact hblank rfl
    · exact hcolon hc
  unfold lineHeader StringTokenizer.new StringTokenizer.nextToken
  rw [StringTokenizer.lookAhead_token hname.ne_nil hchars hd text]
  simp only [Option.map_some, Option.bind_some, StringTokenizer.strrtrim_nextAllToken]

/-- A trimmed text is what is left of it between blanks. -/
theorem strtrim_trimmed {value skipped : CString} (h : IsTrimmed " :".toList value)
    (hskipped : ∀ c ∈ skipped, headerlineDelim.contains c = true) :
    strtrim (skipped ++ value) headerlineDelim = value := by
  have hdelim : ∀ c, c ∈ value → c ∉ " :".toList → headerlineDelim.contains c = false := by
    intro c hmem hc
    rw [← Bool.not_eq_true, contains_headerlineDelim]
    obtain ⟨hreturn, hfeed, -⟩ := h.chars c hmem
    rintro (rfl | rfl | rfl | rfl)
    · exact hreturn rfl
    · exact hfeed rfl
    · exact hc (by decide)
    · exact hc (by decide)
  have htrim := @strtrim_eq_self headerlineDelim skipped value [] hskipped (by simp)
    (fun c hc ↦ hdelim c (List.mem_of_head? hc) (h.head c hc))
    (fun c hc ↦ hdelim c (List.mem_of_getLast? hc) (h.last c hc))
  rwa [List.append_nil] at htrim

/-- The line of a header without its end. -/
def fieldLine (header : HttpHeader) : CString :=
  header.name.getD [] ++ ": ".toList ++ header.value.getD []

theorem headerLines_eq (headers : HttpHeaderList) :
    headerLines headers = linesText (headers.map fieldLine) := by
  rw [linesText, List.flatMap_map]
  rfl

namespace IsField

variable {header : HttpHeader}

theorem lineHeader_fieldLine (h : IsField header) : lineHeader (fieldLine header) = some header := by
  obtain ⟨name, hname, htoken, hcolon⟩ := h.exists_name
  obtain ⟨value, hvalue, htrimmed⟩ := h.exists_value
  have hline : fieldLine header = name ++ ':' :: (" ".toList ++ value) := by
    rw [fieldLine, hname, hvalue]
    simp
  rw [hline, lineHeader_token htoken hcolon (by decide), strtrim_trimmed htrimmed (by decide)]
  obtain ⟨name', value'⟩ := header
  obtain rfl : name' = some name := hname
  obtain rfl : value' = some value := hvalue
  rfl

theorem isLine_fieldLine (h : IsField header) : IsLine (fieldLine header) := by
  obtain ⟨name, hname, htoken, -⟩ := h.exists_name
  obtain ⟨value, hvalue, htrimmed⟩ := h.exists_value
  have hline : fieldLine header = name ++ (": ".toList ++ value) := by
    rw [fieldLine, hname, hvalue]
    simp
  rw [hline]
  refine ⟨fun hnil ↦ htoken.ne_nil (List.append_eq_nil_iff.mp hnil).1, fun c hc ↦ ?_⟩
  have hends : ∀ c : Char, c ≠ '\r' → c ≠ '\n' → crlf.contains c = false := by
    intro c hreturn hfeed
    simp [crlf, hreturn, hfeed]
  have hcolon : ∀ c ∈ ": ".toList, crlf.contains c = false := by decide
  rcases List.mem_append.mp hc with hc | hc
  · exact hends c (htoken.ne hc).1 (htoken.ne hc).2.1
  · rcases List.mem_append.mp hc with hc | hc
    · exact hcolon c hc
    · exact hends c (htrimmed.chars c hc).1 (htrimmed.chars c hc).2.1

theorem ne_terminator (h : IsField header) {c : Char} (hc : c ∈ fieldLine header) :
    c ≠ '\x00' := by
  obtain ⟨name, hname, htoken, -⟩ := h.exists_name
  obtain ⟨value, hvalue, htrimmed⟩ := h.exists_value
  have hcolon : ∀ c ∈ ": ".toList, c ≠ '\x00' := by decide
  rw [fieldLine, hname, hvalue] at hc
  rcases List.mem_append.mp hc with hc | hc
  · rcases List.mem_append.mp hc with hc | hc
    · exact (htoken.chars c hc).2
    · exact hcolon c hc
  · exact (htrimmed.chars c hc).2.2

end IsField

/-- A first line with a word without a colon in front of a trimmed text. -/
structure IsFirstLine (word text : CString) : Prop where
  token : IsToken word
  colon : ':' ∉ word
  trimmed : IsTrimmed " :".toList text

/-- The header that a first line is read as. -/
def firstLineHeader (word text : CString) : HttpHeader := ⟨some word, some text⟩

/-- A message: a first line, headers, and an empty line. -/
def messageText (word text : CString) (headers : HttpHeaderList) : CString :=
  word ++ " ".toList ++ text ++ crlf ++ headerLines headers ++ crlf

theorem messageText_eq (word text : CString) (headers : HttpHeaderList) :
    messageText word text headers =
      linesText ((word ++ " ".toList ++ text) :: headers.map fieldLine) ++ crlf := by
  rw [messageText, headerLines_eq, linesText, linesText, List.flatMap_cons]

/-- What is written of a request. -/
theorem ssdpRequestToString_eq (ssdpReq : HttpRequest) :
    ssdpRequestToString ssdpReq = messageText (ssdpReq.method.getD [])
      (ssdpReq.uri.getD [] ++ " ".toList ++ ssdpReq.version.getD []) ssdpReq.headers := by
  simp [ssdpRequestToString, messageText, crlf]

/-- What is written of a response. -/
theorem ssdpResponseToString_eq (ssdpRes : HttpResponse) :
    ssdpResponseToString ssdpRes = messageText (ssdpRes.version.getD [])
      (long2str ssdpRes.statusCode ++ " ".toList ++ ssdpRes.reasonPhrase.getD [])
      ssdpRes.headers := by
  simp [ssdpResponseToString, messageText, crlf]

namespace IsFirstLine

variable {word text : CString}

theorem lineHeader_eq (h : IsFirstLine word text) :
    lineHeader (word ++ " ".toList ++ text) = some (firstLineHeader word text) := by
  have hline : word ++ " ".toList ++ text = word ++ ' ' :: ([] ++ text) := by simp
  rw [hline, lineHeader_token h.token h.colon (by decide), strtrim_trimmed h.trimmed (by simp)]
  rfl

theorem isLine (h : IsFirstLine word text) : IsLine (word ++ " ".toList ++ text) := by
  refine ⟨fun hnil ↦ ?_, fun c hc ↦ ?_⟩
  · rw [List.append_assoc] at hnil
    exact h.token.ne_nil (List.append_eq_nil_iff.mp hnil).1
  · have hends : ∀ c : Char, c ≠ '\r' → c ≠ '\n' → crlf.contains c = false := by
      intro c hreturn hfeed
      simp [crlf, hreturn, hfeed]
    have hblank : ∀ c ∈ " ".toList, crlf.contains c = false := by decide
    rcases List.mem_append.mp hc with hc | hc
    · rcases List.mem_append.mp hc with hc | hc
      · exact hends c (h.token.ne hc).1 (h.token.ne hc).2.1
      · exact hblank c hc
    · exact hends c (h.trimmed.chars c hc).1 (h.trimmed.chars c hc).2.1

theorem ne_terminator (h : IsFirstLine word text) {c : Char}
    (hc : c ∈ word ++ " ".toList ++ text) : c ≠ '\x00' := by
  have hblank : ∀ c ∈ " ".toList, c ≠ '\x00' := by decide
  rcases List.mem_append.mp hc with hc | hc
  · rcases List.mem_append.mp hc with hc | hc
    · exact (h.token.chars c hc).2
    · exact hblank c hc
  · exact (h.trimmed.chars c hc).2.2

end IsFirstLine

/-- The lines of fields are the headers they were written from. -/
theorem filterMap_fieldLine {headers : HttpHeaderList} (h : ∀ header ∈ headers, IsField header) :
    (headers.map fieldLine).filterMap lineHeader = headers := by
  induction headers with
  | nil => rfl
  | cons header headers ih =>
    rw [List.map_cons, List.filterMap_cons, (h header List.mem_cons_self).lineHeader_fieldLine]
    simp only [ih fun other hother ↦ h other (List.mem_cons_of_mem _ hother)]

section Message

variable {word text : CString} {headers : HttpHeaderList}

theorem isLine_of_mem (hfirst : IsFirstLine word text) (hfields : ∀ header ∈ headers,
    IsField header) : ∀ line ∈ (word ++ " ".toList ++ text) :: headers.map fieldLine,
      IsLine line := by
  rw [List.forall_mem_cons, List.forall_mem_map]
  exact ⟨hfirst.isLine, fun header hheader ↦ (hfields header hheader).isLine_fieldLine⟩

theorem filterMap_lines (hfirst : IsFirstLine word text) (hfields : ∀ header ∈ headers,
    IsField header) :
    ((word ++ " ".toList ++ text) :: headers.map fieldLine).filterMap lineHeader =
      firstLineHeader word text :: headers := by
  rw [List.filterMap_cons, hfirst.lineHeader_eq]
  simp only [filterMap_fieldLine hfields]

/-- A message is read as it was written, behind a header made of its first line. -/
theorem setHeader_message (hfirst : IsFirstLine word text)
    (hfields : ∀ header ∈ headers, IsField header) (before : HttpHeaderList) :
    setHeader before (messageText word text headers) =
      before ++ firstLineHeader word text :: headers := by
  rw [messageText_eq, setHeader_linesText (isLine_of_mem hfirst hfields),
    filterMap_lines hfirst hfields]

/-- The text of a message ends nowhere within itself. -/
theorem ne_terminator_of_mem_linesText (hfirst : IsFirstLine word text)
    (hfields : ∀ header ∈ headers, IsField header) :
    ∀ c ∈ messageText word text headers, c ≠ '\x00' := by
  have hcrlf : ∀ c ∈ crlf, c ≠ '\x00' := by decide
  intro c hc
  rw [messageText_eq, List.mem_append, linesText, List.mem_flatMap] at hc
  rcases hc with ⟨line, hline, hc⟩ | hc
  · rcases List.mem_append.mp hc with hc | hc
    · rcases List.mem_cons.mp hline with rfl | hline
      · exact hfirst.ne_terminator hc
      · obtain ⟨header, hheader, rfl⟩ := List.mem_map.mp hline
        exact (hfields header hheader).ne_terminator hc
    · exact hcrlf c hc
  · exact hcrlf c hc

/-- **What is received of a datagram.** A message that fits the receive buffer is read whole: its
headers in their order, behind one made of the first line. Of a longer message the headers whose
lines end within the buffer are read. -/
theorem received_message (hfirst : IsFirstLine word text)
    (hfields : ∀ header ∈ headers, IsField header) (before : HttpHeaderList) :
    ((messageText word text headers).length ≤ dgramRecvBufSize →
        recvData (messageText word text headers) = messageText word text headers ∧
          setHeader before (recvData (messageText word text headers)) =
            before ++ firstLineHeader word text :: headers) ∧
      ∀ front behind, headers = front ++ behind →
        (word ++ " ".toList ++ text ++ crlf ++ headerLines front).length ≤ dgramRecvBufSize →
          before ++ firstLineHeader word text :: front <+:
            setHeader before (recvData (messageText word text headers)) := by
  have hchars := ne_terminator_of_mem_linesText hfirst hfields
  have hrecv : recvData (messageText word text headers) =
      (messageText word text headers).take dgramRecvBufSize :=
    bufferString_eq_self fun c hc ↦ hchars c (List.mem_of_mem_take hc)
  constructor
  · intro hlength
    rw [hrecv, List.take_of_length_le hlength]
    exact ⟨rfl, setHeader_message hfirst hfields before⟩
  · rintro front behind rfl hlength
    have hfront : ∀ header ∈ front, IsField header := fun header hheader ↦
      hfields header (List.mem_append_left _ hheader)
    obtain ⟨rest, hrest⟩ : ∃ rest, (messageText word text (front ++ behind)).take
        dgramRecvBufSize =
          linesText ((word ++ " ".toList ++ text) :: front.map fieldLine) ++ rest := by
      have hsplit : messageText word text (front ++ behind) =
          (word ++ " ".toList ++ text ++ crlf ++ headerLines front) ++
            (headerLines behind ++ crlf) := by
        simp [messageText, headerLines]
      have hlines : word ++ " ".toList ++ text ++ crlf ++ headerLines front =
          linesText ((word ++ " ".toList ++ text) :: front.map fieldLine) := by
        rw [headerLines_eq, linesText, linesText, List.flatMap_cons]
      rw [hsplit, List.take_append, List.take_of_length_le hlength, hlines]
      exact ⟨_, rfl⟩
    rw [hrecv, hrest, ← filterMap_lines hfirst hfront]
    exact prefix_setHeader_linesText (isLine_of_mem hfirst hfront) before rest

end Message

end Mupnp.Ssdp
