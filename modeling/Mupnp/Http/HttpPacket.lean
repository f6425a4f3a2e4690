import Mupnp.Http.HttpHeaderList
import Mupnp.Net.Socket
import Mupnp.Util.LongString
import Mupnp.Util.StringTokenizer

/-!
# HTTP packets

`http/http_packet.c`: the headers and the content that requests and responses share. A packet is
posted as one line for each header, an empty line, and as many bytes of the content as the header
`Content-Length` says. It is read line by line into a buffer; the length of the body is taken from
`Content-Length`, from the chunks, or from the end of the stream, in this order.

Allocation does not fail here. Posting more bytes than the content has no result.
-/

set_option autoImplicit false
set_option relaxedAutoImplicit false

namespace Mupnp.Http

open Foundation Net Util

structure HttpPacket where
  headers : HttpHeaderList
  content : Option (List Char)
  deriving DecidableEq

/-- `MUPNP_HTTP_READLINE_BUFSIZE`. -/
def readlineBufSize : ℕ := 512

/-- `MUPNP_HTTP_HEADERLINE_DELIM`. -/
def headerlineDelim : CString := "\r\n :".toList

/-- `MUPNP_HTTP_STATUSLINE_DELIM`. -/
def statuslineDelim : CString := "\r\n ".toList

/-- What a buffer holds as a C string. -/
def bufferString (buffer : List Char) : CString := buffer.takeWhile (· ≠ '\x00')

theorem bufferString_eq_self_iff {content : List Char} :
    bufferString content = content ↔ '\x00' ∉ content := by
  unfold bufferString
  rw [List.takeWhile_eq_self_iff]
  constructor
  · exact fun h hmem ↦ absurd (h _ hmem) (by decide)
  · intro h c hc
    rw [decide_eq_true_eq]
    rintro rfl
    exact h hc

namespace HttpPacket

/-- A packet without headers and content, as `mupnp_http_packet_init` and `mupnp_http_packet_clear`
leave it. -/
def empty : HttpPacket := ⟨[], none⟩

/-- `mupnp_http_packet_setheadervalue`. -/
def setHeaderValue (httpPkt : HttpPacket) (name : CString) (value : Option CString) : HttpPacket :=
  { httpPkt with headers := headerListSet httpPkt.headers name value }

/-- `mupnp_http_packet_getheadervalue`. -/
def getHeaderValue (httpPkt : HttpPacket) (name : CString) : Option CString :=
  headerListGetValue httpPkt.headers name

/-- `mupnp_http_packet_hasheader`. -/
def hasHeader (httpPkt : HttpPacket) (name : CString) : Bool :=
  (headerListGet httpPkt.headers name).isSome

/-- `mupnp_http_packet_getcontentlength`: the number that the header starts with, or zero. -/
def getContentLength (httpPkt : HttpPacket) : ℤ :=
  str2long (httpPkt.getHeaderValue "Content-Length".toList)

/-- `mupnp_http_packet_setcontentlength`. -/
def setContentLength (httpPkt : HttpPacket) (value : ℤ) : HttpPacket :=
  httpPkt.setHeaderValue "Content-Length".toList (some (long2str value))

/-- `mupnp_http_packet_appendncontent`. -/
def appendContent (httpPkt : HttpPacket) (value : List Char) : HttpPacket :=
  { httpPkt with content := stringAddValue httpPkt.content (some value) }

/-- `mupnp_http_packet_ischunked`. -/
def isChunked (httpPkt : HttpPacket) : Bool :=
  match httpPkt.getHeaderValue "Transfer-Encoding".toList with
  | some coding => strcaseeq coding "Chunked".toList
  | none => false

/-! ### Posting -/

/-- The line of a header; a header without a name is left out. -/
def headerLine (header : HttpHeader) : List Char :=
  match header.name with
  | none => []
  | some name => name ++ ": ".toList ++ header.value.getD [] ++ "\r\n".toList

theorem headerLine_some (name value : CString) :
    headerLine ⟨some name, some value⟩ = name ++ ": ".toList ++ value ++ "\r\n".toList := rfl

/-- The content that is sent: a `size_t` number of bytes. -/
def sentContent (httpPkt : HttpPacket) : Option (List Char) :=
  match httpPkt.content with
  | none => some []
  | some content =>
    let contentLen := (BitVec.ofInt 64 httpPkt.getContentLength).toNat
    if contentLen ≤ content.length then some (content.take contentLen) else none

/-- `mupnp_http_packet_post`. -/
def post (httpPkt : HttpPacket) : Option (List Char) :=
  httpPkt.sentContent.map fun content ↦
    httpPkt.headers.flatMap headerLine ++ "\r\n".toList ++ content

/-! ### Reading the headers -/

/-- The header in a line; a line of delimiters only has none. -/
def parseHeader (line : CString) : Option HttpHeader :=
  let strTok := StringTokenizer.new line headerlineDelim
  let (name, strTok) := strTok.nextToken
  let value := strTok.nextAllToken.map fun value ↦ strrtrim value headerlineDelim
  if 0 < strlen name then some ⟨name, some (value.getD [])⟩ else none

/-- The loop of `mupnp_http_packet_read_headers`; `bound` bounds the number of lines. -/
def readHeadersLoop : ℕ → HttpHeaderList → Socket → HttpHeaderList × Socket
  | 0, headers, sock => (headers, sock)
  | bound + 1, headers, sock =>
    match readLine sock readlineBufSize with
    | (none, later) => (headers, later)
    | (some line, later) =>
      if line.length ≤ 2 then (headers, later)
      else readHeadersLoop bound (headers ++ (parseHeader (bufferString line)).toList) later

/-- `mupnp_http_packet_read_headers`, with a buffer of `readlineBufSize` bytes. -/
def readHeaders (httpPkt : HttpPacket) (sock : Socket) : HttpPacket × Socket :=
  let (headers, later) := readHeadersLoop (sock.content.length + 1) httpPkt.headers sock
  ({ httpPkt with headers := headers }, later)

/-! ### Reading the body -/

/-- The loop of `mupnp_http_packet_read_exact`; `bound` bounds the number of calls. -/
def readExactLoop (len : ℕ) : ℕ → ℕ → List Char → Socket → Option (List Char) × Socket
  | 0, _, _, sock => (none, sock)
  | bound + 1, bufSize, buf, sock =>
    if buf.length < len then
      let bufSize :=
        if buf.length = bufSize then if bufSize ≤ len - bufSize then bufSize * 2 else len
        else bufSize
      match socketRead sock (bufSize - buf.length) with
      | ([], later) => (none, later)
      | (received, later) => readExactLoop len bound bufSize (buf ++ received) later
    else (some buf, sock)

/-- `mupnp_http_packet_read_exact`: the buffer has 64 KiB at first. -/
def readExact (sock : Socket) (len : ℕ) : Option (List Char) × Socket :=
  readExactLoop len (len + 1) (min len (64 * 1024)) [] sock

/-- The digit that a character is in base sixteen. -/
def hexDigit (c : Char) : Option ℕ :=
  if c.isDigit then some (c.toNat - '0'.toNat)
  else if 'a' ≤ c ∧ c ≤ 'f' then some (c.toNat - 'a'.toNat + 10)
  else if 'A' ≤ c ∧ c ≤ 'F' then some (c.toNat - 'A'.toNat + 10)
  else none

/-- The value of the leading digits in base sixteen, and what is left behind them. -/
def hexValue (read : ℕ) : CString → ℕ × CString
  | [] => (read, [])
  | c :: rest =>
    match hexDigit c with
    | some digit => hexValue (16 * read + digit) rest
    | none => (read, c :: rest)

/-- What `strtoull` skips in base sixteen: `0x` in front of a digit. -/
def skipHexPrefix : CString → CString
  | '0' :: x :: c :: rest =>
    if (x = 'x' ∨ x = 'X') ∧ (hexDigit c).isSome then c :: rest else '0' :: x :: c :: rest
  | text => text

/-- The length in the first line of a chunk. -/
def chunkLength (line : CString) : Option ℕ :=
  if (line.head?.bind hexDigit).isNone then none
  else
    let (chunkLen, rest) := hexValue 0 (skipHexPrefix line)
    if rest.head? = some ';' ∨ rest.head? = some '\r' ∨ rest.head? = some '\n' then
      if longMax - 1 < chunkLen then none else some chunkLen
    else none

/-- The loop that consumes trailers through the empty line; `bound` bounds the number of lines. -/
def readTrailers : ℕ → Socket → Bool × Socket
  | 0, sock => (false, sock)
  | bound + 1, sock =>
    match readLine sock readlineBufSize with
    | (none, later) => (false, later)
    | (some line, later) =>
      if bufferString line = "\r\n".toList ∨ bufferString line = "\n".toList then (true, later)
      else readTrailers bound later

/-- `mupnp_http_packet_read_chunk`: the length of the chunk, or nothing for the result `-1`. -/
def readChunk (httpPkt : HttpPacket) (sock : Socket) : Option ℕ × HttpPacket × Socket :=
  match readLine sock readlineBufSize with
  | (none, later) => (none, httpPkt, later)
  | (some line, behindLine) =>
    match chunkLength (bufferString line) with
    | none => (none, httpPkt, behindLine)
    | some 0 =>
      let (complete, later) := readTrailers (behindLine.content.length + 1) behindLine
      (if complete then some 0 else none, httpPkt, later)
    | some chunkLen =>
      match readExact behindLine chunkLen with
      | (none, later) => (none, httpPkt, later)
      | (some content, behindContent) =>
        let (line, later) := readLine behindContent readlineBufSize
        if line = some "\r\n".toList then (some chunkLen, httpPkt.appendContent content, later)
        else (none, httpPkt, later)

/-- The loop over the chunks of a body, with the length that was read; `bound` bounds their number.
-/
def readChunks : ℕ → ℕ → HttpPacket → Socket → Bool × HttpPacket × Socket
  | 0, _, httpPkt, sock => (false, httpPkt, sock)
  | bound + 1, conLen, httpPkt, sock =>
    match readChunk httpPkt sock with
    | (none, httpPkt, later) => (false, httpPkt, later)
    | (some chunkLen, httpPkt, later) =>
      if longMax - conLen < chunkLen then (false, httpPkt, later)
      else if chunkLen = 0 then (true, httpPkt.setContentLength conLen, later)
      else readChunks bound (conLen + chunkLen) httpPkt later

/-- The loop that reads a body up to the end of the stream, 1024 bytes at a time; `bound` bounds the
number of calls. -/
def readToEnd : ℕ → ℕ → HttpPacket → Socket → Bool × HttpPacket × Socket
  | 0, _, httpPkt, sock => (false, httpPkt, sock)
  | bound + 1, conLen, httpPkt, sock =>
    match socketRead sock 1024 with
    | ([], later) => (true, httpPkt.setContentLength conLen, later)
    | (received, later) =>
      if longMax - conLen < received.length then (false, httpPkt, later)
      else readToEnd bound (conLen + received.length) (httpPkt.appendContent received) later

/-- The blanks that may stand around the number in `Content-Length`. -/
def isLengthBlank (c : Char) : Bool := c = ' ' || c = '\t'

/-- The length that a value of `Content-Length` says. -/
def parseContentLength (lengthHeader : CString) : Option ℕ :=
  let start := lengthHeader.dropWhile isLengthBlank
  let behind := (start.dropWhile Char.isDigit).dropWhile isLengthBlank
  if (start.head?.map Char.isDigit).getD false = false ∨ behind ≠ [] then none
  else if longMax - 1 < digitsValue 0 start then none
  else some (digitsValue 0 start)

/-- `mupnp_http_packet_read_body`. -/
def readBody (httpPkt : HttpPacket) (sock : Socket) : Bool × HttpPacket × Socket :=
  match httpPkt.getHeaderValue "Content-Length".toList with
  | some lengthHeader =>
    match parseContentLength lengthHeader with
    | none => (false, httpPkt, sock)
    | some 0 => (true, httpPkt, sock)
    | some conLen =>
      match readExact sock conLen with
      | (none, later) => (false, httpPkt, later)
      | (some content, later) => (true, { httpPkt with content := some content }, later)
  | none =>
    let bound := sock.content.length + 1
    if httpPkt.isChunked then readChunks bound 0 httpPkt sock
    else readToEnd bound 0 httpPkt sock

/-- `mupnp_http_packet_read`: the packet is cleared first. -/
def read (sock : Socket) (onlyHeader : Bool) : Bool × HttpPacket × Socket :=
  let (httpPkt, later) := empty.readHeaders sock
  if onlyHeader then (true, httpPkt, later) else httpPkt.readBody later

end HttpPacket

end Mupnp.Http
