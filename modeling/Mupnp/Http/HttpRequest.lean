import Mupnp.Http.HttpPacket
import Mupnp.Net.NetUri

/-!
# HTTP requests

`http/http_request.c`: a request is posted behind a line with its method, its target and its
version, after the sender has set the headers `HOST` and `User-Agent`; it is read from the first
line that is not empty, and its target is made relative. The connection and the response are left
out.
-/

set_option autoImplicit false
set_option relaxedAutoImplicit false

namespace Mupnp.Http

open Net Util

structure HttpRequest extends HttpPacket where
  method : Option CString
  uri : Option CString
  version : Option CString
  userAgent : Option CString
  deriving DecidableEq

/-- The value that `mupnp_http_packet_sethost` gives to the header `HOST`: an IPv6 address stands in
brackets and without its zone index, and the default port is left out. -/
def hostHeaderValue (addr : CString) (port : ℤ) : CString :=
  let host := if isIpv6Address (some addr) then "[".toList ++ addr.takeWhile (· ≠ '%') ++ "]".toList
    else addr
  if 0 < port ∧ port ≠ 80 then host ++ ":".toList ++ long2str port else host

namespace HttpRequest

/-- `mupnp_http_request_new`, with the user agent of the library. -/
def new (userAgent : CString) : HttpRequest :=
  { HttpPacket.empty with
    method := none
    uri := none
    version := some "HTTP/1.1".toList
    userAgent := some userAgent }

/-- The request as `mupnp_http_request_post_main_status` sends it to an address. -/
def addressed (httpReq : HttpRequest) (ipaddr : CString) (port : ℤ) : HttpRequest :=
  { httpReq with
    toHttpPacket := (httpReq.toHttpPacket.setHeaderValue "HOST".toList
      (some (hostHeaderValue ipaddr port))).setHeaderValue "User-Agent".toList httpReq.userAgent }

/-- What `mupnp_http_request_post_main_status` writes: nothing for a request without a method, a
target or a version. -/
def message (httpReq : HttpRequest) : Option (List Char) :=
  match httpReq.method, httpReq.uri, httpReq.version with
  | some method, some uri, some version =>
    httpReq.toHttpPacket.post.map fun packet ↦
      method ++ " ".toList ++ uri ++ " ".toList ++ version ++ "\r\n".toList ++ packet
  | _, _, _ => none

/-- `mupnp_http_request_post_main_status`: what is sent to an address. -/
def post (httpReq : HttpRequest) (ipaddr : CString) (port : ℤ) : Option (List Char) :=
  (httpReq.addressed ipaddr port).message

/-- `mupnp_http_request_clear`: the strings are set to `NULL`, which leaves them as they are. -/
def clear (httpReq : HttpRequest) : HttpRequest :=
  { httpReq with
    toHttpPacket := HttpPacket.empty
    method := stringSetValue httpReq.method none
    uri := stringSetValue httpReq.uri none
    version := stringSetValue httpReq.version none }

/-- The loop that reads the first line which is longer than a line end; `bound` bounds the number of
lines. -/
def readFirstLine : ℕ → Socket → Option CString × Socket
  | 0, sock => (none, sock)
  | bound + 1, sock =>
    match readLine sock readlineBufSize with
    | (none, later) => (none, later)
    | (some line, later) =>
      if 1 ≤ line.length ∧ line.length ≤ 2 then readFirstLine bound later else (some line, later)

/-- The method, the target and the version of a first line: the fields without a token stay, and the
line is complete when no token is missing. -/
def setFirstLine (httpReq : HttpRequest) (line : CString) : HttpRequest × Bool :=
  let strTok := StringTokenizer.new line statuslineDelim
  let (method, strTok) := strTok.nextToken
  let (uri, strTok) := strTok.nextToken
  let (version, _) := strTok.nextToken
  ({ httpReq with
      method := stringSetValue httpReq.method method
      uri := stringSetValue httpReq.uri uri
      version := stringSetValue httpReq.version version },
    method.isSome && uri.isSome && version.isSome)

/-- The target is made relative. -/
def makeUriRelative (httpReq : HttpRequest) : HttpRequest :=
  let uri := NetUri.setValue (httpReq.uri.getD [])
  if uri.isAbsolute then { httpReq with uri := stringSetValue httpReq.uri uri.getRequest }
  else httpReq

/-- `mupnp_http_request_read`: a body is read only behind a `Content-Length` or a
`Transfer-Encoding`. -/
def read (httpReq : HttpRequest) (sock : Socket) : Bool × HttpRequest × Socket :=
  match readFirstLine (sock.content.length + 1) sock with
  | (none, later) => (false, httpReq.clear, later)
  | (some line, behindLine) =>
    let (httpReq, complete) := httpReq.clear.setFirstLine (bufferString line)
    if complete = false then (false, httpReq, behindLine)
    else
      let httpReq := httpReq.makeUriRelative
      let (httpPkt, behindHeaders) := HttpPacket.empty.readHeaders behindLine
      if httpPkt.hasHeader "Content-Length".toList ||
          httpPkt.hasHeader "Transfer-Encoding".toList then
        let (complete, httpPkt, later) := httpPkt.readBody behindHeaders
        (complete, { httpReq with toHttpPacket := httpPkt }, later)
      else (true, { httpReq with toHttpPacket := httpPkt }, behindHeaders)

end HttpRequest

end Mupnp.Http
