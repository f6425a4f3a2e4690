import Mupnp.Http.HttpPacket
import Mupnp.Net.NetUri

/-!
# HTTP responses

`http/http_response.c`, and the poster of responses in `http/http_request.c`: a response is
written behind a line with its version, its status code and its reason phrase, after the poster
has set the header `Date`.
-/

set_option autoImplicit false
set_option relaxedAutoImplicit false

namespace Mupnp.Http

open Net Util

/-- `mupnp_http_statuscode2reasonphrase`. -/
def statusCode2ReasonPhrase (code : ℤ) : String :=
  match code with
  | 100 => "Continue"
  | 101 => "Switching Protocols"
  | 200 => "OK"
  | 201 => "Created"
  | 202 => "Accepted"
  | 203 => "Non-Authoritative Information"
  | 204 => "No Content"
  | 205 => "Reset Content"
  | 206 => "Partial Content"
  | 300 => "Multiple Choices"
  | 301 => "Moved Permanently"
  | 302 => "Found"
  | 303 => "See Other"
  | 304 => "Not Modified"
  | 305 => "Use Proxy"
  | 307 => "Temporary Redirect"
  | 400 => "Bad Request"
  | 401 => "Unauthorized"
  | 402 => "Payment Required"
  | 403 => "Forbidden"
  | 404 => "Not Found"
  | 405 => "Method Not Allowed"
  | 406 => "Not Acceptable"
  | 407 => "Proxy Authentication Required"
  | 408 => "Request Time-out"
  | 409 => "Conflict"
  | 410 => "Gone"
  | 411 => "Length Required"
  | 412 => "Precondition Failed"
  | 413 => "Request Entity Too Large"
  | 414 => "Request-URI Too Large"
  | 415 => "Unsupported Media Type"
  | 416 => "Requested range not satisfiable"
  | 417 => "Expectation Failed"
  | 500 => "Internal Server Error"
  | 501 => "Not Implemented"
  | 502 => "Bad Gateway"
  | 503 => "Service Unavailable"
  | 504 => "Gateway Time-out"
  | 505 => "HTTP Version not supported"
  | _ => "Unknown"

structure HttpResponse extends HttpPacket where
  version : Option CString
  statusCode : ℤ
  reasonPhrase : Option CString
  deriving DecidableEq

namespace HttpResponse

/-- `mupnp_http_response_setstatuscode`: the reason phrase follows the code. -/
def setStatusCode (httpRes : HttpResponse) (value : ℤ) : HttpResponse :=
  { httpRes with
    statusCode := value
    reasonPhrase :=
      stringSetValue httpRes.reasonPhrase (some (statusCode2ReasonPhrase value).toList) }

/-- `mupnp_http_response_new`. -/
def new : HttpResponse :=
  { HttpPacket.empty with
    version := some "HTTP/1.1".toList
    statusCode := 400
    reasonPhrase := some (statusCode2ReasonPhrase 400).toList }

/-- `mupnp_http_response_clear`: the version and the reason phrase are set to `NULL`, which leaves
them as they are. -/
def clear (httpRes : HttpResponse) : HttpResponse :=
  let cleared := { httpRes with
    toHttpPacket := HttpPacket.empty
    version := stringSetValue httpRes.version none }
  let coded := cleared.setStatusCode 500
  { coded with reasonPhrase := stringSetValue coded.reasonPhrase none }

/-- The response as `mupnp_http_request_postresponse` writes it, with the date of the moment. -/
def dated (httpRes : HttpResponse) (httpDate : CString) : HttpResponse :=
  { httpRes with
    toHttpPacket := httpRes.toHttpPacket.setHeaderValue "Date".toList (some httpDate) }

/-- What `mupnp_http_request_postresponse` writes: nothing for a response without a version or a
reason phrase. -/
def message (httpRes : HttpResponse) : Option (List Char) :=
  match httpRes.version, httpRes.reasonPhrase with
  | some version, some reasonPhrase =>
    httpRes.toHttpPacket.post.map fun packet ↦
      version ++ " ".toList ++ long2str httpRes.statusCode ++ " ".toList ++ reasonPhrase ++
        "\r\n".toList ++ packet
  | _, _ => none

/-- `mupnp_http_request_postresponse`, with the date of the moment. -/
def post (httpRes : HttpResponse) (httpDate : CString) : Option (List Char) :=
  (httpRes.dated httpDate).message

/-- The version, the status code and the reason phrase of a status line; what has no token stays. -/
def setStatusLine (httpRes : HttpResponse) (line : CString) : HttpResponse :=
  let strTok := StringTokenizer.new line statuslineDelim
  let (version, strTok) := strTok.nextToken
  let (statusCode, strTok) := strTok.nextToken
  let versioned := { httpRes with version := stringSetValue httpRes.version version }
  let coded := match statusCode with
    | some statusCode => versioned.setStatusCode (atoi statusCode)
    | none => versioned
  { coded with
    reasonPhrase := stringSetValue coded.reasonPhrase
      (strTok.nextAllToken.map fun token ↦ strrtrim token statuslineDelim) }

/-- `mupnp_http_response_read`. -/
def read (httpRes : HttpResponse) (sock : Socket) (onlyHeader : Bool) :
    Bool × HttpResponse × Socket :=
  match readLine sock readlineBufSize with
  | (none, later) => (false, httpRes.clear, later)
  | (some line, behindLine) =>
    let (complete, httpPkt, later) := HttpPacket.read behindLine onlyHeader
    (complete,
      { httpRes.clear.setStatusLine (bufferString line) with toHttpPacket := httpPkt }, later)

end HttpResponse

end Mupnp.Http
