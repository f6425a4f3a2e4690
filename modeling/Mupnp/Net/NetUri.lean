import Mupnp.Util.LongString

/-!
# URIs

`net/uri.c`: the scanner `mupnp_net_uri_setvalue`, and what is read from and written to a scanned
URI. The scanner takes its parts from the front: a protocol, a user, a host, a port; what is left
is the path with the query and the fragment. A text without a protocol is kept as a path whole,
and only a `?` or `#` in what the scanner has left of it cuts it.

The query dictionary is apart from the parts here.
-/

set_option autoImplicit false
set_option relaxedAutoImplicit false

namespace Mupnp.Net

open Util

/-- A scanned URI; a part that was never set has no buffer. -/
structure NetUri where
  uri : Option CString
  protocol : Option CString
  user : Option CString
  password : Option CString
  host : Option CString
  port : ℤ
  path : Option CString
  query : Option CString
  fragment : Option CString
  deriving DecidableEq

/-- The position of the last occurrence of a character. -/
def lastIndexOf (c : Char) : CString → Option ℕ
  | [] => none
  | d :: rest =>
    match lastIndexOf c rest with
    | some position => some (position + 1)
    | none => if d = c then some 0 else none

/-- `mupnp_strrchr` for one character: the position of its last occurrence, or `-1`. -/
def strrchr (str : Option CString) (c : Char) : ℤ :=
  match str.bind (lastIndexOf c) with
  | some position => position
  | none => -1

/-- `atoi`: the number that `atol` reads, as an `int`. -/
def atoi (str : CString) : ℤ := (BitVec.ofInt 32 (atol str)).toInt

/-- `mupnp_net_isipv6address`: a colon stands behind the first character. -/
def isIpv6Address (addr : Option CString) : Bool := decide (0 < strstr addr (some ":".toList))

/-! ### The scanner -/

/-- The protocol of a text, and what is left behind it. -/
def readProtocol (value : CString) : Option CString × CString :=
  let protoIdx := strstr (some value) (some "://".toList)
  if 0 < protoIdx then (some (value.take protoIdx.toNat), value.drop (protoIdx.toNat + 3))
  else (none, value)

/-- The user and the password in front of an at sign, and what is left behind it. -/
def readUser (text : CString) : Option CString × Option CString × CString :=
  let atIdx := strstr (some text) (some "@".toList)
  if 0 < atIdx then
    let colonIdx := strstr (some text) (some ":".toList)
    let left := text.drop (atIdx.toNat + 1)
    if 0 < colonIdx ∧ colonIdx < atIdx then
      (some (text.take colonIdx.toNat),
        some ((text.drop (colonIdx.toNat + 1)).take (atIdx.toNat - (colonIdx.toNat + 1))), left)
    else (some (text.take atIdx.toNat), none, left)
  else (none, none, text)

/-- The host with its port in front of a slash, and what is left from the slash on. Without a slash
everything is the host of an absolute URI. -/
def readHost (isAbsolute : Bool) (text : CString) : Option CString × CString :=
  let slashIdx := strstr (some text) (some "/".toList)
  if 0 < slashIdx then (some (text.take slashIdx.toNat), text.drop slashIdx.toNat)
  else if isAbsolute then (some text, [])
  else (none, text)

/-- The port of a protocol. -/
def defaultPort (protocol : Option CString) : ℤ :=
  if streq protocol (some "ftp".toList) then 21
  else if streq protocol (some "http".toList) then 80
  else -1

/-- The host without its port, and the port. Brackets around a host are dropped only when a port
follows. -/
def splitPort (protocol host : Option CString) : Option CString × ℤ :=
  let colonIdx := strrchr host ':'
  if 0 < colonIdx ∧ strrchr host ']' < colonIdx then
    let hostStr := host.getD []
    let name := hostStr.take colonIdx.toNat
    let bare := if name.head? = some '[' ∧ name.getLast? = some ']' then
        (hostStr.drop 1).take (colonIdx.toNat - 2)
      else name
    (some bare, atoi (hostStr.drop (colonIdx.toNat + 1)))
  else (host, defaultPort protocol)

/-- The zone index of an IPv6 address is decoded. -/
def decodeZone (host : Option CString) : Option CString :=
  if isIpv6Address host then
    host.map fun host ↦
      match indexOf "%25".toList host with
      | some zone => host.take (zone + 1) ++ host.drop (zone + 3)
      | none => host
  else host

/-- The path in front of a query and a fragment of a text. -/
def readPath (text : CString) : CString :=
  let sharpIdx := strstr (some text) (some "#".toList)
  let questionIdx := strstr (some text) (some "?".toList)
  if 0 ≤ questionIdx ∧ (sharpIdx < 0 ∨ questionIdx < sharpIdx) then text.take questionIdx.toNat
  else if 0 ≤ sharpIdx then text.take sharpIdx.toNat
  else text

/-- The query of a text. -/
def readQuery (text : CString) : Option CString :=
  let sharpIdx := strstr (some text) (some "#".toList)
  let questionIdx := strstr (some text) (some "?".toList)
  if 0 ≤ questionIdx ∧ (sharpIdx < 0 ∨ questionIdx < sharpIdx) then
    let behind := text.drop (questionIdx.toNat + 1)
    some (if 0 ≤ sharpIdx then behind.take (sharpIdx.toNat - (questionIdx.toNat + 1)) else behind)
  else none

/-- The fragment of a text. -/
def readFragment (text : CString) : Option CString :=
  let sharpIdx := strstr (some text) (some "#".toList)
  if 0 ≤ sharpIdx then some (text.drop (sharpIdx.toNat + 1)) else none

/-- The path of a text without a protocol: the whole text, cut only when what is left of it has a
query or a fragment. -/
def relativePath (value left : CString) : Option CString :=
  if 0 ≤ strstr (some left) (some "#".toList) ∨ 0 ≤ strstr (some left) (some "?".toList) then
    some (readPath left)
  else stringAddValue none (some value)

namespace NetUri

/-- `mupnp_net_uri_setvalue`: everything that was set before is cleared. -/
def setValue (value : CString) : NetUri :=
  let (protocol, behindProtocol) := readProtocol value
  let (user, password, behindUser) := readUser behindProtocol
  let (hostPort, left) := readHost protocol.isSome behindUser
  let (host, port) := splitPort protocol hostPort
  { uri := some value
    protocol := protocol
    user := user
    password := password
    host := decodeZone host
    port := port
    path := if protocol.isSome then some (readPath left) else relativePath value left
    query := readQuery left
    fragment := readFragment left }

/-- `mupnp_net_uri_isabsolute`. -/
def isAbsolute (uri : NetUri) : Bool := decide (0 < stringLength uri.protocol)

/-- `mupnp_net_uri_hasquery`. -/
def hasQuery (uri : NetUri) : Bool := decide (0 < stringLength uri.query)

/-- `mupnp_net_uri_getrequest`: the path, with the query behind it. -/
def getRequest (uri : NetUri) : Option CString :=
  if uri.hasQuery = false then uri.path
  else stringAddValue (stringAddValue (stringSetValue none uri.path) (some "?".toList)) uri.query

/-- `mupnp_net_uri_setpath`. -/
def setPath (uri : NetUri) (value : Option CString) : NetUri :=
  { uri with path := stringSetValue uri.path value }

/-- `mupnp_net_uri_addpath`. -/
def addPath (uri : NetUri) (value : Option CString) : NetUri :=
  { uri with path := stringAddValue uri.path value }

/-- `mupnp_net_uri_setquery`. -/
def setQuery (uri : NetUri) (value : Option CString) : NetUri :=
  { uri with query := stringSetValue uri.query value }

/-- `mupnp_net_uri_getupnpbasepath`: the path up to its last slash, or the whole path without one.
-/
def getUpnpBasePath (uri : NetUri) : Option CString :=
  if strlen uri.path ≤ 0 then none
  else uri.path.map fun path ↦
    match lastIndexOf '/' path with
    | some position => path.take (position + 1)
    | none => path

/-- `mupnp_net_uri_rebuild`: the text is made from the parts again. -/
def rebuild (uri : NetUri) : NetUri :=
  let delimited := stringAddValue (stringSetValue uri.uri uri.protocol) (some "://".toList)
  let hosted := stringAddValue (stringAddValue delimited uri.host) (some ":".toList)
  let ported := stringAddValue hosted (some (long2str uri.port))
  let slashed :=
    if (uri.path.getD []).head? = some '/' then ported else stringAddValue ported (some "/".toList)
  let pathed := stringAddValue slashed uri.path
  let queried :=
    if strstr uri.path (some "?".toList) = -1 ∧ 0 < strlen uri.query then
      stringAddValue (stringAddValue pathed (some "?".toList)) uri.query
    else pathed
  { uri with uri := if 0 < strlen uri.path then queried else ported }

/-- `mupnp_net_uri_isequivalent`: the path of an address is a relative one. -/
def isEquivalent (url relativeUrl : Option CString) : Bool :=
  strcmp (url.bind fun url ↦ (setValue url).path) relativeUrl == 0

end NetUri

/-- `mupnp_net_uri_isabsolutepath`. -/
def isAbsolutePath (uripath : CString) : Bool := uripath.head? == some '/'

end Mupnp.Net
