import Mupnp.Http.HttpHeaderList
import Mupnp.Util.LongString

/-!
# SSDP packets

`ssdp/ssdp_packet.c` with the macros of `ssdp/ssdp_server.h`, and `mupnp_usn_getudn` of
`control/control_function.c`. A packet keeps the address of the interface it came in through, its
headers and the time at which it was received or copied. The data buffer, the ports and the user
data are left out: nothing the control point decides depends on them.
-/

set_option autoImplicit false
set_option relaxedAutoImplicit false

namespace Mupnp.Ssdp

open Util Http

/-- An `mUpnpSSDPPacket`: the local address of its datagram, its headers and its time stamp. -/
structure SsdpPacket where
  localAddress : Option CString
  headers : HttpHeaderList
  timeStamp : ℤ
  deriving DecidableEq

namespace SsdpPacket

/-- `mupnp_ssdp_packet_new`: no address and no headers. -/
def new : SsdpPacket := ⟨none, [], 0⟩

def getHeaderValue (ssdpPkt : SsdpPacket) (name : String) : Option CString :=
  headerListGetValue ssdpPkt.headers name.toList

def getLocation (ssdpPkt : SsdpPacket) : Option CString := ssdpPkt.getHeaderValue "Location"

def getUsn (ssdpPkt : SsdpPacket) : Option CString := ssdpPkt.getHeaderValue "USN"

def getNt (ssdpPkt : SsdpPacket) : Option CString := ssdpPkt.getHeaderValue "NT"

def getNts (ssdpPkt : SsdpPacket) : Option CString := ssdpPkt.getHeaderValue "NTS"

def getSt (ssdpPkt : SsdpPacket) : Option CString := ssdpPkt.getHeaderValue "ST"

def getCacheControl (ssdpPkt : SsdpPacket) : Option CString :=
  ssdpPkt.getHeaderValue "Cache-Control"

/-- `MUPNP_DEVICE_SSDP_CONFIGID` of `device.c`. -/
def getConfigId (ssdpPkt : SsdpPacket) : Option CString :=
  ssdpPkt.getHeaderValue "CONFIGID.UPNP.ORG"

/-- The value contains the text: the macros test `0 <= mupnp_strstr(value, text)`. -/
def mentions (value : Option CString) (text : String) : Bool :=
  decide (0 ≤ strstr value (some text.toList))

/-- `mupnp_ssdp_packet_isrootdevice`. -/
def isRootDevice (ssdpPkt : SsdpPacket) : Bool :=
  mentions ssdpPkt.getNt "upnp:rootdevice" || mentions ssdpPkt.getSt "upnp:rootdevice" ||
    mentions ssdpPkt.getUsn "upnp:rootdevice"

/-- `mupnp_ssdp_packet_isalive`. -/
def isAlive (ssdpPkt : SsdpPacket) : Bool := mentions ssdpPkt.getNts "ssdp:alive"

/-- `mupnp_ssdp_packet_isbyebye`. -/
def isByebye (ssdpPkt : SsdpPacket) : Bool := mentions ssdpPkt.getNts "ssdp:byebye"

/-- `mupnp_ssdp_packet_getmaxage`: the position of `=` is counted from `max-age`, but the number is
read at that distance from the start of the header. -/
def getMaxAge (ssdpPkt : SsdpPacket) : ℤ :=
  match ssdpPkt.getCacheControl with
  | none => 0
  | some cacheControl =>
    let maxAgeIdx := strstr (some cacheControl) (some "max-age".toList)
    if maxAgeIdx < 0 then 0
    else
      let equalIdx := strstr (some (cacheControl.drop maxAgeIdx.toNat)) (some "=".toList)
      if equalIdx ≤ 0 then 0 else str2long (some (cacheControl.drop (equalIdx.toNat + 1)))

theorem isLong_getMaxAge (ssdpPkt : SsdpPacket) : IsLong ssdpPkt.getMaxAge := by
  have hzero : IsLong 0 := ⟨by decide, by decide⟩
  unfold getMaxAge
  split
  · exact hzero
  · dsimp only
    split_ifs
    · exact hzero
    · exact hzero
    · exact isLong_str2long _

/-- `mupnp_ssdp_packet_getexpiration`: zero for a packet that never expires. -/
def getExpiration (ssdpPkt : SsdpPacket) : ℤ :=
  if ssdpPkt.getMaxAge = 0 then 0 else longAdd ssdpPkt.timeStamp ssdpPkt.getMaxAge

/-- `mupnp_ssdp_packet_copy`, run at the time `now`: the headers of the source replace those of the
target, and the target keeps its local address when the source has none. -/
def copy (dst src : SsdpPacket) (now : ℤ) : SsdpPacket where
  localAddress := stringSetValue dst.localAddress src.localAddress
  headers := src.headers
  timeStamp := now

@[simp] theorem getHeaderValue_copy (dst src : SsdpPacket) (now : ℤ) (name : String) :
    (copy dst src now).getHeaderValue name = src.getHeaderValue name := rfl

@[simp] theorem getLocation_copy (dst src : SsdpPacket) (now : ℤ) :
    (copy dst src now).getLocation = src.getLocation := rfl

@[simp] theorem getUsn_copy (dst src : SsdpPacket) (now : ℤ) :
    (copy dst src now).getUsn = src.getUsn := rfl

@[simp] theorem getConfigId_copy (dst src : SsdpPacket) (now : ℤ) :
    (copy dst src now).getConfigId = src.getConfigId := rfl

end SsdpPacket

/-- `MUPNP_UDN_LEN_MAX`: the size of the buffers that hold a UDN, with the terminator. -/
def udnLenMax : ℕ := 128

/-- `mupnp_usn_getudn`: the text before the first `::`, cut to the buffer. `mupnp_strtrim` returns
the position after the leading blanks, which is dropped here, so only the trailing ones go. -/
def usnGetUdn (usn : Option CString) (udnBufLen : ℕ) : CString :=
  match usn with
  | none => []
  | some usn =>
    let idx := strstr (some usn) (some "::".toList)
    if idx < 0 then strrtrim (usn.take (udnBufLen - 1)) " ".toList
    else if idx < udnBufLen then strrtrim (usn.take idx.toNat) " ".toList
    else strrtrim (usn.take (udnBufLen - 1)) " ".toList

/-- The UDN fits into the buffer with its terminator. -/
theorem usnGetUdn_length_lt (usn : Option CString) {udnBufLen : ℕ} (hpos : 0 < udnBufLen) :
    (usnGetUdn usn udnBufLen).length < udnBufLen := by
  have htrim : ∀ str : CString, (strrtrim str " ".toList).length ≤ str.length := fun str ↦
    (List.rdropWhile_prefix _ str).length_le
  cases usn with
  | none => exact hpos
  | some usn =>
    simp only [usnGetUdn]
    split_ifs with hmissing hfits
    · have := htrim (usn.take (udnBufLen - 1))
      rw [List.length_take] at this
      omega
    · have := htrim (usn.take (strstr (some usn) (some "::".toList)).toNat)
      rw [List.length_take] at this
      omega
    · have := htrim (usn.take (udnBufLen - 1))
      rw [List.length_take] at this
      omega

end Mupnp.Ssdp
