import Mupnp.Ssdp.SsdpMessage

/-!
# The threads that receive SSDP messages

`mupnp_ssdp_server_thread` and `mupnp_ssdpresponse_server_thread` receive every datagram into the
same packet, add its headers to the packet, call the listener and clear the packet. Clearing leaves
the addresses and the data as they are. The listener is still called as if each datagram were
received into a new packet, other than the local address, which a datagram without one takes from
the datagrams before it (`receiveThread_getElem?`). What is heard of a message that fits the receive
buffer does not depend on any other datagram (`heard_message`).

The listener leaves the packet as it is. The filter table of the packet is modelled with the filter
that uses it.
-/

set_option autoImplicit false
set_option relaxedAutoImplicit false

namespace Mupnp.Ssdp

open Foundation Util Http

/-- A datagram that arrives: its bytes, the address and the port of the sender if `getnameinfo`
gives them, and the local address that `mupnp_net_selectaddr` selects for the sender if it can. -/
structure Datagram where
  bytes : List Char
  sender : Option (CString × ℤ)
  selected : Option CString
  deriving DecidableEq

/-- What a call of `recvfrom` gives. -/
inductive Reception where
  | failed
  | received (dgm : Datagram)
  deriving DecidableEq

/-- The packet of a receive thread, with what is kept of its datagram. -/
structure ReceivedPacket where
  data : Option CString
  localAddress : Option CString
  remoteAddress : Option CString
  remotePort : ℤ
  headers : HttpHeaderList
  deriving DecidableEq

namespace ReceivedPacket

/-- `mupnp_ssdp_packet_new`. -/
def new : ReceivedPacket := ⟨none, none, none, 0, []⟩

/-- `mupnp_socket_recv`, of a datagram that is not empty. -/
def socketRecv (ssdpPkt : ReceivedPacket) (dgm : Datagram) : ReceivedPacket :=
  let (remoteAddress, remotePort) := match dgm.sender with
    | some (remoteAddr, port) => (remoteAddr, port)
    | none => ([], 0)
  { ssdpPkt with
    data := stringSetValue ssdpPkt.data (some (recvData dgm.bytes))
    remoteAddress := stringSetValue ssdpPkt.remoteAddress (some remoteAddress)
    remotePort := remotePort
    localAddress := stringSetValue ssdpPkt.localAddress dgm.selected }

/-- `mupnp_httpmu_socket_recv` and `mupnp_httpu_socket_recv`, of a datagram that is not empty: the
second one sets the data to `NULL`, which leaves it as it is. -/
def recv (ssdpPkt : ReceivedPacket) (dgm : Datagram) : ReceivedPacket :=
  let received := ssdpPkt.socketRecv dgm
  { received with headers := setHeader received.headers (received.data.getD []) }

/-- `mupnp_ssdp_packet_clear`. -/
def clear (ssdpPkt : ReceivedPacket) : ReceivedPacket :=
  { ssdpPkt with data := stringSetValue ssdpPkt.data none, headers := [] }

/-- The packet as the control point keeps it. -/
def toSsdpPacket (ssdpPkt : ReceivedPacket) (timeStamp : ℤ) : SsdpPacket :=
  ⟨ssdpPkt.localAddress, ssdpPkt.headers, timeStamp⟩

end ReceivedPacket

/-- The loop of the receive threads: the packets that the listener is called with. A thread that is
stopped is one to which nothing more arrives. -/
def receiveThread (ssdpPkt : ReceivedPacket) : List Reception → List ReceivedPacket
  | [] => []
  | .failed :: _ => []
  | .received dgm :: rest =>
    if dgm.bytes = [] then receiveThread ssdpPkt rest
    else ssdpPkt.recv dgm :: receiveThread (ssdpPkt.recv dgm).clear rest

/-- The datagrams that a thread gets to see: those with a content before the first failure. -/
def arrived : List Reception → List Datagram
  | [] => []
  | .failed :: _ => []
  | .received dgm :: rest => if dgm.bytes = [] then arrived rest else dgm :: arrived rest

/-- The local address that was selected last. -/
def lastSelected (before : Option CString) (dgms : List Datagram) : Option CString :=
  dgms.foldl (fun localAddress dgm ↦ stringSetValue localAddress dgm.selected) before

section Thread

variable {ssdpPkt : ReceivedPacket} {dgm : Datagram}

/-- A packet without headers is filled like a new one, other than its local address. -/
theorem recv_eq_new (hclear : ssdpPkt.headers = []) (dgm : Datagram) :
    ssdpPkt.recv dgm =
      { ReceivedPacket.new.recv dgm with
        localAddress := stringSetValue ssdpPkt.localAddress dgm.selected } := by
  obtain ⟨data, localAddress, remoteAddress, remotePort, headers⟩ := ssdpPkt
  obtain rfl : headers = [] := hclear
  rfl

theorem receiveThread_length (receptions : List Reception) (ssdpPkt : ReceivedPacket) :
    (receiveThread ssdpPkt receptions).length = (arrived receptions).length := by
  induction receptions generalizing ssdpPkt with
  | nil => rfl
  | cons reception rest ih =>
    cases reception with
    | failed => rfl
    | received dgm =>
      rw [receiveThread, arrived]
      by_cases hempty : dgm.bytes = []
      · rw [if_pos hempty, if_pos hempty]
        exact ih ssdpPkt
      · rw [if_neg hempty, if_neg hempty, List.length_cons, List.length_cons, ih]

/-- The packet that the listener is called with for a datagram of a run. -/
theorem receiveThread_getElem? {receptions : List Reception} {before after : List Datagram}
    (hclear : ssdpPkt.headers = []) (h : arrived receptions = before ++ dgm :: after) :
    (receiveThread ssdpPkt receptions)[before.length]? =
      some { ReceivedPacket.new.recv dgm with
        localAddress := lastSelected ssdpPkt.localAddress (before ++ [dgm]) } := by
  induction receptions generalizing ssdpPkt before with
  | nil => exact absurd h (by simp [arrived])
  | cons reception rest ih =>
    cases reception with
    | failed => exact absurd h (by simp [arrived])
    | received first =>
      rw [arrived] at h
      rw [receiveThread]
      by_cases hempty : first.bytes = []
      · rw [if_pos hempty] at h ⊢
        exact ih hclear h
      · rw [if_neg hempty] at h ⊢
        cases before with
        | nil =>
          obtain ⟨rfl, -⟩ := List.cons.inj h
          rw [List.length_nil, List.getElem?_cons_zero, recv_eq_new hclear]
          rfl
        | cons other before =>
          obtain ⟨rfl, hrest⟩ := List.cons.inj h
          rw [List.length_cons, List.getElem?_cons_succ, ih rfl hrest, recv_eq_new hclear]
          rfl

/-- A packet without headers that receives a message has its headers and its text. -/
theorem recv_message (hclear : ssdpPkt.headers = []) {word text : CString}
    {headers : HttpHeaderList} (hfirst : IsFirstLine word text)
    (hfields : ∀ header ∈ headers, IsField header)
    (hlength : (messageText word text headers).length ≤ dgramRecvBufSize)
    (sender : Option (CString × ℤ)) (selected : Option CString) :
    (ssdpPkt.recv ⟨messageText word text headers, sender, selected⟩).headers =
        firstLineHeader word text :: headers ∧
      (ssdpPkt.recv ⟨messageText word text headers, sender, selected⟩).data =
        some (messageText word text headers) := by
  obtain ⟨hdata, hheaders⟩ := (received_message hfirst hfields []).1 hlength
  rw [recv_eq_new hclear]
  exact ⟨hheaders, congrArg some hdata⟩

/-- Messages with one first line are heard with their headers, each behind the one of its first
line. -/
theorem headers_receiveThread {word text : CString} (hfirst : IsFirstLine word text)
    {messages : List HttpHeaderList}
    (h : ∀ headers ∈ messages, (∀ header ∈ headers, IsField header) ∧
      (messageText word text headers).length ≤ dgramRecvBufSize)
    (hclear : ssdpPkt.headers = []) (sender : Option (CString × ℤ)) (selected : Option CString) :
    (receiveThread ssdpPkt (messages.map fun headers ↦
        .received ⟨messageText word text headers, sender, selected⟩)).map ReceivedPacket.headers =
      messages.map fun headers ↦ firstLineHeader word text :: headers := by
  induction messages generalizing ssdpPkt with
  | nil => rfl
  | cons headers messages ih =>
    rw [List.forall_mem_cons] at h
    obtain ⟨⟨hfields, hlength⟩, h⟩ := h
    have hne : messageText word text headers ≠ [] := by
      intro hnil
      simp only [messageText, List.append_assoc, List.append_eq_nil_iff] at hnil
      exact hfirst.token.ne_nil hnil.1
    rw [List.map_cons, receiveThread, if_neg hne, List.map_cons, List.map_cons,
      (recv_message hclear hfirst hfields hlength sender selected).1, ih h rfl]

end Thread

/-- **What is heard of a message.** In every run of a receive thread, the listener is called once
for each datagram that arrives, in order, with what a new packet makes of the datagram but for the
local address; and for a message it is called with the sender, with the local address if there is
one, and, when the message fits the receive buffer, with its text and its headers behind the one that
the first line makes, whatever the datagrams before it were. Of a longer message the headers whose
lines end within the buffer come first. -/
theorem heard_message (receptions : List Reception) :
    (receiveThread .new receptions).length = (arrived receptions).length ∧
      (∀ (before after : List Datagram) (dgm : Datagram),
        arrived receptions = before ++ dgm :: after →
          (receiveThread .new receptions)[before.length]? =
            some { ReceivedPacket.new.recv dgm with
              localAddress := lastSelected none (before ++ [dgm]) }) ∧
      ∀ (before after : List Datagram) (dgm : Datagram) (word text : CString)
        (headers : HttpHeaderList), arrived receptions = before ++ dgm :: after →
        dgm.bytes = messageText word text headers → IsFirstLine word text →
        (∀ header ∈ headers, IsField header) →
          ∃ heard, (receiveThread .new receptions)[before.length]? = some heard ∧
            heard.remoteAddress = some ((dgm.sender.map Prod.fst).getD []) ∧
            heard.remotePort = (dgm.sender.map Prod.snd).getD 0 ∧
            (∀ address, dgm.selected = some address → heard.localAddress = some address) ∧
            (dgm.bytes.length ≤ dgramRecvBufSize →
              heard.headers = firstLineHeader word text :: headers ∧
                heard.data = some (messageText word text headers)) ∧
            ∀ front behind, headers = front ++ behind →
              (word ++ " ".toList ++ text ++ crlf ++ headerLines front).length ≤
                dgramRecvBufSize → firstLineHeader word text :: front <+: heard.headers := by
  refine ⟨receiveThread_length receptions .new, fun _ _ _ ↦ receiveThread_getElem? rfl, ?_⟩
  intro before after dgm word text headers harrived hbytes hfirst hfields
  obtain ⟨hwhole, hpart⟩ := received_message hfirst hfields []
  refine ⟨_, receiveThread_getElem? rfl harrived, ?_, ?_, ?_, ?_, ?_⟩
  · cases hsender : dgm.sender with
    | none => simp [ReceivedPacket.recv, ReceivedPacket.socketRecv, hsender]
    | some sender => simp [ReceivedPacket.recv, ReceivedPacket.socketRecv, hsender]
  · cases hsender : dgm.sender with
    | none => simp [ReceivedPacket.recv, ReceivedPacket.socketRecv, hsender]
    | some sender => simp [ReceivedPacket.recv, ReceivedPacket.socketRecv, hsender]
  · intro address hselected
    show lastSelected none (before ++ [dgm]) = _
    rw [lastSelected, List.foldl_append, List.foldl_cons, hselected, stringSetValue_some,
      List.foldl_nil]
  · intro hlength
    rw [hbytes] at hlength
    obtain ⟨hdata, hheaders⟩ := hwhole hlength
    constructor
    · rw [← hbytes] at hheaders
      exact hheaders
    · show some (recvData dgm.bytes) = _
      rw [hbytes, hdata]
  · intro front behind hsplit hlength
    have hprefix := hpart front behind hsplit hlength
    rw [← hbytes] at hprefix
    exact hprefix

/-- A short search that comes in behind an empty datagram. -/
theorem heard_message_search :
    ∃ heard, (receiveThread .new [.received ⟨[], none, none⟩,
        .received ⟨messageText "M-SEARCH".toList "* HTTP/1.1".toList
          [⟨some "ST".toList, some "ssdp:all".toList⟩], some ("10.0.0.2".toList, 1900), none⟩])[0]? =
        some heard ∧
      heard.remotePort = 1900 ∧ heard.headers =
        [⟨some "M-SEARCH".toList, some "* HTTP/1.1".toList⟩,
          ⟨some "ST".toList, some "ssdp:all".toList⟩] := by
  have hfields : ∀ header ∈ [(⟨some "ST".toList, some "ssdp:all".toList⟩ : HttpHeader)],
      IsField header := by decide
  obtain ⟨heard, hheard, -, hport, -, hwhole, -⟩ := (heard_message [.received ⟨[], none, none⟩,
    .received ⟨messageText "M-SEARCH".toList "* HTTP/1.1".toList
      [⟨some "ST".toList, some "ssdp:all".toList⟩], some ("10.0.0.2".toList, 1900), none⟩]).2.2
    [] [] _ _ _ _ rfl rfl ⟨⟨by decide, by decide⟩, by decide, ⟨by decide, by decide, by decide⟩⟩
    hfields
  exact ⟨heard, hheard, hport, (hwhole (by decide)).1⟩

end Mupnp.Ssdp
