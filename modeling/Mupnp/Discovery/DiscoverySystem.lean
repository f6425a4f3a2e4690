import Mupnp.Discovery.ControlPoint
import Mupnp.Foundation.OwnershipLedger
import Mupnp.Foundation.ThreadTable
import Mupnp.Foundation.TransitionSystem

/-!
# Threads over the control point

The threads that announce, remove, expire and stop, and the steps they take. A step is one section
under the control point mutex, or one access to a device object outside of it; between two steps
any other thread may run. What a thread carries from one step to the next is its local state, and
`Thread.held` are the device pointers among it.

The ledger of the system records which device objects were created and which were deleted. A step
that reads or deletes an object through a pointer to nothing that the control point holds sets
`useAfterFree`.
-/

set_option autoImplicit false
set_option relaxedAutoImplicit false

namespace Mupnp.Discovery

open Foundation Util Ssdp

/-- Who called `mupnp_controlpoint_removedevicebyssdppacket`, with what the caller still needs. -/
inductive Caller where
  /-- The SSDP listener; it needs nothing more. -/
  | byebye
  /-- The expiration handler, with the time of its pass and the device it will go on with. -/
  | expiration (currTime : ℤ) (dev : Option DeviceId)
  /-- The interface change handler, with the address of the removed interface, the addresses of
  those that come next and the device it will go on with. -/
  | ipChanged (address : CString) (rest : List CString) (tmp : Option DeviceId)
  deriving DecidableEq

/-- Where a thread stands between two steps. -/
inductive Thread where
  | idle
  /-- In `mupnp_controlpoint_fetchdevice`, with a reservation and without the lock. -/
  | fetching (ssdpPkt : SsdpPacket) (reservation : ControlPoint.Reservation)
  /-- About to read the USN of a packet that belongs to a device. -/
  | readingPacket (dev : DeviceId) (caller : Caller)
  /-- In `mupnp_controlpoint_removedevicebyssdppacket`, before the lock. -/
  | removing (udn : CString) (caller : Caller)
  /-- In the listener call of `mupnp_controlpoint_removedevicebyssdppacket`. -/
  | deleting (dev : DeviceId) (caller : Caller)
  /-- Back in the caller of a removal, before it takes the lock again. -/
  | resuming (caller : Caller)
  /-- In `mupnp_controlpoint_ipchanged`, before the lock for the next interface. -/
  | scanning (addresses : List CString)
  /-- In `mupnp_controlpoint_stop`, waiting for the workers and the pending fetches. -/
  | stopping (restart : Bool)
  /-- In the listener call of `mupnp_controlpoint_stop` for a device. -/
  | walking (dev : DeviceId) (restart : Bool)
  /-- In `mupnp_controlpoint_start`, after its call of the stop function. -/
  | starting
  /-- After the use of a pointer to a deleted object. What it does then is not modelled. -/
  | crashed

namespace Thread

instance : Inhabited Thread := ⟨idle⟩

def isIdle : Thread → Bool
  | idle => true
  | _ => false

end Thread

/-- The device pointer that the caller of a removal still needs. -/
def Caller.held : Caller → List DeviceId
  | byebye => []
  | expiration _ dev => dev.toList
  | ipChanged _ _ tmp => tmp.toList

/-- The device pointers that a thread carries over an unlocked window. -/
def Thread.held : Thread → List DeviceId
  | idle | fetching _ _ | scanning _ | stopping _ | starting | crashed => []
  | readingPacket dev caller => dev :: caller.held
  | removing _ caller => caller.held
  | deleting dev caller => dev :: caller.held
  | resuming caller => caller.held
  | walking dev _ => [dev]

/-- A control point with the threads that work on it. -/
structure System where
  ctrlPoint : ControlPoint
  threads : ThreadTable ThreadId Thread
  ledger : Ledger DeviceId
  useAfterFree : Bool

/-- What can happen next. Each step names the thread that takes it. -/
inductive Action where
  /-- `mupnp_controlpoint_ssdplistner` receives a packet. -/
  | ssdpNotify (thread : ThreadId) (ssdpPkt : SsdpPacket) (now : ℤ) (memory : Bool)
  /-- `mupnp_controlpoint_ssdpresponselistner` receives a packet. -/
  | ssdpResponse (thread : ThreadId) (ssdpPkt : SsdpPacket) (now : ℤ) (memory : Bool)
  /-- A download ends, with a description or not, and the fetch is committed. -/
  | commit (thread : ThreadId) (description : Option Device) (fetchTime now : ℤ)
  /-- The expiration handler starts a pass. -/
  | expirationPass (thread : ThreadId) (currTime : ℤ)
  /-- `mupnp_controlpoint_ipchanged` is called when interfaces with these addresses are gone. -/
  | ipChanged (thread : ThreadId) (addresses : List CString)
  /-- The interface change handler takes the lock for the next address. -/
  | scan (thread : ThreadId)
  /-- The USN of a device's own packet is read for a removal. -/
  | readPacket (thread : ThreadId)
  /-- The first section of a removal. -/
  | lookup (thread : ThreadId)
  /-- The second section of a removal. -/
  | delete (thread : ThreadId)
  /-- The caller of a removal takes the lock again. -/
  | resume (thread : ThreadId)
  /-- `mupnp_controlpoint_stop` is called, or `mupnp_controlpoint_start`, which calls it. -/
  | stop (thread : ThreadId) (restart : Bool)
  /-- The workers were joined and nothing is pending. -/
  | joined (thread : ThreadId)
  /-- The listener call of the stop function returns. -/
  | walkOn (thread : ThreadId)
  /-- The start function accepts work again. -/
  | start (thread : ThreadId)

namespace System

/-- A control point that was just created, before anything was received. -/
def init (deviceListener : Bool) : System :=
  ⟨ControlPoint.new deviceListener, ThreadTable.init, Ledger.empty, false⟩

def thread (s : System) (t : ThreadId) : Thread := s.threads.get t

/-- Changes what the mutex protects and where a thread stands. -/
def update (s : System) (ctrlPoint : ControlPoint) (t : ThreadId) (thread : Thread) : System :=
  { s with ctrlPoint := ctrlPoint, threads := s.threads.set t thread }

/-- The thread used a pointer to an object that is gone. -/
def fail (s : System) (t : ThreadId) : System :=
  { s with threads := s.threads.set t .crashed, useAfterFree := true }

/-- Where a thread stands when a removal is over. -/
def afterRemoval : Caller → Thread
  | .byebye => .idle
  | .expiration currTime dev => .resuming (.expiration currTime dev)
  | .ipChanged address rest tmp => .resuming (.ipChanged address rest tmp)

/-- `mupnp_controlpoint_adddevicebyssdppacket`: the packet is copied and its fetch begins. An
announcement whose copy cannot be allocated is dropped and is no step. -/
def addDeviceBySsdpPacket (s : System) (t : ThreadId) (ssdpPkt : SsdpPacket) (now : ℤ)
    (memory : Bool) : System :=
  let packet := SsdpPacket.new.copy ssdpPkt now
  let reserved := s.ctrlPoint.reserve t packet now memory
  match reserved.2 with
  | none => s.update reserved.1 t .idle
  | some reservation => s.update reserved.1 t (.fetching packet reservation)

/-- The second section of a fetch. The objects of a description are new, and what is left over when
the fetch is committed or was discarded before is deleted. -/
def commitFetch (s : System) (t : ThreadId) (ssdpPkt : SsdpPacket)
    (reservation : ControlPoint.Reservation) (fetch : Fetch) (description : Option Device)
    (fetchTime now : ℤ) : System :=
  let candidate := ControlPoint.createCandidate ssdpPkt fetch.udn description fetchTime
  let committed := s.ctrlPoint.commit fetch ssdpPkt reservation candidate now
  let leftOver := if candidate.isNone then description else committed.2
  { s.update committed.1 t .idle with
    ledger := (s.ledger.alloc (deviceIds description.toList)).free (deviceIds leftOver.toList) }

/-- The loop of the expiration handler over the device list, from a device on: a device that has
expired is removed, and the handler keeps a pointer to the one after it. -/
def expirationHandler (currTime : ℤ) : List Device → Thread
  | [] => .idle
  | dev :: rest =>
    if 0 < dev.ssdpPkt.getExpiration ∧ dev.ssdpPkt.getExpiration ≤ currTime then
      .readingPacket dev.id (.expiration currTime (rest.head?.map Device.id))
    else expirationHandler currTime rest

/-- The loop of the interface change handler over the device list for one address, from a device
on: a device that was received through that interface is removed, and the handler keeps a pointer
to the one after it. -/
def ipChangedLoop (address : CString) (rest : List CString) : List Device → Thread
  | [] => .scanning rest
  | dev :: tmp =>
    if strcmp dev.ssdpPkt.localAddress (some address) = 0 then
      .readingPacket dev.id (.ipChanged address rest (tmp.head?.map Device.id))
    else ipChangedLoop address rest tmp

/-- The loop of the stop function over the device list, from a device on, and what follows it: the
listener is called for each device that has a UDN, and then the list is cleared. -/
def stopLoop (s : System) (t : ThreadId) (restart : Bool) : List Device → System
  | [] =>
    { s.update s.ctrlPoint.clearDevices t (if restart then .starting else .idle) with
      ledger := s.ledger.free (deviceIds s.ctrlPoint.deviceList) }
  | dev :: rest =>
    if dev.udn.isSome && s.ctrlPoint.deviceListener then
      s.update s.ctrlPoint t (.walking dev.id restart)
    else stopLoop s t restart rest

/-- A thread deletes a device object. -/
def deleteDevice (s : System) (t : ThreadId) (dev : DeviceId) (caller : Caller) : System :=
  if dev ∈ deviceIds s.ctrlPoint.deviceList then
    { s.update (s.ctrlPoint.deleteDevice dev) t (afterRemoval caller) with
      ledger := s.ledger.free (s.ctrlPoint.deletedIds dev) }
  else s.fail t

/-- The first section of a removal. Without a listener the object is deleted in the same section. -/
def lookupDevice (s : System) (t : ThreadId) (udn : CString) (caller : Caller) : System :=
  let invalidated := { s with ctrlPoint := s.ctrlPoint.invalidate }
  match s.ctrlPoint.invalidate.getDeviceByUdn (some udn) with
  | none => invalidated.update s.ctrlPoint.invalidate t (afterRemoval caller)
  | some dev =>
    if s.ctrlPoint.deviceListener then
      invalidated.update s.ctrlPoint.invalidate t (.deleting dev.id caller)
    else invalidated.deleteDevice t dev.id caller

/-- A thread reads the USN of the packet of a device. -/
def readPacket (s : System) (t : ThreadId) (dev : DeviceId) (caller : Caller) : System :=
  match s.ctrlPoint.findObject dev with
  | none => s.fail t
  | some dev =>
    s.update s.ctrlPoint t (.removing (usnGetUdn dev.ssdpPkt.getUsn udnLenMax) caller)

/-- The caller of a removal goes on. The expiration handler reads the next device and steps over it;
the interface change handler examines it. -/
def resume (s : System) (t : ThreadId) : Caller → System
  | .byebye => s.update s.ctrlPoint t .idle
  | .expiration _ none => s.update s.ctrlPoint t .idle
  | .expiration currTime (some dev) =>
    if dev ∈ deviceIds s.ctrlPoint.deviceList then
      s.update s.ctrlPoint t (expirationHandler currTime (s.ctrlPoint.devicesAfter dev))
    else s.fail t
  | .ipChanged _ rest none => s.update s.ctrlPoint t (.scanning rest)
  | .ipChanged address rest (some tmp) =>
    if tmp ∈ deviceIds s.ctrlPoint.deviceList then
      s.update s.ctrlPoint t (ipChangedLoop address rest (s.ctrlPoint.devicesFrom tmp))
    else s.fail t

/-- Every worker thread has ended, so that the stop function can go on. -/
def workersEnded (s : System) : Bool :=
  s.threads.allExcept (fun | .worker _ => false | .application _ => true) Thread.isIdle

/-- One step of the system; nothing when the thread is not where the action takes place. -/
def step (s : System) : Action → Option System
  | .ssdpNotify t ssdpPkt now memory =>
    match s.thread t with
    | .idle =>
      if ssdpPkt.isRootDevice then
        if ssdpPkt.isAlive then some (s.addDeviceBySsdpPacket t ssdpPkt now memory)
        else if ssdpPkt.isByebye then
          some (s.update s.ctrlPoint t (.removing (usnGetUdn ssdpPkt.getUsn udnLenMax) .byebye))
        else some s
      else some s
    | _ => none
  | .ssdpResponse t ssdpPkt now memory =>
    match s.thread t with
    | .idle => some (s.addDeviceBySsdpPacket t ssdpPkt now memory)
    | _ => none
  | .commit t description fetchTime now =>
    match s.thread t, s.ctrlPoint.pendingFetches.find? (·.owner = t) with
    | .fetching ssdpPkt reservation, some fetch =>
      if s.ledger.Fresh (deviceIds description.toList) then
        some (s.commitFetch t ssdpPkt reservation fetch description fetchTime now)
      else none
    | _, _ => none
  | .expirationPass t currTime =>
    match s.thread t with
    | .idle => some (s.update s.ctrlPoint t (expirationHandler currTime s.ctrlPoint.deviceList))
    | _ => none
  | .ipChanged t addresses =>
    match s.thread t with
    | .idle => some (s.update s.ctrlPoint t (.scanning addresses))
    | _ => none
  | .scan t =>
    match s.thread t with
    | .scanning [] => some (s.update s.ctrlPoint t .idle)
    | .scanning (address :: rest) =>
      some (s.update s.ctrlPoint t (ipChangedLoop address rest s.ctrlPoint.deviceList))
    | _ => none
  | .readPacket t =>
    match s.thread t with
    | .readingPacket dev caller => some (s.readPacket t dev caller)
    | _ => none
  | .lookup t =>
    match s.thread t with
    | .removing udn caller => some (s.lookupDevice t udn caller)
    | _ => none
  | .delete t =>
    match s.thread t with
    | .deleting dev caller => some (s.deleteDevice t dev caller)
    | _ => none
  | .resume t =>
    match s.thread t with
    | .resuming caller => some (s.resume t caller)
    | _ => none
  | .stop t restart =>
    match s.thread t with
    | .idle => some (s.update s.ctrlPoint.beginStop t (.stopping restart))
    | _ => none
  | .joined t =>
    match s.thread t with
    | .stopping restart =>
      if s.workersEnded && s.ctrlPoint.pendingFetches.isEmpty then
        some (s.stopLoop t restart s.ctrlPoint.deviceList)
      else none
    | _ => none
  | .walkOn t =>
    match s.thread t with
    | .walking dev restart =>
      if dev ∈ deviceIds s.ctrlPoint.deviceList then
        some (s.stopLoop t restart (s.ctrlPoint.devicesAfter dev))
      else some (s.fail t)
    | _ => none
  | .start t =>
    match s.thread t with
    | .starting => some (s.update s.ctrlPoint.beginStart t .idle)
    | _ => none

end System

/-- The discovery side of a control point as a transition system. -/
def discovery : TransitionSystem System Action := ⟨System.step⟩

/-! ### A small network -/

/-- A packet with a USN and a LOCATION header. -/
def packetOf (usn location : String) : SsdpPacket where
  localAddress := none
  headers := [⟨some "USN".toList, some usn.toList⟩, ⟨some "Location".toList, some location.toList⟩]
  timeStamp := 0

/-- A description that declares a UDN and embedded devices. -/
def describedDevice (id : DeviceId) (udn : String) (devices : List Device) : Device :=
  .node ⟨id, some udn.toList, none, [], SsdpPacket.new, 80⟩ devices

/-- The search response of a root device. -/
def rootResponse : Action :=
  .ssdpResponse (.worker 0) (packetOf "uuid:a::upnp:rootdevice" "http://a/1") 0 true

/-- The description of a root device with an embedded one. -/
def rootDescription : Device := describedDevice 1 "uuid:a" [describedDevice 2 "uuid:b" []]

/-- The end of the download that the search response starts. -/
def rootCommit : Action := .commit (.worker 0) (some rootDescription) 1 2

/-- The byebye notification of the root device, received by a worker thread. -/
def rootByebye (number : ℕ) : Action :=
  .ssdpNotify (.worker number)
    { packetOf "uuid:a::upnp:rootdevice" "http://a/1" with
      headers := [⟨some "NT".toList, some "upnp:rootdevice".toList⟩,
        ⟨some "NTS".toList, some "ssdp:byebye".toList⟩,
        ⟨some "USN".toList, some "uuid:a::upnp:rootdevice".toList⟩] }
    3 true

/-- The control point while the description of the root device is downloaded. -/
def downloading : System :=
  (System.init true).addDeviceBySsdpPacket (.worker 0)
    (packetOf "uuid:a::upnp:rootdevice" "http://a/1") 0 true

end Mupnp.Discovery
