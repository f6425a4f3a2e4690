import Mupnp.Discovery.ControlPoint

/-!
# The expiration handler of the control point

One pass of the loop of `mupnp_controlpoint_expirationhandler` in `controlpoint_event.c`, with
`mupnp_device_getfirstexpiratedservice` and `mupnp_controlpoint_resubscribe`, when no other thread
is active. The clock stands still during the pass. What the publishers answer to the renewals is a
parameter: each service of a device object has an answer of its own.

The handler follows the `next` pointers of the device list; a device that is no longer in the list
is not come across. After a removal it goes on with the device that was the next one before it,
and does not look at the expiration of that device; when the removal has released that device too,
the handler reads released memory, and the pass has no result.
-/

set_option autoImplicit false
set_option relaxedAutoImplicit false

namespace Mupnp.Expiration

open Foundation Util Ssdp Discovery

/-! ### Renewing a subscription -/

/-- The response to a renewal: the SID and the timeout when it is successful. -/
abbrev RenewalResponse := Option (Option CString × ℤ)

/-- A service by the device object that holds it and its position there. -/
abbrev ServiceKey := DeviceId × ℕ

/-- `MUPNP_SUBSCRIPTION_DELAY`. -/
def subscriptionDelay : ℤ := 30

/-- `mupnp_service_getsubscriptionexpiration`. -/
def getSubscriptionExpiration (service : Service) : ℤ :=
  longAdd (longAdd service.subscriptionTimestamp service.subscriptionTimeout) (-subscriptionDelay)

/-- `mupnp_controlpoint_resubscribe`, run at the time `now`: a renewal that fails clears the SID. -/
def resubscribe (now : ℤ) (subRes : RenewalResponse) (service : Service) : Bool × Service :=
  if !service.isSubscribed then (false, service)
  else
    match subRes with
    | some (sid, timeout) =>
      (true,
        { service with
          subscriptionSid := stringSetValue service.subscriptionSid sid
          subscriptionTimeout := timeout
          subscriptionTimestamp := now })
    | none =>
      (false, { service with subscriptionSid := stringSetValue service.subscriptionSid (some []) })

/-! ### The services of a device -/

/-- What the loop over the services leaves behind: the services, the positions of those whose
renewal was attempted, the earliest expiration so far and the service it belongs to. -/
structure ServiceScan where
  services : List Service
  attempts : List ℕ
  expirationTime : ℤ
  foundSrv : Option Service

/-- The expiration of a subscribed service is positive and not after `now`. -/
def isDue (now : ℤ) (service : Service) : Bool :=
  service.isSubscribed && decide (0 < getSubscriptionExpiration service) &&
    decide (getSubscriptionExpiration service ≤ now)

/-- The body of the loop over the services for a subscribed service: the service, whether its
renewal was attempted, and the expiration that counts, which is zero after a failure. -/
def checkService (now : ℤ) (subRes : RenewalResponse) (srv : Service) : Service × Bool × ℤ :=
  let tmpTime := getSubscriptionExpiration srv
  if 0 < tmpTime ∧ tmpTime ≤ now then
    let resubscribed := resubscribe now subRes srv
    (resubscribed.2, true,
      if resubscribed.1 = false then 0 else getSubscriptionExpiration resubscribed.2)
  else (srv, false, tmpTime)

/-- The loop of `mupnp_device_getfirstexpiratedservice` over the services from a position on. -/
def scanServices (now : ℤ) (subRes : ℕ → RenewalResponse) :
    ℕ → List Service → ℤ → Option Service → ServiceScan
  | _, [], expirationTime, foundSrv => ⟨[], [], expirationTime, foundSrv⟩
  | i, srv :: rest, expirationTime, foundSrv =>
    if srv.isSubscribed = false then
      let later := scanServices now subRes (i + 1) rest expirationTime foundSrv
      { later with services := srv :: later.services }
    else
      let checked := checkService now (subRes i) srv
      let later :=
        if 0 < checked.2.2 ∧ checked.2.2 < expirationTime then
          scanServices now subRes (i + 1) rest checked.2.2 (some checked.1)
        else scanServices now subRes (i + 1) rest expirationTime foundSrv
      { later with
        services := checked.1 :: later.services
        attempts := if checked.2.1 then i :: later.attempts else later.attempts }

/-! ### The services of a tree -/

/-- What a scan of devices leaves behind: the devices, the services whose renewal was attempted, and
the service that was found. -/
structure DeviceScan (α : Type) where
  scanned : α
  attempts : List ServiceKey
  foundSrv : Option Service

mutual

/-- `mupnp_device_getfirstexpiratedservice`. -/
def getFirstExpiratedService (now : ℤ) (subRes : ServiceKey → RenewalResponse) :
    Device → ℤ → DeviceScan Device
  | .node object devices, expirationTime =>
    let own := scanServices now (fun i ↦ subRes (object.id, i)) 0 object.services expirationTime
      none
    let below := getFirstExpiratedServiceIn now subRes devices own.expirationTime own.foundSrv
    ⟨.node { object with services := own.services } below.scanned,
      own.attempts.map (fun i ↦ (object.id, i)) ++ below.attempts, below.foundSrv⟩

/-- The loop of `mupnp_device_getfirstexpiratedservice` over the embedded devices: each is scanned
with the same bound, and the last one in which a service is found counts. -/
def getFirstExpiratedServiceIn (now : ℤ) (subRes : ServiceKey → RenewalResponse) :
    List Device → ℤ → Option Service → DeviceScan (List Device)
  | [], _, foundSrv => ⟨[], [], foundSrv⟩
  | childDev :: rest, expirationTime, foundSrv =>
    let scan := getFirstExpiratedService now subRes childDev expirationTime
    let later := getFirstExpiratedServiceIn now subRes rest expirationTime
      (scan.foundSrv.or foundSrv)
    ⟨scan.scanned :: later.scanned, scan.attempts ++ later.attempts, later.foundSrv⟩

end

/-! ### One pass of the handler -/

/-- The expiration of a device object is positive and not after `now`. -/
def isExpired (now : ℤ) (object : DeviceObject) : Bool :=
  decide (0 < object.ssdpPkt.getExpiration) && decide (object.ssdpPkt.getExpiration ≤ now)

/-- The state of the handler in a pass: the control point, the services whose renewal was attempted
so far, and the expiration it has to wake up for, where zero stands for none. -/
structure Pass where
  ctrlPoint : ControlPoint
  attempts : List ServiceKey
  expirationTime : ℤ

namespace Pass

/-- The root device with an identity, when it is in the device list. -/
def findRoot (pass : Pass) (id : DeviceId) : Option Device :=
  pass.ctrlPoint.deviceList.find? fun root ↦ decide (root.value.id = id)

/-- Marks the expiration of a device. -/
def markExpiration (pass : Pass) (tmpTime : ℤ) : Pass :=
  if 0 < tmpTime ∧ (tmpTime < pass.expirationTime ∨ pass.expirationTime = 0) then
    { pass with expirationTime := tmpTime }
  else pass

/-- Scans the services of a root device. -/
def scanRoot (now : ℤ) (subRes : ServiceKey → RenewalResponse) (pass : Pass) (dev : Device) :
    Pass :=
  let scan := getFirstExpiratedService now subRes dev pass.expirationTime
  { ctrlPoint := pass.ctrlPoint.updateRoot dev.value.id fun _ ↦ scan.scanned
    attempts := pass.attempts ++ scan.attempts
    expirationTime :=
      match scan.foundSrv with
      | some srv => getSubscriptionExpiration srv
      | none => pass.expirationTime }

/-- Removes the device that a packet names. -/
def remove (pass : Pass) (ssdpPkt : SsdpPacket) : Pass :=
  { pass with ctrlPoint := pass.ctrlPoint.removeDeviceBySsdpPacket ssdpPkt }

/-- The loop of the handler over the device list, from a device on. After a removal, `tmpDev` is the
device with which the loop goes on. -/
def run (now : ℤ) (subRes : ServiceKey → RenewalResponse) :
    Option DeviceId → List DeviceId → Pass → Option Pass
  | _, [], pass => some pass
  | none, id :: rest, pass =>
    match pass.findRoot id with
    | none => run now subRes none rest pass
    | some dev =>
      if isExpired now dev.value then
        match rest.find? fun next ↦ (pass.findRoot next).isSome with
        | none => some (pass.remove dev.ssdpPkt)
        | some next => run now subRes (some next) rest (pass.remove dev.ssdpPkt)
      else
        run now subRes none rest
          ((pass.markExpiration dev.ssdpPkt.getExpiration).scanRoot now subRes dev)
  | some tmpDev, id :: rest, pass =>
    if id ≠ tmpDev then run now subRes (some tmpDev) rest pass
    else
      match pass.findRoot id with
      | none => none
      | some dev => run now subRes none rest (pass.scanRoot now subRes dev)

end Pass

/-- One pass of `mupnp_controlpoint_expirationhandler` over the device list. -/
def expirationHandler (now : ℤ) (subRes : ServiceKey → RenewalResponse) (ctrlPoint : ControlPoint) :
    Option Pass :=
  Pass.run now subRes none (ctrlPoint.deviceList.map fun dev ↦ dev.value.id) ⟨ctrlPoint, [], 0⟩

/-- The time for which the handler waits at the end of a pass; zero when there is no limit. -/
def waitTimeout (now expirationTime : ℤ) : ℤ :=
  if now < expirationTime then expirationTime - now else 0

/-- `mupnp_cond_wait`, started at the time `now`: the time at which the wait ends at the latest,
when there is a limit. -/
def condWait (now timeout : ℤ) : Option ℤ := if timeout < 1 then none else some (now + timeout)

end Mupnp.Expiration
