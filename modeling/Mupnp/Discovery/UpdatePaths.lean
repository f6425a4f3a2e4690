import Mupnp.Discovery.DeviceUpdate
import Mupnp.Net.NetUri

/-!
# The two ways to update a cached device

A control point takes over the description at a new location in one of two ways.
`mupnp_device_updatefromssdppacket` downloads and compares it in one function;
`mupnp_controlpoint_fetchdevice` builds a device of its own with
`mupnp_controlpoint_createdevicefromssdkpacket` first, and hands it to
`mupnp_device_updatefromdevice`. What the network answers is a parameter of both (`Fetches`).

`updatePaths_agree` says that the two leave the same cached device when everything can be
downloaded: the same tree with the same pointers, packet, port and subscriptions. The two differ
in when they compare the descriptions: the first does it before the packet and the port of the new
device are set and its services are read, the second afterwards. That the comparison looks neither
at the packet nor at the port is `hasSameStructure_unlinked_prepare`. Either way leaves consistent
pointers (`isLinked_updateFromSsdpPacket`).
-/

set_option autoImplicit false
set_option relaxedAutoImplicit false

namespace Mupnp.Discovery

open Foundation Util Ssdp Net

/-! ### Downloads -/

/-- What the network answers. `description` is `mupnp_device_parsedescriptionurl` on a new device:
the device that the document at an address describes. `scpd` is
`mupnp_controlpoint_parsescservicescpd` for a service in the tree of a root device, whose location
the address of the document is resolved against. -/
structure Fetches where
  description : NetUri → Option LinkedDevice
  scpd : LinkedDevice → LinkedService → Bool

mutual

/-- `mupnp_controlpoint_parseservicesfordevice`: the services of the device, then those of its
embedded devices. -/
def parseServicesForDevice (scpd : LinkedService → Bool) : LinkedDevice → Bool
  | .node object devices => object.services.all scpd && parseServicesForDevices scpd devices

/-- The loop of `mupnp_controlpoint_parseservicesfordevice` over the embedded devices. -/
def parseServicesForDevices (scpd : LinkedService → Bool) : List LinkedDevice → Bool
  | [] => true
  | childDev :: rest => parseServicesForDevice scpd childDev && parseServicesForDevices scpd rest

end

namespace LinkedDevice

/-- `mupnp_device_setssdppacket`. -/
def setSsdpPacket (dev : LinkedDevice) (ssdpPkt : SsdpPacket) (now : ℤ) : LinkedDevice :=
  dev.withObject fun object ↦ { object with ssdpPkt := object.ssdpPkt.copy ssdpPkt now }

/-- `mupnp_device_sethttpport`. -/
def setHttpPort (dev : LinkedDevice) (httpPort : ℤ) : LinkedDevice :=
  dev.withObject fun object ↦ { object with httpPort := httpPort }

/-- `mupnp_controlpoint_createdevicefromssdkpacket`, run at the time `fetchTime`. -/
def createFromSsdpPacket (fetches : Fetches) (ssdpPkt : SsdpPacket) (fetchTime : ℤ) :
    Option LinkedDevice :=
  if strlen ssdpPkt.getLocation ≤ 0 then none
  else
    let url := NetUri.setValue (ssdpPkt.getLocation.getD [])
    match fetches.description url with
    | none => none
    | some parsed =>
      let dev := (parsed.setHttpPort url.port).setSsdpPacket ssdpPkt fetchTime
      if parseServicesForDevice (fetches.scpd dev) dev then some dev else none

/-- `mupnp_device_updatefromssdppacket`: the result and the cached device. The packet is copied to
the new device at the time `fetchTime` and to the cached one at the time `now`. -/
def updateFromSsdpPacket (fetches : Fetches) (dev : LinkedDevice) (ssdpPkt : SsdpPacket)
    (fetchTime now : ℤ) : Bool × LinkedDevice :=
  if streq dev.value.ssdpPkt.getLocation ssdpPkt.getLocation then
    (true, dev.setSsdpPacket ssdpPkt now)
  else if strlen ssdpPkt.getLocation ≤ 0 then (true, dev)
  else
    let url := NetUri.setValue (ssdpPkt.getLocation.getD [])
    match fetches.description url with
    | none => (true, dev)
    | some parsed =>
      if !streq parsed.value.udn dev.value.udn then (true, dev)
      else if optStrEq dev.value.ssdpPkt.getConfigId ssdpPkt.getConfigId &&
          hasSameStructure dev.unlinked parsed.unlinked then
        (true, (dev.setSsdpPacket ssdpPkt now).setHttpPort url.port)
      else
        let newDev := (parsed.setSsdpPacket ssdpPkt fetchTime).setHttpPort url.port
        if !parseServicesForDevice (fetches.scpd newDev) newDev then (true, dev)
        else
          let swapped := swapDescription dev (copySubscriptions newDev dev)
          (true, (swapped.1.setSsdpPacket ssdpPkt now).setHttpPort url.port)

/-! ### The packet and the port of the new device -/

/-- The new device that both ways build before they read its services. -/
def prepare (parsed : LinkedDevice) (ssdpPkt : SsdpPacket) (fetchTime port : ℤ) : LinkedDevice :=
  (parsed.setHttpPort port).setSsdpPacket ssdpPkt fetchTime

@[simp] theorem udn_prepare (parsed : LinkedDevice) (ssdpPkt : SsdpPacket) (fetchTime port : ℤ) :
    (parsed.prepare ssdpPkt fetchTime port).value.udn = parsed.value.udn := rfl

@[simp] theorem httpPort_prepare (parsed : LinkedDevice) (ssdpPkt : SsdpPacket)
    (fetchTime port : ℤ) : (parsed.prepare ssdpPkt fetchTime port).value.httpPort = port := rfl

/-- The comparison of two trees looks neither at the packet nor at the port of the second one. -/
theorem hasSameStructure_unlinked_prepare (dev parsed : LinkedDevice) (ssdpPkt : SsdpPacket)
    (fetchTime port : ℤ) :
    hasSameStructure dev.unlinked (parsed.prepare ssdpPkt fetchTime port).unlinked =
      hasSameStructure dev.unlinked parsed.unlinked := by
  have houtline : (parsed.prepare ssdpPkt fetchTime port).unlinked.outline =
      parsed.unlinked.outline := by
    obtain ⟨object, devices⟩ := parsed
    rfl
  rw [Bool.eq_iff_iff, hasSameStructure_iff, hasSameStructure_iff, houtline]


/-! ### The two ways agree -/

/-- What the first way does with a description that was downloaded. -/
theorem updateFromSsdpPacket_of_parsed {fetches : Fetches} {dev parsed : LinkedDevice}
    {ssdpPkt : SsdpPacket} {location : CString} (hlocation : ssdpPkt.getLocation = some location)
    (hne : location ≠ []) (hmoved : dev.value.ssdpPkt.getLocation ≠ some location)
    (hparsed : fetches.description (NetUri.setValue location) = some parsed) (fetchTime now : ℤ) :
    dev.updateFromSsdpPacket fetches ssdpPkt fetchTime now =
      if !streq parsed.value.udn dev.value.udn then (true, dev)
      else if optStrEq dev.value.ssdpPkt.getConfigId ssdpPkt.getConfigId &&
          hasSameStructure dev.unlinked parsed.unlinked then
        (true, (dev.setSsdpPacket ssdpPkt now).setHttpPort (NetUri.setValue location).port)
      else
        let newDev := parsed.prepare ssdpPkt fetchTime (NetUri.setValue location).port
        if !parseServicesForDevice (fetches.scpd newDev) newDev then (true, dev)
        else
          (true, ((swapDescription dev (copySubscriptions newDev dev)).1.setSsdpPacket ssdpPkt
            now).setHttpPort (NetUri.setValue location).port) := by
  have hlength : ¬ strlen ssdpPkt.getLocation ≤ 0 := by
    rw [hlocation]
    exact not_strlen_some_le_zero hne
  have hstreq : ¬ streq dev.value.ssdpPkt.getLocation ssdpPkt.getLocation = true := by
    intro hsame
    obtain ⟨common, hold, hnew⟩ := streq_eq_true_iff.mp hsame
    exact hmoved (hold.trans (hnew.symm.trans hlocation))
  unfold updateFromSsdpPacket
  rw [if_neg hstreq, if_neg hlength, hlocation, Option.getD_some]
  dsimp only
  rw [hparsed]
  rfl

/-- What the second way does with the device that it has built. -/
theorem updateFromDevice_prepare (dev parsed : LinkedDevice) (ssdpPkt : SsdpPacket)
    (fetchTime port now : ℤ) :
    (dev.updateFromDevice (parsed.prepare ssdpPkt fetchTime port) ssdpPkt now).2.1 =
      if !streq parsed.value.udn dev.value.udn then dev
      else if optStrEq dev.value.ssdpPkt.getConfigId ssdpPkt.getConfigId &&
          hasSameStructure dev.unlinked parsed.unlinked then
        (dev.setSsdpPacket ssdpPkt now).setHttpPort port
      else
        ((swapDescription dev (copySubscriptions (parsed.prepare ssdpPkt fetchTime port)
          dev)).1.setSsdpPacket ssdpPkt now).setHttpPort port := by
  unfold updateFromDevice
  rw [udn_prepare, httpPort_prepare, hasSameStructure_unlinked_prepare, ← Bool.not_and]
  by_cases hudn : (!streq parsed.value.udn dev.value.udn) = true
  · rw [if_pos hudn, if_pos hudn]
  · rw [if_neg hudn, if_neg hudn]
    by_cases hsame : (optStrEq dev.value.ssdpPkt.getConfigId ssdpPkt.getConfigId &&
        hasSameStructure dev.unlinked parsed.unlinked) = true
    · rw [if_pos hsame, hsame]
      rfl
    · rw [if_neg hsame, Bool.eq_false_iff.mpr hsame]
      rfl

/-- The device that the second way builds. -/
theorem createFromSsdpPacket_eq_some {fetches : Fetches} {parsed : LinkedDevice}
    {ssdpPkt : SsdpPacket} {location : CString} {fetchTime : ℤ}
    (hlocation : ssdpPkt.getLocation = some location) (hne : location ≠ [])
    (hparsed : fetches.description (NetUri.setValue location) = some parsed)
    (hservices : parseServicesForDevice
      (fetches.scpd (parsed.prepare ssdpPkt fetchTime (NetUri.setValue location).port))
      (parsed.prepare ssdpPkt fetchTime (NetUri.setValue location).port) = true) :
    createFromSsdpPacket fetches ssdpPkt fetchTime =
      some (parsed.prepare ssdpPkt fetchTime (NetUri.setValue location).port) := by
  have hlength : ¬ strlen ssdpPkt.getLocation ≤ 0 := by
    rw [hlocation]
    exact not_strlen_some_le_zero hne
  unfold createFromSsdpPacket
  rw [if_neg hlength, hlocation, Option.getD_some]
  dsimp only
  rw [hparsed]
  exact if_pos hservices

/-- Setting the packet of a device does not touch the pointers. -/
theorem isLinked_setSsdpPacket {dev : LinkedDevice} (hdev : dev.IsLinked) (ssdpPkt : SsdpPacket)
    (now : ℤ) : (dev.setSsdpPacket ssdpPkt now).IsLinked := by
  have hparts := isLinked_iff.mp hdev
  exact isLinked_iff.mpr hparts

theorem isLinked_setHttpPort {dev : LinkedDevice} (hdev : dev.IsLinked) (httpPort : ℤ) :
    (dev.setHttpPort httpPort).IsLinked := by
  have hparts := isLinked_iff.mp hdev
  exact isLinked_iff.mpr hparts

/-- The first way leaves consistent pointers, whatever the network answers. -/
theorem isLinked_updateFromSsdpPacket {fetches : Fetches} {dev : LinkedDevice} (hdev : dev.IsLinked)
    (hfetches : ∀ url parsed, fetches.description url = some parsed → parsed.IsLinked)
    (ssdpPkt : SsdpPacket) (fetchTime now : ℤ) :
    (dev.updateFromSsdpPacket fetches ssdpPkt fetchTime now).2.IsLinked := by
  have hset : ∀ {tree : LinkedDevice} (port : ℤ), tree.IsLinked →
      ((tree.setSsdpPacket ssdpPkt now).setHttpPort port).IsLinked := fun port htree ↦
    isLinked_setHttpPort (isLinked_setSsdpPacket htree ssdpPkt now) port
  unfold updateFromSsdpPacket
  split_ifs with hsame hempty
  · exact isLinked_setSsdpPacket hdev ssdpPkt now
  · exact hdev
  · dsimp only
    split
    · exact hdev
    · rename_i parsed hparsed
      have hnew : ((parsed.setSsdpPacket ssdpPkt fetchTime).setHttpPort
          (NetUri.setValue (ssdpPkt.getLocation.getD [])).port).IsLinked :=
        isLinked_setHttpPort
          (isLinked_setSsdpPacket (hfetches _ parsed hparsed) ssdpPkt fetchTime) _
      split_ifs with hudn hkept hunread
      · exact hdev
      · exact hset _ hdev
      · exact hdev
      · exact hset _ (isLinked_withDescription dev (isLinked_copySubscriptions hnew dev))

end LinkedDevice

/-- The two ways to update a cached device agree on a packet with a new location, when the
description and every service description can be downloaded. The second way builds a device, and
the update from it leaves the cached device that the first way leaves: with the same objects,
pointers, packets, ports and subscriptions, whether or not the names match and whatever has
changed. -/
theorem updatePaths_agree (fetches : Fetches) (dev parsed : LinkedDevice) (ssdpPkt : SsdpPacket)
    (location : CString) (fetchTime now : ℤ) (hlocation : ssdpPkt.getLocation = some location)
    (hne : location ≠ []) (hmoved : dev.value.ssdpPkt.getLocation ≠ some location)
    (hparsed : fetches.description (NetUri.setValue location) = some parsed)
    (hservices : parseServicesForDevice
      (fetches.scpd (parsed.prepare ssdpPkt fetchTime (NetUri.setValue location).port))
      (parsed.prepare ssdpPkt fetchTime (NetUri.setValue location).port) = true) :
    ∃ newDev, LinkedDevice.createFromSsdpPacket fetches ssdpPkt fetchTime = some newDev ∧
      (dev.updateFromSsdpPacket fetches ssdpPkt fetchTime now).2 =
        (dev.updateFromDevice newDev ssdpPkt now).2.1 := by
  refine ⟨_, LinkedDevice.createFromSsdpPacket_eq_some hlocation hne hparsed hservices, ?_⟩
  rw [LinkedDevice.updateFromSsdpPacket_of_parsed hlocation hne hmoved hparsed,
    LinkedDevice.updateFromDevice_prepare]
  dsimp only
  rw [hservices]
  split_ifs with hudn hsame hfalse
  · rfl
  · rfl
  · exact absurd hfalse Bool.false_ne_true
  · rfl

/-- An announcement of the light at another address. -/
def movedPacket : SsdpPacket :=
  ⟨none, [⟨some "LOCATION".toList, some "http://10.0.0.2:8080/description.xml".toList⟩], 0⟩

/-- A network that answers with the changed light and with every service description. -/
def lightFetches : Fetches := ⟨fun _ ↦ some changedLightDevice, fun _ _ ↦ true⟩

theorem updatePaths_agree_light :
    ∃ newDev, LinkedDevice.createFromSsdpPacket lightFetches movedPacket 1500 = some newDev ∧
      (lightDevice.updateFromSsdpPacket lightFetches movedPacket 1500 2000).2 =
        (lightDevice.updateFromDevice newDev movedPacket 2000).2.1 :=
  updatePaths_agree lightFetches lightDevice changedLightDevice movedPacket
    "http://10.0.0.2:8080/description.xml".toList 1500 2000 (by decide) (by decide) (by decide) rfl
    (by decide)

end Mupnp.Discovery
