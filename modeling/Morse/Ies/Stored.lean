import Morse.Ies.Elements
import Morse.Lib.Distinct

/-!
# Security elements that are kept for a network

The elements of a network are stored when it answers a probe or sends a beacon.  Beacons
leave out the security elements, which are put back from what is stored, into the frame
that is passed up and into what is stored next.
-/

namespace Morse
namespace Ies

open Lib

/-! ## Identifiers -/

/-- `WLAN_EID_SSID`. -/
def wlanEidSsid : Eid := 0

/-- `WLAN_EID_SUPP_RATES`. -/
def wlanEidSuppRates : Eid := 1

/-- `WLAN_EID_TIM`. -/
def wlanEidTim : Eid := 5

/-- `WLAN_EID_HT_CAPABILITY`. -/
def wlanEidHtCapability : Eid := 45

/-- `WLAN_EID_RSN`. -/
def wlanEidRsn : Eid := 48

/-- `WLAN_EID_HT_OPERATION`. -/
def wlanEidHtOperation : Eid := 61

/-- `WLAN_EID_MESH_ID`. -/
def wlanEidMeshId : Eid := 114

/-- `WLAN_EID_VHT_CAPABILITY`. -/
def wlanEidVhtCapability : Eid := 191

/-- `WLAN_EID_VHT_OPERATION`. -/
def wlanEidVhtOperation : Eid := 192

/-- `WLAN_EID_S1G_CAPABILITIES`. -/
def wlanEidS1gCapabilities : Eid := 217

/-- `WLAN_EID_S1G_OPERATION`. -/
def wlanEidS1gOperation : Eid := 232

/-- `WLAN_EID_RSNX`. -/
def wlanEidRsnx : Eid := 244

/-- The identifier of the name of a network, which is that of a mesh where there is one. -/
def networkIdEid (mask : Contents) : Eid :=
  if (mask wlanEidMeshId).head.isSome then wlanEidMeshId else wlanEidSsid

/-! ## Storing -/

/-- `struct dot11ah_update_rx_beacon_vals`, with the element for the TIM and a copy of what
is stored, whose length is held in an octet. -/
structure UpdateRxBeaconVals where
  timIe : Option Data
  cssidIes : Option (List (BitVec 8))
  cssidIesLen : BitVec 8
  deriving DecidableEq

/-- `morse_dot11ah_update_rx_beacon_elements`, where there may be no memory for the copy. -/
def updateRxBeaconElements (mask : Contents) (stored : List (BitVec 8)) (granted : Bool) :
    UpdateRxBeaconVals where
  timIe := (mask wlanEidTim).head
  cssidIes := if granted then some stored else none
  cssidIesLen := if granted then BitVec.ofNat 8 stored.length else 0

/-- `morse_dot11_find_ie` in the copy. -/
def UpdateRxBeaconVals.find (vals : UpdateRxBeaconVals) (eid : Eid) : Option Element :=
  match vals.cssidIes with
  | some ies => findIe eid (ies.take vals.cssidIesLen.toNat)
  | none => none

/-- An element is put back if it is in the copy and not in the table. -/
def UpdateRxBeaconVals.missing (vals : UpdateRxBeaconVals) (mask : Contents) (eid : Eid) :
    List Element :=
  match vals.find eid with
  | some element => if (mask eid).head.isNone then [element] else []
  | none => []

/-- `morse_dot11_insert_rsn_and_rsnx_ie`. -/
def insertRsnAndRsnxIe (vals : UpdateRxBeaconVals) (mask : Contents) : List Element :=
  vals.missing mask wlanEidRsn ++ vals.missing mask wlanEidRsnx

/-- `morse_dot11ah_store_cssid` for a beacon of a network that is stored, where there may
be no memory for the elements. -/
def storeCssid (mask : Contents) (stored s1gIes : List (BitVec 8)) (vals : UpdateRxBeaconVals)
    (granted : Bool) : List (BitVec 8) :=
  let updated := s1gIes ++ (insertRsnAndRsnxIe vals mask).flatMap Element.octets
  let storedIesNeedsUpdate :=
    granted && (decide (stored.length ≠ updated.length) || decide (stored ≠ updated))
  if storedIesNeedsUpdate then updated else stored

/-! ## Translation -/

/-- The elements that translation makes up. -/
structure Conversions where
  unknownSsid : Data
  suppRates : Data
  htCap : Contents → Data
  htOper : Contents → Data
  vhtCap : Contents → Data
  vhtOper : Contents → Data
  tim : Contents → Option Data

section Translation

variable (conversions : Conversions)

/-- `morse_dot11_insert_ssid_ie`. -/
def insertSsidIe (mask : Contents) : List Element :=
  if (mask wlanEidSsid).head.isSome then (mask wlanEidSsid).all.map (Element.mk wlanEidSsid)
  else [⟨wlanEidSsid, conversions.unknownSsid⟩]

/-- `morse_dot11_insert_ht_and_vht_ie`. -/
def insertHtAndVhtIe (mask : Contents) : List Element :=
  (if (mask wlanEidS1gCapabilities).head.isSome
    then [⟨wlanEidHtCapability, conversions.htCap mask⟩] else []) ++
  (if (mask wlanEidS1gOperation).head.isSome
    then [⟨wlanEidHtOperation, conversions.htOper mask⟩] else []) ++
  (if (mask wlanEidS1gCapabilities).head.isSome
    then [⟨wlanEidVhtCapability, conversions.vhtCap mask⟩] else []) ++
  (if (mask wlanEidS1gOperation).head.isSome
    then [⟨wlanEidVhtOperation, conversions.vhtOper mask⟩] else [])

/-- What `morse_dot11ah_insert_required_rx_ie` writes for an identifier. -/
def requiredRxIe (mask : Contents) (eid : Eid) : List Element :=
  if (mask eid).head.isNone then []
  else if eid = wlanEidS1gOperation ∨ eid = wlanEidS1gCapabilities then []
  else if eid = wlanEidTim then ((conversions.tim mask).map (Element.mk eid)).toList
  else (mask eid).all.map (Element.mk eid)

/-- `morse_dot11ah_insert_required_rx_ie` without a check for WMM. -/
def insertRequiredRxIe (mask : Contents) : List Element :=
  let rated := mask.setHead wlanEidSuppRates (some conversions.suppRates)
  (List.finRange 256).flatMap (requiredRxIe conversions rated)

/-- The elements of the beacon that is built from a table. -/
def buildBeacon (vals : UpdateRxBeaconVals) (mask : Contents) : List Element :=
  let named := mask.setHead wlanEidSsid none
  insertSsidIe conversions mask ++ insertRsnAndRsnxIe vals named ++
    insertHtAndVhtIe conversions named ++ insertRequiredRxIe conversions named

/-- A beacon as it is received, and what memory there is: whether it is copied to a larger
buffer, and whether there is memory for the copy of what is stored, for what is stored next
and for the beacon that is built. -/
structure BeaconFrame where
  ies : List (BitVec 8)
  expanded : Bool
  copyGranted : Bool
  updateGranted : Bool
  beaconGranted : Bool
  deriving DecidableEq, Repr

/-- The table after `morse_dot11ah_s1g_to_beacon_size`, which puts in what is stored where
the beacon does not name its network. -/
def sizedMask (stored : List (BitVec 8)) (mask : Contents) : Option Contents :=
  if (mask (networkIdEid mask)).head.all fun data => data.val.length = 0 then
    if (parse stored).2 = .invalid then none else some (mask.parse stored)
  else some mask

/-- The table of a beacon when it is translated.  The buffer that is too small is replaced
and parsed again. -/
def beaconMask (stored : List (BitVec 8)) (frame : BeaconFrame) : Option Contents :=
  let own := Contents.empty.parse frame.ies
  if (parse frame.ies).2 = .invalid then none
  else
    match sizedMask stored own with
    | none => none
    | some sized => some (if frame.expanded then own else sized.setHead wlanEidSuppRates none)

/-- `morse_dot11ah_s1g_to_beacon` for a network that is stored: the beacon that is passed
up, if it is, and what is stored. -/
def s1gToBeacon (stored : List (BitVec 8)) (frame : BeaconFrame) (mask : Contents) :
    Option (List Element) × List (BitVec 8) :=
  let networkId := networkIdEid mask
  let vals := updateRxBeaconElements mask stored frame.copyGranted
  if frame.beaconGranted then
    if (mask networkId).head.isSome then
      (some (buildBeacon conversions vals mask),
        storeCssid mask stored frame.ies vals frame.updateGranted)
    else
      let merged := mask.parse stored
      if (merged networkId).head.isSome then
        (some (buildBeacon conversions vals (merged.setHead wlanEidTim vals.timIe)), stored)
      else (none, stored)
  else (none, stored)

/-- What is stored for a network, and the beacons that were passed up. -/
structure Network where
  stored : List (BitVec 8)
  passed : List (List Element)

/-- A beacon of the network is received. -/
def beaconStep (network : Network) (frame : BeaconFrame) : Option Network :=
  match beaconMask network.stored frame with
  | none => some network
  | some mask =>
    match s1gToBeacon conversions network.stored frame mask with
    | (none, stored) => some { network with stored := stored }
    | (some beacon, stored) => some ⟨stored, beacon :: network.passed⟩

end Translation

end Ies
end Morse
