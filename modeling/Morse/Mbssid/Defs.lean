import Morse.Ies.Stored

/-!
# Several networks in one beacon

One interface of an access point sends beacons for all of them.  It puts the names of the
others into an element of its beacon, each with the index of its interface, and a receiver
makes a beacon of each of these.
-/

namespace Morse
namespace Mbssid

open Ies

/-! ## Sending -/

/-- `WLAN_EID_MULTIPLE_BSSID`. -/
def wlanEidMultipleBssid : Eid := 71

/-- `WLAN_EID_MULTI_BSSID_IDX`. -/
def wlanEidMultiBssidIdx : Eid := 85

/-- `MBSSID_SUBELEMENT_NONTX_BSSID_PROFILE`. -/
def mbssidSubelementNontxBssidProfile : BitVec 8 := 0

/-- `MBSSID_IE_SIZE_MAX`. -/
def mbssidIeSizeMax : Nat := 255

/-- `sizeof(struct sub_elem_ssid_ie)`. -/
def sizeofSsidIe : Nat := 2

/-- `sizeof(struct sub_elem_mbssid_idx_ie)`. -/
def sizeofIdxIe : Nat := 5

/-- `sizeof(struct mbssid_ie)`. -/
def sizeofMbssidIe : Nat := 1 + (2 + sizeofSsidIe + sizeofIdxIe)

/-- An interface as its beacons are asked for: what it is, and the elements of the beacon
that it has, if it has one. -/
structure Vif where
  id : BitVec 16
  isAp : Bool
  beacon : Option (List (BitVec 8))
  dtimPeriod : BitVec 8
  dtimCount : BitVec 16
  deriving DecidableEq, Repr

/-- The SSID element that `morse_mac_get_mbssid_beacon_ies` finds. -/
def Vif.ssidIe (vif : Vif) : Option Element :=
  vif.beacon.bind (findIe wlanEidSsid)

/-- `morse_insert_mbssid_index_ie`. -/
def indexIe (vif : Vif) : Element :=
  ⟨wlanEidMultiBssidIdx, [vif.id.setWidth 8, vif.dtimPeriod,
    BitVec.ofNat 8 ((vif.dtimCount.toNat + 1) % vif.dtimPeriod.toNat)], by simp⟩

/-- `morse_insert_mbssid_ie_subelem_head`. -/
def subelemHead (ssidIeLen : Nat) : List (BitVec 8) :=
  [mbssidSubelementNontxBssidProfile, BitVec.ofNat 8 (ssidIeLen + sizeofSsidIe + sizeofIdxIe)]

/-- `morse_insert_mbssid_ie_subelem`, which appends to a buffer. -/
def insertSubelem (vif : Vif) (buf : List (BitVec 8)) : List (BitVec 8) :=
  match vif.ssidIe with
  | none => buf
  | some ssid =>
    let ssidIeLen := ssid.data.val.length
    if mbssidIeSizeMax < buf.length + ssidIeLen + sizeofMbssidIe then buf
    else buf ++ (subelemHead ssidIeLen ++ ssid.octets ++ (indexIe vif).octets)

/-- An interface in the loop of `morse_mbssid_insert_ie`. -/
def insertVif (transmitterVifId : BitVec 8) (buf : List (BitVec 8)) (vif : Vif) :
    List (BitVec 8) :=
  if vif.isAp && decide (vif.id ≠ transmitterVifId.setWidth 16) then insertSubelem vif buf else buf

/-- The buffer that `morse_mbssid_insert_ie` fills. -/
def mbssidIeBuf (maxBssidIndicator transmitterVifId : BitVec 8) (vifs : List Vif) :
    List (BitVec 8) :=
  vifs.foldl (insertVif transmitterVifId) [maxBssidIndicator - 1]

theorem length_insertVif (transmitterVifId : BitVec 8) (fits : buf.length ≤ mbssidIeSizeMax)
    (vif : Vif) :
    (insertVif transmitterVifId buf vif).length ≤ mbssidIeSizeMax := by
  rw [insertVif]
  split
  · rw [insertSubelem]
    split
    · exact fits
    · dsimp only
      split
      · exact fits
      · simp only [subelemHead, Element.octets, indexIe, sizeofMbssidIe, sizeofSsidIe, sizeofIdxIe,
          List.length_append, List.length_cons, List.length_nil] at *
        omega
  · exact fits

theorem length_mbssidIeBuf (maxBssidIndicator transmitterVifId : BitVec 8) (vifs : List Vif) :
    (mbssidIeBuf maxBssidIndicator transmitterVifId vifs).length ≤ mbssidIeSizeMax := by
  have start : [maxBssidIndicator - 1].length ≤ mbssidIeSizeMax := by
    rw [List.length_singleton]
    decide
  rw [mbssidIeBuf]
  generalize [maxBssidIndicator - 1] = buf at start
  induction vifs generalizing buf with
  | nil => exact start
  | cons vif rest ih => exact ih _ (length_insertVif _ start vif)

/-- `morse_mbssid_insert_ie`, which gives an element if there is a profile in it. -/
def insertIe (enabled : Bool) (maxBssidIndicator transmitterVifId : BitVec 8) (vifs : List Vif) :
    Option Data :=
  if enabled && decide (1 < maxBssidIndicator.toNat) then
    if sizeofMbssidIe < (mbssidIeBuf maxBssidIndicator transmitterVifId vifs).length then
      some ⟨mbssidIeBuf maxBssidIndicator transmitterVifId vifs,
        Nat.lt_succ_of_le (length_mbssidIeBuf _ _ _)⟩
    else none
  else none

/-! ## Receiving -/

/-- The address of a network. -/
abbrev Bssid := BitVec 48

/-- What is stored for networks by their addresses. -/
abbrev CssidList := Bssid → Option (List (BitVec 8))

/-- The element table of a received frame.  The length of the SSID stays when its octets
are taken out. -/
structure RxMask where
  contents : Contents
  ssidLen : Nat

/-- `morse_dot11ah_parse_ies` into a table. -/
def RxMask.parse (mask : RxMask) (octets : List (BitVec 8)) : RxMask where
  contents := mask.contents.parse octets
  ssidLen :=
    if (mask.contents wlanEidSsid).head.isSome then mask.ssidLen
    else ((mask.contents.parse octets) wlanEidSsid).head.elim mask.ssidLen fun data =>
      data.val.length

/-- The table of a frame. -/
def RxMask.ofFrame (octets : List (BitVec 8)) : RxMask :=
  RxMask.parse ⟨Contents.empty, 0⟩ octets

/-- The SSID of a profile is put into the table. -/
def RxMask.setSsid (mask : RxMask) (data : Data) : RxMask where
  contents := mask.contents.setHead wlanEidSsid (some data)
  ssidLen := data.val.length

/-- The length of the name of the network. -/
def RxMask.networkIdLen (mask : RxMask) : Nat :=
  if (mask.contents wlanEidMeshId).head.isSome then
    (mask.contents wlanEidMeshId).head.elim 0 fun data => data.val.length
  else mask.ssidLen

/-- The octets of an element are taken out of the table. -/
def RxMask.take (mask : RxMask) (eid : Eid) : RxMask :=
  { mask with contents := mask.contents.setHead eid none }

/-- What `morse_dot11ah_s1g_to_11n_rx_packet_size` does to the table of a beacon, and
whether there is a size. -/
def rxPacketSize (list : CssidList) (bssid : Bssid) (mask : RxMask) : RxMask × Bool :=
  if mask.networkIdLen = 0 then
    match list bssid with
    | none => (mask, false)
    | some stored =>
      if (Ies.parse stored).2 = .invalid then (mask.parse stored, false)
      else ((mask.parse stored).take wlanEidSuppRates, true)
  else (mask.take wlanEidSuppRates, true)

section Receiving

variable (conversions : Conversions)

/-- What comes of a beacon: what is passed up, what is stored, and the table. -/
structure Translated where
  beacon : Option (List Element)
  list : CssidList
  mask : RxMask

/-- The TIM that a table had is put back into another. -/
def RxMask.restoreTim (mask own : RxMask) : RxMask :=
  { mask with contents := mask.contents.setHead wlanEidTim (own.contents wlanEidTim).head }

/-- The table after a beacon was built from it. -/
def RxMask.built (mask : RxMask) : RxMask where
  contents := (mask.contents.setHead wlanEidSsid none).setHead wlanEidSuppRates
    (some conversions.suppRates)
  ssidLen := mask.ssidLen

/-- `morse_dot11ah_s1g_to_beacon`. -/
def toBeacon (list : CssidList) (bssid : Bssid) (frame : BeaconFrame) (mask : RxMask) :
    Translated :=
  let named := (mask.contents (networkIdEid mask.contents)).head
  match list bssid with
  | some stored =>
    let result := s1gToBeacon conversions stored frame mask.contents
    let merged := if named.isSome then mask else mask.parse stored
    { beacon := result.1
      list := Function.update list bssid (some result.2)
      mask :=
        if frame.beaconGranted then
          if result.1.isSome then (merged.restoreTim mask).built conversions else merged
        else mask }
  | none =>
    let vals : UpdateRxBeaconVals := ⟨(mask.contents wlanEidTim).head, none, 0⟩
    if frame.beaconGranted then
      { beacon := some (buildBeacon conversions vals mask.contents)
        list := if named.isSome && frame.updateGranted
          then Function.update list bssid (some frame.ies) else list
        mask := mask.built conversions }
    else { beacon := none, list := list, mask := mask }

/-- A beacon that was made of a profile. -/
structure Passed where
  index : BitVec 8
  bssid : Bssid
  elements : List Element
  deriving DecidableEq

/-- How far the profiles were gone through. -/
structure Scan where
  mask : RxMask
  list : CssidList
  passed : List Passed

variable (genNewBssid : Bssid → BitVec 8 → BitVec 8 → Bssid)

/-- What is made of an index that is in front of other octets. -/
def scanIndex (bssid : Bssid) (frame : BeaconFrame) (maxBssidIndicator : BitVec 8) (scan : Scan)
    (index : BitVec 8) : Scan :=
  if index = 0 ∨ 46 < index.toNat then scan
  else
    let newBssid := genNewBssid bssid maxBssidIndicator index
    let translated := toBeacon conversions scan.list newBssid frame scan.mask
    { mask := translated.mask
      list := translated.list
      passed := scan.passed ++ (translated.beacon.map (Passed.mk index newBssid)).toList }

/-- An element in the loop of `morse_process_beacon_from_mbssid_ie`. -/
def scanElement (bssid : Bssid) (frame : BeaconFrame) (maxBssidIndicator : BitVec 8) (scan : Scan)
    (sub : Element) : Scan :=
  let named : Scan :=
    if sub.eid = wlanEidSsid then { scan with mask := scan.mask.setSsid sub.data } else scan
  if sub.eid ≠ wlanEidMultiBssidIdx ∨ sub.data.val.length < 3 then named
  else
    match sub.data.val with
    | [] => named
    | index :: _ => scanIndex conversions genNewBssid bssid frame maxBssidIndicator named index

/-- `morse_process_beacon_from_mbssid_ie`. -/
def processBeaconFromMbssidIe (list : CssidList) (bssid : Bssid) (frame : BeaconFrame)
    (mask : RxMask) : Scan :=
  match (mask.contents wlanEidMultipleBssid).head with
  | none => ⟨mask, list, []⟩
  | some ie =>
    match rxPacketSize list bssid mask with
    | (sized, false) => ⟨sized, list, []⟩
    | (sized, true) =>
      (walk (ie.val.drop 3)).foldl
        (scanElement conversions genNewBssid bssid frame (ie.val.headD 0)) ⟨sized, list, []⟩

/-- The beacon itself in `morse_mac_skb_recv`, with the table it has by then.  A buffer that
is too small is replaced and parsed again. -/
def receiveOwn (list : CssidList) (bssid : Bssid) (frame : BeaconFrame) (mask : RxMask) :
    Option (List Element) :=
  match rxPacketSize list bssid mask with
  | (_, false) => none
  | (sized, true) =>
    (toBeacon conversions list bssid frame
      (if frame.expanded then RxMask.ofFrame frame.ies else sized)).beacon

end Receiving

/-! ## A network that is stored -/

end Mbssid
end Morse
