import Morse.Ies.Survival
import Morse.S1g.ChangeSequence

/-!
# The list of networks

Of each network that a beacon or a probe response was received from, the driver keeps the
name and the elements in a list.  Others look up what a network announced: its channel, its
capabilities, whether it slices pages.  With each operation stand the accesses that it
makes to memory of which it was told a length from the air.
-/

namespace Morse
namespace Cssid

open Ies

/-! ## Entries -/

/-- `struct morse_dot11ah_cssid_item`, with the octets that were copied to its name. -/
structure CssidItem where
  cssid : BitVec 32
  lastSeen : BitVec 64
  capabInfo : BitVec 16
  bssid : BitVec 48
  ssid : List (BitVec 8)
  meshBeacon : Bool
  ies : List (BitVec 8)
  fcBssBwSubfield : BitVec 8
  beaconInt : BitVec 16
  deriving DecidableEq, Repr

/-- So many octets of an object are reached, of those that it has. -/
structure Access where
  size : Nat
  reach : Nat
  deriving DecidableEq, Repr

/-- An access stays within its object. -/
def Access.Within (access : Access) : Prop := access.reach ≤ access.size

/-- The length of `ssid` in an entry, `IEEE80211_MAX_SSID_LEN`. -/
def maxSsidLen : Nat := 32

/-- The length of `struct ieee80211_s1g_cap`. -/
def s1gCapLength : Nat := 10 + 5

/-- `MORSE_FC_BSS_BW_INVALID`. -/
def fcBssBwInvalid : BitVec 8 := 255

/-- `morse_generate_cssid`. -/
def generateCssid (ssid : List (BitVec 8)) : BitVec 32 := ~~~ S1g.crc32 (~~~ 0#32) ssid

section Operations

variable (ageLimit : Bool → BitVec 32)

/-! ## Looking for an entry -/

/-- `morse_dot11ah_cssid_has_expired`, with `time_before`.  How many jiffies an entry lasts
depends on whether it is one of a mesh. -/
def CssidItem.hasExpired (now : BitVec 64) (item : CssidItem) : Bool :=
  (item.lastSeen + (ageLimit item.meshBeacon).setWidth 64 - now).msb

/-- A list that is split at an entry, if there is one. -/
structure Located where
  before : List CssidItem
  found : Option (CssidItem × List CssidItem)

/-- The list with its entry back in its place. -/
def Located.items (located : Located) : List CssidItem :=
  match located.found with
  | some (item, behind) => located.before ++ item :: behind
  | none => located.before

/-- An entry in front. -/
def Located.push (item : CssidItem) (located : Located) : Located :=
  { located with before := item :: located.before }

/-- `morse_dot11ah_find_cssid_item_for_bssid`, which removes the entries in front that have
expired. -/
def findCssidItemForBssid (now : BitVec 64) (bssid : BitVec 48) : List CssidItem → Located
  | [] => ⟨[], none⟩
  | item :: rest =>
    if item.bssid = bssid then ⟨[], some ({ item with lastSeen := now }, rest)⟩
    else if item.hasExpired ageLimit now then findCssidItemForBssid now bssid rest
    else (findCssidItemForBssid now bssid rest).push item

/-- `morse_dot11ah_find_bssid`. -/
def findBssid (now : BitVec 64) (bssid : BitVec 48) : List CssidItem → Located
  | [] => ⟨[], none⟩
  | item :: rest =>
    if item.bssid = bssid then ⟨[], some ({ item with lastSeen := now }, rest)⟩
    else (findBssid now bssid rest).push item

/-! ## Storing -/

/-- What `morse_dot11ah_store_cssid` is called with.  For a probe response there is no
copy of what is stored. -/
structure StoredFrame where
  mask : Contents
  capabInfo : BitVec 16
  s1gIes : List (BitVec 8)
  bssid : BitVec 48
  vals : UpdateRxBeaconVals

/-- What memory there is for an entry and for its elements, and what stands in it. -/
structure Memory where
  itemGranted : Bool
  iesGranted : Bool
  beaconInt : BitVec 16

/-- The name of the network. -/
def StoredFrame.networkId (frame : StoredFrame) : List (BitVec 8) :=
  match (frame.mask (networkIdEid frame.mask)).head with
  | some data => data.val
  | none => []

/-- What is added to the length for an element that is put back. -/
def StoredFrame.addedLength (frame : StoredFrame) (eid : Eid) : Nat :=
  match frame.vals.find eid with
  | some element => if (frame.mask eid).head.isNone then element.data.val.length + 2 else 0
  | none => 0

/-- `s1g_ies_len_updated`. -/
def StoredFrame.updatedLength (frame : StoredFrame) : Nat :=
  frame.s1gIes.length + frame.addedLength wlanEidRsn + frame.addedLength wlanEidRsnx

/-- The elements of the frame, with those that are put back. -/
def StoredFrame.updatedIes (frame : StoredFrame) : List (BitVec 8) :=
  frame.s1gIes ++ (insertRsnAndRsnxIe frame.vals frame.mask).flatMap Element.octets

/-- `morse_dot11ah_store_cssid` for an entry that there is. -/
def CssidItem.update (item : CssidItem) (memory : Memory) (frame : StoredFrame) :
    CssidItem × List Access :=
  ({ item with
      capabInfo :=
        if item.capabInfo ≠ frame.capabInfo ∧ frame.capabInfo ≠ 0 then frame.capabInfo
        else item.capabInfo
      ies := Ies.storeCssid frame.mask item.ies frame.s1gIes frame.vals memory.iesGranted
      bssid := frame.bssid },
    if memory.iesGranted then [⟨frame.updatedLength, frame.updatedIes.length⟩] else [])

/-- A new entry. -/
def StoredFrame.item (now : BitVec 64) (memory : Memory) (frame : StoredFrame) : CssidItem where
  cssid := generateCssid frame.networkId
  lastSeen := now
  capabInfo := frame.capabInfo
  bssid := frame.bssid
  ssid := frame.networkId
  meshBeacon := decide (networkIdEid frame.mask = wlanEidMeshId)
  ies := frame.s1gIes
  fcBssBwSubfield := fcBssBwInvalid
  beaconInt := memory.beaconInt

/-- `morse_dot11ah_store_cssid` for a network that there is no entry of. -/
def addItem (now : BitVec 64) (memory : Memory) (frame : StoredFrame) (items : List CssidItem) :
    List CssidItem × List Access :=
  if !memory.itemGranted then (items, [])
  else if !memory.iesGranted then (items, [⟨maxSsidLen, frame.networkId.length⟩])
  else
    (frame.item now memory :: items,
      [⟨maxSsidLen, frame.networkId.length⟩, ⟨frame.s1gIes.length, frame.s1gIes.length⟩])

/-- `morse_dot11ah_store_cssid`. -/
def storeCssid (now : BitVec 64) (memory : Memory) (frame : StoredFrame)
    (items : List CssidItem) : List CssidItem × List Access :=
  let located := findCssidItemForBssid ageLimit now frame.bssid items
  match located.found with
  | some (item, behind) =>
    ((located.before ++ (item.update memory frame).1 :: behind), (item.update memory frame).2)
  | none => addItem now memory frame located.before

/-! ## Reading -/

/-- The maps between channels that the region provides. -/
structure ChannelMap where
  channelToFreqKhz : BitVec 8 → BitVec 32
  prim1mhzChanLocToIdx : Nat → Nat → BitVec 8 → BitVec 8 → BitVec 8 → BitVec 8

variable (channelMap : ChannelMap)

/-- `struct morse_channel_info`, as far as it is read from an element. -/
structure ChannelInfo where
  opBwMhz : Nat
  priBwMhz : Nat
  pri1mhzChanIdx : BitVec 8
  opChanFreqHz : BitVec 32
  deriving DecidableEq, Repr

/-- The octet at an offset from where an element begins, with what is behind it in
memory. -/
def octetAt (behind : Nat → BitVec 8) (element : Element) (offset : Nat) : BitVec 8 :=
  element.octets.getD offset (behind (offset - element.octets.length))

/-- `morse_mac_find_channel_info_for_bssid`, for the element that is found. -/
def channelInfoOf (behind : Nat → BitVec 8) (op : Element) : ChannelInfo where
  opBwMhz := ((octetAt behind op 2 >>> 1) &&& 0xf).toNat + 1
  priBwMhz := if octetAt behind op 2 &&& 1 ≠ 0 then 1 else 2
  pri1mhzChanIdx :=
    channelMap.prim1mhzChanLocToIdx (((octetAt behind op 2 >>> 1) &&& 0xf).toNat + 1)
      (if octetAt behind op 2 &&& 1 ≠ 0 then 1 else 2) (octetAt behind op 4)
      (octetAt behind op 5) ((octetAt behind op 2 >>> 5) &&& 1)
  opChanFreqHz := channelMap.channelToFreqKhz (octetAt behind op 5) * 1000

/-- `struct ieee80211_s1g_cap` and the channel are read from the element of the entry for a
network, if both are there. -/
def readElement (eid : Eid) (read : Element → List Access × α) (now : BitVec 64)
    (bssid : BitVec 48) (items : List CssidItem) : List CssidItem × List Access × Option α :=
  let located := findBssid now bssid items
  match located.found with
  | some (item, _) =>
    match findIe eid item.ies with
    | some element => (located.items, (read element).1, some (read element).2)
    | none => (located.items, [], none)
  | none => (located.items, [], none)

/-- `morse_mac_find_channel_info_for_bssid`. -/
def findChannelInfoForBssid (behind : Nat → BitVec 8) (now : BitVec 64) (bssid : BitVec 48)
    (items : List CssidItem) : List CssidItem × List Access × Option ChannelInfo :=
  readElement wlanEidS1gOperation
    (fun op => ([⟨op.octets.length, 5 + 1⟩], channelInfoOf channelMap behind op)) now bssid items

/-- `morse_dot11_find_bssid_on_channel`. -/
def findBssidOnChannel (behind : Nat → BitVec 8) (opChanFreqHz : BitVec 32) :
    List CssidItem → List Access × Option (BitVec 48)
  | [] => ([], none)
  | item :: rest =>
    match findIe wlanEidS1gOperation item.ies with
    | some op =>
      if opChanFreqHz = channelMap.channelToFreqKhz (octetAt behind op 5) * 1000 then
        ([⟨op.octets.length, 5 + 1⟩], some item.bssid)
      else
        (⟨op.octets.length, 5 + 1⟩ :: (findBssidOnChannel behind opChanFreqHz rest).1,
          (findBssidOnChannel behind opChanFreqHz rest).2)
    | none => findBssidOnChannel behind opChanFreqHz rest

/-- `morse_dot11ah_find_s1g_caps_for_bssid`, with the octets that are copied. -/
def findS1gCapsForBssid (now : BitVec 64) (bssid : BitVec 48) (items : List CssidItem) :
    List CssidItem × List Access × Option (List (BitVec 8)) :=
  readElement wlanEidS1gCapabilities
    (fun ie =>
      ([⟨s1gCapLength, ie.data.val.length⟩, ⟨ie.octets.length, 2 + ie.data.val.length⟩],
        ie.data.val)) now bssid items

/-- `morse_dot11ah_is_page_slicing_enabled_on_bss`, where no entry or no element is no. -/
def isPageSlicingEnabledOnBss (behind : Nat → BitVec 8) (now : BitVec 64) (bssid : BitVec 48)
    (items : List CssidItem) : List CssidItem × List Access × Option Bool :=
  readElement wlanEidS1gCapabilities
    (fun ie =>
      ([⟨ie.octets.length, 2 + 6 + 1⟩], (octetAt behind ie (2 + 6)).getLsbD 4)) now bssid items

/-! ## Operations -/

/-- One of the readings. -/
inductive Reading
  | channelInfo (bssid : BitVec 48) (behind : Nat → BitVec 8)
  | bssidOnChannel (opChanFreqHz : BitVec 32) (behind : Nat → BitVec 8)
  | s1gCaps (bssid : BitVec 48)
  | pageSlicing (bssid : BitVec 48) (behind : Nat → BitVec 8)

/-- What a reading leaves of the list, and its accesses. -/
def Reading.run (now : BitVec 64) (items : List CssidItem) :
    Reading → List CssidItem × List Access
  | .channelInfo bssid behind =>
    ((findChannelInfoForBssid channelMap behind now bssid items).1,
      (findChannelInfoForBssid channelMap behind now bssid items).2.1)
  | .bssidOnChannel opChanFreqHz behind =>
    (items, (findBssidOnChannel channelMap behind opChanFreqHz items).1)
  | .s1gCaps bssid =>
    ((findS1gCapsForBssid now bssid items).1, (findS1gCapsForBssid now bssid items).2.1)
  | .pageSlicing bssid behind =>
    ((isPageSlicingEnabledOnBss behind now bssid items).1,
      (isPageSlicingEnabledOnBss behind now bssid items).2.1)

/-- What is done with the list. -/
inductive Operation
  | store (frame : StoredFrame) (memory : Memory)
  | read (reading : Reading)
  /-- `morse_dot11ah_is_mesh_peer_known`. -/
  | meshPeerKnown (bssid : BitVec 48)
  /-- `morse_dot11ah_find_bss_bw`. -/
  | bssBw (bssid : BitVec 48)
  /-- A beacon sets the bandwidth and, when it is translated, the interval. -/
  | beacon (bssid : BitVec 48) (fcBssBw : BitVec 8) (beaconInt : Option (BitVec 16))
  /-- `morse_dot11ah_find_no_of_mesh_neighbors`. -/
  | meshNeighbors (beaconInt : BitVec 16)
  /-- `morse_dot11ah_del_mesh_peer`. -/
  | delMeshPeer (bssid : BitVec 48)
  /-- `morse_dot11ah_clear_list`. -/
  | clearList

/-- `morse_dot11ah_find_no_of_mesh_neighbors`: the entries that stay, and how many of them
are neighbours. -/
def findNoOfMeshNeighbors (now : BitVec 64) (beaconInt : BitVec 16) (items : List CssidItem) :
    List CssidItem × Nat :=
  let kept := items.filter fun item => !item.hasExpired ageLimit now
  (kept, kept.countP fun item => item.meshBeacon && decide (item.beaconInt = beaconInt))

/-- `morse_dot11ah_del_mesh_peer`, with whether there was an entry. -/
def delMeshPeer (bssid : BitVec 48) (items : List CssidItem) : List CssidItem × Bool :=
  (items.eraseP fun item => decide (item.bssid = bssid),
    items.any fun item => decide (item.bssid = bssid))

/-- The bandwidth and the interval are set. -/
def setBeacon (now : BitVec 64) (bssid : BitVec 48) (fcBssBw : BitVec 8)
    (beaconInt : Option (BitVec 16)) (items : List CssidItem) : List CssidItem :=
  let located := findBssid now bssid items
  match located.found with
  | some (item, behind) =>
    located.before ++
      { item with
        fcBssBwSubfield := fcBssBw
        beaconInt := beaconInt.getD item.beaconInt } :: behind
  | none => located.before

/-- An operation at a time: the list that it leaves, and its accesses. -/
def Operation.run (now : BitVec 64) (items : List CssidItem) :
    Operation → List CssidItem × List Access
  | .store frame memory => storeCssid ageLimit now memory frame items
  | .read reading => reading.run channelMap now items
  | .meshPeerKnown bssid => ((findCssidItemForBssid ageLimit now bssid items).items, [])
  | .bssBw bssid => ((findBssid now bssid items).items, [])
  | .beacon bssid fcBssBw beaconInt => (setBeacon now bssid fcBssBw beaconInt items, [])
  | .meshNeighbors beaconInt => ((findNoOfMeshNeighbors ageLimit now beaconInt items).1, [])
  | .delMeshPeer bssid => ((Cssid.delMeshPeer bssid items).1, [])
  | .clearList => ([], [])

/-- The list that is left by operations that are done one after the other, each at its
time, and their accesses. -/
def runAll (items : List CssidItem) : List (BitVec 64 × Operation) → List CssidItem × List Access
  | [] => (items, [])
  | (now, operation) :: rest =>
    let done := operation.run ageLimit channelMap now items
    ((runAll done.1 rest).1, done.2 ++ (runAll done.1 rest).2)

end Operations

end Cssid
end Morse
