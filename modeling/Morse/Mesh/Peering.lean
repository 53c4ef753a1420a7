import Morse.Mesh.Restart
import Mathlib.Data.List.MinMax
import Mathlib.Data.Int.ConditionallyCompleteOrder
import Mathlib.Order.ConditionallyCompleteLattice.Basic

/-!
# Dynamic peering

A mesh station with all the peers that it may have asks the weakest of them to leave when it hears
a stranger of the same mesh that is received better.  The one that was asked is kept away for some
time.  A frame is read through its elements, and a read of an element that is not there, or beyond
its octets, is a fault.
-/

namespace Morse
namespace Mesh

/-! ## Frames -/

/-- What is read of a received management frame, with its elements and the signal. -/
structure RxMgmt where
  frameControl : BitVec 16
  da : Addr
  sa : Addr
  category : BitVec 8
  actionCode : BitVec 8
  meshId : Option (List (BitVec 8))
  meshConf : Option (List (BitVec 8))
  signal : Int
  deriving DecidableEq

namespace RxMgmt

/-- The bits of `IEEE80211_FCTL_STYPE`. -/
def stype (frame : RxMgmt) : BitVec 16 := frame.frameControl &&& 0xF0#16

/-- `ieee80211_is_s1g_beacon`. -/
def isS1gBeacon (frame : RxMgmt) : Bool := frame.frameControl &&& 0xFC#16 = 0x1C#16

/-- `IEEE80211_STYPE_S1G_BEACON`. -/
def stypeS1gBeacon : BitVec 16 := 0x10#16

/-- `IEEE80211_STYPE_PROBE_REQ`. -/
def stypeProbeReq : BitVec 16 := 0x40#16

/-- `IEEE80211_STYPE_PROBE_RESP`. -/
def stypeProbeResp : BitVec 16 := 0x50#16

/-- `IEEE80211_STYPE_ACTION`. -/
def stypeAction : BitVec 16 := 0xD0#16

/-- The address of the sender, which a beacon has in the place of the receiver. -/
def source (frame : RxMgmt) : Addr := if frame.isS1gBeacon then frame.da else frame.sa

/-- A frame of the peering protocol: open, confirm or close. -/
def isPeering (frame : RxMgmt) : Bool :=
  frame.category = 15 ∧ (frame.actionCode = 1 ∨ frame.actionCode = 2 ∨ frame.actionCode = 3)

/-- `morse_dynamic_peering_is_frame_allowed`. -/
def isFrameAllowed (frame : RxMgmt) : Bool :=
  if frame.stype = stypeS1gBeacon ∨ frame.stype = stypeProbeResp then false
  else if frame.stype = stypeAction ∧ frame.isPeering then false
  else true

/-- An octet of the mesh configuration. -/
def confOctet (frame : RxMgmt) (offset : Nat) : Option (BitVec 8) :=
  frame.meshConf.bind fun conf => conf[offset]?

/-- `MESH_PARSE_NO_OF_PEERINGS`. -/
def parseNoOfPeerings (info : BitVec 8) : BitVec 8 := (info &&& 0x7E#8) >>> 1

/-- How many peerings the sender has, 0 when it does not say. -/
def noOfPeerings (frame : RxMgmt) : Option (BitVec 8) :=
  match frame.meshConf with
  | none => some 0
  | some conf => conf[5]?.map parseNoOfPeerings

end RxMgmt

/-! ## Peers -/

/-- `struct morse_sta`, as far as it tells of a peer. -/
structure MorseSta where
  addr : Addr
  vif : Nat
  avgRssi : Int
  meshNoOfPeerings : BitVec 8
  deriving DecidableEq

/-- What a station is found by. -/
def MorseSta.key (sta : MorseSta) : Addr × Nat := (sta.addr, sta.vif)

/-- The stations of the device, of which an interface has one for each address. -/
@[ext] structure StaTable where
  entries : List MorseSta
  distinct : (entries.map MorseSta.key).Nodup
  deriving DecidableEq

/-- A mesh interface with the stations of the device and how many it counts for itself. -/
structure Interface where
  mesh : MorseMesh
  numStas : Nat
  stations : StaTable
  deriving DecidableEq

/-- `struct lowest_peer_rssi_iter`, once it is set. -/
structure LowestPeer where
  rssi : Int
  peer : Addr
  deriving DecidableEq

/-- A counter of ticks in a word that is at least as wide as 32 bits, and how long a tick is. -/
structure Clock where
  longModulus : Nat
  wide : 4294967296 ∣ longModulus
  bounded : 0 < longModulus
  msecsPerJiffy : Nat
  positive : 0 < msecsPerJiffy

namespace Clock

variable (clock : Clock)

/-- `jiffies`, after so many ticks. -/
def jiffies (now : Nat) : Nat := now % clock.longModulus

/-- `jiffies_to_msecs`. -/
def jiffiesToMsecs (ticks : Nat) : BitVec 32 := BitVec.ofNat 32 (clock.msecsPerJiffy * ticks)

/-- The milliseconds since a time that was kept in 32 bits. -/
def elapsedMsecs (now : Nat) (ts : BitVec 32) : BitVec 32 :=
  clock.jiffiesToMsecs
    ((clock.jiffies now + clock.longModulus - ts.toNat) % clock.longModulus)

end Clock

section Operations

variable (clock : Clock) (vif : Nat)

/-- `peer_with_lowest_rssi`. -/
def peerWithLowestRssi (lowest : Option LowestPeer) (sta : MorseSta) : Option LowestPeer :=
  if sta.vif ≠ vif then lowest
  else if sta.meshNoOfPeerings = 1 then lowest
  else
    match lowest with
    | none => some ⟨sta.avgRssi, sta.addr⟩
    | some found => if sta.avgRssi < found.rssi then some ⟨sta.avgRssi, sta.addr⟩ else some found

/-- The peer that the iteration over the stations leaves. -/
def lowestPeer (stations : List MorseSta) : Option LowestPeer :=
  stations.foldl (peerWithLowestRssi vif) none

/-- The element names the mesh of the interface.  An element that is missing has no octets. -/
def sameMesh (mesh : MorseMesh) (frame : RxMgmt) : Bool :=
  (frame.meshId.getD []).length = mesh.meshIdLen.toNat ∧ frame.meshId.getD [] = mesh.ownId

/-- Who is asked to leave, given the capabilities of the sender. -/
def selectPeer (frame : RxMgmt) (iface : Interface) (flags : BitVec 8) : Option Addr :=
  if flags &&& 1 = 0 then none
  else
    match lowestPeer vif iface.stations.entries with
    | none => none
    | some lowest =>
      if lowest.rssi + iface.mesh.rssiMargin.toNat < frame.signal then some lowest.peer else none

/-- `morse_mac_check_for_dynamic_peering`, up to the event: who is asked to leave, if no octet
is read that is not there. -/
def checkForDynamicPeering (frame : RxMgmt) (iface : Interface) : Option (Option Addr) :=
  if iface.numStas < iface.mesh.maxPlinks.toNat then some none
  else if sameMesh iface.mesh frame = false then some none
  else (frame.confOctet 6).map (selectPeer vif frame iface)

/-- The end of `morse_mac_check_for_dynamic_peering`: the peer is kept away if the event was
sent. -/
def Interface.kickedOut (now : Nat) (sent : Bool) (iface : Interface) (asked : Option Addr) :
    Interface :=
  match asked with
  | none => iface
  | some peer =>
    if sent then
      { iface with
        mesh :=
          { iface.mesh with
            kickoutPeerAddr := peer
            kickoutTs := BitVec.ofNat 32 (clock.jiffies now) } }
    else iface

/-- `ieee80211_find_sta_by_ifaddr`. -/
def findSta (addr : Addr) (stations : StaTable) : Option MorseSta :=
  stations.entries.find? fun sta => sta.key = (addr, vif)

/-- A number of peerings is noted for the station of a key. -/
def noteFor (key : Addr × Nat) (peerings : BitVec 8) (sta : MorseSta) : MorseSta :=
  if sta.key = key then { sta with meshNoOfPeerings := peerings } else sta

theorem key_noteFor (key : Addr × Nat) (peerings : BitVec 8) (sta : MorseSta) :
    (noteFor key peerings sta).key = sta.key := by
  rw [noteFor]
  split
  · rfl
  · rfl

/-- The number of peerings is noted for the station that was found. -/
def notePeerings (addr : Addr) (peerings : BitVec 8) (stations : StaTable) : StaTable where
  entries := stations.entries.map (noteFor (addr, vif) peerings)
  distinct := by
    have keys : MorseSta.key ∘ noteFor (addr, vif) peerings = MorseSta.key := by
      funext sta
      exact key_noteFor _ _ sta
    rw [List.map_map, keys]
    exact stations.distinct

/-- Nobody is kept away once the time is over. -/
def MorseMesh.released (now : Nat) (mesh : MorseMesh) : MorseMesh :=
  if mesh.kickoutTs ≠ 0 ∧
      mesh.blacklistTimeout * 1000 ≤ clock.elapsedMsecs now mesh.kickoutTs then
    { mesh with kickoutPeerAddr := 0, kickoutTs := 0 }
  else mesh

/-- What a frame leads to: what is returned, where nothing stands for 0, and who is asked to
leave. -/
structure Verdict where
  returned : Option Errno
  asked : Option Addr
  deriving DecidableEq

/-- The frames that dynamic peering looks at. -/
def listens (iface : Interface) (frame : RxMgmt) : Bool :=
  iface.mesh.dynamicPeering ∧
    (frame.isS1gBeacon ∨ frame.stype = RxMgmt.stypeAction ∨ frame.stype = RxMgmt.stypeProbeResp)

/-- A frame of a station that is not kept away. -/
def hear (now : Nat) (sent : Bool) (frame : RxMgmt) (iface : Interface) (peerings : BitVec 8) :
    Option (Interface × Verdict) :=
  let noted :=
    if frame.meshConf.isSome then
      { iface with stations := notePeerings vif frame.source peerings iface.stations }
    else iface
  if findSta vif frame.source iface.stations = none ∧ iface.mesh.kickoutTs = 0 ∧ peerings = 0 then
    (checkForDynamicPeering vif frame noted).map fun asked =>
      (noted.kickedOut clock now sent asked, ⟨none, asked⟩)
  else some (noted, ⟨none, none⟩)

/-- `morse_mac_process_rx_mesh_probe_req`, but for the status that it keeps. -/
def processRxMeshProbeReq (frame : RxMgmt) (iface : Interface) : Interface × Verdict :=
  if (findSta vif frame.sa iface.stations).isSome then (iface, ⟨some .eacces, none⟩)
  else (iface, ⟨none, none⟩)

/-- `morse_mac_process_mesh_rx_mgmt`.  Whether the event can be sent is given. -/
def processMeshRxMgmt (now : Nat) (sent : Bool) (frame : RxMgmt) (iface : Interface) :
    Option (Interface × Verdict) :=
  if iface.mesh.isMeshActive = false then some (iface, ⟨some .enoent, none⟩)
  else if iface.mesh.meshBeaconlessMode ∧ frame.stype = RxMgmt.stypeProbeReq then
    some (processRxMeshProbeReq vif frame iface)
  else if listens iface frame = false then some (iface, ⟨none, none⟩)
  else
    let mesh := iface.mesh.released clock now
    if mesh.kickoutPeerAddr = frame.source ∧ frame.isFrameAllowed = false then
      some ({ iface with mesh := mesh }, ⟨some .eacces, none⟩)
    else frame.noOfPeerings.bind (hear clock vif now sent frame { iface with mesh := mesh })

/-! ## What is asked of a frame -/

/-- It is right to ask a peer to leave: the table is full, the sender is a stranger of the same
mesh that takes peers, and the peer has other peers and is the weakest of those, by the margin
weaker than the sender. -/
structure Justified (frame : RxMgmt) (iface : Interface) (peer : Addr) : Prop where
  full : iface.mesh.maxPlinks.toNat ≤ iface.numStas
  stranger : ∀ sta ∈ iface.stations.entries, sta.vif = vif → sta.addr ≠ frame.source
  same : frame.meshId.getD [] = iface.mesh.ownId
  accepts : ∃ flags, frame.confOctet 6 = some flags ∧ flags &&& 1 ≠ 0
  weakest : ∃ sta ∈ iface.stations.entries, sta.vif = vif ∧ sta.addr = peer ∧
    1 < sta.meshNoOfPeerings ∧
    (∀ other ∈ iface.stations.entries, other.vif = vif → 1 < other.meshNoOfPeerings →
      sta.avgRssi ≤ other.avgRssi) ∧
    sta.avgRssi + iface.mesh.rssiMargin.toNat ≤ frame.signal

/-- Only octets that are there are read, and nobody is asked to leave without need. -/
def Sound (now : Nat) (sent : Bool) (frame : RxMgmt) (iface : Interface) : Prop :=
  ∃ next verdict, processMeshRxMgmt clock vif now sent frame iface = some (next, verdict) ∧
    ∀ peer, verdict.asked = some peer → Justified vif frame iface peer

/-- The frame is one that dynamic peering looks at on an active mesh interface. -/
def Listened (frame : RxMgmt) (iface : Interface) : Prop :=
  iface.mesh.isMeshActive = true ∧
    ¬ (iface.mesh.meshBeaconlessMode = true ∧ frame.stype = RxMgmt.stypeProbeReq) ∧
    listens iface frame = true

/-- The frame is dropped because its sender is kept away. -/
def Blocked (now : Nat) (frame : RxMgmt) (iface : Interface) : Prop :=
  (iface.mesh.released clock now).kickoutPeerAddr = frame.source ∧ frame.isFrameAllowed = false

/-- The sender is a stranger without peers that names the mesh, while the table is full and
nobody is kept away. -/
def Examined (now : Nat) (frame : RxMgmt) (iface : Interface) : Prop :=
  findSta vif frame.source iface.stations = none ∧
    (iface.mesh.released clock now).kickoutTs = 0 ∧ frame.noOfPeerings = some 0 ∧
    iface.mesh.maxPlinks.toNat ≤ iface.numStas ∧ sameMesh iface.mesh frame = true

/-- The stations of the interface that do not have exactly one peering. -/
def candidates (stations : List MorseSta) : List MorseSta :=
  stations.filter fun sta => sta.vif = vif ∧ sta.meshNoOfPeerings ≠ 1

/-- The weakest candidate is weaker than a sender that takes peers. -/
def Chosen (now : Nat) (frame : RxMgmt) (iface : Interface) (sta : MorseSta) : Prop :=
  Listened frame iface ∧ ¬ Blocked clock now frame iface ∧ Examined clock vif now frame iface ∧
    (∃ flags, frame.confOctet 6 = some flags ∧ flags &&& 1 ≠ 0) ∧
    sta ∈ (candidates vif iface.stations.entries).argmin MorseSta.avgRssi ∧
    sta.avgRssi + iface.mesh.rssiMargin.toNat < frame.signal

/-- A mesh configuration that is looked at has the octets that are read, it is not missing where
the capabilities are read, and who would be asked to leave has more than one peering. -/
structure Harmless (now : Nat) (frame : RxMgmt) (iface : Interface) : Prop where
  formation : Listened frame iface → ¬ Blocked clock now frame iface →
    ∀ conf, frame.meshConf = some conf → 6 ≤ conf.length
  capability : Listened frame iface → ¬ Blocked clock now frame iface →
    Examined clock vif now frame iface → ∃ conf, frame.meshConf = some conf ∧ 7 ≤ conf.length
  connected : ∀ sta, Chosen clock vif now frame iface sta → 1 < sta.meshNoOfPeerings

end Operations

end Mesh
end Morse
