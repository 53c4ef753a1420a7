import Mathlib.Data.Vector.Basic

/-!
# Mesh interfaces

What the driver keeps of a mesh interface: how the network is called, how its beacons are kept
apart, and which peer was asked to leave.
-/

namespace Morse
namespace Mesh

/-- An address. -/
abbrev Addr := BitVec 48

/-- `IEEE80211_MAX_SSID_LEN`. -/
def maxSsidLen : Nat := 32

/-- The octets of a mesh identifier, of which a length apart from them says how many count. -/
abbrev MeshId := Vector (BitVec 8) maxSsidLen

/-- What a function of the module returns when it does not return 0. -/
inductive Errno
  | eperm
  | enoent
  | eacces
  | efault
  | einval
  deriving DecidableEq, Repr

/-- `struct morse_mbca_config`. -/
structure MbcaConfig where
  config : BitVec 8
  beaconTimingReportInterval : BitVec 8
  beaconCount : BitVec 8
  minBeaconGapMs : BitVec 8
  mbssStartScanDurationMs : BitVec 16
  tbttAdjIntervalMs : BitVec 16
  deriving DecidableEq, Repr

/-- `struct morse_mesh` without the timer and the status of probe requests. -/
structure MorseMesh where
  isMeshActive : Bool
  meshBeaconlessMode : Bool
  meshId : MeshId
  meshIdLen : BitVec 8
  maxPlinks : BitVec 8
  dynamicPeering : Bool
  rssiMargin : BitVec 8
  blacklistTimeout : BitVec 32
  kickoutPeerAddr : Addr
  kickoutTs : BitVec 32
  mbca : MbcaConfig
  deriving DecidableEq

/-- The octets of a mesh identifier that count. -/
def MorseMesh.ownId (mesh : MorseMesh) : List (BitVec 8) :=
  mesh.meshId.toList.take mesh.meshIdLen.toNat

/-- No octets of a mesh identifier. -/
def noMeshId : MeshId := Vector.replicate maxSsidLen 0

/-- `morse_mesh_init`: the memory is zeroed, and the parameters are set to their defaults. -/
def meshInit : MorseMesh where
  isMeshActive := false
  meshBeaconlessMode := false
  meshId := noMeshId
  meshIdLen := 0
  maxPlinks := 0
  dynamicPeering := false
  rssiMargin := 5
  blacklistTimeout := 30
  kickoutPeerAddr := 0
  kickoutTs := 0
  mbca :=
    { config := 1
      beaconTimingReportInterval := 10
      beaconCount := 0
      minBeaconGapMs := 25
      mbssStartScanDurationMs := 2048
      tbttAdjIntervalMs := 60000 }

end Mesh
end Morse
