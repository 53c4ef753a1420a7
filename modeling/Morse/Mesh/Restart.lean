import Morse.Mesh.Defs
import Morse.Lib.Transition
import Mathlib.Data.List.DropRight

/-!
# The configuration of a mesh and restarts of the driver

Three commands configure a mesh interface.  The one that names the network also starts it and
writes a copy of the configuration, which is found by the interface's address after a restart,
when the interface was added again with defaults.  What the commands ask for is said apart from
the driver, and a restart keeps it when nothing was asked for since the copy was written that the
copy does not hold.
-/

namespace Morse
namespace Mesh

open Lib

/-! ## Requests and copies -/

/-- `struct morse_mesh_config`, and `struct morse_cmd_req_set_mesh_config` behind its header. -/
structure MeshConfig where
  meshIdLen : BitVec 8
  meshId : MeshId
  meshBeaconlessMode : BitVec 8
  maxPlinks : BitVec 8
  deriving DecidableEq

/-- `struct morse_cmd_req_set_mcba_conf` behind its header. -/
structure SetMbcaConf where
  mbcaConfig : BitVec 8
  beaconTimingReportInterval : BitVec 8
  minBeaconGapMs : BitVec 8
  mbssStartScanDurationMs : BitVec 16
  tbttAdjIntervalMs : BitVec 16
  deriving DecidableEq

/-- `struct morse_cmd_req_dynamic_peering_config` behind its header. -/
structure DynamicPeeringConfig where
  enabled : BitVec 8
  rssiMargin : BitVec 8
  blacklistTimeout : BitVec 32
  deriving DecidableEq

/-- `struct morse_mesh_config_list` without its link and lock. -/
structure MeshConfigList where
  addr : Addr
  dynamicPeering : Bool
  rssiMargin : BitVec 8
  blacklistTimeout : BitVec 32
  meshConf : MeshConfig
  mbca : MbcaConfig
  deriving DecidableEq

/-- What `kzalloc` returns for a copy. -/
def MeshConfigList.zero : MeshConfigList where
  addr := 0
  dynamicPeering := false
  rssiMargin := 0
  blacklistTimeout := 0
  meshConf := { meshIdLen := 0, meshId := noMeshId, meshBeaconlessMode := 0, maxPlinks := 0 }
  mbca :=
    { config := 0
      beaconTimingReportInterval := 0
      beaconCount := 0
      minBeaconGapMs := 0
      mbssStartScanDurationMs := 0
      tbttAdjIntervalMs := 0 }

/-- The mesh interface and the copies that the driver holds. -/
structure Driver where
  mesh : MorseMesh
  configs : List MeshConfigList
  deriving DecidableEq

/-- What of the parameters is sent when the mesh has beacons; the rest of the request is not
written otherwise. -/
structure Beaconing where
  minBeaconGapMs : BitVec 8
  tbttAdjTimerIntervalMs : BitVec 16
  mbssStartScanDurationMs : BitVec 16
  deriving DecidableEq

/-- `struct morse_cmd_req_mesh_config`. -/
structure CfgMesh where
  stop : Bool
  mbcaConfig : BitVec 8
  beaconing : Option Beaconing
  deriving DecidableEq

/-! ## The driver -/

/-- `memcpy` of so many octets of a mesh identifier. -/
def copyMeshId (count : Nat) (source target : MeshId) : MeshId :=
  Vector.ofFn fun index => if index.val < count then source[index.val] else target[index.val]

/-- `morse_find_mesh_config`. -/
def findMeshConfig (addr : Addr) (configs : List MeshConfigList) : Option MeshConfigList :=
  configs.find? fun config => config.addr = addr

/-- What `morse_store_mesh_config` writes to a copy. -/
def MorseMesh.written (addr : Addr) (mesh : MorseMesh) (config : MeshConfigList) :
    MeshConfigList where
  addr := addr
  dynamicPeering := mesh.dynamicPeering
  rssiMargin := mesh.rssiMargin
  blacklistTimeout := mesh.blacklistTimeout
  meshConf :=
    { meshIdLen := mesh.meshIdLen
      meshId := copyMeshId mesh.meshIdLen.toNat mesh.meshId config.meshConf.meshId
      meshBeaconlessMode := if mesh.meshBeaconlessMode then 1 else 0
      maxPlinks := mesh.maxPlinks }
  mbca := mesh.mbca

/-- A copy that was found is written in its place. -/
def rewrite (addr : Addr) (mesh : MorseMesh) : List MeshConfigList → List MeshConfigList
  | [] => []
  | config :: rest =>
    if config.addr = addr then mesh.written addr config :: rest
    else config :: rewrite addr mesh rest

/-- `morse_store_mesh_config`.  A copy that is not found is allocated, unless there is no memory
for it. -/
def storeMeshConfig (addr : Addr) (mesh : MorseMesh) (allocated : Bool)
    (configs : List MeshConfigList) : List MeshConfigList :=
  match findMeshConfig addr configs with
  | some _ => rewrite addr mesh configs
  | none => if allocated then mesh.written addr MeshConfigList.zero :: configs else configs

/-- The request of `morse_cmd_cfg_mesh`. -/
def MorseMesh.cfgMesh (mesh : MorseMesh) (stop beacons : Bool) : CfgMesh where
  stop := stop
  mbcaConfig := mesh.mbca.config
  beaconing :=
    if beacons then
      some
        { minBeaconGapMs := mesh.mbca.minBeaconGapMs
          tbttAdjTimerIntervalMs := mesh.mbca.tbttAdjIntervalMs
          mbssStartScanDurationMs := mesh.mbca.mbssStartScanDurationMs }
    else none

/-- A mesh without beacons does not keep them apart. -/
def MorseMesh.quieted (mesh : MorseMesh) : MorseMesh :=
  if mesh.meshBeaconlessMode then { mesh with mbca := { mesh.mbca with config := 0 } } else mesh

/-- `morse_cmd_cfg_mesh_bss`, and whether the firmware accepts the request. -/
def cmdCfgMeshBss (firmware : CfgMesh → Bool) (stop : Bool) (mesh : MorseMesh) :
    MorseMesh × Bool :=
  ({ mesh.quieted with mbca := { mesh.quieted.mbca with beaconCount := 0 } },
    firmware (mesh.quieted.cfgMesh stop !mesh.quieted.meshBeaconlessMode))

/-- What a mesh configuration writes to the interface. -/
def MorseMesh.named (conf : MeshConfig) (mesh : MorseMesh) : MorseMesh :=
  { mesh with
    meshId := copyMeshId conf.meshIdLen.toNat conf.meshId mesh.meshId
    meshIdLen := conf.meshIdLen
    meshBeaconlessMode := conf.meshBeaconlessMode != 0
    maxPlinks := conf.maxPlinks }

/-- Where `morse_cmd_set_mesh_config` takes the configuration from.  Only what was requested is
copied, when there is memory for it. -/
inductive Source
  | request (conf : MeshConfig) (allocated : Bool)
  | stored (config : MeshConfigList)

/-- The configuration that a source holds. -/
def Source.conf : Source → MeshConfig
  | .request conf _ => conf
  | .stored config => config.meshConf

/-- The copies after a configuration from a source was accepted. -/
def Source.copies (addr : Addr) (mesh : MorseMesh) (configs : List MeshConfigList) :
    Source → List MeshConfigList
  | .request _ allocated => storeMeshConfig addr mesh allocated configs
  | .stored _ => configs

/-- `morse_cmd_set_mesh_config` on a mesh interface. -/
def cmdSetMeshConfig (addr : Addr) (firmware : CfgMesh → Bool) (source : Source)
    (driver : Driver) : Driver × Option Errno :=
  if driver.mesh.isMeshActive then (driver, some .enoent)
  else if maxSsidLen < source.conf.meshIdLen.toNat then (driver, some .einval)
  else
    let configured := cmdCfgMeshBss firmware false (driver.mesh.named source.conf)
    if !configured.2 then ({ driver with mesh := configured.1 }, some .eperm)
    else
      let active := { configured.1 with isMeshActive := true }
      ({ mesh := active, configs := source.copies addr active driver.configs }, none)

/-- `morse_cmd_process_mbca_conf`. -/
def cmdProcessMbcaConf (conf : SetMbcaConf) (driver : Driver) : Driver × Option Errno :=
  ({ driver with
      mesh :=
        { driver.mesh with
          mbca :=
            { driver.mesh.mbca with
              config := conf.mbcaConfig
              beaconTimingReportInterval := conf.beaconTimingReportInterval
              minBeaconGapMs := conf.minBeaconGapMs
              tbttAdjIntervalMs := conf.tbttAdjIntervalMs
              mbssStartScanDurationMs := conf.mbssStartScanDurationMs } } },
    none)

/-- What `morse_cmd_process_dynamic_peering_conf` writes. -/
def MorseMesh.peered (conf : DynamicPeeringConfig) (mesh : MorseMesh) : MorseMesh :=
  { mesh with
    dynamicPeering := conf.enabled != 0
    rssiMargin := conf.rssiMargin
    blacklistTimeout := conf.blacklistTimeout }

/-- `morse_cmd_process_dynamic_peering_conf`. -/
def cmdProcessDynamicPeeringConf (conf : DynamicPeeringConfig) (driver : Driver) :
    Driver × Option Errno :=
  ({ driver with mesh := driver.mesh.peered conf }, none)

/-- The mesh is stopped when its beacons are. -/
def stopMesh (firmware : CfgMesh → Bool) (driver : Driver) : Driver :=
  { driver with mesh := { (cmdCfgMeshBss firmware true driver.mesh).1 with isMeshActive := false } }

/-- `morse_restore_mesh_config`. -/
def restoreMeshConfig (addr : Addr) (firmware : CfgMesh → Bool) (driver : Driver) :
    Driver × Option Errno :=
  match findMeshConfig addr driver.configs with
  | none => (driver, some .enoent)
  | some config =>
    let restored := cmdSetMeshConfig addr firmware (.stored config)
      { driver with mesh := { driver.mesh with mbca := config.mbca } }
    (restored.1, restored.2.map fun _ => .einval)

/-- The interface is added again with defaults, and the copies are kept. -/
def Driver.restarted (driver : Driver) : Driver := { driver with mesh := meshInit }

/-! ## Commands -/

/-- What is asked of a mesh interface, with the answers of the firmware and of the allocator. -/
inductive Command
  | setMeshConfig (conf : MeshConfig) (firmware : CfgMesh → Bool) (allocated : Bool)
  | setMbcaConf (conf : SetMbcaConf)
  | dynamicPeering (conf : DynamicPeeringConfig)
  | stop (firmware : CfgMesh → Bool)

/-- A command and what it returns. -/
def Command.process (addr : Addr) (driver : Driver) : Command → Driver × Option Errno
  | .setMeshConfig conf firmware allocated =>
    cmdSetMeshConfig addr firmware (.request conf allocated) driver
  | .setMbcaConf conf => cmdProcessMbcaConf conf driver
  | .dynamicPeering conf => cmdProcessDynamicPeeringConf conf driver
  | .stop firmware => (stopMesh firmware driver, none)

/-- The driver after a command that is accepted. -/
def accept (addr : Addr) (driver : Driver) (command : Command) : Option Driver :=
  match command.process addr driver with
  | (next, none) => some next
  | (_, some _) => none

/-! ## Settings -/

/-- How the network is called and who may be in it. -/
structure Network where
  meshId : List (BitVec 8)
  beaconless : Bool
  maxPlinks : BitVec 8
  deriving DecidableEq

/-- How beacons are kept apart. -/
abbrev Mbca := SetMbcaConf

/-- Whether peers are asked to leave for better ones, and how. -/
structure Peering where
  enabled : Bool
  rssiMargin : BitVec 8
  blacklistTimeout : BitVec 32
  deriving DecidableEq

/-- What the commands decide. -/
@[ext] structure Settings where
  network : Network
  mbca : Mbca
  peering : Peering
  deriving DecidableEq

/-- The parameters without the count of beacons. -/
def MbcaConfig.parameters (mbca : MbcaConfig) : Mbca where
  mbcaConfig := mbca.config
  beaconTimingReportInterval := mbca.beaconTimingReportInterval
  minBeaconGapMs := mbca.minBeaconGapMs
  mbssStartScanDurationMs := mbca.mbssStartScanDurationMs
  tbttAdjIntervalMs := mbca.tbttAdjIntervalMs

/-- The settings that are in force on an interface. -/
def MorseMesh.settings (mesh : MorseMesh) : Settings where
  network :=
    { meshId := mesh.ownId, beaconless := mesh.meshBeaconlessMode, maxPlinks := mesh.maxPlinks }
  mbca := mesh.mbca.parameters
  peering :=
    { enabled := mesh.dynamicPeering
      rssiMargin := mesh.rssiMargin
      blacklistTimeout := mesh.blacklistTimeout }

/-- The network that a configuration asks for. -/
def MeshConfig.network (conf : MeshConfig) : Network where
  meshId := conf.meshId.toList.take conf.meshIdLen.toNat
  beaconless := conf.meshBeaconlessMode != 0
  maxPlinks := conf.maxPlinks

/-- The peering that a request asks for. -/
def DynamicPeeringConfig.peering (conf : DynamicPeeringConfig) : Peering where
  enabled := conf.enabled != 0
  rssiMargin := conf.rssiMargin
  blacklistTimeout := conf.blacklistTimeout

/-- In a network without beacons nothing keeps them apart. -/
def Network.quiet (network : Network) (mbca : Mbca) : Mbca :=
  if network.beaconless then { mbca with mbcaConfig := 0 } else mbca

/-- What a command asks for, given what was asked for before. -/
def Command.ask (settings : Settings) : Command → Settings
  | .setMeshConfig conf _ _ =>
    { settings with network := conf.network, mbca := conf.network.quiet settings.mbca }
  | .setMbcaConf conf => { settings with mbca := conf }
  | .dynamicPeering conf => { settings with peering := conf.peering }
  | .stop _ => { settings with mbca := settings.network.quiet settings.mbca }

/-- What commands ask for. -/
def asked (start : Settings) (commands : List Command) : Settings :=
  commands.foldl Command.ask start

/-- The command names the network. -/
def Command.configures : Command → Bool
  | .setMeshConfig _ _ _ => true
  | _ => false

/-- The commands up to the last one that names the network. -/
def upToConfiguration (commands : List Command) : List Command :=
  commands.rdropWhile fun command => !command.configures

/-- Nothing was asked for that is not in the copy: the peering is the one of the defaults, and
the parameters are those that the last mesh configuration found.  Where there was none, the copy
from before says what is in force. -/
structure Lasting (addr : Addr) (start : Driver) (commands : List Command) : Prop where
  peering : (asked start.mesh.settings commands).peering = meshInit.settings.peering
  mbca : upToConfiguration commands ≠ [] →
    (asked start.mesh.settings commands).mbca =
      (asked start.mesh.settings (upToConfiguration commands)).mbca
  unconfigured : upToConfiguration commands = [] →
    ∀ config, findMeshConfig addr start.configs = some config →
      (asked start.mesh.settings commands).network = config.meshConf.network ∧
        (asked start.mesh.settings commands).mbca =
          config.meshConf.network.quiet config.mbca.parameters

end Mesh
end Morse
