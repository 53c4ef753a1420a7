import Morse.Beacon.Defs
import Morse.Mesh.Defs

/-!
# Adding an interface

mac80211 has the driver add an interface, and takes it for not added when an error is returned.
The driver has the firmware create it, puts it in its table, and sets up what an interface of its
type needs, in steps that may fail.  What a call returns stands beside the driver as the call
leaves it, so that what is left of a failed call can be looked at.
-/

namespace Morse
namespace Iface

open Beacon

/-! ## What is set up -/

/-- `struct morse_ap`, as far as it is set up with the interface. -/
structure MorseAp where
  backPointer : Bool
  raw : Bool
  bssStats : Bool
  deriving DecidableEq, Repr

/-- `struct morse_vif`, as far as it is set up with the interface. -/
structure MorseVif where
  id : BitVec 16
  vendorIe : Bool
  pv1 : Bool
  ap : Option MorseAp
  beaconTasklet : Bool
  ndpProbeReqResp : Bool
  mesh : Option Mesh.MorseMesh
  mcastTxRateWork : Bool
  capabilities : Bool
  cacTimer : Bool
  sendProbeReq : Bool
  twt : Bool
  chswitchTimer : Bool
  ecsaChswitchWork : Bool
  deriving DecidableEq

/-- An interface, the driver that it belongs to, and the interfaces that the firmware created. -/
structure World where
  vif : MorseVif
  table : Nat → Option Nat
  beaconIrqsEnabled : Nat → Bool
  ndpProbeIrqsEnabled : Nat → Bool
  numBcnVifs : Nat
  preAssocIfaces : Nat
  numOfApInterfaces : Nat
  firmware : List (BitVec 16)

/-- The interface that is added, and how the module was loaded. -/
structure Setting where
  handle : Nat
  type : IfType
  maxVifs : Nat
  sameCountry : Bool
  enablePv1 : Bool
  enableCac : Bool
  enableMcastRateControl : Bool

/-- An error is not 0. -/
abbrev Failure := { ret : Int // ret ≠ 0 }

/-- How the steps that may fail come out. -/
structure Outcome where
  cmdAddIf : Except Failure (BitVec 16)
  alloc : Bool
  beaconIrq : Int
  ndpProbeIrq : Int
  meshAlloc : Bool
  getCapabilities : Int

/-- What a step returns, and what it leaves. -/
abbrev Step := World → Int × World

/-- A step, and the next one unless it returned an error. -/
def Step.orExit (first next : Step) : Step := fun world =>
  if (first world).1 = 0 then next (first world).2 else first world

/-- A step that returns 0. -/
def Step.always (change : World → World) : Step := fun world => (0, change world)

/-! ## The steps -/

section Steps

variable (setting : Setting) (outcome : Outcome)

/-- The interface is written. -/
def World.setVif (world : World) (vif : MorseVif) : World := { world with vif := vif }

/-- `kzalloc` of what an access point has. -/
def allocAp : Step := fun world =>
  if outcome.alloc then (0, world.setVif { world.vif with ap := some ⟨false, false, false⟩ })
  else (-12, world)

/-- `morse_beacon_init` for an identifier of the table. -/
def beaconInit : Step := fun world =>
  (outcome.beaconIrq,
    { world with
      vif := { world.vif with beaconTasklet := true }
      beaconIrqsEnabled := Function.update world.beaconIrqsEnabled world.vif.id.toNat true
      numBcnVifs := if outcome.beaconIrq = 0 then world.numBcnVifs + 1 else world.numBcnVifs })

/-- `morse_ndp_probe_req_resp_init` for an identifier of the table. -/
def ndpProbeReqRespInit : Step := fun world =>
  (outcome.ndpProbeIrq,
    { world with
      vif := { world.vif with ndpProbeReqResp := true }
      ndpProbeIrqsEnabled := Function.update world.ndpProbeIrqsEnabled world.vif.id.toNat true })

/-- The access point refers back to its interface. -/
def linkAp (world : World) : World :=
  world.setVif { world.vif with ap := world.vif.ap.map fun ap => { ap with backPointer := true } }

/-- `morse_mesh_init` for a mesh interface. -/
def meshInit : Step := fun world =>
  if setting.type ≠ .meshPoint then (0, world)
  else if outcome.meshAlloc then
    (0, world.setVif { world.vif with mesh := some Mesh.meshInit })
  else (-12, world.setVif { world.vif with mesh := none })

/-- The rate of multicast frames is looked after, and the list of peers is shared. -/
def startAp (world : World) : World :=
  { world with
    vif :=
      { world.vif with
        mcastTxRateWork := setting.enableMcastRateControl &&
          decide (setting.type = .ap ∨ setting.type = .meshPoint) }
    preAssocIfaces := world.preAssocIfaces + 1 }

/-- What `morse_mac_ops_add_interface` does for interfaces that send beacons. -/
def addAp : Step :=
  if setting.type.isApType then
    (allocAp outcome).orExit <| (beaconInit outcome).orExit <|
      (ndpProbeReqRespInit outcome).orExit <| (Step.always linkAp).orExit <|
        (meshInit setting outcome).orExit <| Step.always (startAp setting)
  else Step.always id

/-- `morse_cmd_get_capabilities`. -/
def getCapabilities : Step := fun world =>
  (outcome.getCapabilities,
    if outcome.getCapabilities = 0 then world.setVif { world.vif with capabilities := true }
    else world)

/-- The features of an access point, or of a station. -/
def enableFeatures (world : World) : World :=
  match setting.type with
  | .ap =>
    world.setVif
      { world.vif with
        cacTimer := setting.enableCac || world.vif.cacTimer
        ap := world.vif.ap.map fun ap => { ap with raw := true, bssStats := true } }
  | .station => world.setVif { world.vif with sendProbeReq := true }
  | _ => world

/-- What the function ends with. -/
def finish (world : World) : World :=
  { world with
    vif := { world.vif with twt := true, chswitchTimer := true, ecsaChswitchWork := true }
    numOfApInterfaces :=
      if setting.type = .ap then world.numOfApInterfaces + 1 else world.numOfApInterfaces }

/-- The interface is put in the table, and gets what every interface of its kind has. -/
def register (world : World) : World :=
  { world with
    table := Function.update world.table world.vif.id.toNat (some setting.handle)
    vif :=
      { world.vif with
        ap := none
        pv1 := setting.enablePv1 &&
          decide (setting.type = .ap ∨ setting.type = .station) } }

/-- The firmware created the interface. -/
def created (id : BitVec 16) (world : World) : World :=
  { world with
    vif := { world.vif with id := id, vendorIe := true }
    firmware := id :: world.firmware }

/-- What follows once the interface is created. -/
def setUp : Step :=
  (Step.always (register setting)).orExit <| (addAp setting outcome).orExit <|
    (getCapabilities outcome).orExit <|
      Step.always fun world => finish setting (enableFeatures setting world)

/-- `morse_mac_ops_add_interface`. -/
def addInterface : Step := fun world =>
  if setting.type = .unsupported then (-95, world)
  else if setting.type.isApType && !setting.sameCountry then (-1, world)
  else
    match outcome.cmdAddIf with
    | .error failure => (failure.val, world)
    | .ok id =>
      if setting.maxVifs ≤ id.toNat then (0, created id world)
      else if id.toNat ≠ id.toNat % 256 then (95, created id world)
      else setUp setting outcome (created id world)

/-! ## What is asked of the call -/

/-- What an interface that sends beacons needs. -/
structure BeaconsUp (world : World) : Prop where
  ap : ∃ ap, world.vif.ap = some ap ∧ ap.backPointer = true
  tasklet : world.vif.beaconTasklet = true
  irq : world.beaconIrqsEnabled world.vif.id.toNat = true
  ndpProbe : world.vif.ndpProbeReqResp = true
  ndpProbeIrq : world.ndpProbeIrqsEnabled world.vif.id.toNat = true

/-- The interface is registered under its identifier, the firmware has it, and what an interface
of its type needs is set up. -/
structure Complete (world : World) : Prop where
  registered : world.vif.id.toNat < setting.maxVifs ∧
    world.table world.vif.id.toNat = some setting.handle
  created : world.vif.id ∈ world.firmware
  common : world.vif.vendorIe = true ∧ world.vif.capabilities = true ∧ world.vif.twt = true ∧
    world.vif.chswitchTimer = true ∧ world.vif.ecsaChswitchWork = true
  beacons : setting.type.isApType = true → BeaconsUp world
  mesh : setting.type = .meshPoint → ∃ mesh, world.vif.mesh = some mesh
  accessPoint : setting.type = .ap →
    (∃ ap, world.vif.ap = some ap ∧ ap.raw = true ∧ ap.bssStats = true) ∧
      (setting.enableCac = true → world.vif.cacTimer = true)
  station : setting.type = .station → world.vif.sendProbeReq = true

/-- The interface is not in the table, and nothing of an access point, of its beacons or of a
timer is left with it. -/
structure Bare (world : World) : Prop where
  unregistered : ∀ index, world.table index ≠ some setting.handle
  ap : world.vif.ap = none ∧ world.vif.mesh = none
  beacons : world.vif.beaconTasklet = false ∧ world.vif.ndpProbeReqResp = false
  timers : world.vif.mcastTxRateWork = false ∧ world.vif.cacTimer = false ∧
    world.vif.chswitchTimer = false

/-- A call that returns 0 leaves a complete interface, and one that returns an error leaves
nothing of it, in the firmware either. -/
structure AllOrNothing (before : World) (result : Int × World) : Prop where
  all : result.1 = 0 → Complete setting result.2
  nothing : result.1 ≠ 0 → Bare setting result.2 ∧ result.2.firmware = before.firmware

/-- The call fails before the firmware creates an interface. -/
def Refused : Prop :=
  setting.type = .unsupported ∨
    (setting.type.isApType = true ∧ setting.sameCountry = false) ∨
    ∃ failure, outcome.cmdAddIf = .error failure

/-- Nothing fails that an interface that sends beacons needs. -/
structure ApSucceeds : Prop where
  alloc : outcome.alloc = true
  beaconIrq : outcome.beaconIrq = 0
  ndpProbeIrq : outcome.ndpProbeIrq = 0
  mesh : setting.type = .meshPoint → outcome.meshAlloc = true

/-- The firmware creates the interface under an identifier that the driver has room for, and no
step after it fails. -/
def Succeeds : Prop :=
  ∃ id, outcome.cmdAddIf = .ok id ∧ id.toNat < setting.maxVifs ∧ id.toNat < 256 ∧
    (setting.type.isApType = true → ApSucceeds setting outcome) ∧ outcome.getCapabilities = 0

end Steps

end Iface
end Morse
