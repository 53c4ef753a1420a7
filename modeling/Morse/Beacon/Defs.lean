import Mathlib.Algebra.Group.Int.Defs
import Morse.Lib.SetBits
import Morse.Lib.Transition

/-!
# Interfaces that send beacons

An interface that sends beacons has an interrupt for it, and a counter says how many
interfaces do.  This module transcribes what interfaces that come and go, and the command
that lets one interface send the beacons of another, do to both.
-/

namespace Morse
namespace Beacon

open Lib

/-! ## Interfaces -/

/-- `enum nl80211_iftype`, as far as the driver makes a difference. -/
inductive IfType
  | station
  | ap
  | adhoc
  | meshPoint
  | unsupported
  deriving DecidableEq, Repr

/-- `morse_mac_is_iface_ap_type`. -/
def IfType.isApType : IfType → Bool
  | .ap => true
  | .adhoc => true
  | .meshPoint => true
  | .station => false
  | .unsupported => false

/-- `struct morse_vif`, which stays with an interface that is removed and added again, and
whether mac80211 takes the interface for added. -/
structure MorseVif where
  type : IfType
  id : Nat
  maxBssidIndicator : Nat
  transmitterVifId : Nat
  running : Bool
  deriving DecidableEq, Repr

/-- An interface that was not added yet. -/
def MorseVif.zeroed : MorseVif := ⟨.station, 0, 0, 0, false⟩

/-- `struct morse`, with its interfaces and the bits in `beacon_irqs_enabled`. -/
structure Mors where
  enableMbssidIe : Bool
  vif : Nat → Option Nat
  vifs : Nat → MorseVif
  beaconIrqsEnabled : BitVec 64
  numBcnVifs : Int

/-- A driver without interfaces. -/
def Mors.start (enableMbssidIe : Bool) : Mors where
  enableMbssidIe := enableMbssidIe
  vif := fun _ => none
  vifs := fun _ => .zeroed
  beaconIrqsEnabled := 0
  numBcnVifs := 0

/-- An interface is changed. -/
def Mors.setVif (mors : Mors) (handle : Nat) (vif : MorseVif) : Mors :=
  { mors with vifs := Function.update mors.vifs handle vif }

/-- What a call returns, with the error where it fails. -/
inductive Ret
  | ok
  | efault
  | enoent
  | enomem
  | eperm
  | eopnotsupp
  | failed
  deriving DecidableEq, Repr

section Interfaces

/- How many interfaces there can be, and what they are called. -/
variable (maxVifs : Nat) (name : Nat → String)

/-! ## Interrupts -/

/-- `MORSE_INT_BEACON_BASE_NUM`. -/
def intBeaconBaseNum : Nat := 17

/-- The number of the interrupt of an interface, in an octet. -/
def beaconIrqNum (id : Nat) : Nat := (intBeaconBaseNum + id) % 256

/-- `set_bit` and `clear_bit`, which write to other memory from bit 64 on. -/
def changeBit (irqs : BitVec 64) (irq : Nat) (enable : Bool) : Option (BitVec 64) :=
  if irq < 64 then some (if enable then irqs ||| (1#64 <<< irq) else irqs &&& ~~~(1#64 <<< irq))
  else none

/-- `morse_beacon_irq_enable`, and whether it succeeds. -/
def beaconIrqEnable (mors : Mors) (id : Nat) (enable : Bool) : Option (Mors × Bool) :=
  if maxVifs < id then some (mors, false)
  else do
    let irqs ← changeBit mors.beaconIrqsEnabled (beaconIrqNum id) enable
    return ({ mors with beaconIrqsEnabled := irqs }, true)

/-- `morse_beacon_init`, and whether it succeeds. -/
def beaconInit (mors : Mors) (id : Nat) : Option (Mors × Bool) := do
  let (mors, enabled) ← beaconIrqEnable maxVifs mors id true
  return (if enabled then { mors with numBcnVifs := mors.numBcnVifs + 1 } else mors, enabled)

/-- `morse_beacon_finish`. -/
def beaconFinish (mors : Mors) (id : Nat) : Option Mors := do
  let (mors, _) ← beaconIrqEnable maxVifs mors id false
  return { mors with numBcnVifs := mors.numBcnVifs - 1 }

/-- The start of `morse_beacon_tasklet`, where a beacon is dropped because the queue has as
many as there are interfaces, which is compared without a sign. -/
def beaconTaskletDrops (mors : Mors) (count : Nat) : Bool :=
  decide ((mors.numBcnVifs % 2 ^ 32).toNat ≤ count)

/-! ## Interfaces come and go -/

/-- What happens while an interface is added: whether the country is the one that was loaded,
the identifier that the firmware gives it, and whether there is memory, a mesh can be set up
and the capabilities can be asked for. -/
structure AddOutcome where
  sameCountry : Bool
  cmdAddIf : Option (BitVec 16)
  alloc : Bool
  meshInit : Bool
  getCapabilities : Bool
  deriving DecidableEq, Repr

/-- The part of `morse_mac_ops_add_interface` for interfaces that send beacons. -/
def addBeaconing (mors : Mors) (type : IfType) (id : Nat) (outcome : AddOutcome) :
    Option (Mors × Ret) :=
  if !outcome.alloc then some (mors, .enomem)
  else do
    let (mors, enabled) ← beaconInit maxVifs mors id
    return (mors,
      if !enabled ∨ maxVifs < id then .failed
      else if decide (type = .meshPoint) && !outcome.meshInit then .failed
      else .ok)

/-- `morse_mac_ops_add_interface`. -/
def addInterface (mors : Mors) (handle : Nat) (type : IfType) (outcome : AddOutcome) :
    Option (Mors × Ret) :=
  if type = .unsupported then some (mors, .eopnotsupp)
  else if type.isApType && !outcome.sameCountry then some (mors, .eperm)
  else
    match outcome.cmdAddIf with
    | none => some (mors, .failed)
    | some reported =>
      let id := reported.toNat
      let mors := mors.setVif handle { mors.vifs handle with type := type, id := id }
      if maxVifs ≤ id then some (mors, .ok)
      else if id ≠ id % 256 then some (mors, .eopnotsupp)
      else do
        let mors := { mors with vif := Function.update mors.vif id (some handle) }
        let (mors, ret) ← (if type.isApType then addBeaconing maxVifs mors type id outcome
          else some (mors, .ok))
        return (mors,
          if ret ≠ .ok then ret else if !outcome.getCapabilities then .failed else .ok)

/-- Whether an interface stops sending beacons when it is removed. -/
def stopsBeaconing (mors : Mors) (vif : MorseVif) : Bool :=
  vif.type.isApType &&
    if vif.type = .ap ∧ mors.enableMbssidIe then decide (vif.id = vif.transmitterVifId) else true

/-- `morse_mac_ops_remove_interface`. -/
def removeInterface (mors : Mors) (handle : Nat) : Option Mors := do
  let vif := mors.vifs handle
  let mors ← (if stopsBeaconing mors vif then beaconFinish maxVifs mors vif.id else some mors)
  return { mors with vif := Function.update mors.vif (vif.id % 256) none }

/-! ## The command -/

/-- The loop of `morse_command_process_bssid_info`, and the interface that it leaves off at:
the transmitter, or else the one with the last identifier. -/
def findTransmitter (mors : Mors) (transmitterIface : String) (last : Option Nat) :
    List Nat → Option Nat
  | [] => last
  | vifId :: rest =>
    match mors.vif vifId with
    | none => findTransmitter mors transmitterIface none rest
    | some handle =>
      if name handle = transmitterIface then some handle
      else findTransmitter mors transmitterIface (some handle) rest

/-- `morse_command_process_bssid_info`, where the beacon timer of the firmware is stopped
whether that works or not. -/
def processBssidInfo (mors : Mors) (handle : Option Nat) (maxBssidIndicator : BitVec 8)
    (transmitterIface : String) : Option (Mors × Ret) :=
  match handle with
  | none => some (mors, .efault)
  | some handle =>
    if !mors.enableMbssidIe then some (mors, .enoent)
    else
      match findTransmitter name mors transmitterIface none (List.range maxVifs) with
      | none => some (mors, .enoent)
      | some transmitter => do
          let mors := mors.setVif handle
            { mors.vifs handle with
              maxBssidIndicator := min maxBssidIndicator.toNat maxVifs
              transmitterVifId := (mors.vifs transmitter).id % 256 }
          let mors ← (if (mors.vifs handle).id ≠ (mors.vifs transmitter).transmitterVifId then
            beaconFinish maxVifs mors (mors.vifs handle).id else some mors)
          return (mors, .ok)

/-! ## Steps -/

/-- What is done with the interfaces. -/
inductive Action
  | add (handle : Nat) (type : IfType) (outcome : AddOutcome)
  | remove (handle : Nat)
  | mbssid (handle : Option Nat) (maxBssidIndicator : BitVec 8) (transmitterIface : String)
  deriving DecidableEq, Repr

/-- An interface that mac80211 added is running. -/
def setRunning (mors : Mors) (handle : Nat) (running : Bool) : Mors :=
  mors.setVif handle { mors.vifs handle with running := running }

/-- One thing is done with the interfaces.  mac80211 adds those that are not running and
removes those that are. -/
def step (mors : Mors) : Action → Option Mors
  | .add handle type outcome =>
    if (mors.vifs handle).running then none
    else do
      let (mors, ret) ← addInterface maxVifs mors handle type outcome
      return setRunning mors handle (decide (ret = .ok))
  | .remove handle =>
    if (mors.vifs handle).running then do
      let mors ← removeInterface maxVifs mors handle
      return setRunning mors handle false
    else none
  | .mbssid handle maxBssidIndicator transmitterIface => do
      let (mors, _) ← processBssidInfo maxVifs name mors handle maxBssidIndicator transmitterIface
      return mors

end Interfaces

end Beacon
end Morse
