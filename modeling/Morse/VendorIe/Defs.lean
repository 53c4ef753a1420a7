import Morse.Ies.Mask

/-!
# Vendor elements at run time

User space gives an interface vendor elements that it puts into its management frames.
One element can be meant for several kinds of frames, and how much of a frame they take is
limited.
-/

namespace Morse
namespace VendorIe

open Lib Ies

/-! ## Elements of an interface -/

/-- The kinds of frames that vendor elements are put into. -/
inductive MgmtType
  | beacon
  | probeReq
  | probeResp
  | assocReq
  | assocResp
  deriving DecidableEq, Repr

/-- `enum morse_vendor_ie_mgmt_type_flags`. -/
def MgmtType.flag : MgmtType → BitVec 16
  | .beacon => 0b00001
  | .probeReq => 0b00010
  | .probeResp => 0b00100
  | .assocReq => 0b01000
  | .assocResp => 0b10000

/-- `struct vendor_ie_list_item`. -/
structure ListItem where
  mgmtTypeMask : BitVec 16
  len : BitVec 8
  oui : List (BitVec 8)
  deriving DecidableEq, Repr

/-- An element is meant for a frame of one of some kinds. -/
def ListItem.isFor (item : ListItem) (mask : BitVec 16) : Bool :=
  decide (item.mgmtTypeMask &&& mask ≠ 0)

/-- `morse_vendor_ie_get_ies_length`, in 16 bits. -/
def getIesLength (items : List ListItem) (mask : BitVec 16) : BitVec 16 :=
  if mask = 0 then 0
  else
    items.foldl (fun length item =>
      if item.isFor mask then length + 1 + 1 + item.len.setWidth 16 else length) 0

/-- `WLAN_EID_VENDOR_SPECIFIC`. -/
def vendorSpecificEid : Eid := 221

/-- The loop of `morse_vendor_ie_add_ies`, and whether it gets to the end. -/
def addEach (memory : Nat → Bool) : List ListItem → IesMask → Bool × IesMask
  | [], mask => (true, mask)
  | item :: rest, mask =>
    match iesCreateIeElement memory mask vendorSpecificEid item.len.toNat false false with
    | (none, created) => (false, created)
    | (some place, created) =>
      addEach memory rest (created.modify vendorSpecificEid place fun element =>
        { element with ptr := .borrowed })

/-- `morse_vendor_ie_add_ies`. -/
def addIes (memory : Nat → Bool) (items : List ListItem) (mgmtTypeMask : BitVec 16)
    (mask : IesMask) : Bool × IesMask :=
  if mgmtTypeMask = 0 then (true, mask)
  else addEach memory (items.filter (·.isFor mgmtTypeMask)) mask

/-! ## Commands -/

/-- What a command returns. -/
inductive Errno
  | ok
  | einval
  | enodev
  | enospc
  | enomem
  | enotsupp
  deriving DecidableEq, Repr

/-- `MORSE_MAX_VENDOR_IE_SIZE`. -/
def maxVendorIeSize : Nat := 255

section Commands

/- The limit on what the elements of a frame take. -/
variable (maxTotalVendorIeBytes : Nat)

/-- `morse_vendor_ie_add_to_ie_list`, which has the length of the whole element in an octet.
An interface that does not exist has no list. -/
def addToIeList (alloc : Bool) (vif : Option (List ListItem)) (mask : BitVec 16)
    (data : List (BitVec 8)) (dataLen : BitVec 16) : Errno × Option (List ListItem) :=
  let fullIeLength : BitVec 8 := (dataLen + 1 + 1).setWidth 8
  if dataLen.toNat ≤ 3 ∨ maxVendorIeSize < dataLen.toNat then (.einval, vif)
  else
    match vif with
    | none => (.enodev, none)
    | some items =>
      if maxTotalVendorIeBytes < (getIesLength items mask).toNat + fullIeLength.toNat then
        (.enospc, vif)
      else if !alloc then (.enomem, vif)
      else (.ok, some (items ++ [⟨mask, dataLen.setWidth 8, data.take dataLen.toNat⟩]))

/-- `morse_vendor_ie_clear_ie_list`. -/
def clearIeList (vif : Option (List ListItem)) (mask : BitVec 16) :
    Errno × Option (List ListItem) :=
  (.ok, vif.map fun items => items.filter fun item => !item.isFor mask)

/-- The commands that change the elements. -/
inductive Opcode
  | addElement
  | clearElements
  deriving DecidableEq, Repr

/-- `struct morse_cmd_req_vendor_ie_config`, with the length in its header, and what is in
memory from its data on. -/
structure Config where
  hdrLen : BitVec 16
  opcode : Opcode
  mgmtTypeMask : BitVec 16
  data : List (BitVec 8)
  deriving DecidableEq, Repr

/-- The length of the data of a command. -/
def Config.dataSize (cfg : Config) : BitVec 16 := cfg.hdrLen - 2 - 2

/-- `morse_vendor_ie_handle_config_cmd`. -/
def handleConfigCmd (alloc : Bool) (vif : Option (List ListItem)) (cfg : Config) :
    Errno × Option (List ListItem) :=
  if cfg.mgmtTypeMask = 0 ∨ cfg.mgmtTypeMask &&& ~~~ 0b11111 ≠ 0 then (.enotsupp, vif)
  else
    match cfg.opcode with
    | .addElement =>
      addToIeList maxTotalVendorIeBytes alloc vif cfg.mgmtTypeMask cfg.data cfg.dataSize
    | .clearElements => clearIeList vif cfg.mgmtTypeMask

/-- A command, and whether there is memory for it. -/
structure Action where
  cfg : Config
  alloc : Bool

/-- An interface handles a command. -/
def step (vif : Option (List ListItem)) (action : Action) : Option (Option (List ListItem)) :=
  some (handleConfigCmd maxTotalVendorIeBytes action.alloc vif action.cfg).2

end Commands

end VendorIe
end Morse
