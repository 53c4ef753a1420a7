import Morse.Lib.Octets
import Morse.Raw.Defs

/-!
# The RAW command of the host tool

The tool checks the integers of its command line, narrows them to the fields of the TLVs and sends
these behind flags and identifier.  The driver walks the octets that it is sent up to the length in
the header.
-/

namespace Morse
namespace Raw

open Lib

/-- `int`. -/
abbrev CInt := BitVec 32

/-- `RAW_CMD_MIN_SLOT_DUR_US`. -/
def rawCmdMinSlotDurUs : Nat := 500

/-- `RAW_CMD_MAX_SLOT_DUR_US`. -/
def rawCmdMaxSlotDurUs : Nat := 410099

/-- `RAW_CMD_MAX_START_TIME_US`. -/
def rawCmdMaxStartTimeUs : Nat := 522240

/-- `RAW_CMD_MAX_AID`. -/
def rawCmdMaxAid : Nat := 2007

/-- `MORSE_CMD_CFG_RAW_FLAG_ENABLE`. -/
def morseCmdCfgRawFlagEnable : BitVec 32 := 0x1

/-- `MORSE_CMD_CFG_RAW_FLAG_DELETE`. -/
def morseCmdCfgRawFlagDelete : BitVec 32 := 0x2

/-- `MORSE_CMD_CFG_RAW_FLAG_UPDATE`. -/
def morseCmdCfgRawFlagUpdate : BitVec 32 := 0x4

/-- The alternatives of the argument `{enable|disable|delete}`. -/
inductive EnableArg
  | enable
  | disable
  | delete
  deriving DecidableEq, Repr

/-- The options of the command, as they are parsed. -/
structure RawArgs where
  /-- RAW duration and number of slots -/
  slotDef : Option (CInt × CInt)
  crossSlot : Bool
  /-- start and end AID -/
  aidGroup : Option (CInt × CInt)
  startTime : Option CInt
  /-- maximum number of beacons to spread over, and nominal stations per beacon -/
  bcnSpread : Option (CInt × CInt)
  /-- periodicity, validity and offset -/
  praw : Option (CInt × CInt × CInt)
  enable : Option EnableArg
  id : Option CInt
  deriving DecidableEq, Repr

/-- The errors that the tool reports. -/
inductive RawError
  | invalidRawId
  | invalidNumberOfSlots
  | invalidRawDuration
  | aidStartAboveEnd
  | aidRangeInvalid
  | invalidStartTime
  | spreadingWithPraw
  | invalidPeriodicity
  | invalidValidity
  | invalidStartOffset
  | startOffsetNotBelowPeriodicity
  | optionsForGlobalRaw
  deriving DecidableEq, Repr

/-- `struct morse_cmd_req_config_raw`, with the length from its header. -/
structure RawReq where
  hdrLen : BitVec 16
  flags : BitVec 32
  id : BitVec 16
  variablePart : List (BitVec 8)
  deriving DecidableEq, Repr

/-! ## The tool -/

section Tool

variable (args : RawArgs)

/-- The identifier that is sent. -/
def toolId : Except RawError (BitVec 16) :=
  match args.id with
  | none => .ok 0
  | some id => if id.toInt > 65535 then .error .invalidRawId else .ok (id.setWidth 16)

/-- The slot definition, from `uint8_t num_slots` on. -/
def toolSlotDef : Except RawError (List Tlv) :=
  match args.slotDef with
  | none => .ok []
  | some (duration, slots) =>
    let numSlots : BitVec 8 := slots.setWidth 8
    if numSlots.toNat < 1 ∨ 63 < numSlots.toNat then .error .invalidNumberOfSlots
    else if duration.toNat < numSlots.toNat * rawCmdMinSlotDurUs ∨
        numSlots.toNat * rawCmdMaxSlotDurUs < duration.toNat then
      .error .invalidRawDuration
    else .ok [.slotDef duration numSlots (if args.crossSlot then 1 else 0)]

/-- The AID group, from `uint16_t aid_start` and `aid_end` on. -/
def toolAidGroup : Except RawError (List Tlv) :=
  match args.aidGroup with
  | none => .ok []
  | some (first, last) =>
    let aidStart : BitVec 16 := first.setWidth 16
    let aidEnd : BitVec 16 := last.setWidth 16
    if aidEnd.toNat < aidStart.toNat then .error .aidStartAboveEnd
    else if aidStart.toNat < 1 ∨ rawCmdMaxAid < aidEnd.toNat then .error .aidRangeInvalid
    else .ok [.group aidStart aidEnd]

/-- The start time. -/
def toolStartTime : Except RawError (List Tlv) :=
  match args.startTime with
  | none => .ok []
  | some startTime =>
    if rawCmdMaxStartTimeUs < startTime.toNat then .error .invalidStartTime
    else .ok [.startTime startTime]

/-- The periodic operation.  The check of the validity reads the periodicity where it should read
the validity. -/
def toolPraw : Except RawError (List Tlv) :=
  match args.praw with
  | none => .ok []
  | some (periodicity, validity, offset) =>
    if periodicity.toInt > 255 ∨ periodicity.toInt < 1 then .error .invalidPeriodicity
    else if validity.toInt ≠ -1 ∧ (validity.toInt > 255 ∨ periodicity.toInt < 1) then
      .error .invalidValidity
    else if offset.toInt > 255 ∨ offset.toInt < 0 then .error .invalidStartOffset
    else if (periodicity.setWidth 8 : BitVec 8).toNat ≤ (offset.setWidth 8 : BitVec 8).toNat then
      .error .startOffsetNotBelowPeriodicity
    else if validity.toInt = -1 then
      .ok [.praw (periodicity.setWidth 8) 255 (offset.setWidth 8) 1]
    else .ok [.praw (periodicity.setWidth 8) (validity.setWidth 8) (offset.setWidth 8) 0]

/-- The beacon spreading. -/
def toolBcnSpread : Except RawError (List Tlv) :=
  match args.bcnSpread with
  | none => .ok []
  | some (maxSpread, nominalStaPerBcn) =>
    .ok [.bcnSpread (maxSpread.setWidth 16) (nominalStaPerBcn.setWidth 16)]

/-- The TLVs that `raw` writes. -/
def toolTlvs : Except RawError (List Tlv) := do
  let slotDef ← toolSlotDef args
  let aidGroup ← toolAidGroup args
  let startTime ← toolStartTime args
  if args.praw.isSome ∧ args.bcnSpread.isSome then throw .spreadingWithPraw
  let praw ← toolPraw args
  let bcnSpread ← toolBcnSpread args
  return slotDef ++ aidGroup ++ startTime ++ praw ++ bcnSpread

end Tool

/-- A TLV in memory. -/
def Tlv.octets : Tlv → List (BitVec 8)
  | .slotDef rawDurationUs numSlots crossSlotBleed =>
    leOctets 1 (0 : BitVec 8) ++ (leOctets 4 rawDurationUs ++
      (leOctets 1 numSlots ++ (leOctets 1 crossSlotBleed ++ [])))
  | .group aidStart aidEnd =>
    leOctets 1 (1 : BitVec 8) ++ (leOctets 2 aidStart ++ (leOctets 2 aidEnd ++ []))
  | .startTime startTimeUs => leOctets 1 (2 : BitVec 8) ++ (leOctets 4 startTimeUs ++ [])
  | .praw periodicity validity startOffset refreshOnExpiry =>
    leOctets 1 (3 : BitVec 8) ++ (leOctets 1 periodicity ++ (leOctets 1 validity ++
      (leOctets 1 startOffset ++ (leOctets 1 refreshOnExpiry ++ []))))
  | .bcnSpread maxSpread nominalStaPerBcn =>
    leOctets 1 (4 : BitVec 8) ++ (leOctets 2 maxSpread ++ (leOctets 2 nominalStaPerBcn ++ []))
  | .unrecognised => []

/-- `sizeof(*tlv) * MORSE_CMD_RAW_TLV_TAG_LAST`, the room for TLVs. -/
def tlvRoom : Nat := 49

/-- `sizeof(*req)`, without the header. -/
def sizeofReq : Nat := 6

/-- The request as `morsectrl_send_command` sends it. -/
def sendReq (flags : BitVec 32) (id : BitVec 16) (variablePart : List (BitVec 8)) : RawReq where
  hdrLen := BitVec.ofNat 16 (sizeofReq + variablePart.length)
  flags := flags
  id := id
  variablePart := variablePart

/-- `raw`: the request that is sent, if no error is reported.  To delete, the whole zeroed buffer is
sent. -/
def raw (args : RawArgs) : Except RawError RawReq := do
  let id ← toolId args
  if args.enable = some .delete then
    return sendReq morseCmdCfgRawFlagDelete id (List.replicate tlvRoom 0)
  let flags := if args.enable = some .enable then morseCmdCfgRawFlagEnable else 0
  let tlvs ← toolTlvs args
  if tlvs = [] then
    return sendReq flags id []
  if id = 0 then throw .optionsForGlobalRaw
  return sendReq (flags ||| morseCmdCfgRawFlagUpdate) id (tlvs.flatMap Tlv.octets)

/-! ## The driver -/

/-- The TLV at the head of the octets, and its size. -/
def tlvAt (octets : List (BitVec 8)) : Tlv × Nat :=
  match (numberAt 8 1 0 octets).toNat with
  | 0 => (.slotDef (numberAt 32 4 1 octets) (numberAt 8 1 5 octets) (numberAt 8 1 6 octets), 7)
  | 1 => (.group (numberAt 16 2 1 octets) (numberAt 16 2 3 octets), 5)
  | 2 => (.startTime (numberAt 32 4 1 octets), 5)
  | 3 =>
    (.praw (numberAt 8 1 1 octets) (numberAt 8 1 2 octets) (numberAt 8 1 3 octets)
      (numberAt 8 1 4 octets), 5)
  | 4 => (.bcnSpread (numberAt 16 2 1 octets) (numberAt 16 2 3 octets), 5)
  | _ => (.unrecognised, 0)

/-- The TLVs that the loop of `morse_raw_cmd_to_config` meets from the head on, with so many octets
up to the tail.  It stops at one that it does not recognise, and each of the others has five
octets at least. -/
def walkTlvs : Nat → List (BitVec 8) → Int → List Tlv
  | 0, _, _ => []
  | fuel + 1, octets, left =>
    if left ≤ 0 then []
    else
      match tlvAt octets with
      | (.unrecognised, _) => [.unrecognised]
      | (tlv, size) => tlv :: walkTlvs fuel (octets.drop size) (left - size)

/-- What `morse_raw_process_config_group` reads of a static command; `beyond` is what the memory
holds behind the request. -/
def staticGroup (req : RawReq) (beyond : List (BitVec 8)) (memory : Bool) : ConfigGroup :=
  let len : Int := (req.hdrLen.toNat : Int) - sizeofReq
  let flags : BitVec 16 := req.flags.setWidth 16
  { id := req.id
    enable := decide (flags &&& morseCmdCfgRawFlagEnable.setWidth 16 ≠ 0)
    delete := decide (flags &&& morseCmdCfgRawFlagDelete.setWidth 16 ≠ 0)
    update := decide (flags &&& morseCmdCfgRawFlagUpdate.setWidth 16 ≠ 0)
    beaconIdx := u16Max
    tlvs := walkTlvs len.toNat (req.variablePart ++ beyond) len
    memory := memory }

end Raw
end Morse
