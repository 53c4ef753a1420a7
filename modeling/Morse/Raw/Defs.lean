import Morse.Skbq.Defs

/-!
# Restricted access windows

An access point announces windows of the beacon interval that are restricted to
groups of its stations.  This module transcribes the configurations of these
windows, the commands that change them, and what a beacon and the update work do
to them.

A configuration is told apart by its identifier.  The lists of active
configurations hold identifiers, in place of the configurations' list members.
-/

namespace Morse
namespace Raw

/-- `INVALID_AID_VALUE` and `INVALID_AID_IDX_VALUE`. -/
def invalidAidIdxValue : Int := -1

/-- `MAX_NUM_RAWS`. -/
def maxNumRaws : Nat := 9

/-- `RAW_INTERNAL_ID_OFFSET`. -/
def rawInternalIdOffset : BitVec 16 := 0x8000

/-- `MORSE_RAW_DTIMS_FOR_PRAW_TX`. -/
def morseRawDtimsForPrawTx : BitVec 8 := 10

/-- `U16_MAX`, the beacon index of a static configuration. -/
def u16Max : BitVec 16 := 0xFFFF

/-- The slot definition of a window. -/
structure SlotDefinition where
  crossSlotBoundary : Bool
  numSlots : BitVec 16
  slotDurationUs : BitVec 32
  deriving DecidableEq, Repr

/-- The periodic operation of a window, counted in beacons. -/
structure Periodic where
  refreshPraw : Bool
  validity : BitVec 8
  periodicity : BitVec 8
  startOffset : BitVec 8
  curValidity : BitVec 8
  curStartOffset : BitVec 8
  deriving DecidableEq, Repr

/-- How the stations of a window are spread over beacons. -/
structure BeaconSpreading where
  maxSpread : BitVec 16
  nominalStaPerBeacon : BitVec 16
  lastAid : BitVec 16
  deriving DecidableEq, Repr

/-- `struct morse_raw_config`. -/
structure RawConfig where
  id : BitVec 16
  startTimeUs : BitVec 32
  startAid : BitVec 16
  endAid : BitVec 16
  startAidIdx : Int
  endAidIdx : Int
  slotDefinition : SlotDefinition
  periodic : Periodic
  beaconSpreading : BeaconSpreading
  /-- `dynamic.insert_at_idx` -/
  insertAtIdx : BitVec 16
  deriving DecidableEq, Repr

/-- A configuration as `kzalloc` gives it, with its identifier. -/
def RawConfig.zeroed (id : BitVec 16) : RawConfig where
  id := id
  startTimeUs := 0
  startAid := 0
  endAid := 0
  startAidIdx := 0
  endAidIdx := 0
  slotDefinition := ⟨false, 0, 0⟩
  periodic := ⟨false, 0, 0, 0, 0, 0⟩
  beaconSpreading := ⟨0, 0, 0⟩
  insertAtIdx := 0

/-- `morse_raw_cfg_is_periodic`. -/
def RawConfig.isPeriodic (cfg : RawConfig) : Bool := decide (cfg.periodic.validity ≠ 0)

/-- `morse_raw_cfg_has_bcn_idx`. -/
def RawConfig.hasBcnIdx (cfg : RawConfig) : Bool := decide (cfg.insertAtIdx ≠ u16Max)

/-- The stations that an assignment of the element restricts its window to. -/
structure Assignment where
  id : BitVec 16
  startAid : BitVec 16
  endAid : BitVec 16
  deriving DecidableEq, Repr

/-- `struct morse_raw`, with the element by its assignments. -/
structure MorseRaw where
  /-- `RAW_STATE_ENABLED` -/
  enabled : Bool
  /-- `RAW_STATE_UPDATE_EACH_BEACON` -/
  updateEachBeacon : Bool
  /-- `RAW_STATE_REFRESH_AIDS` -/
  refreshAids : Bool
  /-- `RAW_STATE_BEACON_SENT` -/
  beaconSent : Bool
  prawTxCount : BitVec 8
  rpsIe : Option (List Assignment)
  numStatic : Int
  numDynamic : Int
  /-- `dynamic.current_num` -/
  currentNum : Int
  /-- `dynamic.num_beacons` -/
  numBeacons : BitVec 8
  aidList : Option (List (BitVec 16))
  rawConfigList : List RawConfig
  activeRaws : List (BitVec 16)
  activePraws : List (BitVec 16)
  deriving DecidableEq, Repr

namespace MorseRaw

/-- `morse_raw_init`. -/
def init (enable : Bool) : MorseRaw where
  enabled := enable
  updateEachBeacon := false
  refreshAids := false
  beaconSent := false
  prawTxCount := 0
  rpsIe := none
  numStatic := 0
  numDynamic := 0
  currentNum := 0
  numBeacons := 0
  aidList := none
  rawConfigList := []
  activeRaws := []
  activePraws := []

/-- `morse_raw_is_config_active`: the configuration is linked in some list. -/
def isConfigActive (raw : MorseRaw) (id : BitVec 16) : Bool :=
  decide (id ∈ raw.activeRaws) || decide (id ∈ raw.activePraws)

/-- `morse_raw_find_config_by_id`. -/
def findConfigById (raw : MorseRaw) (id : BitVec 16) : Option RawConfig :=
  raw.rawConfigList.find? fun config => config.id == id

/-- A change of the configuration of some identifier. -/
def modify (raw : MorseRaw) (id : BitVec 16) (change : RawConfig → RawConfig) : MorseRaw :=
  { raw with
    rawConfigList := raw.rawConfigList.map fun config =>
      if config.id = id then change config else config }

/-! ## Linking configurations -/

/-- `morse_raw_list_add_sorted`. -/
def listAddSorted (id : BitVec 16) : List (BitVec 16) → List (BitVec 16)
  | [] => [id]
  | other :: rest => if id < other then id :: other :: rest else other :: listAddSorted id rest

/-- `morse_raw_activate_config`. -/
def activateConfig (raw : MorseRaw) (cfg : RawConfig) : MorseRaw :=
  if raw.isConfigActive cfg.id then raw
  else
    let linked :=
      if cfg.isPeriodic then { raw with activePraws := listAddSorted cfg.id raw.activePraws }
      else { raw with activeRaws := listAddSorted cfg.id raw.activeRaws }
    if cfg.hasBcnIdx then { linked with numDynamic := linked.numDynamic + 1 }
    else { linked with numStatic := linked.numStatic + 1 }

/-- `list_del_init` of the configuration's active list member. -/
def unlink (raw : MorseRaw) (id : BitVec 16) : MorseRaw :=
  { raw with
    activeRaws := raw.activeRaws.filter (· ≠ id)
    activePraws := raw.activePraws.filter (· ≠ id) }

/-- `morse_raw_deactivate_config`, which does not ask whether it is active. -/
def deactivateConfig (raw : MorseRaw) (cfg : RawConfig) : MorseRaw :=
  let counted :=
    if cfg.hasBcnIdx then { raw with numDynamic := raw.numDynamic - 1 }
    else { raw with numStatic := raw.numStatic - 1 }
  counted.unlink cfg.id

/-- `morse_raw_delete_config`. -/
def deleteConfig (raw : MorseRaw) (cfg : RawConfig) : MorseRaw :=
  let inactive := if raw.isConfigActive cfg.id then raw.deactivateConfig cfg else raw
  { inactive with
    rawConfigList := inactive.rawConfigList.filter fun config => config.id ≠ cfg.id }

/-- Put a new configuration behind the last one of a larger identifier, if there
is one. -/
def insertAfterLarger (new : RawConfig) : List RawConfig → Option (List RawConfig)
  | [] => none
  | config :: rest =>
    match insertAfterLarger new rest with
    | some inserted => some (config :: inserted)
    | none => if new.id < config.id then some (config :: new :: rest) else none

/-- `morse_raw_create_or_find_by_id`, of an identifier that is not zero.
`memory` says whether the allocation succeeds. -/
def createOrFindById (raw : MorseRaw) (memory : Bool) (id : BitVec 16) :
    Option (RawConfig × MorseRaw) :=
  match raw.findConfigById id with
  | some config => some (config, raw)
  | none =>
    if memory then
      some (.zeroed id, { raw with
        rawConfigList := (insertAfterLarger (.zeroed id) raw.rawConfigList).getD
          (raw.rawConfigList ++ [.zeroed id]) })
    else none

end MorseRaw

/-! ## Commands -/

/-- The TLVs of a configuration, as the walk over its octets meets them. -/
inductive Tlv
  | slotDef (rawDurationUs : BitVec 32) (numSlots crossSlotBleed : BitVec 8)
  | group (aidStart aidEnd : BitVec 16)
  | startTime (startTimeUs : BitVec 32)
  | praw (periodicity validity startOffset refreshOnExpiry : BitVec 8)
  | bcnSpread (maxSpread nominalStaPerBcn : BitVec 16)
  | unrecognised
  deriving DecidableEq, Repr

/-- `morse_raw_is_config_valid`. -/
def RawConfig.isConfigValid (cfg : RawConfig) : Bool :=
  decide (cfg.slotDefinition.slotDurationUs ≠ 0) && decide (cfg.startAid ≠ 0) &&
    decide (cfg.endAid ≠ 0)

/-- `morse_raw_cmd_to_config`; `none` is a division by zero. -/
def morseRawCmdToConfig : List Tlv → RawConfig → Option (Bool × RawConfig)
  | [], cfg => some (cfg.isConfigValid, cfg)
  | .slotDef rawDurationUs numSlots crossSlotBleed :: rest, cfg =>
    if numSlots = 0 then none
    else morseRawCmdToConfig rest { cfg with
      slotDefinition :=
        { crossSlotBoundary := decide (crossSlotBleed ≠ 0)
          numSlots := numSlots.setWidth 16
          slotDurationUs := rawDurationUs / numSlots.setWidth 32 } }
  | .group aidStart aidEnd :: rest, cfg =>
    morseRawCmdToConfig rest { cfg with startAid := aidStart, endAid := aidEnd }
  | .startTime startTimeUs :: rest, cfg =>
    morseRawCmdToConfig rest { cfg with startTimeUs := startTimeUs }
  | .praw periodicity validity startOffset refreshOnExpiry :: rest, cfg =>
    morseRawCmdToConfig rest { cfg with
      periodic :=
        { refreshPraw := decide (refreshOnExpiry ≠ 0)
          validity := validity
          periodicity := periodicity
          startOffset := startOffset
          curValidity := validity
          curStartOffset := startOffset } }
  | .bcnSpread maxSpread nominalStaPerBcn :: rest, cfg =>
    morseRawCmdToConfig rest { cfg with
      beaconSpreading :=
        { maxSpread := maxSpread
          nominalStaPerBeacon := nominalStaPerBcn
          lastAid := 0 } }
  | .unrecognised :: _, cfg => some (false, cfg)

/-- What `morse_raw_process_config_group` reads of a static command or of one
group of a dynamic command, and whether an allocation would succeed. -/
structure ConfigGroup where
  id : BitVec 16
  /-- `MORSE_CMD_CFG_RAW_FLAG_ENABLE` -/
  enable : Bool
  /-- `MORSE_CMD_CFG_RAW_FLAG_DELETE` -/
  delete : Bool
  /-- `MORSE_CMD_CFG_RAW_FLAG_UPDATE` -/
  update : Bool
  beaconIdx : BitVec 16
  tlvs : List Tlv
  memory : Bool
  deriving DecidableEq, Repr

/-- The configuration for the beacon of an index. -/
def RawConfig.insertAt (config : RawConfig) (beaconIdx : BitVec 16) : RawConfig :=
  { config with insertAtIdx := beaconIdx }

/-- The configuration with its start offset as it was set. -/
def RawConfig.resetOffset (cfg : RawConfig) : RawConfig :=
  { cfg with periodic := { cfg.periodic with curStartOffset := cfg.periodic.startOffset } }

namespace MorseRaw

/-- The end of `morse_raw_process_config_group`, with the configuration as the
command left it. -/
def applyConfig (raw : MorseRaw) (config : RawConfig) (enable : Bool) : MorseRaw :=
  let stored := raw.modify config.id fun _ => config
  if enable then stored.activateConfig config else stored.deactivateConfig config

/-- The global part of `morse_raw_process_config_group`. -/
def processGlobal (raw : MorseRaw) (group : ConfigGroup) : MorseRaw :=
  let switched := { raw with enabled := group.enable }
  if group.delete then switched.rawConfigList.foldl deleteConfig switched else switched

/-- `morse_raw_process_config_group`; `none` is a division by zero. -/
def processConfigGroup (raw : MorseRaw) (group : ConfigGroup) : Option (Option Errno × MorseRaw) :=
  if rawInternalIdOffset ≤ group.id then some (some .eperm, raw)
  else if group.id = 0 then some (none, raw.processGlobal group)
  else if group.update then
    match raw.createOrFindById group.memory group.id with
    | none => some (some .enomem, raw)
    | some (config, created) =>
      match morseRawCmdToConfig group.tlvs config with
      | none => none
      | some (true, config) =>
        some (none, created.applyConfig (config.insertAt group.beaconIdx) group.enable)
      | some (false, config) =>
        some (if group.enable then some .einval else none,
          created.applyConfig (config.insertAt group.beaconIdx) false)
  else
    match raw.findConfigById group.id with
    | none => some (if group.enable then some .enoent else none, raw)
    | some config =>
      if group.delete then some (none, raw.deleteConfig config)
      else some (none, raw.applyConfig (config.insertAt group.beaconIdx) group.enable)

/-- `morse_dynamic_raw_init`. -/
def dynamicRawInit (raw : MorseRaw) : MorseRaw :=
  if 0 < raw.numDynamic then
    let reset := { raw with numBeacons := 0, currentNum := 0 }
    (reset.rawConfigList.filter RawConfig.hasBcnIdx).foldl deleteConfig reset
  else raw

/-- `morse_raw_trigger_update`; the work that it schedules may run at any time. -/
def triggerUpdate (raw : MorseRaw) (refreshAids : Bool) : MorseRaw :=
  if !raw.enabled then raw
  else if raw.aidList.isNone || refreshAids then { raw with refreshAids := true }
  else raw

/-- `morse_raw_start_praw_transmission`, for some DTIM period. -/
def startPrawTransmission (raw : MorseRaw) (dtimPeriod : BitVec 8) (newConfig : Bool) : MorseRaw :=
  let reset :=
    if newConfig then
      raw.activePraws.foldl (fun raw id => raw.modify id RawConfig.resetOffset) raw
    else raw
  { reset with prawTxCount := dtimPeriod * morseRawDtimsForPrawTx }

/-- The flag that `morse_raw_process_static_cmd` decides.  Its scan of
`active_raws` goes by the wrong list member, so that what it reads for a
configuration is `stray`, which lies behind it in memory. -/
def decideUpdateEachBeacon (raw : MorseRaw) (dtimPeriod : BitVec 8)
    (stray : BitVec 16 → BitVec 16) : MorseRaw :=
  let cleared := { raw with updateEachBeacon := false }
  if raw.activePraws ≠ [] then
    { cleared.startPrawTransmission dtimPeriod true with updateEachBeacon := true }
  else { cleared with updateEachBeacon := raw.activeRaws.any fun id => stray id ≠ 0 }

/-- `morse_raw_process_static_cmd`. -/
def processStaticCmd (raw : MorseRaw) (dtimPeriod : BitVec 8) (stray : BitVec 16 → BitVec 16)
    (group : ConfigGroup) : Option MorseRaw :=
  match raw.dynamicRawInit.processConfigGroup { group with beaconIdx := u16Max } with
  | none => none
  | some (_, raw) => some ((raw.decideUpdateEachBeacon dtimPeriod stray).triggerUpdate false)

end MorseRaw

/-- The TLVs of a dynamic command.  `nested` is one that belongs inside a
configuration group. -/
inductive DynamicTlv
  | global (numConfigs numBcnIndexes : BitVec 16)
  | config (id index : BitVec 16) (tlvs : List Tlv) (memory : Bool)
  | nested
  | unrecognised
  deriving DecidableEq, Repr

namespace MorseRaw

/-- The configuration group of a dynamic command. -/
def dynamicGroup (id index : BitVec 16) (tlvs : List Tlv) (memory : Bool) : ConfigGroup where
  id := id
  enable := true
  delete := false
  update := true
  beaconIdx := index
  tlvs := tlvs
  memory := memory

/-- How the walk of `morse_raw_process_dynamic_cmd` ends. -/
inductive Walked
  | returned (raw : MorseRaw)
  | ended (ret : Option Errno) (raw : MorseRaw)

/-- The walk of `morse_raw_process_dynamic_cmd`.  At a nested TLV it stays for
ever, which is `none`, as is a division by zero. -/
def dynamicWalk : List DynamicTlv → MorseRaw → Option Walked
  | [], raw => some (.ended none raw)
  | .global numConfigs numBcnIndexes :: rest, raw =>
    let raw := { raw with numBeacons := numBcnIndexes.setWidth 8 }
    if numConfigs = 0 then some (.returned raw) else dynamicWalk rest raw
  | .config id index tlvs memory :: rest, raw =>
    match raw.processConfigGroup (dynamicGroup id index tlvs memory) with
    | none => none
    | some (none, raw) => dynamicWalk rest raw
    | some (some error, raw) => some (.ended (some error) raw)
  | .nested :: _, _ => none
  | .unrecognised :: _, raw => some (.ended (some .einval) raw)

/-- `morse_raw_process_dynamic_cmd`. -/
def processDynamicCmd (raw : MorseRaw) (tlvs : List DynamicTlv) : Option MorseRaw :=
  if 0 < raw.numStatic then some raw
  else
    match dynamicWalk tlvs raw.dynamicRawInit with
    | none => none
    | some (.returned raw) => some raw
    | some (.ended ret raw) =>
      let decided := { raw with updateEachBeacon := decide (raw.activeRaws ≠ []) }
      let enabled :=
        if ret = none ∧ decided.enabled = false then { decided with enabled := true }
        else decided
      some (enabled.triggerUpdate false)

/-- `morse_raw_beacon_sent`. -/
def rawBeaconSent (raw : MorseRaw) : MorseRaw :=
  if raw.enabled && raw.updateEachBeacon then { raw with beaconSent := true } else raw

end MorseRaw
end Raw
end Morse
