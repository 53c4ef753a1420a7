import Morse.Raw.Defs

/-!
# The update work

After a command, a beacon or a change of the stations, a work item brings the
state up to date and generates the element again.  Where a configuration spreads
its stations over beacons, its assignment names the next few of them.
-/

namespace Morse
namespace Raw

/-! ## Station indexes -/

/-- The loop of `raw_bsearch_aid_indexes`: the index it found, or the last one
it looked at. -/
def bsearchLoop (aids : List (BitVec 16)) (aid : BitVec 16) :
    Nat → Int → Int → Int → Bool × Int
  | 0, _, _, midIdx => (false, midIdx)
  | fuel + 1, startIdx, endIdx, midIdx =>
    if startIdx ≤ endIdx then
      let midIdx := startIdx + (endIdx - startIdx) / 2
      let other := aids.getD midIdx.toNat 0
      if other = aid then (true, midIdx)
      else if aid < other then bsearchLoop aids aid fuel startIdx (midIdx - 1) midIdx
      else bsearchLoop aids aid fuel (midIdx + 1) endIdx midIdx
    else (false, midIdx)

/-- `raw_bsearch_aid_indexes`.  Every turn of the loop shortens the range. -/
def bsearchAidIndexes (aids : List (BitVec 16)) (aid : BitVec 16) : Int :=
  if aids.length = 1 then 0
  else
    match bsearchLoop aids aid aids.length 0 (aids.length - 1) 0 with
    | (true, midIdx) => midIdx
    | (false, midIdx) =>
      if aid < aids.getD midIdx.toNat 0 then max (midIdx - 1) 0 else midIdx

/-- `raw_update_aid_indexes`. -/
def updateAidIndexes (cfg : RawConfig) (aids : List (BitVec 16)) : RawConfig :=
  if aids = [] then cfg
  else
    let startAidIdx := bsearchAidIndexes aids cfg.startAid
    if aids.getD startAidIdx.toNat 0 < cfg.startAid then
      { cfg with startAidIdx := invalidAidIdxValue, endAidIdx := invalidAidIdxValue }
    else
      { cfg with
        startAidIdx := startAidIdx
        endAidIdx := bsearchAidIndexes aids cfg.endAid }

/-- What `morse_raw_refresh_aids` does to an active configuration. -/
def RawConfig.refreshIndexes (aids : List (BitVec 16)) (config : RawConfig) : RawConfig :=
  if config.beaconSpreading.nominalStaPerBeacon ≠ 0 then
    updateAidIndexes { config with
      startAidIdx := invalidAidIdxValue
      endAidIdx := invalidAidIdxValue } aids
  else config

/-! ## Assignments -/

/-- `sta_per_beacon` and `sta_per_beacon_mod`; `none` is a division by zero. -/
def staPerBeacon (spreading : BeaconSpreading) (numStas : Nat) : Option (Nat × Nat) :=
  let nominal := spreading.nominalStaPerBeacon.toNat
  let maxSpread := spreading.maxSpread.toNat
  if maxSpread ≠ 0 ∧ maxSpread < numStas / nominal then
    some (numStas / maxSpread, numStas % maxSpread)
  else
    let beaconCount := numStas / nominal + if numStas % nominal ≠ 0 then 1 else 0
    if beaconCount = 0 then none else some (numStas / beaconCount, numStas % beaconCount)

/-- `current_beacon_start_aid_idx`: the first station of the range after the last
one served, or else the first of the range. -/
def currentStartIdx (aids : List (BitVec 16)) (lastAid : BitVec 16) (startIdx endIdx : Nat) :
    Nat :=
  ((List.range' startIdx (min (endIdx + 1) aids.length - startIdx)).find? fun idx =>
    lastAid < aids.getD idx 0).getD startIdx

/-- `current_beacon_end_aid_idx`: the last index that the loop comes to, or the
start if it comes to none. -/
def currentEndIdx (numAids currentStart staPerBeacon endIdx : Nat) : Nat :=
  max currentStart (min (min (endIdx + 1) (currentStart + staPerBeacon)) numAids - 1)

/-- `morse_raw_generate_assignment`; `none` is a division by zero. -/
def generateAssignment (aids : List (BitVec 16)) (config : RawConfig) :
    Option (RawConfig × Assignment) :=
  let spreading := config.beaconSpreading
  if spreading.nominalStaPerBeacon ≠ 0 ∧ 0 ≤ config.startAidIdx ∧ 0 ≤ config.endAidIdx then
    let startIdx := config.startAidIdx.toNat
    let endIdx := config.endAidIdx.toNat
    let numStas := (BitVec.ofInt 16 (config.endAidIdx - config.startAidIdx + 1)).toNat
    match staPerBeacon spreading numStas with
    | none => none
    | some (perBeacon, perBeaconMod) =>
      let currentStart := currentStartIdx aids spreading.lastAid startIdx endIdx
      let perBeacon :=
        if (currentStart - startIdx) / perBeacon < perBeaconMod then perBeacon + 1
        else perBeacon
      let currentEnd := currentEndIdx aids.length currentStart perBeacon endIdx
      let endAid := aids.getD currentEnd 0
      some ({ config with beaconSpreading := { spreading with lastAid := endAid } },
        ⟨config.id, aids.getD currentStart 0, endAid⟩)
  else
    some ({ config with beaconSpreading := { spreading with lastAid := config.endAid } },
      ⟨config.id, config.startAid, config.endAid⟩)

/-- The counters of a periodic window as they were set. -/
def Periodic.reset (periodic : Periodic) : Periodic :=
  { periodic with
    curValidity := periodic.validity
    curStartOffset := periodic.startOffset }

namespace MorseRaw

/-- `morse_raw_generate_rps_ie`: the assignments of some configurations in order,
and the configurations with the stations served last. -/
def generateRpsIe : List (BitVec 16) → List Assignment → MorseRaw → Option MorseRaw
  | [], assignments, raw => some { raw with rpsIe := some assignments.reverse }
  | id :: rest, assignments, raw =>
    match raw.findConfigById id with
    | none => generateRpsIe rest assignments raw
    | some config =>
      match generateAssignment (raw.aidList.getD []) config with
      | none => none
      | some (config, assignment) =>
        generateRpsIe rest (assignment :: assignments) (raw.modify id fun _ => config)

/-! ## Bringing the state up to date -/

/-- `morse_raw_refresh_aids`, with the list of the stations' identifiers. -/
def rawRefreshAids (raw : MorseRaw) (aids : List (BitVec 16)) : MorseRaw :=
  raw.activeRaws.foldl (fun raw id => raw.modify id (RawConfig.refreshIndexes aids))
    { raw with aidList := some aids }

/-- The counters of a periodic window after a beacon. -/
def countBeacon (periodic : Periodic) : Periodic :=
  let offset :=
    if periodic.curStartOffset = 0 then periodic.periodicity - 1
    else periodic.curStartOffset - 1
  { periodic with
    curStartOffset := offset
    curValidity :=
      if offset = periodic.startOffset then periodic.curValidity - 1 else periodic.curValidity }

/-- One turn of `morse_raw_update_praw_after_bcn`, and whether it is to kick the
transmission. -/
def updatePraw (kickTx : Bool) (raw : MorseRaw) (config : RawConfig) : Bool × MorseRaw :=
  let counted := countBeacon config.periodic
  if counted.curValidity = 0 then
    let raw := raw.modify config.id fun config => { config with periodic := counted.reset }
    if counted.refreshPraw then (true, raw)
    else (kickTx, raw.deactivateConfig { config with periodic := counted.reset })
  else (kickTx, raw.modify config.id fun config => { config with periodic := counted })

/-- The walk of `morse_raw_update_praw_after_bcn`. -/
def updatePrawWalk : List (BitVec 16) → Bool → MorseRaw → Bool × MorseRaw
  | [], kickTx, raw => (kickTx, raw)
  | id :: rest, kickTx, raw =>
    match raw.findConfigById id with
    | none => updatePrawWalk rest kickTx raw
    | some config =>
      let updated := updatePraw kickTx raw config
      updatePrawWalk rest updated.1 updated.2

/-- `morse_raw_update_praw_after_bcn`. -/
def updatePrawAfterBcn (raw : MorseRaw) (dtimPeriod : BitVec 8) : MorseRaw :=
  match updatePrawWalk raw.activePraws false raw with
  | (true, raw) => raw.startPrawTransmission dtimPeriod false
  | (false, raw) => raw

/-- The part of `morse_raw_do_update` for new stations. -/
def updateStations (raw : MorseRaw) (dtimPeriod : BitVec 8) (aids : List (BitVec 16)) :
    MorseRaw :=
  if raw.refreshAids then
    ({ raw with refreshAids := false }.rawRefreshAids aids).startPrawTransmission dtimPeriod false
  else raw

/-- The part of `morse_raw_do_update` for dynamic configurations after a beacon. -/
def countDynamic (raw : MorseRaw) : MorseRaw :=
  if 0 < raw.numDynamic then
    if (raw.numBeacons.toNat : Int) ≤ raw.currentNum + 1 then
      { raw with currentNum := -1, updateEachBeacon := false }
    else { raw with currentNum := raw.currentNum + 1 }
  else raw

/-- The part of `morse_raw_do_update` for static configurations after a beacon,
and whether periodic windows are announced still. -/
def countStatic (raw : MorseRaw) (dtimPeriod : BitVec 8) : Bool × MorseRaw :=
  if 0 < raw.numStatic then
    let updated := raw.updatePrawAfterBcn dtimPeriod
    if updated.prawTxCount ≠ 0 then
      (true, { updated with prawTxCount := updated.prawTxCount - 1 })
    else (false, updated)
  else (false, raw)

/-- The part of `morse_raw_do_update` after a beacon. -/
def updateBeacon (raw : MorseRaw) (dtimPeriod : BitVec 8) : Bool × MorseRaw :=
  if raw.beaconSent then
    { raw with beaconSent := false }.countDynamic.countStatic dtimPeriod
  else (false, raw)

/-- Whether a configuration of `active_raws` is announced with the next beacon. -/
def isAnnounced (raw : MorseRaw) (id : BitVec 16) : Bool :=
  match raw.findConfigById id with
  | none => false
  | some config =>
    (decide (0 < raw.numDynamic) &&
      decide ((config.insertAtIdx.toNat : Int) = raw.currentNum)) ||
    (decide (0 < raw.numStatic) && !config.hasBcnIdx)

/-- `configs_list`. -/
def configsList (raw : MorseRaw) (includePraws : Bool) : List (BitVec 16) :=
  let raws := (raw.activeRaws.reverse.filter raw.isAnnounced).take maxNumRaws
  if includePraws || decide (raw.activeRaws ≠ []) then
    raws ++ raw.activePraws.reverse.take (maxNumRaws - raws.length)
  else raws

/-- The generation of the element at the end of `morse_raw_do_update`. -/
def updateRpsIe (raw : MorseRaw) (includePraws : Bool) : Option MorseRaw :=
  match raw.configsList includePraws with
  | [] => some { raw with rpsIe := none }
  | configs => raw.generateRpsIe configs []

/-- `morse_raw_do_update`. -/
def doUpdate (raw : MorseRaw) (dtimPeriod : BitVec 8) (aids : List (BitVec 16)) :
    Option MorseRaw :=
  if raw.enabled then
    let counted := (raw.updateStations dtimPeriod aids).updateBeacon dtimPeriod
    counted.2.updateRpsIe counted.1
  else some { raw with rpsIe := none }

/-! ## Runs -/

/-- What happens to the state: commands, with the DTIM period of the interface
and what lies behind the configurations, beacons, changes of the stations, and
runs of the update work, with the identifiers of the stations. -/
inductive Action
  | staticCmd (dtimPeriod : BitVec 8) (stray : BitVec 16 → BitVec 16) (group : ConfigGroup)
  | dynamicCmd (tlvs : List DynamicTlv)
  | beacon
  | stations
  | update (dtimPeriod : BitVec 8) (aids : List (BitVec 16))

/-- One action; it is refused if the code does not come to its end. -/
def step (raw : MorseRaw) : Action → Option MorseRaw
  | .staticCmd dtimPeriod stray group => raw.processStaticCmd dtimPeriod stray group
  | .dynamicCmd tlvs => raw.processDynamicCmd tlvs
  | .beacon => some raw.rawBeaconSent
  | .stations => some (raw.triggerUpdate true)
  | .update dtimPeriod aids => raw.doUpdate dtimPeriod aids

end MorseRaw
end Raw
end Morse
