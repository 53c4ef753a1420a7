import Morse.Raw.Work
import Morse.Lib.Threads

/-!
# The lock

Commands, the update work and the end of the interface run side by side.  Here
each of them is a program of the operations on the lock, the flags, the work item
and the configurations, in the order of the source.
-/

namespace Morse
namespace Raw

open Lib

/-- `enum raw_state_flags`. -/
inductive Flag
  | enabled
  | updateEachBeacon
  | refreshAids
  | beaconSent
  deriving DecidableEq, Repr

/-- The atomic operations. -/
inductive Op
  | testBit (flag : Flag)
  | setBit (flag : Flag)
  | clearBit (flag : Flag)
  | testAndClearBit (flag : Flag)
  /-- `morse_dynamic_raw_init` -/
  | dynamicRawInit
  /-- The part of `morse_raw_process_config_group` for one configuration. -/
  | processConfigGroup (group : ConfigGroup)
  /-- `morse_raw_delete_config` of each configuration. -/
  | deleteConfigs
  | startPrawTransmission (dtimPeriod : BitVec 8) (newConfig : Bool)
  | anyActivePraw
  | anyActiveRaw
  /-- The scan of `active_raws` by the wrong list member. -/
  | scan (stray : BitVec 16 → BitVec 16)
  | hasStaticConfig
  | setNumBeacons (numBcnIndexes : BitVec 16)
  | noAidList
  | rawRefreshAids (aids : List (BitVec 16))
  /-- The result is that all beacons with dynamic configurations were sent. -/
  | countDynamic
  | countStatic (dtimPeriod : BitVec 8)
  | anyAnnounced (includePraws : Bool)
  | generateRpsIe (includePraws : Bool)
  | freeRpsIe

namespace MorseRaw

/-- The value of a flag. -/
def flag (raw : MorseRaw) : Flag → Bool
  | .enabled => raw.enabled
  | .updateEachBeacon => raw.updateEachBeacon
  | .refreshAids => raw.refreshAids
  | .beaconSent => raw.beaconSent

/-- The state with a flag set or cleared. -/
def withFlag (raw : MorseRaw) (value : Bool) : Flag → MorseRaw
  | .enabled => { raw with enabled := value }
  | .updateEachBeacon => { raw with updateEachBeacon := value }
  | .refreshAids => { raw with refreshAids := value }
  | .beaconSent => { raw with beaconSent := value }

/-- The counting of beacons with dynamic configurations. -/
def countCurrent (raw : MorseRaw) : Bool × MorseRaw :=
  if 0 < raw.numDynamic then
    if (raw.numBeacons.toNat : Int) ≤ raw.currentNum + 1 then
      (true, { raw with currentNum := -1 })
    else (false, { raw with currentNum := raw.currentNum + 1 })
  else (false, raw)

end MorseRaw

/-- What an operation does, and its result. -/
def effect (op : Op) (raw : MorseRaw) : Option (Bool × MorseRaw) :=
  match op with
  | .testBit flag => some (raw.flag flag, raw)
  | .setBit flag => some (true, raw.withFlag true flag)
  | .clearBit flag => some (true, raw.withFlag false flag)
  | .testAndClearBit flag => some (raw.flag flag, raw.withFlag false flag)
  | .dynamicRawInit => some (true, raw.dynamicRawInit)
  | .processConfigGroup group =>
    (raw.processConfigGroup group).map fun processed => (processed.1.isNone, processed.2)
  | .deleteConfigs => some (true, raw.rawConfigList.foldl MorseRaw.deleteConfig raw)
  | .startPrawTransmission dtimPeriod newConfig =>
    some (true, raw.startPrawTransmission dtimPeriod newConfig)
  | .anyActivePraw => some (decide (raw.activePraws ≠ []), raw)
  | .anyActiveRaw => some (decide (raw.activeRaws ≠ []), raw)
  | .scan stray => some (raw.activeRaws.any fun id => stray id ≠ 0, raw)
  | .hasStaticConfig => some (decide (0 < raw.numStatic), raw)
  | .setNumBeacons numBcnIndexes =>
    some (true, { raw with numBeacons := numBcnIndexes.setWidth 8 })
  | .noAidList => some (raw.aidList.isNone, raw)
  | .rawRefreshAids aids => some (true, raw.rawRefreshAids aids)
  | .countDynamic => some raw.countCurrent
  | .countStatic dtimPeriod => some (raw.countStatic dtimPeriod)
  | .anyAnnounced includePraws => some (decide (raw.configsList includePraws ≠ []), raw)
  | .generateRpsIe includePraws =>
    (raw.generateRpsIe (raw.configsList includePraws) []).map fun raw => (true, raw)
  | .freeRpsIe => some (true, { raw with rpsIe := none })

/-! ## The programs -/

/-- An operation whose result does not matter. -/
def perform (op : Op) (next : Program Op) : Program Op := .act op fun _ => next

/-- Some operations if a condition holds. -/
def onlyIf (condition : Bool) (steps : Program Op → Program Op) (next : Program Op) :
    Program Op :=
  if condition then steps next else next

/-- `morse_raw_enable`. -/
def rawEnable (next : Program Op) : Program Op := perform (.setBit .enabled) (.schedule next)

/-- `morse_raw_disable`: `cancel_work_sync` takes the work from the queue and
waits for it. -/
def rawDisable (next : Program Op) : Program Op :=
  perform (.clearBit .enabled) (.cancel (.flush next))

/-- `morse_raw_trigger_update`. -/
def triggerUpdate (refreshAids : Bool) : Program Op :=
  .act (.testBit .enabled) fun enabled =>
    if enabled then
      .act .noAidList fun none =>
        onlyIf (none || refreshAids) (perform (.setBit .refreshAids)) (.schedule .done)
    else .done

/-- `morse_raw_process_config_group`, and whether it returns zero. -/
def processConfigGroup (group : ConfigGroup) (next : Bool → Program Op) : Program Op :=
  if rawInternalIdOffset ≤ group.id then next false
  else if group.id = 0 then
    let rest := onlyIf group.delete (perform .deleteConfigs) (next true)
    if group.enable then rawEnable rest else rawDisable rest
  else .act (.processConfigGroup group) next

/-- `morse_raw_process_static_cmd`. -/
def processStaticCmd (dtimPeriod : BitVec 8) (stray : BitVec 16 → BitVec 16)
    (group : ConfigGroup) : Program Op :=
  let ending := Program.unlock (triggerUpdate false)
  .lock <| perform .dynamicRawInit <|
    processConfigGroup { group with beaconIdx := u16Max } fun _ =>
      perform (.clearBit .updateEachBeacon) <| .act .anyActivePraw fun periodic =>
        if periodic then
          perform (.startPrawTransmission dtimPeriod true) <|
            perform (.setBit .updateEachBeacon) ending
        else
          .act (.scan stray) fun spread => onlyIf spread
            (perform (.setBit .updateEachBeacon)) ending

/-- The end of `morse_raw_process_dynamic_cmd`, and whether all went well. -/
def endDynamicCmd (valid : Bool) : Program Op :=
  let ending := Program.unlock (triggerUpdate false)
  perform (.clearBit .updateEachBeacon) <| .act .anyActiveRaw fun active =>
    onlyIf active (perform (.setBit .updateEachBeacon)) <|
      if valid then
        .act (.testBit .enabled) fun enabled => onlyIf (!enabled) rawEnable ending
      else ending

/-- The walk of `morse_raw_process_dynamic_cmd`, which never leaves a TLV that is
nested. -/
def dynamicWalk : List DynamicTlv → Program Op
  | [] => endDynamicCmd true
  | .global numConfigs numBcnIndexes :: rest =>
    perform (.setNumBeacons numBcnIndexes) <|
      if numConfigs = 0 then .unlock .done else dynamicWalk rest
  | .config id index tlvs memory :: rest =>
    processConfigGroup (MorseRaw.dynamicGroup id index tlvs memory) fun valid =>
      if valid then dynamicWalk rest else endDynamicCmd false
  | .nested :: _ => .spin
  | .unrecognised :: _ => endDynamicCmd false

/-- `morse_raw_process_dynamic_cmd`. -/
def processDynamicCmd (tlvs : List DynamicTlv) : Program Op :=
  .lock <| .act .hasStaticConfig fun configured =>
    if configured then .unlock .done else perform .dynamicRawInit (dynamicWalk tlvs)

/-- `morse_raw_beacon_sent`. -/
def rawBeaconSent : Program Op :=
  .act (.testBit .enabled) fun enabled =>
    if enabled then
      .act (.testBit .updateEachBeacon) fun each =>
        if each then perform (.setBit .beaconSent) (.schedule .done) else .done
    else .done

/-- `morse_raw_finish`. -/
def rawFinish : Program Op :=
  rawDisable <| perform .freeRpsIe <| perform .deleteConfigs .done

/-- The label `cleanup` of `morse_raw_do_update`. -/
def cleanup : Program Op := perform .freeRpsIe (.unlock .done)

/-- The generation of the element at the end of `morse_raw_do_update`. -/
def announce (includePraws : Bool) : Program Op :=
  .act (.anyAnnounced includePraws) fun announced =>
    if announced then perform (.generateRpsIe includePraws) (.unlock .done) else cleanup

/-- `morse_raw_do_update`. -/
def doUpdate (dtimPeriod : BitVec 8) (aids : List (BitVec 16)) : Program Op :=
  let beacon : Program Op := .act (.testAndClearBit .beaconSent) fun sent =>
    if sent then
      .act .countDynamic fun completed =>
        onlyIf completed (perform (.clearBit .updateEachBeacon)) <|
          .act (.countStatic dtimPeriod) announce
    else announce false
  .act (.testBit .enabled) fun enabled =>
    if enabled then
      .lock <| .act (.testAndClearBit .refreshAids) fun refresh =>
        onlyIf refresh (fun next => perform (.rawRefreshAids aids) <|
          perform (.startPrawTransmission dtimPeriod false) next) beacon
    else cleanup

/-- What a thread runs: a command, or what beacons, stations or the interface
cause. -/
inductive Entry
  | staticCmd (dtimPeriod : BitVec 8) (stray : BitVec 16 → BitVec 16) (group : ConfigGroup)
  | dynamicCmd (tlvs : List DynamicTlv)
  | beacon
  | stations
  | finish

/-- The program of a thread. -/
def Entry.program : Entry → Program Op
  | .staticCmd dtimPeriod stray group => processStaticCmd dtimPeriod stray group
  | .dynamicCmd tlvs => processDynamicCmd tlvs
  | .beacon => rawBeaconSent
  | .stations => triggerUpdate true
  | .finish => rawFinish

/-- Threads and the update work, with the DTIM period and the identifiers of the
stations that a run of it finds. -/
def system : System Op MorseRaw Entry (BitVec 8 × List (BitVec 16)) where
  effect := effect
  entry := Entry.program
  work := fun run => doUpdate run.1 run.2

/-- `morse_raw_init`, which schedules the work if RAW is enabled. -/
def World.init (enable : Bool) : World Op MorseRaw where
  shared := MorseRaw.init enable
  holder := none
  pending := enable
  cancelling := false
  programs := fun _ => .done

/-! ## Programs on their own -/

section Execution

variable (raw : MorseRaw) (next : Program Op)

@[simp] theorem execute_act (op : Op) (next : Bool → Program Op) :
    (Program.act op next).execute effect raw =
      (effect op raw).bind fun done => (next done.1).execute effect done.2 := by
  rw [Program.execute]
  cases effect op raw <;> rfl

@[simp] theorem execute_perform (op : Op) :
    (perform op next).execute effect raw =
      (effect op raw).bind fun done => next.execute effect done.2 :=
  execute_act raw op _

@[simp] theorem execute_onlyIf (condition : Bool) (steps : Program Op → Program Op) :
    (onlyIf condition steps next).execute effect raw =
      if condition then (steps next).execute effect raw else next.execute effect raw := by
  cases condition <;> rfl

@[simp] theorem execute_lock : (Program.lock next).execute effect raw = next.execute effect raw :=
  rfl

@[simp] theorem execute_unlock :
    (Program.unlock next).execute effect raw = next.execute effect raw :=
  rfl

@[simp] theorem execute_schedule :
    (Program.schedule next).execute effect raw = next.execute effect raw :=
  rfl

@[simp] theorem execute_done : (Program.done : Program Op).execute effect raw = some raw := rfl

@[simp] theorem execute_rawEnable :
    (rawEnable next).execute effect raw = next.execute effect { raw with enabled := true } :=
  rfl

@[simp] theorem execute_rawDisable :
    (rawDisable next).execute effect raw = next.execute effect { raw with enabled := false } :=
  rfl

end Execution

@[simp] theorem execute_triggerUpdate (raw : MorseRaw) (refreshAids : Bool) :
    (triggerUpdate refreshAids).execute effect raw = some (raw.triggerUpdate refreshAids) := by
  rw [triggerUpdate, execute_act, MorseRaw.triggerUpdate]
  simp only [effect, MorseRaw.flag, Option.bind_some]
  by_cases enabled : raw.enabled = true
  · rw [if_pos enabled, if_neg (by rw [enabled]; exact Bool.false_ne_true)]
    simp only [execute_act, effect, Option.bind_some, execute_onlyIf, execute_perform,
      execute_schedule, execute_done]
    split <;> rfl
  · have disabled : raw.enabled = false := eq_false_of_ne_true enabled
    rw [disabled]
    rfl

theorem execute_processConfigGroup
    (raw : MorseRaw) (group : ConfigGroup) (next : Bool → Program Op) :
    (processConfigGroup group next).execute effect raw =
      (raw.processConfigGroup group).bind fun processed =>
        (next processed.1.isNone).execute effect processed.2 := by
  rw [processConfigGroup]
  split
  · next large =>
      rw [MorseRaw.processConfigGroup, if_pos large]
      rfl
  · next small =>
      split
      · next zero =>
          rw [MorseRaw.processConfigGroup, if_neg small, if_pos zero, MorseRaw.processGlobal]
          cases enable : group.enable <;> cases delete : group.delete <;> rfl
      · rw [execute_act]
        simp only [effect]
        cases raw.processConfigGroup group <;> rfl

theorem execute_processStaticCmd
    (raw : MorseRaw) (dtimPeriod : BitVec 8) (stray : BitVec 16 → BitVec 16) (group : ConfigGroup) :
    (processStaticCmd dtimPeriod stray group).execute effect raw =
      raw.processStaticCmd dtimPeriod stray group := by
  rw [processStaticCmd, MorseRaw.processStaticCmd]
  simp only [execute_lock, execute_perform, effect, Option.bind_some, execute_processConfigGroup]
  cases raw.dynamicRawInit.processConfigGroup { group with beaconIdx := u16Max } with
  | none => rfl
  | some processed =>
    simp only [Option.bind_some, execute_act, effect, MorseRaw.decideUpdateEachBeacon]
    by_cases periodic : (processed.2.withFlag false .updateEachBeacon).activePraws ≠ []
    · have linked : processed.2.activePraws ≠ [] := periodic
      rw [if_pos (decide_eq_true periodic), if_pos linked]
      simp only [execute_perform, effect, Option.bind_some, execute_unlock,
        execute_triggerUpdate]
      rfl
    · have none : ¬ processed.2.activePraws ≠ [] := periodic
      rw [if_neg (fun some => periodic (of_decide_eq_true some)), if_neg none]
      simp only [execute_act, effect, Option.bind_some, execute_onlyIf, execute_perform,
        execute_unlock, execute_triggerUpdate]
      cases found : (processed.2.withFlag false .updateEachBeacon).activeRaws.any
          fun id => stray id ≠ 0 with
      | true =>
        have same : processed.2.activeRaws.any (fun id => stray id ≠ 0) = true := found
        rw [same]
        rfl
      | false =>
        have same : processed.2.activeRaws.any (fun id => stray id ≠ 0) = false := found
        rw [same]
        rfl

theorem execute_rawBeaconSent (raw : MorseRaw) :
    rawBeaconSent.execute effect raw = some raw.rawBeaconSent := by
  rw [rawBeaconSent, execute_act, MorseRaw.rawBeaconSent]
  simp only [effect, MorseRaw.flag, Option.bind_some]
  by_cases enabled : raw.enabled = true
  · rw [if_pos enabled, execute_act]
    simp only [effect, MorseRaw.flag, Option.bind_some]
    by_cases each : raw.updateEachBeacon = true
    · rw [if_pos each, if_pos (by rw [enabled, each]; rfl)]
      rfl
    · rw [if_neg each, if_neg (by rw [enabled]; exact each)]
      rfl
  · rw [if_neg enabled, if_neg (fun both => enabled (Bool.and_eq_true_iff.mp both).1)]
    rfl

theorem execute_endDynamicCmd (raw : MorseRaw) (ret : Option Errno) :
    (endDynamicCmd ret.isNone).execute effect raw =
      some (let decided := { raw with updateEachBeacon := decide (raw.activeRaws ≠ []) }
        let enabled :=
          if ret = none ∧ decided.enabled = false then { decided with enabled := true }
          else decided
        enabled.triggerUpdate false) := by
  have last (decided : MorseRaw) :
      (if ret.isNone then
        Program.act (.testBit .enabled) fun enabled =>
          onlyIf (!enabled) rawEnable (Program.unlock (triggerUpdate false))
      else Program.unlock (triggerUpdate false)).execute effect decided =
      some ((if ret = none ∧ decided.enabled = false then { decided with enabled := true }
        else decided).triggerUpdate false) := by
    cases ret with
    | none =>
      cases enabled : decided.enabled with
      | false =>
        rw [Option.isNone_none, if_pos rfl, if_pos (And.intro rfl rfl), execute_act]
        simp only [effect, MorseRaw.flag, enabled, Option.bind_some, execute_onlyIf,
          Bool.not_false, if_true, execute_rawEnable, execute_unlock, execute_triggerUpdate]
      | true =>
        rw [Option.isNone_none, if_pos rfl, if_neg (fun both => by cases both.2), execute_act]
        simp only [effect, MorseRaw.flag, enabled, Option.bind_some, execute_onlyIf,
          Bool.not_true, Bool.false_eq_true, if_false, execute_unlock, execute_triggerUpdate]
    | some error =>
      rw [Option.isNone_some, if_neg Bool.false_ne_true, if_neg (fun both => by cases both.1),
        execute_unlock, execute_triggerUpdate]
  rw [endDynamicCmd]
  simp only [execute_perform, execute_act, execute_onlyIf, effect, Option.bind_some]
  by_cases active : raw.activeRaws ≠ []
  · have linked : (raw.withFlag false .updateEachBeacon).activeRaws ≠ [] := active
    rw [if_pos (decide_eq_true linked), last, decide_eq_true active]
    rfl
  · have none : ¬ (raw.withFlag false .updateEachBeacon).activeRaws ≠ [] := active
    rw [if_neg (fun some => none (of_decide_eq_true some)), last, decide_eq_false active]
    rfl

theorem execute_dynamicWalk (tlvs : List DynamicTlv) (raw : MorseRaw) :
    (dynamicWalk tlvs).execute effect raw =
      (raw.dynamicWalk tlvs).bind fun walked =>
        match walked with
        | .returned raw => some raw
        | .ended ret raw => (endDynamicCmd ret.isNone).execute effect raw := by
  induction tlvs generalizing raw with
  | nil => rfl
  | cons tlv rest ih =>
    cases tlv with
    | global numConfigs numBcnIndexes =>
      rw [dynamicWalk, MorseRaw.dynamicWalk]
      split
      · rfl
      · exact ih _
    | config id index tlvs memory =>
      rw [dynamicWalk, execute_processConfigGroup, MorseRaw.dynamicWalk]
      cases raw.processConfigGroup (MorseRaw.dynamicGroup id index tlvs memory) with
      | none => rfl
      | some processed =>
        obtain ⟨ret, processed⟩ := processed
        cases ret with
        | none => exact ih processed
        | some error => rfl
    | nested => rfl
    | unrecognised => rfl

theorem execute_processDynamicCmd (raw : MorseRaw) (tlvs : List DynamicTlv) :
    (processDynamicCmd tlvs).execute effect raw = raw.processDynamicCmd tlvs := by
  rw [processDynamicCmd, execute_lock, execute_act, MorseRaw.processDynamicCmd]
  simp only [effect, Option.bind_some]
  split
  · next configured =>
      rw [if_pos (of_decide_eq_true configured)]
      rfl
  · next free =>
      rw [if_neg (fun some => free (decide_eq_true some)), execute_perform]
      simp only [effect, Option.bind_some, execute_dynamicWalk]
      cases raw.dynamicRawInit.dynamicWalk tlvs with
      | none => rfl
      | some walked =>
        cases walked with
        | returned raw => rfl
        | ended ret raw => exact execute_endDynamicCmd raw ret

theorem MorseRaw.countCurrent_withFlag (raw : MorseRaw) :
    (if raw.countCurrent.1 then raw.countCurrent.2.withFlag false .updateEachBeacon
      else raw.countCurrent.2) = raw.countDynamic := by
  rw [countCurrent, countDynamic]
  by_cases dynamic : 0 < raw.numDynamic
  · by_cases completed : (raw.numBeacons.toNat : Int) ≤ raw.currentNum + 1
    · rw [if_pos dynamic, if_pos completed, if_pos dynamic, if_pos completed]
      rfl
    · rw [if_pos dynamic, if_neg completed, if_pos dynamic, if_neg completed]
      rfl
  · rw [if_neg dynamic, if_neg dynamic]
    rfl

theorem execute_announce (raw : MorseRaw) (includePraws : Bool) :
    (announce includePraws).execute effect raw = raw.updateRpsIe includePraws := by
  rw [announce, execute_act, MorseRaw.updateRpsIe]
  simp only [effect, Option.bind_some]
  cases listed : raw.configsList includePraws with
  | nil => rfl
  | cons id rest =>
    rw [if_pos (decide_eq_true (List.cons_ne_nil id rest)), execute_perform]
    simp only [effect, listed]
    cases raw.generateRpsIe (id :: rest) [] <;> rfl

theorem execute_doUpdate (raw : MorseRaw) (dtimPeriod : BitVec 8) (aids : List (BitVec 16)) :
    (doUpdate dtimPeriod aids).execute effect raw = raw.doUpdate dtimPeriod aids := by
  have beacon (raw : MorseRaw) :
      (Program.act (.testAndClearBit .beaconSent) fun sent =>
        if sent then
          .act .countDynamic fun completed =>
            onlyIf completed (perform (.clearBit .updateEachBeacon)) <|
              .act (.countStatic dtimPeriod) announce
        else announce false).execute effect raw =
      (raw.updateBeacon dtimPeriod).2.updateRpsIe (raw.updateBeacon dtimPeriod).1 := by
    rw [execute_act, MorseRaw.updateBeacon]
    simp only [effect, MorseRaw.flag, Option.bind_some]
    by_cases sent : raw.beaconSent = true
    · rw [if_pos sent]
      simp only [effect, Option.bind_some, execute_onlyIf, execute_perform, execute_act,
        execute_announce]
      have counted := (raw.withFlag false .beaconSent).countCurrent_withFlag
      have same : raw.withFlag false .beaconSent = { raw with beaconSent := false } := rfl
      rw [← same, ← counted]
      split <;> rfl
    · have idle : raw.beaconSent = false := eq_false_of_ne_true sent
      have same : raw.withFlag false .beaconSent = raw := by
        rw [MorseRaw.withFlag, ← idle]
      rw [if_neg sent, if_neg sent, same, execute_announce]
  rw [doUpdate, execute_act, MorseRaw.doUpdate]
  simp only [effect, MorseRaw.flag, Option.bind_some]
  by_cases enabled : raw.enabled = true
  · rw [if_pos enabled, if_pos enabled]
    simp only [execute_lock, execute_act, effect, MorseRaw.flag, Option.bind_some, execute_onlyIf]
    rw [MorseRaw.updateStations]
    by_cases refresh : raw.refreshAids = true
    · rw [if_pos refresh, if_pos refresh, ← beacon]
      rfl
    · have idle : raw.refreshAids = false := eq_false_of_ne_true refresh
      have same : raw.withFlag false .refreshAids = raw := by
        rw [MorseRaw.withFlag, ← idle]
      rw [if_neg refresh, if_neg refresh, same, ← beacon]
      rfl
  · rw [if_neg enabled, if_neg enabled]
    rfl

/-- What is left of the state by a thread that is not interrupted, as the function computes it that
the thread runs. -/
def Entry.uninterrupted (raw : MorseRaw) : Entry → Option MorseRaw
  | .staticCmd dtimPeriod stray group => raw.processStaticCmd dtimPeriod stray group
  | .dynamicCmd tlvs => raw.processDynamicCmd tlvs
  | .beacon => some raw.rawBeaconSent
  | .stations => some (raw.triggerUpdate true)
  | .finish => some (raw.rawConfigList.foldl MorseRaw.deleteConfig
      { raw with enabled := false, rpsIe := none })

/-- The programs of the threads and of the update work refine the functions of the source: where
nothing comes between their operations, they leave the same state, and fail alike. -/
theorem execute_eq_uninterrupted (raw : MorseRaw) :
    (∀ entry : Entry, entry.program.execute effect raw = entry.uninterrupted raw) ∧
      ∀ run, (system.work run).execute effect raw = raw.doUpdate run.1 run.2 := by
  refine ⟨fun entry => ?_, fun run => execute_doUpdate raw run.1 run.2⟩
  cases entry with
  | staticCmd dtimPeriod stray group => exact execute_processStaticCmd raw dtimPeriod stray group
  | dynamicCmd tlvs => exact execute_processDynamicCmd raw tlvs
  | beacon => exact execute_rawBeaconSent raw
  | stations => exact execute_triggerUpdate raw true
  | finish => rfl

/-! ## The rules of the programs -/

/-- The operations on configurations and their lists, and the one that enables
RAW, are for the holder of the lock. -/
def Op.NeedsLock : Op → Prop
  | .dynamicRawInit => True
  | .processConfigGroup _ => True
  | .startPrawTransmission _ _ => True
  | .rawRefreshAids _ => True
  | .countStatic _ => True
  | .generateRpsIe _ => True
  | .setBit .enabled => True
  | _ => False

/-- The rules, under which the update work finds RAW enabled. -/
def rules (party : Party) : Rules Op where
  needsLock := Op.NeedsLock
  possible := fun op result => op = .testBit .enabled → party = .work → result = true
  closes := fun op => op = .clearBit .enabled

/-- A program that follows the rules and does not begin with the cancelling of
the work. -/
structure Sound (party : Party) (held : Bool) (program : Program Op) : Prop where
  quiet : ¬ program.Cancels
  follows : program.Follows (rules party) held

section Soundness

variable {party : Party} {held : Bool} {next : Program Op}

theorem sound_act {next : Bool → Program Op} (needs : op.NeedsLock → held = true)
    (sound : ∀ result, Sound party held (next result)) :
    Sound party held (.act op next) :=
  ⟨not_false, needs, fun result cancels => absurd cancels (sound result).quiet,
    fun result _ => (sound result).follows⟩

theorem sound_perform (needs : op.NeedsLock → held = true) (sound : Sound party held next) :
    Sound party held (perform op next) :=
  sound_act needs fun _ => sound

theorem sound_onlyIf (condition : Bool)
    (taken : Sound party held next → Sound party held (steps next))
    (sound : Sound party held next) :
    Sound party held (onlyIf condition steps next) := by
  cases condition with
  | false => exact sound
  | true => exact taken sound

theorem sound_done : Sound party false .done := ⟨not_false, rfl⟩

theorem sound_spin : Sound party held .spin := ⟨not_false, trivial⟩

theorem sound_lock (sound : Sound party true next) : Sound party false (.lock next) :=
  ⟨not_false, rfl, sound.quiet, sound.follows⟩

theorem sound_unlock (sound : Sound party false next) : Sound party true (.unlock next) :=
  ⟨not_false, rfl, sound.quiet, sound.follows⟩

theorem sound_schedule (sound : Sound party held next) : Sound party held (.schedule next) :=
  ⟨not_false, sound.quiet, sound.follows⟩

theorem sound_rawEnable (sound : Sound party true next) : Sound party true (rawEnable next) :=
  sound_perform (fun _ => rfl) (sound_schedule sound)

theorem sound_rawDisable (sound : Sound party held next) : Sound party held (rawDisable next) :=
  ⟨not_false, False.elim, fun _ _ => rfl, fun _ _ => ⟨sound.quiet, sound.follows⟩⟩

theorem sound_triggerUpdate (refreshAids : Bool) :
    Sound party false (triggerUpdate refreshAids) := by
  refine sound_act False.elim fun enabled => ?_
  cases enabled with
  | false => exact sound_done
  | true =>
    refine sound_act False.elim fun none => ?_
    exact sound_onlyIf _ (sound_perform False.elim) (sound_schedule sound_done)

theorem sound_processConfigGroup (group : ConfigGroup) {next : Bool → Program Op}
    (sound : ∀ valid, Sound party true (next valid)) :
    Sound party true (processConfigGroup group next) := by
  rw [processConfigGroup]
  split
  · exact sound false
  · split
    · have rest : Sound party true (onlyIf group.delete (perform .deleteConfigs) (next true)) :=
        sound_onlyIf group.delete (sound_perform False.elim) (sound true)
      split
      · exact sound_rawEnable rest
      · exact sound_rawDisable rest
    · exact sound_act (fun _ => rfl) sound

theorem sound_processStaticCmd
    (dtimPeriod : BitVec 8) (stray : BitVec 16 → BitVec 16) (group : ConfigGroup) :
    Sound party false (processStaticCmd dtimPeriod stray group) := by
  have ending : Sound party true (.unlock (triggerUpdate false)) :=
    sound_unlock (sound_triggerUpdate false)
  refine sound_lock (sound_perform (fun _ => rfl) (sound_processConfigGroup _ fun _ => ?_))
  refine sound_perform False.elim (sound_act False.elim fun periodic => ?_)
  cases periodic with
  | true => exact sound_perform (fun _ => rfl) (sound_perform False.elim ending)
  | false =>
    refine sound_act False.elim fun spread => ?_
    exact sound_onlyIf spread (sound_perform False.elim) ending

theorem sound_endDynamicCmd (valid : Bool) : Sound party true (endDynamicCmd valid) := by
  have ending : Sound party true (.unlock (triggerUpdate false)) :=
    sound_unlock (sound_triggerUpdate false)
  refine sound_perform False.elim (sound_act False.elim fun active => ?_)
  refine sound_onlyIf active (sound_perform False.elim) ?_
  cases valid with
  | false => exact ending
  | true =>
    refine sound_act False.elim fun enabled => ?_
    exact sound_onlyIf _ sound_rawEnable ending

theorem sound_dynamicWalk (tlvs : List DynamicTlv) : Sound party true (dynamicWalk tlvs) := by
  induction tlvs with
  | nil => exact sound_endDynamicCmd true
  | cons tlv rest ih =>
    cases tlv with
    | global numConfigs numBcnIndexes =>
      refine sound_perform False.elim ?_
      split
      · exact sound_unlock sound_done
      · exact ih
    | config id index tlvs memory =>
      refine sound_processConfigGroup _ fun valid => ?_
      cases valid with
      | true => exact ih
      | false => exact sound_endDynamicCmd false
    | nested => exact sound_spin
    | unrecognised => exact sound_endDynamicCmd false

theorem sound_processDynamicCmd (tlvs : List DynamicTlv) :
    Sound party false (processDynamicCmd tlvs) := by
  refine sound_lock (sound_act False.elim fun configured => ?_)
  cases configured with
  | true => exact sound_unlock sound_done
  | false => exact sound_perform (fun _ => rfl) (sound_dynamicWalk tlvs)

theorem sound_rawBeaconSent : Sound party false rawBeaconSent := by
  refine sound_act False.elim fun enabled => ?_
  cases enabled with
  | false => exact sound_done
  | true =>
    refine sound_act False.elim fun each => ?_
    cases each with
    | false => exact sound_done
    | true => exact sound_perform False.elim (sound_schedule sound_done)

theorem sound_rawFinish : Sound party false rawFinish := by
  refine ⟨not_false, False.elim, fun _ _ => rfl, fun _ _ => ?_⟩
  exact ⟨not_false, (sound_perform False.elim (sound_perform False.elim sound_done)).follows⟩

theorem sound_program (entry : Entry) : Sound party false entry.program := by
  cases entry with
  | staticCmd dtimPeriod stray group => exact sound_processStaticCmd dtimPeriod stray group
  | dynamicCmd tlvs => exact sound_processDynamicCmd tlvs
  | beacon => exact sound_rawBeaconSent
  | stations => exact sound_triggerUpdate true
  | finish => exact sound_rawFinish

theorem sound_cleanup : Sound party true cleanup :=
  sound_perform False.elim (sound_unlock sound_done)

theorem sound_announce (includePraws : Bool) : Sound party true (announce includePraws) := by
  refine sound_act False.elim fun announced => ?_
  cases announced with
  | true => exact sound_perform (fun _ => rfl) (sound_unlock sound_done)
  | false => exact sound_cleanup

theorem follows_doUpdate (dtimPeriod : BitVec 8) (aids : List (BitVec 16)) :
    (doUpdate dtimPeriod aids).Follows (rules .work) false := by
  have beacon : Sound .work true (.act (.testAndClearBit .beaconSent) fun sent =>
      if sent then
        .act .countDynamic fun completed =>
          onlyIf completed (perform (.clearBit .updateEachBeacon)) <|
            .act (.countStatic dtimPeriod) announce
      else announce false) := by
    refine sound_act False.elim fun sent => ?_
    cases sent with
    | false => exact sound_announce false
    | true =>
      refine sound_act False.elim fun completed => ?_
      exact sound_onlyIf completed (sound_perform False.elim)
        (sound_act (fun _ => rfl) sound_announce)
  refine ⟨False.elim, fun result cancels => ?_, fun result possible => ?_⟩
  · cases result <;> cases cancels
  · rw [possible rfl rfl]
    refine (sound_lock (sound_act False.elim fun refresh => ?_)).follows
    refine sound_onlyIf refresh (fun sound => ?_) beacon
    exact sound_perform (fun _ => rfl) (sound_perform (fun _ => rfl) sound)

end Soundness

/-! ## Runs -/

/-- The configurations and their lists. -/
def configurations (raw : MorseRaw) : List RawConfig × List (BitVec 16) × List (BitVec 16) :=
  (raw.rawConfigList, raw.activeRaws, raw.activePraws)

/-- The discipline of the lock: who releases it holds it, who changes the
configurations or their lists holds it, and who waits for the update work does
not hold the lock that the work waits for. -/
structure LockDiscipline
    (guard : World Op MorseRaw → Move Entry (BitVec 8 × List (BitVec 16)) → Prop)
    (world : World Op MorseRaw) : Prop where
  released : ∀ party next, world.programs party = .unlock next → world.holder = some party
  changed : ∀ move after, guard world move → system.step world move = some after →
    configurations after.shared ≠ configurations world.shared →
      ∃ party, move = .proceed party ∧ world.holder = some party
  awaited : ∀ party next waiting, world.programs party = .flush next →
    world.holder = some party → world.programs .work ≠ .lock waiting

/-- The condition of a move: the update work looks at the enable bit only while
it is set; a command clears the bit only while the update work does not run; and
who deletes all configurations without the lock finds none. -/
def Calm (world : World Op MorseRaw) : Move Entry (BitVec 8 × List (BitVec 16)) → Prop
  | .proceed party =>
    match world.programs party with
    | .act (.testBit .enabled) _ => party = .work → world.shared.enabled = true
    | .act (.clearBit .enabled) _ => world.holder = some party → world.programs .work = .done
    | .act .deleteConfigs _ => world.holder ≠ some party → world.shared.rawConfigList = []
    | _ => True
  | _ => True

/-- A party that cancels the work and holds the lock has disabled RAW, and the
work does not run or is still to look at the enable bit. -/
def Closing (world : World Op MorseRaw) : Prop :=
  ∀ party, (world.programs party).Cancels → world.holder = some party →
    world.shared.enabled = false ∧
      (world.programs .work = .done ∨
        ∃ dtimPeriod aids, world.programs .work = doUpdate dtimPeriod aids)

theorem effect_of_free {raw : MorseRaw} (free : ¬ op.NeedsLock)
    (others : op = .deleteConfigs → raw.rawConfigList = [])
    (done : effect op raw = some (result, after)) :
    configurations after = configurations raw ∧ (raw.enabled = false → after.enabled = false) := by
  cases op with
  | testBit => cases done; exact ⟨rfl, id⟩
  | setBit flag =>
    cases flag with
    | enabled => exact absurd trivial free
    | updateEachBeacon => cases done; exact ⟨rfl, id⟩
    | refreshAids => cases done; exact ⟨rfl, id⟩
    | beaconSent => cases done; exact ⟨rfl, id⟩
  | clearBit flag =>
    cases flag with
    | enabled => cases done; exact ⟨rfl, fun _ => rfl⟩
    | updateEachBeacon => cases done; exact ⟨rfl, id⟩
    | refreshAids => cases done; exact ⟨rfl, id⟩
    | beaconSent => cases done; exact ⟨rfl, id⟩
  | testAndClearBit flag =>
    cases flag with
    | enabled => cases done; exact ⟨rfl, fun _ => rfl⟩
    | updateEachBeacon => cases done; exact ⟨rfl, id⟩
    | refreshAids => cases done; exact ⟨rfl, id⟩
    | beaconSent => cases done; exact ⟨rfl, id⟩
  | dynamicRawInit => exact absurd trivial free
  | processConfigGroup => exact absurd trivial free
  | deleteConfigs =>
    rw [effect, others rfl] at done
    cases done
    exact ⟨rfl, id⟩
  | startPrawTransmission => exact absurd trivial free
  | anyActivePraw => cases done; exact ⟨rfl, id⟩
  | anyActiveRaw => cases done; exact ⟨rfl, id⟩
  | scan => cases done; exact ⟨rfl, id⟩
  | hasStaticConfig => cases done; exact ⟨rfl, id⟩
  | setNumBeacons => cases done; exact ⟨rfl, id⟩
  | noAidList => cases done; exact ⟨rfl, id⟩
  | rawRefreshAids => exact absurd trivial free
  | countDynamic =>
    rw [effect, MorseRaw.countCurrent] at done
    split at done
    · split at done <;> cases done <;> exact ⟨rfl, id⟩
    · cases done
      exact ⟨rfl, id⟩
  | countStatic => exact absurd trivial free
  | anyAnnounced => cases done; exact ⟨rfl, id⟩
  | generateRpsIe => exact absurd trivial free
  | freeRpsIe => cases done; exact ⟨rfl, id⟩

section Steps

variable {world after : World Op MorseRaw}

theorem effect_of_not_holder (follows : world.Follows rules) (calm : Calm world (.proceed party))
    (program : world.programs party = .act op next) (apart : world.holder ≠ some party)
    (done : effect op world.shared = some (result, shared)) :
    configurations shared = configurations world.shared ∧
      (world.shared.enabled = false → shared.enabled = false) := by
  refine effect_of_free (fun needs => apart (follows.holder_of_act program needs)) ?_ done
  rintro rfl
  simp only [Calm, program] at calm
  exact calm apart

theorem possible_of_calm (calm : Calm world (.proceed party))
    (program : world.programs party = .act op next)
    (done : effect op world.shared = some (result, shared)) :
    (rules party).possible op result := by
  rintro rfl work
  simp only [Calm, program] at calm
  cases done
  exact calm work

variable {move : Move Entry (BitVec 8 × List (BitVec 16))}

theorem follows_of_calm (follows : world.Follows rules) (calm : Calm world move)
    (taken : system.step world move = some after) :
    after.Follows rules := by
  refine System.follows_step (fun index entry => (sound_program entry).follows)
    (fun run => follows_doUpdate run.1 run.2) ?_ follows taken
  rintro party op next result shared rfl program done
  exact possible_of_calm calm program done

theorem enabled_of_work (calm : Calm world (.proceed .work))
    (taken : system.step world (.proceed .work) = some after)
    (waits : world.programs .work = .done ∨
      ∃ dtimPeriod aids, world.programs .work = doUpdate dtimPeriod aids) :
    world.shared.enabled = true := by
  rcases waits with idle | ⟨dtimPeriod, aids, start⟩
  · simp only [System.step, System.proceed, idle] at taken
    cases taken
  · simp only [Calm, start, doUpdate] at calm
    exact calm trivial

theorem Closing.proceed (closing : Closing world) (calm : Calm world (.proceed party))
    (taken : system.step world (.proceed party) = some after)
    (programs : after.programs = (world.goto party program).programs)
    (holder : ∀ other, other ≠ party → after.holder = some other → world.holder = some other)
    (disabled : world.holder ≠ some party → world.shared.enabled = false →
      after.shared.enabled = false)
    (own : program.Cancels → after.holder = some party → after.shared.enabled = false ∧
      party ≠ .work ∧ (world.programs .work = .done ∨
        ∃ dtimPeriod aids, world.programs .work = doUpdate dtimPeriod aids)) :
    Closing after := by
  intro other cancels holds
  rw [programs] at cancels ⊢
  by_cases same : other = party
  · rw [same, World.goto_self] at cancels
    obtain ⟨off, thread, waits⟩ := own cancels (same ▸ holds)
    rw [World.goto_other _ _ thread.symm]
    exact ⟨off, waits⟩
  · rw [World.goto_other _ _ same] at cancels
    have held := holder other same holds
    obtain ⟨off, waits⟩ := closing other cancels held
    have thread : Party.work ≠ party := by
      rintro rfl
      rw [enabled_of_work calm taken waits] at off
      cases off
    rw [World.goto_other _ _ thread]
    refine ⟨disabled (fun own => same ?_) off, waits⟩
    exact Option.some.inj (held.symm.trans own)

theorem closing_of_calm (follows : world.Follows rules) (closing : Closing world)
    (calm : Calm world move) (taken : system.step world move = some after) :
    Closing after := by
  cases move with
  | enter index entry =>
    rw [System.step] at taken
    split at taken
    · cases taken
      intro party cancels holds
      by_cases same : party = .thread index
      · rw [same, World.goto_self] at cancels
        exact absurd cancels (sound_program entry : Sound .work false _).quiet
      · rw [World.goto_other _ _ same] at cancels
        exact closing party cancels holds
    · cases taken
  | dispatch run =>
    rw [System.step] at taken
    split at taken
    · split at taken
      · cases taken
        intro party cancels holds
        by_cases same : party = .work
        · rw [same] at cancels
          cases cancels
        · rw [World.goto_other _ _ same] at cancels
          exact ⟨(closing party cancels holds).1, .inr ⟨run.1, run.2, rfl⟩⟩
      · cases taken
    · cases taken
  | proceed party =>
    have current := follows party
    have stepped := taken
    rw [System.step, System.proceed] at taken
    split at taken
    · cases taken
    · cases taken
    · next op next program =>
        split at taken
        · cases taken
        · next result shared done =>
            cases taken
            refine closing.proceed calm stepped rfl (fun _ _ held => held) ?_ ?_
            · exact fun apart =>
                (effect_of_not_holder follows calm program apart done).2
            · intro cancels holds
              rw [program] at current
              cases (current.2.1 result cancels : op = .clearBit .enabled)
              cases done
              simp only [Calm, program] at calm
              have idle := calm holds
              refine ⟨rfl, ?_, .inl idle⟩
              rintro rfl
              rw [program] at idle
              cases idle
    · next next program =>
        rw [program] at current
        split at taken
        · cases taken
          refine closing.proceed calm stepped rfl (fun other apart held => ?_)
            (fun _ off => off) fun cancels => absurd cancels current.2.1
          exact absurd (Option.some.inj held).symm apart
        · cases taken
    · next next program =>
        rw [program] at current
        cases taken
        exact closing.proceed calm stepped rfl (fun _ _ => by rintro ⟨⟩) (fun _ off => off)
          fun cancels => absurd cancels current.2.1
    · next next program =>
        rw [program] at current
        cases taken
        exact closing.proceed calm stepped rfl (fun _ _ held => held) (fun _ off => off)
          fun cancels => absurd cancels current.1
    · next next program =>
        split at taken
        · cases taken
        · cases taken
          refine closing.proceed calm stepped rfl (fun _ _ held => held) (fun _ off => off) ?_
          intro _ holds
          have cancels : (world.programs party).Cancels := program ▸ trivial
          obtain ⟨off, waits⟩ := closing party cancels holds
          refine ⟨off, ?_, waits⟩
          rintro rfl
          rw [enabled_of_work calm stepped waits] at off
          cases off
    · next next program =>
        rw [program] at current
        split at taken
        · cases taken
          exact closing.proceed calm stepped rfl (fun _ _ held => held) (fun _ off => off)
            fun cancels => absurd cancels current.1
        · cases taken

end Steps

theorem holder_of_changed (follows : world.Follows rules) (calm : Calm world move)
    (taken : system.step world move = some after)
    (differs : configurations after.shared ≠ configurations world.shared) :
    ∃ party, move = .proceed party ∧ world.holder = some party := by
  cases move with
  | enter index entry =>
    rw [System.step] at taken
    split at taken <;> cases taken
    exact absurd rfl differs
  | dispatch run =>
    rw [System.step] at taken
    split at taken
    · split at taken <;> cases taken
      exact absurd rfl differs
    · cases taken
  | proceed party =>
    refine ⟨party, rfl, ?_⟩
    by_contra apart
    rw [System.step, System.proceed] at taken
    split at taken
    · cases taken
    · cases taken
    · next op next program =>
        split at taken
        · cases taken
        · next result shared done =>
            cases taken
            exact differs (effect_of_not_holder follows calm program apart done).1
    · split at taken <;> cases taken
      exact differs rfl
    · cases taken
      exact differs rfl
    · cases taken
      exact differs rfl
    · split at taken <;> cases taken
      exact differs rfl
    · split at taken <;> cases taken
      exact differs rfl

/-- In every run whose moves meet their condition, the discipline of the lock is
kept. -/
theorem lockDiscipline_of_reaches {enable : Bool} {world : World Op MorseRaw}
    (reaches : Reaches system.step Calm (World.init enable) world) :
    LockDiscipline Calm world := by
  have kept : world.Follows rules ∧ Closing world := by
    refine @Reaches.invariant _ _ system.step Calm (World.init enable) world
      (fun world => world.Follows rules ∧ Closing world) ?_ ?_ reaches
    · exact ⟨fun _ => rfl, fun _ cancels => cancels.elim⟩
    · intro before move after holds calm taken
      exact ⟨follows_of_calm holds.1 calm taken, closing_of_calm holds.1 holds.2 calm taken⟩
  obtain ⟨follows, closing⟩ := kept
  refine ⟨fun party next => follows.holder_of_unlock,
    fun move after => holder_of_changed follows, ?_⟩
  · intro party next waiting program holds work
    have cancels : (world.programs party).Cancels := program ▸ trivial
    rcases (closing party cancels holds).2 with idle | ⟨dtimPeriod, aids, start⟩
    · rw [work] at idle
      cases idle
    · rw [work] at start
      cases start

/-- A command that disables RAW. -/
def globalDisable : ConfigGroup where
  id := 0
  enable := false
  delete := false
  update := false
  beaconIdx := u16Max
  tlvs := []
  memory := true

/-- A command that enables configuration 1 for the first ten identifiers. -/
def enableFirstTen : ConfigGroup where
  id := 1
  enable := true
  delete := false
  update := true
  beaconIdx := u16Max
  tlvs := [.slotDef 4000 2 0, .group 1 10]
  memory := true

/-- The world after some moves. -/
def worldAfter (moves : List (Move Entry (BitVec 8 × List (BitVec 16)))) : World Op MorseRaw :=
  (run system.step (World.init true) moves).getD (World.init true)

/-- The update work runs up to where it takes the lock. -/
def workTakesLock : List (Move Entry (BitVec 8 × List (BitVec 16))) :=
  [.dispatch (1, []), .proceed .work, .proceed .work]

theorem lockDiscipline_of_reaches_workTakesLock :
    LockDiscipline Calm (worldAfter workTakesLock) := by
  have reaches : Reaches system.step Calm (World.init true) (worldAfter workTakesLock) := by
    refine Reaches.of_run workTakesLock ?_ rfl
    exact ⟨trivial, fun _ => rfl, trivial, trivial⟩
  exact lockDiscipline_of_reaches reaches

/-- The update work finds RAW disabled by a command that holds the lock. -/
def workFindsDisabled : List (Move Entry (BitVec 8 × List (BitVec 16))) :=
  [.enter 0 (.staticCmd 1 (fun _ => 0) globalDisable), .proceed (.thread 0),
    .proceed (.thread 0), .proceed (.thread 0), .dispatch (1, []), .proceed .work, .proceed .work]

/-- A command cancels the update work, which waits for the command's lock. -/
def commandAwaitsWork : List (Move Entry (BitVec 8 × List (BitVec 16))) :=
  [.dispatch (1, []), .proceed .work, .enter 0 (.staticCmd 1 (fun _ => 0) globalDisable),
    .proceed (.thread 0), .proceed (.thread 0), .proceed (.thread 0), .proceed (.thread 0)]

/-- The interface ends with a configuration stored. -/
def finishWithConfig : List (Move Entry (BitVec 8 × List (BitVec 16))) :=
  [.enter 0 (.staticCmd 1 (fun _ => 0) enableFirstTen), .proceed (.thread 0),
    .proceed (.thread 0), .proceed (.thread 0), .enter 1 .finish, .proceed (.thread 1),
    .proceed (.thread 1), .proceed (.thread 1), .proceed (.thread 1)]

theorem not_lockDiscipline :
    (∃ world, Reaches system.step (fun _ _ => True) (World.init true) world ∧
      ∃ party next, world.programs party = .unlock next ∧ world.holder ≠ some party) ∧
    (∃ world, Reaches system.step (fun _ _ => True) (World.init true) world ∧
      ∃ party after, system.step world (.proceed party) = some after ∧
        configurations after.shared ≠ configurations world.shared ∧
        world.holder ≠ some party) ∧
    (∃ world, Reaches system.step (fun _ _ => True) (World.init true) world ∧
      ∃ party next waiting, world.programs party = .flush next ∧ world.holder = some party ∧
        world.programs .work = .lock waiting) := by
  refine ⟨⟨worldAfter workFindsDisabled, ?_, .work, .done, rfl, by decide⟩,
    ⟨worldAfter finishWithConfig, ?_, .thread 1, _, rfl, by decide, by decide⟩,
    ⟨worldAfter commandAwaitsWork, ?_, .thread 0, _, _, rfl, rfl, rfl⟩⟩
  · exact Reaches.of_run workFindsDisabled (guarded_true _ _) rfl
  · exact Reaches.of_run finishWithConfig (guarded_true _ _) rfl
  · exact Reaches.of_run commandAwaitsWork (guarded_true _ _) rfl

end Raw
end Morse
