import Morse.Raw.Sparing

/-!
# The cycle of a dynamic command

A dynamic command announces a number of beacons and the configurations for each
of them.  The update after the command puts the element for the first beacon in
force, and the update after every beacon the one for the next.
-/

namespace Morse
namespace Raw

open Lib

/-! ## What a command says -/

/-- Note the beacon index of a configuration. -/
def DynamicTlv.noteIndex (indexes : BitVec 16 → Option (BitVec 16)) :
    DynamicTlv → BitVec 16 → Option (BitVec 16)
  | .config id index _ _, other => if other = id then some index else indexes other
  | _, other => indexes other

/-- The beacon index that a dynamic command gives last to each identifier. -/
def commandIndexes (tlvs : List DynamicTlv) : BitVec 16 → Option (BitVec 16) :=
  tlvs.foldl DynamicTlv.noteIndex fun _ => none

/-- Note the number of beacons. -/
def DynamicTlv.noteBeacons (numBcnIndexes : Option (BitVec 16)) :
    DynamicTlv → Option (BitVec 16)
  | .global _ announced => some announced
  | _ => numBcnIndexes

/-- The number of beacons that a dynamic command announces last. -/
def commandBeacons (tlvs : List DynamicTlv) : Option (BitVec 16) :=
  tlvs.foldl DynamicTlv.noteBeacons none

/-- A dynamic command that was followed by a number of beacons. -/
structure BeaconCycle where
  indexes : BitVec 16 → Option (BitVec 16)
  numBcnIndexes : BitVec 16
  beacons : Nat

/-- The cycle after another beacon. -/
def BeaconCycle.next (cycle : BeaconCycle) : BeaconCycle :=
  { cycle with beacons := cycle.beacons + 1 }

/-- The state with the command that was processed last, if there was one. -/
structure CycleState where
  raw : MorseRaw
  cycle : Option BeaconCycle

/-- What happens, each time with a run of the update work after it. -/
inductive CycleAction
  | command (tlvs : List DynamicTlv) (dtimPeriod : BitVec 8) (aids : List (BitVec 16))
  | beacon (dtimPeriod : BitVec 8) (aids : List (BitVec 16))
  | stations (dtimPeriod : BitVec 8) (aids : List (BitVec 16))

/-- One action and the update after it. -/
def CycleState.step (state : CycleState) : CycleAction → Option CycleState
  | .command tlvs dtimPeriod aids =>
    (state.raw.processDynamicCmd tlvs).bind fun commanded =>
      (commanded.doUpdate dtimPeriod aids).map fun updated =>
        ⟨updated, some ⟨commandIndexes tlvs, (commandBeacons tlvs).getD 0, 0⟩⟩
  | .beacon dtimPeriod aids =>
    (state.raw.rawBeaconSent.doUpdate dtimPeriod aids).map fun updated =>
      ⟨updated, state.cycle.map BeaconCycle.next⟩
  | .stations dtimPeriod aids =>
    ((state.raw.triggerUpdate true).doUpdate dtimPeriod aids).map fun updated =>
      ⟨updated, state.cycle⟩

namespace MorseRaw

/-- The error that the walk over a dynamic command ends with. -/
def Walked.ret : Walked → Option Errno
  | .returned _ => none
  | .ended ret _ => ret

/-- A TLV of a dynamic command that sets up a valid configuration which is not
periodic, for a beacon of the cycle: it names no validity, and neither does what
is stored for the identifier and stays. -/
structure SetsUp (raw : MorseRaw) (numBcnIndexes id index : BitVec 16) (tlvs : List Tlv) :
    Prop where
  single : id ≠ 0
  below : index.toNat < numBcnIndexes.toNat
  named : ∀ periodicity validity startOffset refreshOnExpiry,
    .praw periodicity validity startOffset refreshOnExpiry ∈ tlvs → validity = 0
  stored : ∀ cfg ∈ raw.rawConfigList, cfg.id = id →
    (raw.numDynamic ≤ 0 ∨ cfg.hasBcnIdx = false) → cfg.isPeriodic = false

/-- A dynamic command is accepted while no static configuration is active.  It
announces a number of beacons, and configurations that are set up for them. -/
structure Commands (raw : MorseRaw) (tlvs : List DynamicTlv) (numBcnIndexes : BitVec 16) :
    Prop where
  noStatic : raw.numStatic ≤ 0
  accepted : ∃ walked, dynamicWalk tlvs raw.dynamicRawInit = some walked ∧ walked.ret = none
  announced : commandBeacons tlvs = some numBcnIndexes
  configs : ∀ id index nested memory, .config id index nested memory ∈ tlvs →
    raw.SetsUp numBcnIndexes id index nested
  counted : ∀ beacons, .global 0 beacons ∈ tlvs →
    ∀ id index nested memory, .config id index nested memory ∉ tlvs

/-- The number of beacons fits in its field, no beacon is left to be counted, and
the position is that of a first beacon or will be reset. -/
structure StartsCycle (raw : MorseRaw) (numBcnIndexes : BitVec 16) : Prop where
  narrow : numBcnIndexes.toNat < 256
  noneSent : raw.beaconSent = false
  position : 0 < raw.numDynamic ∨ raw.currentNum = 0

/-- The identifiers in the element. -/
def elementIds (raw : MorseRaw) : Option (List (BitVec 16)) :=
  raw.rpsIe.map (List.map Assignment.id)

/-- The element for the next beacon of a cycle lists the configurations of its
index, and the cycle goes on for as many beacons as were announced. -/
structure InForce (cycle : BeaconCycle) (raw : MorseRaw) : Prop where
  element : ∃ ids : List (BitVec 16), ids.Pairwise (· > ·) ∧
    (∀ id, id ∈ ids ↔ ∃ index, cycle.indexes id = some index ∧ index.toNat = cycle.beacons) ∧
      raw.elementIds = if ids = [] then none else some (ids.take maxNumRaws)
  finished : cycle.numBcnIndexes.toNat ≤ cycle.beacons → raw.rpsIe = none
  length : (∃ id, (cycle.indexes id).isSome = true) →
    (raw.updateEachBeacon = true ↔ cycle.beacons < cycle.numBcnIndexes.toNat)

/-! ## What the update keeps -/

/-- The state apart from what the update work brings up to date. -/
def core (raw : MorseRaw) : MorseRaw :=
  { raw with
    refreshAids := false
    prawTxCount := 0
    rpsIe := none
    aidList := none
    rawConfigList := [] }

/-- A change of the state that keeps the indexes and the periodicity of the
configurations, and nearly everything else. -/
structure Carries (before after : MorseRaw) : Prop where
  core : after.core = before.core
  stored : ∀ new ∈ after.rawConfigList, ∃ old ∈ before.rawConfigList,
    new.id = old.id ∧ new.insertAtIdx = old.insertAtIdx ∧ new.isPeriodic = old.isPeriodic

variable {before after : MorseRaw}

theorem Carries.of_configs (core : after.core = before.core)
    (configs : after.rawConfigList = before.rawConfigList) :
    Carries before after :=
  ⟨core, fun new member => ⟨new, configs ▸ member, rfl, rfl, rfl⟩⟩

theorem Carries.trans (before : Carries first second) (after : Carries second third) :
    Carries first third where
  core := after.core.trans before.core
  stored := fun new member => by
    obtain ⟨middle, known, id, index, periodic⟩ := after.stored new member
    obtain ⟨old, kept, oldId, oldIndex, oldPeriodic⟩ := before.stored middle known
    exact ⟨old, kept, id.trans oldId, index.trans oldIndex, periodic.trans oldPeriodic⟩

theorem carries_modify {raw : MorseRaw} {id : BitVec 16}
    (same : ∀ cfg ∈ raw.rawConfigList, cfg.id = id →
      (change cfg).id = cfg.id ∧ (change cfg).insertAtIdx = cfg.insertAtIdx ∧
        (change cfg).isPeriodic = cfg.isPeriodic) :
    Carries raw (raw.modify id change) where
  core := rfl
  stored := fun new member => by
    obtain ⟨cfg, known, rfl⟩ := List.mem_map.mp member
    refine ⟨cfg, known, ?_⟩
    split
    · next own => exact same cfg known own
    · exact ⟨rfl, rfl, rfl⟩

theorem updateAidIndexes_insertAtIdx (cfg : RawConfig) (aids : List (BitVec 16)) :
    (updateAidIndexes cfg aids).insertAtIdx = cfg.insertAtIdx := by
  rw [updateAidIndexes]
  split
  · rfl
  · dsimp only
    split <;> rfl

theorem refreshIndexes_insertAtIdx (aids : List (BitVec 16)) (cfg : RawConfig) :
    (cfg.refreshIndexes aids).insertAtIdx = cfg.insertAtIdx := by
  rw [RawConfig.refreshIndexes]
  split
  · exact updateAidIndexes_insertAtIdx _ aids
  · rfl

theorem carries_foldl_refreshIndexes (aids ids : List (BitVec 16)) (raw : MorseRaw) :
    Carries raw (ids.foldl (fun raw id => raw.modify id (RawConfig.refreshIndexes aids)) raw) := by
  induction ids generalizing raw with
  | nil => exact .of_configs rfl rfl
  | cons id rest ih =>
    refine Carries.trans (carries_modify fun cfg _ _ => ?_) (ih _)
    have kind := SameKind.refreshIndexes aids cfg
    exact ⟨kind.id, refreshIndexes_insertAtIdx aids cfg, kind.periodic⟩

theorem carries_updateStations (raw : MorseRaw) (dtimPeriod : BitVec 8) (aids : List (BitVec 16)) :
    Carries raw (raw.updateStations dtimPeriod aids) := by
  rw [updateStations]
  split
  · have noted : Carries raw { raw with refreshAids := false, aidList := some aids } :=
      .of_configs rfl rfl
    have refreshed := noted.trans (carries_foldl_refreshIndexes aids raw.activeRaws _)
    exact refreshed.trans (.of_configs rfl rfl)
  · exact .of_configs rfl rfl

theorem generateAssignment_insertAtIdx
    (generated : Raw.generateAssignment aids config = some (new, assignment)) :
    new.insertAtIdx = config.insertAtIdx := by
  rw [Raw.generateAssignment] at generated
  dsimp only at generated
  split at generated
  · split at generated
    · cases generated
    · cases generated
      rfl
  · cases generated
    rfl

theorem carries_generateRpsIe {raw : MorseRaw} (booked : raw.Booked)
    (generated : generateRpsIe ids assignments raw = some after) :
    Carries raw after := by
  induction ids generalizing assignments raw with
  | nil =>
    cases generated
    exact .of_configs rfl rfl
  | cons id rest ih =>
    rw [generateRpsIe] at generated
    split at generated
    · exact ih booked generated
    · next config found =>
        obtain ⟨member, own⟩ := findConfigById_eq_some found
        split at generated
        · cases generated
        · next new assignment made =>
            have kind := SameKind.generateAssignment made
            have unique (cfg : RawConfig) (held : cfg ∈ raw.rawConfigList) (equal : cfg.id = id) :
                cfg = config :=
              booked.eq_of_id_eq member held (equal.trans own.symm)
            have changed : Carries raw (raw.modify id fun _ => new) := by
              refine carries_modify fun cfg held equal => ?_
              rw [unique cfg held equal]
              exact ⟨kind.id, generateAssignment_insertAtIdx made, kind.periodic⟩
            have kept : (raw.modify id fun _ => new).Booked := by
              refine booked.modify fun cfg held equal => ?_
              rw [unique cfg held equal]
              exact kind
            exact changed.trans (ih kept generated)

theorem carries_updateRpsIe {raw : MorseRaw} (booked : raw.Booked)
    (updated : raw.updateRpsIe includePraws = some after) :
    Carries raw after := by
  rw [updateRpsIe] at updated
  split at updated
  · cases updated
    exact .of_configs rfl rfl
  · exact carries_generateRpsIe booked updated

/-! ## The configurations of a cycle -/

/-- The active configurations are those that the command gave an index to, each
with its index. -/
structure Installed (indexes : BitVec 16 → Option (BitVec 16)) (raw : MorseRaw) : Prop where
  booked : raw.Booked
  numStatic : raw.numStatic = 0
  active : ∀ id, raw.isConfigActive id = true ↔ (indexes id).isSome = true
  stored : ∀ cfg ∈ raw.rawConfigList, ∀ index, indexes cfg.id = some index →
    cfg.insertAtIdx = index ∧ cfg.isPeriodic = false
  dynamic : ∀ id index, indexes id = some index → index ≠ u16Max

theorem Carries.read {Value : Type} (carries : Carries before after) (read : MorseRaw → Value)
    (blind : ∀ raw, read raw.core = read raw) :
    read after = read before := by
  rw [← blind after, ← blind before, carries.core]

theorem Carries.isConfigActive (carries : Carries before after) (id : BitVec 16) :
    after.isConfigActive id = before.isConfigActive id :=
  carries.read (MorseRaw.isConfigActive · id) fun _ => rfl

theorem Installed.carried (installed : Installed indexes before) (carries : Carries before after)
    (booked : after.Booked) :
    Installed indexes after where
  booked := booked
  numStatic := (carries.read MorseRaw.numStatic fun _ => rfl).trans installed.numStatic
  active := fun id => by
    rw [carries.isConfigActive]
    exact installed.active id
  stored := fun new member index given => by
    obtain ⟨old, known, id, same, periodic⟩ := carries.stored new member
    rw [same, periodic]
    exact installed.stored old known index (id ▸ given)
  dynamic := installed.dynamic

theorem Installed.congr (installed : Installed indexes before)
    (configs : after.rawConfigList = before.rawConfigList)
    (raws : after.activeRaws = before.activeRaws) (praws : after.activePraws = before.activePraws)
    (numStatic : after.numStatic = before.numStatic)
    (numDynamic : after.numDynamic = before.numDynamic) :
    Installed indexes after where
  booked := installed.booked.congr configs raws praws numStatic numDynamic
  numStatic := numStatic.trans installed.numStatic
  active := fun id => by
    rw [isConfigActive, raws, praws]
    exact installed.active id
  stored := by
    rw [configs]
    exact installed.stored
  dynamic := installed.dynamic

theorem Installed.found {raw : MorseRaw} {id index : BitVec 16} (installed : Installed indexes raw)
    (given : indexes id = some index) :
    ∃ cfg ∈ raw.rawConfigList, cfg.id = id ∧ cfg.insertAtIdx = index ∧ cfg.isPeriodic = false := by
  have active : raw.isConfigActive id = true :=
    (installed.active id).mpr (by rw [given]; rfl)
  obtain ⟨cfg, member, rfl⟩ := List.mem_map.mp (installed.booked.known id active)
  exact ⟨cfg, member, rfl, installed.stored cfg member index given⟩

theorem Installed.numDynamic_pos {raw : MorseRaw} {id index : BitVec 16}
    (installed : Installed indexes raw) (given : indexes id = some index) :
    0 < raw.numDynamic := by
  obtain ⟨cfg, member, rfl, same, _⟩ := installed.found given
  have active : raw.isConfigActive cfg.id = true :=
    (installed.active cfg.id).mpr (by rw [given]; rfl)
  have kind : cfg.hasBcnIdx = true := by
    rw [RawConfig.hasBcnIdx, same]
    exact decide_eq_true (installed.dynamic _ _ given)
  have some : 0 < raw.rawConfigList.countP (raw.activeOf true) :=
    List.countP_pos_iff.mpr ⟨cfg, member, by rw [activeOf, active, kind]; rfl⟩
  have counted : raw.numDynamic = raw.rawConfigList.countP (raw.activeOf true) :=
    installed.booked.counters true
  omega

theorem Installed.activePraws_eq {raw : MorseRaw} (installed : Installed indexes raw) :
    raw.activePraws = [] := by
  rw [List.eq_nil_iff_forall_not_mem]
  intro id linked
  have active : raw.isConfigActive id = true := isConfigActive_iff.mpr (.inr linked)
  obtain ⟨index, given⟩ := Option.isSome_iff_exists.mp ((installed.active id).mp active)
  obtain ⟨cfg, member, rfl, _, nonPeriodic⟩ := installed.found given
  have periodic := installed.booked.praws cfg member linked
  rw [nonPeriodic] at periodic
  cases periodic

theorem Installed.mem_activeRaws {raw : MorseRaw} (installed : Installed indexes raw)
    (id : BitVec 16) :
    id ∈ raw.activeRaws ↔ (indexes id).isSome = true := by
  rw [← installed.active, isConfigActive_iff, installed.activePraws_eq]
  simp only [List.not_mem_nil, or_false]

/-! ## The walk over a command -/

/-- What the configuration groups of a dynamic command leave alone. -/
structure SamePlace (before after : MorseRaw) : Prop where
  currentNum : after.currentNum = before.currentNum
  numBeacons : after.numBeacons = before.numBeacons
  beaconSent : after.beaconSent = before.beaconSent

theorem deleteConfig_samePlace (raw : MorseRaw) (cfg : RawConfig) :
    SamePlace raw (raw.deleteConfig cfg) ∧
      (cfg.hasBcnIdx = true → (raw.deleteConfig cfg).numStatic = raw.numStatic) := by
  rw [deleteConfig]
  split
  · rw [deactivateConfig]
    cases cfg.hasBcnIdx with
    | false => exact ⟨⟨rfl, rfl, rfl⟩, fun kind => by cases kind⟩
    | true => exact ⟨⟨rfl, rfl, rfl⟩, fun _ => rfl⟩
  · exact ⟨⟨rfl, rfl, rfl⟩, fun _ => rfl⟩

theorem foldl_deleteConfig_samePlace {configs : List RawConfig}
    (dynamic : ∀ cfg ∈ configs, cfg.hasBcnIdx = true) (raw : MorseRaw) :
    SamePlace raw (configs.foldl deleteConfig raw) ∧
      (configs.foldl deleteConfig raw).numStatic = raw.numStatic ∧
      ∀ cfg, cfg ∈ (configs.foldl deleteConfig raw).rawConfigList ↔
        cfg ∈ raw.rawConfigList ∧ ∀ other ∈ configs, cfg.id ≠ other.id := by
  induction configs generalizing raw with
  | nil => exact ⟨⟨rfl, rfl, rfl⟩, rfl, fun cfg => by simp⟩
  | cons first rest ih =>
    obtain ⟨kind, others⟩ := List.forall_mem_cons.mp dynamic
    obtain ⟨place, static⟩ := deleteConfig_samePlace raw first
    obtain ⟨later, same, members⟩ := ih others (raw.deleteConfig first)
    refine ⟨⟨later.currentNum.trans place.currentNum, later.numBeacons.trans place.numBeacons,
      later.beaconSent.trans place.beaconSent⟩, same.trans (static kind), fun cfg => ?_⟩
    rw [List.foldl_cons, members, deleteConfig_rawConfigList, List.mem_filter,
      decide_eq_true_eq, List.forall_mem_cons, and_assoc]

theorem dynamicRawInit_spec (raw : MorseRaw) :
    raw.dynamicRawInit.beaconSent = raw.beaconSent ∧
      raw.dynamicRawInit.numStatic = raw.numStatic ∧
      (0 < raw.numDynamic ∨ raw.currentNum = 0 → raw.dynamicRawInit.currentNum = 0) ∧
      ∀ cfg ∈ raw.dynamicRawInit.rawConfigList,
        cfg ∈ raw.rawConfigList ∧ (raw.numDynamic ≤ 0 ∨ cfg.hasBcnIdx = false) := by
  by_cases some : 0 < raw.numDynamic
  · obtain ⟨place, static, members⟩ := foldl_deleteConfig_samePlace
      (fun cfg member => (List.mem_filter.mp member).2)
      { raw with numBeacons := 0, currentNum := 0 }
    rw [dynamicRawInit, if_pos some]
    refine ⟨place.beaconSent, static, fun _ => place.currentNum, fun cfg member => ?_⟩
    obtain ⟨known, apart⟩ := (members cfg).mp member
    refine ⟨known, .inr ?_⟩
    rw [← Bool.not_eq_true]
    exact fun kind => apart cfg (List.mem_filter.mpr ⟨known, kind⟩) rfl
  · rw [dynamicRawInit, if_neg some]
    refine ⟨rfl, rfl, fun position => position.resolve_left some, fun cfg member => ?_⟩
    exact ⟨member, .inl (Int.not_lt.mp some)⟩

variable {raw : MorseRaw}

theorem Booked.isConfigActive_eq_false (booked : raw.Booked) (noStatic : raw.numStatic ≤ 0)
    (noDynamic : ∀ cfg ∈ raw.rawConfigList, raw.numDynamic ≤ 0 ∨ cfg.hasBcnIdx = false)
    (id : BitVec 16) :
    raw.isConfigActive id = false := by
  rw [← Bool.not_eq_true]
  intro active
  obtain ⟨cfg, member, rfl⟩ := List.mem_map.mp (booked.known id active)
  have counted : raw.counter cfg.hasBcnIdx =
      raw.rawConfigList.countP (raw.activeOf cfg.hasBcnIdx) :=
    booked.counters cfg.hasBcnIdx
  have some : 0 < raw.rawConfigList.countP (raw.activeOf cfg.hasBcnIdx) :=
    List.countP_pos_iff.mpr ⟨cfg, member, by rw [activeOf, active, beq_self_eq_true]; rfl⟩
  have none : raw.counter cfg.hasBcnIdx ≤ 0 := by
    rw [counter]
    split
    · next kind => exact (noDynamic cfg member).resolve_right (by rw [kind]; exact Bool.noConfusion)
    · exact noStatic
  omega

theorem installed_dynamicRawInit (booked : raw.Booked) (noStatic : raw.numStatic ≤ 0) :
    Installed (fun _ => none) raw.dynamicRawInit := by
  have kept : raw.dynamicRawInit.Booked := booked.dynamicRawInit
  obtain ⟨_, static, _, members⟩ := dynamicRawInit_spec raw
  have inactive : ∀ id, raw.dynamicRawInit.isConfigActive id = false := by
    refine kept.isConfigActive_eq_false (static.trans_le noStatic) fun cfg member => ?_
    rcases (members cfg member).2 with none | static
    · left
      rw [dynamicRawInit, if_neg (Int.not_lt.mpr none)]
      exact none
    · exact .inr static
  have counted : raw.dynamicRawInit.numStatic =
      raw.dynamicRawInit.rawConfigList.countP (raw.dynamicRawInit.activeOf false) :=
    kept.counters false
  refine ⟨kept, by omega, fun id => ?_, fun _ _ _ given => ?_, fun _ _ given => ?_⟩
  · rw [inactive]
    rfl
  · cases given
  · cases given

theorem cmdToConfig_isPeriodic
    (named : ∀ periodicity validity startOffset refreshOnExpiry,
      .praw periodicity validity startOffset refreshOnExpiry ∈ tlvs → validity = 0)
    (nonPeriodic : cfg.isPeriodic = false)
    (parsed : morseRawCmdToConfig tlvs cfg = some (valid, new)) :
    new.isPeriodic = false := by
  induction tlvs generalizing cfg with
  | nil =>
    cases parsed
    exact nonPeriodic
  | cons tlv rest ih =>
    have others (periodicity validity startOffset refreshOnExpiry : BitVec 8)
        (member : .praw periodicity validity startOffset refreshOnExpiry ∈ rest) :
        validity = 0 :=
      named periodicity validity startOffset refreshOnExpiry (List.mem_cons_of_mem _ member)
    cases tlv with
    | slotDef =>
      rw [morseRawCmdToConfig] at parsed
      split at parsed
      · cases parsed
      · refine ih others ?_ parsed
        exact nonPeriodic
    | group | startTime | bcnSpread =>
      refine ih others ?_ parsed
      exact nonPeriodic
    | praw periodicity validity startOffset refreshOnExpiry =>
      refine ih others ?_ parsed
      rw [named _ _ _ _ List.mem_cons_self]
      rfl
    | unrecognised =>
      cases parsed
      exact nonPeriodic

theorem processConfigGroup_accepted {raw : MorseRaw} {id index : BitVec 16} (single : id ≠ 0)
    (processed : raw.processConfigGroup (dynamicGroup id index tlvs memory) = some (none, after)) :
    ∃ old created new, raw.createOrFindById memory id = some (old, created) ∧
      morseRawCmdToConfig tlvs old = some (true, new) ∧
        after = created.applyConfig (new.insertAt index) true := by
  rw [processConfigGroup] at processed
  split at processed
  · cases processed
  · split at processed
    · next zero => exact absurd zero single
    · have update : (dynamicGroup id index tlvs memory).update = true := rfl
      rw [if_pos update] at processed
      split at processed
      · cases processed
      · next old created found =>
          split at processed
          · cases processed
          · next new parsed =>
              cases processed
              exact ⟨old, created, new, found, parsed, rfl⟩
          · cases processed

theorem activateConfig_samePlace (raw : MorseRaw) (cfg : RawConfig) :
    SamePlace raw (raw.activateConfig cfg) ∧
      (cfg.hasBcnIdx = true → (raw.activateConfig cfg).numStatic = raw.numStatic) := by
  rw [activateConfig]
  split
  · exact ⟨⟨rfl, rfl, rfl⟩, fun _ => rfl⟩
  · cases cfg.isPeriodic <;> cases cfg.hasBcnIdx
    · exact ⟨⟨rfl, rfl, rfl⟩, fun kind => by cases kind⟩
    · exact ⟨⟨rfl, rfl, rfl⟩, fun _ => rfl⟩
    · exact ⟨⟨rfl, rfl, rfl⟩, fun kind => by cases kind⟩
    · exact ⟨⟨rfl, rfl, rfl⟩, fun _ => rfl⟩

theorem Installed.applyConfig {raw : MorseRaw} {old new : RawConfig}
    (installed : Installed indexes raw) (member : old ∈ raw.rawConfigList) (same : new.id = old.id)
    (wasNonPeriodic : old.isPeriodic = false) (nonPeriodic : new.isPeriodic = false)
    (dynamic : index ≠ u16Max) :
    Installed (fun other => if other = old.id then some index else indexes other)
        (raw.applyConfig (new.insertAt index) true) ∧
      SamePlace raw (raw.applyConfig (new.insertAt index) true) := by
  have kind : (new.insertAt index).hasBcnIdx = true := decide_eq_true dynamic
  have keeps : KeepsBooks raw old (new.insertAt index) true := by
    intro active
    refine ⟨nonPeriodic.trans wasNonPeriodic.symm, kind.trans ?_⟩
    obtain ⟨given, exact⟩ := Option.isSome_iff_exists.mp ((installed.active old.id).mp active)
    obtain ⟨stored, _⟩ := installed.stored old member given exact
    rw [RawConfig.hasBcnIdx, stored]
    exact (decide_eq_true (installed.dynamic _ _ exact)).symm
  have sameId : (new.insertAt index).id = old.id := same
  have booked := installed.booked.applyConfig member sameId keeps
  obtain ⟨place, static⟩ := activateConfig_samePlace
    (raw.modify old.id fun _ => new.insertAt index) (new.insertAt index)
  have applied : raw.applyConfig (new.insertAt index) true =
      (raw.modify old.id fun _ => new.insertAt index).activateConfig (new.insertAt index) := by
    rw [MorseRaw.applyConfig, if_pos rfl, sameId]
  have own := isConfigActive_activateConfig (raw.modify old.id fun _ => new.insertAt index)
    (new.insertAt index)
  have links := sameLinks_activateConfig (raw.modify old.id fun _ => new.insertAt index)
    (new.insertAt index)
  rw [sameId] at own links
  rw [applied] at booked ⊢
  refine ⟨⟨booked, ?_, fun other => ?_, fun cfg held given exact => ?_,
    fun other given exact => ?_⟩, ⟨place.currentNum, place.numBeacons, place.beaconSent⟩⟩
  · exact (static kind).trans installed.numStatic
  · by_cases equal : other = old.id
    · rw [if_pos equal, equal]
      exact iff_of_true own rfl
    · rw [if_neg equal, ← installed.active other]
      rw [links.isConfigActive equal]
      exact Iff.rfl
  · rw [activateConfig_rawConfigList] at held
    obtain ⟨before, known, rfl⟩ := List.mem_map.mp held
    by_cases equal : before.id = old.id
    · rw [if_pos equal] at exact ⊢
      rw [if_pos sameId] at exact
      cases exact
      exact ⟨rfl, nonPeriodic⟩
    · rw [if_neg equal] at exact ⊢
      rw [if_neg equal] at exact
      exact installed.stored before known given exact
  · by_cases equal : other = old.id
    · rw [if_pos equal] at exact
      cases exact
      exact dynamic
    · rw [if_neg equal] at exact
      exact installed.dynamic other given exact

theorem Installed.createOrFindById {raw : MorseRaw} {id : BitVec 16}
    (installed : Installed indexes raw)
    (found : raw.createOrFindById memory id = some (old, created)) :
    Installed indexes created ∧ SamePlace raw created ∧
      ∀ cfg ∈ created.rawConfigList, cfg.isPeriodic = true → cfg ∈ raw.rawConfigList := by
  have booked := (installed.booked.createOrFindById found).1
  rcases createOrFindById_cases found with
    ⟨_, _, rfl⟩ | ⟨unknown, rfl, configs, permuted, rfl⟩
  · exact ⟨installed, ⟨rfl, rfl, rfl⟩, fun cfg member _ => member⟩
  · refine ⟨⟨booked, installed.numStatic, installed.active, fun cfg member index given => ?_,
      installed.dynamic⟩, ⟨rfl, rfl, rfl⟩, fun cfg member periodic => ?_⟩
    · rcases List.mem_cons.mp (permuted.mem_iff.mp member) with rfl | known
      · obtain ⟨stored, held, own, _⟩ := installed.found given
        have known : (RawConfig.zeroed id).id ∈ raw.rawConfigList.map RawConfig.id :=
          own ▸ List.mem_map_of_mem held
        exact absurd known unknown
      · exact installed.stored cfg known index given
    · rcases List.mem_cons.mp (permuted.mem_iff.mp member) with rfl | known
      · cases periodic
      · exact known

theorem Installed.processConfigGroup {raw : MorseRaw} {id index : BitVec 16}
    (installed : Installed indexes raw) (single : id ≠ 0) (dynamic : index ≠ u16Max)
    (named : ∀ periodicity validity startOffset refreshOnExpiry,
      .praw periodicity validity startOffset refreshOnExpiry ∈ tlvs → validity = 0)
    (stored : ∀ cfg ∈ raw.rawConfigList, cfg.id = id → cfg.isPeriodic = false)
    (processed : raw.processConfigGroup (dynamicGroup id index tlvs memory) = some (none, after)) :
    Installed (fun other => if other = id then some index else indexes other) after ∧
      SamePlace raw after ∧
      ∀ cfg ∈ after.rawConfigList, cfg.isPeriodic = true → cfg ∈ raw.rawConfigList := by
  obtain ⟨old, created, new, found, parsed, rfl⟩ := processConfigGroup_accepted single processed
  obtain ⟨kept, place, members⟩ := installed.createOrFindById found
  obtain ⟨_, member, rfl⟩ := installed.booked.createOrFindById found
  have wasNonPeriodic : old.isPeriodic = false := by
    rw [← Bool.not_eq_true]
    intro periodic
    have known := members old member periodic
    rw [stored old known rfl] at periodic
    cases periodic
  have nonPeriodic := cmdToConfig_isPeriodic named wasNonPeriodic parsed
  have same : new.id = old.id := cmdToConfig_id parsed
  obtain ⟨applied, moved⟩ := kept.applyConfig member same wasNonPeriodic nonPeriodic dynamic
  refine ⟨applied, ⟨moved.currentNum.trans place.currentNum,
    moved.numBeacons.trans place.numBeacons, moved.beaconSent.trans place.beaconSent⟩, fun cfg held
      periodic => ?_⟩
  rw [MorseRaw.applyConfig, if_pos rfl, activateConfig_rawConfigList] at held
  obtain ⟨before, known, rfl⟩ := List.mem_map.mp held
  split at periodic
  · have fresh : (new.insertAt index).isPeriodic = false := nonPeriodic
    rw [fresh] at periodic
    cases periodic
  · next apart =>
      rw [if_neg apart]
      exact members before known periodic

theorem foldl_noteIndex_of_none {tlvs : List DynamicTlv}
    (none : ∀ id index nested memory, .config id index nested memory ∉ tlvs)
    (indexes : BitVec 16 → Option (BitVec 16)) :
    tlvs.foldl DynamicTlv.noteIndex indexes = indexes := by
  induction tlvs generalizing indexes with
  | nil => rfl
  | cons tlv rest ih =>
    have others (id index : BitVec 16) (nested : List Tlv) (memory : Bool) :
        .config id index nested memory ∉ rest := fun later =>
      none id index nested memory (List.mem_cons_of_mem _ later)
    rw [List.foldl_cons, ih others]
    cases tlv with
    | config => exact absurd List.mem_cons_self (none _ _ _ _)
    | global | nested | unrecognised => rfl

theorem Installed.dynamicWalk {raw : MorseRaw} (installed : Installed indexes raw)
    (fits : ∀ id index nested memory, .config id index nested memory ∈ tlvs →
      (id ≠ 0 ∧ index ≠ u16Max ∧ ∀ periodicity validity startOffset refreshOnExpiry,
        .praw periodicity validity startOffset refreshOnExpiry ∈ nested → validity = 0) ∧
          ∀ cfg ∈ raw.rawConfigList, cfg.id = id → cfg.isPeriodic = false)
    (counted : ∀ beacons, .global 0 beacons ∈ tlvs →
      ∀ id index nested memory, .config id index nested memory ∉ tlvs)
    (ends : MorseRaw.dynamicWalk tlvs raw = some walked)
    (accepted : walked.ret = none) :
    Installed (tlvs.foldl DynamicTlv.noteIndex indexes) walked.state ∧
      walked.state.currentNum = raw.currentNum ∧ walked.state.beaconSent = raw.beaconSent := by
  induction tlvs generalizing raw indexes with
  | nil =>
    cases ends
    exact ⟨installed, rfl, rfl⟩
  | cons tlv rest ih =>
    have fewer (beacons : BitVec 16) (zero : .global 0 beacons ∈ rest)
        (id index : BitVec 16) (nested : List Tlv) (memory : Bool) :
        .config id index nested memory ∉ rest := fun later =>
      counted beacons (List.mem_cons_of_mem _ zero) id index nested memory
        (List.mem_cons_of_mem _ later)
    have others := fun id index nested memory
        (later : DynamicTlv.config id index nested memory ∈ rest) =>
      fits id index nested memory (List.mem_cons_of_mem _ later)
    cases tlv with
    | global numConfigs numBcnIndexes =>
      have noted : Installed indexes { raw with numBeacons := numBcnIndexes.setWidth 8 } :=
        installed.congr rfl rfl rfl rfl rfl
      simp only [MorseRaw.dynamicWalk] at ends
      split at ends
      · next zero =>
          subst zero
          cases ends
          have none := counted numBcnIndexes List.mem_cons_self
          rw [foldl_noteIndex_of_none none]
          exact ⟨noted, rfl, rfl⟩
      · have kept := ih noted others fewer ends
        exact kept
    | config id index nested memory =>
      obtain ⟨⟨single, dynamic, named⟩, stored⟩ :=
        fits id index nested memory List.mem_cons_self
      simp only [MorseRaw.dynamicWalk] at ends
      split at ends
      · cases ends
      · next after exact =>
          obtain ⟨active, place, members⟩ :=
            installed.processConfigGroup single dynamic named stored exact
          have kept := ih active (fun id index nested memory later => by
            obtain ⟨valid, quiet⟩ := others id index nested memory later
            refine ⟨valid, fun cfg held own => ?_⟩
            rw [← Bool.not_eq_true]
            intro periodic
            rw [quiet cfg (members cfg held periodic) own] at periodic
            cases periodic) fewer ends
          exact ⟨kept.1, kept.2.1.trans place.currentNum, kept.2.2.trans place.beaconSent⟩
      · cases ends
        cases accepted
    | nested => cases ends
    | unrecognised =>
      cases ends
      cases accepted

theorem mem_of_foldl_noteIndex {tlvs : List DynamicTlv} {id index : BitVec 16}
    (given : tlvs.foldl DynamicTlv.noteIndex indexes id = some index) :
    indexes id = some index ∨ ∃ nested memory, .config id index nested memory ∈ tlvs := by
  induction tlvs generalizing indexes with
  | nil => exact .inl given
  | cons tlv rest ih =>
    rcases ih given with first | ⟨nested, memory, later⟩
    · cases tlv with
      | config other otherIndex nested memory =>
        rw [DynamicTlv.noteIndex] at first
        split at first
        · next same =>
            cases first
            exact .inr ⟨nested, memory, same ▸ List.mem_cons_self⟩
        · exact .inl first
      | global | nested | unrecognised => exact .inl first
    · exact .inr ⟨nested, memory, List.mem_cons_of_mem _ later⟩

theorem processConfigGroup_numBeacons {raw : MorseRaw} {id index : BitVec 16} (single : id ≠ 0)
    (processed : raw.processConfigGroup (dynamicGroup id index tlvs memory) = some (none, after)) :
    after.numBeacons = raw.numBeacons := by
  obtain ⟨old, created, new, found, _, rfl⟩ := processConfigGroup_accepted single processed
  have same : created.numBeacons = raw.numBeacons := by
    rcases createOrFindById_cases found with ⟨_, _, rfl⟩ | ⟨_, _, configs, _, rfl⟩ <;> rfl
  exact (activateConfig_samePlace _ _).1.numBeacons.trans same

theorem dynamicWalk_numBeacons
    {raw after : MorseRaw} {tlvs : List DynamicTlv} {noted : Option (BitVec 16)}
    {numBcnIndexes : BitVec 16}
    (single : ∀ id index nested memory, .config id index nested memory ∈ tlvs → id ≠ 0)
    (before : ∀ beacons, noted = some beacons → raw.numBeacons = beacons.setWidth 8)
    (ends : dynamicWalk tlvs raw = some (.ended none after))
    (announced : tlvs.foldl DynamicTlv.noteBeacons noted = some numBcnIndexes) :
    after.numBeacons = numBcnIndexes.setWidth 8 := by
  induction tlvs generalizing raw noted with
  | nil =>
    cases ends
    exact before numBcnIndexes announced
  | cons tlv rest ih =>
    have others := fun id index nested memory
        (later : DynamicTlv.config id index nested memory ∈ rest) =>
      single id index nested memory (List.mem_cons_of_mem _ later)
    cases tlv with
    | global numConfigs beacons =>
      simp only [dynamicWalk] at ends
      split at ends
      · cases ends
      · refine ih others (fun last same => ?_) ends announced
        cases same
        rfl
    | config id index nested memory =>
      simp only [dynamicWalk] at ends
      split at ends
      · cases ends
      · next exact =>
          have same := processConfigGroup_numBeacons
            (single id index nested memory List.mem_cons_self) exact
          exact ih others (fun last given => same.trans (before last given)) ends
            announced
      · cases ends
    | nested => cases ends
    | unrecognised => cases ends

theorem dynamicWalk_returned {raw : MorseRaw} (ends : dynamicWalk tlvs raw = some (.returned after))
    :
    ∃ beacons, .global 0 beacons ∈ tlvs := by
  induction tlvs generalizing raw with
  | nil => cases ends
  | cons tlv rest ih =>
    cases tlv with
    | global numConfigs beacons =>
      simp only [dynamicWalk] at ends
      split at ends
      · next zero => exact ⟨beacons, zero ▸ List.mem_cons_self⟩
      · obtain ⟨last, later⟩ := ih ends
        exact ⟨last, List.mem_cons_of_mem _ later⟩
    | config =>
      simp only [dynamicWalk] at ends
      split at ends
      · cases ends
      · obtain ⟨last, later⟩ := ih ends
        exact ⟨last, List.mem_cons_of_mem _ later⟩
      · cases ends
    | nested => cases ends
    | unrecognised => cases ends

/-! ## Where a cycle is -/

/-- The position in a cycle: that of the next beacon, or behind the last one. -/
def IsAt (raw : MorseRaw) (cycle : BeaconCycle) : Prop :=
  if cycle.beacons < cycle.numBcnIndexes.toNat then
    raw.updateEachBeacon = true ∧ raw.currentNum = cycle.beacons
  else raw.updateEachBeacon = false ∧ raw.currentNum = -1

/-- The configurations of a cycle are active.  If there are any, the position is
the right one. -/
structure Going (cycle : BeaconCycle) (raw : MorseRaw) : Prop where
  installed : Installed cycle.indexes raw
  below : ∀ id index, cycle.indexes id = some index → index.toNat < cycle.numBcnIndexes.toNat
  going : ∀ id index, cycle.indexes id = some index →
    raw.enabled = true ∧ raw.numBeacons.toNat = cycle.numBcnIndexes.toNat ∧ raw.IsAt cycle

theorem carries_triggerUpdate (raw : MorseRaw) (refreshAids : Bool) :
    Carries raw (raw.triggerUpdate refreshAids) := by
  rw [triggerUpdate]
  split
  · exact .of_configs rfl rfl
  · split <;> exact .of_configs rfl rfl

theorem Going.carried (going : Going cycle before) (carries : Carries before after)
    (booked : after.Booked) :
    Going cycle after where
  installed := going.installed.carried carries booked
  below := going.below
  going := fun id index given => by
    have same : after.IsAt cycle = before.IsAt cycle :=
      carries.read (MorseRaw.IsAt · cycle) fun _ => rfl
    rw [carries.read MorseRaw.enabled fun _ => rfl, carries.read MorseRaw.numBeacons fun _ => rfl,
      same]
    exact going.going id index given

theorem Commands.fits {raw : MorseRaw} {numBcnIndexes id index : BitVec 16}
    (commands : raw.Commands tlvs numBcnIndexes) (member : .config id index nested memory ∈ tlvs) :
    (id ≠ 0 ∧ index ≠ u16Max ∧ ∀ periodicity validity startOffset refreshOnExpiry,
      .praw periodicity validity startOffset refreshOnExpiry ∈ nested → validity = 0) ∧
        ∀ cfg ∈ raw.dynamicRawInit.rawConfigList, cfg.id = id → cfg.isPeriodic = false := by
  have setsUp := commands.configs id index nested memory member
  refine ⟨⟨setsUp.single, ?_, setsUp.named⟩, fun cfg held own => ?_⟩
  · rintro rfl
    have below := setsUp.below
    rw [show u16Max.toNat = 65535 from rfl] at below
    omega
  · obtain ⟨known, stays⟩ := (dynamicRawInit_spec raw).2.2.2 cfg held
    exact setsUp.stored cfg known own stays

theorem Commands.going {raw : MorseRaw} (commands : raw.Commands tlvs numBcnIndexes)
    (booked : raw.Booked)
    (starts : raw.StartsCycle numBcnIndexes) (processed : raw.processDynamicCmd tlvs = some after) :
    Going ⟨commandIndexes tlvs, numBcnIndexes, 0⟩ after ∧ after.beaconSent = false := by
  obtain ⟨walked, ends, accepted⟩ := commands.accepted
  obtain ⟨initSent, _, initPosition, _⟩ := dynamicRawInit_spec raw
  obtain ⟨installed, position, sent⟩ :=
    (installed_dynamicRawInit booked commands.noStatic).dynamicWalk
      (fun id index nested memory => commands.fits) commands.counted ends accepted
  have noneSent : walked.state.beaconSent = false := sent.trans (initSent.trans starts.noneSent)
  have below (id index : BitVec 16) (given : commandIndexes tlvs id = some index) :
      index.toNat < numBcnIndexes.toNat := by
    rcases mem_of_foldl_noteIndex given with none | ⟨nested, memory, member⟩
    · cases none
    · exact (commands.configs id index nested memory member).below
  rw [processDynamicCmd, if_neg (Int.not_lt.mpr commands.noStatic), ends] at processed
  cases walked with
  | returned state =>
    cases processed
    obtain ⟨beacons, zero⟩ := dynamicWalk_returned ends
    refine ⟨⟨installed, below, fun id index given => ?_⟩, noneSent⟩
    rw [commandIndexes, foldl_noteIndex_of_none (commands.counted beacons zero)] at given
    cases given
  | ended ret state =>
    cases accepted
    have numBeacons : state.numBeacons = numBcnIndexes.setWidth 8 :=
      @dynamicWalk_numBeacons _ _ _ none _
        (fun id index nested memory member =>
          (commands.configs id index nested memory member).single)
        (fun _ given => by cases given) ends commands.announced
    have decided : Going ⟨commandIndexes tlvs, numBcnIndexes, 0⟩
        { state with updateEachBeacon := decide (state.activeRaws ≠ []), enabled := true } := by
      refine ⟨installed.congr rfl rfl rfl rfl rfl, below, fun id index given => ?_⟩
      have linked : id ∈ state.activeRaws :=
        (installed.mem_activeRaws id).mpr (Option.isSome_iff_exists.mpr ⟨index, given⟩)
      have some : 0 < numBcnIndexes.toNat := Nat.zero_lt_of_lt (below id index given)
      refine ⟨rfl, ?_, ?_⟩
      · rw [numBeacons]
        exact Nat.mod_eq_of_lt starts.narrow
      · rw [IsAt, if_pos some]
        exact ⟨decide_eq_true (List.ne_nil_of_mem linked),
          position.trans ((dynamicRawInit_spec raw).2.2.1 starts.position)⟩
    have enabled : (if (none : Option Errno) = none ∧ state.enabled = false then
        { state with updateEachBeacon := decide (state.activeRaws ≠ []), enabled := true }
      else { state with updateEachBeacon := decide (state.activeRaws ≠ []) }) =
        { state with updateEachBeacon := decide (state.activeRaws ≠ []), enabled := true } := by
      cases on : state.enabled with
      | false => rw [if_pos ⟨rfl, rfl⟩]
      | true => rw [if_neg (fun both => by cases both.2)]
    dsimp only at processed
    rw [enabled, Option.some_inj] at processed
    subst processed
    have carries := carries_triggerUpdate
      { state with updateEachBeacon := decide (state.activeRaws ≠ []), enabled := true } false
    refine ⟨decided.carried carries (decided.installed.booked.triggerUpdate false), ?_⟩
    exact (carries.read MorseRaw.beaconSent fun _ => rfl).trans noneSent

/-! ## The update after a beacon -/

theorem countStatic_of_none (noStatic : raw.numStatic = 0) (dtimPeriod : BitVec 8) :
    raw.countStatic dtimPeriod = (false, raw) := by
  rw [countStatic, if_neg (by omega)]

theorem Going.updateBeacon {raw : MorseRaw} (going : Going cycle raw)
    (sent : ∀ id index, cycle.indexes id = some index →
      (raw.beaconSent = true ↔ cycle.beacons < cycle.numBcnIndexes.toNat))
    (dtimPeriod : BitVec 8) :
    (raw.updateBeacon dtimPeriod).1 = false ∧
      (raw.updateBeacon dtimPeriod).2.beaconSent = false ∧
        Going cycle.next (raw.updateBeacon dtimPeriod).2 := by
  have below := going.below
  rw [MorseRaw.updateBeacon]
  split
  · next flag =>
      have noStatic : { raw with beaconSent := false }.countDynamic.numStatic = 0 := by
        rw [countDynamic]
        split
        · split <;> exact going.installed.numStatic
        · exact going.installed.numStatic
      rw [countStatic_of_none noStatic]
      refine ⟨rfl, ?_, ?_, below, fun id index given => ?_⟩
      · rw [countDynamic]
        split
        · split <;> rfl
        · rfl
      · rw [countDynamic]
        split
        · split <;> exact going.installed.congr rfl rfl rfl rfl rfl
        · exact going.installed.congr rfl rfl rfl rfl rfl
      · obtain ⟨enabled, numBeacons, place⟩ := going.going id index given
        have early := (sent id index given).mp flag
        have some := going.installed.numDynamic_pos given
        rw [IsAt, if_pos early] at place
        obtain ⟨updates, position⟩ := place
        rw [countDynamic, if_pos some]
        dsimp only
        split
        · next last =>
            refine ⟨enabled, numBeacons, ?_⟩
            rw [IsAt, if_neg (by simp only [BeaconCycle.next]; omega)]
            exact ⟨rfl, rfl⟩
        · next further =>
            refine ⟨enabled, numBeacons, ?_⟩
            rw [IsAt, if_pos (by simp only [BeaconCycle.next]; omega)]
            exact ⟨updates, by simp only [BeaconCycle.next]; omega⟩
  · next idle =>
      refine ⟨rfl, Bool.not_eq_true _ ▸ idle, going.installed, below, fun id index given => ?_⟩
      obtain ⟨enabled, numBeacons, place⟩ := going.going id index given
      have late : ¬ cycle.beacons < cycle.numBcnIndexes.toNat :=
        fun early => idle ((sent id index given).mpr early)
      rw [IsAt, if_neg late] at place
      refine ⟨enabled, numBeacons, ?_⟩
      rw [IsAt, if_neg (by simp only [BeaconCycle.next]; omega)]
      exact place

/-! ## The element in force -/

theorem Booked.listed {raw : MorseRaw} (booked : raw.Booked) : raw.Listed :=
  ⟨booked.distinct, booked.sortedPraws.imp BitVec.ne_of_lt⟩

theorem Going.isAnnounced_iff {raw : MorseRaw} {id index : BitVec 16} (going : Going cycle raw)
    (given : cycle.indexes id = some index) :
    raw.isAnnounced id = true ↔ index.toNat = cycle.beacons := by
  have below := going.below id index given
  have some := going.installed.numDynamic_pos given
  have noStatic := going.installed.numStatic
  obtain ⟨_, _, place⟩ := going.going id index given
  obtain ⟨cfg, member, rfl, stored, _⟩ := going.installed.found given
  rw [isAnnounced, going.installed.booked.listed.findConfigById member]
  simp only [decide_eq_true some, noStatic, stored, Bool.true_and, Int.lt_irrefl, decide_false,
    Bool.false_and, Bool.or_false, decide_eq_true_eq]
  rw [IsAt] at place
  split at place
  · rw [place.2]
    exact Int.ofNat_inj
  · omega

theorem Going.configsList {raw : MorseRaw} (going : Going cycle raw) :
    ∃ ids : List (BitVec 16), ids.Pairwise (· > ·) ∧
      (∀ id, id ∈ ids ↔ ∃ index, cycle.indexes id = some index ∧ index.toNat = cycle.beacons) ∧
        raw.configsList false = ids.take maxNumRaws := by
  refine ⟨raw.activeRaws.reverse.filter raw.isAnnounced, ?_, fun id => ?_, ?_⟩
  · exact (List.pairwise_reverse.mpr going.installed.booked.sortedRaws).filter _
  · rw [List.mem_filter, List.mem_reverse, going.installed.mem_activeRaws,
      Option.isSome_iff_exists]
    constructor
    · rintro ⟨⟨index, given⟩, announced⟩
      exact ⟨index, given, (going.isAnnounced_iff given).mp announced⟩
    · rintro ⟨index, given, same⟩
      exact ⟨⟨index, given⟩, (going.isAnnounced_iff given).mpr same⟩
  · rw [MorseRaw.configsList, going.installed.activePraws_eq]
    split
    · rw [List.reverse_nil, List.take_nil, List.append_nil]
    · rfl

theorem Going.inForce_of_element {raw : MorseRaw} (going : Going cycle raw)
    (sorted : ids.Pairwise (· > ·))
    (members : ∀ id, id ∈ ids ↔
      ∃ index, cycle.indexes id = some index ∧ index.toNat = cycle.beacons)
    (element : raw.elementIds = if ids = [] then none else some (ids.take maxNumRaws)) :
    InForce cycle raw := by
  refine ⟨⟨ids, sorted, members, element⟩, fun late => ?_, ?_⟩
  · have nothing : ids = [] := by
      rw [List.eq_nil_iff_forall_not_mem]
      intro id member
      obtain ⟨index, given, same⟩ := (members id).mp member
      have below := going.below id index given
      omega
    rw [if_pos nothing, elementIds, Option.map_eq_none_iff] at element
    exact element
  · rintro ⟨id, some⟩
    obtain ⟨index, given⟩ := Option.isSome_iff_exists.mp some
    obtain ⟨_, _, place⟩ := going.going id index given
    rw [IsAt] at place
    split at place
    · next early => exact iff_of_true place.1 early
    · next late => exact iff_of_false (by rw [place.1]; exact Bool.false_ne_true) late

theorem Going.updateRpsIe {raw : MorseRaw} (going : Going cycle raw)
    (updated : raw.updateRpsIe false = some after) :
    Going cycle after ∧ after.beaconSent = raw.beaconSent ∧ InForce cycle after := by
  have booked := going.installed.booked
  have carries := carries_updateRpsIe booked updated
  obtain ⟨ids, sorted, members, chosen⟩ := going.configsList
  rw [MorseRaw.updateRpsIe, chosen] at updated
  have kept : after.Booked := by
    split at updated
    · cases updated
      exact booked.congr rfl rfl rfl rfl rfl
    · exact booked.generateRpsIe updated
  have moved : Going cycle after := going.carried carries kept
  refine ⟨moved, carries.read MorseRaw.beaconSent fun _ => rfl,
    moved.inForce_of_element sorted members ?_⟩
  split at updated
  · next nothing =>
      cases updated
      have empty : ids = [] := by
        rcases List.take_eq_nil_iff.mp nothing with zero | empty
        · cases zero
        · exact empty
      rw [if_pos empty]
      rfl
  · next some =>
      obtain ⟨more, element, known⟩ := generateRpsIe_ids booked.listed updated
      have all : (ids.take maxNumRaws).filter (fun id => (raw.findConfigById id).isSome) =
          ids.take maxNumRaws := by
        rw [List.filter_eq_self]
        intro id member
        obtain ⟨index, given, _⟩ := (members id).mp (List.mem_of_mem_take member)
        obtain ⟨cfg, stored, rfl, _⟩ := going.installed.found given
        exact isSome_findConfigById_iff.mpr (List.mem_map_of_mem stored)
      rw [if_neg (fun empty => some (by rw [empty, List.take_nil])), elementIds, element,
        Option.map_some, List.reverse_nil, List.nil_append, known, all]

theorem Going.inForce_of_disabled {raw : MorseRaw} (going : Going cycle raw)
    (disabled : raw.enabled = false) (noElement : raw.rpsIe = none) :
    InForce cycle raw := by
  refine going.inForce_of_element .nil (fun id => iff_of_false List.not_mem_nil ?_) ?_
  · rintro ⟨index, given, _⟩
    have enabled := (going.going id index given).1
    rw [disabled] at enabled
    cases enabled
  · rw [elementIds, noElement]
    rfl

theorem Going.doUpdate {raw : MorseRaw} (going : Going cycle raw)
    (noneSent : raw.enabled = false → raw.beaconSent = false ∧ Going later raw)
    (counted : ∀ stations, Going cycle stations → stations.beaconSent = raw.beaconSent →
      (stations.updateBeacon dtimPeriod).1 = false ∧
        (stations.updateBeacon dtimPeriod).2.beaconSent = false ∧
          Going later (stations.updateBeacon dtimPeriod).2)
    (updated : raw.doUpdate dtimPeriod aids = some after) :
    Going later after ∧ after.beaconSent = false ∧ InForce later after := by
  rw [MorseRaw.doUpdate] at updated
  split at updated
  · have carries := carries_updateStations raw dtimPeriod aids
    have stations : Going cycle (raw.updateStations dtimPeriod aids) :=
      going.carried carries (going.installed.booked.updateStations dtimPeriod aids)
    obtain ⟨noPraws, cleared, moved⟩ :=
      counted _ stations (carries.read MorseRaw.beaconSent fun _ => rfl)
    dsimp only at updated
    rw [noPraws] at updated
    obtain ⟨kept, same, inForce⟩ := moved.updateRpsIe updated
    exact ⟨kept, same.trans cleared, inForce⟩
  · next disabled =>
      cases updated
      rw [Bool.not_eq_true] at disabled
      obtain ⟨sent, moved⟩ := noneSent disabled
      have kept : Going later { raw with rpsIe := none } :=
        moved.carried (.of_configs rfl rfl) (moved.installed.booked.congr rfl rfl rfl rfl rfl)
      exact ⟨kept, sent, kept.inForce_of_disabled disabled rfl⟩

end MorseRaw

/-! ## Runs -/

namespace CycleState

open MorseRaw

/-- The commands that are admitted. -/
def Admits (meets : MorseRaw → List DynamicTlv → BitVec 16 → Prop) (state : CycleState) :
    CycleAction → Prop
  | .command tlvs _ _ => ∃ numBcnIndexes, meets state.raw tlvs numBcnIndexes
  | _ => True

/-- A command that begins a cycle of as many beacons as it announces. -/
def BeginsCycle (raw : MorseRaw) (tlvs : List DynamicTlv) (numBcnIndexes : BitVec 16) : Prop :=
  raw.Commands tlvs numBcnIndexes ∧ raw.StartsCycle numBcnIndexes

/-- What holds after each update: the books are right, and the cycle is where it
should be, with no beacon left to be counted. -/
structure Sound (state : CycleState) : Prop where
  booked : state.raw.Booked
  running : ∀ cycle, state.cycle = some cycle →
    Going cycle state.raw ∧ state.raw.beaconSent = false ∧ InForce cycle state.raw

variable {aids : List (BitVec 16)}

theorem updated_without_beacon {cycle : BeaconCycle} {raw after : MorseRaw}
    (going : Going cycle raw) (noneSent : raw.beaconSent = false)
    (updated : raw.doUpdate dtimPeriod aids = some after) :
    Going cycle after ∧ after.beaconSent = false ∧ InForce cycle after := by
  refine going.doUpdate (fun _ => ⟨noneSent, going⟩) (fun stations kept same => ?_) updated
  rw [noneSent] at same
  rw [MorseRaw.updateBeacon, if_neg (by rw [same]; exact Bool.false_ne_true)]
  exact ⟨rfl, same, kept⟩

theorem updated_after_beacon {cycle : BeaconCycle} {raw after : MorseRaw} (going : Going cycle raw)
    (noneSent : raw.beaconSent = false)
    (updated : raw.rawBeaconSent.doUpdate dtimPeriod aids = some after) :
    Going cycle.next after ∧ after.beaconSent = false ∧ InForce cycle.next after := by
  have flag : raw.rawBeaconSent.beaconSent = (raw.enabled && raw.updateEachBeacon) := by
    rw [MorseRaw.rawBeaconSent]
    split
    · next both => exact both.symm
    · next neither => rw [noneSent, Bool.eq_false_iff.mpr neither]
  have told : Going cycle raw.rawBeaconSent := by
    rw [MorseRaw.rawBeaconSent]
    split
    · exact ⟨going.installed.congr rfl rfl rfl rfl rfl, going.below, going.going⟩
    · exact going
  refine told.doUpdate (fun disabled => ?_) (fun stations kept same => ?_) updated
  · have off : raw.enabled = false := by
      rw [MorseRaw.rawBeaconSent] at disabled
      split at disabled <;> exact disabled
    refine ⟨by rw [flag, off, Bool.false_and], told.installed, told.below, fun id index given => ?_⟩
    have enabled := (going.going id index given).1
    rw [off] at enabled
    cases enabled
  · refine kept.updateBeacon (fun id index given => ?_) dtimPeriod
    obtain ⟨enabled, _, place⟩ := going.going id index given
    rw [same, flag, enabled]
    rw [IsAt] at place
    split at place
    · next early => exact iff_of_true place.1 early
    · next late => exact iff_of_false (by rw [place.1]; exact Bool.false_ne_true) late

theorem Sound.step (sound : Sound state) (admitted : state.Admits BeginsCycle action)
    (taken : state.step action = some after) :
    Sound after := by
  cases action with
  | command tlvs dtimPeriod aids =>
    obtain ⟨numBcnIndexes, commands, starts⟩ := admitted
    obtain ⟨commanded, processed, rest⟩ := Option.bind_eq_some_iff.mp taken
    obtain ⟨updated, finished, rfl⟩ := Option.map_eq_some_iff.mp rest
    obtain ⟨going, noneSent⟩ := commands.going sound.booked starts processed
    have moved := updated_without_beacon going noneSent finished
    refine ⟨moved.1.installed.booked, fun cycle same => ?_⟩
    cases same
    rw [commands.announced]
    exact moved
  | beacon dtimPeriod aids =>
    obtain ⟨updated, finished, rfl⟩ := Option.map_eq_some_iff.mp taken
    have booked : state.raw.rawBeaconSent.Booked := by
      rw [MorseRaw.rawBeaconSent]
      split
      · exact sound.booked.congr rfl rfl rfl rfl rfl
      · exact sound.booked
    refine ⟨booked.doUpdate finished, fun later same => ?_⟩
    obtain ⟨cycle, known, rfl⟩ := Option.map_eq_some_iff.mp same
    obtain ⟨going, noneSent, _⟩ := sound.running cycle known
    exact updated_after_beacon going noneSent finished
  | stations dtimPeriod aids =>
    obtain ⟨updated, finished, rfl⟩ := Option.map_eq_some_iff.mp taken
    have booked : (state.raw.triggerUpdate true).Booked := sound.booked.triggerUpdate true
    refine ⟨booked.doUpdate finished, fun cycle known => ?_⟩
    obtain ⟨going, noneSent, _⟩ := sound.running cycle known
    have carries := carries_triggerUpdate state.raw true
    exact updated_without_beacon (going.carried carries booked)
      ((carries.read MorseRaw.beaconSent fun _ => rfl).trans noneSent) finished

/-- After every update in a cycle, the element in force lists the configurations
of the next beacon, up to the last beacon that was announced. -/
theorem dynamic_cycle {start now : MorseRaw} {cycle : BeaconCycle} (booked : start.Booked)
    (reaches : Reaches step (Admits BeginsCycle) ⟨start, none⟩ ⟨now, some cycle⟩) :
    InForce cycle now := by
  have initial : Sound ⟨start, none⟩ := ⟨booked, fun _ same => by cases same⟩
  have sound : Sound ⟨now, some cycle⟩ :=
    reaches.invariant initial fun sound admitted taken => sound.step admitted taken
  exact (sound.running cycle rfl).2.2

/-- A command for a number of beacons with configuration 1 for the second. -/
def secondBeacon (numBcnIndexes : BitVec 16) : List DynamicTlv :=
  [.global 1 numBcnIndexes, .config 1 1 [.slotDef 4000 2 0, .group 1 10] true]

theorem commands_secondBeacon (many : 1 < numBcnIndexes.toNat) :
    (init true).Commands (secondBeacon numBcnIndexes) numBcnIndexes where
  noStatic := Int.le_refl 0
  accepted := ⟨_, rfl, rfl⟩
  announced := rfl
  configs := fun id index nested memory member => by
    simp only [secondBeacon, List.mem_cons, List.not_mem_nil, or_false, reduceCtorEq, false_or,
      DynamicTlv.config.injEq] at member
    obtain ⟨rfl, rfl, rfl, _⟩ := member
    refine ⟨by decide, many, fun _ _ _ _ named => ?_, fun _ known => by cases known⟩
    simp at named
  counted := fun beacons zero => by
    simp [secondBeacon] at zero

/-- The state after such a command, an update, a beacon and another update. -/
def afterBeacon (numBcnIndexes : BitVec 16) : MorseRaw :=
  ((run step ⟨init true, none⟩ [.command (secondBeacon numBcnIndexes) 1 [], .beacon 1 []]).map
    CycleState.raw).getD (init true)

theorem dynamic_cycle_two :
    InForce ⟨commandIndexes (secondBeacon 2), 2, 1⟩ (afterBeacon 2) := by
  have reaches : Reaches step (Admits BeginsCycle) ⟨init true, none⟩
      ⟨afterBeacon 2, some ⟨commandIndexes (secondBeacon 2), 2, 1⟩⟩ :=
    Reaches.of_run [.command (secondBeacon 2) 1 [], .beacon 1 []]
      ⟨⟨2, commands_secondBeacon (by decide), by decide, rfl, .inr rfl⟩, trivial, trivial⟩ rfl
  exact dynamic_cycle (booked_init true) reaches

/-- A command for 256 beacons is over after the first one. -/
theorem not_dynamic_cycle :
    ¬ ∀ (now : MorseRaw) (cycle : BeaconCycle),
      Reaches step (Admits MorseRaw.Commands) ⟨init true, none⟩ ⟨now, some cycle⟩ →
        InForce cycle now := by
  intro holds
  have reaches : Reaches step (Admits MorseRaw.Commands) ⟨init true, none⟩
      ⟨afterBeacon 256, some ⟨commandIndexes (secondBeacon 256), 256, 1⟩⟩ :=
    Reaches.of_run [.command (secondBeacon 256) 1 [], .beacon 1 []]
      ⟨⟨256, commands_secondBeacon (by decide)⟩, trivial, trivial⟩ rfl
  obtain ⟨ids, _, members, element⟩ := (holds _ _ reaches).element
  have listed : 1 ∈ ids := (members 1).mpr ⟨1, rfl, rfl⟩
  rw [if_neg (List.ne_nil_of_mem listed)] at element
  cases element

end CycleState
end Raw
end Morse
