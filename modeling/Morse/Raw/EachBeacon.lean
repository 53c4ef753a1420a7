import Morse.Raw.Bookkeeping

/-!
# The element from beacon to beacon

The element has to be generated after every beacon while an active configuration
is periodic or spreads its stations over beacons.  A static command decides this
from the list of periodic configurations and a scan of the other list, which
reads past the configurations.  The decision is right wherever a periodic
configuration stays linked.
-/

namespace Morse
namespace Raw

open Lib

/-- The contents of the configuration differ from beacon to beacon. -/
def RawConfig.Varies (cfg : RawConfig) : Prop :=
  cfg.isPeriodic = true ∨ cfg.beaconSpreading.nominalStaPerBeacon ≠ 0

namespace MorseRaw

/-- Some active configuration varies. -/
def VaryingActive (raw : MorseRaw) : Prop :=
  ∃ cfg ∈ raw.rawConfigList, raw.isConfigActive cfg.id = true ∧ cfg.Varies

/-- The element is generated after every beacon if it has to be. -/
def Refreshed (raw : MorseRaw) : Prop :=
  raw.enabled = true → raw.VaryingActive → raw.updateEachBeacon = true

/-- Identifiers are distinct, and no dynamic configuration was ever stored. -/
structure Static (raw : MorseRaw) : Prop where
  distinct : (raw.rawConfigList.map RawConfig.id).Nodup
  configs : ∀ cfg ∈ raw.rawConfigList, cfg.hasBcnIdx = false
  numDynamic : raw.numDynamic = 0

/-! ## Steps that calm the element -/

/-- A later state in which no configuration varies that did not before, with the
same flags. -/
structure Calms (before after : MorseRaw) : Prop where
  enabled : after.enabled = before.enabled
  updateEachBeacon : after.updateEachBeacon = before.updateEachBeacon
  numDynamic : after.numDynamic = before.numDynamic
  links : ∀ id, after.isConfigActive id = true → before.isConfigActive id = true
  ids : (after.rawConfigList.map RawConfig.id).Sublist (before.rawConfigList.map RawConfig.id)
  configs : ∀ new ∈ after.rawConfigList, ∃ old ∈ before.rawConfigList, SameKind old new

theorem Calms.refl (raw : MorseRaw) : Calms raw raw where
  enabled := rfl
  updateEachBeacon := rfl
  numDynamic := rfl
  links := fun _ active => active
  ids := .refl _
  configs := fun cfg member => ⟨cfg, member, .refl cfg⟩

theorem Calms.trans (before : Calms first second) (after : Calms second third) :
    Calms first third where
  enabled := after.enabled.trans before.enabled
  updateEachBeacon := after.updateEachBeacon.trans before.updateEachBeacon
  numDynamic := after.numDynamic.trans before.numDynamic
  links := fun id active => before.links id (after.links id active)
  ids := after.ids.trans before.ids
  configs := fun new member => by
    obtain ⟨middle, held, same⟩ := after.configs new member
    obtain ⟨old, known, kept⟩ := before.configs middle held
    exact ⟨old, known, same.id.trans kept.id, same.periodic.trans kept.periodic,
      same.beacon.trans kept.beacon, same.nominal.trans kept.nominal⟩

variable {before after : MorseRaw}

theorem Calms.static (calms : Calms before after) (static : before.Static) :
    after.Static where
  distinct := static.distinct.sublist calms.ids
  configs := fun cfg member => by
    obtain ⟨old, known, same⟩ := calms.configs cfg member
    rw [same.beacon]
    exact static.configs old known
  numDynamic := calms.numDynamic.trans static.numDynamic

theorem Calms.refreshed (calms : Calms before after) (refreshed : before.Refreshed) :
    after.Refreshed := by
  rintro enabled ⟨new, member, active, varies⟩
  obtain ⟨old, known, same⟩ := calms.configs new member
  rw [calms.updateEachBeacon]
  refine refreshed (calms.enabled ▸ enabled) ⟨old, known, calms.links _ (same.id ▸ active), ?_⟩
  rw [RawConfig.Varies, same.periodic, same.nominal] at varies
  exact varies

theorem Calms.congr (calms : Calms before middle) (enabled : after.enabled = middle.enabled)
    (updateEachBeacon : after.updateEachBeacon = middle.updateEachBeacon)
    (numDynamic : after.numDynamic = middle.numDynamic)
    (links : after.isConfigActive = middle.isConfigActive)
    (configs : after.rawConfigList = middle.rawConfigList) :
    Calms before after where
  enabled := enabled.trans calms.enabled
  updateEachBeacon := updateEachBeacon.trans calms.updateEachBeacon
  numDynamic := numDynamic.trans calms.numDynamic
  links := links ▸ calms.links
  ids := configs ▸ calms.ids
  configs := configs ▸ calms.configs

theorem calms_modify {raw : MorseRaw} {id : BitVec 16}
    (same : ∀ cfg ∈ raw.rawConfigList, cfg.id = id → SameKind cfg (change cfg)) :
    Calms raw (raw.modify id change) := by
  have kept (cfg : RawConfig) (member : cfg ∈ raw.rawConfigList) :
      SameKind cfg (if cfg.id = id then change cfg else cfg) := by
    split
    · next own => exact same cfg member own
    · exact .refl cfg
  refine ⟨rfl, rfl, rfl, fun _ active => active, ?_, fun new member => ?_⟩
  · have ids : (raw.modify id change).rawConfigList.map RawConfig.id =
        raw.rawConfigList.map RawConfig.id := by
      rw [modify_rawConfigList, List.map_map]
      exact List.map_congr_left fun cfg member => (kept cfg member).id
    rw [ids]
  · obtain ⟨cfg, known, rfl⟩ := List.mem_map.mp member
    exact ⟨cfg, known, kept cfg known⟩

theorem calms_foldl_modify (same : ∀ cfg, SameKind cfg (change cfg))
    (ids : List (BitVec 16)) (raw : MorseRaw) :
    Calms raw (ids.foldl (fun raw id => raw.modify id change) raw) := by
  induction ids generalizing raw with
  | nil => exact .refl raw
  | cons id rest ih =>
    exact (calms_modify fun cfg _ _ => same cfg).trans (ih _)

theorem calms_deactivateConfig {raw : MorseRaw} (beacon : cfg.hasBcnIdx = false) :
    Calms raw (raw.deactivateConfig cfg) := by
  rw [deactivateConfig, beacon]
  refine ⟨rfl, rfl, rfl, fun id active => ?_, .refl _, fun new member => ⟨new, member, .refl new⟩⟩
  rw [isConfigActive_iff] at active ⊢
  exact active.imp (fun held => (List.mem_filter.mp held).1)
    fun held => (List.mem_filter.mp held).1

theorem calms_startPrawTransmission (raw : MorseRaw) (dtimPeriod : BitVec 8) (newConfig : Bool) :
    Calms raw (raw.startPrawTransmission dtimPeriod newConfig) := by
  cases newConfig with
  | false => exact (Calms.refl raw).congr rfl rfl rfl rfl rfl
  | true =>
    exact (calms_foldl_modify SameKind.resetOffset raw.activePraws raw).congr
      rfl rfl rfl rfl rfl

/-! ## The update work -/

theorem Static.eq_of_id_eq {raw : MorseRaw} (static : raw.Static) (member : cfg ∈ raw.rawConfigList)
    (otherMember : other ∈ raw.rawConfigList) (same : other.id = cfg.id) :
    other = cfg :=
  eq_of_key_eq RawConfig.id member otherMember
    (List.nodup_iff_count.mp static.distinct cfg.id) same

theorem calms_generateRpsIe {raw : MorseRaw} (static : raw.Static)
    (generated : generateRpsIe ids assignments raw = some after) :
    Calms raw after := by
  induction ids generalizing assignments raw with
  | nil =>
    cases generated
    exact (Calms.refl raw).congr rfl rfl rfl rfl rfl
  | cons id rest ih =>
    rw [generateRpsIe] at generated
    split at generated
    · exact ih static generated
    · next config found =>
        obtain ⟨member, same⟩ := findConfigById_eq_some found
        split at generated
        · cases generated
        · next new assignment exact =>
            have stored : Calms raw (raw.modify id fun _ => new) := by
              refine calms_modify fun cfg held equal => ?_
              rw [static.eq_of_id_eq member held (equal.trans same.symm)]
              exact .generateAssignment exact
            exact stored.trans (ih (stored.static static) generated)

theorem calms_updatePraw {raw : MorseRaw} (static : raw.Static)
    (member : config ∈ raw.rawConfigList) (kickTx : Bool) :
    Calms raw (updatePraw kickTx raw config).2 := by
  have beacon := static.configs config member
  have kept (periodic : Periodic) (same : periodic.validity = config.periodic.validity) :
      Calms raw (raw.modify config.id fun config => { config with periodic := periodic }) := by
    refine calms_modify fun cfg held equal => ?_
    rw [static.eq_of_id_eq member held equal]
    exact ⟨rfl, by simp only [RawConfig.isPeriodic, same], rfl, rfl⟩
  rw [updatePraw]
  split
  · split
    · exact kept _ rfl
    · exact (kept (countBeacon config.periodic).reset rfl).trans (calms_deactivateConfig beacon)
  · exact kept _ rfl

variable {raw : MorseRaw}

theorem calms_updatePrawWalk (static : raw.Static) (ids : List (BitVec 16)) (kickTx : Bool) :
    Calms raw (updatePrawWalk ids kickTx raw).2 := by
  induction ids generalizing raw kickTx with
  | nil => exact .refl raw
  | cons id rest ih =>
    rw [updatePrawWalk]
    split
    · exact ih static kickTx
    · next config found =>
        have turn := calms_updatePraw static (findConfigById_eq_some found).1 kickTx
        exact turn.trans (ih (turn.static static) _)

theorem calms_updatePrawAfterBcn (static : raw.Static) (dtimPeriod : BitVec 8) :
    Calms raw (raw.updatePrawAfterBcn dtimPeriod) := by
  have walked := calms_updatePrawWalk static raw.activePraws false
  rw [updatePrawAfterBcn]
  split
  · next exact =>
      rw [exact] at walked
      exact walked.trans (calms_startPrawTransmission _ dtimPeriod false)
  · next exact =>
      rw [exact] at walked
      exact walked

theorem calms_updateBeacon (static : raw.Static) (dtimPeriod : BitVec 8) :
    Calms raw (raw.updateBeacon dtimPeriod).2 := by
  rw [updateBeacon]
  split
  · have idle : { raw with beaconSent := false }.countDynamic = { raw with beaconSent := false } :=
      if_neg (static.numDynamic ▸ Int.lt_irrefl 0)
    have noted : Calms raw { raw with beaconSent := false } :=
      (Calms.refl raw).congr rfl rfl rfl rfl rfl
    rw [idle, countStatic]
    split
    · have updated := noted.trans (calms_updatePrawAfterBcn (noted.static static) dtimPeriod)
      dsimp only
      split
      · exact updated.congr rfl rfl rfl rfl rfl
      · exact updated
    · exact noted
  · exact .refl raw

theorem calms_doUpdate {raw : MorseRaw} (static : raw.Static)
    (updated : raw.doUpdate dtimPeriod aids = some after) :
    Calms raw after := by
  rw [doUpdate] at updated
  split at updated
  · have refreshed : Calms raw (raw.updateStations dtimPeriod aids) := by
      rw [updateStations]
      split
      · have listed : Calms raw { raw with refreshAids := false, aidList := some aids } :=
          (Calms.refl raw).congr rfl rfl rfl rfl rfl
        have indexed := calms_foldl_modify (SameKind.refreshIndexes aids) raw.activeRaws
          { raw with refreshAids := false, aidList := some aids }
        exact (listed.trans indexed).trans (calms_startPrawTransmission _ dtimPeriod false)
      · exact .refl raw
    have counted := refreshed.trans (calms_updateBeacon (refreshed.static static) dtimPeriod)
    rw [updateRpsIe] at updated
    split at updated
    · cases updated
      exact counted.congr rfl rfl rfl rfl rfl
    · exact counted.trans (calms_generateRpsIe (counted.static static) updated)
  · cases updated
    exact (Calms.refl raw).congr rfl rfl rfl rfl rfl

/-! ## Commands -/

/-- The command is about a single configuration. -/
def Single (group : ConfigGroup) : Prop :=
  group.id < rawInternalIdOffset ∧ group.id ≠ 0

instance (group : ConfigGroup) : Decidable (Single group) :=
  inferInstanceAs (Decidable (_ ∧ _))

/-- The configuration that a command enables under its identifier. -/
def Enables (raw : MorseRaw) (group : ConfigGroup) (new : RawConfig) : Prop :=
  group.enable = true ∧
    if group.update then
      ∃ old created cfg, raw.createOrFindById group.memory group.id = some (old, created) ∧
        morseRawCmdToConfig group.tlvs old = some (true, cfg) ∧ new = cfg.insertAt u16Max
    else
      group.delete = false ∧
        ∃ old, raw.findConfigById group.id = some old ∧ new = old.insertAt u16Max

/-- RAW is enabled when the command is done. -/
def EnabledAfter (raw : MorseRaw) (group : ConfigGroup) : Prop :=
  if group.id = 0 then group.enable = true else raw.enabled = true

/-- Among the active configurations that the command leaves or enables, some
varies. -/
def VariesAfter (raw : MorseRaw) (group : ConfigGroup) : Prop :=
  if Single group then
    (∃ cfg ∈ raw.rawConfigList, cfg.id ≠ group.id ∧ raw.isConfigActive cfg.id = true ∧
      cfg.Varies) ∨ ∃ new, raw.Enables group new ∧ new.Varies
  else (group.id = 0 → group.delete = false) ∧ raw.VaryingActive

/-- Among the configurations that the command leaves or links, some is in the
list of periodic ones. -/
def PeriodicAfter (raw : MorseRaw) (group : ConfigGroup) : Prop :=
  if Single group then
    (∃ id ∈ raw.activePraws, id ≠ group.id) ∨
      ∃ new, raw.Enables group new ∧
        if raw.isConfigActive group.id then group.id ∈ raw.activePraws
        else new.isPeriodic = true
  else (group.id = 0 → group.delete = false) ∧ raw.activePraws ≠ []

/-- What a configuration group does, as far as the flag depends on it. -/
structure Effect (raw : MorseRaw) (group : ConfigGroup) (after : MorseRaw) : Prop where
  static : after.Static
  enabled : after.enabled = true → raw.EnabledAfter group
  varies : after.VaryingActive → raw.VariesAfter group
  periodic : raw.PeriodicAfter group → after.activePraws ≠ []

theorem effect_of_unknown {raw : MorseRaw} (static : raw.Static) (single : Single group)
    (unknown : ∀ cfg ∈ raw.rawConfigList, cfg.id ≠ group.id)
    (nothing : ∀ new, ¬ raw.Enables group new) :
    Effect raw group raw where
  static := static
  enabled := fun enabled => by
    rw [EnabledAfter, if_neg single.2]
    exact enabled
  varies := by
    rintro ⟨cfg, member, active, varies⟩
    rw [VariesAfter, if_pos single]
    exact .inl ⟨cfg, member, unknown cfg member, active, varies⟩
  periodic := fun periodic => by
    rw [PeriodicAfter, if_pos single] at periodic
    rcases periodic with ⟨id, member, -⟩ | ⟨new, enables, -⟩
    · exact List.ne_nil_of_mem member
    · exact absurd enables (nothing new)

theorem applyConfig_rawConfigList (raw : MorseRaw) (new : RawConfig) (enable : Bool) :
    (raw.applyConfig new enable).rawConfigList =
      raw.rawConfigList.map fun config => if config.id = new.id then new else config := by
  cases enable with
  | true => exact activateConfig_rawConfigList _ _
  | false => exact deactivateConfig_rawConfigList _ _

theorem applyConfig_flags (raw : MorseRaw) (beacon : new.hasBcnIdx = false) (enable : Bool) :
    (raw.applyConfig new enable).enabled = raw.enabled ∧
      (raw.applyConfig new enable).numDynamic = raw.numDynamic := by
  simp only [applyConfig, activateConfig, deactivateConfig, beacon]
  cases enable with
  | true =>
    cases (raw.modify new.id fun _ => new).isConfigActive new.id <;> cases new.isPeriodic <;>
      exact ⟨rfl, rfl⟩
  | false => exact ⟨rfl, rfl⟩

theorem sameLinks_applyConfig (raw : MorseRaw) (new : RawConfig) (enable : Bool) :
    SameLinks new.id raw (raw.applyConfig new enable) := by
  cases enable with
  | true =>
    have links := sameLinks_activateConfig (raw.modify new.id fun _ => new) new
    exact ⟨links.raws, links.praws⟩
  | false =>
    have links := sameLinks_deactivateConfig (raw.modify new.id fun _ => new) new
    exact ⟨links.raws, links.praws⟩

theorem isConfigActive_applyConfig (raw : MorseRaw) (new : RawConfig) (enable : Bool) :
    (raw.applyConfig new enable).isConfigActive new.id = enable := by
  cases enable with
  | true => exact isConfigActive_activateConfig _ new
  | false => exact isConfigActive_deactivateConfig _ new

theorem mem_activePraws_applyConfig {raw : MorseRaw}
    (linked : if raw.isConfigActive new.id then new.id ∈ raw.activePraws
      else new.isPeriodic = true) :
    new.id ∈ (raw.applyConfig new true).activePraws := by
  rw [applyConfig]
  cases active : raw.isConfigActive new.id with
  | true =>
    rw [active] at linked
    have stays : (raw.modify new.id fun _ => new).isConfigActive new.id = true := active
    rw [activateConfig, if_pos stays]
    exact linked
  | false =>
    rw [active] at linked
    have idle : (raw.modify new.id fun _ => new).isConfigActive new.id = false := active
    exact (mem_activateConfig idle new.id).2.mpr (.inr ⟨rfl, linked⟩)

/-- A state that has the configuration of some identifier besides the others. -/
structure Stores (id : BitVec 16) (raw created : MorseRaw) : Prop where
  distinct : (created.rawConfigList.map RawConfig.id).Nodup
  enabled : created.enabled = raw.enabled
  numDynamic : created.numDynamic = raw.numDynamic
  raws : created.activeRaws = raw.activeRaws
  praws : created.activePraws = raw.activePraws
  others : ∀ cfg ∈ created.rawConfigList, cfg.id ≠ id → cfg ∈ raw.rawConfigList

theorem Static.stores {raw : MorseRaw} (static : raw.Static) (id : BitVec 16) :
    Stores id raw raw :=
  ⟨static.distinct, rfl, rfl, rfl, rfl, fun _ held _ => held⟩

theorem Static.createOrFindById {raw : MorseRaw} {id : BitVec 16} (static : raw.Static)
    (found : raw.createOrFindById memory id = some (config, created)) :
    Stores id raw created ∧ config.id = id := by
  rcases createOrFindById_cases found with
    ⟨member, same, rfl⟩ | ⟨unknown, rfl, configs, permuted, rfl⟩
  · exact ⟨static.stores id, same⟩
  · refine ⟨⟨?_, rfl, rfl, rfl, rfl, fun cfg held apart => ?_⟩, rfl⟩
    · exact (permuted.map RawConfig.id).nodup_iff.mpr
        (List.nodup_cons.mpr ⟨unknown, static.distinct⟩)
    · rcases List.mem_cons.mp (permuted.mem_iff.mp held) with rfl | known
      · exact absurd rfl apart
      · exact known

theorem effect_applyConfig {raw : MorseRaw} (static : raw.Static) (single : Single group)
    (stores : Stores group.id raw created) (id : new.id = group.id) (beacon : new.hasBcnIdx = false)
    (enables : enable = true → raw.Enables group new)
    (only : ∀ other, raw.Enables group other → enable = true ∧ other = new) :
    Effect raw group (created.applyConfig new enable) := by
  have configs := applyConfig_rawConfigList created new enable
  have kept := applyConfig_flags created beacon enable
  have links := sameLinks_applyConfig created new enable
  have active : created.isConfigActive = raw.isConfigActive := by
    funext id
    rw [isConfigActive, isConfigActive, stores.raws, stores.praws]
  have members (cfg : RawConfig) (held : cfg ∈ (created.applyConfig new enable).rawConfigList) :
      cfg = new ∨ (cfg ∈ raw.rawConfigList ∧ cfg.id ≠ new.id) := by
    rw [configs] at held
    obtain ⟨config, known, equal⟩ := List.mem_map.mp held
    split at equal
    · exact .inl equal.symm
    · next apart => exact .inr (equal ▸ ⟨stores.others config known (id ▸ apart), apart⟩)
  have numDynamic := (kept.2.trans stores.numDynamic).trans static.numDynamic
  refine ⟨⟨?_, fun cfg held => ?_, numDynamic⟩, fun enabled => ?_, ?_, fun periodic => ?_⟩
  · have ids : new.id = new.id := rfl
    rw [configs, map_id_modify ids]
    exact stores.distinct
  · rcases members cfg held with rfl | ⟨known, -⟩
    · exact beacon
    · exact static.configs cfg known
  · rw [EnabledAfter, if_neg single.2, ← stores.enabled, ← kept.1]
    exact enabled
  · rintro ⟨cfg, held, linked, varies⟩
    rw [VariesAfter, if_pos single]
    rcases members cfg held with rfl | ⟨known, apart⟩
    · rw [isConfigActive_applyConfig] at linked
      exact .inr ⟨cfg, enables linked, varies⟩
    · rw [links.isConfigActive apart, active] at linked
      exact .inl ⟨cfg, known, id ▸ apart, linked, varies⟩
  · rw [PeriodicAfter, if_pos single] at periodic
    rcases periodic with ⟨other, member, apart⟩ | ⟨other, enables, linked⟩
    · refine List.ne_nil_of_mem ((links.praws other (id ▸ apart)).mpr ?_)
      rw [stores.praws]
      exact member
    · obtain ⟨rfl, rfl⟩ := only other enables
      rw [← id, ← active, ← stores.praws] at linked
      exact List.ne_nil_of_mem (mem_activePraws_applyConfig linked)

theorem calms_deleteConfig (raw : MorseRaw) (beacon : cfg.hasBcnIdx = false) :
    Calms raw (raw.deleteConfig cfg) := by
  have switched :
      Calms raw (if raw.isConfigActive cfg.id then raw.deactivateConfig cfg else raw) := by
    split
    · exact calms_deactivateConfig beacon
    · exact .refl raw
  refine ⟨switched.enabled, switched.updateEachBeacon, switched.numDynamic, switched.links, ?_, ?_⟩
  · exact (List.filter_sublist.map _).trans switched.ids
  · exact fun new held => switched.configs new (List.mem_filter.mp held).1

theorem sameLinks_deleteConfig (raw : MorseRaw) (cfg : RawConfig) :
    SameLinks cfg.id raw (raw.deleteConfig cfg) := by
  rw [deleteConfig]
  have links := sameLinks_deactivateConfig raw cfg
  cases raw.isConfigActive cfg.id with
  | true => exact ⟨links.raws, links.praws⟩
  | false => exact ⟨fun _ _ => Iff.rfl, fun _ _ => Iff.rfl⟩

theorem calms_foldl_deleteConfig (raw : MorseRaw) {configs : List RawConfig}
    (beacons : ∀ cfg ∈ configs, cfg.hasBcnIdx = false) :
    Calms raw (configs.foldl deleteConfig raw) ∧
      ∀ cfg ∈ (configs.foldl deleteConfig raw).rawConfigList,
        cfg ∈ raw.rawConfigList ∧ ∀ other ∈ configs, cfg.id ≠ other.id := by
  induction configs generalizing raw with
  | nil => exact ⟨.refl raw, fun cfg held => ⟨held, fun _ member => by cases member⟩⟩
  | cons cfg rest ih =>
    have deleted := calms_deleteConfig raw (beacons cfg List.mem_cons_self)
    obtain ⟨others, left⟩ := ih (raw.deleteConfig cfg)
      fun other later => beacons other (List.mem_cons_of_mem _ later)
    refine ⟨deleted.trans others, fun other held => ?_⟩
    obtain ⟨kept, apart⟩ := left other held
    rw [deleteConfig_rawConfigList, List.mem_filter] at kept
    refine ⟨kept.1, fun removed member => ?_⟩
    rcases List.mem_cons.mp member with rfl | later
    · exact of_decide_eq_true kept.2
    · exact apart removed later

theorem effect_processGlobal {raw : MorseRaw} (static : raw.Static) (zero : group.id = 0) :
    Effect raw group (raw.processGlobal group) := by
  have global : ¬ Single group := fun single => single.2 zero
  have switched : { raw with enabled := group.enable }.Static :=
    ⟨static.distinct, static.configs, static.numDynamic⟩
  rw [processGlobal]
  split
  · next delete =>
      obtain ⟨calms, left⟩ := calms_foldl_deleteConfig { raw with enabled := group.enable }
        static.configs
      refine ⟨calms.static switched, fun enabled => ?_, ?_, fun periodic => ?_⟩
      · rw [EnabledAfter, if_pos zero]
        exact calms.enabled.symm.trans enabled
      · rintro ⟨cfg, held, -, -⟩
        obtain ⟨known, apart⟩ := left cfg held
        exact absurd rfl (apart cfg known)
      · rw [PeriodicAfter, if_neg global, delete] at periodic
        cases periodic.1 zero
  · next kept =>
      refine ⟨switched, fun enabled => ?_, fun varying => ?_, fun periodic => ?_⟩
      · rw [EnabledAfter, if_pos zero]
        exact enabled
      · rw [VariesAfter, if_neg global]
        exact ⟨fun _ => Bool.not_eq_true _ ▸ kept, varying⟩
      · rw [PeriodicAfter, if_neg global] at periodic
        exact periodic.2

theorem effect_deleteConfig {raw : MorseRaw} (static : raw.Static) (single : Single group)
    (member : old ∈ raw.rawConfigList) (id : old.id = group.id)
    (nothing : ∀ new, ¬ raw.Enables group new) :
    Effect raw group (raw.deleteConfig old) := by
  have calms := calms_deleteConfig raw (static.configs old member)
  refine ⟨calms.static static, fun enabled => ?_, ?_, fun periodic => ?_⟩
  · rw [EnabledAfter, if_neg single.2]
    exact calms.enabled.symm.trans enabled
  · rintro ⟨cfg, held, active, varies⟩
    rw [VariesAfter, if_pos single]
    rw [deleteConfig_rawConfigList, List.mem_filter] at held
    exact .inl ⟨cfg, held.1, id ▸ of_decide_eq_true held.2, calms.links _ active, varies⟩
  · rw [PeriodicAfter, if_pos single] at periodic
    rcases periodic with ⟨other, linked, apart⟩ | ⟨new, enables, -⟩
    · exact List.ne_nil_of_mem (((sameLinks_deleteConfig raw old).praws other (id ▸ apart)).mpr
        linked)
    · exact absurd enables (nothing new)

theorem effect_processConfigGroup {raw : MorseRaw} (static : raw.Static)
    (beacon : group.beaconIdx = u16Max)
    (processed : raw.processConfigGroup group = some (ret, after)) :
    Effect raw group after := by
  have stamped (cfg : RawConfig) : (cfg.insertAt group.beaconIdx).hasBcnIdx = false := by
    rw [beacon]
    rfl
  rw [processConfigGroup] at processed
  split at processed
  · next large =>
      cases processed
      have global : ¬ Single group := fun single => BitVec.not_lt.mpr large single.1
      have some : group.id ≠ 0 := by
        intro zero
        rw [zero] at large
        exact absurd large (by decide)
      refine ⟨static, fun enabled => ?_, fun varying => ?_, fun periodic => ?_⟩
      · rw [EnabledAfter, if_neg some]
        exact enabled
      · rw [VariesAfter, if_neg global]
        exact ⟨fun zero => absurd zero some, varying⟩
      · rw [PeriodicAfter, if_neg global] at periodic
        exact periodic.2
  · next small =>
      split at processed
      · next zero =>
          cases processed
          exact effect_processGlobal static zero
      · next some =>
          have single : Single group := ⟨BitVec.not_le.mp small, some⟩
          split at processed
          · next update =>
              split at processed
              · next missing =>
                  cases processed
                  refine effect_of_unknown static single (fun cfg member same => ?_) ?_
                  · rw [createOrFindById] at missing
                    split at missing
                    · cases missing
                    · next absent =>
                        have differs := List.find?_eq_none.mp absent cfg member
                        simp [same] at differs
                  · rintro new ⟨-, enables⟩
                    rw [if_pos update, missing] at enables
                    obtain ⟨_, _, _, found, -⟩ := enables
                    cases found
              · next old created found =>
                  obtain ⟨stores, same⟩ := static.createOrFindById found
                  split at processed
                  · cases processed
                  · next new parsed =>
                      cases processed
                      have kept : new.id = old.id := cmdToConfig_id parsed
                      have id : (new.insertAt group.beaconIdx).id = group.id := kept.trans same
                      refine effect_applyConfig static single stores id (stamped new)
                        (fun enable => ⟨enable, ?_⟩) fun other enables => ⟨enables.1, ?_⟩
                      · rw [if_pos update, beacon]
                        exact ⟨old, created, new, found, parsed, rfl⟩
                      · have stored := enables.2
                        rw [if_pos update, found] at stored
                        obtain ⟨_, _, cfg, equal, valid, rfl⟩ := stored
                        cases equal
                        rw [parsed] at valid
                        cases valid
                        rw [beacon]
                  · next new parsed =>
                      cases processed
                      have kept : new.id = old.id := cmdToConfig_id parsed
                      have id : (new.insertAt group.beaconIdx).id = group.id := kept.trans same
                      refine effect_applyConfig static single stores id (stamped new)
                        (fun enable => by cases enable) fun other enables => ?_
                      have stored := enables.2
                      rw [if_pos update, found] at stored
                      obtain ⟨_, _, cfg, equal, valid, -⟩ := stored
                      cases equal
                      rw [parsed] at valid
                      cases valid
          · next lookup =>
              split at processed
              · next absent =>
                  cases processed
                  refine effect_of_unknown static single (fun cfg member same => ?_) ?_
                  · have differs := List.find?_eq_none.mp absent cfg member
                    simp [same] at differs
                  · rintro new ⟨-, enables⟩
                    rw [if_neg lookup] at enables
                    obtain ⟨-, _, found, -⟩ := enables
                    rw [absent] at found
                    cases found
              · next old found =>
                  obtain ⟨member, same⟩ := findConfigById_eq_some found
                  split at processed
                  · next delete =>
                      cases processed
                      refine effect_deleteConfig static single member same ?_
                      rintro new ⟨-, enables⟩
                      rw [if_neg lookup, delete] at enables
                      cases enables.1
                  · next kept =>
                      cases processed
                      have id : (old.insertAt group.beaconIdx).id = group.id := same
                      refine effect_applyConfig static single (static.stores group.id) id
                        (stamped old) (fun enable => ⟨enable, ?_⟩) fun other enables =>
                          ⟨enables.1, ?_⟩
                      · rw [if_neg lookup, beacon]
                        exact ⟨Bool.not_eq_true _ ▸ kept, old, found, rfl⟩
                      · have stored := enables.2
                        rw [if_neg lookup] at stored
                        obtain ⟨-, other, equal, rfl⟩ := stored
                        rw [found] at equal
                        cases equal
                        rw [beacon]

/-- The condition of a static command: if it leaves RAW enabled and a varying
configuration active, a periodic one is linked. -/
def Covers (raw : MorseRaw) (group : ConfigGroup) : Prop :=
  raw.EnabledAfter group → raw.VariesAfter group → raw.PeriodicAfter group

theorem refreshed_processStaticCmd {raw : MorseRaw} (static : raw.Static)
    (covers : raw.Covers { group with beaconIdx := u16Max })
    (processed : raw.processStaticCmd dtimPeriod stray group = some after) :
    after.Static ∧ after.Refreshed := by
  have idle : raw.dynamicRawInit = raw := if_neg (static.numDynamic ▸ Int.lt_irrefl 0)
  rw [processStaticCmd, idle] at processed
  split at processed
  · cases processed
  · next ret grouped exact =>
      cases processed
      have effect := effect_processConfigGroup static rfl exact
      have decided : (grouped.decideUpdateEachBeacon dtimPeriod stray).Static ∧
          (grouped.decideUpdateEachBeacon dtimPeriod stray).Refreshed := by
        rw [decideUpdateEachBeacon]
        split
        · have announced := calms_startPrawTransmission { grouped with updateEachBeacon := false }
            dtimPeriod true
          have kept := announced.static ⟨effect.static.distinct, effect.static.configs,
            effect.static.numDynamic⟩
          exact ⟨⟨kept.distinct, kept.configs, kept.numDynamic⟩, fun _ _ => rfl⟩
        · next none =>
            refine ⟨⟨effect.static.distinct, effect.static.configs, effect.static.numDynamic⟩,
              fun enabled varying => ?_⟩
            exact absurd (effect.periodic (covers (effect.enabled enabled)
              (effect.varies varying))) none
      rw [triggerUpdate]
      split
      · exact decided
      · split
        · exact ⟨⟨decided.1.distinct, decided.1.configs, decided.1.numDynamic⟩, decided.2⟩
        · exact decided

/-- The condition of a step: a command is static and covered. -/
def CoversEach (raw : MorseRaw) : Action → Prop
  | .staticCmd _ _ group => raw.Covers { group with beaconIdx := u16Max }
  | .dynamicCmd _ => False
  | _ => True

/-- What a static command does depends on no memory outside the configurations. -/
def DecidesByFields (raw : MorseRaw) (dtimPeriod : BitVec 8) (group : ConfigGroup) : Prop :=
  ∀ stray other, raw.processStaticCmd dtimPeriod stray group =
    raw.processStaticCmd dtimPeriod other group

/-- The scan of a static command visits no configuration: the command leaves a
periodic one linked, or no other one. -/
def ScansNothing (raw : MorseRaw) (group : ConfigGroup) : Prop :=
  ∀ ret after,
    raw.dynamicRawInit.processConfigGroup { group with beaconIdx := u16Max } = some (ret, after) →
      after.activePraws = [] → after.activeRaws = []

theorem updateEachBeacon_triggerUpdate (raw : MorseRaw) (refreshAids : Bool) :
    (raw.triggerUpdate refreshAids).updateEachBeacon = raw.updateEachBeacon := by
  rw [triggerUpdate]
  split
  · rfl
  · split <;> rfl

theorem decidesByFields_iff (raw : MorseRaw) (dtimPeriod : BitVec 8) (group : ConfigGroup) :
    raw.DecidesByFields dtimPeriod group ↔ raw.ScansNothing group := by
  constructor
  · intro decides ret after grouped none
    have same := decides (fun _ => 0) (fun _ => 1)
    rw [processStaticCmd, processStaticCmd, grouped] at same
    have flags := congrArg updateEachBeacon (Option.some.inj same)
    rw [updateEachBeacon_triggerUpdate, updateEachBeacon_triggerUpdate, decideUpdateEachBeacon,
      decideUpdateEachBeacon, if_neg (not_not.mpr none), if_neg (not_not.mpr none)] at flags
    cases linked : after.activeRaws with
    | nil => rfl
    | cons id rest =>
      simp [linked] at flags
  · intro scans stray other
    rw [processStaticCmd, processStaticCmd]
    split
    · rfl
    · next ret after grouped =>
        rw [decideUpdateEachBeacon, decideUpdateEachBeacon]
        by_cases none : after.activePraws = []
        · rw [scans ret after grouped none]
          rfl
        · rw [if_pos none, if_pos none]

/-- In every run of static commands, beacons, changes of the stations and update
work whose commands meet their condition, the element is generated after every
beacon whenever it has to be; and the scan of a command stays within the
configurations exactly if it visits none. -/
theorem refreshed_of_reaches {enable : Bool} {raw : MorseRaw}
    (reaches : Reaches step CoversEach (init enable) raw) :
    raw.Refreshed ∧ ∀ dtimPeriod group,
      raw.DecidesByFields dtimPeriod group ↔ raw.ScansNothing group := by
  have initial : (init enable).Static ∧ (init enable).Refreshed :=
    ⟨⟨List.nodup_nil, (fun _ member => by cases member), rfl⟩,
      (by rintro _ ⟨_, member, _⟩; cases member)⟩
  have kept : raw.Static ∧ raw.Refreshed := by
    refine @Reaches.invariant _ _ step CoversEach (init enable) raw
      (fun raw => raw.Static ∧ raw.Refreshed) initial ?_ reaches
    intro before action after holds covers taken
    cases action with
    | staticCmd => exact refreshed_processStaticCmd holds.1 covers taken
    | dynamicCmd => exact covers.elim
    | beacon =>
      cases taken
      rw [rawBeaconSent]
      split
      · exact ⟨⟨holds.1.distinct, holds.1.configs, holds.1.numDynamic⟩, holds.2⟩
      · exact holds
    | stations =>
      cases taken
      rw [triggerUpdate]
      split
      · exact holds
      · split
        · exact ⟨⟨holds.1.distinct, holds.1.configs, holds.1.numDynamic⟩, holds.2⟩
        · exact holds
    | update =>
      have calms := calms_doUpdate holds.1 taken
      exact ⟨calms.static holds.1, calms.refreshed holds.2⟩
  exact ⟨kept.2, raw.decidesByFields_iff⟩

/-- A command that sets up and enables configuration 1 with its stations spread
over beacons, and with a periodic window or not. -/
def spreadOut (periodic : Bool) : ConfigGroup where
  id := 1
  enable := true
  delete := false
  update := true
  beaconIdx := u16Max
  tlvs := [.slotDef 4000 2 0, .group 1 10, .bcnSpread 0 2] ++
    if periodic then [.praw 4 10 0 1] else []
  memory := true

/-- The state after the command. -/
def afterSpread (periodic : Bool) : MorseRaw :=
  ((init true).processStaticCmd 1 (fun _ => 0) (spreadOut periodic)).getD (init true)

theorem refreshed_of_reaches_afterSpread :
    (afterSpread true).Refreshed ∧ ∀ dtimPeriod group,
      (afterSpread true).DecidesByFields dtimPeriod group ↔
        (afterSpread true).ScansNothing group := by
  have reaches : Reaches step CoversEach (init true) (afterSpread true) := by
    refine Reaches.of_run [.staticCmd 1 (fun _ => 0) (spreadOut true)] ⟨?_, trivial⟩ rfl
    intro _ _
    exact .inr ⟨_, ⟨rfl, _, _, _, rfl, rfl, rfl⟩, rfl⟩
  exact refreshed_of_reaches reaches

theorem not_refreshed_afterSpread :
    Reaches step (fun _ _ => True) (init true) (afterSpread false) ∧
      ¬ (afterSpread false).Refreshed := by
  refine ⟨Reaches.of_run [.staticCmd 1 (fun _ => 0) (spreadOut false)] ⟨trivial, trivial⟩ rfl,
    fun refreshed => ?_⟩
  have flag : (afterSpread false).updateEachBeacon = true :=
    refreshed rfl ⟨_, List.mem_cons_self, rfl, .inr (by decide)⟩
  revert flag
  decide

end MorseRaw
end Raw
end Morse
