import Morse.Raw.Bookkeeping

/-!
# What spares a configuration

Most of what happens to the state leaves a given configuration linked as it was,
with its periodic fields and its kind.  This holds of the commands for other
configurations and of the generation of the element.
-/

namespace Morse
namespace Raw

open Lib

namespace MorseRaw

/-- Identifiers are distinct, and none is linked twice among the periodic ones. -/
structure Listed (raw : MorseRaw) : Prop where
  distinct : (raw.rawConfigList.map RawConfig.id).Nodup
  linkedOnce : raw.activePraws.Nodup

/-- A configuration of the same identifier, kind and periodic fields. -/
structure SamePeriod (old new : RawConfig) : Prop where
  id : new.id = old.id
  beacon : new.hasBcnIdx = old.hasBcnIdx
  periodic : new.periodic = old.periodic

theorem SamePeriod.refl (cfg : RawConfig) : SamePeriod cfg cfg := ⟨rfl, rfl, rfl⟩

theorem SamePeriod.trans (before : SamePeriod first second) (after : SamePeriod second third) :
    SamePeriod first third :=
  ⟨after.id.trans before.id, after.beacon.trans before.beacon,
    after.periodic.trans before.periodic⟩

/-- A change of the state that spares the configuration of an identifier. -/
structure Spares (id : BitVec 16) (before after : MorseRaw) : Prop where
  listed : before.Listed → after.Listed
  raws : id ∈ after.activeRaws ↔ id ∈ before.activeRaws
  praws : id ∈ after.activePraws ↔ id ∈ before.activePraws
  stored : ∀ cfg ∈ before.rawConfigList, cfg.id = id →
    ∃ kept ∈ after.rawConfigList, SamePeriod cfg kept

theorem Spares.refl (id : BitVec 16) (raw : MorseRaw) : Spares id raw raw where
  listed := fun listed => listed
  raws := Iff.rfl
  praws := Iff.rfl
  stored := fun cfg member _ => ⟨cfg, member, .refl cfg⟩

theorem Spares.trans {id : BitVec 16} (before : Spares id first second)
    (after : Spares id second third) :
    Spares id first third where
  listed := fun listed => after.listed (before.listed listed)
  raws := after.raws.trans before.raws
  praws := after.praws.trans before.praws
  stored := fun cfg member own => by
    obtain ⟨middle, known, same⟩ := before.stored cfg member own
    obtain ⟨last, kept, again⟩ := after.stored middle known (same.id.trans own)
    exact ⟨last, kept, same.trans again⟩

theorem Spares.of_lists (id : BitVec 16) (configs : after.rawConfigList = before.rawConfigList)
    (raws : after.activeRaws = before.activeRaws) (praws : after.activePraws = before.activePraws) :
    Spares id before after where
  listed := fun listed => ⟨configs ▸ listed.distinct, praws ▸ listed.linkedOnce⟩
  raws := by rw [raws]
  praws := by rw [praws]
  stored := fun cfg member _ => ⟨cfg, configs ▸ member, .refl cfg⟩

/-! ## Single steps -/

theorem map_id_modify_of_id {raw : MorseRaw} {id : BitVec 16} {change : RawConfig → RawConfig}
    (ids : ∀ cfg ∈ raw.rawConfigList, cfg.id = id → (change cfg).id = cfg.id) :
    (raw.modify id change).rawConfigList.map RawConfig.id = raw.rawConfigList.map RawConfig.id := by
  rw [modify_rawConfigList, List.map_map]
  refine List.map_congr_left fun cfg member => ?_
  rw [Function.comp_apply]
  split
  · next own => exact ids cfg member own
  · rfl

theorem spares_modify {raw : MorseRaw} {id other : BitVec 16} {change : RawConfig → RawConfig}
    (ids : ∀ cfg ∈ raw.rawConfigList, cfg.id = other → (change cfg).id = cfg.id)
    (same : other = id → ∀ cfg ∈ raw.rawConfigList, cfg.id = other →
      SamePeriod cfg (change cfg)) :
    Spares id raw (raw.modify other change) where
  listed := fun listed => ⟨by
    rw [map_id_modify_of_id ids]
    exact listed.distinct, listed.linkedOnce⟩
  raws := Iff.rfl
  praws := Iff.rfl
  stored := fun cfg member own => by
    refine ⟨_, List.mem_map.mpr ⟨cfg, member, rfl⟩, ?_⟩
    split
    · next equal => exact same (equal.symm.trans own) cfg member equal
    · exact .refl cfg

theorem spares_foldl_modify {id : BitVec 16} {change : RawConfig → RawConfig}
    (same : ∀ cfg, SamePeriod cfg (change cfg)) (ids : List (BitVec 16)) (raw : MorseRaw) :
    Spares id raw (ids.foldl (fun raw other => raw.modify other change) raw) := by
  induction ids generalizing raw with
  | nil => exact .refl id raw
  | cons other rest ih =>
    exact (spares_modify (fun cfg _ _ => (same cfg).id) fun _ cfg _ _ => same cfg).trans
      (ih _)

theorem nodup_listAddSorted {id : BitVec 16} (distinct : ids.Nodup) (fresh : id ∉ ids) :
    (listAddSorted id ids).Nodup := by
  induction ids with
  | nil => exact List.nodup_cons.mpr ⟨List.not_mem_nil, List.nodup_nil⟩
  | cons first rest ih =>
    obtain ⟨apart, restDistinct⟩ := List.nodup_cons.mp distinct
    obtain ⟨other, restFresh⟩ := not_or.mp (mt List.mem_cons.mpr fresh)
    rw [listAddSorted]
    split
    · exact List.nodup_cons.mpr ⟨fresh, distinct⟩
    · refine List.nodup_cons.mpr ⟨?_, ih restDistinct restFresh⟩
      rw [mem_listAddSorted, not_or]
      exact ⟨fun same => other same.symm, apart⟩

variable {raw : MorseRaw}

theorem listed_activateConfig (listed : raw.Listed) (cfg : RawConfig) :
    (raw.activateConfig cfg).Listed := by
  refine ⟨by rw [activateConfig_rawConfigList]; exact listed.distinct, ?_⟩
  rw [activateConfig]
  split
  · exact listed.linkedOnce
  · next inactive =>
      have fresh : cfg.id ∉ raw.activePraws := fun linked =>
        inactive (isConfigActive_iff.mpr (.inr linked))
      cases cfg.isPeriodic <;> cases cfg.hasBcnIdx
      · exact listed.linkedOnce
      · exact listed.linkedOnce
      · exact nodup_listAddSorted listed.linkedOnce fresh
      · exact nodup_listAddSorted listed.linkedOnce fresh

theorem listed_deactivateConfig (listed : raw.Listed) (cfg : RawConfig) :
    (raw.deactivateConfig cfg).Listed := by
  refine ⟨by rw [deactivateConfig_rawConfigList]; exact listed.distinct, ?_⟩
  rw [deactivateConfig]
  cases cfg.hasBcnIdx <;> exact listed.linkedOnce.filter _

theorem spares_activateConfig {id : BitVec 16} (apart : id ≠ cfg.id) (raw : MorseRaw) :
    Spares id raw (raw.activateConfig cfg) where
  listed := fun listed => listed_activateConfig listed cfg
  raws := (sameLinks_activateConfig raw cfg).raws id apart
  praws := (sameLinks_activateConfig raw cfg).praws id apart
  stored := fun kept member _ =>
    ⟨kept, (activateConfig_rawConfigList raw cfg).symm ▸ member, .refl kept⟩

theorem spares_deactivateConfig {id : BitVec 16} (apart : id ≠ cfg.id) (raw : MorseRaw) :
    Spares id raw (raw.deactivateConfig cfg) where
  listed := fun listed => listed_deactivateConfig listed cfg
  raws := (sameLinks_deactivateConfig raw cfg).raws id apart
  praws := (sameLinks_deactivateConfig raw cfg).praws id apart
  stored := fun kept member _ =>
    ⟨kept, (deactivateConfig_rawConfigList raw cfg).symm ▸ member, .refl kept⟩

theorem spares_applyConfig {id : BitVec 16} (apart : id ≠ new.id) (raw : MorseRaw) (enable : Bool) :
    Spares id raw (raw.applyConfig new enable) := by
  have stored : Spares id raw (raw.modify new.id fun _ => new) :=
    spares_modify (fun _ _ own => own.symm) fun same => absurd same.symm apart
  cases enable with
  | true => exact stored.trans (spares_activateConfig apart _)
  | false => exact stored.trans (spares_deactivateConfig apart _)

theorem listed_deleteConfig (listed : raw.Listed) (cfg : RawConfig) :
    (raw.deleteConfig cfg).Listed := by
  rw [deleteConfig]
  split
  · have inactive := listed_deactivateConfig listed cfg
    exact ⟨inactive.distinct.sublist (List.filter_sublist.map _), inactive.linkedOnce⟩
  · exact ⟨listed.distinct.sublist (List.filter_sublist.map _), listed.linkedOnce⟩

theorem spares_deleteConfig {id : BitVec 16} (apart : id ≠ cfg.id) (raw : MorseRaw) :
    Spares id raw (raw.deleteConfig cfg) := by
  have inactive :
      Spares id raw (if raw.isConfigActive cfg.id then raw.deactivateConfig cfg else raw) := by
    split
    · exact spares_deactivateConfig apart raw
    · exact .refl id raw
  refine ⟨fun listed => listed_deleteConfig listed cfg, inactive.raws, inactive.praws, ?_⟩
  intro kept member own
  obtain ⟨other, known, same⟩ := inactive.stored kept member own
  have apartStill : other.id ≠ cfg.id := fun equal =>
    apart (own.symm.trans (same.id.symm.trans equal))
  exact ⟨other, List.mem_filter.mpr ⟨known, decide_eq_true apartStill⟩, same⟩

theorem listed_dynamicRawInit {raw : MorseRaw} (listed : raw.Listed) :
    raw.dynamicRawInit.Listed := by
  have deleted (configs : List RawConfig) {state : MorseRaw} (before : state.Listed) :
      (configs.foldl deleteConfig state).Listed := by
    induction configs generalizing state with
    | nil => exact before
    | cons cfg rest ih => exact ih (listed_deleteConfig before cfg)
  rw [dynamicRawInit]
  split
  · exact deleted _ ⟨listed.distinct, listed.linkedOnce⟩
  · exact listed

theorem spares_foldl_deleteConfig {id : BitVec 16} {configs : List RawConfig}
    (apart : ∀ cfg ∈ configs, id ≠ cfg.id) (raw : MorseRaw) :
    Spares id raw (configs.foldl deleteConfig raw) := by
  induction configs generalizing raw with
  | nil => exact .refl id raw
  | cons cfg rest ih =>
    obtain ⟨first, later⟩ := List.forall_mem_cons.mp apart
    exact (spares_deleteConfig first raw).trans (ih later _)

theorem spares_createOrFindById
    {id : BitVec 16} {raw created : MorseRaw} {memory : Bool} {other : BitVec 16}
    {config : RawConfig} (found : raw.createOrFindById memory other = some (config, created)) :
    Spares id raw created ∧ config.id = other := by
  rcases createOrFindById_cases found with
    ⟨_, same, rfl⟩ | ⟨unknown, rfl, configs, permuted, rfl⟩
  · exact ⟨.refl id created, same⟩
  · refine ⟨⟨fun listed => ⟨?_, listed.linkedOnce⟩, Iff.rfl, Iff.rfl, fun cfg member _ => ?_⟩, rfl⟩
    · exact (permuted.map RawConfig.id).nodup_iff.mpr
        (List.nodup_cons.mpr ⟨unknown, listed.distinct⟩)
    · exact ⟨cfg, permuted.mem_iff.mpr (List.mem_cons_of_mem _ member), .refl cfg⟩

/-! ## Commands for other configurations -/

/-- A group is not for the configuration, and does not delete all of them. -/
def SparingGroup (id : BitVec 16) (group : ConfigGroup) : Prop :=
  group.id ≠ id ∧ (group.id = 0 → group.delete = false)

theorem spares_processConfigGroup {raw : MorseRaw} {id : BitVec 16}
    (sparing : SparingGroup id group)
    (processed : raw.processConfigGroup group = some (ret, after)) :
    Spares id raw after := by
  obtain ⟨apart, keepsAll⟩ := sparing
  rw [processConfigGroup] at processed
  split at processed
  · cases processed
    exact .refl id _
  · split at processed
    · next zero =>
        cases processed
        rw [processGlobal, if_neg (by rw [keepsAll zero]; exact Bool.false_ne_true)]
        exact .of_lists id rfl rfl rfl
    · split at processed
      · split at processed
        · cases processed
          exact .refl id _
        · next config created found =>
            obtain ⟨kept, own⟩ := @spares_createOrFindById id _ _ _ _ _ found
            split at processed
            · cases processed
            · next new parsed =>
                cases processed
                have same : new.id = group.id := (cmdToConfig_id parsed).trans own
                have other : id ≠ (new.insertAt group.beaconIdx).id := fun equal =>
                  apart (same.symm.trans equal.symm)
                exact kept.trans (spares_applyConfig other _ _)
            · next new parsed =>
                cases processed
                have same : new.id = group.id := (cmdToConfig_id parsed).trans own
                have other : id ≠ (new.insertAt group.beaconIdx).id := fun equal =>
                  apart (same.symm.trans equal.symm)
                exact kept.trans (spares_applyConfig other _ _)
      · split at processed
        · cases processed
          exact .refl id _
        · next config found =>
            obtain ⟨_, own⟩ := findConfigById_eq_some found
            split at processed
            · cases processed
              exact spares_deleteConfig (fun equal => apart (own ▸ equal.symm)) raw
            · cases processed
              have other : id ≠ (config.insertAt group.beaconIdx).id := fun equal =>
                apart (own.symm.trans equal.symm)
              exact spares_applyConfig other raw _

theorem spares_triggerUpdate (id : BitVec 16) (raw : MorseRaw) (refreshAids : Bool) :
    Spares id raw (raw.triggerUpdate refreshAids) := by
  rw [triggerUpdate]
  split
  · exact .refl id raw
  · split
    · exact .of_lists id rfl rfl rfl
    · exact .refl id raw

/-! ## The update work -/

theorem Listed.eq_of_id_eq {raw : MorseRaw} (listed : raw.Listed) (member : cfg ∈ raw.rawConfigList)
    (otherMember : other ∈ raw.rawConfigList) (same : other.id = cfg.id) :
    other = cfg :=
  eq_of_key_eq RawConfig.id member otherMember
    (List.nodup_iff_count.mp listed.distinct cfg.id) same

theorem Listed.findConfigById {raw : MorseRaw} (listed : raw.Listed)
    (member : cfg ∈ raw.rawConfigList) :
    raw.findConfigById cfg.id = some cfg := by
  cases found : raw.findConfigById cfg.id with
  | none =>
    have absent := List.find?_eq_none.mp found cfg member
    exact absurd (beq_self_eq_true cfg.id) absent
  | some other =>
    obtain ⟨otherMember, same⟩ := findConfigById_eq_some found
    rw [listed.eq_of_id_eq member otherMember same]

theorem SamePeriod.generateAssignment
    (generated : Raw.generateAssignment aids config = some (new, assignment)) :
    SamePeriod config new := by
  rw [Raw.generateAssignment] at generated
  dsimp only at generated
  split at generated
  · split at generated
    · cases generated
    · cases generated
      exact ⟨rfl, rfl, rfl⟩
  · cases generated
    exact ⟨rfl, rfl, rfl⟩

theorem SamePeriod.refreshIndexes (aids : List (BitVec 16)) (cfg : RawConfig) :
    SamePeriod cfg (cfg.refreshIndexes aids) := by
  rw [RawConfig.refreshIndexes]
  split
  · rw [updateAidIndexes]
    split
    · exact ⟨rfl, rfl, rfl⟩
    · dsimp only
      split <;> exact ⟨rfl, rfl, rfl⟩
  · exact .refl cfg

theorem generateAssignment_id
    (generated : Raw.generateAssignment aids config = some (new, assignment)) :
    assignment.id = config.id := by
  rw [Raw.generateAssignment] at generated
  dsimp only at generated
  split at generated
  · split at generated
    · cases generated
    · cases generated
      rfl
  · cases generated
    rfl

theorem spares_generateRpsIe {raw : MorseRaw} {id : BitVec 16} (listed : raw.Listed)
    (generated : generateRpsIe ids assignments raw = some after) :
    Spares id raw after := by
  induction ids generalizing assignments raw with
  | nil =>
    cases generated
    exact .of_lists id rfl rfl rfl
  | cons other rest ih =>
    rw [generateRpsIe] at generated
    split at generated
    · exact ih listed generated
    · next config found =>
        obtain ⟨member, own⟩ := findConfigById_eq_some found
        split at generated
        · cases generated
        · next new assignment made =>
            have period := SamePeriod.generateAssignment made
            have changed : Spares id raw (raw.modify other fun _ => new) :=
              spares_modify
                (fun cfg held equal => by rw [period.id, own, equal])
                fun _ cfg held equal => by
                  rw [listed.eq_of_id_eq member held (equal.trans own.symm)]
                  exact period
            exact changed.trans (ih (changed.listed listed) generated)

theorem spares_updateRpsIe {id : BitVec 16} {raw after : MorseRaw} {includePraws : Bool}
    (listed : raw.Listed) (updated : raw.updateRpsIe includePraws = some after) :
    Spares id raw after := by
  rw [updateRpsIe] at updated
  split at updated
  · cases updated
    exact .of_lists id rfl rfl rfl
  · exact spares_generateRpsIe listed updated

theorem spares_updateStations
    (id : BitVec 16) (raw : MorseRaw) (dtimPeriod : BitVec 8) (aids : List (BitVec 16)) :
    Spares id raw (raw.updateStations dtimPeriod aids) := by
  rw [updateStations]
  split
  · have refreshed := @spares_foldl_modify id _ (SamePeriod.refreshIndexes aids) raw.activeRaws
      { raw with refreshAids := false, aidList := some aids }
    have noted : Spares id raw { raw with refreshAids := false, aidList := some aids } :=
      .of_lists id rfl rfl rfl
    exact (noted.trans refreshed).trans (.of_lists id rfl rfl rfl)
  · exact .refl id raw

theorem spares_countDynamic (id : BitVec 16) (raw : MorseRaw) : Spares id raw raw.countDynamic := by
  rw [countDynamic]
  split
  · split <;> exact .of_lists id rfl rfl rfl
  · exact .refl id raw

theorem spares_updatePraw {id : BitVec 16} {config : RawConfig} (apart : config.id ≠ id)
    (kickTx : Bool) (raw : MorseRaw) :
    Spares id raw (updatePraw kickTx raw config).2 := by
  have stored (periodic : Periodic) :
      Spares id raw (raw.modify config.id fun config => { config with periodic := periodic }) :=
    spares_modify (fun _ _ _ => rfl) fun same => absurd same apart
  rw [updatePraw]
  split
  · split
    · exact stored _
    · exact (stored _).trans (spares_deactivateConfig (Ne.symm apart) _)
  · exact stored _

theorem spares_updatePrawWalk {id : BitVec 16} {ids : List (BitVec 16)} (apart : id ∉ ids)
    (kickTx : Bool) (raw : MorseRaw) :
    Spares id raw (updatePrawWalk ids kickTx raw).2 := by
  induction ids generalizing kickTx raw with
  | nil => exact .refl id raw
  | cons other rest ih =>
    obtain ⟨first, later⟩ := not_or.mp (mt List.mem_cons.mpr apart)
    rw [updatePrawWalk]
    split
    · exact ih later kickTx raw
    · next config found =>
        obtain ⟨_, own⟩ := findConfigById_eq_some found
        have turn := @spares_updatePraw id config (fun same => first (same.symm.trans own)) kickTx
          raw
        exact turn.trans (ih later _ _)

theorem updatePrawWalk_append (ids more : List (BitVec 16)) (kickTx : Bool) (raw : MorseRaw) :
    updatePrawWalk (ids ++ more) kickTx raw =
      updatePrawWalk more (updatePrawWalk ids kickTx raw).1 (updatePrawWalk ids kickTx raw).2 := by
  induction ids generalizing kickTx raw with
  | nil => rfl
  | cons id rest ih =>
    rw [List.cons_append, updatePrawWalk, updatePrawWalk]
    cases raw.findConfigById id with
    | none => exact ih kickTx raw
    | some config => exact ih _ _

/-! ## What the element lists -/

theorem isSome_findConfigById_iff {raw : MorseRaw} {id : BitVec 16} :
    (raw.findConfigById id).isSome = true ↔ id ∈ raw.rawConfigList.map RawConfig.id := by
  rw [findConfigById, List.find?_isSome, List.mem_map]
  simp only [beq_iff_eq]

theorem generateRpsIe_ids {raw : MorseRaw} (listed : raw.Listed)
    (generated : generateRpsIe ids assignments raw = some after) :
    ∃ more, after.rpsIe = some (assignments.reverse ++ more) ∧
      more.map Assignment.id = ids.filter fun id => (raw.findConfigById id).isSome := by
  induction ids generalizing assignments raw with
  | nil =>
    cases generated
    exact ⟨[], by rw [List.append_nil], rfl⟩
  | cons other rest ih =>
    rw [generateRpsIe] at generated
    split at generated
    · next absent =>
        obtain ⟨more, element, known⟩ := ih listed generated
        refine ⟨more, element, ?_⟩
        rw [List.filter_cons_of_neg (by rw [absent]; exact Bool.false_ne_true), known]
    · next config found =>
        obtain ⟨member, own⟩ := findConfigById_eq_some found
        split at generated
        · cases generated
        · next new assignment made =>
            have period := SamePeriod.generateAssignment made
            have ids : (raw.modify other fun _ => new).rawConfigList.map RawConfig.id =
                raw.rawConfigList.map RawConfig.id :=
              map_id_modify_of_id fun cfg held equal => by rw [period.id, own, equal]
            have kept : (raw.modify other fun _ => new).Listed :=
              ⟨ids.symm ▸ listed.distinct, listed.linkedOnce⟩
            obtain ⟨more, element, known⟩ := ih kept generated
            refine ⟨assignment :: more, ?_, ?_⟩
            · rw [element, List.reverse_cons, List.append_assoc]
              rfl
            · have same : (fun id => ((raw.modify other fun _ => new).findConfigById id).isSome) =
                  fun id => (raw.findConfigById id).isSome := by
                funext id
                rw [Bool.eq_iff_iff, isSome_findConfigById_iff, isSome_findConfigById_iff, ids]
              rw [List.filter_cons_of_pos (by rw [found]; rfl), List.map_cons, known, same,
                generateAssignment_id made, own]

/-- The element lists a configuration. -/
def announces (raw : MorseRaw) (id : BitVec 16) : Bool :=
  match raw.rpsIe with
  | none => false
  | some assignments => assignments.any fun assignment => assignment.id == id

theorem announces_updateRpsIe {raw : MorseRaw} {id : BitVec 16} (listed : raw.Listed)
    (updated : raw.updateRpsIe includePraws = some after) :
    after.announces id = true ↔
      id ∈ raw.configsList includePraws ∧ id ∈ raw.rawConfigList.map RawConfig.id := by
  rw [updateRpsIe] at updated
  split at updated
  · next nothing =>
      cases updated
      rw [nothing]
      exact iff_of_false Bool.false_ne_true fun both => by cases both.1
  · obtain ⟨more, element, ids⟩ := generateRpsIe_ids listed updated
    have chosen :
        id ∈ (raw.configsList includePraws).filter (fun id => (raw.findConfigById id).isSome) ↔
          id ∈ raw.configsList includePraws ∧ (raw.findConfigById id).isSome = true :=
      List.mem_filter
    rw [announces, element, List.reverse_nil, List.nil_append]
    rw [← isSome_findConfigById_iff, ← chosen, ← ids, List.mem_map, List.any_eq_true]
    simp only [beq_iff_eq]

end MorseRaw
end Raw
end Morse
