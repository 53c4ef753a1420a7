import Morse.Lib.Transition
import Morse.Raw.Work

/-!
# The books of active configurations

The two counters say how many active configurations are static and dynamic, and
each active configuration is linked in the list for its kind of window, in the
order of identifiers.  The books are kept by every step that disables active
configurations only and leaves the kinds of the active ones as they are.
-/

namespace Morse
namespace Raw

open Lib

/-! ## Ordered lists of identifiers -/

theorem mem_listAddSorted {id other : BitVec 16} :
    other ∈ MorseRaw.listAddSorted id ids ↔ other = id ∨ other ∈ ids := by
  induction ids with
  | nil => simp [MorseRaw.listAddSorted]
  | cons first rest ih =>
    rw [MorseRaw.listAddSorted]
    split
    · exact List.mem_cons
    · rw [List.mem_cons, ih, List.mem_cons, or_left_comm]

theorem pairwise_listAddSorted {id : BitVec 16} (sorted : ids.Pairwise (· < ·)) (fresh : id ∉ ids) :
    (MorseRaw.listAddSorted id ids).Pairwise (· < ·) := by
  induction ids with
  | nil => exact List.pairwise_singleton _ id
  | cons first rest ih =>
    rw [List.pairwise_cons] at sorted
    rw [List.mem_cons, not_or] at fresh
    rw [MorseRaw.listAddSorted]
    split
    · next smaller =>
        refine List.pairwise_cons.mpr ⟨fun other member => ?_, List.pairwise_cons.mpr sorted⟩
        rcases List.mem_cons.mp member with rfl | later
        · exact smaller
        · exact BitVec.lt_trans smaller (sorted.1 other later)
    · next larger =>
        refine List.pairwise_cons.mpr ⟨fun other member => ?_, ih sorted.2 fresh.2⟩
        rcases mem_listAddSorted.mp member with rfl | later
        · exact BitVec.lt_of_le_ne (BitVec.not_lt.mp larger) (Ne.symm fresh.1)
        · exact sorted.1 other later

/-! ## The books -/

namespace MorseRaw

/-- The counter of the static or of the dynamic configurations. -/
def counter (raw : MorseRaw) (dynamic : Bool) : Int :=
  if dynamic then raw.numDynamic else raw.numStatic

/-- Whether a configuration is active and of the kind. -/
def activeOf (raw : MorseRaw) (dynamic : Bool) (cfg : RawConfig) : Bool :=
  raw.isConfigActive cfg.id && cfg.hasBcnIdx == dynamic

/-- The counters are the numbers of active configurations of each kind, each
active configuration is in the list that its periodicity selects and in no
other, and the lists are strictly ordered by identifier. -/
structure Booked (raw : MorseRaw) : Prop where
  distinct : (raw.rawConfigList.map RawConfig.id).Nodup
  known : ∀ id, raw.isConfigActive id = true → id ∈ raw.rawConfigList.map RawConfig.id
  raws : ∀ cfg ∈ raw.rawConfigList, cfg.id ∈ raw.activeRaws → cfg.isPeriodic = false
  praws : ∀ cfg ∈ raw.rawConfigList, cfg.id ∈ raw.activePraws → cfg.isPeriodic = true
  sortedRaws : raw.activeRaws.Pairwise (· < ·)
  sortedPraws : raw.activePraws.Pairwise (· < ·)
  counters : ∀ dynamic,
    raw.counter dynamic = raw.rawConfigList.countP (raw.activeOf dynamic)

theorem isConfigActive_iff {raw : MorseRaw} {id : BitVec 16} :
    raw.isConfigActive id = true ↔ id ∈ raw.activeRaws ∨ id ∈ raw.activePraws := by
  rw [isConfigActive, Bool.or_eq_true, decide_eq_true_eq, decide_eq_true_eq]

/-- What a configuration adds to the counter of a kind. -/
def share (raw : MorseRaw) (dynamic : Bool) (cfg : RawConfig) : Nat :=
  if raw.activeOf dynamic cfg then 1 else 0

theorem countP_activeOf {raw : MorseRaw} (distinct : (raw.rawConfigList.map RawConfig.id).Nodup)
    (member : cfg ∈ raw.rawConfigList) (dynamic : Bool) :
    raw.rawConfigList.countP (raw.activeOf dynamic) =
      raw.share dynamic cfg +
        (raw.rawConfigList.filter fun other => other.id ≠ cfg.id).countP
          (raw.activeOf dynamic) := by
  rw [(perm_cons_filter_key RawConfig.id member distinct).countP_eq, List.countP_cons, share,
    Nat.add_comm]

/-- The lists of two states agree on the configurations of other identifiers. -/
structure SameLinks (id : BitVec 16) (before after : MorseRaw) : Prop where
  raws : ∀ other, other ≠ id → (other ∈ after.activeRaws ↔ other ∈ before.activeRaws)
  praws : ∀ other, other ≠ id → (other ∈ after.activePraws ↔ other ∈ before.activePraws)

theorem SameLinks.isConfigActive {id other : BitVec 16} (same : SameLinks id before after)
    (apart : other ≠ id) :
    after.isConfigActive other = before.isConfigActive other := by
  rw [Bool.eq_iff_iff, isConfigActive_iff, isConfigActive_iff, same.raws other apart,
    same.praws other apart]

theorem SameLinks.countP_eq {id : BitVec 16} (same : SameLinks id before after)
    (dynamic : Bool) (configs : List RawConfig) :
    (configs.filter fun other => other.id ≠ id).countP (after.activeOf dynamic) =
      (configs.filter fun other => other.id ≠ id).countP (before.activeOf dynamic) := by
  refine List.countP_congr fun other member => ?_
  rw [activeOf, activeOf, same.isConfigActive (of_decide_eq_true (List.mem_filter.mp member).2)]

theorem modify_rawConfigList (raw : MorseRaw) (id : BitVec 16) (change : RawConfig → RawConfig) :
    (raw.modify id change).rawConfigList = raw.rawConfigList.map fun config =>
      if config.id = id then change config else config := rfl

/-- What is stored for a configuration and how it is linked may change together
with the counters. -/
structure Rebooks (old new : RawConfig) (before after : MorseRaw) : Prop where
  id : new.id = old.id
  configs : after.rawConfigList = (before.modify old.id fun _ => new).rawConfigList
  links : SameLinks old.id before after
  raws : old.id ∈ after.activeRaws → new.isPeriodic = false
  praws : old.id ∈ after.activePraws → new.isPeriodic = true
  sortedRaws : after.activeRaws.Pairwise (· < ·)
  sortedPraws : after.activePraws.Pairwise (· < ·)
  counters : ∀ dynamic, after.counter dynamic + before.share dynamic old =
    before.counter dynamic + after.share dynamic new

variable {old new : RawConfig}

theorem map_id_modify (same : new.id = old.id) (configs : List RawConfig) :
    (configs.map fun config => if config.id = old.id then new else config).map RawConfig.id =
      configs.map RawConfig.id := by
  rw [List.map_map]
  refine List.map_congr_left fun config _ => ?_
  rw [Function.comp_apply]
  split
  · next equal => rw [same, equal]
  · rfl

theorem filter_modify (same : new.id = old.id) (configs : List RawConfig) :
    (configs.map fun config => if config.id = old.id then new else config).filter
        (fun other => other.id ≠ old.id) =
      configs.filter fun other => other.id ≠ old.id := by
  induction configs with
  | nil => rfl
  | cons first rest ih =>
    rw [List.map_cons]
    split
    · next equal =>
        rw [List.filter_cons_of_neg (by simp [same]), List.filter_cons_of_neg (by simp [equal]),
          ih]
    · next apart =>
        rw [List.filter_cons_of_pos (by simpa using apart),
          List.filter_cons_of_pos (by simpa using apart), ih]

theorem Booked.rebooks {raw : MorseRaw} (booked : raw.Booked) (member : old ∈ raw.rawConfigList)
    (rebooks : Rebooks old new raw after) :
    after.Booked := by
  have ids : after.rawConfigList.map RawConfig.id = raw.rawConfigList.map RawConfig.id := by
    rw [rebooks.configs, modify_rawConfigList, map_id_modify rebooks.id]
  have distinct : (after.rawConfigList.map RawConfig.id).Nodup := by
    rw [ids]
    exact booked.distinct
  have stored : new ∈ after.rawConfigList := by
    rw [rebooks.configs]
    exact List.mem_map.mpr ⟨old, member, if_pos rfl⟩
  have members (cfg : RawConfig) (held : cfg ∈ after.rawConfigList) :
      cfg = new ∨ (cfg ∈ raw.rawConfigList ∧ cfg.id ≠ old.id) := by
    rw [rebooks.configs] at held
    obtain ⟨config, known, equal⟩ := List.mem_map.mp held
    split at equal
    · exact .inl equal.symm
    · next apart => exact .inr (equal ▸ ⟨known, apart⟩)
  refine ⟨distinct, fun id active => ?_, fun cfg held linked => ?_, fun cfg held linked => ?_,
    rebooks.sortedRaws, rebooks.sortedPraws, fun dynamic => ?_⟩
  · rw [ids]
    rcases eq_or_ne id old.id with rfl | apart
    · exact List.mem_map_of_mem member
    · rw [rebooks.links.isConfigActive apart] at active
      exact booked.known id active
  · rcases members cfg held with rfl | ⟨known, apart⟩
    · exact rebooks.raws (rebooks.id ▸ linked)
    · exact booked.raws cfg known ((rebooks.links.raws _ apart).mp linked)
  · rcases members cfg held with rfl | ⟨known, apart⟩
    · exact rebooks.praws (rebooks.id ▸ linked)
    · exact booked.praws cfg known ((rebooks.links.praws _ apart).mp linked)
  · have counted := booked.counters dynamic
    have moved := rebooks.counters dynamic
    rw [countP_activeOf booked.distinct member] at counted
    rw [countP_activeOf distinct stored, rebooks.id, rebooks.links.countP_eq, rebooks.configs,
      modify_rawConfigList, filter_modify rebooks.id]
    omega

/-! ## Activation and deactivation -/

/-- A configuration may be disabled only while it is active, and an active one
may not change its kind; nor its periodicity while it stays active. -/
def KeepsBooks (raw : MorseRaw) (old new : RawConfig) (enable : Bool) : Prop :=
  if enable then
    raw.isConfigActive old.id = true →
      new.isPeriodic = old.isPeriodic ∧ new.hasBcnIdx = old.hasBcnIdx
  else raw.isConfigActive old.id = true ∧ new.hasBcnIdx = old.hasBcnIdx

theorem share_of_inactive {raw : MorseRaw} (inactive : raw.isConfigActive cfg.id = false)
    (dynamic : Bool) :
    raw.share dynamic cfg = 0 := by
  rw [share, activeOf, inactive, Bool.false_and, if_neg Bool.false_ne_true]

theorem share_of_active {raw : MorseRaw} (active : raw.isConfigActive cfg.id = true)
    (dynamic : Bool) :
    raw.share dynamic cfg = if cfg.hasBcnIdx = dynamic then 1 else 0 := by
  simp only [share, activeOf, active, Bool.true_and, beq_iff_eq]

@[simp] theorem unlink_activeRaws (raw : MorseRaw) (id : BitVec 16) :
    (raw.unlink id).activeRaws = raw.activeRaws.filter (· ≠ id) := rfl

@[simp] theorem unlink_activePraws (raw : MorseRaw) (id : BitVec 16) :
    (raw.unlink id).activePraws = raw.activePraws.filter (· ≠ id) := rfl

theorem isConfigActive_unlink (raw : MorseRaw) (id : BitVec 16) :
    (raw.unlink id).isConfigActive id = false := by
  rw [← Bool.not_eq_true, isConfigActive_iff]
  simp

theorem sameLinks_unlink (raw : MorseRaw) (id : BitVec 16) :
    SameLinks id raw (raw.unlink id) := by
  refine ⟨fun other apart => ?_, fun other apart => ?_⟩
  · simp [apart]
  · simp [apart]

theorem rebooks_modify {raw : MorseRaw} (booked : raw.Booked) (member : old ∈ raw.rawConfigList)
    (same : new.id = old.id)
    (kept : raw.isConfigActive old.id = true →
      new.isPeriodic = old.isPeriodic ∧ new.hasBcnIdx = old.hasBcnIdx) :
    Rebooks old new raw (raw.modify old.id fun _ => new) where
  id := same
  configs := rfl
  links := ⟨fun _ _ => Iff.rfl, fun _ _ => Iff.rfl⟩
  raws := fun linked => by
    rw [(kept (isConfigActive_iff.mpr (.inl linked))).1]
    exact booked.raws old member linked
  praws := fun linked => by
    rw [(kept (isConfigActive_iff.mpr (.inr linked))).1]
    exact booked.praws old member linked
  sortedRaws := booked.sortedRaws
  sortedPraws := booked.sortedPraws
  counters := fun dynamic => by
    have shares : (raw.modify old.id fun _ => new).share dynamic new = raw.share dynamic old := by
      cases active : raw.isConfigActive old.id with
      | false =>
        rw [share_of_inactive active, share_of_inactive]
        rw [same]
        exact active
      | true =>
        rw [share_of_active active, share_of_active, (kept active).2]
        rw [same]
        exact active
    rw [shares]
    rfl

@[simp] theorem activateConfig_rawConfigList (raw : MorseRaw) (cfg : RawConfig) :
    (raw.activateConfig cfg).rawConfigList = raw.rawConfigList := by
  rw [activateConfig]
  cases raw.isConfigActive cfg.id <;> cases cfg.isPeriodic <;> cases cfg.hasBcnIdx <;> rfl

@[simp] theorem deactivateConfig_rawConfigList (raw : MorseRaw) (cfg : RawConfig) :
    (raw.deactivateConfig cfg).rawConfigList = raw.rawConfigList := by
  rw [deactivateConfig]
  cases cfg.hasBcnIdx <;> rfl

theorem mem_activateConfig {raw : MorseRaw} (inactive : raw.isConfigActive cfg.id = false)
    (id : BitVec 16) :
    (id ∈ (raw.activateConfig cfg).activeRaws ↔
        id ∈ raw.activeRaws ∨ (id = cfg.id ∧ cfg.isPeriodic = false)) ∧
      (id ∈ (raw.activateConfig cfg).activePraws ↔
        id ∈ raw.activePraws ∨ (id = cfg.id ∧ cfg.isPeriodic = true)) := by
  rw [activateConfig, inactive]
  cases cfg.isPeriodic <;> cases cfg.hasBcnIdx <;> simp [mem_listAddSorted, or_comm]

theorem isConfigActive_activateConfig (raw : MorseRaw) (cfg : RawConfig) :
    (raw.activateConfig cfg).isConfigActive cfg.id = true := by
  cases active : raw.isConfigActive cfg.id with
  | true =>
    rw [activateConfig, if_pos active]
    exact active
  | false =>
    obtain ⟨raws, praws⟩ := mem_activateConfig active cfg.id
    rw [isConfigActive_iff, raws, praws]
    cases cfg.isPeriodic <;> simp

theorem sameLinks_activateConfig (raw : MorseRaw) (cfg : RawConfig) :
    SameLinks cfg.id raw (raw.activateConfig cfg) := by
  cases active : raw.isConfigActive cfg.id with
  | true =>
    rw [activateConfig, if_pos active]
    exact ⟨fun _ _ => Iff.rfl, fun _ _ => Iff.rfl⟩
  | false =>
    refine ⟨fun other apart => ?_, fun other apart => ?_⟩
    · rw [(mem_activateConfig active other).1]
      simp [apart]
    · rw [(mem_activateConfig active other).2]
      simp [apart]

theorem isConfigActive_deactivateConfig (raw : MorseRaw) (cfg : RawConfig) :
    (raw.deactivateConfig cfg).isConfigActive cfg.id = false := by
  exact isConfigActive_unlink _ cfg.id

theorem sameLinks_deactivateConfig (raw : MorseRaw) (cfg : RawConfig) :
    SameLinks cfg.id raw (raw.deactivateConfig cfg) := by
  have moved := sameLinks_unlink raw cfg.id
  rw [deactivateConfig]
  cases cfg.hasBcnIdx <;> exact ⟨moved.raws, moved.praws⟩

theorem sorted_activateConfig {raw : MorseRaw} (inactive : raw.isConfigActive cfg.id = false)
    (sortedRaws : raw.activeRaws.Pairwise (· < ·))
    (sortedPraws : raw.activePraws.Pairwise (· < ·)) :
    (raw.activateConfig cfg).activeRaws.Pairwise (· < ·) ∧
      (raw.activateConfig cfg).activePraws.Pairwise (· < ·) := by
  have fresh : cfg.id ∉ raw.activeRaws ∧ cfg.id ∉ raw.activePraws := by
    rw [← Bool.not_eq_true, isConfigActive_iff, not_or] at inactive
    exact inactive
  have raws := pairwise_listAddSorted sortedRaws fresh.1
  have praws := pairwise_listAddSorted sortedPraws fresh.2
  rw [activateConfig, inactive]
  cases cfg.isPeriodic with
  | true => cases cfg.hasBcnIdx <;> exact ⟨sortedRaws, praws⟩
  | false => cases cfg.hasBcnIdx <;> exact ⟨raws, sortedPraws⟩

variable {raw : MorseRaw}

theorem sorted_deactivateConfig (cfg : RawConfig) (sortedRaws : raw.activeRaws.Pairwise (· < ·))
    (sortedPraws : raw.activePraws.Pairwise (· < ·)) :
    (raw.deactivateConfig cfg).activeRaws.Pairwise (· < ·) ∧
      (raw.deactivateConfig cfg).activePraws.Pairwise (· < ·) := by
  rw [deactivateConfig]
  cases cfg.hasBcnIdx <;> exact ⟨sortedRaws.filter _, sortedPraws.filter _⟩

theorem counter_activateConfig {raw : MorseRaw} (inactive : raw.isConfigActive cfg.id = false)
    (dynamic : Bool) :
    (raw.activateConfig cfg).counter dynamic =
      raw.counter dynamic + if cfg.hasBcnIdx = dynamic then 1 else 0 := by
  rw [activateConfig, inactive]
  cases cfg.isPeriodic <;> cases cfg.hasBcnIdx <;> cases dynamic <;> simp [counter]

theorem counter_deactivateConfig (raw : MorseRaw) (cfg : RawConfig) (dynamic : Bool) :
    (raw.deactivateConfig cfg).counter dynamic =
      raw.counter dynamic - if cfg.hasBcnIdx = dynamic then 1 else 0 := by
  rw [deactivateConfig]
  cases cfg.hasBcnIdx <;> cases dynamic <;> simp [counter, unlink]

theorem rebooks_activate {raw : MorseRaw} (booked : raw.Booked) (same : new.id = old.id)
    (inactive : raw.isConfigActive old.id = false) :
    Rebooks old new raw ((raw.modify old.id fun _ => new).activateConfig new) := by
  have idle : (raw.modify old.id fun _ => new).isConfigActive new.id = false := same ▸ inactive
  have fresh : new.id ∉ raw.activeRaws ∧ new.id ∉ raw.activePraws := by
    rw [← Bool.not_eq_true, isConfigActive_iff, not_or] at idle
    exact idle
  have sorted := sorted_activateConfig idle booked.sortedRaws booked.sortedPraws
  obtain ⟨raws, praws⟩ := mem_activateConfig idle old.id
  refine ⟨same, activateConfig_rawConfigList _ _, ?_, fun linked => ?_, fun linked => ?_,
    sorted.1, sorted.2, fun dynamic => ?_⟩
  · have links := sameLinks_activateConfig (raw.modify old.id fun _ => new) new
    rw [same] at links
    exact ⟨links.raws, links.praws⟩
  · exact ((raws.mp linked).resolve_left (same ▸ fresh.1)).2
  · exact ((praws.mp linked).resolve_left (same ▸ fresh.2)).2
  · rw [share_of_inactive inactive, share_of_active (isConfigActive_activateConfig _ _),
      counter_activateConfig idle]
    split <;> simp [counter, modify]

theorem rebooks_deactivate {raw : MorseRaw} (booked : raw.Booked) (same : new.id = old.id)
    (active : raw.isConfigActive old.id = true) (kind : new.hasBcnIdx = old.hasBcnIdx) :
    Rebooks old new raw ((raw.modify old.id fun _ => new).deactivateConfig new) := by
  have unlinked := isConfigActive_deactivateConfig (raw.modify old.id fun _ => new) new
  have absent := unlinked
  rw [← Bool.not_eq_true, isConfigActive_iff, not_or, same] at absent
  have sorted : ((raw.modify old.id fun _ => new).deactivateConfig new).activeRaws.Pairwise
      (· < ·) ∧ ((raw.modify old.id fun _ => new).deactivateConfig new).activePraws.Pairwise
        (· < ·) := sorted_deactivateConfig new booked.sortedRaws booked.sortedPraws
  refine ⟨same, deactivateConfig_rawConfigList _ _, ?_, fun linked => absurd linked absent.1,
    fun linked => absurd linked absent.2, sorted.1, sorted.2, fun dynamic => ?_⟩
  · have links := sameLinks_deactivateConfig (raw.modify old.id fun _ => new) new
    rw [same] at links
    exact ⟨links.raws, links.praws⟩
  · rw [share_of_active active, share_of_inactive unlinked, counter_deactivateConfig, kind]
    split <;> simp [counter, modify]

theorem Booked.applyConfig {raw : MorseRaw} (booked : raw.Booked) (member : old ∈ raw.rawConfigList)
    (same : new.id = old.id) (keeps : KeepsBooks raw old new enable) :
    (raw.applyConfig new enable).Booked := by
  simp only [MorseRaw.applyConfig, same]
  cases enable with
  | true =>
    cases active : raw.isConfigActive old.id with
    | true =>
      have stays : (raw.modify old.id fun _ => new).isConfigActive new.id = true := by
        rw [same]
        exact active
      rw [activateConfig, if_pos stays]
      exact booked.rebooks member (rebooks_modify booked member same keeps)
    | false => exact booked.rebooks member (rebooks_activate booked same active)
  | false =>
    exact booked.rebooks member (rebooks_deactivate booked same keeps.1 keeps.2)

/-! ## Deletion and creation -/

theorem Booked.deleteConfig {raw : MorseRaw} (booked : raw.Booked)
    (member : cfg ∈ raw.rawConfigList) :
    (raw.deleteConfig cfg).Booked := by
  have inactive : (raw.deleteConfig cfg).isConfigActive cfg.id = false ∧
      SameLinks cfg.id raw (raw.deleteConfig cfg) ∧
      (raw.deleteConfig cfg).rawConfigList =
        (raw.rawConfigList.filter fun config => config.id ≠ cfg.id) ∧
      (∀ dynamic, (raw.deleteConfig cfg).counter dynamic + raw.share dynamic cfg =
        raw.counter dynamic) ∧
      (raw.deleteConfig cfg).activeRaws.Pairwise (· < ·) ∧
      (raw.deleteConfig cfg).activePraws.Pairwise (· < ·) := by
    have sorted := sorted_deactivateConfig cfg booked.sortedRaws booked.sortedPraws
    have links := sameLinks_deactivateConfig raw cfg
    cases active : raw.isConfigActive cfg.id with
    | false =>
      rw [MorseRaw.deleteConfig, active]
      refine ⟨active, ⟨fun _ _ => Iff.rfl, fun _ _ => Iff.rfl⟩, rfl, fun dynamic => ?_,
        booked.sortedRaws, booked.sortedPraws⟩
      rw [share_of_inactive active]
      exact Int.add_zero _
    | true =>
      rw [MorseRaw.deleteConfig, active, if_pos rfl]
      refine ⟨isConfigActive_deactivateConfig raw cfg, ⟨links.raws, links.praws⟩, ?_,
        fun dynamic => ?_, sorted.1, sorted.2⟩
      · rw [deactivateConfig_rawConfigList]
      · rw [share_of_active active]
        have counted := counter_deactivateConfig raw cfg dynamic
        refine (congrArg (· + _) counted).trans ?_
        split <;> simp
  obtain ⟨unlinked, links, configs, counters, sortedRaws, sortedPraws⟩ := inactive
  refine ⟨?_, fun id active => ?_, fun other held linked => ?_, fun other held linked => ?_,
    sortedRaws, sortedPraws, fun dynamic => ?_⟩
  · rw [configs]
    exact booked.distinct.sublist (List.filter_sublist.map _)
  · have apart : id ≠ cfg.id := by
      rintro rfl
      rw [unlinked] at active
      cases active
    rw [links.isConfigActive apart] at active
    obtain ⟨config, known, rfl⟩ := List.mem_map.mp (booked.known id active)
    rw [configs]
    exact List.mem_map_of_mem (List.mem_filter.mpr ⟨known, decide_eq_true apart⟩)
  · rw [configs, List.mem_filter] at held
    exact booked.raws other held.1 ((links.raws _ (of_decide_eq_true held.2)).mp linked)
  · rw [configs, List.mem_filter] at held
    exact booked.praws other held.1 ((links.praws _ (of_decide_eq_true held.2)).mp linked)
  · have counted := booked.counters dynamic
    have moved := counters dynamic
    rw [countP_activeOf booked.distinct member] at counted
    rw [configs, links.countP_eq]
    omega

theorem perm_insertAfterLarger (placed : insertAfterLarger new configs = some inserted) :
    inserted.Perm (new :: configs) := by
  induction configs generalizing inserted with
  | nil => cases placed
  | cons config rest ih =>
    rw [insertAfterLarger] at placed
    split at placed
    · next others exact =>
        cases placed
        exact ((ih exact).cons config).trans (.swap new config rest)
    · split at placed
      · cases placed
        exact .swap new config rest
      · cases placed

theorem createOrFindById_cases {raw : MorseRaw} {id : BitVec 16}
    (found : raw.createOrFindById memory id = some (config, created)) :
    (config ∈ raw.rawConfigList ∧ config.id = id ∧ created = raw) ∨
      (id ∉ raw.rawConfigList.map RawConfig.id ∧ config = .zeroed id ∧
        ∃ configs, configs.Perm (.zeroed id :: raw.rawConfigList) ∧
          created = { raw with rawConfigList := configs }) := by
  rw [createOrFindById] at found
  split at found
  · next exact =>
      cases found
      exact .inl ⟨List.mem_of_find?_eq_some exact, by simpa using List.find?_some exact, rfl⟩
  · next absent =>
      split at found
      · cases found
        refine .inr ⟨fun known => ?_, rfl, _, ?_, rfl⟩
        · obtain ⟨other, member, rfl⟩ := List.mem_map.mp known
          have differs := List.find?_eq_none.mp absent other member
          simp at differs
        · cases placed : insertAfterLarger (.zeroed id) raw.rawConfigList with
          | none => exact List.perm_append_singleton _ _
          | some inserted => exact perm_insertAfterLarger placed
      · cases found

theorem Booked.createOrFindById {raw : MorseRaw} {id : BitVec 16} (booked : raw.Booked)
    (found : raw.createOrFindById memory id = some (config, created)) :
    created.Booked ∧ config ∈ created.rawConfigList ∧ config.id = id := by
  rcases createOrFindById_cases found with
    ⟨member, same, rfl⟩ | ⟨unknown, rfl, configs, permuted, rfl⟩
  · exact ⟨booked, member, same⟩
  · have idle : raw.isConfigActive id = false := by
      rw [← Bool.not_eq_true]
      exact fun active => unknown (booked.known id active)
    have links (other : BitVec 16) (linked : raw.isConfigActive other = true) : other ≠ id := by
      rintro rfl
      rw [idle] at linked
      cases linked
    have members (cfg : RawConfig) (held : cfg ∈ configs) :
        cfg = .zeroed id ∨ cfg ∈ raw.rawConfigList :=
      List.mem_cons.mp (permuted.mem_iff.mp held)
    refine ⟨⟨?_, fun other active => ?_, fun cfg held linked => ?_, fun cfg held linked => ?_,
      booked.sortedRaws, booked.sortedPraws, fun dynamic => ?_⟩,
      permuted.mem_iff.mpr List.mem_cons_self, rfl⟩
    · exact (permuted.map RawConfig.id).nodup_iff.mpr
        (List.nodup_cons.mpr ⟨unknown, booked.distinct⟩)
    · exact (permuted.map RawConfig.id).mem_iff.mpr
        (List.mem_cons_of_mem _ (booked.known other active))
    · rcases members cfg held with rfl | known
      · exact absurd rfl (links _ (isConfigActive_iff.mpr (.inl linked)))
      · exact booked.raws cfg known linked
    · rcases members cfg held with rfl | known
      · exact absurd rfl (links _ (isConfigActive_iff.mpr (.inr linked)))
      · exact booked.praws cfg known linked
    · have own : raw.activeOf dynamic (.zeroed id) = false := by
        rw [activeOf, show (RawConfig.zeroed id).id = id from rfl, idle, Bool.false_and]
      have counted := booked.counters dynamic
      rw [permuted.countP_eq]
      refine counted.trans ?_
      rw [List.countP_cons_of_neg (by
        rw [Bool.not_eq_true]
        exact own)]
      rfl

/-! ## Changes that do not touch the books -/

theorem Booked.congr {raw after : MorseRaw} (booked : raw.Booked)
    (configs : after.rawConfigList = raw.rawConfigList) (raws : after.activeRaws = raw.activeRaws)
    (praws : after.activePraws = raw.activePraws) (numStatic : after.numStatic = raw.numStatic)
    (numDynamic : after.numDynamic = raw.numDynamic) :
    after.Booked := by
  have active (id : BitVec 16) : after.isConfigActive id = raw.isConfigActive id := by
    rw [isConfigActive, isConfigActive, raws, praws]
  have kinds (dynamic : Bool) : after.activeOf dynamic = raw.activeOf dynamic := by
    funext cfg
    rw [activeOf, activeOf, active]
  have counters (dynamic : Bool) : after.counter dynamic = raw.counter dynamic := by
    rw [counter, counter, numStatic, numDynamic]
  refine ⟨?_, ?_, ?_, ?_, ?_, ?_, fun dynamic => ?_⟩
  · rw [configs]
    exact booked.distinct
  · intro id linked
    rw [configs]
    exact booked.known id (active id ▸ linked)
  · rw [configs, raws]
    exact booked.raws
  · rw [configs, praws]
    exact booked.praws
  · rw [raws]
    exact booked.sortedRaws
  · rw [praws]
    exact booked.sortedPraws
  · rw [counters, configs, kinds]
    exact booked.counters dynamic

/-- What the work and the beacons keep of a configuration. -/
structure SameKind (old new : RawConfig) : Prop where
  id : new.id = old.id
  periodic : new.isPeriodic = old.isPeriodic
  beacon : new.hasBcnIdx = old.hasBcnIdx
  nominal : new.beaconSpreading.nominalStaPerBeacon = old.beaconSpreading.nominalStaPerBeacon

theorem SameKind.refl (cfg : RawConfig) : SameKind cfg cfg := ⟨rfl, rfl, rfl, rfl⟩

theorem Booked.modify {raw : MorseRaw} {id : BitVec 16} (booked : raw.Booked)
    (same : ∀ cfg ∈ raw.rawConfigList, cfg.id = id → SameKind cfg (change cfg)) :
    (raw.modify id change).Booked := by
  have kept (cfg : RawConfig) (member : cfg ∈ raw.rawConfigList) :
      SameKind cfg (if cfg.id = id then change cfg else cfg) := by
    split
    · next equal => exact same cfg member equal
    · exact .refl cfg
  have ids : (raw.modify id change).rawConfigList.map RawConfig.id =
      raw.rawConfigList.map RawConfig.id := by
    rw [modify_rawConfigList, List.map_map]
    exact List.map_congr_left fun cfg member => (kept cfg member).id
  refine ⟨?_, fun id linked => ?_, fun cfg held linked => ?_, fun cfg held linked => ?_,
    booked.sortedRaws, booked.sortedPraws, fun dynamic => ?_⟩
  · rw [ids]
    exact booked.distinct
  · rw [ids]
    exact booked.known id linked
  · obtain ⟨old, member, rfl⟩ := List.mem_map.mp held
    rw [(kept old member).periodic]
    exact booked.raws old member ((kept old member).id ▸ linked)
  · obtain ⟨old, member, rfl⟩ := List.mem_map.mp held
    rw [(kept old member).periodic]
    exact booked.praws old member ((kept old member).id ▸ linked)
  · refine (booked.counters dynamic).trans ?_
    rw [modify_rawConfigList, List.countP_map]
    refine congrArg Nat.cast (List.countP_congr fun cfg member => ?_)
    rw [Function.comp_apply, activeOf, activeOf, (kept cfg member).id, (kept cfg member).beacon]
    exact Iff.rfl

theorem findConfigById_eq_some {raw : MorseRaw} {id : BitVec 16}
    (found : raw.findConfigById id = some config) :
    config ∈ raw.rawConfigList ∧ config.id = id :=
  ⟨List.mem_of_find?_eq_some found, by simpa using List.find?_some found⟩

theorem Booked.eq_of_id_eq {raw : MorseRaw} (booked : raw.Booked) (member : cfg ∈ raw.rawConfigList)
    (otherMember : other ∈ raw.rawConfigList) (same : other.id = cfg.id) :
    other = cfg :=
  eq_of_key_eq RawConfig.id member otherMember
    (List.nodup_iff_count.mp booked.distinct cfg.id) same

/-! ## The steps -/

/-- The condition of a configuration group: what it does to a configuration
keeps the books. -/
def GroupKeeps (raw : MorseRaw) (group : ConfigGroup) : Prop :=
  group.id < rawInternalIdOffset → group.id ≠ 0 →
    if group.update then
      ∀ old created valid new,
        raw.createOrFindById group.memory group.id = some (old, created) →
          morseRawCmdToConfig group.tlvs old = some (valid, new) →
            KeepsBooks raw old (new.insertAt group.beaconIdx) (group.enable && valid)
    else
      ∀ old, raw.findConfigById group.id = some old → group.delete = false →
        KeepsBooks raw old (old.insertAt group.beaconIdx) group.enable

theorem cmdToConfig_id (parsed : morseRawCmdToConfig tlvs cfg = some (valid, new)) :
    new.id = cfg.id := by
  induction tlvs generalizing cfg with
  | nil =>
    cases parsed
    rfl
  | cons tlv rest ih =>
    cases tlv with
    | slotDef rawDurationUs numSlots crossSlotBleed =>
      rw [morseRawCmdToConfig] at parsed
      split at parsed
      · cases parsed
      · have others := ih parsed
        exact others
    | unrecognised =>
      cases parsed
      rfl
    | group | startTime | praw | bcnSpread =>
      have others := ih parsed
      exact others

theorem createOrFindById_active {raw : MorseRaw} {id : BitVec 16}
    (found : raw.createOrFindById memory id = some (config, created)) :
    created.isConfigActive = raw.isConfigActive := by
  rw [createOrFindById] at found
  split at found
  · cases found
    rfl
  · split at found
    · cases found
      rfl
    · cases found

theorem deleteConfig_rawConfigList (raw : MorseRaw) (cfg : RawConfig) :
    (raw.deleteConfig cfg).rawConfigList =
      raw.rawConfigList.filter fun config => config.id ≠ cfg.id := by
  rw [MorseRaw.deleteConfig, deactivateConfig]
  cases raw.isConfigActive cfg.id <;> cases cfg.hasBcnIdx <;> rfl

theorem Booked.foldl_deleteConfig {raw : MorseRaw} {configs : List RawConfig} (booked : raw.Booked)
    (members : ∀ cfg ∈ configs, cfg ∈ raw.rawConfigList)
    (distinct : (configs.map RawConfig.id).Nodup) :
    (configs.foldl MorseRaw.deleteConfig raw).Booked := by
  induction configs generalizing raw with
  | nil => exact booked
  | cons cfg rest ih =>
    rw [List.map_cons, List.nodup_cons] at distinct
    refine ih (booked.deleteConfig (members cfg List.mem_cons_self))
      (fun other later => ?_) distinct.2
    rw [deleteConfig_rawConfigList, List.mem_filter]
    refine ⟨members other (List.mem_cons_of_mem _ later), decide_eq_true fun same => ?_⟩
    exact distinct.1 (same ▸ List.mem_map_of_mem later)

theorem Booked.processGlobal (booked : raw.Booked) (group : ConfigGroup) :
    (raw.processGlobal group).Booked := by
  have switched : { raw with enabled := group.enable }.Booked :=
    booked.congr rfl rfl rfl rfl rfl
  simp only [MorseRaw.processGlobal]
  split
  · exact switched.foldl_deleteConfig (fun cfg member => member) switched.distinct
  · exact switched

theorem Booked.dynamicRawInit {raw : MorseRaw} (booked : raw.Booked) :
    raw.dynamicRawInit.Booked := by
  rw [MorseRaw.dynamicRawInit]
  split
  · have reset : { raw with numBeacons := 0, currentNum := 0 }.Booked :=
      booked.congr rfl rfl rfl rfl rfl
    exact reset.foldl_deleteConfig (fun cfg member => (List.mem_filter.mp member).1)
      (reset.distinct.sublist (List.filter_sublist.map _))
  · exact booked

theorem Booked.processConfigGroup {raw : MorseRaw} (booked : raw.Booked)
    (keeps : GroupKeeps raw group) (processed : raw.processConfigGroup group = some (ret, after)) :
    after.Booked := by
  rw [MorseRaw.processConfigGroup] at processed
  split at processed
  · cases processed
    exact booked
  · next small =>
      split at processed
      · cases processed
        exact booked.processGlobal group
      · next single =>
          have keeps := keeps (BitVec.not_le.mp small) single
          split at processed
          · next update =>
              rw [if_pos update] at keeps
              split at processed
              · cases processed
                exact booked
              · next old created found =>
                  obtain ⟨stored, member, same⟩ := booked.createOrFindById found
                  have active := createOrFindById_active found
                  split at processed
                  · cases processed
                  · next new parsed =>
                      cases processed
                      have kept := keeps old created true new found parsed
                      rw [Bool.and_true, KeepsBooks, ← active] at kept
                      have same : new.id = old.id := cmdToConfig_id parsed
                      have ids : (new.insertAt group.beaconIdx).id = old.id := same
                      exact stored.applyConfig member ids kept
                  · next new parsed =>
                      cases processed
                      have kept := keeps old created false new found parsed
                      rw [Bool.and_false, KeepsBooks, ← active] at kept
                      have same : new.id = old.id := cmdToConfig_id parsed
                      have ids : (new.insertAt group.beaconIdx).id = old.id := same
                      exact stored.applyConfig member ids kept
          · next lookup =>
              rw [if_neg lookup] at keeps
              split at processed
              · cases processed
                exact booked
              · next old found =>
                  have member := (findConfigById_eq_some found).1
                  split at processed
                  · cases processed
                    exact booked.deleteConfig member
                  · next kept =>
                      cases processed
                      exact booked.applyConfig member rfl
                        (keeps old found (Bool.not_eq_true _ ▸ kept))

theorem Booked.triggerUpdate {raw : MorseRaw} (booked : raw.Booked) (refreshAids : Bool) :
    (raw.triggerUpdate refreshAids).Booked := by
  rw [MorseRaw.triggerUpdate]
  split
  · exact booked
  · split
    · exact booked.congr rfl rfl rfl rfl rfl
    · exact booked

theorem Booked.foldl_modify {raw : MorseRaw} (booked : raw.Booked)
    (same : ∀ cfg, SameKind cfg (change cfg)) (ids : List (BitVec 16)) :
    (ids.foldl (fun raw id => raw.modify id change) raw).Booked := by
  induction ids generalizing raw with
  | nil => exact booked
  | cons id rest ih => exact ih (booked.modify fun cfg _ _ => same cfg)

theorem SameKind.resetOffset (cfg : RawConfig) : SameKind cfg cfg.resetOffset :=
  ⟨rfl, rfl, rfl, rfl⟩

theorem Booked.startPrawTransmission (booked : raw.Booked)
    (dtimPeriod : BitVec 8) (newConfig : Bool) :
    (raw.startPrawTransmission dtimPeriod newConfig).Booked := by
  cases newConfig with
  | false => exact booked.congr rfl rfl rfl rfl rfl
  | true =>
    have reset := booked.foldl_modify SameKind.resetOffset raw.activePraws
    exact reset.congr rfl rfl rfl rfl rfl

theorem Booked.decideUpdateEachBeacon (booked : raw.Booked)
    (dtimPeriod : BitVec 8) (stray : BitVec 16 → BitVec 16) :
    (raw.decideUpdateEachBeacon dtimPeriod stray).Booked := by
  have cleared : { raw with updateEachBeacon := false }.Booked := booked.congr rfl rfl rfl rfl rfl
  rw [MorseRaw.decideUpdateEachBeacon]
  split
  · exact (cleared.startPrawTransmission dtimPeriod true).congr rfl rfl rfl rfl rfl
  · exact booked.congr rfl rfl rfl rfl rfl

theorem Booked.processStaticCmd {raw : MorseRaw} (booked : raw.Booked)
    (keeps : GroupKeeps raw.dynamicRawInit { group with beaconIdx := u16Max })
    (processed : raw.processStaticCmd dtimPeriod stray group = some after) :
    after.Booked := by
  rw [MorseRaw.processStaticCmd] at processed
  split at processed
  · cases processed
  · next exact =>
      cases processed
      have grouped := booked.dynamicRawInit.processConfigGroup keeps exact
      exact (grouped.decideUpdateEachBeacon dtimPeriod stray).triggerUpdate false

/-- The condition of a dynamic command: each of its groups meets its condition
when it is processed. -/
def DynamicKeeps : List DynamicTlv → MorseRaw → Prop
  | [], _ => True
  | .global numConfigs numBcnIndexes :: rest, raw =>
    numConfigs = 0 ∨ DynamicKeeps rest { raw with numBeacons := numBcnIndexes.setWidth 8 }
  | .config id index tlvs memory :: rest, raw =>
    GroupKeeps raw (dynamicGroup id index tlvs memory) ∧
      ∀ after, raw.processConfigGroup (dynamicGroup id index tlvs memory) = some (none, after) →
        DynamicKeeps rest after
  | .nested :: _, _ => True
  | .unrecognised :: _, _ => True

/-- The state in which the walk over a dynamic command ends. -/
def Walked.state : Walked → MorseRaw
  | .returned raw => raw
  | .ended _ raw => raw

theorem Booked.dynamicWalk {raw : MorseRaw} (booked : raw.Booked) (keeps : DynamicKeeps tlvs raw)
    (ends : MorseRaw.dynamicWalk tlvs raw = some walked) :
    walked.state.Booked := by
  induction tlvs generalizing raw with
  | nil =>
    cases ends
    exact booked
  | cons tlv rest ih =>
    cases tlv with
    | global numConfigs numBcnIndexes =>
      have noted : { raw with numBeacons := numBcnIndexes.setWidth 8 }.Booked :=
        booked.congr rfl rfl rfl rfl rfl
      simp only [MorseRaw.dynamicWalk] at ends
      split at ends
      · cases ends
        exact noted
      · next some => exact ih noted (keeps.resolve_left some) ends
    | config id index tlvs memory =>
      simp only [MorseRaw.dynamicWalk] at ends
      split at ends
      · cases ends
      · next exact =>
          exact ih (booked.processConfigGroup keeps.1 exact) (keeps.2 _ exact) ends
      · next exact =>
          cases ends
          exact booked.processConfigGroup keeps.1 exact
    | nested => cases ends
    | unrecognised =>
      cases ends
      exact booked

theorem Booked.processDynamicCmd {raw : MorseRaw} (booked : raw.Booked)
    (keeps : raw.numStatic ≤ 0 → DynamicKeeps tlvs raw.dynamicRawInit)
    (processed : raw.processDynamicCmd tlvs = some after) :
    after.Booked := by
  rw [MorseRaw.processDynamicCmd] at processed
  split at processed
  · cases processed
    exact booked
  · next none =>
      have keeps := keeps (Int.not_lt.mp none)
      split at processed
      · cases processed
      · next exact =>
          cases processed
          exact booked.dynamicRawInit.dynamicWalk keeps exact
      · next ret walked exact =>
          cases processed
          have ended : walked.Booked := booked.dynamicRawInit.dynamicWalk keeps exact
          refine Booked.triggerUpdate ?_ false
          split
          · exact ended.congr rfl rfl rfl rfl rfl
          · exact ended.congr rfl rfl rfl rfl rfl

/-! ## The update work -/

theorem SameKind.refreshIndexes (aids : List (BitVec 16)) (cfg : RawConfig) :
    SameKind cfg (cfg.refreshIndexes aids) := by
  simp only [RawConfig.refreshIndexes, updateAidIndexes]
  split
  · split
    · exact ⟨rfl, rfl, rfl, rfl⟩
    · split <;> exact ⟨rfl, rfl, rfl, rfl⟩
  · exact .refl cfg

theorem Booked.rawRefreshAids (booked : raw.Booked) (aids : List (BitVec 16)) :
    (raw.rawRefreshAids aids).Booked := by
  have listed : { raw with aidList := some aids }.Booked := booked.congr rfl rfl rfl rfl rfl
  exact listed.foldl_modify (SameKind.refreshIndexes aids) raw.activeRaws

theorem SameKind.generateAssignment
    (generated : Raw.generateAssignment aids config = some (new, assignment)) :
    SameKind config new := by
  rw [Raw.generateAssignment] at generated
  dsimp only at generated
  split at generated
  · split at generated
    · cases generated
    · cases generated
      exact ⟨rfl, rfl, rfl, rfl⟩
  · cases generated
    exact ⟨rfl, rfl, rfl, rfl⟩

theorem Booked.generateRpsIe {raw : MorseRaw} (booked : raw.Booked)
    (generated : MorseRaw.generateRpsIe ids assignments raw = some after) :
    after.Booked := by
  induction ids generalizing assignments raw with
  | nil =>
    cases generated
    exact booked.congr rfl rfl rfl rfl rfl
  | cons id rest ih =>
    rw [MorseRaw.generateRpsIe] at generated
    split at generated
    · exact ih booked generated
    · next config found =>
        obtain ⟨member, same⟩ := findConfigById_eq_some found
        split at generated
        · cases generated
        · next new assignment exact =>
            refine ih (booked.modify fun cfg held equal => ?_) generated
            rw [booked.eq_of_id_eq member held (equal.trans same.symm)]
            exact .generateAssignment exact

@[simp] theorem countBeacon_validity (periodic : Periodic) :
    (countBeacon periodic).validity = periodic.validity := rfl

theorem modify_eq_const {raw : MorseRaw} (booked : raw.Booked) (member : config ∈ raw.rawConfigList)
    (change : RawConfig → RawConfig) :
    raw.modify config.id change = raw.modify config.id fun _ => change config := by
  have configs : (raw.rawConfigList.map fun other =>
      if other.id = config.id then change other else other) =
        raw.rawConfigList.map fun other =>
          if other.id = config.id then change config else other := by
    refine List.map_congr_left fun other held => ?_
    split
    · next same => rw [booked.eq_of_id_eq member held same]
    · rfl
  rw [MorseRaw.modify, configs]
  rfl

theorem Booked.updatePraw {raw : MorseRaw} (booked : raw.Booked)
    (member : config ∈ raw.rawConfigList) (linked : config.id ∈ raw.activePraws) (kickTx : Bool) :
    (MorseRaw.updatePraw kickTx raw config).2.Booked ∧
      ∀ other ∈ raw.activePraws, other ≠ config.id →
        other ∈ (MorseRaw.updatePraw kickTx raw config).2.activePraws := by
  have kept (periodic : Periodic) (same : periodic.validity = config.periodic.validity) :
      (raw.modify config.id fun config => { config with periodic := periodic }).Booked := by
    refine booked.modify fun cfg held equal => ?_
    rw [booked.eq_of_id_eq member held equal]
    exact ⟨rfl, by simp only [RawConfig.isPeriodic, same], rfl, rfl⟩
  rw [MorseRaw.updatePraw]
  dsimp only
  split
  · split
    · exact ⟨kept _ rfl, fun other held _ => held⟩
    · rw [modify_eq_const booked member]
      refine ⟨booked.rebooks member (rebooks_deactivate booked rfl
        (isConfigActive_iff.mpr (.inr linked)) rfl), fun other held apart => ?_⟩
      have moved := (sameLinks_unlink raw config.id).praws other apart
      rw [deactivateConfig]
      cases RawConfig.hasBcnIdx _ <;> exact moved.mpr held
  · exact ⟨kept _ rfl, fun other held _ => held⟩

theorem Booked.updatePrawWalk {raw : MorseRaw} (booked : raw.Booked)
    (linked : ∀ id ∈ ids, id ∈ raw.activePraws) (distinct : ids.Nodup) (kickTx : Bool) :
    (MorseRaw.updatePrawWalk ids kickTx raw).2.Booked := by
  induction ids generalizing raw kickTx with
  | nil => exact booked
  | cons id rest ih =>
    rw [List.nodup_cons] at distinct
    rw [MorseRaw.updatePrawWalk]
    split
    · exact ih booked (fun other later => linked other (List.mem_cons_of_mem _ later))
        distinct.2 kickTx
    · next config found =>
        obtain ⟨member, rfl⟩ := findConfigById_eq_some found
        obtain ⟨kept, others⟩ :=
          booked.updatePraw member (linked _ List.mem_cons_self) kickTx
        refine ih kept (fun other later => ?_) distinct.2 _
        refine others other (linked other (List.mem_cons_of_mem _ later)) ?_
        rintro rfl
        exact distinct.1 later

theorem Booked.updatePrawAfterBcn (booked : raw.Booked) (dtimPeriod : BitVec 8) :
    (raw.updatePrawAfterBcn dtimPeriod).Booked := by
  have distinct : raw.activePraws.Nodup :=
    booked.sortedPraws.imp BitVec.ne_of_lt
  have walked := booked.updatePrawWalk (fun id member => member) distinct false
  rw [MorseRaw.updatePrawAfterBcn]
  split
  · next exact =>
      rw [exact] at walked
      exact walked.startPrawTransmission dtimPeriod false
  · next exact =>
      rw [exact] at walked
      exact walked

theorem Booked.updateBeacon (booked : raw.Booked) (dtimPeriod : BitVec 8) :
    (raw.updateBeacon dtimPeriod).2.Booked := by
  rw [MorseRaw.updateBeacon]
  split
  · have counted : { raw with beaconSent := false }.countDynamic.Booked := by
      rw [countDynamic]
      split
      · split <;> exact booked.congr rfl rfl rfl rfl rfl
      · exact booked.congr rfl rfl rfl rfl rfl
    rw [countStatic]
    split
    · dsimp only
      split
      · exact (counted.updatePrawAfterBcn dtimPeriod).congr rfl rfl rfl rfl rfl
      · exact counted.updatePrawAfterBcn dtimPeriod
    · exact counted
  · exact booked

theorem Booked.updateStations (booked : raw.Booked)
    (dtimPeriod : BitVec 8) (aids : List (BitVec 16)) :
    (raw.updateStations dtimPeriod aids).Booked := by
  have cleared : { raw with refreshAids := false }.Booked := booked.congr rfl rfl rfl rfl rfl
  rw [MorseRaw.updateStations]
  split
  · exact (cleared.rawRefreshAids aids).startPrawTransmission dtimPeriod false
  · exact booked

theorem Booked.doUpdate {raw : MorseRaw} (booked : raw.Booked)
    (updated : raw.doUpdate dtimPeriod aids = some after) :
    after.Booked := by
  rw [MorseRaw.doUpdate] at updated
  split at updated
  · have counted := (booked.updateStations dtimPeriod aids).updateBeacon dtimPeriod
    rw [updateRpsIe] at updated
    split at updated
    · cases updated
      exact counted.congr rfl rfl rfl rfl rfl
    · exact counted.generateRpsIe updated
  · cases updated
    exact booked.congr rfl rfl rfl rfl rfl

/-- The condition of a step on the state before it: a command disables active
configurations only and keeps the kinds of the active ones. -/
def Keeps (raw : MorseRaw) : Action → Prop
  | .staticCmd _ _ group => GroupKeeps raw.dynamicRawInit { group with beaconIdx := u16Max }
  | .dynamicCmd tlvs => raw.numStatic ≤ 0 → DynamicKeeps tlvs raw.dynamicRawInit
  | _ => True

theorem booked_init (enable : Bool) : (init enable).Booked where
  distinct := List.nodup_nil
  known := fun _ linked => by cases linked
  raws := fun _ member => by cases member
  praws := fun _ member => by cases member
  sortedRaws := .nil
  sortedPraws := .nil
  counters := fun dynamic => by cases dynamic <;> rfl

/-- The books are right in every state that steps reach which meet their
condition. -/
theorem booked_of_reaches {enable : Bool} {raw : MorseRaw}
    (reaches : Reaches step Keeps (init enable) raw) :
    raw.Booked := by
  refine reaches.invariant (booked_init enable) ?_
  intro before action after booked keeps taken
  cases action with
  | staticCmd => exact booked.processStaticCmd keeps taken
  | dynamicCmd => exact booked.processDynamicCmd keeps taken
  | beacon =>
    cases taken
    rw [rawBeaconSent]
    split
    · exact booked.congr rfl rfl rfl rfl rfl
    · exact booked
  | stations =>
    cases taken
    exact booked.triggerUpdate true
  | update => exact booked.doUpdate taken

/-- A command that sets up configuration 1 and may enable it. -/
def setUp (enable : Bool) : ConfigGroup where
  id := 1
  enable := enable
  delete := false
  update := true
  beaconIdx := u16Max
  tlvs := [.slotDef 4000 2 0, .group 1 10]
  memory := true

/-- The state in which configuration 1 is stored and active. -/
def afterEnable : MorseRaw :=
  ((init true).processStaticCmd 1 (fun _ => 0) (setUp true)).getD (init true)

theorem booked_of_reaches_afterEnable : afterEnable.Booked := by
  have reaches : Reaches step Keeps (init true) afterEnable := by
    refine Reaches.of_run [.staticCmd 1 (fun _ => 0) (setUp true)] ⟨?_, trivial⟩ rfl
    intro _ _
    simp only [setUp, if_true]
    intro old created valid new found parsed
    cases found
    cases parsed
    exact fun active => by cases active
  exact booked_of_reaches reaches

/-- The state in which configuration 1 is stored and was never active. -/
def afterDisable : MorseRaw :=
  ((init true).processStaticCmd 1 (fun _ => 0) (setUp false)).getD (init true)

theorem not_booked_afterDisable :
    Reaches step (fun _ _ => True) (init true) afterDisable ∧ ¬ afterDisable.Booked := by
  refine ⟨Reaches.of_run [.staticCmd 1 (fun _ => 0) (setUp false)] ⟨trivial, trivial⟩ rfl,
    fun booked => ?_⟩
  have counted := booked.counters false
  revert counted
  decide

end MorseRaw
end Raw
end Morse
