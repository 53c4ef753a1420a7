import Morse.Raw.EachBeacon
import Morse.Raw.Sparing

/-!
# The lifetime of a periodic window

A periodic window counts beacons down to its start, and its validity down by one
when it has come back to the start offset.  A command, whatever it is for, has
the countdown of every periodic window begin again.  With a start offset below the
periodicity, the window lasts for as many whole periods as its validity.
-/

namespace Morse
namespace Raw

open Lib

/-- The countdown to the start as it was set. -/
def Periodic.restart (periodic : Periodic) : Periodic :=
  { periodic with curStartOffset := periodic.startOffset }

namespace MorseRaw

/-- A static configuration is linked among the periodic ones, with these fields. -/
structure Holds (id : BitVec 16) (periodic : Periodic) (raw : MorseRaw) : Prop where
  listed : raw.Listed
  linked : id ∈ raw.activePraws
  stored : ∃ cfg ∈ raw.rawConfigList, cfg.id = id ∧ cfg.hasBcnIdx = false ∧ cfg.periodic = periodic

/-- A configuration is not active any more, with its fields kept. -/
structure Expired (id : BitVec 16) (periodic : Periodic) (raw : MorseRaw) : Prop where
  inactive : raw.isConfigActive id = false
  stored : ∃ cfg ∈ raw.rawConfigList, cfg.id = id ∧ cfg.periodic = periodic

theorem Holds.spared {id : BitVec 16} (holds : Holds id periodic before)
    (spares : Spares id before after) :
    Holds id periodic after where
  listed := spares.listed holds.listed
  linked := spares.praws.mpr holds.linked
  stored := by
    obtain ⟨cfg, member, own, beacon, rfl⟩ := holds.stored
    obtain ⟨kept, known, same⟩ := spares.stored cfg member own
    exact ⟨kept, known, same.id.trans own, same.beacon.trans beacon, same.periodic⟩

theorem Expired.spared {id : BitVec 16} (expired : Expired id periodic before)
    (spares : Spares id before after) :
    Expired id periodic after where
  inactive := by
    rw [← Bool.not_eq_true, isConfigActive_iff, spares.raws, spares.praws, ← isConfigActive_iff,
      Bool.not_eq_true]
    exact expired.inactive
  stored := by
    obtain ⟨cfg, member, own, rfl⟩ := expired.stored
    obtain ⟨kept, known, same⟩ := spares.stored cfg member own
    exact ⟨kept, known, same.id.trans own, same.periodic⟩

/-! ## Commands -/

theorem Holds.dynamicRawInit {raw : MorseRaw} {id : BitVec 16} (holds : Holds id periodic raw) :
    Spares id raw raw.dynamicRawInit := by
  obtain ⟨cfg, member, own, beacon, _⟩ := holds.stored
  rw [MorseRaw.dynamicRawInit]
  split
  · have reset : Spares id raw { raw with numBeacons := 0, currentNum := 0 } :=
      .of_lists id rfl rfl rfl
    refine reset.trans (spares_foldl_deleteConfig (fun other found same => ?_) _)
    obtain ⟨known, dynamic⟩ := List.mem_filter.mp found
    rw [holds.listed.eq_of_id_eq member known (same.symm.trans own.symm), beacon] at dynamic
    cases dynamic
  · exact .refl id raw

theorem Holds.foldl_resetOffset {raw : MorseRaw} {id : BitVec 16} (holds : Holds id periodic raw)
    (ids : List (BitVec 16)) :
    Holds id (if id ∈ ids then periodic.restart else periodic)
      (ids.foldl (fun raw id => raw.modify id RawConfig.resetOffset) raw) := by
  induction ids generalizing periodic raw with
  | nil => exact holds
  | cons other rest ih =>
    by_cases same : other = id
    · subst same
      have reset : Holds other periodic.restart (raw.modify other RawConfig.resetOffset) := by
        obtain ⟨cfg, member, own, beacon, rfl⟩ := holds.stored
        refine ⟨⟨?_, holds.listed.linkedOnce⟩, holds.linked, ?_⟩
        · rw [@map_id_modify_of_id raw other RawConfig.resetOffset fun _ _ _ => rfl]
          exact holds.listed.distinct
        · refine ⟨cfg.resetOffset, List.mem_map.mpr ⟨cfg, member, if_pos own⟩, own, beacon, rfl⟩
      have again := ih reset
      rw [if_pos List.mem_cons_self]
      by_cases later : other ∈ rest
      · rw [if_pos later] at again
        exact again
      · rw [if_neg later] at again
        exact again
    · have spared := holds.spared (@spares_modify raw id other RawConfig.resetOffset
        (fun _ _ _ => rfl) fun equal => absurd equal same)
      have again := ih spared
      have member : id ∈ other :: rest ↔ id ∈ rest := by
        rw [List.mem_cons]
        exact or_iff_right (Ne.symm same)
      simp only [member]
      exact again

theorem Holds.decideUpdateEachBeacon {raw : MorseRaw} {id : BitVec 16}
    (holds : Holds id periodic raw) (dtimPeriod : BitVec 8) (stray : BitVec 16 → BitVec 16) :
    Holds id periodic.restart (raw.decideUpdateEachBeacon dtimPeriod stray) := by
  have some : raw.activePraws ≠ [] := List.ne_nil_of_mem holds.linked
  have cleared : Spares id raw { raw with updateEachBeacon := false } := .of_lists id rfl rfl rfl
  have reset := (holds.spared cleared).foldl_resetOffset raw.activePraws
  rw [if_pos holds.linked] at reset
  rw [MorseRaw.decideUpdateEachBeacon]
  rw [if_pos some]
  exact reset.spared (.of_lists id rfl rfl rfl)

/-- A dynamic command that does not name the configuration. -/
def SparingTlvs (id : BitVec 16) (tlvs : List DynamicTlv) : Prop :=
  ∀ other index nested memory, DynamicTlv.config other index nested memory ∈ tlvs → other ≠ id

theorem spares_dynamicWalk {raw : MorseRaw} {id : BitVec 16} (sparing : SparingTlvs id tlvs)
    (ends : MorseRaw.dynamicWalk tlvs raw = some walked) :
    Spares id raw walked.state := by
  induction tlvs generalizing raw with
  | nil =>
    cases ends
    exact .refl id raw
  | cons tlv rest ih =>
    have later : SparingTlvs id rest := fun other index nested memory member =>
      sparing other index nested memory (List.mem_cons_of_mem _ member)
    cases tlv with
    | global numConfigs numBcnIndexes =>
      have noted : Spares id raw { raw with numBeacons := numBcnIndexes.setWidth 8 } :=
        .of_lists id rfl rfl rfl
      rw [MorseRaw.dynamicWalk] at ends
      split at ends
      · cases ends
        exact noted
      · exact noted.trans (ih later ends)
    | config other index nested memory =>
      have apart := sparing other index nested memory List.mem_cons_self
      rw [MorseRaw.dynamicWalk] at ends
      split at ends
      · cases ends
      · next after processed =>
          exact (spares_processConfigGroup ⟨apart, fun _ => rfl⟩ processed).trans
            (ih later ends)
      · next error after processed =>
          cases ends
          exact spares_processConfigGroup ⟨apart, fun _ => rfl⟩ processed
    | nested => cases ends
    | unrecognised =>
      cases ends
      exact .refl id raw

theorem Holds.processDynamicCmd {raw : MorseRaw} {id : BitVec 16} (holds : Holds id periodic raw)
    (sparing : SparingTlvs id tlvs) (processed : raw.processDynamicCmd tlvs = some after) :
    Holds id periodic after := by
  have initial := holds.spared holds.dynamicRawInit
  rw [MorseRaw.processDynamicCmd] at processed
  split at processed
  · cases processed
    exact holds
  · split at processed
    · cases processed
    · next walked ends =>
        cases processed
        exact initial.spared (spares_dynamicWalk sparing ends)
    · next ret walked ends =>
        cases processed
        have decided := initial.spared (spares_dynamicWalk sparing ends)
        refine Holds.spared ?_ (spares_triggerUpdate id _ false)
        split <;> exact decided.spared (.of_lists id rfl rfl rfl)

theorem Holds.processStaticCmd {raw : MorseRaw} {id : BitVec 16} (holds : Holds id periodic raw)
    (sparing : SparingGroup id group)
    (processed : raw.processStaticCmd dtimPeriod stray group = some after) :
    Holds id periodic.restart after := by
  have initial := holds.spared holds.dynamicRawInit
  rw [MorseRaw.processStaticCmd] at processed
  split at processed
  · cases processed
  · next ret middle applied =>
      cases processed
      have static : SparingGroup id { group with beaconIdx := u16Max } := sparing
      have kept := initial.spared (spares_processConfigGroup static applied)
      exact (kept.decideUpdateEachBeacon dtimPeriod stray).spared (spares_triggerUpdate id _ false)

/-! ## Beacons -/

/-- What a counted beacon leaves of a window with some fields: it goes on, it has
come to its end and begins again, or it has come to its end and is not active any
more. -/
def Counted (id : BitVec 16) (periodic : Periodic) (after : MorseRaw) : Prop :=
  let counted := countBeacon periodic
  if counted.curValidity ≠ 0 then Holds id counted after
  else if periodic.refreshPraw then Holds id counted.reset after
  else Expired id counted.reset after

theorem Counted.spared {id : BitVec 16} (counted : Counted id periodic before)
    (spares : Spares id before after) :
    Counted id periodic after := by
  rw [Counted] at counted ⊢
  split at counted
  · next going =>
      rw [if_pos going]
      exact counted.spared spares
  · next ended =>
      rw [if_neg ended]
      split at counted
      · next again =>
          rw [if_pos again]
          exact counted.spared spares
      · next past =>
          rw [if_neg past]
          exact counted.spared spares

theorem Holds.updatePraw {raw : MorseRaw} {id : BitVec 16} (holds : Holds id periodic raw)
    (found : raw.findConfigById id = some config) (kickTx : Bool) :
    Counted id periodic (MorseRaw.updatePraw kickTx raw config).2 ∧
      (MorseRaw.updatePraw kickTx raw config).2.Listed := by
  obtain ⟨cfg, known, own, beacon, rfl⟩ := holds.stored
  obtain ⟨member, same⟩ := findConfigById_eq_some found
  rw [holds.listed.eq_of_id_eq known member (same.trans own.symm)]
  subst own
  have stored (fields : Periodic) :
      Holds cfg.id fields (raw.modify cfg.id fun config => { config with periodic := fields }) := by
    refine ⟨⟨?_, holds.listed.linkedOnce⟩, holds.linked, ?_⟩
    · have ids := @map_id_modify_of_id raw cfg.id (fun config => { config with periodic := fields })
        fun _ _ _ => rfl
      rw [ids]
      exact holds.listed.distinct
    · exact ⟨{ cfg with periodic := fields }, List.mem_map.mpr ⟨cfg, known, if_pos rfl⟩, rfl,
        beacon, rfl⟩
  rw [Counted, MorseRaw.updatePraw]
  by_cases ended : (countBeacon cfg.periodic).curValidity = 0
  · rw [if_neg (not_not.mpr ended), if_pos ended]
    by_cases again : cfg.periodic.refreshPraw = true
    · rw [if_pos again, if_pos (show (countBeacon cfg.periodic).refreshPraw = true from again)]
      exact ⟨stored _, (stored _).listed⟩
    · rw [if_neg again, if_neg (show ¬ (countBeacon cfg.periodic).refreshPraw = true from again)]
      refine ⟨⟨isConfigActive_deactivateConfig _ _, ?_⟩,
        listed_deactivateConfig (stored _).listed _⟩
      rw [deactivateConfig_rawConfigList]
      obtain ⟨kept, held, owns, _, fields⟩ := (stored (countBeacon cfg.periodic).reset).stored
      exact ⟨kept, held, owns, fields⟩
  · rw [if_pos ended, if_neg ended]
    exact ⟨stored _, (stored _).listed⟩

theorem Holds.updatePrawAfterBcn {raw : MorseRaw} {id : BitVec 16} (holds : Holds id periodic raw)
    (dtimPeriod : BitVec 8) :
    Counted id periodic (raw.updatePrawAfterBcn dtimPeriod) ∧
      (raw.updatePrawAfterBcn dtimPeriod).Listed := by
  obtain ⟨early, late, split⟩ := List.append_of_mem holds.linked
  have once := holds.listed.linkedOnce
  rw [split, List.nodup_append, List.nodup_cons] at once
  obtain ⟨_, ⟨lateApart, _⟩, disjoint⟩ := once
  have earlyApart : id ∉ early := fun member => disjoint id member id List.mem_cons_self rfl
  have before := @spares_updatePrawWalk id early earlyApart false raw
  have reached := holds.spared before
  obtain ⟨cfg, known, own, _, _⟩ := reached.stored
  have found := own ▸ reached.listed.findConfigById known
  have turn := reached.updatePraw found (updatePrawWalk early false raw).1
  have walked : Counted id periodic (updatePrawWalk raw.activePraws false raw).2 ∧
      (updatePrawWalk raw.activePraws false raw).2.Listed := by
    rw [split, updatePrawWalk_append, updatePrawWalk, found]
    have after := @spares_updatePrawWalk id late lateApart
      (MorseRaw.updatePraw (updatePrawWalk early false raw).1 (updatePrawWalk early false raw).2
        cfg).1 (MorseRaw.updatePraw (updatePrawWalk early false raw).1
          (updatePrawWalk early false raw).2 cfg).2
    exact ⟨turn.1.spared after, after.listed turn.2⟩
  rw [MorseRaw.updatePrawAfterBcn]
  split
  · next counted exact =>
      rw [exact] at walked
      exact ⟨walked.1.spared (.of_lists id rfl rfl rfl), walked.2.distinct, walked.2.linkedOnce⟩
  · next counted exact =>
      rw [exact] at walked
      exact walked

theorem updateStations_counts (raw : MorseRaw) (dtimPeriod : BitVec 8) (aids : List (BitVec 16)) :
    (raw.updateStations dtimPeriod aids).beaconSent = raw.beaconSent ∧
      (raw.updateStations dtimPeriod aids).numStatic = raw.numStatic := by
  have kept (ids : List (BitVec 16)) (state : MorseRaw) :
      (ids.foldl (fun raw id => raw.modify id (RawConfig.refreshIndexes aids)) state).beaconSent =
          state.beaconSent ∧
        (ids.foldl (fun raw id => raw.modify id (RawConfig.refreshIndexes aids)) state).numStatic =
          state.numStatic := by
    induction ids generalizing state with
    | nil => exact ⟨rfl, rfl⟩
    | cons id rest ih => exact ih _
  rw [updateStations]
  split
  · exact kept raw.activeRaws _
  · exact ⟨rfl, rfl⟩

theorem countDynamic_numStatic (raw : MorseRaw) : raw.countDynamic.numStatic = raw.numStatic := by
  rw [MorseRaw.countDynamic]
  split
  · split <;> rfl
  · rfl

/-- The update work counts a beacon for the periodic windows. -/
def counts (raw : MorseRaw) : Action → Bool
  | .update _ _ => raw.enabled && raw.beaconSent && decide (0 < raw.numStatic)
  | _ => false

theorem Holds.updateBeacon {raw : MorseRaw} {id : BitVec 16} (holds : Holds id periodic raw)
    (dtimPeriod : BitVec 8) :
    (if raw.beaconSent && decide (0 < raw.numStatic) then
        Counted id periodic (raw.updateBeacon dtimPeriod).2
      else Holds id periodic (raw.updateBeacon dtimPeriod).2) ∧
      (raw.updateBeacon dtimPeriod).2.Listed := by
  have cleared : Holds id periodic { raw with beaconSent := false } :=
    holds.spared (.of_lists id rfl rfl rfl)
  have noted := cleared.spared (spares_countDynamic id _)
  have number : { raw with beaconSent := false }.countDynamic.numStatic = raw.numStatic :=
    countDynamic_numStatic _
  rw [MorseRaw.updateBeacon]
  cases raw.beaconSent with
  | false => exact ⟨holds, holds.listed⟩
  | true =>
    rw [if_pos rfl, countStatic, number, Bool.true_and]
    by_cases static : 0 < raw.numStatic
    · have counted := noted.updatePrawAfterBcn dtimPeriod
      rw [if_pos static, if_pos (decide_eq_true static)]
      dsimp only
      split
      · exact ⟨counted.1.spared (.of_lists id rfl rfl rfl), counted.2.distinct,
          counted.2.linkedOnce⟩
      · exact counted
    · rw [if_neg static, if_neg (by rw [decide_eq_true_eq]; exact static)]
      exact ⟨noted, noted.listed⟩

theorem Holds.doUpdate {raw : MorseRaw} {id : BitVec 16} (holds : Holds id periodic raw)
    (updated : raw.doUpdate dtimPeriod aids = some after) :
    if raw.counts (.update dtimPeriod aids) then Counted id periodic after
    else Holds id periodic after := by
  have refreshed := holds.spared (spares_updateStations id raw dtimPeriod aids)
  obtain ⟨beaconSent, numStatic⟩ := updateStations_counts raw dtimPeriod aids
  have counted := refreshed.updateBeacon dtimPeriod
  rw [beaconSent, numStatic] at counted
  rw [MorseRaw.doUpdate] at updated
  rw [counts]
  cases enabled : raw.enabled with
  | false =>
    rw [enabled] at updated
    cases updated
    exact holds.spared (.of_lists id rfl rfl rfl)
  | true =>
    rw [enabled] at updated
    have announced := @spares_updateRpsIe id _ _ _ counted.2 updated
    rw [Bool.true_and]
    split
    · next counting =>
        rw [if_pos counting] at counted
        exact counted.1.spared announced
    · next idle =>
        rw [if_neg idle] at counted
        exact counted.1.spared announced

/-! ## The command -/

/-- A window whose counters are as they were set. -/
def IsFresh (periodic : Periodic) : Prop :=
  periodic.curValidity = periodic.validity ∧ periodic.curStartOffset = periodic.startOffset

theorem IsFresh.restart (fresh : IsFresh periodic) :
    periodic.restart = periodic := by
  obtain ⟨_, offset⟩ := fresh
  cases periodic
  dsimp only at offset
  subst offset
  rfl

theorem cmdToConfig_cons (parsed : morseRawCmdToConfig (tlv :: rest) cfg = some (true, new)) :
    ∃ middle, morseRawCmdToConfig rest middle = some (true, new) ∧
      (IsFresh middle.periodic ∨
        (∀ periodicity validity startOffset refreshOnExpiry,
          tlv ≠ .praw periodicity validity startOffset refreshOnExpiry) ∧
        middle.periodic = cfg.periodic) := by
  cases tlv with
  | slotDef rawDurationUs numSlots crossSlotBleed =>
    rw [morseRawCmdToConfig] at parsed
    split at parsed
    · cases parsed
    · exact ⟨_, parsed, .inr ⟨fun _ _ _ _ => Tlv.noConfusion, rfl⟩⟩
  | group =>
    exact ⟨_, parsed, .inr ⟨fun _ _ _ _ => Tlv.noConfusion, rfl⟩⟩
  | startTime =>
    exact ⟨_, parsed, .inr ⟨fun _ _ _ _ => Tlv.noConfusion, rfl⟩⟩
  | praw =>
    exact ⟨_, parsed, .inl ⟨rfl, rfl⟩⟩
  | bcnSpread =>
    exact ⟨_, parsed, .inr ⟨fun _ _ _ _ => Tlv.noConfusion, rfl⟩⟩
  | unrecognised => cases parsed

theorem cmdToConfig_keeps_fresh (fresh : IsFresh cfg.periodic)
    (parsed : morseRawCmdToConfig tlvs cfg = some (true, new)) :
    IsFresh new.periodic := by
  induction tlvs generalizing cfg with
  | nil =>
    rw [morseRawCmdToConfig, Option.some_inj, Prod.mk.injEq] at parsed
    exact parsed.2 ▸ fresh
  | cons tlv rest ih =>
    obtain ⟨middle, later, set | ⟨_, kept⟩⟩ := cmdToConfig_cons parsed
    · exact ih set later
    · exact ih (kept ▸ fresh) later

theorem cmdToConfig_fresh (named : .praw periodicity validity startOffset refreshOnExpiry ∈ tlvs)
    (parsed : morseRawCmdToConfig tlvs cfg = some (true, new)) :
    IsFresh new.periodic := by
  induction tlvs generalizing cfg with
  | nil => cases named
  | cons tlv rest ih =>
    obtain ⟨middle, later, set | ⟨other, _⟩⟩ := cmdToConfig_cons parsed
    · exact cmdToConfig_keeps_fresh set later
    · rcases List.mem_cons.mp named with rfl | member
      · exact absurd rfl (other _ _ _ _)
      · exact ih member later

/-- A command has a periodic window set up and enabled: it names the periodic
operation with some validity, its configuration is valid, and it is not active as
another kind of window. -/
structure Accepts (raw : MorseRaw) (group : ConfigGroup) (periodic : Periodic) : Prop where
  single : Single group
  enable : group.enable = true
  update : group.update = true
  unlinked : group.id ∉ raw.dynamicRawInit.activeRaws
  named : ∃ periodicity validity startOffset refreshOnExpiry,
    .praw periodicity validity startOffset refreshOnExpiry ∈ group.tlvs
  parsed : ∃ old created new,
    raw.dynamicRawInit.createOrFindById group.memory group.id = some (old, created) ∧
      morseRawCmdToConfig group.tlvs old = some (true, new) ∧ new.periodic = periodic
  valid : periodic.validity ≠ 0

theorem Accepts.fresh {raw : MorseRaw} (accepts : raw.Accepts group periodic) :
    IsFresh periodic := by
  obtain ⟨old, created, new, _, parsed, rfl⟩ := accepts.parsed
  obtain ⟨_, _, _, _, named⟩ := accepts.named
  exact cmdToConfig_fresh named parsed

theorem Accepts.holds {raw after : MorseRaw} (accepts : raw.Accepts group periodic)
    (listed : raw.Listed) (processed : raw.processStaticCmd dtimPeriod stray group = some after) :
    Holds group.id periodic after := by
  obtain ⟨old, created, new, found, parsed, period⟩ := accepts.parsed
  have initial := listed_dynamicRawInit listed
  obtain ⟨kept, own⟩ := @spares_createOrFindById group.id _ _ _ _ _ found
  have createdListed := kept.listed initial
  have id : new.id = group.id := (cmdToConfig_id parsed).trans own
  have stored : old ∈ created.rawConfigList := by
    rcases createOrFindById_cases found with
      ⟨member, _, rfl⟩ | ⟨_, rfl, configs, permuted, rfl⟩
    · exact member
    · exact permuted.mem_iff.mpr List.mem_cons_self
  have applied : raw.dynamicRawInit.processConfigGroup { group with beaconIdx := u16Max } =
      some (none, created.applyConfig (new.insertAt u16Max) true) := by
    rw [processConfigGroup, if_neg (BitVec.not_le.mpr accepts.single.1), if_neg accepts.single.2,
      if_pos accepts.update]
    rw [found]
    dsimp only
    rw [parsed, accepts.enable]
  have linked : group.id ∈ (created.applyConfig (new.insertAt u16Max) true).activePraws := by
    have member := @mem_activePraws_applyConfig (new.insertAt u16Max) created ?_
    · exact id ▸ member
    · split
      · next active =>
          rcases isConfigActive_iff.mp active with raws | praws
          · have wrong : group.id ∈ created.activeRaws := id ▸ raws
            exact absurd (kept.raws.mp wrong) accepts.unlinked
          · exact praws
      · exact decide_eq_true (period ▸ accepts.valid)
  have held : Holds group.id periodic (created.applyConfig (new.insertAt u16Max) true) := by
    refine ⟨?_, linked, new.insertAt u16Max, ?_, id, rfl, period⟩
    · have modified : (created.modify new.id fun _ => new.insertAt u16Max).Listed :=
        ⟨by
          rw [@map_id_modify_of_id created new.id (fun _ => new.insertAt u16Max)
            fun _ _ equal => equal.symm]
          exact createdListed.distinct, createdListed.linkedOnce⟩
      exact listed_activateConfig modified _
    · rw [applyConfig_rawConfigList]
      exact List.mem_map.mpr ⟨old, stored, if_pos (own.trans id.symm)⟩
  rw [MorseRaw.processStaticCmd, applied] at processed
  cases processed
  have restarted := held.decideUpdateEachBeacon dtimPeriod stray
  rw [accepts.fresh.restart] at restarted
  exact restarted.spared (spares_triggerUpdate group.id _ false)

/-! ## Periods -/

/-- The counters of a window at some beacon of its current period, with some
periods gone by. -/
structure Position (start : Periodic) (phase gone : Nat) (now : Periodic) : Prop where
  refreshPraw : now.refreshPraw = start.refreshPraw
  validity : now.validity = start.validity
  periodicity : now.periodicity = start.periodicity
  startOffset : now.startOffset = start.startOffset
  within : phase < start.periodicity.toNat
  curStartOffset : now.curStartOffset.toNat =
    (start.startOffset.toNat + (start.periodicity.toNat - phase)) % start.periodicity.toNat
  curValidity : now.curValidity.toNat + gone = start.validity.toNat

theorem Position.initial (fresh : IsFresh start)
    (inside : start.startOffset.toNat < start.periodicity.toNat) :
    Position start 0 0 start where
  refreshPraw := rfl
  validity := rfl
  periodicity := rfl
  startOffset := rfl
  within := by omega
  curStartOffset := by rw [fresh.2, Nat.sub_zero, Nat.add_mod_right, Nat.mod_eq_of_lt inside]
  curValidity := by rw [fresh.1, Nat.add_zero]

theorem Position.restart (position : Position start phase gone now)
    (inside : start.startOffset.toNat < start.periodicity.toNat) :
    Position start 0 gone now.restart where
  refreshPraw := position.refreshPraw
  validity := position.validity
  periodicity := position.periodicity
  startOffset := position.startOffset
  within := by omega
  curStartOffset := by
    rw [Nat.sub_zero, Nat.add_mod_right, Nat.mod_eq_of_lt inside, ← position.startOffset]
    rfl
  curValidity := position.curValidity

theorem Position.counted (position : Position start phase gone now)
    (inside : start.startOffset.toNat < start.periodicity.toNat) :
    (countBeacon now).curStartOffset.toNat =
      (start.startOffset.toNat + (start.periodicity.toNat - (phase + 1))) %
        start.periodicity.toNat := by
  have within := position.within
  have current := position.curStartOffset
  have zero : now.curStartOffset = 0 ↔ now.curStartOffset.toNat = 0 :=
    ⟨fun same => congrArg BitVec.toNat same, fun none => BitVec.eq_of_toNat_eq none⟩
  have one : (1 : BitVec 8).toNat = 1 := rfl
  have wraps (offset : Nat) (early : offset < start.periodicity.toNat) :
      offset % start.periodicity.toNat = offset := Nat.mod_eq_of_lt early
  have turned (offset : Nat) (late : start.periodicity.toNat ≤ offset)
      (early : offset < start.periodicity.toNat + start.periodicity.toNat) :
      offset % start.periodicity.toNat = offset - start.periodicity.toNat := by
    rw [Nat.mod_eq_sub_mod late, Nat.mod_eq_of_lt (by omega)]
  rw [countBeacon]
  by_cases late : phase ≤ start.startOffset.toNat
  · rw [turned _ (by omega) (by omega)] at current
    split
    · next past =>
        have nothing := zero.mp past
        rw [position.periodicity, BitVec.toNat_sub, wraps _ (by omega)]
        omega
    · next going =>
        have some := mt zero.mpr going
        rw [BitVec.toNat_sub, turned _ (by omega) (by omega)]
        omega
  · rw [wraps _ (by omega)] at current
    split
    · next past =>
        have nothing := zero.mp past
        omega
    · next going =>
        rw [BitVec.toNat_sub, wraps _ (by omega)]
        omega

theorem Position.curValidity_counted (position : Position start phase gone now)
    (inside : start.startOffset.toNat < start.periodicity.toNat)
    (lasting : gone < start.validity.toNat) :
    (countBeacon now).curValidity.toNat + gone +
        (if phase + 1 = start.periodicity.toNat then 1 else 0) = start.validity.toNat := by
  have within := position.within
  have offset := position.counted inside
  have validity := position.curValidity
  have one : (1 : BitVec 8).toNat = 1 := rfl
  have returns : (countBeacon now).curStartOffset = now.startOffset ↔
      phase + 1 = start.periodicity.toNat := by
    rw [position.startOffset]
    constructor
    · intro same
      rw [same] at offset
      by_cases late : phase + 1 ≤ start.startOffset.toNat
      · rw [Nat.mod_eq_sub_mod (by omega), Nat.mod_eq_of_lt (by omega)] at offset
        omega
      · rw [Nat.mod_eq_of_lt (by omega)] at offset
        omega
    · intro last
      apply BitVec.eq_of_toNat_eq
      rw [offset, last, Nat.sub_self, Nat.add_zero, Nat.mod_eq_of_lt inside]
  have value : (countBeacon now).curValidity =
      if (countBeacon now).curStartOffset = now.startOffset then now.curValidity - 1
      else now.curValidity := rfl
  rw [value]
  by_cases last : phase + 1 = start.periodicity.toNat
  · rw [if_pos (returns.mpr last), if_pos last, BitVec.toNat_sub]
    omega
  · rw [if_neg (mt returns.mp last), if_neg last]
    exact validity

theorem Position.occurs_iff (position : Position start phase gone now)
    (inside : start.startOffset.toNat < start.periodicity.toNat) :
    now.curStartOffset = 0 ↔ phase = start.startOffset.toNat := by
  have within := position.within
  have current := position.curStartOffset
  have zero : now.curStartOffset = 0 ↔ now.curStartOffset.toNat = 0 :=
    ⟨fun same => congrArg BitVec.toNat same, fun none => BitVec.eq_of_toNat_eq none⟩
  rw [zero, current]
  by_cases late : phase ≤ start.startOffset.toNat
  · rw [Nat.mod_eq_sub_mod (by omega), Nat.mod_eq_of_lt (by omega)]
    omega
  · rw [Nat.mod_eq_of_lt (by omega)]
    omega

/-! ## Announcements -/

theorem announces_praw_iff {raw : MorseRaw} {id : BitVec 16} (holds : Holds id periodic raw)
    (few : raw.activeRaws.length + raw.activePraws.length ≤ maxNumRaws)
    (updated : raw.updateRpsIe includePraws = some after) :
    after.announces id = true ↔ includePraws = true ∨ raw.activeRaws ≠ [] := by
  obtain ⟨cfg, member, own, _, _⟩ := holds.stored
  have known : id ∈ raw.rawConfigList.map RawConfig.id := List.mem_map.mpr ⟨cfg, member, own⟩
  rw [announces_updateRpsIe holds.listed updated, configsList]
  have short : ((raw.activeRaws.reverse.filter raw.isAnnounced).take maxNumRaws).length ≤
      raw.activeRaws.length := by
    rw [List.length_take]
    have filtered := List.length_filter_le raw.isAnnounced raw.activeRaws.reverse
    rw [List.length_reverse] at filtered
    omega
  generalize (raw.activeRaws.reverse.filter raw.isAnnounced).take maxNumRaws = chosen at *
  by_cases included : includePraws = true ∨ raw.activeRaws ≠ []
  · have all : raw.activePraws.reverse.take (maxNumRaws - chosen.length) =
        raw.activePraws.reverse := List.take_of_length_le (by rw [List.length_reverse]; omega)
    have condition : (includePraws || decide (raw.activeRaws ≠ [])) = true := by
      rw [Bool.or_eq_true, decide_eq_true_eq]
      exact included
    rw [if_pos condition, all]
    exact iff_of_true ⟨List.mem_append_right _ (List.mem_reverse.mpr holds.linked), known⟩ included
  · obtain ⟨without, none⟩ := not_or.mp included
    have condition : ¬ (includePraws || decide (raw.activeRaws ≠ [])) = true := by
      rw [Bool.or_eq_true, decide_eq_true_eq]
      exact included
    rw [not_not.mp none, List.length_nil, Nat.le_zero, List.length_eq_zero_iff] at short
    rw [if_neg condition, short]
    exact iff_of_false (fun both => by cases both.1) included

/-! ## Runs -/

/-- An action for another configuration. -/
def SparingAction (id : BitVec 16) : Action → Prop
  | .staticCmd _ _ group => SparingGroup id group
  | .dynamicCmd tlvs => SparingTlvs id tlvs
  | _ => True

/-- A command that has the countdowns begin again. -/
def Action.resets : Action → Bool
  | .staticCmd _ _ _ => true
  | _ => false

/-- A state, with the beacons counted in the current period of a window and the
periods that have gone by. -/
structure Traced where
  raw : MorseRaw
  phase : Nat
  gone : Nat

/-- A step, of a window with some periodicity. -/
def Traced.step (periodicity : Nat) (now : Traced) (action : Action) : Option Traced :=
  match now.raw.step action with
  | none => none
  | some raw =>
    some (
      if now.raw.counts action then
        if now.phase + 1 = periodicity then ⟨raw, 0, now.gone + 1⟩
        else ⟨raw, now.phase + 1, now.gone⟩
      else if action.resets then ⟨raw, 0, now.gone⟩
      else ⟨raw, now.phase, now.gone⟩)

/-- Actions for other configurations, as long as the window lasts. -/
def WhileLasting (id : BitVec 16) (start : Periodic) (now : Traced) (action : Action) : Prop :=
  SparingAction id action ∧ now.gone < start.validity.toNat

/-- The window is active, and its counters are those of its place in the current
period. -/
structure Lasts (id : BitVec 16) (start : Periodic) (now : Traced) : Prop where
  remaining : now.gone < start.validity.toNat
  active : ∃ periodic, Holds id periodic now.raw ∧
    Position start now.phase now.gone periodic ∧
    (periodic.curStartOffset = 0 ↔ now.phase = start.startOffset.toNat)

/-- After its last period the window begins again if it is to be refreshed, and is
not active otherwise. -/
structure IsOver (id : BitVec 16) (start : Periodic) (now : Traced) : Prop where
  gone : now.gone = start.validity.toNat
  refreshed : start.refreshPraw = true → Holds id start now.raw
  expired : start.refreshPraw = false → Expired id start now.raw

theorem Position.reset_eq (position : Position start phase gone now) (fresh : IsFresh start) :
    (countBeacon now).reset = start := by
  obtain ⟨refresh, validity, periodicity, startOffset, _, _, _⟩ := position
  obtain ⟨curValidity, curStartOffset⟩ := fresh
  cases start
  simp only at refresh validity periodicity startOffset curValidity curStartOffset
  subst refresh validity periodicity startOffset curValidity curStartOffset
  rfl

theorem Lasts.counted {id : BitVec 16} {now : Traced} (fresh : IsFresh start)
    (inside : start.startOffset.toNat < start.periodicity.toNat)
    (remaining : now.gone < start.validity.toNat)
    (position : Position start now.phase now.gone periodic) (counted : Counted id periodic after)
    (moved : next = if now.phase + 1 = start.periodicity.toNat then ⟨after, 0, now.gone + 1⟩
      else ⟨after, now.phase + 1, now.gone⟩) :
    Lasts id start next ∨ IsOver id start next := by
  have within := position.within
  have offset := position.counted inside
  have validity := position.curValidity_counted inside remaining
  have zero : (countBeacon periodic).curValidity = 0 ↔
      (countBeacon periodic).curValidity.toNat = 0 :=
    ⟨fun same => congrArg BitVec.toNat same, fun none => BitVec.eq_of_toNat_eq none⟩
  have going (phase gone : Nat) (exact : next = ⟨after, phase, gone⟩)
      (more : (countBeacon periodic).curValidity ≠ 0)
      (left : gone < start.validity.toNat)
      (place : Position start phase gone (countBeacon periodic)) :
      Lasts id start next := by
    rw [Counted, if_pos more] at counted
    subst exact
    exact ⟨left, countBeacon periodic, counted, place, place.occurs_iff inside⟩
  by_cases last : now.phase + 1 = start.periodicity.toNat
  · rw [if_pos last] at moved validity
    rw [last, Nat.sub_self, Nat.add_zero] at offset
    by_cases more : now.gone + 1 < start.validity.toNat
    · refine .inl (going 0 (now.gone + 1) moved (fun none => ?_) more ?_)
      · have nothing := zero.mp none
        omega
      · refine ⟨position.refreshPraw, position.validity, position.periodicity,
          position.startOffset, by omega, ?_, by omega⟩
        rw [offset, Nat.sub_zero, Nat.add_mod_right, Nat.mod_eq_of_lt inside]
    · have ended : (countBeacon periodic).curValidity = 0 := zero.mpr (by omega)
      rw [Counted, if_neg (not_not.mpr ended), position.reset_eq fresh,
        position.refreshPraw] at counted
      subst moved
      refine .inr ⟨?_, fun again => ?_, fun past => ?_⟩
      · dsimp only
        omega
      · rw [if_pos again] at counted
        exact counted
      · rw [if_neg (by rw [past]; exact Bool.false_ne_true)] at counted
        exact counted
  · rw [if_neg last] at moved validity
    refine .inl (going (now.phase + 1) now.gone moved (fun none => ?_) remaining ?_)
    · have nothing := zero.mp none
      omega
    · exact ⟨position.refreshPraw, position.validity, position.periodicity, position.startOffset,
        by omega, offset, by omega⟩

theorem Lasts.step {id : BitVec 16} (fresh : IsFresh start)
    (inside : start.startOffset.toNat < start.periodicity.toNat) (lasts : Lasts id start now)
    (sparing : SparingAction id action)
    (taken : Traced.step start.periodicity.toNat now action = some next) :
    Lasts id start next ∨ IsOver id start next := by
  obtain ⟨remaining, periodic, holds, position, occurs⟩ := lasts
  have stays (raw : MorseRaw) (held : Holds id periodic raw) :
      Lasts id start ⟨raw, now.phase, now.gone⟩ :=
    ⟨remaining, periodic, held, position, occurs⟩
  rw [Traced.step] at taken
  split at taken
  · cases taken
  · next after reached =>
      rw [Option.some_inj] at taken
      cases action with
      | staticCmd dtimPeriod stray group =>
        have held := holds.processStaticCmd sparing reached
        have place := position.restart inside
        subst taken
        exact .inl ⟨remaining, periodic.restart, held, place, place.occurs_iff inside⟩
      | dynamicCmd tlvs =>
        subst taken
        exact .inl (stays after (holds.processDynamicCmd sparing reached))
      | beacon =>
        cases reached
        subst taken
        refine .inl (stays _ (holds.spared ?_))
        rw [rawBeaconSent]
        split
        · exact .of_lists id rfl rfl rfl
        · exact .refl id _
      | stations =>
        cases reached
        subst taken
        exact .inl (stays _ (holds.spared (spares_triggerUpdate id _ true)))
      | update dtimPeriod aids =>
        have updated := holds.doUpdate reached
        split at updated
        · next counting =>
            rw [if_pos counting] at taken
            exact Lasts.counted fresh inside remaining position updated taken.symm
        · next idle =>
            rw [if_neg idle] at taken
            subst taken
            exact .inl (stays after updated)

/-- What the code does of the announcements of a window: each update lists it that
leaves it active, while periodic windows are transmitted or beside another one. -/
def Announced (id : BitVec 16) (raw : MorseRaw) : Prop :=
  ∀ dtimPeriod aids after, raw.enabled = true → raw.doUpdate dtimPeriod aids = some after →
    let counted := (raw.updateStations dtimPeriod aids).updateBeacon dtimPeriod
    counted.2.activeRaws.length + counted.2.activePraws.length ≤ maxNumRaws →
      id ∈ counted.2.activePraws →
        (after.announces id = true ↔ counted.1 = true ∨ counted.2.activeRaws ≠ [])

theorem Holds.announced {raw : MorseRaw} {id : BitVec 16} (holds : Holds id periodic raw) :
    Announced id raw := by
  intro dtimPeriod aids after enabled updated counted few linked
  rw [MorseRaw.doUpdate, if_pos enabled] at updated
  have refreshed := holds.spared (spares_updateStations id raw dtimPeriod aids)
  obtain ⟨outcome, listed⟩ := refreshed.updateBeacon dtimPeriod
  have held : ∃ fields, Holds id fields counted.2 := by
    split at outcome
    · rw [Counted] at outcome
      split at outcome
      · exact ⟨_, outcome⟩
      · split at outcome
        · exact ⟨_, outcome⟩
        · have inactive := outcome.inactive
          rw [← Bool.not_eq_true, isConfigActive_iff, not_or] at inactive
          exact absurd linked inactive.2
    · exact ⟨_, outcome⟩
  obtain ⟨fields, held⟩ := held
  exact announces_praw_iff held few updated

/-- From the command that sets it up on, a periodic window lasts for as many
periods as its validity, whatever happens to other configurations. -/
theorem praw_lifetime
    {raw started : MorseRaw} {group : ConfigGroup} {start : Periodic} {dtimPeriod : BitVec 8}
    {stray : BitVec 16 → BitVec 16} {now : Traced} (listed : raw.Listed)
    (accepts : raw.Accepts group start) (inside : start.startOffset.toNat < start.periodicity.toNat)
    (processed : raw.processStaticCmd dtimPeriod stray group = some started)
    (reaches : Reaches (Traced.step start.periodicity.toNat) (WhileLasting group.id start)
      ⟨started, 0, 0⟩ now) :
    (Lasts group.id start now ∧ Announced group.id now.raw) ∨ IsOver group.id start now := by
  have fresh := accepts.fresh
  have place := Position.initial fresh inside
  have some : 0 < start.validity.toNat :=
    Nat.pos_of_ne_zero fun none => accepts.valid (BitVec.eq_of_toNat_eq none)
  have initial : Lasts group.id start ⟨started, 0, 0⟩ :=
    ⟨some, start, accepts.holds listed processed, place, place.occurs_iff inside⟩
  have kept : Lasts group.id start now ∨ IsOver group.id start now := by
    refine @Reaches.invariant _ _ _ _ _ now
      (fun state => Lasts group.id start state ∨ IsOver group.id start state) (.inl initial) ?_
      reaches
    rintro before action after (lasts | past) ⟨sparing, remaining⟩ taken
    · exact lasts.step fresh inside sparing taken
    · exact absurd past.gone (Nat.ne_of_lt remaining)
  refine kept.imp_left fun lasts => ⟨lasts, ?_⟩
  obtain ⟨periodic, holds, _⟩ := lasts.active
  exact holds.announced

/-! ## A short window -/

/-- A command for window 1 with some periodicity, validity and start offset. -/
def setUpPraw (periodicity validity startOffset : BitVec 8) : ConfigGroup where
  id := 1
  enable := true
  delete := false
  update := true
  beaconIdx := u16Max
  tlvs := [.slotDef 4000 2 0, .group 1 10, .praw periodicity validity startOffset 0]
  memory := true

/-- The fields of the window as they are set. -/
def shortPraw (periodicity validity startOffset : BitVec 8) : Periodic where
  refreshPraw := false
  validity := validity
  periodicity := periodicity
  startOffset := startOffset
  curValidity := validity
  curStartOffset := startOffset

theorem accepts_setUpPraw (periodicity startOffset : BitVec 8) (valid : validity ≠ 0) :
    (init true).Accepts (setUpPraw periodicity validity startOffset)
      (shortPraw periodicity validity startOffset) where
  single := ⟨show (1 : BitVec 16) < rawInternalIdOffset by decide,
    show (1 : BitVec 16) ≠ 0 by decide⟩
  enable := rfl
  update := rfl
  unlinked := List.not_mem_nil
  named := ⟨periodicity, validity, startOffset, 0, by simp [setUpPraw]⟩
  parsed := ⟨_, _, _, rfl, rfl, rfl⟩
  valid := valid

theorem listed_init (enable : Bool) : (init enable).Listed := ⟨List.nodup_nil, List.nodup_nil⟩

/-- The state after the command and some beacons with an update each. -/
def beaconRun (started : MorseRaw) : Nat → Option MorseRaw
  | 0 => started.doUpdate 1 []
  | count + 1 =>
    match beaconRun started count with
    | none => none
    | some raw => raw.rawBeaconSent.doUpdate 1 []

/-- The state after the command. -/
def shortStarted (periodicity validity startOffset : BitVec 8) : MorseRaw :=
  ((init true).processStaticCmd 1 (fun _ => 0)
    (setUpPraw periodicity validity startOffset)).getD (init true)

theorem praw_lifetime_short :
    (Lasts 1 (shortPraw 3 2 1) ⟨(shortStarted 3 2 1).rawBeaconSent, 0, 0⟩ ∧
        Announced 1 (shortStarted 3 2 1).rawBeaconSent) ∨
      IsOver 1 (shortPraw 3 2 1) ⟨(shortStarted 3 2 1).rawBeaconSent, 0, 0⟩ := by
  have admitted : WhileLasting 1 (shortPraw 3 2 1) ⟨shortStarted 3 2 1, 0, 0⟩ .beacon :=
    ⟨trivial, by decide⟩
  have taken : Traced.step 3 ⟨shortStarted 3 2 1, 0, 0⟩ .beacon =
      some ⟨(shortStarted 3 2 1).rawBeaconSent, 0, 0⟩ := rfl
  exact praw_lifetime (listed_init true) (accepts_setUpPraw 3 1 (by decide)) (by decide) rfl
    (Reaches.start.step admitted taken)

/-- The announcements of a window number its validity and come once a period. -/
def IncludedPeriodically (id : BitVec 16) (start : Periodic) (states : Nat → Option MorseRaw) :
    Prop :=
  ∃ first, ∀ count, (∃ raw, states count = some raw ∧ raw.announces id = true) ↔
    ∃ turn < start.validity.toNat, count = first + turn * start.periodicity.toNat

/-- A window of validity 2 every second beacon is announced with the first three
beacons. -/
theorem not_includedPeriodically :
    ¬ ∀ (group : ConfigGroup) (start : Periodic) (started : MorseRaw),
      (init true).Accepts group start →
        start.startOffset.toNat < start.periodicity.toNat →
          (init true).processStaticCmd 1 (fun _ => 0) group = some started →
            IncludedPeriodically group.id start (beaconRun started) := by
  intro included
  obtain ⟨first, announced⟩ := included (setUpPraw 2 2 0) (shortPraw 2 2 0) (shortStarted 2 2 0)
    (accepts_setUpPraw 2 0 (by decide)) (by decide) rfl
  have listed (count : Nat) (early : count = 1 ∨ count = 2) :
      ∃ raw, beaconRun (shortStarted 2 2 0) count = some raw ∧ raw.announces 1 = true := by
    rcases early with rfl | rfl <;> exact ⟨_, rfl, rfl⟩
  obtain ⟨one, _, oneExact⟩ := (announced 1).mp (listed 1 (.inl rfl))
  obtain ⟨two, _, twoExact⟩ := (announced 2).mp (listed 2 (.inr rfl))
  have period : (shortPraw 2 2 0).periodicity.toNat = 2 := rfl
  rw [period] at oneExact twoExact
  omega

end MorseRaw
end Raw
end Morse
