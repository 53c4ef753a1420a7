import Morse.Iface.AddInterface

/-!
# When adding an interface is all or nothing

No step takes back what the steps before it did.  A call is all or nothing when it fails before
the firmware creates the interface, for an interface of which nothing is there, and when no step
fails at all.
-/

namespace Morse
namespace Iface

open Beacon

variable {setting : Setting} {outcome : Outcome} {world : World} {first next : Step}

/-! ## Steps in a row -/

theorem Step.orExit_of_eq_zero (returns : (first world).1 = 0) :
    first.orExit next world = next (first world).2 :=
  if_pos returns

theorem Step.orExit_of_ne_zero (fails : (first world).1 ≠ 0) :
    first.orExit next world = first world :=
  if_neg fails

theorem Step.orExit_returns :
    (first.orExit next world).1 = 0 ↔
      (first world).1 = 0 ∧ (next (first world).2).1 = 0 := by
  by_cases returns : (first world).1 = 0
  · rw [Step.orExit_of_eq_zero returns]
    exact ⟨fun both => ⟨returns, both⟩, fun both => both.2⟩
  · rw [Step.orExit_of_ne_zero returns]
    exact ⟨fun both => absurd both returns, fun both => absurd both.1 returns⟩

theorem Step.always_orExit (change : World → World) :
    (Step.always change).orExit next world = next (change world) :=
  if_pos rfl

/-- A step leaves the interfaces of the firmware as they are. -/
def Step.Keeps (step : Step) : Prop := ∀ world, (step world).2.firmware = world.firmware

theorem Step.Keeps.orExit (former : first.Keeps) (latter : next.Keeps) :
    (first.orExit next).Keeps := by
  intro world
  by_cases returns : (first world).1 = 0
  · rw [Step.orExit_of_eq_zero returns, latter, former]
  · rw [Step.orExit_of_ne_zero returns, former]

/-! ## Interfaces that send beacons -/

theorem keeps_allocAp : (allocAp outcome).Keeps := by
  intro world
  rw [allocAp]
  split
  · rfl
  · rfl

theorem keeps_meshInit : (meshInit setting outcome).Keeps := by
  intro world
  rw [meshInit]
  split
  · rfl
  · split
    · rfl
    · rfl

theorem keeps_addAp : (addAp setting outcome).Keeps := by
  rw [addAp]
  split
  · apply keeps_allocAp.orExit
    apply Step.Keeps.orExit
    · exact fun _ => rfl
    · apply Step.Keeps.orExit
      · exact fun _ => rfl
      · apply Step.Keeps.orExit
        · exact fun _ => rfl
        · apply keeps_meshInit.orExit
          exact fun _ => rfl
  · exact fun _ => rfl

theorem allocAp_returns : (allocAp outcome world).1 = 0 ↔ outcome.alloc = true := by
  rw [allocAp]
  cases outcome.alloc with
  | true => exact ⟨fun _ => rfl, fun _ => rfl⟩
  | false =>
    constructor
    · intro zero
      exact absurd zero (show ¬ (-12 : Int) = 0 by decide)
    · intro refused
      cases refused

theorem meshInit_returns :
    (meshInit setting outcome world).1 = 0 ↔
      (setting.type = .meshPoint → outcome.meshAlloc = true) := by
  rw [meshInit]
  by_cases mesh : setting.type = .meshPoint
  · rw [if_neg (not_not.mpr mesh)]
    cases outcome.meshAlloc with
    | true => exact ⟨fun _ _ => rfl, fun _ => rfl⟩
    | false =>
      constructor
      · intro zero
        exact absurd zero (show ¬ (-12 : Int) = 0 by decide)
      · intro granted
        exact absurd (granted mesh) Bool.false_ne_true
  · rw [if_pos mesh]
    exact ⟨fun _ both => absurd both mesh, fun _ => rfl⟩

theorem addAp_returns :
    (addAp setting outcome world).1 = 0 ↔
      (setting.type.isApType = true → ApSucceeds setting outcome) := by
  rw [addAp]
  by_cases beacons : setting.type.isApType = true
  · rw [if_pos beacons, Step.orExit_returns, Step.orExit_returns, Step.orExit_returns,
      Step.orExit_returns, Step.orExit_returns, allocAp_returns, meshInit_returns]
    constructor
    · rintro ⟨alloc, beaconIrq, ndpProbeIrq, -, mesh, -⟩ _
      exact ⟨alloc, beaconIrq, ndpProbeIrq, mesh⟩
    · intro succeeds
      obtain ⟨alloc, beaconIrq, ndpProbeIrq, mesh⟩ := succeeds beacons
      exact ⟨alloc, beaconIrq, ndpProbeIrq, rfl, mesh, rfl⟩
  · rw [if_neg beacons]
    exact ⟨fun _ both => absurd both beacons, fun _ => rfl⟩

/-! ## The whole interface -/

theorem keeps_setUp : (setUp setting outcome).Keeps := by
  apply Step.Keeps.orExit
  · exact fun _ => rfl
  · apply keeps_addAp.orExit
    apply Step.Keeps.orExit
    · intro world
      rw [getCapabilities]
      split
      · rfl
      · rfl
    · intro world
      change (enableFeatures setting world).firmware = world.firmware
      rw [enableFeatures]
      split
      · rfl
      · rfl
      · rfl

theorem setUp_returns :
    (setUp setting outcome world).1 = 0 ↔
      (setting.type.isApType = true → ApSucceeds setting outcome) ∧
        outcome.getCapabilities = 0 := by
  rw [setUp, Step.orExit_returns, Step.orExit_returns, Step.orExit_returns, addAp_returns]
  constructor
  · rintro ⟨-, beacons, capabilities, -⟩
    exact ⟨beacons, capabilities⟩
  · rintro ⟨beacons, capabilities⟩
    exact ⟨rfl, beacons, capabilities, rfl⟩

theorem meshInit_of_granted (granted : setting.type = .meshPoint → outcome.meshAlloc = true)
    (world : World) :
    ∃ mesh, (meshInit setting outcome world).2 = world.setVif { world.vif with mesh := mesh } ∧
      (setting.type = .meshPoint → mesh = some Mesh.meshInit) := by
  rw [meshInit]
  by_cases mesh : setting.type = .meshPoint
  · rw [if_neg (not_not.mpr mesh), if_pos (granted mesh)]
    exact ⟨_, rfl, fun _ => rfl⟩
  · rw [if_pos mesh]
    exact ⟨world.vif.mesh, rfl, fun both => absurd both mesh⟩

/-- An interface that sends beacons after all that it needs was set up. -/
structure Equipped (setting : Setting) (world after : World) : Prop where
  id : after.vif.id = world.vif.id
  table : after.table = world.table
  firmware : after.firmware = world.firmware
  vendorIe : after.vif.vendorIe = world.vif.vendorIe
  ap : after.vif.ap = some ⟨true, false, false⟩
  beacons : BeaconsUp after
  mesh : setting.type = .meshPoint → ∃ mesh, after.vif.mesh = some mesh

theorem addAp_of_succeeds (sends : setting.type.isApType = true)
    (succeeds : ApSucceeds setting outcome) (world : World) :
    ∃ after, addAp setting outcome world = (0, after) ∧ Equipped setting world after := by
  obtain ⟨alloc, beaconIrq, ndpProbeIrq, granted⟩ := succeeds
  have allocated : allocAp outcome world =
      (0, world.setVif { world.vif with ap := some ⟨false, false, false⟩ }) := if_pos alloc
  obtain ⟨mesh, meshed, present⟩ := meshInit_of_granted granted
    (linkAp (ndpProbeReqRespInit outcome (beaconInit outcome
      (world.setVif { world.vif with ap := some ⟨false, false, false⟩ })).2).2)
  refine ⟨startAp setting (meshInit setting outcome (linkAp (ndpProbeReqRespInit outcome
    (beaconInit outcome
      (world.setVif { world.vif with ap := some ⟨false, false, false⟩ })).2).2)).2, ?_, ?_⟩
  · rw [addAp, if_pos sends, Step.orExit_of_eq_zero (allocAp_returns.mpr alloc), allocated,
      Step.orExit_of_eq_zero beaconIrq, Step.orExit_of_eq_zero ndpProbeIrq, Step.always_orExit,
      Step.orExit_of_eq_zero (meshInit_returns.mpr granted)]
    rfl
  · rw [meshed]
    refine ⟨rfl, rfl, rfl, rfl, rfl, ⟨⟨_, rfl, rfl⟩, rfl, ?_, rfl, ?_⟩, ?_⟩
    · exact Function.update_self _ _ _
    · exact Function.update_self _ _ _
    · intro mine
      exact ⟨Mesh.meshInit, present mine⟩

variable {after : World}

theorem setUp_of_succeeds (added : addAp setting outcome (register setting world) = (0, after))
    (capabilities : outcome.getCapabilities = 0) :
    setUp setting outcome world =
      (0, finish setting (enableFeatures setting
        (after.setVif { after.vif with capabilities := true }))) := by
  have first : (addAp setting outcome (register setting world)).1 = 0 := by
    rw [added]
  have second : getCapabilities outcome after =
      (0, after.setVif { after.vif with capabilities := true }) := by
    rw [getCapabilities, capabilities, if_pos rfl]
  have third : (getCapabilities outcome after).1 = 0 := by
    rw [second]
  rw [setUp, Step.always_orExit, Step.orExit_of_eq_zero first, added,
    Step.orExit_of_eq_zero third, second]
  rfl

/-- The interface stands in the table under the identifier that the firmware gave it. -/
structure Entered (setting : Setting) (world : World) : Prop where
  room : world.vif.id.toNat < setting.maxVifs
  entry : world.table world.vif.id.toNat = some setting.handle
  known : world.vif.id ∈ world.firmware
  vendorIe : world.vif.vendorIe = true

variable {id : BitVec 16}

theorem entered_register (room : id.toNat < setting.maxVifs) (world : World) :
    Entered setting (register setting (created id world)) where
  room := room
  entry := Function.update_self _ _ _
  known := List.mem_cons_self
  vendorIe := rfl

theorem Equipped.entered (equipped : Equipped setting world after)
    (entered : Entered setting world) :
    Entered setting after := by
  refine ⟨?_, ?_, ?_, ?_⟩
  · rw [equipped.id]
    exact entered.room
  · rw [equipped.id, equipped.table]
    exact entered.entry
  · rw [equipped.id, equipped.firmware]
    exact entered.known
  · rw [equipped.vendorIe]
    exact entered.vendorIe

theorem complete_finish_of_sends (entered : Entered setting after)
    (equipped : Equipped setting world after) (sends : setting.type.isApType = true) :
    Complete setting (finish setting (enableFeatures setting
      (after.setVif { after.vif with capabilities := true }))) := by
  obtain ⟨room, entry, known, vendorIe⟩ := entered
  obtain ⟨-, tasklet, irq, ndpProbe, ndpProbeIrq⟩ := equipped.beacons
  cases kind : setting.type with
  | station =>
    rw [kind] at sends
    cases sends
  | unsupported =>
    rw [kind] at sends
    cases sends
  | ap =>
    have featured : Option.map
        (fun ap : MorseAp => { ap with raw := true, bssStats := true }) after.vif.ap =
        some ⟨true, true, true⟩ := by
      rw [equipped.ap]
      rfl
    rw [enableFeatures, kind]
    refine ⟨⟨room, entry⟩, known, ⟨vendorIe, rfl, rfl, rfl, rfl⟩,
      fun _ => ⟨⟨_, featured, rfl⟩, tasklet, irq, ndpProbe, ndpProbeIrq⟩,
      fun other => absurd (kind.symm.trans other) (by decide),
      fun _ => ⟨⟨_, featured, rfl, rfl⟩, ?_⟩,
      fun other => absurd (kind.symm.trans other) (by decide)⟩
    intro cac
    change (setting.enableCac || after.vif.cacTimer) = true
    rw [cac, Bool.true_or]
  | adhoc =>
    rw [enableFeatures, kind]
    exact ⟨⟨room, entry⟩, known, ⟨vendorIe, rfl, rfl, rfl, rfl⟩,
      fun _ => ⟨⟨_, equipped.ap, rfl⟩, tasklet, irq, ndpProbe, ndpProbeIrq⟩,
      fun other => absurd (kind.symm.trans other) (by decide),
      fun other => absurd (kind.symm.trans other) (by decide),
      fun other => absurd (kind.symm.trans other) (by decide)⟩
  | meshPoint =>
    rw [enableFeatures, kind]
    exact ⟨⟨room, entry⟩, known, ⟨vendorIe, rfl, rfl, rfl, rfl⟩,
      fun _ => ⟨⟨_, equipped.ap, rfl⟩, tasklet, irq, ndpProbe, ndpProbeIrq⟩,
      fun _ => equipped.mesh kind,
      fun other => absurd (kind.symm.trans other) (by decide),
      fun other => absurd (kind.symm.trans other) (by decide)⟩

theorem complete_finish_of_station (entered : Entered setting after)
    (station : setting.type = .station) :
    Complete setting (finish setting (enableFeatures setting
      (after.setVif { after.vif with capabilities := true }))) := by
  obtain ⟨room, entry, known, vendorIe⟩ := entered
  rw [enableFeatures, station]
  refine ⟨⟨room, entry⟩, known, ⟨vendorIe, rfl, rfl, rfl, rfl⟩, ?_,
    fun other => absurd (station.symm.trans other) (by decide),
    fun other => absurd (station.symm.trans other) (by decide), fun _ => rfl⟩
  intro sends
  rw [station] at sends
  cases sends

theorem complete_of_succeeds (room : id.toNat < setting.maxVifs)
    (supported : setting.type ≠ .unsupported)
    (beacons : setting.type.isApType = true → ApSucceeds setting outcome)
    (capabilities : outcome.getCapabilities = 0) :
    Complete setting (setUp setting outcome (created id world)).2 := by
  have entered := entered_register room world
  by_cases sends : setting.type.isApType = true
  · obtain ⟨after, added, equipped⟩ :=
      addAp_of_succeeds sends (beacons sends) (register setting (created id world))
    rw [setUp_of_succeeds added capabilities]
    exact complete_finish_of_sends (equipped.entered entered) equipped sends
  · have added : addAp setting outcome (register setting (created id world)) =
        (0, register setting (created id world)) := by
      rw [addAp, if_neg sends]
      rfl
    have station : setting.type = .station := by
      cases kind : setting.type with
      | station => rfl
      | unsupported => exact absurd kind supported
      | ap => exact absurd (congrArg IfType.isApType kind) sends
      | adhoc => exact absurd (congrArg IfType.isApType kind) sends
      | meshPoint => exact absurd (congrArg IfType.isApType kind) sends
    rw [setUp_of_succeeds added capabilities]
    exact complete_finish_of_station entered station

/-! ## All or nothing -/

theorem addInterface_of_refused (refused : Refused setting outcome) (world : World) :
    ∃ ret, ret ≠ 0 ∧ addInterface setting outcome world = (ret, world) := by
  rw [addInterface]
  by_cases unsupported : setting.type = .unsupported
  · exact ⟨-95, by decide, if_pos unsupported⟩
  · rw [if_neg unsupported]
    cases elsewhere : setting.type.isApType && !setting.sameCountry with
    | true => exact ⟨-1, by decide, if_pos rfl⟩
    | false =>
      rcases refused with kind | ⟨sends, country⟩ | ⟨failure, failed⟩
      · exact absurd kind unsupported
      · rw [sends, country] at elsewhere
        cases elsewhere
      · rw [failed]
        exact ⟨failure.val, failure.property, rfl⟩

theorem addInterface_of_not_refused (accepted : ¬ Refused setting outcome) (world : World) :
    ∃ id, outcome.cmdAddIf = .ok id ∧ setting.type ≠ .unsupported ∧
      addInterface setting outcome world =
        if setting.maxVifs ≤ id.toNat then (0, created id world)
        else if id.toNat ≠ id.toNat % 256 then (95, created id world)
        else setUp setting outcome (created id world) := by
  rw [Refused, not_or, not_or] at accepted
  obtain ⟨supported, country, success⟩ := accepted
  have here : (setting.type.isApType && !setting.sameCountry) = false := by
    cases sends : setting.type.isApType with
    | false => rfl
    | true =>
      cases same : setting.sameCountry with
      | true => rfl
      | false => exact absurd ⟨sends, same⟩ country
  cases reported : outcome.cmdAddIf with
  | error failure => exact absurd ⟨failure, reported⟩ success
  | ok id =>
    refine ⟨id, rfl, supported, ?_⟩
    rw [addInterface, if_neg supported, here, if_neg Bool.false_ne_true, reported]

theorem not_allOrNothing_of_created (kept : result.2.firmware = id :: world.firmware)
    (incomplete : result.1 = 0 → ¬ Complete setting result.2) :
    ¬ AllOrNothing setting world result := by
  intro holds
  by_cases returns : result.1 = 0
  · exact incomplete returns (holds.all returns)
  · have same := (holds.nothing returns).2
    rw [kept] at same
    exact absurd same (List.cons_ne_self _ _)

/-- Adding an interface is all or nothing exactly when no step fails, or when the call fails
before the firmware creates the interface and there is nothing of it before. -/
theorem allOrNothing_iff (setting : Setting) (outcome : Outcome) (world : World) :
    AllOrNothing setting world (addInterface setting outcome world) ↔
      (¬ Refused setting outcome ∧ Succeeds setting outcome) ∨
        (Refused setting outcome ∧ Bare setting world) := by
  by_cases refused : Refused setting outcome
  · obtain ⟨ret, fails, same⟩ := addInterface_of_refused refused world
    rw [same]
    constructor
    · intro holds
      exact Or.inr ⟨refused, (holds.nothing fails).1⟩
    · rintro (⟨accepted, -⟩ | ⟨-, bare⟩)
      · exact absurd refused accepted
      · exact ⟨fun returns => absurd returns fails, fun _ => ⟨bare, rfl⟩⟩
  · obtain ⟨id, reported, supported, called⟩ := addInterface_of_not_refused refused world
    rw [called]
    constructor
    · intro holds
      refine Or.inl ⟨refused, id, reported, ?_⟩
      by_cases beyond : setting.maxVifs ≤ id.toNat
      · rw [if_pos beyond] at holds
        have complete := holds.all rfl
        exact absurd complete.registered.1 (Nat.not_lt.mpr beyond)
      · rw [if_neg beyond] at holds
        by_cases wide : id.toNat ≠ id.toNat % 256
        · rw [if_pos wide] at holds
          have fails : ¬ (95 : Int) = 0 := by decide
          exact absurd holds (not_allOrNothing_of_created rfl (fun zero => absurd zero fails))
        · rw [if_neg wide] at holds
          have kept : (setUp setting outcome (created id world)).2.firmware =
              id :: world.firmware := keeps_setUp _
          have returns : (setUp setting outcome (created id world)).1 = 0 := by
            by_contra fails
            exact absurd holds (not_allOrNothing_of_created kept (fun zero => absurd zero fails))
          obtain ⟨beacons, capabilities⟩ := setUp_returns.mp returns
          exact ⟨Nat.not_le.mp beyond, by omega, beacons, capabilities⟩
    · rintro (⟨-, other, found, room, narrow, beacons, capabilities⟩ | ⟨early, -⟩)
      · rw [reported] at found
        cases found
        rw [if_neg (Nat.not_le.mpr room), if_neg (by omega)]
        have returns : (setUp setting outcome (created id world)).1 = 0 :=
          setUp_returns.mpr ⟨beacons, capabilities⟩
        exact ⟨fun _ => complete_of_succeeds room supported beacons capabilities,
          fun fails => absurd returns fails⟩
      · exact absurd early refused

/-- An access point on a chip with two interfaces. -/
def apSetting : Setting where
  handle := 1
  type := .ap
  maxVifs := 2
  sameCountry := true
  enablePv1 := false
  enableCac := true
  enableMcastRateControl := false

/-- An interface that nothing was done with. -/
def freshWorld : World where
  vif := ⟨0, false, false, none, false, false, none, false, false, false, false, false,
    false, false⟩
  table := fun _ => none
  beaconIrqsEnabled := fun _ => false
  ndpProbeIrqsEnabled := fun _ => false
  numBcnVifs := 0
  preAssocIfaces := 0
  numOfApInterfaces := 0
  firmware := []

/-- An identifier that there is no room for is no error, and an interface whose capabilities
cannot be asked for stays in the table with its beacons. -/
theorem not_allOrNothing_half_way :
    (¬ AllOrNothing apSetting freshWorld
        (addInterface apSetting ⟨.ok 2, true, 0, 0, true, 0⟩ freshWorld) ∧
      (addInterface apSetting ⟨.ok 2, true, 0, 0, true, 0⟩ freshWorld).1 = 0) ∧
    ¬ AllOrNothing apSetting freshWorld
        (addInterface apSetting ⟨.ok 0, true, 0, 0, true, -110⟩ freshWorld) ∧
      (addInterface apSetting ⟨.ok 0, true, 0, 0, true, -110⟩ freshWorld).1 = -110 ∧
      (addInterface apSetting ⟨.ok 0, true, 0, 0, true, -110⟩ freshWorld).2.table 0 = some 1 := by
  refine ⟨⟨?_, rfl⟩, ?_, rfl, rfl⟩
  · intro holds
    exact absurd (holds.all rfl).registered.1 (Nat.lt_irrefl 2)
  · intro holds
    have fails : ¬ (-110 : Int) = 0 := by decide
    exact absurd rfl ((holds.nothing fails).1.unregistered 0)

end Iface
end Morse
