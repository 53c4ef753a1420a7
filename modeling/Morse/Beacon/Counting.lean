import Morse.Beacon.Defs

/-!
# Interfaces that send beacons are counted

The counter goes down whenever an interface stops sending beacons, whether it did so before
or not, and up whenever one starts.  It says how many interfaces send beacons as long as those
start that did not and those stop that did.
-/

namespace Morse
namespace Beacon

open Lib

variable {maxVifs : Nat} {name : Nat → String} {mors next : Mors}

/-- The interrupt for the beacons of an interface is enabled. -/
def Enabled (mors : Mors) (id : Nat) : Prop :=
  mors.beaconIrqsEnabled.getLsbD (beaconIrqNum id) = true

instance (mors : Mors) (id : Nat) : Decidable (Enabled mors id) :=
  inferInstanceAs (Decidable (_ = true))

/-- As many interfaces are counted as there are interrupts for beacons. -/
def Counted (mors : Mors) : Prop := mors.numBcnVifs = popCount mors.beaconIrqsEnabled

/-! ## Starting and stopping -/

variable {id : Nat}

theorem Counted.beaconInit (counted : Counted mors) (fresh : ¬ Enabled mors id)
    (taken : beaconInit maxVifs mors id = some (next, enabled)) :
    Counted next := by
  obtain ⟨⟨changed, did⟩, change, taken⟩ := Option.bind_eq_some_iff.mp taken
  rw [beaconIrqEnable] at change
  split at change
  · cases change
    cases taken
    exact counted
  · obtain ⟨irqs, bits, change⟩ := Option.bind_eq_some_iff.mp change
    cases change
    cases taken
    rw [changeBit] at bits
    split at bits
    · next inside =>
        cases bits
        have more := popCount_or inside (Bool.not_eq_true _ ▸ fresh)
        rw [Counted] at counted ⊢
        simp only [if_true]
        rw [more, counted]
        rfl
    · cases bits

theorem Counted.beaconFinish_iff (counted : Counted mors)
    (taken : beaconFinish maxVifs mors id = some next) :
    Counted next ↔ id ≤ maxVifs ∧ Enabled mors id := by
  obtain ⟨⟨changed, did⟩, change, taken⟩ := Option.bind_eq_some_iff.mp taken
  cases taken
  rw [Counted] at counted ⊢
  rw [beaconIrqEnable] at change
  split at change
  · next large =>
      cases change
      dsimp only
      omega
  · next small =>
      obtain ⟨irqs, bits, change⟩ := Option.bind_eq_some_iff.mp change
      cases change
      rw [changeBit] at bits
      split at bits
      · next inside =>
          cases bits
          dsimp only
          rw [if_neg Bool.false_ne_true]
          by_cases set : Enabled mors id
          · have fewer := popCount_and_not inside set
            refine ⟨fun _ => ⟨not_lt.mp small, set⟩, fun _ => ?_⟩
            omega
          · have same := and_not_of_clear (Bool.not_eq_true _ ▸ set)
            rw [same]
            refine ⟨fun wrong => ?_, fun both => absurd both.2 set⟩
            omega
      · cases bits

/-! ## Interfaces -/

theorem counted_setRunning (handle : Nat) (running : Bool) :
    Counted (setRunning mors handle running) ↔ Counted mors := Iff.rfl

variable {type : IfType} {outcome : AddOutcome} {ret : Ret}

theorem Counted.addBeaconing (counted : Counted mors)
    (fresh : outcome.alloc = true → ¬ Enabled mors id)
    (taken : addBeaconing maxVifs mors type id outcome = some (next, ret)) :
    Counted next := by
  rw [Beacon.addBeaconing] at taken
  split at taken
  · cases taken
    exact counted
  · next granted =>
      obtain ⟨⟨started, enabled⟩, start, taken⟩ := Option.bind_eq_some_iff.mp taken
      cases taken
      rw [Bool.not_eq_true', Bool.not_eq_false] at granted
      exact counted.beaconInit (fresh granted) start

/-- An interface that starts sending beacons has an identifier whose interrupt is not
enabled. -/
def AddAdmits (maxVifs : Nat) (mors : Mors) (type : IfType) (outcome : AddOutcome) : Prop :=
  type.isApType = true → outcome.sameCountry = true → outcome.alloc = true →
    ∀ id ∈ outcome.cmdAddIf, id.toNat < maxVifs → id.toNat < 256 → ¬ Enabled mors id.toNat

theorem Counted.addInterface (counted : Counted mors) (admits : AddAdmits maxVifs mors type outcome)
    (taken : addInterface maxVifs mors handle type outcome = some (next, ret)) :
    Counted next := by
  rw [Beacon.addInterface] at taken
  split at taken
  · cases taken
    exact counted
  · split at taken
    · cases taken
      exact counted
    · next allowed =>
        split at taken
        · cases taken
          exact counted
        · next reported given =>
            dsimp only at taken
            split at taken
            · cases taken
              exact counted
            · next few =>
                split at taken
                · cases taken
                  exact counted
                · next octet =>
                    obtain ⟨⟨added, first⟩, add, taken⟩ := Option.bind_eq_some_iff.mp taken
                    cases taken
                    split at add
                    · next apType =>
                        rw [apType, Bool.true_and, Bool.not_eq_true', Bool.not_eq_false] at allowed
                        refine Counted.addBeaconing (by exact counted) (fun granted => ?_) add
                        refine admits apType allowed granted reported given (not_le.mp few) ?_
                        rw [not_not.mp octet]
                        exact Nat.mod_lt _ (by decide)
                    · cases add
                      exact counted

/-- An interface that stops sending beacons when it is removed has sent some. -/
def RemoveAdmits (maxVifs : Nat) (mors : Mors) (handle : Nat) : Prop :=
  stopsBeaconing mors (mors.vifs handle) = true →
    (mors.vifs handle).id ≤ maxVifs ∧ Enabled mors (mors.vifs handle).id

theorem Counted.removeInterface (counted : Counted mors) (admits : RemoveAdmits maxVifs mors handle)
    (taken : removeInterface maxVifs mors handle = some next) :
    Counted next := by
  obtain ⟨stopped, stop, taken⟩ := Option.bind_eq_some_iff.mp taken
  cases taken
  split at stop
  · next stops => exact (counted.beaconFinish_iff stop).mpr (admits stops)
  · cases stop
    exact counted

/-! ## The command -/

/-- An interface with a name. -/
def Named (maxVifs : Nat) (name : Nat → String) (mors : Mors) (iface : String) : Prop :=
  ∃ vifId < maxVifs, ∃ handle ∈ mors.vif vifId, name handle = iface

/-- The identifier of the transmitter that an interface is compared with, which is its own if
it is the transmitter. -/
def transmitterId (mors : Mors) (handle transmitter : Nat) : Nat :=
  if transmitter = handle then (mors.vifs transmitter).id % 256
  else (mors.vifs transmitter).transmitterVifId

/-- An interface that is not the transmitter of its transmitter has sent beacons, and if there
is no transmitter of a name, no interface has the last identifier. -/
def MbssidAdmits (maxVifs : Nat) (name : Nat → String) (mors : Mors) (handle : Option Nat)
    (iface : String) : Prop :=
  mors.enableMbssidIe = true → ∀ vif ∈ handle,
    (Named maxVifs name mors iface ∨ maxVifs = 0 ∨ mors.vif (maxVifs - 1) = none) ∧
    ∀ transmitter ∈ findTransmitter name mors iface none (List.range maxVifs),
      (mors.vifs vif).id ≠ transmitterId mors vif transmitter →
        (mors.vifs vif).id ≤ maxVifs ∧ Enabled mors (mors.vifs vif).id

variable {handle : Option Nat} {iface : String}

theorem Counted.processBssidInfo (counted : Counted mors)
    (admits : MbssidAdmits maxVifs name mors handle iface)
    (taken : processBssidInfo maxVifs name mors handle maxBssidIndicator iface =
      some (next, ret)) :
    Counted next := by
  unfold Beacon.processBssidInfo at taken
  split at taken
  · cases taken
    exact counted
  · next vif =>
      split at taken
      · cases taken
        exact counted
      · next enabled =>
          rw [Bool.not_eq_true', Bool.not_eq_false] at enabled
          split at taken
          · cases taken
            exact counted
          · next transmitter found =>
              obtain ⟨finished, finish, taken⟩ := Option.bind_eq_some_iff.mp taken
              cases taken
              have sends := (admits enabled vif rfl).2 transmitter found
              have own : ∀ changed : MorseVif, ((mors.setVif vif changed).vifs vif) = changed :=
                fun changed => Function.update_self _ _ _
              split at finish
              · next differs =>
                  rw [own] at finish differs
                  refine (Counted.beaconFinish_iff (by exact counted) finish).mpr (sends ?_)
                  rw [transmitterId]
                  split
                  · next same =>
                      subst same
                      rw [own] at differs
                      exact differs
                  · next apart =>
                      rw [Mors.setVif] at differs
                      dsimp only at differs
                      rw [Function.update_of_ne apart] at differs
                      exact differs
              · cases finish
                exact counted

theorem findTransmitter_of_not_named
    (missing : ∀ vifId ∈ vifIds, ∀ handle ∈ mors.vif vifId, name handle ≠ iface) :
    findTransmitter name mors iface last vifIds =
      (vifIds.getLast?.map mors.vif).getD last := by
  induction vifIds generalizing last with
  | nil => rfl
  | cons vifId rest ih =>
    have later : ∀ last, findTransmitter name mors iface last rest =
        (rest.getLast?.map mors.vif).getD last :=
      fun last => ih fun other member =>
        missing other (List.mem_cons_of_mem _ member)
    have whole : (((vifId :: rest).getLast?).map mors.vif).getD last =
        (rest.getLast?.map mors.vif).getD (mors.vif vifId) := by
      cases rest with
      | nil => rfl
      | cons second others => rfl
    rw [findTransmitter, whole]
    split
    · next empty => rw [later, empty]
    · next handle present =>
        rw [if_neg (missing vifId List.mem_cons_self handle present), later, present]

theorem processBssidInfo_of_not_named (maxBssidIndicator : BitVec 8)
    (missing : ¬ Named maxVifs name mors iface)
    (admits : MbssidAdmits maxVifs name mors handle iface) :
    ∃ ret, ret ≠ .ok ∧
      processBssidInfo maxVifs name mors handle maxBssidIndicator iface = some (mors, ret) := by
  unfold processBssidInfo
  split
  · exact ⟨.efault, by decide, rfl⟩
  · next vif =>
      split
      · exact ⟨.enoent, by decide, rfl⟩
      · next enabled =>
          rw [Bool.not_eq_true', Bool.not_eq_false] at enabled
          have none : findTransmitter name mors iface none (List.range maxVifs) = none := by
            rw [findTransmitter_of_not_named]
            · rcases (admits enabled vif rfl).1.resolve_left missing with zero | free
              · rw [zero]
                rfl
              · cases maxVifs with
                | zero => rfl
                | succ many =>
                  rw [List.range_succ, List.getLast?_concat]
                  exact free
            · intro vifId member other present same
              exact missing ⟨vifId, List.mem_range.mp member, other, present, same⟩
          rw [none]
          exact ⟨.enoent, by decide, rfl⟩

/-! ## Runs -/

/-- What is done with the interfaces starts those that did not send beacons and stops those
that did. -/
def Admits (maxVifs : Nat) (name : Nat → String) (mors : Mors) : Action → Prop
  | .add _ type outcome => AddAdmits maxVifs mors type outcome
  | .remove handle => RemoveAdmits maxVifs mors handle
  | .mbssid handle _ iface => MbssidAdmits maxVifs name mors handle iface

theorem Counted.step (counted : Counted mors) (admits : Admits maxVifs name mors action)
    (taken : step maxVifs name mors action = some next) :
    Counted next := by
  cases action with
  | add handle type outcome =>
    rw [Beacon.step] at taken
    split at taken
    · cases taken
    · obtain ⟨⟨added, ret⟩, add, taken⟩ := Option.bind_eq_some_iff.mp taken
      cases taken
      exact (counted_setRunning handle _).mpr (counted.addInterface admits add)
  | remove handle =>
    rw [Beacon.step] at taken
    split at taken
    · obtain ⟨removed, remove, taken⟩ := Option.bind_eq_some_iff.mp taken
      cases taken
      exact (counted_setRunning handle _).mpr (counted.removeInterface admits remove)
    · cases taken
  | mbssid handle maxBssidIndicator iface =>
    obtain ⟨⟨done, ret⟩, process, taken⟩ := Option.bind_eq_some_iff.mp taken
    cases taken
    exact counted.processBssidInfo admits process

/-- In every state that is reached, as many interfaces are counted as send beacons, so that
no beacon is dropped while the queue is empty, and a command without a transmitter fails and
changes nothing. -/
theorem beaconsCounted_of_reaches {enableMbssidIe : Bool}
    (reaches : Reaches (step maxVifs name) (Admits maxVifs name) (.start enableMbssidIe) mors) :
    mors.numBcnVifs = popCount mors.beaconIrqsEnabled ∧ 0 ≤ mors.numBcnVifs ∧
    (0 < popCount mors.beaconIrqsEnabled → beaconTaskletDrops mors 0 = false) ∧
    ∀ handle maxBssidIndicator iface, Admits maxVifs name mors (.mbssid handle maxBssidIndicator
      iface) → ¬ Named maxVifs name mors iface →
        ∃ ret, ret ≠ .ok ∧
          processBssidInfo maxVifs name mors handle maxBssidIndicator iface =
            some (mors, ret) := by
  have counted : Counted mors := by
    refine @Reaches.invariant _ _ (step maxVifs name) (Admits maxVifs name)
      (.start enableMbssidIe) mors Counted ?_ ?_ reaches
    · rw [Counted, Mors.start, popCount_zero]
      rfl
    · intro before action after holds admits taken
      exact holds.step admits taken
  rw [Counted] at counted
  refine ⟨counted, ?_, fun some => ?_, fun handle maxBssidIndicator iface admits missing =>
    processBssidInfo_of_not_named maxBssidIndicator missing admits⟩
  · rw [counted]
    exact Int.natCast_nonneg _
  · have few := popCount_le mors.beaconIrqsEnabled
    rw [beaconTaskletDrops, decide_eq_false_iff_not]
    omega

/-- An interface that is added without trouble. -/
def added (id : BitVec 16) : AddOutcome := ⟨true, some id, true, true, true⟩

/-- The names of the interfaces. -/
def wlanName (handle : Nat) : String := if handle = 0 then "wlan0" else "wlan1"

theorem beaconsCounted_of_reaches_twoAps :
    ∃ mors, run (step 2 wlanName) (.start false)
        [.add 0 .ap (added 0), .add 1 .ap (added 1), .remove 0] = some mors ∧
      mors.numBcnVifs = popCount mors.beaconIrqsEnabled ∧
      beaconTaskletDrops mors 0 = false := by
  refine ⟨_, rfl, ?_⟩
  have whole := beaconsCounted_of_reaches (@Reaches.of_run _ _ (step 2 wlanName) (Admits 2 wlanName)
    (.start false) _ [.add 0 .ap (added 0), .add 1 .ap (added 1), .remove 0]
    ⟨?_, ?_, ?_, trivial⟩ rfl)
  · exact ⟨whole.1, whole.2.2.1 (by decide)⟩
  · rintro - - - id ⟨⟩ - -
    decide
  · rintro - - - id ⟨⟩ - -
    decide
  · exact fun _ => ⟨by decide, by decide⟩

/-- An interface that is told twice that another one sends its beacons is counted out twice,
and a transmitter that does not exist is taken for the last interface. -/
theorem not_beaconsCounted_twice :
    (∃ mors, run (step 2 wlanName) (.start true)
        [.add 0 .ap (added 0), .add 1 .ap (added 1), .mbssid (some 1) 2 "wlan0",
          .mbssid (some 1) 2 "wlan0"] = some mors ∧
      0 < popCount mors.beaconIrqsEnabled ∧ mors.numBcnVifs = 0 ∧
        beaconTaskletDrops mors 0 = true) ∧
    ∃ mors next, run (step 2 wlanName) (.start true)
        [.add 0 .ap (added 0), .add 1 .ap (added 1)] = some mors ∧
      ¬ Named 2 wlanName mors "wlan9" ∧
        processBssidInfo 2 wlanName mors (some 0) 2 "wlan9" = some (next, .ok) := by
  refine ⟨⟨_, rfl, by decide, rfl, by decide⟩, _, _, rfl, ?_, rfl⟩
  rintro ⟨vifId, few, handle, -, same⟩
  rw [wlanName] at same
  split at same
  · exact absurd same (by decide)
  · exact absurd same (by decide)

end Beacon
end Morse
