import Morse.Ps.Defs
import Morse.Lib.Nesting

/-!
# The chip is awake while it is needed

The bus is off exactly while the chip sleeps, and it does not sleep while somebody needs it.
Those who need it are counted, from the one that is there from the start.
-/

namespace Morse
namespace Ps

open Lib

variable {cfg : Config} {mps next : MorsePs}

/-! ## Waking and sleeping -/

/-- Nothing is pending but a pause of the traffic, no frame waits to be sent, the busy pin is
not asserted, and with dynamic power save, where data can be sent, the time for which the bus
stays on is over. -/
structure MaySleep (cfg : Config) (mps : MorsePs) : Prop where
  flags : flagsOnEntry mps = 0
  txBuffered : mps.surroundings.txBufferedCount = 0
  busyPin : isBusyPinAsserted cfg mps = false
  timeout : mps.dynamicPsEn = true → isDataTxAllowed mps = true →
    timeBefore mps.surroundings.jiffies mps.busPsTimeout = false

/-- Nothing changed but whether the chip sleeps, and when to look at it again. -/
structure SameCounts (mps next : MorsePs) : Prop where
  wakers : next.wakers = mps.wakers
  enable : next.enable = mps.enable
  surroundings : next.surroundings = mps.surroundings
  disables : next.disables = mps.disables
  enables : next.enables = mps.enables

theorem SameCounts.refl (mps : MorsePs) : SameCounts mps mps := ⟨rfl, rfl, rfl, rfl, rfl⟩

/-- The bus is off exactly while the chip sleeps. -/
def BusFollows (mps : MorsePs) : Prop := mps.busEnabled = !mps.suspended

theorem sameCounts_setWakeGpio (mps : MorsePs) (raise : Bool) :
    SameCounts mps (setWakeGpio cfg mps raise) := by
  rw [setWakeGpio]
  split
  · exact ⟨rfl, rfl, rfl, rfl, rfl⟩
  · exact .refl mps

theorem suspended_setWakeGpio (mps : MorsePs) (raise : Bool) :
    (setWakeGpio cfg mps raise).suspended = mps.suspended ∧
      (setWakeGpio cfg mps raise).busEnabled = mps.busEnabled ∧
      (setWakeGpio cfg mps raise).sleeps = mps.sleeps := by
  rw [setWakeGpio]
  split
  · exact ⟨rfl, rfl, rfl⟩
  · exact ⟨rfl, rfl, rfl⟩

theorem wakeup_spec (mps : MorsePs) :
    SameCounts mps (wakeup cfg mps) ∧ (BusFollows mps → BusFollows (wakeup cfg mps)) ∧
      (mps.enable = true → (wakeup cfg mps).suspended = false) ∧
      ((wakeup cfg mps).suspended = true → mps.suspended = true) ∧
      (wakeup cfg mps).sleeps = mps.sleeps := by
  rw [wakeup]
  split
  · next off =>
      rw [Bool.not_eq_true'] at off
      refine ⟨.refl mps, id, fun on => ?_, id, rfl⟩
      rw [off] at on
      cases on
  · split
    · next awake =>
        rw [Bool.not_eq_true'] at awake
        exact ⟨.refl mps, id, fun _ => awake, id, rfl⟩
    · have same := @sameCounts_setWakeGpio cfg mps true
      refine ⟨⟨same.wakers, same.enable, same.surroundings, same.disables, same.enables⟩,
        fun _ => rfl, fun _ => rfl, by rintro ⟨⟩, (suspended_setWakeGpio mps true).2.2⟩

theorem sleep_spec (mps : MorsePs) :
    SameCounts mps (sleep cfg mps) ∧ (BusFollows mps → BusFollows (sleep cfg mps)) := by
  rw [sleep]
  split
  · exact ⟨⟨rfl, rfl, rfl, rfl, rfl⟩, id⟩
  · split
    · exact ⟨⟨rfl, rfl, rfl, rfl, rfl⟩, id⟩
    · refine ⟨?_, fun _ => ?_⟩
      · have same := @sameCounts_setWakeGpio cfg
          { mps with sleeps := mps.sleeps + 1, suspended := true, busEnabled := false } false
        exact ⟨same.wakers, same.enable, same.surroundings, same.disables, same.enables⟩
      · have same := @suspended_setWakeGpio cfg
          { mps with sleeps := mps.sleeps + 1, suspended := true, busEnabled := false } false
        rw [BusFollows, same.1, same.2.1]
        rfl

/-- What an evaluation does: it leaves the counts and the surroundings alone, the bus goes
with the chip, a chip that is needed is awake, and sleep is entered only when it may be. -/
structure Evaluated (cfg : Config) (mps next : MorsePs) : Prop extends SameCounts mps next where
  bus : BusFollows mps → BusFollows next
  needed : mps.enable = true → 0 < mps.wakers → next.suspended = false
  off : mps.enable = false → next.suspended = mps.suspended
  entered : next.sleeps ≠ mps.sleeps → MaySleep cfg mps ∧ mps.wakers = 0

theorem evaluated_evaluate (mps : MorsePs) : Evaluated cfg mps (evaluate cfg mps) := by
  rw [evaluate]
  split
  · next off =>
      rw [Bool.not_eq_true'] at off
      refine ⟨.refl mps, id, fun on => ?_, fun _ => rfl, fun changed => absurd rfl changed⟩
      rw [off] at on
      cases on
  · next on =>
      rw [Bool.not_eq_true', Bool.not_eq_false] at on
      obtain ⟨same, bus, awake, -, sleeps⟩ := @wakeup_spec cfg mps
      have impossible : ∀ suspended : Bool, mps.enable = false → suspended = mps.suspended := by
        intro suspended off
        rw [on] at off
        cases off
      dsimp only
      split
      · split
        · refine ⟨⟨same.wakers, same.enable, same.surroundings, same.disables, same.enables⟩, bus,
            fun on _ => awake on, impossible _, fun changed => absurd sleeps changed⟩
        · exact ⟨same, bus, fun on _ => awake on, impossible _, fun changed => absurd
            sleeps changed⟩
      · next idle =>
          simp only [Bool.or_eq_true, decide_eq_true_eq, not_or, Bool.and_eq_true,
            Bool.not_eq_true', Bool.or_eq_false_iff, decide_eq_false_iff_not, not_and] at idle
          obtain ⟨⟨⟨noWakers, noFlags⟩, noTx⟩, quiet⟩ := idle
          have unneeded : ∀ suspended : Bool, 0 < mps.wakers → suspended = false :=
            fun _ some => absurd some noWakers
          split
          · exact ⟨⟨rfl, rfl, rfl, rfl, rfl⟩, id, fun _ => unneeded _, impossible _,
              fun changed => absurd rfl changed⟩
          · next pin =>
              obtain ⟨same, bus⟩ := @sleep_spec cfg mps
              refine ⟨same, bus, fun _ => unneeded _, impossible _, fun _ => ⟨?_, ?_⟩⟩
              · refine ⟨not_not.mp noFlags, Nat.eq_zero_of_not_pos noTx,
                  Bool.not_eq_true _ ▸ pin, fun dynamic allowed => ?_⟩
                exact Bool.not_eq_true _ ▸
                  quiet ⟨⟨⟨⟨noWakers, noFlags⟩, noTx⟩, dynamic⟩, allowed⟩
              · exact Nat.eq_zero_of_not_pos noWakers

/-! ## The invariant -/

/-- The bus goes with the chip, and while power save is on, those who need the chip are
counted and keep it awake. -/
structure Kept (mps : MorsePs) : Prop where
  bus : BusFollows mps
  needed : mps.suspended = true → mps.wakers = 0
  counted : mps.enable = true → mps.wakers + mps.enables = 1 + mps.disables
  off : mps.enable = false → mps.wakers = 1 ∧ mps.suspended = false

/-- Fewer need the chip than the count can hold. -/
def Admits (mps : MorsePs) : Action → Prop
  | .disable => mps.wakers + 1 < 2 ^ 32
  | _ => True

theorem kept_evaluate (bus : BusFollows mps)
    (counted : mps.enable = true → mps.wakers + mps.enables = 1 + mps.disables)
    (off : mps.enable = false → mps.wakers = 1 ∧ mps.suspended = false) :
    Kept (evaluate cfg mps) := by
  have evaluated := @evaluated_evaluate cfg mps
  refine ⟨evaluated.bus bus, fun asleep => ?_, fun on => ?_, fun powerOff => ?_⟩
  · rw [evaluated.wakers]
    cases power : mps.enable with
    | true =>
      refine Nat.eq_zero_of_not_pos fun some => ?_
      rw [evaluated.needed power some] at asleep
      cases asleep
    | false =>
      rw [evaluated.off power, (off power).2] at asleep
      cases asleep
  · rw [evaluated.wakers, evaluated.enables, evaluated.disables]
    exact counted (evaluated.enable.symm.trans on)
  · have power := evaluated.enable.symm.trans powerOff
    rw [evaluated.wakers, evaluated.off power]
    exact off power

theorem Kept.wakeup (kept : Kept mps) : Kept (wakeup cfg mps) := by
  obtain ⟨same, bus, awake, asleep, -⟩ := @wakeup_spec cfg mps
  refine ⟨bus kept.bus, fun suspended => ?_, fun on => ?_, fun off => ?_⟩
  · rw [same.wakers]
    exact kept.needed (asleep suspended)
  · rw [same.wakers, same.enables, same.disables]
    exact kept.counted (same.enable.symm.trans on)
  · obtain ⟨one, up⟩ := kept.off (same.enable.symm.trans off)
    refine ⟨same.wakers.trans one, Bool.not_eq_true _ ▸ fun suspended => ?_⟩
    rw [asleep suspended] at up
    cases up

theorem Kept.disable (kept : Kept mps) (room : mps.wakers + 1 < 2 ^ 32) :
    Kept (disable cfg mps) := by
  rw [Ps.disable]
  split
  · next off =>
      rw [Bool.not_eq_true'] at off
      refine ⟨kept.bus, kept.needed, fun on => ?_, kept.off⟩
      rw [off] at on
      cases on
  · next on =>
      rw [Bool.not_eq_true', Bool.not_eq_false] at on
      refine kept_evaluate kept.bus (fun _ => ?_) fun off => ?_
      · have counted := kept.counted on
        dsimp only
        omega
      · rw [on] at off
        cases off

theorem Kept.enable (kept : Kept mps) : Kept (enable cfg mps) := by
  rw [Ps.enable]
  split
  · next off =>
      rw [Bool.not_eq_true'] at off
      refine ⟨kept.bus, kept.needed, fun on => ?_, kept.off⟩
      rw [off] at on
      cases on
  · next on =>
      rw [Bool.not_eq_true', Bool.not_eq_false] at on
      split
      · exact kept
      · next some =>
          refine kept_evaluate kept.bus (fun _ => ?_) fun off => ?_
          · have counted := kept.counted on
            dsimp only
            omega
          · rw [on] at off
            cases off

variable {action : Action}

theorem Kept.step (kept : Kept mps) (admits : Admits mps action)
    (taken : step cfg mps action = some next) :
    Kept next := by
  cases action with
  | disable =>
    cases taken
    exact kept.disable admits
  | enable =>
    cases taken
    exact kept.enable
  | busActivity timeoutMs =>
    cases taken
    exact ⟨kept.bus, kept.needed, kept.counted, kept.off⟩
  | evaluateWork =>
    rw [Ps.step] at taken
    split at taken
    · cases taken
    · cases taken
      exact kept_evaluate kept.bus kept.counted kept.off
  | irqHandle =>
    rw [Ps.step] at taken
    split at taken
    · cases taken
      exact ⟨kept.bus, kept.needed, kept.counted, kept.off⟩
    · cases taken
  | asyncWakeStart =>
    rw [Ps.step] at taken
    split at taken
    · cases taken
      exact ⟨kept.bus, kept.needed, kept.counted, kept.off⟩
    · cases taken
  | asyncWakeFinish =>
    rw [Ps.step] at taken
    split at taken
    · cases taken
      exact Kept.wakeup ⟨kept.bus, kept.needed, kept.counted, kept.off⟩
    · cases taken
  | queueEvaluate =>
    rw [Ps.step] at taken
    split at taken
    · cases taken
      exact ⟨kept.bus, kept.needed, kept.counted, kept.off⟩
    · cases taken
  | change surroundings =>
    cases taken
    exact ⟨kept.bus, kept.needed, kept.counted, kept.off⟩

/-! ## Disabling until enabling -/

/-- Power save is disabled. -/
def Action.isDisable : Action → Bool
  | .disable => true
  | _ => false

/-- Power save is enabled. -/
def Action.isEnable : Action → Bool
  | .enable => true
  | _ => false

theorem wakers_disable (mps : MorsePs) :
    (disable cfg mps).enable = mps.enable ∧
      (disable cfg mps).wakers =
        if mps.enable then (mps.wakers + 1) % 2 ^ 32 else mps.wakers := by
  rw [disable]
  split
  · next off =>
      rw [Bool.not_eq_true'] at off
      rw [off]
      exact ⟨rfl, rfl⟩
  · next on =>
      rw [Bool.not_eq_true', Bool.not_eq_false] at on
      have evaluated := @evaluated_evaluate cfg
        { mps with disables := mps.disables + 1, wakers := (mps.wakers + 1) % 2 ^ 32 }
      rw [if_pos on]
      exact ⟨evaluated.enable, evaluated.wakers⟩

theorem wakers_enable (mps : MorsePs) :
    (enable cfg mps).enable = mps.enable ∧ (enable cfg mps).wakers ≤ mps.wakers ∧
      mps.wakers ≤ (enable cfg mps).wakers + 1 := by
  rw [enable]
  split
  · exact ⟨rfl, Nat.le_refl _, Nat.le_succ _⟩
  · split
    · exact ⟨rfl, Nat.le_refl _, Nat.le_succ _⟩
    · have evaluated := @evaluated_evaluate cfg
        { mps with wakers := mps.wakers - 1, enables := mps.enables + 1 }
      refine ⟨evaluated.enable, ?_, ?_⟩
      · rw [evaluated.wakers]
        exact Nat.sub_le _ _
      · rw [evaluated.wakers]
        dsimp only
        omega

theorem wakers_step (taken : step cfg mps action = some next) :
    next.enable = mps.enable ∧
      (action ≠ .disable → action ≠ .enable → next.wakers = mps.wakers) := by
  cases action with
  | disable =>
    cases taken
    exact ⟨(wakers_disable mps).1, fun other => absurd rfl other⟩
  | enable =>
    cases taken
    exact ⟨(wakers_enable mps).1, fun _ other => absurd rfl other⟩
  | busActivity timeoutMs =>
    cases taken
    exact ⟨rfl, fun _ _ => rfl⟩
  | evaluateWork =>
    rw [step] at taken
    split at taken
    · cases taken
    · cases taken
      have evaluated := @evaluated_evaluate cfg { mps with delayedEvalWork := none }
      exact ⟨evaluated.enable, fun _ _ => evaluated.wakers⟩
  | irqHandle | asyncWakeStart | queueEvaluate =>
    rw [step] at taken
    split at taken
    · cases taken
      exact ⟨rfl, fun _ _ => rfl⟩
    · cases taken
  | asyncWakeFinish =>
    rw [step] at taken
    split at taken
    · cases taken
      have same := (@wakeup_spec cfg { mps with asyncAsserted := false }).1
      exact ⟨same.enable, fun _ _ => same.wakers⟩
    · cases taken
  | change surroundings =>
    cases taken
    exact ⟨rfl, fun _ _ => rfl⟩

theorem awake_of_nested (kept : Kept mps) (room : mps.wakers + 1 < 2 ^ 32)
    (nested : Nested Action.isDisable Action.isEnable 0 actions)
    (guarded : Guarded (step cfg) Admits (disable cfg mps) actions)
    (finishes : run (step cfg) (disable cfg mps) actions = some final) :
    final.suspended = false := by
  have whole : Kept final := by
    refine @Reaches.invariant _ _ (step cfg) Admits (disable cfg mps) final Kept
      (kept.disable room) ?_ (.of_run actions guarded finishes)
    intro before action after holds admits taken
    exact holds.step admits taken
  have power : final.enable = mps.enable := by
    refine @Reaches.invariant _ _ (step cfg) Admits (disable cfg mps) final
      (fun state => state.enable = mps.enable) (wakers_disable mps).1 ?_
      (.of_run actions guarded finishes)
    intro before action after same _ taken
    exact (wakers_step taken).1.trans same
  cases on : mps.enable with
  | false => exact (whole.off (power.trans on)).2
  | true =>
    have some : 1 ≤ final.wakers := by
      refine @le_level_of_nested _ _ Action.isDisable Action.isEnable (step cfg) Admits
        MorsePs.wakers (fun state => state.enable = true) ?_ ?_ ?_ ?_ actions 0 1
        (disable cfg mps) final ((wakers_disable mps).1.trans on) nested ?_ guarded finishes
      · intro before action after enabled _ taken
        exact (wakers_step taken).1.trans enabled
      · intro before action after enabled admits taken opening
        cases action with
        | disable =>
          cases taken
          apply Nat.le_of_eq
          rw [(wakers_disable before).2, if_pos enabled, Nat.mod_eq_of_lt admits]
        | enable | busActivity | evaluateWork | irqHandle | asyncWakeStart | asyncWakeFinish
        | queueEvaluate | change => cases opening
      · intro before action after enabled admits taken
        by_cases disabling : action = .disable
        · subst disabling
          cases taken
          rw [(wakers_disable before).2, if_pos enabled, Nat.mod_eq_of_lt admits]
          omega
        · by_cases enabling : action = .enable
          · subst enabling
            cases taken
            exact (wakers_enable before).2.2
          · rw [(wakers_step taken).2 disabling enabling]
            exact Nat.le_succ _
      · intro before action after enabled admits taken other
        by_cases disabling : action = .disable
        · subst disabling
          cases taken
          rw [(wakers_disable before).2, if_pos enabled, Nat.mod_eq_of_lt admits]
          exact Nat.le_succ _
        · refine Nat.le_of_eq ((wakers_step taken).2 disabling fun enabling => ?_).symm
          subst enabling
          cases other
      · rw [(wakers_disable mps).2, if_pos on]
        omega
    refine Bool.not_eq_true _ ▸ fun asleep => ?_
    rw [whole.needed asleep] at some
    cases some

/-! ## Runs -/

theorem MaySleep.of_same (may : MaySleep cfg changed)
    (surroundings : changed.surroundings = mps.surroundings)
    (dynamic : changed.dynamicPsEn = mps.dynamicPsEn)
    (timeout : changed.busPsTimeout = mps.busPsTimeout) :
    MaySleep cfg mps := by
  obtain ⟨flags, txBuffered, busyPin, quiet⟩ := may
  rw [flagsOnEntry, surroundings] at flags
  rw [surroundings] at txBuffered
  rw [isBusyPinAsserted, surroundings] at busyPin
  rw [isDataTxAllowed, surroundings, dynamic, timeout] at quiet
  exact ⟨flags, txBuffered, busyPin, quiet⟩

theorem maySleep_of_sleeps_ne (taken : step cfg mps action = some next)
    (entered : next.sleeps ≠ mps.sleeps) :
    MaySleep cfg mps ∧ next.wakers = 0 := by
  have judged : ∀ changed : MorsePs, changed.surroundings = mps.surroundings →
      changed.dynamicPsEn = mps.dynamicPsEn → changed.busPsTimeout = mps.busPsTimeout →
        changed.sleeps = mps.sleeps → evaluate cfg changed = next →
          MaySleep cfg mps ∧ next.wakers = 0 := by
    intro changed surroundings dynamic timeout sleeps same
    have evaluated := @evaluated_evaluate cfg changed
    rw [same] at evaluated
    rw [← sleeps] at entered
    obtain ⟨may, zero⟩ := evaluated.entered entered
    exact ⟨may.of_same surroundings dynamic timeout, evaluated.wakers.trans zero⟩
  cases action with
  | disable =>
    cases taken
    rw [disable] at entered
    split at entered
    · exact absurd rfl entered
    · next on =>
        refine judged
          { mps with disables := mps.disables + 1, wakers := (mps.wakers + 1) % 2 ^ 32 }
          rfl rfl rfl rfl ?_
        exact (if_neg on).symm
  | enable =>
    cases taken
    rw [enable] at entered
    split at entered
    · exact absurd rfl entered
    · next on =>
        split at entered
        · exact absurd rfl entered
        · next some =>
            refine judged { mps with wakers := mps.wakers - 1, enables := mps.enables + 1 }
              rfl rfl rfl rfl ?_
            rw [enable, if_neg on, if_neg some]
  | evaluateWork =>
    rw [step] at taken
    split at taken
    · cases taken
    · cases taken
      exact judged { mps with delayedEvalWork := none } rfl rfl rfl rfl rfl
  | irqHandle | asyncWakeStart | queueEvaluate =>
    rw [step] at taken
    split at taken
    · cases taken
      exact absurd rfl entered
    · cases taken
  | asyncWakeFinish =>
    rw [step] at taken
    split at taken
    · cases taken
      obtain ⟨-, -, -, -, sleeps⟩ := @wakeup_spec cfg { mps with asyncAsserted := false }
      exact absurd sleeps entered
    · cases taken
  | busActivity | change =>
    cases taken
    exact absurd rfl entered

/-- In every state that is reached, the bus is off exactly while the chip sleeps, it sleeps
only while nobody needs it, those who need it are counted, it does not sleep between disabling
power save and enabling it again, and sleep is entered only where it may be. -/
theorem awake_of_reaches {powerSave dynamicPsEn : Bool} {surroundings : Surroundings}
    (reaches : Reaches (step cfg) Admits (.init powerSave dynamicPsEn surroundings) mps) :
    (mps.busEnabled = false ↔ mps.suspended = true) ∧
    (mps.suspended = true → mps.wakers = 0) ∧
    (powerSave = true → mps.wakers + mps.enables = 1 + mps.disables) ∧
    (powerSave = false → mps.wakers = 1 ∧ mps.suspended = false) ∧
    (∀ disabled actions final, Admits mps .disable → step cfg mps .disable = some disabled →
      Nested Action.isDisable Action.isEnable 0 actions →
        Guarded (step cfg) Admits disabled actions →
          run (step cfg) disabled actions = some final → final.suspended = false) ∧
    ∀ action next, step cfg mps action = some next → next.sleeps ≠ mps.sleeps →
      MaySleep cfg mps ∧ next.wakers = 0 := by
  have kept : Kept mps := by
    refine @Reaches.invariant _ _ (step cfg) Admits _ mps Kept ?_ ?_ reaches
    · exact ⟨rfl, by rintro ⟨⟩, fun _ => rfl, fun _ => ⟨rfl, rfl⟩⟩
    · intro before action after holds admits taken
      exact holds.step admits taken
  have power : mps.enable = powerSave := by
    refine @Reaches.invariant _ _ (step cfg) Admits _ mps
      (fun state => state.enable = powerSave) rfl ?_ reaches
    intro before action after same _ taken
    exact (wakers_step taken).1.trans same
  refine ⟨?_, kept.needed, fun on => kept.counted (power.trans on),
    fun off => kept.off (power.trans off), ?_,
    fun action next taken entered => maySleep_of_sleeps_ne taken entered⟩
  · rw [kept.bus]
    cases mps.suspended with
    | false => exact ⟨by rintro ⟨⟩, by rintro ⟨⟩⟩
    | true => exact ⟨fun _ => rfl, fun _ => rfl⟩
  · intro disabled actions final room taken nested guarded finishes
    cases taken
    exact awake_of_nested kept room nested guarded finishes

/-- Nothing is pending, and the busy pin is not asserted. -/
def quiet : Surroundings := ⟨0, 0, false, false, 0⟩

/-- A chip with pins for power save, where a millisecond is one unit of time. -/
def pins : Config := ⟨true, true, fun ms => BitVec.ofNat 64 ms⟩

theorem awake_of_reaches_command :
    ∃ mps, run (step pins) (.init true false quiet) [.enable, .disable] = some mps ∧
      mps.wakers + mps.enables = 1 + mps.disables ∧ mps.busEnabled = true := by
  refine ⟨_, rfl, ?_⟩
  have whole := awake_of_reaches (@Reaches.of_run _ _ (step pins) Admits
    (.init true false quiet) _ [.enable, .disable]
      ⟨trivial, Nat.le_of_ble_eq_true rfl, trivial⟩ rfl)
  refine ⟨whole.2.2.1 rfl, ?_⟩
  rfl

/-- Power save was disabled so often, and never enabled. -/
def disabledTimes (times : Nat) : MorsePs :=
  { MorsePs.init true false quiet with wakers := 1 + times, disables := times }

theorem disable_disabledTimes (room : times + 2 < 2 ^ 32) :
    disable pins (disabledTimes times) = disabledTimes (times + 1) := by
  have count : (1 + times + 1) % 2 ^ 32 = 1 + (times + 1) := Nat.mod_eq_of_lt (by omega)
  have some : 0 < 1 + (times + 1) := by omega
  rw [disable]
  simp only [disabledTimes, MorsePs.init, Bool.not_true, Bool.false_eq_true, if_false, count,
    evaluate, some, decide_true, Bool.true_or, Bool.false_and, Bool.or_false, if_true, wakeup,
    Bool.not_false]

theorem run_disabledTimes (times before : Nat) (room : before + times + 1 < 2 ^ 32) :
    run (step pins) (disabledTimes before) (List.replicate times .disable) =
      some (disabledTimes (before + times)) := by
  induction times generalizing before with
  | zero => rfl
  | succ times ih =>
    rw [List.replicate_succ, run, step, disable_disabledTimes (by omega)]
    dsimp only
    rw [ih (before + 1) (by omega), Nat.add_assoc, Nat.add_comm 1 times]

/-- Power save that is enabled once too often is not counted below zero, and the chip sleeps
after power save was disabled more often than the count can hold. -/
theorem not_awake_enabledTwice :
    (∃ mps, run (step pins) (.init true false quiet) [.enable, .enable] = some mps ∧
      (mps.wakers : Int) ≠ 1 + ([Action.enable, Action.enable].countP Action.isDisable : Int) -
        ([Action.enable, Action.enable].countP Action.isEnable : Int)) ∧
    ∃ mps asleep, run (step pins) (.init true false quiet)
        (List.replicate (2 ^ 32 - 2) .disable) = some mps ∧
      step pins mps .disable = some asleep ∧ asleep.suspended = true := by
  refine ⟨⟨_, rfl, by decide⟩, disabledTimes (2 ^ 32 - 2), _, ?_, rfl, by decide⟩
  have many := run_disabledTimes (2 ^ 32 - 2) 0 (by decide)
  exact many

end Ps
end Morse
