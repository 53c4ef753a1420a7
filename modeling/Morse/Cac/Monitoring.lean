import Morse.Cac.Defs

/-!
# Monitoring the threshold

The threshold is to follow the requests: a check at which they exceed the limit of a rule
to decrease it lowers it, and it is raised at the end of a whole period only.  The requests
and the checks of a period are counted beside the code, as are the limits of the rules that
were configured to decrease the threshold.
-/

namespace Morse
namespace Cac

/-! ## Runs -/

/-- What an access point meets: an authentication frame, the timer, or a configuration. -/
inductive Event
  | auth (authTransaction : BitVec 16)
  | tick
  | cfgSet (rule : List ThresholdChangeRule)
  deriving DecidableEq, Repr

/-- The state, with the limits to decrease the threshold, and with the requests and the
checks since the period began. -/
structure Monitor where
  cac : MorseCac
  decreaseLimits : List Nat
  requests : Nat
  checks : Nat
  deriving DecidableEq, Repr

/-- The limits of the rules that are to decrease the threshold. -/
def limitsOf (rules : List ThresholdChangeRule) : List Nat :=
  (rules.filter ThresholdChangeRule.decreases).map fun rule => rule.arfs.toNat

/-- An interface that was just set up. -/
def start : Monitor where
  cac := init { cacPeriodUsed := 0, enabled := false, rules := [], thresholdValue := 0, arfs := 0 }
  decreaseLimits := limitsOf thresholdChangeRulesDefault
  requests := 0
  checks := 0

/-- What an event does.  A period begins when the code sets its time to zero. -/
def Monitor.step (monitor : Monitor) : Event → Monitor
  | .auth authTransaction =>
    { monitor with
      cac := if monitor.cac.enabled then countAuth monitor.cac authTransaction else monitor.cac
      requests := if authTransaction = 1 then monitor.requests + 1 else monitor.requests }
  | .tick =>
    let cac := timerWork monitor.cac
    { monitor with
      cac := cac
      requests := if cac.cacPeriodUsed = 0 then 0 else monitor.requests
      checks := if cac.cacPeriodUsed = 0 then 0 else monitor.checks + 1 }
  | .cfgSet rule =>
    match Cac.cfgSet rule with
    | .error _ => monitor
    | .ok rules =>
      { monitor with
        cac := { monitor.cac with rules := rules }
        decreaseLimits := limitsOf rule }

/-- A property of the states and events of a run. -/
def Throughout (property : Monitor → Event → Prop) (monitor : Monitor) : List Event → Prop
  | [] => True
  | event :: events =>
    property monitor event ∧ Throughout property (monitor.step event) events

/-! ## What is expected -/

/-- The requests exceed the limit of a rule to decrease the threshold. -/
def Monitor.Exceeds (monitor : Monitor) : Prop :=
  ∃ limit ∈ monitor.decreaseLimits, limit < monitor.requests

/-- What an event is to do to the threshold. -/
structure Meets (monitor : Monitor) (event : Event) : Prop where
  /-- The threshold stays in its range. -/
  bounded : (monitor.step event).cac.thresholdValue ≤ thresholdMax
  /-- A check with too many requests lowers the threshold. -/
  lowers : event = .tick → monitor.Exceeds →
    (monitor.step event).cac.thresholdValue ≤ monitor.cac.thresholdValue ∧
      (monitor.cac.thresholdValue ≠ 0 →
        (monitor.step event).cac.thresholdValue < monitor.cac.thresholdValue)
  /-- The threshold is raised by the last check of a period only. -/
  raises : monitor.cac.thresholdValue < (monitor.step event).cac.thresholdValue →
    event = .tick ∧ (monitor.checks + 1) * checkIntervalMs = checkPeriodMs

/-- The next check is the last of a period. -/
def endsPeriod (cac : MorseCac) : Bool :=
  decide (cac.cacPeriodUsed + checkIntervalMs ≥ checkPeriodMs)

/-- A rule to decrease the threshold ends the check if its limit is exceeded.  Another ends it
if the threshold is at its maximum, in the middle of a period, and if the requests are
below its limit. -/
def ends (cac : MorseCac) (rule : ThresholdChangeRule) : Bool :=
  if rule.decreases then decide (cac.arfs > rule.arfs)
  else decide (cac.thresholdValue = thresholdMax) || !endsPeriod cac ||
    decide (cac.arfs < rule.arfs)

/-- At a check with too many requests the first rule that ends it is one to decrease the
threshold; or the threshold is zero, and no rule ends the check, or one that does not raise it. -/
def Guarded (monitor : Monitor) (event : Event) : Prop :=
  event = .tick → monitor.Exceeds →
    match monitor.cac.rules.find? (ends monitor.cac) with
    | none => monitor.cac.thresholdValue = 0
    | some rule => rule.decreases = true ∨
        monitor.cac.thresholdValue = 0 ∧
          (endsPeriod monitor.cac = false ∨ rule.thresholdChange = 0)

/-! ## The change of a check -/

/-- The change by the rule that ends a check. -/
def changeOf (cac : MorseCac) : Option ThresholdChangeRule → Int
  | none => 0
  | some rule =>
    if rule.decreases = true ∨ cac.thresholdValue ≠ thresholdMax ∧ endsPeriod cac = true then
      rule.thresholdChange.toInt
    else 0

/-- The change that a check makes. -/
def tickChange (cac : MorseCac) : Int := changeOf cac (cac.rules.find? (ends cac))

theorem setThresholdChange_eq (cac : MorseCac) (used : Nat) (rules : List ThresholdChangeRule) :
    setThresholdChange { cac with cacPeriodUsed := used } (endsPeriod cac) rules =
      changeOf cac (rules.find? (ends cac)) := by
  induction rules with
  | nil => rfl
  | cons rule rules ih =>
    rw [setThresholdChange, List.find?_cons, ih]
    cases decreases : rule.decreases with
    | true =>
      by_cases exceeded : cac.arfs > rule.arfs
      · simp only [ends, decreases, if_true, if_pos exceeded, decide_eq_true exceeded, changeOf,
          true_or]
      · simp only [ends, decreases, if_true, if_neg exceeded, decide_eq_false exceeded]
    | false =>
      by_cases atMax : cac.thresholdValue = thresholdMax
      · simp [ends, decreases, atMax, changeOf]
      · by_cases last : endsPeriod cac = true
        · by_cases few : cac.arfs < rule.arfs
          · simp [ends, decreases, atMax, last, few, changeOf]
          · simp [ends, decreases, atMax, last, few]
        · simp [ends, decreases, atMax, last, changeOf]

variable {cac : MorseCac}

theorem tickChange_of_calm (calm : ¬ (cac.arfs ≠ 0 ∨ cac.thresholdValue ≠ thresholdMax)) :
    tickChange cac = 0 := by
  rw [not_or, not_not] at calm
  obtain ⟨none', atMax⟩ := calm
  rw [tickChange]
  cases found : cac.rules.find? (ends cac) with
  | none => rfl
  | some rule =>
    have stops := List.find?_some found
    cases decreases : rule.decreases with
    | true =>
      rw [ends, if_pos decreases, none', decide_eq_true_eq] at stops
      exact absurd stops (Nat.not_lt_zero _)
    | false => simp [changeOf, decreases, atMax]

theorem timerWork_eq (enabled : cac.enabled = true) (bounded : cac.thresholdValue ≤ thresholdMax) :
    timerWork cac =
      { thresholdChange cac (tickChange cac) with
        cacPeriodUsed :=
          if endsPeriod cac = true ∨ tickChange cac ≠ 0 then 0
          else cac.cacPeriodUsed + checkIntervalMs
        arfs := if endsPeriod cac = true ∨ tickChange cac ≠ 0 then 0 else cac.arfs } := by
  have change : (if cac.arfs ≠ 0 ∨ cac.thresholdValue ≠ thresholdMax then
      setThresholdChange { cac with cacPeriodUsed := cac.cacPeriodUsed + checkIntervalMs }
        (endsPeriod cac) cac.rules else 0) = tickChange cac := by
    split
    · exact setThresholdChange_eq cac _ cac.rules
    · next calm => exact (tickChange_of_calm calm).symm
  have stays (cac : MorseCac) (bounded : cac.thresholdValue ≤ thresholdMax) :
      thresholdChange cac 0 = cac := by
    have below : ¬ ((cac.thresholdValue : Int) < 0) := by omega
    have above : ¬ ((cac.thresholdValue : Int) > thresholdMax) := by omega
    rw [thresholdChange]
    simp only [Int.add_zero, if_neg below, if_neg above, Int.toNat_natCast]
  have on : ¬ (!cac.enabled) = true := by
    rw [enabled]
    exact Bool.false_ne_true
  rw [timerWork, if_neg on]
  rw [endsPeriod] at change ⊢
  dsimp only
  rw [change]
  by_cases moves : tickChange cac = 0
  · by_cases last : cac.cacPeriodUsed + checkIntervalMs ≥ checkPeriodMs
    · simp [moves, last, stays cac bounded]
    · simp [moves, last, stays cac bounded]
  · simp [moves, thresholdChange]

theorem cacPeriodUsed_timerWork (enabled : cac.enabled = true)
    (bounded : cac.thresholdValue ≤ thresholdMax) :
    (timerWork cac).cacPeriodUsed =
      if endsPeriod cac = true ∨ tickChange cac ≠ 0 then 0
      else cac.cacPeriodUsed + checkIntervalMs := by
  rw [timerWork_eq enabled bounded]

theorem enabled_timerWork (enabled : cac.enabled = true)
    (bounded : cac.thresholdValue ≤ thresholdMax) :
    (timerWork cac).enabled = true := by
  rw [timerWork_eq enabled bounded]
  exact enabled

/-! ## The threshold -/

theorem thresholdValue_thresholdChange (cac : MorseCac) (diff : Int) :
    ((thresholdChange cac diff).thresholdValue : Int) =
      max 0 (min (thresholdMax : Int) (cac.thresholdValue + diff)) := by
  rw [thresholdChange]
  dsimp only
  split
  · omega
  · split
    · omega
    · omega

theorem endsPeriod_of_tickChange_pos (raises : 0 < tickChange cac) :
    endsPeriod cac = true := by
  rw [tickChange] at raises
  cases found : cac.rules.find? (ends cac) with
  | none =>
    rw [found] at raises
    exact absurd raises (Int.lt_irrefl 0)
  | some rule =>
    rw [found, changeOf] at raises
    split at raises
    · next either =>
        rcases either with decreases | ⟨-, last⟩
        · rw [ThresholdChangeRule.decreases, decide_eq_true_eq] at decreases
          exact absurd raises (Int.not_lt.mpr (Int.le_of_lt decreases))
        · exact last
    · exact absurd raises (Int.lt_irrefl 0)

theorem lowers_iff (enabled : cac.enabled = true) (bounded : cac.thresholdValue ≤ thresholdMax) :
    ((timerWork cac).thresholdValue ≤ cac.thresholdValue ∧
        (cac.thresholdValue ≠ 0 →
          (timerWork cac).thresholdValue < cac.thresholdValue)) ↔
      tickChange cac < 0 ∨ cac.thresholdValue = 0 ∧ tickChange cac = 0 := by
  have next := thresholdValue_thresholdChange cac (tickChange cac)
  have limit : (thresholdMax : Int) = 1023 := rfl
  rw [timerWork_eq enabled bounded]
  dsimp only
  omega

theorem tickChange_guarded_iff (cac : MorseCac) :
    tickChange cac < 0 ∨ cac.thresholdValue = 0 ∧ tickChange cac = 0 ↔
      match cac.rules.find? (ends cac) with
      | none => cac.thresholdValue = 0
      | some rule => rule.decreases = true ∨
          cac.thresholdValue = 0 ∧ (endsPeriod cac = false ∨ rule.thresholdChange = 0) := by
  rw [tickChange]
  cases cac.rules.find? (ends cac) with
  | none => simp [changeOf]
  | some rule =>
    cases decreases : rule.decreases with
    | true =>
      have negative := decreases
      rw [ThresholdChangeRule.decreases, decide_eq_true_eq] at negative
      simp [changeOf, decreases, negative]
    | false =>
      have nonneg := decreases
      rw [ThresholdChangeRule.decreases, decide_eq_false_iff_not] at nonneg
      have zero : rule.thresholdChange.toInt = 0 ↔ rule.thresholdChange = 0 := by
        rw [← BitVec.toInt_inj]
        rfl
      by_cases empty : cac.thresholdValue = 0
      · cases last : endsPeriod cac with
        | true => simp [changeOf, decreases, empty, last, zero, nonneg, thresholdMax]
        | false => simp [changeOf, decreases, empty, last]
      · simp only [changeOf, decreases, Bool.false_eq_true, false_or, empty, false_and,
          or_false, iff_false, Int.not_lt]
        split
        · exact Int.not_lt.mp nonneg
        · exact Int.le_refl 0

/-! ## Every run -/

/-- What holds of every state that is reached: the time of the period is that of its checks. -/
structure Sound (monitor : Monitor) : Prop where
  enabled : monitor.cac.enabled = true
  bounded : monitor.cac.thresholdValue ≤ thresholdMax
  timed : monitor.cac.cacPeriodUsed = monitor.checks * checkIntervalMs
  within : monitor.cac.cacPeriodUsed < checkPeriodMs

theorem sound_start : Sound start := by
  constructor <;> decide

variable {monitor : Monitor}

theorem bounded_step (sound : Sound monitor) (event : Event) :
    (monitor.step event).cac.thresholdValue ≤ thresholdMax := by
  cases event with
  | auth authTransaction =>
    rw [Monitor.step, sound.enabled, if_pos rfl, countAuth]
    split
    · exact sound.bounded
    · exact sound.bounded
  | tick =>
    have next := thresholdValue_thresholdChange monitor.cac (tickChange monitor.cac)
    rw [Monitor.step, timerWork_eq sound.enabled sound.bounded]
    dsimp only
    omega
  | cfgSet rule =>
    rw [Monitor.step]
    split
    · exact sound.bounded
    · exact sound.bounded

theorem sound_step (sound : Sound monitor) (event : Event) :
    Sound (monitor.step event) := by
  have bounded := bounded_step sound event
  cases event with
  | auth authTransaction =>
    rw [Monitor.step, sound.enabled, if_pos rfl, countAuth] at bounded ⊢
    split
    · exact ⟨sound.enabled, sound.bounded, sound.timed, sound.within⟩
    · exact ⟨sound.enabled, sound.bounded, sound.timed, sound.within⟩
  | tick =>
    have timed := sound.timed
    have last : endsPeriod monitor.cac = true ↔
        monitor.cac.cacPeriodUsed + checkIntervalMs ≥ checkPeriodMs := by
      rw [endsPeriod, decide_eq_true_eq]
    have used := cacPeriodUsed_timerWork sound.enabled sound.bounded
    refine ⟨enabled_timerWork sound.enabled sound.bounded, bounded, ?_, ?_⟩
    · show (timerWork monitor.cac).cacPeriodUsed =
        (if (timerWork monitor.cac).cacPeriodUsed = 0 then 0 else monitor.checks + 1) *
          checkIntervalMs
      rw [checkIntervalMs] at *
      split
      · next restarted => rw [restarted]
      · next goesOn =>
          split at used
          · exact absurd used goesOn
          · omega
    · show (timerWork monitor.cac).cacPeriodUsed < checkPeriodMs
      rw [used]
      split
      · decide
      · next goesOn =>
          rw [not_or, last] at goesOn
          exact Nat.not_le.mp goesOn.1
  | cfgSet rule =>
    rw [Monitor.step] at bounded ⊢
    split
    · exact sound
    · exact ⟨sound.enabled, sound.bounded, sound.timed, sound.within⟩

theorem meets_iff (sound : Sound monitor) (event : Event) :
    Meets monitor event ↔ Guarded monitor event := by
  constructor
  · rintro ⟨-, lowers, -⟩ rfl exceeds
    have lower := lowers rfl exceeds
    exact (tickChange_guarded_iff monitor.cac).mp
      ((lowers_iff sound.enabled sound.bounded).mp lower)
  · intro guarded
    refine ⟨bounded_step sound event, ?_, ?_⟩
    · rintro rfl exceeds
      exact (lowers_iff sound.enabled sound.bounded).mpr
        ((tickChange_guarded_iff monitor.cac).mpr (guarded rfl exceeds))
    · intro raises
      cases event with
      | auth authTransaction =>
        rw [Monitor.step, sound.enabled, if_pos rfl, countAuth] at raises
        split at raises
        · exact absurd raises (Nat.lt_irrefl _)
        · exact absurd raises (Nat.lt_irrefl _)
      | tick =>
        have timed := sound.timed
        have within := sound.within
        have next := thresholdValue_thresholdChange monitor.cac (tickChange monitor.cac)
        rw [Monitor.step, timerWork_eq sound.enabled sound.bounded] at raises
        dsimp only at raises
        have last : endsPeriod monitor.cac = true :=
          endsPeriod_of_tickChange_pos (by omega)
        rw [endsPeriod, decide_eq_true_eq] at last
        rw [checkIntervalMs, checkPeriodMs] at *
        exact ⟨rfl, by omega⟩
      | cfgSet rule =>
        rw [Monitor.step] at raises
        split at raises
        · exact absurd raises (Nat.lt_irrefl _)
        · exact absurd raises (Nat.lt_irrefl _)

theorem throughout_congr
    (agree : ∀ monitor event, Sound monitor → (property monitor event ↔ other monitor event))
    (sound : Sound monitor) (events : List Event) :
    Throughout property monitor events ↔ Throughout other monitor events := by
  induction events generalizing monitor with
  | nil => exact Iff.rfl
  | cons event events ih =>
    rw [Throughout, Throughout, agree monitor event sound, ih (sound_step sound event)]

/-- Every event of a run does what it is to do if and only if at none a rule stands in the
way. -/
theorem throughout_meets_iff (events : List Event) :
    Throughout Meets start events ↔ Throughout Guarded start events :=
  throughout_congr (fun _ event sound => meets_iff sound event) sound_start events

/-- Behind a rule to raise the threshold, one to lower it is not reached. -/
theorem not_throughout_meets_raisingFirst :
    ¬ Throughout Meets start [.cfgSet [⟨4, 25⟩, ⟨1, -25⟩], .auth 1, .auth 1, .tick] := by
  rintro ⟨-, -, -, meets, -⟩
  have lower := meets.lowers rfl ⟨1, by decide, by decide⟩
  exact absurd (lower.2 (by decide)) (by decide)

/-! ## Orderly runs -/

end Cac
end Morse
