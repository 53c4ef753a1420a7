import Mathlib.Data.Nat.Cast.Basic

/-!
# Centralized authentication control

An access point announces a threshold for stations that want to authenticate.  It counts the
authentication requests of a period and checks them several times in it against rules that
change the threshold.
-/

namespace Morse
namespace Cac

/-- `CAC_THRESHOLD_MAX`. -/
def thresholdMax : Nat := 1023

/-- `CAC_CFG_CHANGE_RULE_MAX`. -/
def cfgChangeRuleMax : Nat := 8

/-- `MORSE_CAC_CHECK_INTERVAL_MS`. -/
def checkIntervalMs : Nat := 100

/-- `MORSE_CAC_CHECK_PERIOD_MS`. -/
def checkPeriodMs : Nat := 1000

/-- `struct cac_threshold_change_rule`. -/
structure ThresholdChangeRule where
  arfs : BitVec 16
  thresholdChange : BitVec 16
  deriving DecidableEq, Repr

/-- `struct morse_cac`, its rules without the unused places. -/
structure MorseCac where
  cacPeriodUsed : Nat
  enabled : Bool
  rules : List ThresholdChangeRule
  thresholdValue : Nat
  arfs : BitVec 16
  deriving DecidableEq, Repr

/-- `cac_threshold_change_rules_default`. -/
def thresholdChangeRulesDefault : List ThresholdChangeRule :=
  [⟨16, -255⟩, ⟨12, -122⟩, ⟨10, -61⟩, ⟨4, 255⟩, ⟨6, 122⟩, ⟨8, 61⟩]

/-- `cac_threshold_pc2val`. -/
def thresholdPc2val (val : BitVec 16) : BitVec 16 :=
  BitVec.ofInt 16 ((val.toInt * (thresholdMax : Int)).tdiv 100)

/-- `morse_cac_count_auth`. -/
def countAuth (cac : MorseCac) (authTransaction : BitVec 16) : MorseCac :=
  if authTransaction ≠ 1 then cac else { cac with arfs := cac.arfs + 1 }

/-- `cac_threshold_change`. -/
def thresholdChange (cac : MorseCac) (diff : Int) : MorseCac :=
  let thresholdValue : Int := cac.thresholdValue + diff
  { cac with thresholdValue :=
      if thresholdValue < 0 then 0
      else if thresholdValue > thresholdMax then thresholdMax
      else thresholdValue.toNat }

/-- The rule is one to decrease the threshold. -/
def ThresholdChangeRule.decreases (rule : ThresholdChangeRule) : Bool :=
  decide (rule.thresholdChange.toInt < 0)

/-- The loop of `cac_set_threshold_change` over the rules. -/
def setThresholdChange (cac : MorseCac) (endOfPeriod : Bool) :
    List ThresholdChangeRule → Int
  | [] => 0
  | rule :: rules =>
    if rule.decreases then
      if cac.arfs > rule.arfs then rule.thresholdChange.toInt
      else setThresholdChange cac endOfPeriod rules
    else if cac.thresholdValue = thresholdMax then 0
    else if !endOfPeriod then 0
    else if cac.arfs < rule.arfs then rule.thresholdChange.toInt
    else setThresholdChange cac endOfPeriod rules

/-- `cac_timer_work`. -/
def timerWork (cac : MorseCac) : MorseCac :=
  if !cac.enabled then cac
  else
    let cac := { cac with cacPeriodUsed := cac.cacPeriodUsed + checkIntervalMs }
    let endOfPeriod := decide (cac.cacPeriodUsed ≥ checkPeriodMs)
    let change :=
      if cac.arfs ≠ 0 ∨ cac.thresholdValue ≠ thresholdMax then
        setThresholdChange cac endOfPeriod cac.rules
      else 0
    let cac := if change ≠ 0 then thresholdChange cac change else cac
    if endOfPeriod || decide (change ≠ 0) then { cac with cacPeriodUsed := 0, arfs := 0 } else cac

/-- `morse_cac_init` of an access point. -/
def init (cac : MorseCac) : MorseCac :=
  if cac.enabled then cac
  else
    { cac with
      thresholdValue := thresholdMax
      rules := thresholdChangeRulesDefault
      enabled := true }

/-- The errors of a configuration. -/
inductive CfgError
  | tooBig
  | invalid
  deriving DecidableEq, Repr

/-- `morse_cmd_cac_cfg_set`: the rules that a request, with changes in percent, sets. -/
def cfgSet (rule : List ThresholdChangeRule) : Except CfgError (List ThresholdChangeRule) :=
  if rule.length > cfgChangeRuleMax then .error .tooBig
  else if rule.length = 0 then .error .invalid
  else .ok (rule.map fun request =>
    { arfs := request.arfs, thresholdChange := thresholdPc2val request.thresholdChange })

end Cac
end Morse
