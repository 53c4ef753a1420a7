import Morse.Mmrc.Update
import Morse.Lib.Transition

/-!
# Rate chains, and what is done with a table

A packet gets a chain of rates with a number of attempts each.  Now and then a rate is put
in front of the best one that is looked around for.
-/

namespace Morse
namespace Mmrc

open Lib

section Chains

variable (store : Store)

/-! ## Looking around -/

/-- `LOOKAROUND_FAIL_MAX`. -/
def lookaroundFailMax : Nat := 50

/-- What a rate is expected to reach, for a row that was used or not. -/
def randomThroughput (tb : MmrcTable) (randomIndex : Nat) (random : MmrcRate) : Option Nat :=
  if 0 < (tb.table randomIndex).evidence then calculateThroughput store tb randomIndex
  else theoreticalThroughput random

/-- A rate is too far away from the best one. -/
def tooFar (best random : MmrcRate) : Bool :=
  decide (best.rate + 1 < random.rate) || decide (best.bw + 1 < random.bw) ||
    (decide (best.rate < random.rate) && decide (best.bw < random.bw))

/-- The loop of `mmrc_get_rates` that looks for a rate to look around for: first the one
that was looked around for, if it is to be tried, then rows at random. -/
def findLookaround (tb : MmrcTable) (bestTp : Nat) (random : Nat → Nat) :
    Nat → Bool → Option (Option (Nat × MmrcRate))
  | 0, _ => some none
  | left + 1, tryCurrent => do
      let index := if tryCurrent then tb.currentLookaroundRateIndex
        else random left % rowsFromStaCaps tb.caps
      let rate ← getRateRow tb.caps index
      if validateRate tb.caps rate = false ∨ rate.rate = mcs10 then
        findLookaround tb bestTp random left false
      else
        let randomTp ← randomThroughput store tb index rate
        if randomTp ≤ bestTp ∨ tooFar tb.bestTp rate then
          findLookaround tb bestTp random left false
        else return some (index, rate)

/-- The rate that is looked around for gets into the table. -/
def noteLookaround (tb : MmrcTable) (index : Nat) : Option MmrcTable :=
  if tb.currentLookaroundRateIndex = index then do
    let attempts ← store 8 ((tb.currentLookaroundRateAttempts + 1 : Nat))
    return { tb with currentLookaroundRateAttempts := attempts }
  else
    some { tb with currentLookaroundRateAttempts := 0, currentLookaroundRateIndex := index }

/-- Looking around in `mmrc_get_rates`: the rate that was found, if one was. -/
def lookAround (tb : MmrcTable) (random : Nat → Nat) : Option (MmrcTable × Option MmrcRate) := do
  let totalLookaround ← store 32 ((tb.totalLookaround + 1 : Nat))
  let tb := { tb with
    totalLookaround := totalLookaround
    forcedLookaround := (tb.forcedLookaround + 1) % 50
    lastLookaroundCycle := tb.cycleCnt }
  let bestTp ← calculateThroughput store tb tb.bestTp.index
  let found ← findLookaround store tb bestTp random lookaroundFailMax
    (decide (tb.currentLookaroundRateAttempts < 4))
  match found with
  | none => return ({ tb with currentLookaroundRateIndex := tb.bestTp.index }, none)
  | some (index, rate) =>
    let tb ← noteLookaround store tb index
    return (tb, some rate)

/-- Whether it is time to look around, and how often that is from now on. -/
def wantLookaround (tb : MmrcTable) : Option (MmrcTable × Bool) := do
  let due ← store 32 ((tb.lastLookaroundCycle + 5 : Nat))
  let wanted := decide (tb.fixedRate.rate = mcsUnused) &&
    (decide (tb.lookaroundCnt = 0) || decide (due ≤ tb.cycleCnt)) &&
    decide ((tb.table tb.bestTp.index).evidence ≠ 0)
  if tb.lookaroundWrap ≠ 100 then
    if tb.stabilityCntThreshold ≤ tb.stabilityCnt then
      return ({ tb with lookaroundWrap := 100, stabilityCntThreshold := 100, stabilityCnt := 200 },
        false)
    else return (tb, wanted)
  else if tb.stabilityCnt < tb.stabilityCntThreshold then
    return ({ tb with stabilityCntThreshold := 50, lookaroundWrap := 50, stabilityCnt := 0 },
      wanted)
  else return (tb, wanted)

/-! ## Attempts -/

/-- A rate that is not used. -/
def MmrcRate.unused : MmrcRate := { MmrcRate.zeroed with rate := mcsUnused }

/-- The rates of a chain, with the one that is looked around for in front. -/
def chainRates (tb : MmrcTable) (lookaround : Option MmrcRate) : List MmrcRate :=
  let first := lookaround.getD tb.bestTp
  let second := fun other => if lookaround.isSome then tb.bestTp else other
  if tb.caps.maxRates = 1 then [first, .unused, .unused, .unused]
  else if tb.caps.maxRates = 2 then [first, second tb.bestProb, .unused, .unused]
  else if tb.caps.maxRates = 3 then [first, second tb.secondTp, tb.bestProb, .unused]
  else [first, second tb.secondTp, tb.bestProb, tb.baseline]

/-- Every rate but the first is sent with RTS and CTS. -/
def setRtsCts : List MmrcRate → List MmrcRate
  | [] => []
  | first :: rest => first :: rest.map fun rate => { rate with flags := rate.flags ||| 1 }

/-- `allocate_initial_attempts`. -/
def allocateInitialAttempts (size : Nat) :
    List MmrcRate → BitVec 32 → Option (List MmrcRate × BitVec 32)
  | [], remTime => some ([], remTime)
  | rate :: rest, remTime =>
    if rate.rate = mcsUnused then some (rate :: rest, remTime)
    else do
      let time ← calculateAttemptTime rate size
      let (attempts, spent) := if 4000 < time then (1, time) else (2, time * 2)
      let (rest, remTime) ← allocateInitialAttempts size rest (remTime - BitVec.ofNat 32 spent)
      return ({ rate with attempts := attempts } :: rest, remTime)

/-- A rate in the loop of `calculate_remaining_attempts`. -/
def remainingAttempts (tb : MmrcTable) (remTime : Nat) (size : Nat) (isFirst : Bool)
    (rate : MmrcRate) : Option MmrcRate := do
  if (tb.table rate.index).prob < 20 then return rate
  else
    let own ← (if isFirst then calculateThroughput store tb rate.index else some 0)
    let safe ← (if isFirst then calculateThroughput store tb tb.bestProb.index else some 0)
    if own < safe then return rate
    else
      let time ← calculateAttemptTime rate size
      if time = 0 then return rate
      else
        let share ← divide remTime tb.caps.maxRates
        return { rate with attempts := min (share / time + rate.attempts) 2 }

/-- The rates of a chain that are used, in the loop of `calculate_remaining_attempts`. -/
def remainingLoop (tb : MmrcTable) (remTime : Nat) (size : Nat) :
    Bool → List MmrcRate → Option (List MmrcRate)
  | _, [] => some []
  | isFirst, rate :: rest =>
    if rate.rate = mcsUnused then some (rate :: rest)
    else do
      let rate ← remainingAttempts store tb remTime size isFirst rate
      let rest ← remainingLoop tb remTime size false rest
      return rate :: rest

/-- `calculate_remaining_attempts`, which does nothing when no time is left. -/
def calculateRemainingAttempts (tb : MmrcTable) (rates : List MmrcRate) (remTime : BitVec 32)
    (size : Nat) : Option (List MmrcRate) :=
  if remTime.toInt ≤ 0 then some rates
  else remainingLoop store tb remTime.toNat size true rates

/-- `MMRC_MIN_CHAIN_ATTEMPTS`. -/
def minChainAttempts : Nat := 1

/-- `MMRC_MAX_CHAIN_ATTEMPTS`. -/
def maxChainAttempts : Nat := 2

/-- The limits on the attempts of a rate. -/
def enforceLimits (once : Bool) (rate : MmrcRate) : MmrcRate :=
  if rate.rate = mcsUnused then rate
  else
    let attempts := if rate.attempts = 0 then minChainAttempts else rate.attempts
    { rate with attempts := if once then 1 else min attempts maxChainAttempts }

/-- The attempts of the best rate in a chain. -/
def bestAttempts (rate : MmrcRate) : MmrcRate :=
  if rate.attempts = 1 ∧ 1 < rate.rate then { rate with attempts := 2 }
  else if rate.rate ≤ 1 then { rate with attempts := 1 }
  else rate

/-- The limits of a chain, whose first rate is tried once when it is looked around for with
time, and whose best rate comes first or after that. -/
def limitChain (tb : MmrcTable) (isLookaround : Bool) (rates : List MmrcRate) :
    List MmrcRate :=
  let once := isLookaround && decide (tb.lookaroundWrap ≠ lookaroundRateInit)
  let limited := match rates with
    | [] => []
    | first :: rest => enforceLimits once first :: rest.map (enforceLimits false)
  limited.modify (if isLookaround then 1 else 0) bestAttempts

/-- `mmrc_get_rates`. -/
def getRates (tb : MmrcTable) (size : Nat) (random : Nat → Nat) :
    Option (MmrcTable × List MmrcRate) := do
  if tb.lookaroundWrap = 0 then none
  else
    let tb := { tb with lookaroundCnt := (tb.lookaroundCnt + 1) % tb.lookaroundWrap }
    let (tb, wanted) ← wantLookaround store tb
    let (tb, lookaround) ← (if wanted then lookAround store tb random else some (tb, none))
    let rates := setRtsCts (chainRates tb lookaround)
    let (rates, remTime) ← allocateInitialAttempts size rates 24000
    let rates ← calculateRemainingAttempts store tb rates remTime size
    return (tb, limitChain tb lookaround.isSome rates)

/-! ## Fixed rates and the start -/

/-- `mmrc_set_fixed_rate`. -/
def setFixedRate (tb : MmrcTable) (rate : MmrcRate) : MmrcTable :=
  if validateRate tb.caps rate && tb.caps.rates.getLsbD rate.rate &&
      tb.caps.bandwidth.getLsbD rate.bw && tb.caps.spatialStreams.getLsbD rate.ss &&
      tb.caps.guard.getLsbD rate.guard then
    { tb with fixedRate := rateUpdateIndex tb.caps rate }
  else tb

/-- `MMRC_MAX_BW`. -/
def maxBw (caps : StaCapabilities) : Nat :=
  if caps.bandwidth.getLsbD bw16Mhz then bw16Mhz
  else if caps.bandwidth.getLsbD bw8Mhz then bw8Mhz
  else if caps.bandwidth.getLsbD bw4Mhz then bw4Mhz
  else if caps.bandwidth.getLsbD bw2Mhz then bw2Mhz
  else bw1Mhz

/-- The MCS that `mmrc_init_rates` starts from. -/
def initMcs (caps : StaCapabilities) (rssi : Int) : Nat :=
  if -70 ≤ rssi then 7
  else if -85 ≤ rssi then 3
  else if maxBw caps = bw1Mhz ∨ maxBw caps = bw2Mhz then 3
  else 0

/-- The rate that `mmrc_init_rates` starts from. -/
def initRate (caps : StaCapabilities) (rssi : Int) : MmrcRate :=
  rateUpdateIndex caps
    { MmrcRate.zeroed with
      rate := initMcs caps rssi
      guard := if caps.sgiPerBw.getLsbD (maxBw caps) then guardShort else guardLong
      ss := spatialStream1
      bw := maxBw caps }

/-- A row in the loop of `find_baseline_index`. -/
def baselineRow (caps : StaCapabilities) (least : Nat × Nat) (i : Nat) : Option (Nat × Nat) := do
  let rate ← getRateRow caps i
  if validateRate caps rate = false then return least
  else
    let theoretical ← theoreticalThroughput rate
    return if theoretical < least.1 then (theoretical, rate.index) else least

/-- `find_baseline_index`. -/
def findBaselineIndex (caps : StaCapabilities) : Option Nat :=
  if caps.rates.getLsbD mcs10 then some 0
  else do
    let first ← getRateRow caps 0
    let least ← theoreticalThroughput first
    let (_, index) ← (List.range (rowsFromStaCaps caps)).foldlM (baselineRow caps) (least, 0)
    return index

/-- A table with its first rate, and everything else as `mmrc_sta_init` leaves it. -/
def initTable (caps : StaCapabilities) (rssi : Int) (baseline : MmrcRate) : MmrcTable where
  caps := caps
  bestTp := initRate caps rssi
  secondTp := initRate caps rssi
  baseline := baseline
  bestProb := initRate caps rssi
  fixedRate := .unused
  cycleCnt := 0
  lastLookaroundCycle := 0
  lookaroundCnt := 0
  lookaroundWrap := lookaroundRateInit
  forcedLookaround := 0
  currentLookaroundRateAttempts := 0
  currentLookaroundRateIndex := 0
  totalLookaround := 0
  stabilityCnt := 0
  stabilityCntThreshold := 20
  probabilityVariation := 0
  bestRateDiff := (0, 0)
  probabilityVariationDirection := 0
  interferenceLikely := false
  unconverged := true
  newlyUnconverged := true
  bestRateCycleCount := 0
  table := fun _ => .zeroed

/-- `mmrc_sta_init`. -/
def staInit (caps : StaCapabilities) (rssi : Int) : Option MmrcTable := do
  let index ← findBaselineIndex caps
  let baseline ← getRateRow caps index
  return fillRetryRates (initTable caps rssi baseline)

/-! ## Steps -/

/-- What is done with the table of a station. -/
inductive Action
  | feedback (rates : List MmrcRate) (retryCount : Int)
  | feedbackAgg (rates : List MmrcRate) (retryCount : Int) (success failure : Nat)
  | update
  | getRates (size : Nat) (random : Nat → Nat)
  | setFixedRate (rate : MmrcRate)

/-- One thing is done with the table of a station. -/
def step (tb : MmrcTable) : Action → Option MmrcTable
  | .feedback rates retryCount => feedback store tb rates retryCount
  | .feedbackAgg rates retryCount success failure =>
    feedbackAgg store tb rates retryCount success failure
  | .update => update store tb
  | .getRates size random => (getRates store tb size random).map Prod.fst
  | .setFixedRate rate => some (setFixedRate tb rate)

end Chains

end Mmrc
end Morse
