import Morse.Mmrc.Table

/-!
# Updating the table of a station

Every cycle, what was fed back is worked into the probabilities of the rates, and from
these the rates are chosen that are tried next.
-/

namespace Morse
namespace Mmrc

open Lib

section Update

variable (store : Store)

/-! ## Variation -/

/-- `LOOKAROUND_RATE_INIT`. -/
def lookaroundRateInit : Nat := 5

/-- `MAX_VARIATION_DIRECTION`. -/
def maxVariationDirection : Int := 5

/-- In which direction the best rate varies. -/
def nextDirection (tb : MmrcTable) (variation currentSuccess prob : Nat) : Int :=
  if 3 ≤ variation ∨ tb.interferenceLikely then
    if ((currentSuccess : Int) - prob) * tb.probabilityVariationDirection < 0 then 0
    else if prob < currentSuccess then
      min (tb.probabilityVariationDirection + 1) maxVariationDirection
    else if currentSuccess < prob then
      max (tb.probabilityVariationDirection - 1) (-maxVariationDirection)
    else tb.probabilityVariationDirection
  else tb.probabilityVariationDirection

/-- Whether interference is likely. -/
def nextInterference (tb : MmrcTable) (variation : Nat) (direction : Int) : Bool :=
  if 3 < tb.bestRateCycleCount ∧ 5 ≤ variation then
    tb.interferenceLikely || decide (direction.natAbs ≤ 3)
  else
    tb.interferenceLikely &&
      !(decide (variation ≤ 1) || decide (direction.natAbs = maxVariationDirection.natAbs))

/-- `mmrc_process_variation`. -/
def processVariation (tb : MmrcTable) (currentSuccess index : Nat) : Option MmrcTable :=
  let prob := (tb.table index).prob
  if index ≠ tb.bestTp.index then some tb
  else if currentSuccess = 0 then
    if tb.unconverged then some tb
    else some { tb with unconverged := true, newlyUnconverged := true }
  else if prob = 0 then some tb
  else if tb.lookaroundWrap = lookaroundRateInit then some tb
  else do
    let latest := ((currentSuccess : Int) - prob).natAbs
    let average ← calcEwmaAverage store tb.probabilityVariation latest 95
    let variation ← store 8 average
    let direction := nextDirection tb variation currentSuccess prob
    return { tb with
      probabilityVariation := variation
      probabilityVariationDirection := direction
      interferenceLikely := nextInterference tb variation direction }

/-! ## A row -/

/-- `EVIDENCE_SCALE`. -/
def evidenceScale : Nat := 5

/-- `EVIDENCE_MAX`. -/
def evidenceMax : Nat := 100

/-- The weight of what was there before, which grows with the evidence for it. -/
def scaledEwma (stats : StatsTable) : Nat :=
  let scale :=
    if stats.evidence = 0 then 0
    else stats.evidence * 2 * 100 / (stats.sent * evidenceScale + stats.evidence)
  min scale 100 * 75 / 100

/-- The fewest attempts that are worked in, `STATS_MIN_INIT` or `STATS_MIN_NORMAL`. -/
def minStats (tb : MmrcTable) : Nat :=
  if tb.lookaroundWrap = lookaroundRateInit then 1 else 2

/-- The evidence for a row, which is cut off once it is in its field. -/
def nextEvidence (minStats : Nat) (stats : StatsTable) : Option Nat := do
  let evidenceSent := if minStats ≤ stats.sent then stats.sent else 0
  let average ← calcEwmaAverage store stats.evidence (evidenceSent * evidenceScale)
    (scaledEwma stats)
  let evidence ← store 16 average
  return min evidence evidenceMax

/-- The attempts and successes that a row is judged by: those of aggregates, or all. -/
def attemptsForStats (unconverged : Bool) (stats : StatsTable) : Option (Nat × Nat) :=
  let attempts := stats.backMpduSuccess + stats.backMpduFailure
  if !stats.haveSentAmpdus || unconverged || decide (attempts < 2) then
    some (stats.sent, stats.sentSuccess)
  else do
    let others ← store 32 ((stats.sent : Int) - attempts)
    return if others < attempts / 2 then (stats.sent, stats.sentSuccess)
      else (attempts, stats.backMpduSuccess)

/-- A row whose attempts are worked into its probability, and start from zero again. -/
def workIn (weight success attempts : Nat) (tb : MmrcTable) (i : Nat) : Option MmrcTable := do
  let hundredfold ← store 32 ((100 * success : Nat))
  let share ← divide hundredfold attempts
  let thisSuccess ← store 16 share
  let tb ← (if weight ≠ 0 then processVariation store tb thisSuccess i else some tb)
  let stats := tb.table i
  let average ← calcEwmaAverage store stats.prob thisSuccess weight
  let prob ← store 8 average
  let totalSent ← store 32 ((stats.totalSent + stats.sent : Nat))
  let totalSuccess ← store 32 ((stats.totalSuccess + stats.sentSuccess : Nat))
  return tb.setRow i
    { stats with
      prob := prob
      totalSent := totalSent
      sent := 0
      totalSuccess := totalSuccess
      sentSuccess := 0
      backMpduFailure := 0
      backMpduSuccess := 0
      haveSentAmpdus := false }

/-- The throughput of a row gets into its running average, which starts again where it would
be too large. -/
def addThroughput (tb : MmrcTable) (i : Nat) : Option MmrcTable := do
  let stats := tb.table i
  let throughput ← calculateThroughput store tb i
  let full := decide (2 ^ 32 - 1 - throughput < stats.sumThroughput)
  let start ← (if full then divide stats.sumThroughput stats.avgThroughputCounter
    else some stats.sumThroughput)
  let sum ← store 32 ((start + throughput : Nat))
  let counter ← store 32 (((if full then 1 else stats.avgThroughputCounter) + 1 : Nat))
  return tb.setRow i
    { stats with
      maxThroughput := max stats.maxThroughput throughput
      sumThroughput := sum
      avgThroughputCounter := counter }

/-- A row in the loop of `mmrc_update`, with whether there was something new so far. -/
def updateRow (minStats : Nat) (state : MmrcTable × Bool) (i : Nat) :
    Option (MmrcTable × Bool) := do
  let stats := state.1.table i
  let weight := scaledEwma stats
  let evidence ← nextEvidence store minStats stats
  let tb := state.1.setRow i { stats with evidence := evidence }
  let (attempts, success) ← attemptsForStats store tb.unconverged stats
  if minStats ≤ attempts ∨ (0 < attempts ∧ 0 < stats.prob) then
    let tb ← workIn store weight success attempts tb i
    let tb ← addThroughput store tb i
    return (tb, true)
  else
    let tb ← addThroughput store tb i
    return (tb, state.2)

/-! ## Choosing rates -/

/-- The best rows so far, with their throughputs, and the last row with a probability. -/
structure Priority where
  bestRow : Nat
  bestTp : Nat
  secondBestRow : Nat
  secondBestTp : Nat
  lastNonzeroProb : Nat
  deriving DecidableEq, Repr

/-- A row in the loop of `generate_table_priority`. -/
def scanRow (tb : MmrcTable) (priority : Priority) (i : Nat) : Option Priority := do
  let tmp ← getRateRow tb.caps i
  let stats := tb.table tmp.index
  let lastProb := (tb.table priority.lastNonzeroProb).prob
  if validateRate tb.caps tmp = false ∨ stats.evidence = 0 then return priority
  else
    let tmpTp ← calculateThroughput store tb tmp.index
    let chosen : Priority :=
      if priority.bestTp < tmpTp ∨
          (stats.maxThroughput ≤ (tb.table tb.bestTp.index).maxThroughput ∧
            40 ≤ stats.prob ∧ lastProb < stats.prob) then
        { priority with
          bestRow := tmp.index
          bestTp := tmpTp
          secondBestRow := priority.bestRow
          secondBestTp := priority.bestTp }
      else if priority.secondBestTp < tmpTp ∧ priority.bestRow ≠ tmp.index then
        { priority with secondBestRow := tmp.index, secondBestTp := tmpTp }
      else priority
    return if 20 ≤ stats.prob ∧
        (tb.table priority.lastNonzeroProb).maxThroughput ≤ stats.maxThroughput then
      { chosen with lastNonzeroProb := tmp.index }
    else chosen

/-- The best rate, one MCS lower where its throughput is zero. -/
def dropRate (caps : StaCapabilities) (bestTp : Nat) (best : MmrcRate) : MmrcRate :=
  if bestTp = 0 ∧ 0 < best.rate then rateUpdateIndex caps { best with rate := best.rate - 1 }
  else best

/-- The counter that the sample frequency depends on. -/
def nextStability (tb : MmrcTable) (same : Bool) : Option Nat :=
  if 1 < tb.bestTp.rate ∧ same then store 32 ((tb.stabilityCnt + 1 : Nat))
  else some (if 2 < tb.stabilityCnt then tb.stabilityCnt - 2 else 0)

/-- Whether rates are converged, after the best rate changed. -/
def changeBestRate (prevBestRate : Nat) (tb : MmrcTable) : MmrcTable :=
  let latest : Int := prevBestRate - tb.bestTp.rate
  let total := (tb.bestRateDiff.1 + tb.bestRateDiff.2 + latest).natAbs
  let enters := !tb.interferenceLikely && !tb.unconverged &&
    decide (tb.bestRateCycleCount ≤ 4) && decide (2 ≤ total)
  let unconverged := tb.unconverged || enters
  let newly := tb.newlyUnconverged || enters
  { tb with
    probabilityVariation := if tb.interferenceLikely then tb.probabilityVariation else 0
    unconverged := unconverged && !(!newly && decide (total < 2))
    newlyUnconverged := newly
    probabilityVariationDirection := 0
    bestRateCycleCount := 0
    bestRateDiff := (tb.bestRateDiff.2, latest) }

/-- Whether rates are converged, after the best rate stayed. -/
def keepBestRate (tb : MmrcTable) : Option MmrcTable := do
  let count ← signed store 32 (tb.bestRateCycleCount + 1)
  return { tb with
    bestRateCycleCount := count
    unconverged := tb.unconverged && !(!tb.newlyUnconverged && decide (10 ≤ count)) }

/-- `generate_table_priority`. -/
def generateTablePriority (tb : MmrcTable) (newStats : Bool) : Option MmrcTable := do
  let prevBestRow := tb.bestTp.index
  let prevBestRate := tb.bestTp.rate
  let bestTp ← calculateThroughput store tb prevBestRow
  let secondBestTp ← calculateThroughput store tb tb.secondTp.index
  if tb.fixedRate.rate ≠ mcsUnused then
    return { tb with bestTp := tb.fixedRate, secondTp := tb.fixedRate, bestProb := tb.fixedRate }
  else
    let priority ← (List.range (rowsFromStaCaps tb.caps)).foldlM (scanRow store tb)
      ⟨prevBestRow, bestTp, tb.secondTp.index, secondBestTp, 0⟩
    if newStats then
      let best ← getRateRow tb.caps priority.bestRow
      let _second ← getRateRow tb.caps priority.secondBestRow
      let tb := fillRetryRates { tb with bestTp := dropRate tb.caps priority.bestTp best }
      let stability ← nextStability store tb (decide (prevBestRow = priority.bestRow))
      let tb := { tb with stabilityCnt := stability }
      let tb ← (if prevBestRow ≠ priority.bestRow then some (changeBestRate prevBestRate tb)
        else keepBestRate store tb)
      return { tb with newlyUnconverged := false }
    else return tb

/-- The end of `mmrc_update`, where looking around gets faster or another rate is looked
around for. -/
def finishUpdate (tb : MmrcTable) : MmrcTable :=
  let tb :=
    if tb.lookaroundWrap ≠ lookaroundRateInit ∧
        (tb.unconverged ∨ (tb.bestTp.bw = bw1Mhz ∧ tb.bestTp.rate ≤ 2)) then
      { tb with
        lookaroundCnt := 0, lookaroundWrap := lookaroundRateInit, stabilityCntThreshold := 20 }
    else tb
  { tb with
    currentLookaroundRateAttempts :=
      if tb.currentLookaroundRateAttempts ≤ 2 then 4 else tb.currentLookaroundRateAttempts }

/-- `mmrc_update`. -/
def update (tb : MmrcTable) : Option MmrcTable := do
  let cycleCnt ← store 32 ((tb.cycleCnt + 1 : Nat))
  let tb := { tb with cycleCnt := cycleCnt }
  let (tb, newStats) ← (List.range (rowsFromStaCaps tb.caps)).foldlM
    (updateRow store (minStats tb)) (tb, false)
  let tb ← generateTablePriority store tb newStats
  return finishUpdate tb

end Update

end Mmrc
end Morse
