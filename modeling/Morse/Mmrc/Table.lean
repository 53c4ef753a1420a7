import Morse.Mmrc.Rows

/-!
# The table of a station

Beside a row of statistics for every rate, the table of a station holds the rates that
are tried in turn, and how often rates were looked around for.  This module transcribes
the table, what is computed from a rate, and how feedback gets into a row.
-/

namespace Morse
namespace Mmrc

open Lib

/-! ## Tables -/

/-- `struct mmrc_stats_table`. -/
structure StatsTable where
  avgThroughputCounter : Nat
  sumThroughput : Nat
  maxThroughput : Nat
  sent : Nat
  sentSuccess : Nat
  backMpduSuccess : Nat
  backMpduFailure : Nat
  totalSent : Nat
  totalSuccess : Nat
  evidence : Nat
  prob : Nat
  haveSentAmpdus : Bool
  deriving DecidableEq, Repr

/-- A row as `memset` leaves it. -/
def StatsTable.zeroed : StatsTable := ⟨0, 0, 0, 0, 0, 0, 0, 0, 0, 0, 0, false⟩

/-- A rate as `memset` leaves it. -/
def MmrcRate.zeroed : MmrcRate := ⟨0, 0, 0, 0, 0, 0, 0⟩

/-- `struct mmrc_table`. -/
structure MmrcTable where
  caps : StaCapabilities
  bestTp : MmrcRate
  secondTp : MmrcRate
  baseline : MmrcRate
  bestProb : MmrcRate
  fixedRate : MmrcRate
  cycleCnt : Nat
  lastLookaroundCycle : Nat
  lookaroundCnt : Nat
  lookaroundWrap : Nat
  forcedLookaround : Nat
  currentLookaroundRateAttempts : Nat
  currentLookaroundRateIndex : Nat
  totalLookaround : Nat
  stabilityCnt : Nat
  stabilityCntThreshold : Nat
  probabilityVariation : Nat
  bestRateDiff : Int × Int
  probabilityVariationDirection : Int
  interferenceLikely : Bool
  unconverged : Bool
  newlyUnconverged : Bool
  bestRateCycleCount : Int
  table : Nat → StatsTable

/-- A row is changed. -/
def MmrcTable.setRow (tb : MmrcTable) (row : Nat) (stats : StatsTable) : MmrcTable :=
  { tb with table := Function.update tb.table row stats }

/-! ## What is computed from a rate -/

/-- `calc_ewma_average`. -/
def calcEwmaAverage (store : Store) (avg latest weight : Nat) : Option Nat :=
  if avg = 0 then some latest
  else do
    let sum ← store 32 ((latest * (100 - weight) + avg * weight : Nat))
    return sum / 100

/-- `s1g_tpt_lgi`. -/
def s1gTptLgi : List (List Nat) :=
  [[300, 600, 900, 1200, 1800, 2400, 2700, 3000, 3600, 4000, 150],
    [650, 1300, 1950, 2600, 3900, 5200, 5850, 6500, 7800, 0, 0],
    [1350, 2700, 4050, 5400, 8100, 10800, 12150, 13500, 16200, 18000, 0],
    [2925, 5850, 8775, 11700, 17550, 23400, 26325, 29250, 35100, 39000, 0]]

/-- `s1g_tpt_sgi`. -/
def s1gTptSgi : List (List Nat) :=
  [[333, 666, 1000, 1333, 2000, 2666, 3000, 3333, 4000, 4444, 166],
    [722, 1444, 2166, 2888, 4333, 5777, 6500, 7222, 8666, 0, 0],
    [1500, 3000, 4500, 6000, 9000, 12000, 13500, 15000, 18000, 20000, 0],
    [3250, 6500, 9750, 13000, 19500, 26000, 29250, 32500, 39000, 43333, 0]]

/-- `mmrc_calculate_theoretical_throughput`, which has no row for 16 MHz. -/
def theoreticalThroughput (rate : MmrcRate) : Option Nat := do
  let row ← (if rate.guard = guardLong then s1gTptLgi else s1gTptSgi)[rate.bw]?
  let tpt ← row[rate.rate]?
  return tpt * 1000 * (rate.ss + 1)

/-- `calculate_throughput`, which takes an index in an octet. -/
def calculateThroughput (store : Store) (tb : MmrcTable) (index : Nat) : Option Nat := do
  let index ← store 8 index
  let rate ← getRateRow tb.caps index
  let stats := tb.table rate.index
  if stats.prob < 10 then return 0
  else
    let theoretical ← theoreticalThroughput rate
    if rate.index = tb.bestTp.index ∧ tb.interferenceLikely then
      store 32 ((theoretical / 100 * (stats.prob + tb.probabilityVariation) : Nat))
    else store 32 ((theoretical / 100 * stats.prob : Nat))

/-- `sym_table`. -/
def symTable : List Nat := [24, 36, 48, 72, 96, 144, 192, 216, 256, 288]

/-- `calculate_bits_per_symbol`. -/
def calculateBitsPerSymbol (rate : MmrcRate) : Nat :=
  if rate.rate = mcs10 then 6
  else if rate.rate ≥ mcsUnused then 1
  else
    let sym := symTable.getD rate.rate 0
    let bps :=
      if rate.bw = bw4Mhz then sym * 537
      else if rate.bw = bw8Mhz then sym * 1152
      else if rate.bw = bw16Mhz then sym * 2301
      else if rate.bw = bw1Mhz then sym * 24 / 52 * 256
      else sym * 256
    ((rate.ss + 1) * bps) >>> 8

/-- `get_tx_time`. -/
def getTxTime (rate : MmrcRate) : Nat :=
  let bits := calculateBitsPerSymbol rate
  let nSym := 9600 / (if bits = 0 then 24 else bits)
  if rate.guard = guardLong then (nSym * 1024 * 10) >>> 8
  else if rate.guard = guardShort then (nSym * 921 * 10) >>> 8
  else 0

/-- `DEFAULT_PACKET_SIZE_BYTES`. -/
def defaultPacketSizeBytes : Nat := 1200

/-- `calculate_attempt_time`, which is not defined for a packet of no size. -/
def calculateAttemptTime (rate : MmrcRate) (size : Nat) : Option Nat :=
  let time := getTxTime rate
  if defaultPacketSizeBytes < size then
    some (time * (size * 1000 % 2 ^ 64 / defaultPacketSizeBytes) % 2 ^ 64 / 1000 % 2 ^ 32)
  else do
    let share ← divide (defaultPacketSizeBytes * 1000) size
    divide (time * 1000) share

/-! ## Retry rates -/

/-- A rate in `mmrc_fill_retry_rates` after another: one MCS lower, but no higher than a
limit while rates are not converged, or one bandwidth lower. -/
def retryRate (caps : StaCapabilities) (unconverged : Bool) (limit : Nat) (rate : MmrcRate) :
    MmrcRate :=
  if rate.rate ≠ 0 then
    let lower := rate.rate - 1
    rateUpdateIndex caps
      { rate with rate := if unconverged ∧ limit < lower then limit else lower }
  else if bw1Mhz < rate.bw then rateUpdateIndex caps { rate with bw := rate.bw - 1 }
  else rate

/-- The last rate in `mmrc_fill_retry_rates`. -/
def baselineRate (caps : StaCapabilities) (rate : MmrcRate) : MmrcRate :=
  if rate.rate ≠ 0 then rateUpdateIndex caps { rate with rate := 0 }
  else if bw1Mhz < rate.bw then rateUpdateIndex caps { rate with bw := rate.bw - 1 }
  else rate

/-- `mmrc_fill_retry_rates`. -/
def fillRetryRates (tb : MmrcTable) : MmrcTable :=
  let secondTp := retryRate tb.caps tb.unconverged 4 tb.bestTp
  let bestProb := retryRate tb.caps tb.unconverged 2 secondTp
  { tb with
    secondTp := secondTp
    bestProb := bestProb
    baseline := baselineRate tb.caps bestProb }

/-! ## Feedback -/

/-- The loop of `mmrc_feedback` over the rates that were tried. -/
def feedbackRates (store : Store) (retryCount : Int) :
    MmrcTable → List MmrcRate → Int → Option MmrcTable
  | tb, [], _ => some tb
  | tb, rate :: rest, ind =>
    let row := (rateUpdateIndex tb.caps rate).index
    let stats := tb.table row
    if retryCount = -1 then
      feedbackRates store retryCount (tb.setRow row { stats with sent := rate.attempts }) rest ind
    else if (rate.attempts : Int) < ind then do
      let sent ← store 16 (stats.sent + rate.attempts)
      feedbackRates store retryCount (tb.setRow row { stats with sent := sent }) rest
        (ind - rate.attempts)
    else do
      let sent ← store 16 (stats.sent + ind)
      let sentSuccess ← store 16 (stats.sentSuccess + 1)
      return tb.setRow row { stats with sent := sent, sentSuccess := sentSuccess }

/-- `mmrc_feedback`. -/
def feedback (store : Store) (tb : MmrcTable) (rates : List MmrcRate) (retryCount : Int) :
    Option MmrcTable :=
  feedbackRates store retryCount tb rates retryCount

/-- The loop of `mmrc_feedback_agg` over the rates that were tried. -/
def feedbackAggRates (store : Store) (success failure packetCount : Nat) :
    MmrcTable → List MmrcRate → Int → Option MmrcTable
  | tb, [], _ => some tb
  | tb, rate :: rest, ind =>
    let row := (rateUpdateIndex tb.caps rate).index
    let stats := { tb.table row with haveSentAmpdus := true }
    if (rate.attempts : Int) < ind then do
      let sent ← store 16 (stats.sent + rate.attempts * packetCount)
      feedbackAggRates store success failure packetCount
        (tb.setRow row { stats with sent := sent }) rest (ind - rate.attempts)
    else do
      let sent ← store 16 (stats.sent + packetCount * ind)
      let sentSuccess ← store 16 (stats.sentSuccess + success)
      let backMpduSuccess ← store 16 (stats.backMpduSuccess + success)
      let backMpduFailure ← store 16 (stats.backMpduFailure + failure)
      return tb.setRow row
        { stats with
          sent := sent
          sentSuccess := sentSuccess
          backMpduSuccess := backMpduSuccess
          backMpduFailure := backMpduFailure }

/-- `mmrc_feedback_agg`. -/
def feedbackAgg (store : Store) (tb : MmrcTable) (rates : List MmrcRate) (retryCount : Int)
    (success failure : Nat) : Option MmrcTable := do
  let packetCount ← store 32 ((success + failure : Nat))
  feedbackAggRates store success failure packetCount tb rates retryCount

end Mmrc
end Morse
