import Morse.Lib.Digits
import Morse.Lib.SetBits

/-!
# Rates of a station and the rows of its table

Rate control keeps statistics in a table with a row for every rate that a station
supports.  This module transcribes how the capabilities of a station are put
together, how a row is made into a rate, and how a rate finds its row.
-/

namespace Morse
namespace Mmrc

open Lib

/-! ## Rates -/

/-- `MMRC_MCS9`. -/
def mcs9 : Nat := 9

/-- `MMRC_MCS10`. -/
def mcs10 : Nat := 10

/-- `MMRC_MCS_UNUSED`. -/
def mcsUnused : Nat := 11

/-- `MMRC_BW_1MHZ`. -/
def bw1Mhz : Nat := 0

/-- `MMRC_BW_2MHZ`. -/
def bw2Mhz : Nat := 1

/-- `MMRC_BW_4MHZ`. -/
def bw4Mhz : Nat := 2

/-- `MMRC_BW_8MHZ`. -/
def bw8Mhz : Nat := 3

/-- `MMRC_BW_16MHZ`. -/
def bw16Mhz : Nat := 4

/-- `MMRC_BW_MAX`. -/
def bwMax : Nat := 5

/-- `MMRC_SPATIAL_STREAM_1`. -/
def spatialStream1 : Nat := 0

/-- `MMRC_SPATIAL_STREAM_3`. -/
def spatialStream3 : Nat := 2

/-- `MMRC_GUARD_LONG`. -/
def guardLong : Nat := 0

/-- `MMRC_GUARD_SHORT`. -/
def guardShort : Nat := 1

/-- `MMRC_GUARD_MAX`. -/
def guardMax : Nat := 2

/-- `struct mmrc_rate`. -/
structure MmrcRate where
  rate : Nat
  attempts : Nat
  guard : Nat
  ss : Nat
  bw : Nat
  flags : Nat
  index : Nat
  deriving DecidableEq, Repr

/-- `struct mmrc_sta_capabilities`. -/
structure StaCapabilities where
  maxRates : Nat
  maxRetries : Nat
  bandwidth : BitVec 5
  spatialStreams : BitVec 4
  rates : BitVec 11
  guard : BitVec 2
  sgiPerBw : BitVec 5
  deriving DecidableEq, Repr

/-- Capabilities as `memset` leaves them. -/
def StaCapabilities.zeroed : StaCapabilities := ⟨0, 0, 0, 0, 0, 0, 0⟩

/-! ## Rows -/

/-- `nth_bit`.  Past the 32 bits of an integer, the shift that tests a bit is not
defined. -/
def nthBit {w : Nat} (mask : BitVec w) (index : Nat) : Option Nat :=
  selectFrom mask.getLsbD 32 0 index

/-- `bit_index`. -/
def bitIndex {w : Nat} (mask : BitVec w) (bitPos : Nat) : Nat :=
  Nat.count (mask.getLsbD · = true) (bitPos + 1) - 1

/-- `rows_from_sta_caps`. -/
def rowsFromStaCaps (caps : StaCapabilities) : Nat :=
  let nRates := popCount caps.rates
  if caps.rates.getLsbD mcs10 then
    2 + popCount caps.bandwidth * (nRates - 1) * popCount caps.guard *
      popCount caps.spatialStreams
  else
    popCount caps.bandwidth * nRates * popCount caps.guard * popCount caps.spatialStreams

/-- The index that `rate_update_index` computes for a rate, before it is checked. -/
def rateIndex (caps : StaCapabilities) (rate : MmrcRate) : Nat :=
  bitIndex caps.guard rate.guard + bitIndex caps.bandwidth rate.bw * popCount caps.guard +
    bitIndex caps.spatialStreams rate.ss * popCount caps.guard * popCount caps.bandwidth +
    bitIndex caps.rates rate.rate * popCount caps.bandwidth * popCount caps.spatialStreams *
      popCount caps.guard

/-- `rate_update_index`. -/
def rateUpdateIndex (caps : StaCapabilities) (rate : MmrcRate) : MmrcRate :=
  let index := rateIndex caps rate
  { rate with index := if index ≥ rowsFromStaCaps caps then 0 else index }

/-- The end of `get_rate_row`, where the bits of a rate are known. -/
def rateOfBits (caps : StaCapabilities) (mcs streams bw guard : Nat) : MmrcRate :=
  let bw := if bw ≥ bwMax then bw1Mhz else bw
  let guard := if guard ≥ guardMax then guardLong else guard
  let guard := if guard = guardShort ∧ caps.sgiPerBw.getLsbD bw = false then guardLong else guard
  rateUpdateIndex caps
    { rate := mcs % 16
      attempts := 0
      guard := guard % 2
      ss := streams % 4
      bw := bw % 8
      flags := 0
      index := 0 }

/-- `get_rate_row`, where every bit that it looks for is found. -/
def getRateRow (caps : StaCapabilities) (index : Nat) : Option MmrcRate := do
  let bw := popCount caps.bandwidth
  let streams := popCount caps.spatialStreams
  let guard := popCount caps.guard
  let totalCaps := popCount caps.rates * bw * streams * guard
  let rows := totalCaps / popCount caps.rates
  let mcsModulo := index % rows
  let mcsBit ← nthBit caps.rates (index / rows)
  let rows := rows / streams
  let streamsBit ← nthBit caps.spatialStreams (mcsModulo / rows)
  let ssIndex := index % rows
  let rows := rows / bw
  let bwBit ← nthBit caps.bandwidth (ssIndex / rows)
  let guardBit ← nthBit caps.guard (index % guard)
  return rateOfBits caps mcsBit streamsBit bwBit guardBit

/-- `validate_rate`, for 802.11ah. -/
def validateRate (caps : StaCapabilities) (rate : MmrcRate) : Bool :=
  if rate.rate = mcs10 ∧ (rate.bw ≠ bw1Mhz ∨ rate.ss ≠ spatialStream1) then false
  else if rate.rate = mcs9 ∧ rate.bw = bw2Mhz ∧ rate.ss ≠ spatialStream3 then false
  else if rate.guard = guardShort ∧ caps.sgiPerBw.getLsbD rate.bw = false then false
  else true

/-! ## Capabilities of a station -/

/-- `IEEE80211_VHT_MCS_NOT_SUPPORTED`. -/
def vhtMcsNotSupported : Nat := 3

/-- The rates that come with a stream that supports them up to some rate. -/
def streamRates (rxMcs : Nat) : BitVec 11 :=
  if rxMcs = 2 then 0b11111111111
  else if rxMcs = 1 then 0b10011111111
  else 0b10000000111

/-- The two bits of a map for a stream. -/
def mcsOf (mcsMap : BitVec 16) (nssIdx : Nat) : Nat := mcsMap.toNat >>> (nssIdx * 2) % 4

/-- One stream of `morse_rc_sta_add_vht_sta_caps`. -/
def addStream (rxMcsMap txMcsMap : BitVec 16) (caps : StaCapabilities) (nssIdx : Nat) :
    StaCapabilities :=
  let rxMcs := mcsOf rxMcsMap nssIdx
  let txMcs := mcsOf txMcsMap nssIdx
  if rxMcs = vhtMcsNotSupported ∨ txMcs = vhtMcsNotSupported then caps
  else
    { caps with
      rates := caps.rates ||| streamRates (min rxMcs txMcs)
      spatialStreams := caps.spatialStreams ||| (1#4 <<< nssIdx) }

/-- `morse_rc_sta_add_vht_sta_caps`. -/
def addVhtStaCaps (rxMcsMap txMcsMap : BitVec 16) (caps : StaCapabilities) : StaCapabilities :=
  (List.range 4).foldl (addStream rxMcsMap txMcsMap) caps

/-- `MORSE_RC_BW_TO_MMRC_BW`. -/
def rcBwToMmrcBw (bwMhz : Nat) : Nat :=
  if bwMhz = 1 then bw1Mhz
  else if bwMhz = 2 then bw2Mhz
  else if bwMhz = 4 then bw4Mhz
  else if bwMhz = 8 then bw8Mhz
  else bw2Mhz

/-- The loop of `morse_rc_sta_add` over the bandwidths up to the operating one. -/
def addBandwidths (bandwidth : BitVec 5) (operBwMhz : Nat) : BitVec 5 :=
  if positive : 0 < operBwMhz then
    addBandwidths (bandwidth ||| (1#5 <<< rcBwToMmrcBw operBwMhz)) (operBwMhz / 2)
  else bandwidth
termination_by operBwMhz
decreasing_by exact Nat.div_lt_self positive Nat.one_lt_two

/-- What a station says about short guard intervals, from 1 MHz on. -/
structure ShortGuards where
  htSupported : Bool
  sgi20 : Bool
  sgi40 : Bool
  vhtSupported : Bool
  sgi80 : Bool
  sgi160 : Bool
  deriving DecidableEq, Repr

/-- A bandwidth with a short guard interval in `morse_rc_sta_config_guard_per_bw`. -/
def addShortGuard (bw : Nat) (supported : Bool) (caps : StaCapabilities) : StaCapabilities :=
  if caps.bandwidth.getLsbD bw && supported then
    { caps with
      sgiPerBw := caps.sgiPerBw ||| (1#5 <<< bw)
      guard := caps.guard ||| (1#2 <<< guardShort) }
  else caps

/-- `morse_rc_sta_config_guard_per_bw`. -/
def configGuardPerBw (enableSgiRc : Bool) (guards : ShortGuards) (caps : StaCapabilities) :
    StaCapabilities :=
  let caps := { caps with guard := 1#2 <<< guardLong }
  if !enableSgiRc then caps
  else
    addShortGuard bw8Mhz (guards.vhtSupported && guards.sgi160)
      (addShortGuard bw4Mhz (guards.vhtSupported && guards.sgi80)
        (addShortGuard bw2Mhz (guards.htSupported && guards.sgi40)
          (addShortGuard bw1Mhz (guards.htSupported && guards.sgi20) caps)))

/-- The capabilities that `morse_rc_sta_add` builds from the maps of a station, the
operating bandwidth, the short guard intervals, and the limits of the hardware. -/
def staAddCaps
    (rxMcsMap txMcsMap : BitVec 16)
    (operBwMhz : Nat)
    (enableSgiRc : Bool)
    (guards : ShortGuards)
    (hwMaxRates hwMaxRateTries : Nat) : StaCapabilities :=
  let caps := addVhtStaCaps rxMcsMap txMcsMap StaCapabilities.zeroed
  let caps := { caps with bandwidth := addBandwidths caps.bandwidth operBwMhz }
  let caps := configGuardPerBw enableSgiRc guards caps
  { caps with
    maxRates := if 0 < hwMaxRates ∧ hwMaxRates < 4 then hwMaxRates else 4
    maxRetries := if 1 ≤ hwMaxRateTries ∧ hwMaxRateTries < 2 then hwMaxRateTries else 2 }

end Mmrc
end Morse
