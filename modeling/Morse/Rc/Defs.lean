import Mathlib.Logic.Function.Basic

/-!
# Rates of a frame

The rates at which a frame is to be sent, or was sent, are told to and by the chip in a table
with a few slots.  A slot has a code for the rate and the number of attempts at it; the
first slot without attempts ends the table.
-/

namespace Morse
namespace Rc

/-- `struct morse_skb_rate_info`. -/
structure RateInfo where
  morseRatecode : BitVec 32
  count : BitVec 8
  deriving DecidableEq, Repr

/-- The slots of a table, of which the first `IEEE80211_TX_MAX_RATES` are there. -/
abbrev Rates := Nat → RateInfo

/-- `IEEE80211_TX_MAX_RATES` and `MORSE_SKB_MAX_RATES`. -/
def txMaxRates : Nat := 4

/-- `morse_ratecode_mcs_index_get`. -/
def mcsIndexGet (rc : BitVec 32) : BitVec 32 := (rc &&& 0x000000F0) >>> 4

/-- `morse_ratecode_mcs_index_set`. -/
def mcsIndexSet (rc mcsIndex : BitVec 32) : BitVec 32 :=
  (rc &&& ~~~(0x000000F0 : BitVec 32)) ||| ((mcsIndex <<< 4) &&& 0x000000F0)

/-- `morse_ratecode_bw_index_get`. -/
def bwIndexGet (rc : BitVec 32) : BitVec 32 := (rc &&& 0x00003800) >>> 11

/-- `DOT11_BANDWIDTH_1MHZ`. -/
def dot11Bandwidth1Mhz : BitVec 32 := 0

/-- The rate is one of 1 MHz. -/
def RateInfo.isOneMhz (rate : RateInfo) : Bool :=
  decide (bwIndexGet rate.morseRatecode = dot11Bandwidth1Mhz)

/-- The rate is MCS 0 at 1 MHz. -/
def RateInfo.isMcs0 (rate : RateInfo) : Bool :=
  decide (mcsIndexGet rate.morseRatecode = 0) && rate.isOneMhz

/-- The rate with another MCS and its attempts. -/
def RateInfo.withMcs (rate : RateInfo) (mcsIndex : BitVec 32) : RateInfo :=
  { rate with morseRatecode := mcsIndexSet rate.morseRatecode mcsIndex }

theorem mcsIndexGet_withMcs (rate : RateInfo) :
    mcsIndexGet (rate.withMcs 10).morseRatecode = 10 := by
  have apart : ~~~0x000000F0#32 &&& 0x000000F0#32 = 0#32 := by decide
  have field : (((10#32 <<< 4) &&& 0x000000F0#32) &&& 0x000000F0#32) >>> 4 = 10#32 := by decide
  show (((rate.morseRatecode &&& ~~~0x000000F0#32) |||
    ((10#32 <<< 4) &&& 0x000000F0#32)) &&& 0x000000F0#32) >>> 4 = 10#32
  rw [BitVec.and_or_distrib_right, BitVec.and_assoc, apart, BitVec.and_zero, BitVec.zero_or,
    field]

end Rc
end Morse
