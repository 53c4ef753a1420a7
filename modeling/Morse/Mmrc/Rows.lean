import Morse.Mmrc.Defs

/-!
# Rows of a table and rates are matched

The row of a rate is numbered by the ranks of its bits among those of the
capabilities.  Decoding a row finds the bits again, and the numbers of different
rates are different.
-/

namespace Morse
namespace Mmrc

open Lib

/-! ## Bits and their ranks -/

section Ranks

variable {w : Nat} {mask : BitVec w} {bit other index : Nat}

theorem nthBit_eq_some (found : nthBit mask index = some bit) :
    mask.getLsbD bit = true ∧ bitIndex mask bit = index := by
  obtain ⟨-, -, set, counted⟩ := selectFrom_eq_some_iff.mp found
  rw [Nat.count_zero, Nat.zero_add] at counted
  refine ⟨set, ?_⟩
  rw [bitIndex, Nat.count_succ, if_pos set, counted]
  rfl

theorem exists_nthBit (narrow : w ≤ 32) (below : index < popCount mask) :
    ∃ bit, nthBit mask index = some bit := by
  obtain ⟨bit, inside, set, counted⟩ := exists_count_eq below
  refine ⟨bit, selectFrom_eq_some_iff.mpr ⟨Nat.zero_le _, by omega, set, ?_⟩⟩
  rw [counted, Nat.count_zero, Nat.zero_add]

theorem bitIndex_lt (set : mask.getLsbD bit = true) : bitIndex mask bit < popCount mask := by
  have inside : bit < w := BitVec.lt_of_getLsbD set
  have counted := Nat.count_monotone (mask.getLsbD · = true) (Nat.succ_le_of_lt inside)
  rw [Nat.count_succ, if_pos set] at counted
  rw [bitIndex, Nat.count_succ, if_pos set, popCount]
  omega

theorem bitIndex_inj (set : mask.getLsbD bit = true) (otherSet : mask.getLsbD other = true)
    (same : bitIndex mask bit = bitIndex mask other) :
    bit = other := by
  rw [bitIndex, bitIndex, Nat.count_succ, Nat.count_succ, if_pos set, if_pos otherSet] at same
  exact eq_of_count_eq set otherSet same

theorem bitIndex_zero (mask : BitVec w) : bitIndex mask 0 = 0 := by
  have bound : Nat.count (mask.getLsbD · = true) (0 + 1) ≤ 1 := Nat.count_le _
  rw [bitIndex]
  omega

theorem bitIndex_last (mask : BitVec (w + 1)) : bitIndex mask w = popCount mask - 1 := rfl

end Ranks

/-! ## Capabilities -/

/-- Capabilities with the rate for 1 MHz, that bandwidth, the long guard interval and
some spatial stream. -/
structure Buildable (caps : StaCapabilities) : Prop where
  mcs10 : caps.rates.getLsbD mcs10 = true
  oneMhz : caps.bandwidth.getLsbD bw1Mhz = true
  longGuard : caps.guard.getLsbD guardLong = true
  stream : 0 < popCount caps.spatialStreams

/-- A rate has only bits that are set in the capabilities. -/
structure InCaps (caps : StaCapabilities) (entry : MmrcRate) : Prop where
  rate : caps.rates.getLsbD entry.rate = true
  ss : caps.spatialStreams.getLsbD entry.ss = true
  bw : caps.bandwidth.getLsbD entry.bw = true
  guard : caps.guard.getLsbD entry.guard = true

/-- A rate has a long guard interval in place of a short one that its bandwidth does
not have, with which its row would be this one. -/
structure ShortRefused (caps : StaCapabilities) (index : Nat) (rate : MmrcRate) : Prop where
  long : rate.guard = guardLong
  refused : caps.sgiPerBw.getLsbD rate.bw = false
  sibling : (rateUpdateIndex caps { rate with guard := guardShort }).index = index

/-- Rows and supported rates are matched. -/
structure Matched (caps : StaCapabilities) : Prop where
  decoded : ∀ index < rowsFromStaCaps caps, ∃ rate, getRateRow caps index = some rate ∧
    InCaps caps rate ∧
      ((rateUpdateIndex caps rate).index = index ∨ ShortRefused caps index rate)
  below : ∀ rate, InCaps caps rate → validateRate caps rate = true →
    rateIndex caps rate < rowsFromStaCaps caps
  distinct : ∀ first second, InCaps caps first → InCaps caps second →
    rateIndex caps first = rateIndex caps second →
      first.rate = second.rate ∧ first.ss = second.ss ∧ first.bw = second.bw ∧
        first.guard = second.guard

/-- There is one bandwidth, one spatial stream and one guard interval. -/
def OneOfEach (caps : StaCapabilities) : Prop :=
  popCount caps.bandwidth = 1 ∧ popCount caps.spatialStreams = 1 ∧ popCount caps.guard = 1

/-- Capabilities of which every row decodes: there is some of everything, and with the rate
for 1 MHz not just one of each of the others. -/
structure Decodable (caps : StaCapabilities) : Prop where
  rates : 0 < popCount caps.rates
  bandwidth : 0 < popCount caps.bandwidth
  stream : 0 < popCount caps.spatialStreams
  guard : 0 < popCount caps.guard
  several : caps.rates.getLsbD mcs10 = true → ¬ OneOfEach caps

section Rows

variable {caps : StaCapabilities} {rate : MmrcRate} {index : Nat}

theorem popCount_pos {mask : BitVec w} (set : mask.getLsbD bit = true) :
    0 < popCount mask :=
  Nat.zero_lt_of_lt (bitIndex_lt set)

theorem rateIndex_eq (caps : StaCapabilities) (rate : MmrcRate) :
    rateIndex caps rate =
      fromDigits (popCount caps.guard) (popCount caps.bandwidth) (popCount caps.spatialStreams)
        (bitIndex caps.guard rate.guard) (bitIndex caps.bandwidth rate.bw)
        (bitIndex caps.spatialStreams rate.ss) (bitIndex caps.rates rate.rate) := by
  rw [rateIndex, fromDigits, Nat.mul_assoc (bitIndex caps.spatialStreams rate.ss),
    Nat.mul_assoc (bitIndex caps.rates rate.rate * _), Nat.mul_assoc
      (bitIndex caps.rates rate.rate),
    ← Nat.mul_assoc (popCount caps.bandwidth)]

theorem rateIndex_inj (firstIn : InCaps caps first) (secondIn : InCaps caps second)
    (same : rateIndex caps first = rateIndex caps second) :
    first.rate = second.rate ∧ first.ss = second.ss ∧ first.bw = second.bw ∧
      first.guard = second.guard := by
  rw [rateIndex_eq, rateIndex_eq] at same
  obtain ⟨guard, bw, ss, rate⟩ := fromDigits_inj (bitIndex_lt firstIn.guard)
    (bitIndex_lt firstIn.bw) (bitIndex_lt firstIn.ss) (bitIndex_lt secondIn.guard)
    (bitIndex_lt secondIn.bw) (bitIndex_lt secondIn.ss) same
  exact ⟨bitIndex_inj firstIn.rate secondIn.rate rate, bitIndex_inj firstIn.ss secondIn.ss ss,
    bitIndex_inj firstIn.bw secondIn.bw bw, bitIndex_inj firstIn.guard secondIn.guard guard⟩

theorem getRateRow_eq (rates : 0 < popCount caps.rates) (bandwidth : 0 < popCount caps.bandwidth)
    (stream : 0 < popCount caps.spatialStreams) :
    getRateRow caps index = do
      let mcsBit ← nthBit caps.rates
        (index / (popCount caps.bandwidth * popCount caps.spatialStreams * popCount caps.guard))
      let streamsBit ← nthBit caps.spatialStreams
        (index % (popCount caps.bandwidth * popCount caps.spatialStreams * popCount caps.guard) /
          (popCount caps.bandwidth * popCount caps.guard))
      let bwBit ← nthBit caps.bandwidth
        (index % (popCount caps.bandwidth * popCount caps.guard) / popCount caps.guard)
      let guardBit ← nthBit caps.guard (index % popCount caps.guard)
      return rateOfBits caps mcsBit streamsBit bwBit guardBit := by
  have rows : popCount caps.rates * popCount caps.bandwidth * popCount caps.spatialStreams *
      popCount caps.guard / popCount caps.rates =
        popCount caps.bandwidth * popCount caps.spatialStreams * popCount caps.guard := by
    rw [Nat.mul_assoc, Nat.mul_assoc, Nat.mul_div_cancel_left _ rates, Nat.mul_assoc]
  have streamRows : popCount caps.bandwidth * popCount caps.spatialStreams *
      popCount caps.guard / popCount caps.spatialStreams =
        popCount caps.bandwidth * popCount caps.guard := by
    rw [Nat.mul_right_comm, Nat.mul_div_cancel _ stream]
  have bwRows : popCount caps.bandwidth * popCount caps.guard / popCount caps.bandwidth =
      popCount caps.guard := Nat.mul_div_cancel_left _ bandwidth
  unfold getRateRow
  dsimp only
  rw [rows, streamRows, bwRows]

theorem rowsFromStaCaps_of_mcs10 (mcs : caps.rates.getLsbD mcs10 = true) :
    rowsFromStaCaps caps = 2 + (popCount caps.rates - 1) *
      (popCount caps.bandwidth * popCount caps.spatialStreams * popCount caps.guard) := by
  unfold rowsFromStaCaps
  rw [if_pos mcs]
  ring

theorem rowsFromStaCaps_of_not_mcs10 (mcs : ¬ caps.rates.getLsbD mcs10 = true) :
    rowsFromStaCaps caps = popCount caps.rates *
      (popCount caps.bandwidth * popCount caps.spatialStreams * popCount caps.guard) := by
  unfold rowsFromStaCaps
  rw [if_neg mcs]
  ring

theorem Buildable.decodable (buildable : Buildable caps) (several : ¬ OneOfEach caps) :
    Decodable caps where
  rates := popCount_pos buildable.mcs10
  bandwidth := popCount_pos buildable.oneMhz
  stream := buildable.stream
  guard := popCount_pos buildable.longGuard
  several := fun _ => several

theorem Decodable.mcs_lt (decodable : Decodable caps) (inside : index < rowsFromStaCaps caps) :
    index / (popCount caps.bandwidth * popCount caps.spatialStreams * popCount caps.guard) <
      popCount caps.rates := by
  have cells : 0 < popCount caps.bandwidth * popCount caps.spatialStreams * popCount caps.guard :=
    Nat.mul_pos (Nat.mul_pos decodable.bandwidth decodable.stream) decodable.guard
  rw [Nat.div_lt_iff_lt_mul cells]
  by_cases mcs : caps.rates.getLsbD mcs10 = true
  · have two : 2 ≤ popCount caps.bandwidth * popCount caps.spatialStreams *
        popCount caps.guard := by
      by_contra one
      have product : popCount caps.bandwidth * popCount caps.spatialStreams *
          popCount caps.guard = 1 := by omega
      have both := Nat.eq_one_of_mul_eq_one_right product
      exact decodable.several mcs ⟨Nat.eq_one_of_mul_eq_one_right both,
        Nat.eq_one_of_mul_eq_one_left both, Nat.eq_one_of_mul_eq_one_left product⟩
    have rates := decodable.rates
    have split : popCount caps.rates = popCount caps.rates - 1 + 1 := by omega
    rw [rowsFromStaCaps_of_mcs10 mcs] at inside
    rw [split, Nat.add_mul]
    omega
  · rw [rowsFromStaCaps_of_not_mcs10 mcs] at inside
    exact inside

theorem Decodable.exists_bits (decodable : Decodable caps) (inside : index < rowsFromStaCaps caps) :
    ∃ mcsBit streamsBit bwBit guardBit,
      getRateRow caps index = some (rateOfBits caps mcsBit streamsBit bwBit guardBit) ∧
        InCaps caps ⟨mcsBit, 0, guardBit, streamsBit, bwBit, 0, 0⟩ ∧
          rateIndex caps ⟨mcsBit, 0, guardBit, streamsBit, bwBit, 0, 0⟩ = index := by
  have bandwidth := decodable.bandwidth
  have guard := decodable.guard
  have stream := decodable.stream
  have cells : 0 < popCount caps.bandwidth * popCount caps.spatialStreams * popCount caps.guard :=
    Nat.mul_pos (Nat.mul_pos bandwidth stream) guard
  have digits := fromDigits_digits (popCount caps.guard) (popCount caps.bandwidth)
    (popCount caps.spatialStreams) index
  have mcsBelow := decodable.mcs_lt inside
  have streamsBelow : index % (popCount caps.bandwidth * popCount caps.spatialStreams *
      popCount caps.guard) / (popCount caps.bandwidth * popCount caps.guard) <
        popCount caps.spatialStreams := by
    rw [Nat.div_lt_iff_lt_mul (Nat.mul_pos bandwidth guard)]
    refine (Nat.mod_lt _ cells).trans_eq ?_
    ring
  have bwBelow : index % (popCount caps.bandwidth * popCount caps.guard) / popCount caps.guard <
      popCount caps.bandwidth := by
    rw [Nat.div_lt_iff_lt_mul guard]
    exact Nat.mod_lt _ (Nat.mul_pos bandwidth guard)
  obtain ⟨mcsBit, mcsFound⟩ := exists_nthBit (by decide) mcsBelow
  obtain ⟨streamsBit, streamsFound⟩ := exists_nthBit (by decide) streamsBelow
  obtain ⟨bwBit, bwFound⟩ := exists_nthBit (by decide) bwBelow
  obtain ⟨guardBit, guardFound⟩ := exists_nthBit (by decide) (Nat.mod_lt index guard)
  obtain ⟨mcsSet, mcsRank⟩ := nthBit_eq_some mcsFound
  obtain ⟨streamsSet, streamsRank⟩ := nthBit_eq_some streamsFound
  obtain ⟨bwSet, bwRank⟩ := nthBit_eq_some bwFound
  obtain ⟨guardSet, guardRank⟩ := nthBit_eq_some guardFound
  refine ⟨mcsBit, streamsBit, bwBit, guardBit, ?_, ⟨mcsSet, streamsSet, bwSet, guardSet⟩, ?_⟩
  · rw [getRateRow_eq decodable.rates bandwidth stream, mcsFound, streamsFound, bwFound,
      guardFound]
    rfl
  · rw [rateIndex_eq]
    rw [mcsRank, streamsRank, bwRank, guardRank]
    exact digits

theorem rateOfBits_eq (inCaps : InCaps caps ⟨mcsBit, 0, guardBit, streamsBit, bwBit, 0, 0⟩) :
    rateOfBits caps mcsBit streamsBit bwBit guardBit =
      rateUpdateIndex caps
        { rate := mcsBit
          attempts := 0
          guard :=
            if guardBit = guardShort ∧ caps.sgiPerBw.getLsbD bwBit = false then guardLong
            else guardBit
          ss := streamsBit
          bw := bwBit
          flags := 0
          index := 0 } := by
  have mcsBelow : mcsBit < 11 := BitVec.lt_of_getLsbD inCaps.rate
  have streamsBelow : streamsBit < 4 := BitVec.lt_of_getLsbD inCaps.ss
  have bwBelow : bwBit < 5 := BitVec.lt_of_getLsbD inCaps.bw
  have guardBelow : guardBit < 2 := BitVec.lt_of_getLsbD inCaps.guard
  have bwKept : ¬ bwBit ≥ bwMax := Nat.not_le_of_lt bwBelow
  have guardKept : ¬ guardBit ≥ guardMax := Nat.not_le_of_lt guardBelow
  unfold rateOfBits
  dsimp only
  rw [if_neg bwKept, if_neg guardKept, Nat.mod_eq_of_lt (show mcsBit < 16 by omega),
    Nat.mod_eq_of_lt streamsBelow, Nat.mod_eq_of_lt (show bwBit < 8 by omega)]
  congr 2
  split
  · rfl
  · exact Nat.mod_eq_of_lt guardBelow

theorem rateUpdateIndex_of_lt (inside : rateIndex caps rate < rowsFromStaCaps caps) :
    rateUpdateIndex caps rate = { rate with index := rateIndex caps rate } := by
  unfold rateUpdateIndex
  dsimp only
  rw [if_neg (Nat.not_le_of_lt inside)]

theorem decoded_of_several (buildable : Buildable caps) (several : ¬ OneOfEach caps)
    (inside : index < rowsFromStaCaps caps) :
    ∃ rate, getRateRow caps index = some rate ∧ InCaps caps rate ∧
      ((rateUpdateIndex caps rate).index = index ∨ ShortRefused caps index rate) := by
  obtain ⟨mcsBit, streamsBit, bwBit, guardBit, decoded, inCaps, ranked⟩ :=
    (buildable.decodable several).exists_bits inside
  refine ⟨_, decoded, ?_⟩
  rw [rateOfBits_eq inCaps]
  by_cases refused : guardBit = guardShort ∧ caps.sgiPerBw.getLsbD bwBit = false
  · obtain ⟨rfl, unsupported⟩ := refused
    rw [if_pos ⟨rfl, unsupported⟩]
    refine ⟨⟨inCaps.rate, inCaps.ss, inCaps.bw, buildable.longGuard⟩, .inr ⟨rfl, unsupported, ?_⟩⟩
    have sibling : rateIndex caps ⟨mcsBit, 0, guardShort, streamsBit, bwBit, 0,
      (rateUpdateIndex caps ⟨mcsBit, 0, guardLong, streamsBit, bwBit, 0, 0⟩).index⟩ =
        index := ranked
    exact (congrArg MmrcRate.index (rateUpdateIndex_of_lt (sibling.trans_lt inside))).trans sibling
  · rw [if_neg refused]
    refine ⟨⟨inCaps.rate, inCaps.ss, inCaps.bw, inCaps.guard⟩, .inl ?_⟩
    have same : rateIndex caps (rateUpdateIndex caps
      ⟨mcsBit, 0, guardBit, streamsBit, bwBit, 0, 0⟩) = index := ranked
    exact (congrArg MmrcRate.index (rateUpdateIndex_of_lt (same.trans_lt inside))).trans same

theorem rateIndex_lt_mul (inCaps : InCaps caps rate)
    (earlier : bitIndex caps.rates rate.rate < groups) :
    rateIndex caps rate < groups *
      (popCount caps.bandwidth * popCount caps.spatialStreams * popCount caps.guard) := by
  have guardBelow := bitIndex_lt inCaps.guard
  have bwBelow := bitIndex_lt inCaps.bw
  have ssBelow := bitIndex_lt inCaps.ss
  have step := Nat.mul_le_mul_right
    (popCount caps.bandwidth * popCount caps.spatialStreams * popCount caps.guard)
    (Nat.succ_le_of_lt earlier)
  have streams := Nat.mul_le_mul_right (popCount caps.guard * popCount caps.bandwidth)
    (Nat.succ_le_of_lt ssBelow)
  have bandwidths := Nat.mul_le_mul_right (popCount caps.guard) (Nat.succ_le_of_lt bwBelow)
  rw [Nat.succ_mul] at step streams bandwidths
  have cells : popCount caps.spatialStreams * (popCount caps.guard * popCount caps.bandwidth) =
      popCount caps.bandwidth * popCount caps.spatialStreams * popCount caps.guard := by ring
  have rows : popCount caps.bandwidth * popCount caps.guard =
      popCount caps.guard * popCount caps.bandwidth := Nat.mul_comm _ _
  rw [rateIndex_eq, fromDigits]
  omega

theorem rateIndex_lt (inCaps : InCaps caps rate) (valid : validateRate caps rate = true) :
    rateIndex caps rate < rowsFromStaCaps caps := by
  by_cases mcs : caps.rates.getLsbD mcs10 = true
  · rw [rowsFromStaCaps_of_mcs10 mcs]
    by_cases lowest : rate.rate = mcs10
    · have only : rate.bw = bw1Mhz ∧ rate.ss = spatialStream1 := by
        by_contra other
        rw [validateRate, if_pos ⟨lowest, by omega⟩] at valid
        cases valid
      have last : bitIndex caps.rates rate.rate = popCount caps.rates - 1 := by
        rw [lowest]
        exact bitIndex_last caps.rates
      have guardBelow := bitIndex_lt inCaps.guard
      have guards : popCount caps.guard ≤ 2 := popCount_le _
      rw [rateIndex_eq, fromDigits, only.1, only.2, last, bw1Mhz, spatialStream1, bitIndex_zero,
        bitIndex_zero]
      omega
    · have below := bitIndex_lt inCaps.rate
      have earlier : bitIndex caps.rates rate.rate < popCount caps.rates - 1 := by
        refine lt_of_le_of_ne ?_ ?_
        · have bound := bitIndex_last caps.rates
          omega
        · intro same
          exact lowest (bitIndex_inj inCaps.rate mcs same)
      exact (rateIndex_lt_mul inCaps earlier).trans_le (Nat.le_add_left _ _)
  · rw [rowsFromStaCaps_of_not_mcs10 mcs]
    exact rateIndex_lt_mul inCaps (bitIndex_lt inCaps.rate)

theorem getRateRow_of_oneOfEach (buildable : Buildable caps) (one : OneOfEach caps) :
    popCount caps.rates < rowsFromStaCaps caps ∧ getRateRow caps (popCount caps.rates) = none := by
  have rates := popCount_pos buildable.mcs10
  obtain ⟨bw, ss, guard⟩ := one
  constructor
  · rw [rowsFromStaCaps_of_mcs10 buildable.mcs10, bw, ss, guard]
    omega
  · rw [getRateRow_eq rates (by omega) (by omega), bw, ss, guard]
    cases found : nthBit caps.rates (popCount caps.rates / (1 * 1 * 1)) with
    | none => rfl
    | some bit =>
      obtain ⟨set, ranked⟩ := nthBit_eq_some found
      have below := bitIndex_lt set
      omega

theorem matched_iff (buildable : Buildable caps) :
    Matched caps ↔ ¬ OneOfEach caps := by
  constructor
  · intro matched one
    obtain ⟨inside, undefined⟩ := getRateRow_of_oneOfEach buildable one
    obtain ⟨rate, decoded, -⟩ := matched.decoded _ inside
    rw [undefined] at decoded
    cases decoded
  · intro several
    exact
      { decoded := fun index inside => decoded_of_several buildable several inside
        below := fun rate inCaps valid => rateIndex_lt inCaps valid
        distinct := fun first second firstIn secondIn => rateIndex_inj firstIn secondIn }

end Rows

/-! ## What the driver builds -/

section Build

variable {caps : StaCapabilities}

theorem getLsbD_or_left (more : BitVec w) (set : mask.getLsbD bit = true) :
    (mask ||| more).getLsbD bit = true := by
  rw [BitVec.getLsbD_or, set, Bool.true_or]

theorem oneMhz_addBandwidths (bandwidth : BitVec 5) (positive : 0 < operBwMhz) :
    (addBandwidths bandwidth operBwMhz).getLsbD bw1Mhz = true := by
  induction operBwMhz using Nat.strong_induction_on generalizing bandwidth with
  | h operBwMhz ih =>
    rw [addBandwidths, dif_pos positive]
    by_cases more : 0 < operBwMhz / 2
    · exact ih _ (Nat.div_lt_self positive Nat.one_lt_two) _ more
    · have one : operBwMhz = 1 := by omega
      subst one
      rw [addBandwidths, dif_neg (by decide)]
      have added : (1#5 <<< rcBwToMmrcBw 1).getLsbD bw1Mhz = true := by decide
      rw [BitVec.getLsbD_or, added, Bool.or_true]

theorem addShortGuard_keeps (bw : Nat) (supported : Bool) :
    (addShortGuard bw supported caps).rates = caps.rates ∧
      (addShortGuard bw supported caps).spatialStreams = caps.spatialStreams ∧
      (addShortGuard bw supported caps).bandwidth = caps.bandwidth ∧
      (caps.guard.getLsbD guardLong = true →
        (addShortGuard bw supported caps).guard.getLsbD guardLong = true) := by
  unfold addShortGuard
  split
  · exact ⟨rfl, rfl, rfl, getLsbD_or_left _⟩
  · exact ⟨rfl, rfl, rfl, id⟩

theorem configGuardPerBw_keeps (enableSgiRc : Bool) (guards : ShortGuards) :
    (configGuardPerBw enableSgiRc guards caps).rates = caps.rates ∧
      (configGuardPerBw enableSgiRc guards caps).spatialStreams = caps.spatialStreams ∧
      (configGuardPerBw enableSgiRc guards caps).bandwidth = caps.bandwidth ∧
      (configGuardPerBw enableSgiRc guards caps).guard.getLsbD guardLong = true := by
  have long : (1#2 <<< guardLong).getLsbD guardLong = true := by decide
  unfold configGuardPerBw
  split
  · exact ⟨rfl, rfl, rfl, long⟩
  · simp only [addShortGuard_keeps]
    refine ⟨trivial, trivial, trivial, ?_⟩
    exact (addShortGuard_keeps _ _).2.2.2 ((addShortGuard_keeps _ _).2.2.2
      ((addShortGuard_keeps _ _).2.2.2 ((addShortGuard_keeps _ _).2.2.2 long)))

/-- A stream that both sides support. -/
def StreamSupported (rxMcsMap txMcsMap : BitVec 16) (nssIdx : Nat) : Prop :=
  nssIdx < 4 ∧ mcsOf rxMcsMap nssIdx ≠ vhtMcsNotSupported ∧
    mcsOf txMcsMap nssIdx ≠ vhtMcsNotSupported

theorem mcs10_foldl_addStream {streams : List Nat}
    (supported : StreamSupported rxMcsMap txMcsMap nssIdx)
    (there : nssIdx ∈ streams ∨
      caps.rates.getLsbD mcs10 = true ∧ caps.spatialStreams.getLsbD nssIdx = true) :
    (streams.foldl (addStream rxMcsMap txMcsMap) caps).rates.getLsbD mcs10 = true ∧
      (streams.foldl (addStream rxMcsMap txMcsMap) caps).spatialStreams.getLsbD nssIdx = true := by
  induction streams generalizing caps with
  | nil => exact there.resolve_left (List.not_mem_nil)
  | cons stream rest ih =>
    refine ih ?_
    have always : ∀ rxMcs, (streamRates rxMcs).getLsbD mcs10 = true := by
      intro rxMcs
      unfold streamRates
      split
      · decide
      · split <;> decide
    rcases there with member | there
    · rcases List.mem_cons.mp member with rfl | member
      · right
        have added : (1#4 <<< nssIdx).getLsbD nssIdx = true := by
          rw [getLsbD_one_shiftLeft supported.1]
          exact decide_eq_true rfl
        unfold addStream
        rw [if_neg (by
          rintro (unsupported | unsupported)
          · exact supported.2.1 unsupported
          · exact supported.2.2 unsupported)]
        rw [BitVec.getLsbD_or, BitVec.getLsbD_or, always, added, Bool.or_true, Bool.or_true]
        exact ⟨rfl, rfl⟩
      · exact .inl member
    · right
      unfold addStream
      dsimp only
      split
      · exact there
      · exact ⟨getLsbD_or_left _ there.1, getLsbD_or_left _ there.2⟩

theorem buildable_staAddCaps (supported : ∃ nssIdx, StreamSupported rxMcsMap txMcsMap nssIdx)
    (positive : 0 < operBwMhz) (enableSgiRc : Bool) (guards : ShortGuards)
    (hwMaxRates hwMaxRateTries : Nat) :
    Buildable (staAddCaps rxMcsMap txMcsMap operBwMhz enableSgiRc guards hwMaxRates
      hwMaxRateTries) := by
  obtain ⟨nssIdx, supported⟩ := supported
  obtain ⟨mcs, stream⟩ := @mcs10_foldl_addStream StaCapabilities.zeroed _ _ _ (List.range 4)
    supported (.inl (List.mem_range.mpr supported.1))
  let added := addVhtStaCaps rxMcsMap txMcsMap StaCapabilities.zeroed
  obtain ⟨rates, streams, bandwidth, long⟩ := @configGuardPerBw_keeps
    { added with bandwidth := addBandwidths added.bandwidth operBwMhz } enableSgiRc guards
  exact
    { mcs10 := (congrArg (·.getLsbD mcs10) rates).trans mcs
      oneMhz := (congrArg (·.getLsbD bw1Mhz) bandwidth).trans
        (oneMhz_addBandwidths added.bandwidth positive)
      longGuard := long
      stream := (congrArg popCount streams).symm ▸ popCount_pos stream }

/-- For every station that the driver adds, rows and supported rates are matched exactly
when its capabilities are not one bandwidth, one stream and one guard interval. -/
theorem matched_staAddCaps_iff {rxMcsMap txMcsMap : BitVec 16} {operBwMhz : Nat}
    (supported : ∃ nssIdx, StreamSupported rxMcsMap txMcsMap nssIdx) (positive : 0 < operBwMhz)
    (enableSgiRc : Bool) (guards : ShortGuards) (hwMaxRates hwMaxRateTries : Nat) :
    Matched (staAddCaps rxMcsMap txMcsMap operBwMhz enableSgiRc guards hwMaxRates
        hwMaxRateTries) ↔
      ¬ OneOfEach (staAddCaps rxMcsMap txMcsMap operBwMhz enableSgiRc guards hwMaxRates
        hwMaxRateTries) :=
  matched_iff (buildable_staAddCaps supported positive enableSgiRc guards hwMaxRates
    hwMaxRateTries)

/-- A station that says nothing about short guard intervals. -/
def longGuards : ShortGuards := ⟨false, false, false, false, false, false⟩

theorem matched_twoMhz : Matched (staAddCaps 0xFFFE 0xFFFE 2 false longGuards 4 1) := by
  refine (matched_staAddCaps_iff ⟨0, by decide, by decide, by decide⟩ (by decide) false longGuards
    4 1).mpr ?_
  rintro ⟨bandwidth, -, -⟩
  have two : popCount (staAddCaps 0xFFFE 0xFFFE 2 false longGuards 4 1).bandwidth = 2 := by
    simp [staAddCaps, addBandwidths, configGuardPerBw]
    decide
  omega

/-- On 1 MHz, the same station has a row too many. -/
theorem not_matched_oneMhz :
    ¬ ∀ (rxMcsMap txMcsMap : BitVec 16) (operBwMhz : Nat) (enableSgiRc : Bool)
      (guards : ShortGuards) (hwMaxRates hwMaxRateTries : Nat),
      (∃ nssIdx, StreamSupported rxMcsMap txMcsMap nssIdx) → 0 < operBwMhz →
        Matched (staAddCaps rxMcsMap txMcsMap operBwMhz enableSgiRc guards hwMaxRates
          hwMaxRateTries) := by
  intro claim
  have matched := claim 0xFFFE 0xFFFE 1 false longGuards 4 1 ⟨0, by decide, by decide, by decide⟩
    (by decide)
  have buildable := @buildable_staAddCaps 0xFFFE 0xFFFE 1 ⟨0, by decide, by decide, by decide⟩
    (by decide) false longGuards 4 1
  refine (matched_iff buildable).mp matched ⟨?_, ?_, ?_⟩
  · simp [staAddCaps, addBandwidths, configGuardPerBw]
    decide
  · decide
  · decide

end Build

end Mmrc
end Morse
