import Morse.Mmrc.LegalRuns

/-!
# Looking around

A row that is drawn at random, or that of the last time, is looked around for if it can be
better than the best one.  Its rate has another row where a short guard interval is
replaced, and then what is known about the rate is not looked at.  This module says when
what is put in front of a chain is worth it, in every table that is reached.
-/

namespace Morse
namespace Mmrc

open Lib

/-! ## What is expected -/

/-- The throughput of a row, by the statistics of its rate. -/
def rowThroughput (store : Store) (tb : MmrcTable) (row : Nat) : Option Nat := do
  let rate ← getRateRow tb.caps row
  let stats := tb.table rate.index
  if stats.prob < 10 then return 0
  else
    let theoretical ← theoreticalThroughput rate
    if rate.index = tb.bestTp.index ∧ tb.interferenceLikely then
      store 32 ((theoretical / 100 * (stats.prob + tb.probabilityVariation) : Nat))
    else store 32 ((theoretical / 100 * stats.prob : Nat))

/-- What `mmrc_get_rates` does before it makes the chain: the table that it leaves, and the
rate that is looked around for, if one is. -/
def frontRate (store : Store) (tb : MmrcTable) (random : Nat → Nat) :
    Option (MmrcTable × Option MmrcRate) :=
  if tb.lookaroundWrap = 0 then none
  else do
    let tb := { tb with lookaroundCnt := (tb.lookaroundCnt + 1) % tb.lookaroundWrap }
    let (tb, wanted) ← wantLookaround store tb
    if wanted then lookAround store tb random else return (tb, none)

/-- A call of `mmrc_get_rates` puts a rate in front that is looked around for.  The table
that it leaves has the row that was drawn. -/
def Inserts (store : Store) (tb : MmrcTable) (random : Nat → Nat) (next : MmrcTable)
    (rate : MmrcRate) : Prop :=
  frontRate store tb random = some (next, some rate)

/-- A rate that is worth being looked around for, and the row by which it was found. -/
structure Useful (store : Store) (tb : MmrcTable) (row : Nat) (rate : MmrcRate) : Prop where
  /-- The rate is supported. -/
  supported : Legal tb.caps rate
  /-- It is not the best one. -/
  differs : rate.key ≠ tb.bestTp.key
  /-- If there is evidence for it, it is better than the best one. -/
  better : (tb.table rate.index).evidence ≠ 0 → ∃ own best,
    rowThroughput store tb rate.index = some own ∧
      rowThroughput store tb tb.bestTp.index = some best ∧ best < own
  /-- The row that was looked at is its row. -/
  examined : row = rate.index

/-- The row is that of a short guard interval that its bandwidth does not have, and its rate
has a long one. -/
structure Forced (caps : StaCapabilities) (row : Nat) (rate : MmrcRate) : Prop where
  short : caps.guard.getLsbD guardShort = true
  long : rate.guard = guardLong
  refused : caps.sgiPerBw.getLsbD rate.bw = false
  sibling : rateIndex caps { rate with guard := guardShort } = row

/-- The rate of a row has another row. -/
def ForcedRow (caps : StaCapabilities) (row : Nat) : Prop :=
  ∃ rate, getRateRow caps row = some rate ∧ Forced caps row rate

/-! ## Rows and their rates -/

variable {caps : StaCapabilities} {rate : MmrcRate} {row : Nat}

/-- The index of a rate is that of its bits. -/
def Indexed (caps : StaCapabilities) (rate : MmrcRate) : Prop :=
  rate.index = (rateUpdateIndex caps rate).index

theorem indexed_rateUpdateIndex (caps : StaCapabilities) (rate : MmrcRate) :
    Indexed caps (rateUpdateIndex caps rate) := rfl

theorem Indexed.lt (indexed : Indexed caps rate) (some' : 0 < rowsFromStaCaps caps) :
    rate.index < rowsFromStaCaps caps := by
  rw [indexed, rateUpdateIndex]
  split
  · exact some'
  · next inside => exact Nat.not_le.mp inside

theorem Indexed.index_eq (indexed : Indexed caps rate) (otherIndexed : Indexed caps other)
    (same : rate.key = other.key) :
    rate.index = other.index := by
  rw [indexed, otherIndexed, rateUpdateIndex, rateUpdateIndex]
  rw [rateIndex_of_key caps same]

theorem exists_bits_of_getRateRow (buildable : Buildable caps)
    (decoded : getRateRow caps row = some rate) :
    ∃ mcsBit streamsBit bwBit guardBit,
      rate = rateOfBits caps mcsBit streamsBit bwBit guardBit ∧
        InCaps caps ⟨mcsBit, 0, guardBit, streamsBit, bwBit, 0, 0⟩ ∧
          rateIndex caps ⟨mcsBit, 0, guardBit, streamsBit, bwBit, 0, 0⟩ = row := by
  have digits := fromDigits_digits (popCount caps.guard) (popCount caps.bandwidth)
    (popCount caps.spatialStreams) row
  rw [getRateRow_eq (popCount_pos buildable.mcs10) (popCount_pos buildable.oneMhz)
    buildable.stream] at decoded
  obtain ⟨mcsBit, mcsFound, decoded⟩ := Option.bind_eq_some_iff.mp decoded
  obtain ⟨streamsBit, streamsFound, decoded⟩ := Option.bind_eq_some_iff.mp decoded
  obtain ⟨bwBit, bwFound, decoded⟩ := Option.bind_eq_some_iff.mp decoded
  obtain ⟨guardBit, guardFound, decoded⟩ := Option.bind_eq_some_iff.mp decoded
  obtain ⟨mcsSet, mcsRank⟩ := nthBit_eq_some mcsFound
  obtain ⟨streamsSet, streamsRank⟩ := nthBit_eq_some streamsFound
  obtain ⟨bwSet, bwRank⟩ := nthBit_eq_some bwFound
  obtain ⟨guardSet, guardRank⟩ := nthBit_eq_some guardFound
  refine ⟨mcsBit, streamsBit, bwBit, guardBit, (Option.some.inj decoded).symm,
    ⟨mcsSet, streamsSet, bwSet, guardSet⟩, ?_⟩
  rw [rateIndex_eq]
  rw [mcsRank, streamsRank, bwRank, guardRank]
  exact digits

theorem decoded_row (buildable : Buildable caps) (decoded : getRateRow caps row = some rate) :
    InCaps caps rate ∧ Indexed caps rate ∧
      (rateIndex caps rate = row ∨ Forced caps row rate) := by
  obtain ⟨mcsBit, streamsBit, bwBit, guardBit, rfl, inCaps, ranked⟩ :=
    exists_bits_of_getRateRow buildable decoded
  rw [rateOfBits_eq inCaps]
  by_cases refused : guardBit = guardShort ∧ caps.sgiPerBw.getLsbD bwBit = false
  · obtain ⟨rfl, unsupported⟩ := refused
    rw [if_pos ⟨rfl, unsupported⟩]
    exact ⟨⟨inCaps.rate, inCaps.ss, inCaps.bw, buildable.longGuard⟩, rfl,
      Or.inr ⟨inCaps.guard, rfl, unsupported, ranked⟩⟩
  · rw [if_neg refused]
    exact ⟨⟨inCaps.rate, inCaps.ss, inCaps.bw, inCaps.guard⟩, rfl, Or.inl ranked⟩

theorem examined_iff (buildable : Buildable caps) (decoded : getRateRow caps row = some rate)
    (valid : validateRate caps rate = true) :
    row = rate.index ↔ ¬ ForcedRow caps row := by
  obtain ⟨inCaps, indexed, here⟩ := decoded_row buildable decoded
  have own : rate.index = rateIndex caps rate := by
    rw [indexed, rateUpdateIndex_of_lt (rateIndex_lt inCaps valid)]
  constructor
  · rintro same ⟨other, decoded', forced⟩
    rw [decoded] at decoded'
    cases decoded'
    have equal : rateIndex caps { rate with guard := guardShort } = rateIndex caps rate := by
      rw [forced.sibling, same, own]
    have shortIn : InCaps caps { rate with guard := guardShort } :=
      ⟨inCaps.rate, inCaps.ss, inCaps.bw, forced.short⟩
    obtain ⟨-, -, -, guards⟩ := rateIndex_inj shortIn inCaps equal
    rw [forced.long] at guards
    exact absurd guards Nat.one_ne_zero
  · intro unforced
    rcases here with same | forced
    · rw [own, same]
    · exact absurd ⟨rate, decoded, forced⟩ unforced

/-! ## What is found -/

variable {store : Store} {tb next : MmrcTable} {random : Nat → Nat}

/-- A row that is found decodes to a rate that is allowed and expected to be better. -/
structure Found (store : Store) (tb : MmrcTable) (bestTp row : Nat) (rate : MmrcRate) : Prop where
  decoded : getRateRow tb.caps row = some rate
  valid : validateRate tb.caps rate = true
  expected : ∃ randomTp, randomThroughput store tb row rate = some randomTp ∧ bestTp < randomTp

theorem found_of_findLookaround
    (found : findLookaround store tb bestTp random left tryCurrent = some (some (row, rate))) :
    Found store tb bestTp row rate := by
  induction left generalizing tryCurrent with
  | zero => cases found
  | succ left ih =>
    obtain ⟨other, decoded, found⟩ := Option.bind_eq_some_iff.mp found
    split at found
    · exact ih found
    · next allowed =>
        rw [not_or, Bool.not_eq_false] at allowed
        obtain ⟨randomTp, expected, found⟩ := Option.bind_eq_some_iff.mp found
        split at found
        · exact ih found
        · next near =>
            rw [not_or, Nat.not_le] at near
            cases found
            exact ⟨decoded, allowed.1, randomTp, expected, near.1⟩

/-- The rates of a table but those below the best one, and the row that is looked around for
next. -/
structure Looked (tb next : MmrcTable) : Prop where
  caps : next.caps = tb.caps
  bestTp : next.bestTp = tb.bestTp
  fixedRate : next.fixedRate = tb.fixedRate

theorem looked_of_noteLookaround (taken : noteLookaround store tb row = some next) :
    Looked tb next ∧ next.currentLookaroundRateIndex = row := by
  rw [noteLookaround] at taken
  split at taken
  · next same =>
      obtain ⟨attempts, -, taken⟩ := Option.bind_eq_some_iff.mp taken
      cases taken
      exact ⟨⟨rfl, rfl, rfl⟩, same⟩
  · cases taken
    exact ⟨⟨rfl, rfl, rfl⟩, rfl⟩

theorem found_of_lookAround (taken : lookAround store tb random = some (next, some rate)) :
    Looked tb next ∧ ∃ bestTp, calculateThroughput store tb tb.bestTp.index = some bestTp ∧
      Found store tb bestTp next.currentLookaroundRateIndex rate := by
  obtain ⟨totalLookaround, -, taken⟩ := Option.bind_eq_some_iff.mp taken
  obtain ⟨bestTp, best, taken⟩ := Option.bind_eq_some_iff.mp taken
  obtain ⟨found, search, taken⟩ := Option.bind_eq_some_iff.mp taken
  cases found with
  | none => cases taken
  | some place =>
    obtain ⟨noted, note, taken⟩ := Option.bind_eq_some_iff.mp taken
    cases taken
    obtain ⟨looked, current⟩ := looked_of_noteLookaround note
    obtain ⟨decoded, valid, expected⟩ := found_of_findLookaround search
    rw [current]
    exact ⟨⟨looked.caps, looked.bestTp, looked.fixedRate⟩, bestTp, best,
      ⟨decoded, valid, expected⟩⟩

theorem asked_of_wantLookaround (taken : wantLookaround store tb = some (next, wanted)) :
    (SameRates tb next ∧ next.table = tb.table ∧
      next.probabilityVariation = tb.probabilityVariation ∧
        next.interferenceLikely = tb.interferenceLikely) ∧
      (wanted = true → (tb.table tb.bestTp.index).evidence ≠ 0) := by
  obtain ⟨due, -, taken⟩ := Option.bind_eq_some_iff.mp taken
  have evidence : (decide (tb.fixedRate.rate = mcsUnused) &&
      (decide (tb.lookaroundCnt = 0) || decide (due ≤ tb.cycleCnt)) &&
        decide ((tb.table tb.bestTp.index).evidence ≠ 0)) = true →
      (tb.table tb.bestTp.index).evidence ≠ 0 := by
    intro all
    rw [Bool.and_eq_true] at all
    exact of_decide_eq_true all.2
  split at taken
  · split at taken
    · cases taken
      exact ⟨⟨⟨rfl, rfl, rfl, rfl, rfl, rfl, rfl⟩, rfl, rfl, rfl⟩,
        fun false' => absurd false' Bool.false_ne_true⟩
    · cases taken
      exact ⟨⟨⟨rfl, rfl, rfl, rfl, rfl, rfl, rfl⟩, rfl, rfl, rfl⟩, evidence⟩
  · split at taken
    · cases taken
      exact ⟨⟨⟨rfl, rfl, rfl, rfl, rfl, rfl, rfl⟩, rfl, rfl, rfl⟩, evidence⟩
    · cases taken
      exact ⟨⟨⟨rfl, rfl, rfl, rfl, rfl, rfl, rfl⟩, rfl, rfl, rfl⟩, evidence⟩

theorem found_of_inserts (inserts : Inserts store tb random next rate) :
    ∃ asked, wantLookaround store
        { tb with lookaroundCnt := (tb.lookaroundCnt + 1) % tb.lookaroundWrap } =
      some (asked, true) ∧ lookAround store asked random = some (next, some rate) := by
  rw [Inserts, frontRate] at inserts
  split at inserts
  · cases inserts
  · obtain ⟨⟨asked, wanted⟩, want, look⟩ := Option.bind_eq_some_iff.mp inserts
    cases wanted with
    | true => exact ⟨asked, want, look⟩
    | false => cases look

/-! ## Throughputs -/

theorem calculateThroughput_eq (tb : MmrcTable) (small : row < 256) :
    calculateThroughput wrapping tb row = rowThroughput wrapping tb row := by
  have stored : wrapping 8 (row : Int) = some row := faithful_wrapping 8 row small
  rw [calculateThroughput, stored]
  rfl

theorem rowThroughput_congr
    (same : next.caps = tb.caps ∧ next.bestTp = tb.bestTp ∧ next.table = tb.table ∧
      next.probabilityVariation = tb.probabilityVariation ∧
        next.interferenceLikely = tb.interferenceLikely)
    (row : Nat) :
    rowThroughput store next row = rowThroughput store tb row := by
  obtain ⟨caps, bestTp, table, variation, interference⟩ := same
  rw [rowThroughput, rowThroughput, caps, bestTp, table, variation, interference]

/-! ## Every run -/

/-- What holds of every table that is reached: the rates have the indices of their bits, and
the row that is looked around for is there. -/
structure Kept (caps : StaCapabilities) (tb : MmrcTable) : Prop where
  sameCaps : tb.caps = caps
  bestTp : Indexed caps tb.bestTp
  fixedRate : tb.fixedRate.rate ≠ mcsUnused → Indexed caps tb.fixedRate

theorem Kept.of_looked (kept : Kept caps tb) (looked : Looked tb next) :
    Kept caps next where
  sameCaps := looked.caps.trans kept.sameCaps
  bestTp := looked.bestTp ▸ kept.bestTp
  fixedRate := fun fixed => looked.fixedRate ▸ kept.fixedRate (looked.fixedRate ▸ fixed)

theorem Kept.of_sameRates (kept : Kept caps tb) (same : SameRates tb next) :
    Kept caps next :=
  kept.of_looked ⟨same.caps, same.bestTp, same.fixedRate⟩

variable {rssi : Int}

theorem kept_staInit (taken : staInit caps rssi = some tb) :
    Kept caps tb := by
  obtain ⟨index, -, taken⟩ := Option.bind_eq_some_iff.mp taken
  obtain ⟨baseline, -, taken⟩ := Option.bind_eq_some_iff.mp taken
  cases taken
  exact ⟨rfl, rfl, fun used => absurd rfl used⟩

theorem Kept.generate (kept : Kept caps tb) (buildable : Buildable caps)
    (taken : generateTablePriority store tb newStats = some next) :
    Kept caps next := by
  obtain ⟨same, ⟨isFixed, fixed⟩ | ⟨-, rates | ⟨row, -, chosen⟩⟩⟩ :=
    generateTablePriority_spec taken
  · refine ⟨same.caps.trans kept.sameCaps, fixed.bestTp ▸ kept.fixedRate isFixed, ?_⟩
    intro _
    exact same.fixedRate ▸ kept.fixedRate isFixed
  · exact kept.of_sameRates rates
  · obtain ⟨⟨best, bestTp, decoded, dropped⟩, -, -, -⟩ := chosen
    rw [kept.sameCaps] at decoded dropped
    refine ⟨same.caps.trans kept.sameCaps, ?_,
      fun fixed => same.fixedRate ▸ kept.fixedRate (same.fixedRate ▸ fixed)⟩
    rw [dropped, dropRate]
    split
    · exact indexed_rateUpdateIndex caps _
    · exact (decoded_row buildable decoded).2.1

theorem Kept.update (kept : Kept caps tb) (buildable : Buildable caps) (faithful : Faithful store)
    (taken : update store tb = some next) :
    Kept caps next := by
  obtain ⟨cycleCnt, -, taken⟩ := Option.bind_eq_some_iff.mp taken
  obtain ⟨⟨rows, newStats⟩, updated, taken⟩ := Option.bind_eq_some_iff.mp taken
  obtain ⟨chosen, generated, taken⟩ := Option.bind_eq_some_iff.mp taken
  cases taken
  have counted : SameRates tb { tb with cycleCnt := cycleCnt } :=
    ⟨rfl, rfl, rfl, rfl, rfl, rfl, rfl⟩
  have same := counted.trans (updateRows_spec faithful updated).1
  exact ((kept.of_sameRates same).generate buildable generated).of_sameRates
    (sameRates_finishUpdate chosen)

theorem looked_of_lookAround (taken : lookAround store tb random = some (next, lookaround)) :
    Looked tb next := by
  cases lookaround with
  | some rate => exact (found_of_lookAround taken).1
  | none =>
    obtain ⟨totalLookaround, -, taken⟩ := Option.bind_eq_some_iff.mp taken
    obtain ⟨bestTp, -, taken⟩ := Option.bind_eq_some_iff.mp taken
    obtain ⟨found, -, taken⟩ := Option.bind_eq_some_iff.mp taken
    cases found with
    | none =>
      cases taken
      exact ⟨rfl, rfl, rfl⟩
    | some place =>
      obtain ⟨noted, -, taken⟩ := Option.bind_eq_some_iff.mp taken
      cases taken

theorem Kept.getRates (kept : Kept caps tb)
    (taken : getRates store tb size random = some (next, chain)) :
    Kept caps next := by
  rw [Mmrc.getRates] at taken
  split at taken
  · cases taken
  · obtain ⟨⟨asked, wanted⟩, want, taken⟩ := Option.bind_eq_some_iff.mp taken
    obtain ⟨⟨looked, lookaround⟩, look, taken⟩ := Option.bind_eq_some_iff.mp taken
    obtain ⟨⟨initial, remTime⟩, -, taken⟩ := Option.bind_eq_some_iff.mp taken
    obtain ⟨remaining, -, taken⟩ := Option.bind_eq_some_iff.mp taken
    cases taken
    have counted : Kept caps
        { tb with lookaroundCnt := (tb.lookaroundCnt + 1) % tb.lookaroundWrap } :=
      kept.of_looked ⟨rfl, rfl, rfl⟩
    have waiting := counted.of_sameRates (asked_of_wantLookaround want).1.1
    split at look
    · exact waiting.of_looked (looked_of_lookAround look)
    · cases look
      exact waiting

theorem Kept.step (kept : Kept caps tb) (buildable : Buildable caps) (faithful : Faithful store)
    (taken : step store tb action = some next) :
    Kept caps next := by
  cases action with
  | feedback rates retryCount => exact kept.of_sameRates (sameRates_feedbackRates taken)
  | feedbackAgg rates retryCount success failure =>
    obtain ⟨packetCount, -, taken⟩ := Option.bind_eq_some_iff.mp taken
    exact kept.of_sameRates (sameRates_feedbackAggRates taken)
  | update => exact kept.update buildable faithful taken
  | getRates size random =>
    obtain ⟨⟨after, chain⟩, made, same⟩ := Option.map_eq_some_iff.mp taken
    cases same
    exact kept.getRates made
  | setFixedRate rate =>
    cases taken
    rw [setFixedRate]
    split
    · refine ⟨kept.sameCaps, kept.bestTp, ?_⟩
      intro _
      rw [kept.sameCaps]
      exact indexed_rateUpdateIndex caps rate
    · exact kept

theorem kept_of_reaches (buildable : Buildable caps) (initial : staInit caps rssi = some start)
    (reaches : Reaches (step wrapping) (fun _ _ => True) start tb) :
    Kept caps tb := by
  refine @Reaches.invariant _ _ (step wrapping) (fun _ _ => True) start tb (Kept caps)
    (kept_staInit initial) ?_ reaches
  intro before action after holds _ taken
  exact holds.step buildable faithful_wrapping taken

/-! ## What is put in front -/

theorem rowsFromStaCaps_pos (buildable : Buildable caps) : 0 < rowsFromStaCaps caps := by
  rw [rowsFromStaCaps_of_mcs10 buildable.mcs10]
  omega

theorem useful_of_found (kept : Kept caps tb) (buildable : Buildable caps)
    (few : rowsFromStaCaps caps ≤ 256) (evidence : (tb.table tb.bestTp.index).evidence ≠ 0)
    (best : calculateThroughput wrapping tb tb.bestTp.index = some bestTp)
    (found : Found wrapping tb bestTp rate.index rate) :
    Useful wrapping tb rate.index rate := by
  obtain ⟨decoded, valid, randomTp, expected, more⟩ := found
  rw [kept.sameCaps] at decoded valid
  obtain ⟨inCaps, indexed, -⟩ := decoded_row buildable decoded
  have positive := rowsFromStaCaps_pos buildable
  have own := indexed.lt positive
  have bestRow := kept.bestTp.lt positive
  have known (present : (tb.table rate.index).evidence ≠ 0) :
      calculateThroughput wrapping tb rate.index = some randomTp := by
    rw [randomThroughput, if_pos (Nat.pos_of_ne_zero present)] at expected
    exact expected
  constructor
  · rw [kept.sameCaps]
    exact ⟨inCaps, valid⟩
  · intro same
    have index := indexed.index_eq kept.bestTp same
    rw [← index] at evidence best
    rw [known evidence] at best
    exact absurd more (Option.some.inj best ▸ Nat.lt_irrefl _)
  · intro present
    refine ⟨randomTp, bestTp, ?_, ?_, more⟩
    · rw [← calculateThroughput_eq tb (by omega)]
      exact known present
    · rw [← calculateThroughput_eq tb (by omega)]
      exact best
  · rfl

/-- A station on 1 MHz and 2 MHz with one stream, which has short guard intervals at 1 MHz. -/
def shortOneMhzCaps : StaCapabilities where
  maxRates := 4
  maxRetries := 2
  bandwidth := 0b00011
  spatialStreams := 0b0001
  rates := 0b10011111111
  guard := 0b11
  sgiPerBw := 0b00001

theorem buildable_shortOneMhzCaps : Buildable shortOneMhzCaps where
  mcs10 := by decide
  oneMhz := by decide
  longGuard := by decide
  stream := by decide

/-- The best rate gets through at the second attempt, and four chains are made. -/
def halfThrough (best : MmrcRate) : List Action :=
  .feedback [{ best with attempts := 2 }] 2 :: .update ::
    List.replicate 4 (.getRates 1000 fun _ => 0)

/-- The row that is drawn for the fifth chain, and the rate that is put in front. -/
def fifthInsertion (row : Nat) : Option (Nat × MmrcRate) :=
  (staInit shortOneMhzCaps (-60)).bind fun start =>
    (run (step wrapping) start (halfThrough start.bestTp)).bind fun tb =>
      (frontRate wrapping tb fun _ => row).bind fun front =>
        front.2.map fun rate => (front.1.currentLookaroundRateIndex, rate)

theorem inserts_of_fifthInsertion (fifth : fifthInsertion drawn = some (row, rate)) :
    ∃ start tb next, staInit shortOneMhzCaps (-60) = some start ∧
      Reaches (step wrapping) (fun _ _ => True) start tb ∧
      Inserts wrapping tb (fun _ => drawn) next rate ∧
      next.currentLookaroundRateIndex = row := by
  obtain ⟨start, initial, fifth⟩ := Option.bind_eq_some_iff.mp fifth
  obtain ⟨tb, ran, fifth⟩ := Option.bind_eq_some_iff.mp fifth
  obtain ⟨⟨next, lookaround⟩, front, fifth⟩ := Option.bind_eq_some_iff.mp fifth
  obtain ⟨own, inserted, fifth⟩ := Option.map_eq_some_iff.mp fifth
  cases fifth
  subst inserted
  exact ⟨start, tb, next, initial, .of_run _ (guarded_true _ _) ran, front, rfl⟩

end Mmrc
end Morse
