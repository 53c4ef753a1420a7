import Morse.Mmrc.Chains

/-!
# Only supported rates are proposed

The rates that are tried next are rows of the table or are stepped down from one.  All of
them are supported if what lies below a rate that was used is supported.
-/

namespace Morse
namespace Mmrc

open Lib

/-! ## Rates that are allowed -/

variable {caps : StaCapabilities} {rate other : MmrcRate}

/-- A rate is of the capabilities and allowed with them. -/
structure Legal (caps : StaCapabilities) (rate : MmrcRate) : Prop where
  inCaps : InCaps caps rate
  valid : validateRate caps rate = true

/-- What a rate is sent with, without what is counted for it. -/
def MmrcRate.key (rate : MmrcRate) : Nat × Nat × Nat × Nat :=
  (rate.rate, rate.ss, rate.bw, rate.guard)

theorem Legal.of_key (legal : Legal caps rate) (same : other.key = rate.key) :
    Legal caps other := by
  obtain ⟨inCaps, valid⟩ := legal
  simp only [MmrcRate.key, Prod.mk.injEq] at same
  obtain ⟨rates, streams, bandwidths, guards⟩ := same
  refine ⟨⟨?_, ?_, ?_, ?_⟩, ?_⟩
  · rw [rates]
    exact inCaps.rate
  · rw [streams]
    exact inCaps.ss
  · rw [bandwidths]
    exact inCaps.bw
  · rw [guards]
    exact inCaps.guard
  · rw [validateRate] at valid ⊢
    rw [rates, streams, bandwidths, guards]
    exact valid

theorem rateIndex_of_key (caps : StaCapabilities) (same : other.key = rate.key) :
    rateIndex caps other = rateIndex caps rate := by
  simp only [MmrcRate.key, Prod.mk.injEq] at same
  obtain ⟨rates, streams, bandwidths, guards⟩ := same
  rw [rateIndex, rateIndex, rates, streams, bandwidths, guards]

/-- A rate that is allowed has the index of its row. -/
structure Rowed (caps : StaCapabilities) (rate : MmrcRate) : Prop extends Legal caps rate where
  index : rate.index = rateIndex caps rate

theorem Legal.rowed (legal : Legal caps rate) : Rowed caps (rateUpdateIndex caps rate) where
  toLegal := legal.of_key rfl
  index := by
    rw [rateUpdateIndex_of_lt (rateIndex_lt legal.inCaps legal.valid)]
    rfl

theorem Rowed.index_lt (rowed : Rowed caps rate) : rate.index < rowsFromStaCaps caps := by
  rw [rowed.index]
  exact rateIndex_lt rowed.inCaps rowed.valid

/-! ## Rows -/

/-- A long guard interval can take the place of a short one wherever that is refused. -/
def GuardsCover (caps : StaCapabilities) : Prop :=
  caps.guard.getLsbD guardLong = true ∨
    ∀ bw, caps.bandwidth.getLsbD bw = true → caps.sgiPerBw.getLsbD bw = true

/-- Capabilities of which every row decodes to a rate that is supported, and without the
bandwidth that there are no throughputs for. -/
structure Sound (caps : StaCapabilities) : Prop where
  decodable : Decodable caps
  guards : GuardsCover caps
  narrow : caps.bandwidth.getLsbD bw16Mhz = false
  maxRates : caps.maxRates ≠ 0

theorem exists_getRateRow (sound : Sound caps) (inside : index < rowsFromStaCaps caps) :
    ∃ rate, getRateRow caps index = some rate ∧ InCaps caps rate ∧
      (validateRate caps rate = true → Rowed caps rate) := by
  obtain ⟨mcsBit, streamsBit, bwBit, guardBit, decoded, inCaps, -⟩ :=
    sound.decodable.exists_bits inside
  refine ⟨_, decoded, ?_⟩
  rw [rateOfBits_eq inCaps]
  have supported : ∀ guard, guard =
      (if guardBit = guardShort ∧ caps.sgiPerBw.getLsbD bwBit = false then guardLong
        else guardBit) → caps.guard.getLsbD guard = true := by
    intro guard same
    rw [same]
    split
    · next refused =>
        refine sound.guards.resolve_right fun all => ?_
        rw [all bwBit inCaps.bw] at refused
        cases refused.2
    · exact inCaps.guard
  have whole : InCaps caps (rateUpdateIndex caps
      { rate := mcsBit
        attempts := 0
        guard :=
          if guardBit = guardShort ∧ caps.sgiPerBw.getLsbD bwBit = false then guardLong
          else guardBit
        ss := streamsBit
        bw := bwBit
        flags := 0
        index := 0 }) :=
    ⟨inCaps.rate, inCaps.ss, inCaps.bw, supported _ rfl⟩
  refine ⟨whole, fun valid => ?_⟩
  have legal : Legal caps
      { rate := mcsBit
        attempts := 0
        guard :=
          if guardBit = guardShort ∧ caps.sgiPerBw.getLsbD bwBit = false then guardLong
          else guardBit
        ss := streamsBit
        bw := bwBit
        flags := 0
        index := 0 } :=
    Legal.of_key ⟨whole, valid⟩ rfl
  exact legal.rowed

theorem Rowed.getRateRow_index (rowed : Rowed caps rate) (sound : Sound caps) :
    ∃ row, getRateRow caps rate.index = some row ∧ row.key = rate.key ∧ Rowed caps row := by
  obtain ⟨mcsBit, streamsBit, bwBit, guardBit, decoded, inCaps, ranked⟩ :=
    sound.decodable.exists_bits rowed.index_lt
  rw [rowed.index] at ranked
  obtain ⟨rates, streams, bandwidths, guards⟩ := rateIndex_inj inCaps rowed.inCaps ranked
  subst rates streams bandwidths guards
  have kept : ¬ (rate.guard = guardShort ∧ caps.sgiPerBw.getLsbD rate.bw = false) := by
    intro refused
    have valid := rowed.valid
    rw [validateRate] at valid
    split at valid
    · cases valid
    · split at valid
      · cases valid
      · cases valid
  refine ⟨_, decoded, ?_⟩
  rw [rateOfBits_eq inCaps, if_neg kept]
  refine ⟨rfl, Legal.rowed ?_⟩
  exact Legal.of_key rowed.toLegal rfl

/-! ## Stepping down -/

/-- What lies below a rate is allowed: every lower MCS, and the lowest one with every
smaller bandwidth. -/
structure Descends (caps : StaCapabilities) (rate : MmrcRate) : Prop where
  mcs : ∀ lower ≤ rate.rate, Legal caps { rate with rate := lower }
  bw : ∀ narrower ≤ rate.bw, Legal caps { rate with rate := 0, bw := narrower }

theorem Descends.legal (descends : Descends caps rate) : Legal caps rate :=
  descends.mcs rate.rate (Nat.le_refl _)

theorem Descends.of_key (descends : Descends caps rate) (same : other.key = rate.key) :
    Descends caps other := by
  have parts := same
  simp only [MmrcRate.key, Prod.mk.injEq] at parts
  obtain ⟨rates, streams, bandwidths, guards⟩ := parts
  refine ⟨fun lower below => ?_, fun narrower below => ?_⟩
  · refine (descends.mcs lower (rates ▸ below)).of_key ?_
    simp only [MmrcRate.key, streams, bandwidths, guards]
  · refine (descends.bw narrower (bandwidths ▸ below)).of_key ?_
    simp only [MmrcRate.key, streams, guards]

theorem Descends.lower (descends : Descends caps rate) {lower : Nat} (below : lower ≤ rate.rate) :
    Descends caps { rate with rate := lower } where
  mcs := fun lowest under => descends.mcs lowest (under.trans below)
  bw := descends.bw

theorem Descends.narrower (descends : Descends caps rate) (lowest : rate.rate = 0) :
    Descends caps { rate with bw := rate.bw - 1 } where
  mcs := fun lower under => by
    have zero : lower = 0 := Nat.le_zero.mp (under.trans_eq lowest)
    subst zero
    exact descends.bw _ (Nat.sub_le _ _)
  bw := fun narrower under => descends.bw narrower (under.trans (Nat.sub_le _ _))

/-- A rate that descends and has the index of its row. -/
structure Stepping (caps : StaCapabilities) (rate : MmrcRate) : Prop where
  descends : Descends caps rate
  rowed : Rowed caps rate

theorem Descends.stepping (descends : Descends caps rate) :
    Stepping caps (rateUpdateIndex caps rate) :=
  ⟨descends.of_key rfl, descends.legal.rowed⟩

theorem Stepping.retryRate (stepping : Stepping caps rate) (unconverged : Bool) (limit : Nat) :
    Stepping caps (retryRate caps unconverged limit rate) := by
  rw [Mmrc.retryRate]
  split
  · refine (stepping.descends.lower ?_).stepping
    split
    · next limited => omega
    · exact Nat.sub_le _ _
  · next lowest =>
      split
      · exact (stepping.descends.narrower (not_not.mp lowest)).stepping
      · exact stepping

theorem Stepping.baselineRate (stepping : Stepping caps rate) :
    Stepping caps (baselineRate caps rate) := by
  rw [Mmrc.baselineRate]
  split
  · exact (stepping.descends.lower (Nat.zero_le _)).stepping
  · next lowest =>
      split
      · exact (stepping.descends.narrower (not_not.mp lowest)).stepping
      · exact stepping

theorem Stepping.dropRate (stepping : Stepping caps rate) (bestTp : Nat) :
    Stepping caps (dropRate caps bestTp rate) := by
  rw [Mmrc.dropRate]
  split
  · exact (stepping.descends.lower (Nat.sub_le _ _)).stepping
  · exact stepping

end Mmrc
end Morse
