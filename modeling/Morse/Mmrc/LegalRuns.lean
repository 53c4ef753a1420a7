import Morse.Mmrc.Proposed

/-!
# Runs propose supported rates

A station starts with a rate that depends on how well it is heard.  From there on, its table
proposes supported rates as long as what is below the rates that were used is supported.
-/

namespace Morse
namespace Mmrc

open Lib

variable {caps : StaCapabilities} {store : Store} {tb next : MmrcTable}

/-! ## Looking around -/

variable {random : Nat → Nat} {rate : MmrcRate}

theorem rowed_of_findLookaround (proposes : Proposes caps tb) (sound : Sound caps)
    (found : findLookaround store tb bestTp random left tryCurrent = some (some (index, rate))) :
    index < rowsFromStaCaps caps ∧ Rowed caps rate := by
  induction left generalizing tryCurrent with
  | zero => cases found
  | succ left ih =>
    obtain ⟨other, decoded, found⟩ := Option.bind_eq_some_iff.mp found
    have positive : 0 < rowsFromStaCaps caps := proposes.current.trans_le' (Nat.zero_le _)
    have inside : (if tryCurrent = true then tb.currentLookaroundRateIndex
        else random left % rowsFromStaCaps tb.caps) < rowsFromStaCaps caps := by
      split
      · exact proposes.current
      · rw [proposes.sameCaps]
        exact Nat.mod_lt _ positive
    split at found
    · exact ih found
    · next allowed =>
        obtain ⟨randomTp, -, found⟩ := Option.bind_eq_some_iff.mp found
        split at found
        · exact ih found
        · cases found
          have rows : getRateRow tb.caps = getRateRow caps :=
            congrArg getRateRow proposes.sameCaps
          rw [rows] at decoded
          rw [proposes.sameCaps, not_or, Bool.not_eq_false] at allowed
          obtain ⟨known, same, -, rowed⟩ := exists_getRateRow sound inside
          rw [decoded] at same
          cases same
          exact ⟨inside, rowed allowed.1⟩

theorem Proposes.lookAt (proposes : Proposes caps tb) (caps_eq : next.caps = tb.caps)
    (rates : next.bestTp = tb.bestTp ∧ next.secondTp = tb.secondTp ∧
      next.baseline = tb.baseline ∧ next.bestProb = tb.bestProb ∧
      next.fixedRate = tb.fixedRate)
    (inside : next.currentLookaroundRateIndex < rowsFromStaCaps caps) :
    Proposes caps next := by
  obtain ⟨bestTp, secondTp, baseline, bestProb, fixedRate⟩ := rates
  refine ⟨caps_eq.trans proposes.sameCaps, bestTp ▸ proposes.bestTp,
    secondTp ▸ proposes.secondTp, baseline ▸ proposes.baseline, bestProb ▸ proposes.bestProb,
    fun fixed => fixedRate ▸ proposes.fixedRate (fixedRate ▸ fixed),
    fun unused => bestTp ▸ proposes.descends (fixedRate ▸ unused), inside⟩

variable {index : Nat}

theorem Proposes.noteLookaround (proposes : Proposes caps tb)
    (inside : index < rowsFromStaCaps caps) (taken : noteLookaround store tb index = some next) :
    Proposes caps next := by
  rw [Mmrc.noteLookaround] at taken
  split at taken
  · obtain ⟨attempts, -, taken⟩ := Option.bind_eq_some_iff.mp taken
    cases taken
    exact proposes.of_sameRates ⟨rfl, rfl, rfl, rfl, rfl, rfl, rfl⟩
  · cases taken
    exact proposes.lookAt rfl ⟨rfl, rfl, rfl, rfl, rfl⟩ inside

variable {lookaround : Option MmrcRate}

theorem Proposes.lookAround (proposes : Proposes caps tb) (sound : Sound caps)
    (taken : lookAround store tb random = some (next, lookaround)) :
    Proposes caps next ∧ ∀ rate ∈ lookaround, Rowed caps rate := by
  obtain ⟨totalLookaround, -, taken⟩ := Option.bind_eq_some_iff.mp taken
  obtain ⟨bestTp, -, taken⟩ := Option.bind_eq_some_iff.mp taken
  obtain ⟨found, search, taken⟩ := Option.bind_eq_some_iff.mp taken
  have counted : Proposes caps { tb with
      totalLookaround := totalLookaround
      forcedLookaround := (tb.forcedLookaround + 1) % 50
      lastLookaroundCycle := tb.cycleCnt } :=
    proposes.of_sameRates ⟨rfl, rfl, rfl, rfl, rfl, rfl, rfl⟩
  cases found with
  | none =>
    cases taken
    refine ⟨proposes.lookAt rfl ⟨rfl, rfl, rfl, rfl, rfl⟩ proposes.bestTp.index_lt, ?_⟩
    intro rate member
    cases member
  | some place =>
    obtain ⟨inside, rowed⟩ := rowed_of_findLookaround counted sound search
    obtain ⟨noted, note, taken⟩ := Option.bind_eq_some_iff.mp taken
    cases taken
    refine ⟨counted.noteLookaround inside note, ?_⟩
    intro other member
    cases member
    exact rowed

theorem Proposes.wantLookaround (proposes : Proposes caps tb)
    (taken : wantLookaround store tb = some (next, wanted)) :
    Proposes caps next := by
  obtain ⟨due, -, taken⟩ := Option.bind_eq_some_iff.mp taken
  split at taken
  · split at taken
    · cases taken
      exact proposes.of_sameRates ⟨rfl, rfl, rfl, rfl, rfl, rfl, rfl⟩
    · cases taken
      exact proposes
  · split at taken
    · cases taken
      exact proposes.of_sameRates ⟨rfl, rfl, rfl, rfl, rfl, rfl, rfl⟩
    · cases taken
      exact proposes

/-! ## Chains -/

/-- A rate of a chain that is used is supported. -/
def Allowed (caps : StaCapabilities) (rate : MmrcRate) : Prop :=
  rate.rate ≠ mcsUnused → Legal caps rate

theorem allowed_unused (caps : StaCapabilities) : Allowed caps .unused :=
  fun used => absurd rfl used

theorem Rowed.allowed (rowed : Rowed caps rate) : Allowed caps rate :=
  fun _ => rowed.toLegal

theorem allowed_chainRates (proposes : Proposes caps tb)
    (found : ∀ rate ∈ lookaround, Rowed caps rate) :
    ∀ rate ∈ chainRates tb lookaround, Allowed caps rate := by
  have first : Allowed caps (lookaround.getD tb.bestTp) := by
    cases lookaround with
    | none => exact proposes.bestTp.allowed
    | some rate => exact (found rate rfl).allowed
  have second : ∀ other, Allowed caps other →
      Allowed caps (if lookaround.isSome then tb.bestTp else other) := by
    intro other allowed
    split
    · exact proposes.bestTp.allowed
    · exact allowed
  have none := allowed_unused caps
  rw [chainRates]
  split
  · exact List.forall_mem_cons.mpr ⟨first, List.forall_mem_cons.mpr ⟨none,
      List.forall_mem_cons.mpr ⟨none, List.forall_mem_singleton.mpr none⟩⟩⟩
  · split
    · exact List.forall_mem_cons.mpr ⟨first, List.forall_mem_cons.mpr
        ⟨second _ proposes.bestProb.allowed, List.forall_mem_cons.mpr
          ⟨none, List.forall_mem_singleton.mpr none⟩⟩⟩
    · split
      · exact List.forall_mem_cons.mpr ⟨first, List.forall_mem_cons.mpr
          ⟨second _ proposes.secondTp.allowed, List.forall_mem_cons.mpr
            ⟨proposes.bestProb.allowed, List.forall_mem_singleton.mpr none⟩⟩⟩
      · exact List.forall_mem_cons.mpr ⟨first, List.forall_mem_cons.mpr
          ⟨second _ proposes.secondTp.allowed, List.forall_mem_cons.mpr
            ⟨proposes.bestProb.allowed,
              List.forall_mem_singleton.mpr proposes.baseline.allowed⟩⟩⟩

theorem map_key_setRtsCts (rates : List MmrcRate) :
    (setRtsCts rates).map MmrcRate.key = rates.map MmrcRate.key := by
  cases rates with
  | nil => rfl
  | cons first rest =>
    rw [setRtsCts, List.map_cons, List.map_map]
    rfl

variable {rates changed : List MmrcRate}

theorem map_key_allocateInitialAttempts
    (taken : allocateInitialAttempts size rates remTime = some (changed, left)) :
    changed.map MmrcRate.key = rates.map MmrcRate.key := by
  induction rates generalizing remTime changed left with
  | nil =>
    cases taken
    rfl
  | cons rate rest ih =>
    rw [allocateInitialAttempts] at taken
    split at taken
    · cases taken
      rfl
    · obtain ⟨time, -, taken⟩ := Option.bind_eq_some_iff.mp taken
      obtain ⟨⟨others, remaining⟩, allocated, taken⟩ := Option.bind_eq_some_iff.mp taken
      cases taken
      rw [List.map_cons, ih allocated]
      rfl

variable {remTime size : Nat} {isFirst : Bool}

theorem key_remainingAttempts {rate changed : MmrcRate}
    (taken : remainingAttempts store tb remTime size isFirst rate = some changed) :
    changed.key = rate.key := by
  rw [remainingAttempts] at taken
  split at taken
  · cases taken
    rfl
  · obtain ⟨own, -, taken⟩ := Option.bind_eq_some_iff.mp taken
    obtain ⟨safe, -, taken⟩ := Option.bind_eq_some_iff.mp taken
    split at taken
    · cases taken
      rfl
    · obtain ⟨time, -, taken⟩ := Option.bind_eq_some_iff.mp taken
      split at taken
      · cases taken
        rfl
      · obtain ⟨share, -, taken⟩ := Option.bind_eq_some_iff.mp taken
        cases taken
        rfl

theorem map_key_remainingLoop
    (taken : remainingLoop store tb remTime size isFirst rates = some changed) :
    changed.map MmrcRate.key = rates.map MmrcRate.key := by
  induction rates generalizing isFirst changed with
  | nil =>
    cases taken
    rfl
  | cons rate rest ih =>
    rw [remainingLoop] at taken
    split at taken
    · cases taken
      rfl
    · obtain ⟨other, given, taken⟩ := Option.bind_eq_some_iff.mp taken
      obtain ⟨others, looped, taken⟩ := Option.bind_eq_some_iff.mp taken
      cases taken
      rw [List.map_cons, List.map_cons, ih looped, key_remainingAttempts given]

theorem map_key_calculateRemainingAttempts {remTime : BitVec 32}
    (taken : calculateRemainingAttempts store tb rates remTime size = some changed) :
    changed.map MmrcRate.key = rates.map MmrcRate.key := by
  rw [calculateRemainingAttempts] at taken
  split at taken
  · cases taken
    rfl
  · exact map_key_remainingLoop taken

theorem key_enforceLimits (once : Bool) (rate : MmrcRate) :
    (enforceLimits once rate).key = rate.key := by
  rw [enforceLimits]
  split
  · rfl
  · rfl

theorem key_bestAttempts (rate : MmrcRate) : (bestAttempts rate).key = rate.key := by
  rw [bestAttempts]
  split
  · rfl
  · split
    · rfl
    · rfl

/-- The attempts of a rate that is used are within the limits. -/
def Limited (rate : MmrcRate) : Prop :=
  rate.rate ≠ mcsUnused → minChainAttempts ≤ rate.attempts ∧ rate.attempts ≤ maxChainAttempts

theorem limited_enforceLimits (once : Bool) (rate : MmrcRate) :
    Limited (enforceLimits once rate) := by
  intro used
  rw [enforceLimits] at used ⊢
  split
  · next unused =>
      rw [if_pos unused] at used
      exact absurd unused used
  · dsimp only
    rw [minChainAttempts, maxChainAttempts]
    split
    · omega
    · split
      · omega
      · omega

theorem Limited.bestAttempts (limited : Limited rate) :
    Limited (bestAttempts rate) := by
  intro used
  rw [Mmrc.bestAttempts] at used ⊢
  split
  · exact ⟨Nat.le_succ 1, Nat.le_refl 2⟩
  · next other =>
      rw [if_neg other] at used
      split
      · exact ⟨Nat.le_refl 1, Nat.le_succ 1⟩
      · next higher =>
          rw [if_neg higher] at used
          exact limited used

theorem mem_modify (member : rate ∈ rates.modify index change) :
    ∃ other ∈ rates, rate = other ∨ rate = change other := by
  obtain ⟨place, inside, same⟩ := List.mem_iff_getElem.mp member
  rw [List.length_modify] at inside
  refine ⟨rates[place], List.getElem_mem inside, ?_⟩
  rw [← same, List.getElem_modify]
  split
  · exact .inr rfl
  · exact .inl rfl

theorem mem_limitChain (member : rate ∈ limitChain tb isLookaround rates) :
    Limited rate ∧ ∃ other ∈ rates, rate.key = other.key := by
  cases rates with
  | nil =>
    obtain ⟨other, known, -⟩ := mem_modify member
    cases known
  | cons first rest =>
    obtain ⟨other, known, same⟩ := mem_modify member
    have before : Limited other ∧ ∃ source ∈ first :: rest, other.key = source.key := by
      rcases List.mem_cons.mp known with same | later
      · rw [same]
        exact ⟨limited_enforceLimits _ first, first, List.mem_cons_self,
          key_enforceLimits _ first⟩
      · obtain ⟨source, known, same⟩ := List.mem_map.mp later
        rw [← same]
        exact ⟨limited_enforceLimits _ source, source, List.mem_cons_of_mem _ known,
          key_enforceLimits _ source⟩
    obtain ⟨limited, source, inside, key⟩ := before
    rcases same with same | same
    · rw [same]
      exact ⟨limited, source, inside, key⟩
    · rw [same]
      exact ⟨limited.bestAttempts, source, inside, (key_bestAttempts other).trans key⟩

theorem Proposes.getRates (proposes : Proposes caps tb) (sound : Sound caps)
    (taken : getRates store tb size random = some (next, chain)) :
    Proposes caps next ∧ ∀ rate ∈ chain, Allowed caps rate ∧ Limited rate := by
  rw [Mmrc.getRates] at taken
  split at taken
  · cases taken
  · obtain ⟨⟨asked, wanted⟩, want, taken⟩ := Option.bind_eq_some_iff.mp taken
    obtain ⟨⟨looked, lookaround⟩, look, taken⟩ := Option.bind_eq_some_iff.mp taken
    obtain ⟨⟨initial, remTime⟩, allocated, taken⟩ := Option.bind_eq_some_iff.mp taken
    obtain ⟨remaining, calculated, taken⟩ := Option.bind_eq_some_iff.mp taken
    cases taken
    have counted : Proposes caps
        { tb with lookaroundCnt := (tb.lookaroundCnt + 1) % tb.lookaroundWrap } :=
      proposes.of_sameRates ⟨rfl, rfl, rfl, rfl, rfl, rfl, rfl⟩
    have waiting := counted.wantLookaround want
    have found : Proposes caps next ∧ ∀ rate ∈ lookaround, Rowed caps rate := by
      split at look
      · exact waiting.lookAround sound look
      · cases look
        refine ⟨waiting, ?_⟩
        intro rate member
        cases member
    refine ⟨found.1, fun rate member => ?_⟩
    obtain ⟨limited, source, inside, key⟩ := mem_limitChain member
    refine ⟨fun used => ?_, limited⟩
    have keys : remaining.map MmrcRate.key = (chainRates next lookaround).map MmrcRate.key := by
      rw [map_key_calculateRemainingAttempts calculated,
        map_key_allocateInitialAttempts allocated, map_key_setRtsCts]
    have listed := List.mem_map_of_mem (f := MmrcRate.key) inside
    rw [keys] at listed
    obtain ⟨original, known, same⟩ := List.mem_map.mp listed
    have whole : rate.key = original.key := key.trans same.symm
    have rates : rate.rate = original.rate := congrArg Prod.fst whole
    exact (allowed_chainRates found.1 found.2 original known (rates ▸ used)).of_key whole

/-! ## Fixed rates and the start -/

theorem Proposes.setFixedRate (proposes : Proposes caps tb) (rate : MmrcRate) :
    Proposes caps (setFixedRate tb rate) := by
  rw [Mmrc.setFixedRate]
  split
  · next supported =>
      simp only [Bool.and_eq_true, proposes.sameCaps] at supported
      obtain ⟨⟨⟨⟨valid, rates⟩, bandwidths⟩, streams⟩, guards⟩ := supported
      have rowed : Rowed caps (rateUpdateIndex caps rate) :=
        Legal.rowed ⟨⟨rates, streams, bandwidths, guards⟩, valid⟩
      have used : rate.rate ≠ mcsUnused := by
        intro unused
        rw [unused] at rates
        exact absurd rates (by simp [mcsUnused])
      refine ⟨proposes.sameCaps, proposes.bestTp, proposes.secondTp, proposes.baseline,
        proposes.bestProb, fun _ => ?_, fun unused => absurd unused used, proposes.current⟩
      rw [proposes.sameCaps]
      exact rowed
  · exact proposes

/-- What a station starts with is supported, and so is what is below it. -/
structure Starts (caps : StaCapabilities) (rssi : Int) : Prop where
  stream : caps.spatialStreams.getLsbD spatialStream1 = true
  rates : ∀ mcs ≤ initMcs caps rssi, caps.rates.getLsbD mcs = true
  bandwidths : ∀ bw ≤ maxBw caps, caps.bandwidth.getLsbD bw = true
  long : caps.sgiPerBw.getLsbD (maxBw caps) = false → caps.guard.getLsbD guardLong = true
  short : caps.sgiPerBw.getLsbD (maxBw caps) = true →
    caps.guard.getLsbD guardShort = true ∧ ∀ bw ≤ maxBw caps, caps.sgiPerBw.getLsbD bw = true

theorem initMcs_le (caps : StaCapabilities) (rssi : Int) : initMcs caps rssi ≤ 7 := by
  rw [initMcs]
  split
  · exact Nat.le_refl 7
  · split
    · exact Nat.le_of_ble_eq_true rfl
    · split
      · exact Nat.le_of_ble_eq_true rfl
      · exact Nat.zero_le 7

theorem validateRate_of_le (low : rate.rate ≤ 7)
    (guards : rate.guard = guardShort → caps.sgiPerBw.getLsbD rate.bw = true) :
    validateRate caps rate = true := by
  rw [validateRate, if_neg, if_neg, if_neg]
  · rintro ⟨short, refused⟩
    rw [guards short] at refused
    cases refused
  · rintro ⟨high, -⟩
    rw [mcs9] at high
    omega
  · rintro ⟨high, -⟩
    rw [mcs10] at high
    omega

variable {rssi : Int}

theorem Starts.descends (starts : Starts caps rssi) :
    Descends caps (initRate caps rssi) := by
  have legal : ∀ mcs ≤ initMcs caps rssi, ∀ bw ≤ maxBw caps,
      Legal caps { initRate caps rssi with rate := mcs, bw := bw } := by
    intro mcs low bw narrow
    cases refused : caps.sgiPerBw.getLsbD (maxBw caps) with
    | false =>
      have guards : (initRate caps rssi).guard = guardLong := by
        rw [initRate, refused]
        rfl
      refine ⟨⟨starts.rates mcs low, starts.stream, starts.bandwidths bw narrow, ?_⟩,
        validateRate_of_le (low.trans (initMcs_le caps rssi)) ?_⟩
      · rw [guards]
        exact starts.long refused
      · intro short
        rw [guards] at short
        cases short
    | true =>
      have guards : (initRate caps rssi).guard = guardShort := by
        rw [initRate, refused]
        rfl
      refine ⟨⟨starts.rates mcs low, starts.stream, starts.bandwidths bw narrow, ?_⟩,
        validateRate_of_le (low.trans (initMcs_le caps rssi)) ?_⟩
      · rw [guards]
        exact (starts.short refused).1
      · exact fun _ => (starts.short refused).2 bw narrow
  exact ⟨fun lower below => legal lower below _ (Nat.le_refl _),
    fun narrower below => legal 0 (Nat.zero_le _) narrower below⟩

theorem Starts.proposes (starts : Starts caps rssi) (taken : staInit caps rssi = some tb) :
    Proposes caps tb := by
  obtain ⟨index, -, taken⟩ := Option.bind_eq_some_iff.mp taken
  obtain ⟨baseline, -, taken⟩ := Option.bind_eq_some_iff.mp taken
  cases taken
  have first : Stepping caps (initRate caps rssi) := (starts.descends.of_key rfl).stepping
  have second : Stepping caps (retryRate caps true 4 (initRate caps rssi)) := first.retryRate _ _
  have third := second.retryRate true 2
  exact ⟨rfl, first.rowed, second.rowed, third.baselineRate.rowed, third.rowed,
    fun used => absurd rfl used, fun _ => first.descends,
    first.rowed.index_lt.trans_le' (Nat.zero_le _)⟩

/-! ## Runs -/

/-- Unless a rate is fixed, an update comes when what is below the rates that were used is
supported. -/
def Admits (tb : MmrcTable) : Action → Prop
  | .update => tb.fixedRate.rate = mcsUnused → UsedDescend tb
  | _ => True

theorem Proposes.step (proposes : Proposes caps tb) (sound : Sound caps) (faithful : Faithful store)
    (admits : Admits tb action) (taken : step store tb action = some next) :
    Proposes caps next := by
  cases action with
  | feedback rates retryCount => exact proposes.of_sameRates (sameRates_feedbackRates taken)
  | feedbackAgg rates retryCount success failure =>
    obtain ⟨packetCount, -, taken⟩ := Option.bind_eq_some_iff.mp taken
    exact proposes.of_sameRates (sameRates_feedbackAggRates taken)
  | update => exact proposes.update sound faithful admits taken
  | getRates size random =>
    obtain ⟨⟨after, chain⟩, made, same⟩ := Option.map_eq_some_iff.mp taken
    cases same
    exact (proposes.getRates sound made).1
  | setFixedRate rate =>
    cases taken
    exact proposes.setFixedRate rate

/-- In every table that is reached, the rates are supported, and so are those of every chain,
each with a number of attempts within the limits. -/
theorem legal_of_reaches {rssi : Int} {start : MmrcTable} (sound : Sound caps)
    (starts : Starts caps rssi) (initial : staInit caps rssi = some start)
    (reaches : Reaches (step wrapping) Admits start tb) :
    (Legal caps tb.bestTp ∧ Legal caps tb.secondTp ∧ Legal caps tb.bestProb ∧
      Legal caps tb.baseline) ∧
    ∀ size random next chain, getRates wrapping tb size random = some (next, chain) →
      ∀ rate ∈ chain, rate.rate ≠ mcsUnused →
        Legal caps rate ∧ minChainAttempts ≤ rate.attempts ∧ rate.attempts ≤ maxChainAttempts := by
  have proposes : Proposes caps tb := by
    refine @Reaches.invariant _ _ (step wrapping) Admits start tb (Proposes caps)
      (starts.proposes initial) ?_ reaches
    intro before action after holds admits taken
    exact holds.step sound faithful_wrapping admits taken
  refine ⟨⟨proposes.bestTp.toLegal, proposes.secondTp.toLegal, proposes.bestProb.toLegal,
    proposes.baseline.toLegal⟩, ?_⟩
  intro size random next chain taken rate member used
  obtain ⟨allowed, limited⟩ := (proposes.getRates sound taken).2 rate member
  exact ⟨allowed used, limited used⟩

/-! ## Capabilities without gaps -/

/-- Capabilities up to MCS 7 without gaps, and without short guards. -/
structure Gapless (caps : StaCapabilities) : Prop where
  rates : ∀ mcs, caps.rates.getLsbD mcs = true →
    mcs ≤ 7 ∧ ∀ lower ≤ mcs, caps.rates.getLsbD lower = true
  bandwidths : ∀ bw, caps.bandwidth.getLsbD bw = true →
    ∀ narrower ≤ bw, caps.bandwidth.getLsbD narrower = true
  guards : ∀ guard, caps.guard.getLsbD guard = true → guard = guardLong

theorem Gapless.descends (gapless : Gapless caps) (legal : Legal caps rate) :
    Descends caps rate := by
  obtain ⟨inCaps, -⟩ := legal
  obtain ⟨low, lower⟩ := gapless.rates rate.rate inCaps.rate
  have guards := gapless.guards rate.guard inCaps.guard
  have long : rate.guard ≠ guardShort := by
    rw [guards]
    exact Nat.zero_ne_one
  refine ⟨fun mcs below => ⟨⟨lower mcs below, inCaps.ss, inCaps.bw, inCaps.guard⟩, ?_⟩,
    fun bw below => ⟨⟨lower 0 (Nat.zero_le _), inCaps.ss,
      gapless.bandwidths rate.bw inCaps.bw bw below, inCaps.guard⟩, ?_⟩⟩
  · exact validateRate_of_le (below.trans low) fun short => absurd short long
  · exact validateRate_of_le (Nat.zero_le 7) fun short => absurd short long

theorem Gapless.admits (gapless : Gapless caps) (sound : Sound caps) (same : tb.caps = caps)
    (action : Action) :
    Admits tb action := by
  cases action with
  | update =>
    intro _ row inside rate decoded valid _
    rw [same] at inside decoded valid ⊢
    obtain ⟨known, found, -, rowed⟩ := exists_getRateRow sound inside
    rw [found] at decoded
    cases decoded
    exact gapless.descends (rowed valid).toLegal
  | feedback | feedbackAgg | getRates | setFixedRate => trivial

theorem Gapless.guarded (gapless : Gapless caps) (sound : Sound caps) (proposes : Proposes caps tb)
    (actions : List Action) :
    Guarded (step wrapping) Admits tb actions := by
  induction actions generalizing tb with
  | nil => trivial
  | cons action rest ih =>
    have admits := gapless.admits sound proposes.sameCaps action
    refine ⟨admits, ?_⟩
    split
    · next after taken =>
        exact ih (proposes.step sound faithful_wrapping admits taken)
    · trivial

/-- A station on 1 MHz and 2 MHz, with one stream. -/
def slowCaps : StaCapabilities where
  maxRates := 4
  maxRetries := 2
  bandwidth := 0b00011
  spatialStreams := 0b0001
  rates := 0b00011111111
  guard := 0b01
  sgiPerBw := 0

theorem gapless_slowCaps : Gapless slowCaps where
  rates := by
    intro mcs set
    have inside : mcs < 11 := BitVec.lt_of_getLsbD set
    revert set
    revert mcs
    decide
  bandwidths := by
    intro bw set
    have inside : bw < 5 := BitVec.lt_of_getLsbD set
    revert set
    revert bw
    decide
  guards := by
    intro guard set
    have inside : guard < 2 := BitVec.lt_of_getLsbD set
    revert set
    revert guard
    decide

theorem sound_slowCaps : Sound slowCaps where
  decodable := ⟨by decide, by decide, by decide, by decide, fun mcs10 => absurd mcs10 (by decide)⟩
  guards := .inl (by decide)
  narrow := by decide
  maxRates := by decide

theorem starts_slowCaps : Starts slowCaps (-60) where
  stream := by decide
  rates := by decide
  bandwidths := by decide
  long := by decide
  short := by decide

theorem legal_of_reaches_slowCaps :
    ∃ start tb, staInit slowCaps (-60) = some start ∧
      run (step wrapping) start [.feedback [start.bestTp] 1, .update] = some tb ∧
      Legal slowCaps tb.bestTp ∧
      ∀ size random next chain, getRates wrapping tb size random = some (next, chain) →
        ∀ rate ∈ chain, rate.rate ≠ mcsUnused → Legal slowCaps rate ∧ 1 ≤ rate.attempts := by
  have finishes : ((staInit slowCaps (-60)).bind fun start =>
      run (step wrapping) start [.feedback [start.bestTp] 1, .update]).isSome = true := by
    decide +kernel
  obtain ⟨tb, finishes⟩ := Option.isSome_iff_exists.mp finishes
  obtain ⟨start, initial, ran⟩ := Option.bind_eq_some_iff.mp finishes
  have proposes := starts_slowCaps.proposes initial
  obtain ⟨⟨legal, -⟩, chains⟩ := legal_of_reaches sound_slowCaps starts_slowCaps initial
    (.of_run _ (gapless_slowCaps.guarded sound_slowCaps proposes _) ran)
  refine ⟨start, tb, initial, ran, legal, fun size random next chain made rate member used => ?_⟩
  obtain ⟨allowed, limited⟩ := chains size random next chain made rate member used
  exact ⟨allowed, limited.1⟩

/-- A station whose rates end at MCS 2 starts with MCS 7. -/
theorem not_legal_staInit : ∃ start,
    staInit { slowCaps with rates := 0b10000000111 } (-60) = some start ∧
      ¬ Legal { slowCaps with rates := 0b10000000111 } start.bestTp := by
  refine ⟨_, rfl, fun legal => ?_⟩
  exact absurd legal.inCaps.rate (by decide)

end Mmrc
end Morse
