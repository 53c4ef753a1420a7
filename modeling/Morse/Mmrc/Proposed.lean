import Morse.Mmrc.Legal
import Morse.Lib.Loops

/-!
# Every run proposes supported rates

Feedback and updates of rows leave the rates alone that are tried.  These change where the
table is gone through, and then to a row for which there is evidence, and to what is below
it.
-/

namespace Morse
namespace Mmrc

open Lib

/-! ## What leaves the rates alone -/

/-- The rates that are tried are the same. -/
structure SameRates (tb next : MmrcTable) : Prop where
  caps : next.caps = tb.caps
  bestTp : next.bestTp = tb.bestTp
  secondTp : next.secondTp = tb.secondTp
  baseline : next.baseline = tb.baseline
  bestProb : next.bestProb = tb.bestProb
  fixedRate : next.fixedRate = tb.fixedRate
  current : next.currentLookaroundRateIndex = tb.currentLookaroundRateIndex

theorem SameRates.refl (tb : MmrcTable) : SameRates tb tb := ⟨rfl, rfl, rfl, rfl, rfl, rfl, rfl⟩

variable {first second third : MmrcTable}

theorem SameRates.trans (before : SameRates first second) (after : SameRates second third) :
    SameRates first third :=
  ⟨after.caps.trans before.caps, after.bestTp.trans before.bestTp,
    after.secondTp.trans before.secondTp, after.baseline.trans before.baseline,
    after.bestProb.trans before.bestProb, after.fixedRate.trans before.fixedRate,
    after.current.trans before.current⟩

theorem sameRates_setRow (tb : MmrcTable) (row : Nat) (stats : StatsTable) :
    SameRates tb (tb.setRow row stats) := ⟨rfl, rfl, rfl, rfl, rfl, rfl, rfl⟩

variable {store : Store} {tb next : MmrcTable}

variable {rates : List MmrcRate}

theorem sameRates_feedbackRates (taken : feedbackRates store retryCount tb rates ind = some next) :
    SameRates tb next := by
  induction rates generalizing tb ind with
  | nil =>
    cases taken
    exact .refl _
  | cons rate rest ih =>
    rw [feedbackRates] at taken
    split at taken
    · exact (sameRates_setRow tb _ _).trans (ih taken)
    · split at taken
      · obtain ⟨sent, -, taken⟩ := Option.bind_eq_some_iff.mp taken
        exact (sameRates_setRow tb _ _).trans (ih taken)
      · obtain ⟨sent, -, taken⟩ := Option.bind_eq_some_iff.mp taken
        obtain ⟨success, -, taken⟩ := Option.bind_eq_some_iff.mp taken
        cases taken
        exact sameRates_setRow tb _ _

theorem sameRates_feedbackAggRates {success failure packetCount : Nat}
    (taken : feedbackAggRates store success failure packetCount tb rates ind = some next) :
    SameRates tb next := by
  induction rates generalizing tb ind with
  | nil =>
    cases taken
    exact .refl _
  | cons rate rest ih =>
    rw [feedbackAggRates] at taken
    split at taken
    · obtain ⟨sent, -, taken⟩ := Option.bind_eq_some_iff.mp taken
      exact (sameRates_setRow tb _ _).trans (ih taken)
    · obtain ⟨sent, -, taken⟩ := Option.bind_eq_some_iff.mp taken
      obtain ⟨sentSuccess, -, taken⟩ := Option.bind_eq_some_iff.mp taken
      obtain ⟨backSuccess, -, taken⟩ := Option.bind_eq_some_iff.mp taken
      obtain ⟨backFailure, -, taken⟩ := Option.bind_eq_some_iff.mp taken
      cases taken
      exact sameRates_setRow tb _ _

/-! ## Updating rows -/

/-- A row was used: there is evidence for it or it was tried since the last update. -/
def Used (stats : StatsTable) : Prop := stats.evidence ≠ 0 ∨ stats.sent ≠ 0

instance (stats : StatsTable) : Decidable (Used stats) :=
  inferInstanceAs (Decidable (stats.evidence ≠ 0 ∨ stats.sent ≠ 0))

theorem sameRates_processVariation
    (taken : processVariation store tb currentSuccess index = some next) :
    SameRates tb next ∧ next.table = tb.table := by
  rw [processVariation] at taken
  split at taken
  · cases taken
    exact ⟨.refl tb, rfl⟩
  · split at taken
    · split at taken
      · cases taken
        exact ⟨.refl tb, rfl⟩
      · cases taken
        exact ⟨⟨rfl, rfl, rfl, rfl, rfl, rfl, rfl⟩, rfl⟩
    · split at taken
      · cases taken
        exact ⟨.refl tb, rfl⟩
      · split at taken
        · cases taken
          exact ⟨.refl tb, rfl⟩
        · obtain ⟨average, -, taken⟩ := Option.bind_eq_some_iff.mp taken
          obtain ⟨variation, -, taken⟩ := Option.bind_eq_some_iff.mp taken
          cases taken
          exact ⟨⟨rfl, rfl, rfl, rfl, rfl, rfl, rfl⟩, rfl⟩

/-- A row was changed, but not the evidence for it, and no other row. -/
structure RowChanged (tb next : MmrcTable) (row : Nat) : Prop where
  rates : SameRates tb next
  others : ∀ other, other ≠ row → next.table other = tb.table other
  evidence : (next.table row).evidence = (tb.table row).evidence

variable {row : Nat}

theorem RowChanged.trans (before : RowChanged first second row)
    (after : RowChanged second third row) :
    RowChanged first third row where
  rates := before.rates.trans after.rates
  others := fun other differs => (after.others other differs).trans (before.others other differs)
  evidence := after.evidence.trans before.evidence

variable {stats : StatsTable}

theorem rowChanged_setRow (tb : MmrcTable) (row : Nat)
    (same : stats.evidence = (tb.table row).evidence) :
    RowChanged tb (tb.setRow row stats) row where
  rates := sameRates_setRow tb row stats
  others := fun _ differs => Function.update_of_ne differs _ _
  evidence := by
    rw [MmrcTable.setRow]
    dsimp only
    rw [Function.update_self]
    exact same

theorem rowChanged_workIn (taken : workIn store weight success attempts tb row = some next) :
    RowChanged tb next row := by
  obtain ⟨hundredfold, -, taken⟩ := Option.bind_eq_some_iff.mp taken
  obtain ⟨share, -, taken⟩ := Option.bind_eq_some_iff.mp taken
  obtain ⟨thisSuccess, -, taken⟩ := Option.bind_eq_some_iff.mp taken
  obtain ⟨varied, variation, taken⟩ := Option.bind_eq_some_iff.mp taken
  obtain ⟨average, -, taken⟩ := Option.bind_eq_some_iff.mp taken
  obtain ⟨prob, -, taken⟩ := Option.bind_eq_some_iff.mp taken
  obtain ⟨totalSent, -, taken⟩ := Option.bind_eq_some_iff.mp taken
  obtain ⟨totalSuccess, -, taken⟩ := Option.bind_eq_some_iff.mp taken
  cases taken
  have changed : RowChanged tb varied row := by
    split at variation
    · obtain ⟨rates, table⟩ := sameRates_processVariation variation
      exact ⟨rates, fun other _ => congrFun table other, by rw [table]⟩
    · cases variation
      exact ⟨.refl tb, fun _ _ => rfl, rfl⟩
  exact changed.trans (rowChanged_setRow varied row rfl)

theorem rowChanged_addThroughput (taken : addThroughput store tb row = some next) :
    RowChanged tb next row := by
  obtain ⟨throughput, -, taken⟩ := Option.bind_eq_some_iff.mp taken
  obtain ⟨start, -, taken⟩ := Option.bind_eq_some_iff.mp taken
  obtain ⟨sum, -, taken⟩ := Option.bind_eq_some_iff.mp taken
  obtain ⟨counter, -, taken⟩ := Option.bind_eq_some_iff.mp taken
  cases taken
  exact rowChanged_setRow tb row rfl

theorem used_of_nextEvidence (faithful : Faithful store) {minStats evidence : Nat}
    (taken : nextEvidence store minStats stats = some evidence) (present : evidence ≠ 0) :
    Used stats := by
  by_contra unused
  rw [Used, not_or, not_not, not_not] at unused
  obtain ⟨none, nothing⟩ := unused
  rw [nextEvidence, none, nothing] at taken
  have zero := faithful 16 0 (by decide)
  simp only [calcEwmaAverage, ite_self, Nat.zero_mul, if_true, Option.bind_eq_bind,
    Option.bind_some, zero, Nat.zero_min, Option.pure_def, Option.some.injEq] at taken
  exact present taken.symm

theorem updateRow_spec (faithful : Faithful store) {minStats row : Nat}
    (taken : updateRow store minStats (tb, newStats) row = some (next, newNext)) :
    SameRates tb next ∧ (∀ other, other ≠ row → next.table other = tb.table other) ∧
      ((next.table row).evidence ≠ 0 → Used (tb.table row)) := by
  obtain ⟨evidence, found, taken⟩ := Option.bind_eq_some_iff.mp taken
  obtain ⟨⟨attempts, success⟩, -, taken⟩ := Option.bind_eq_some_iff.mp taken
  dsimp only at taken found
  have changed : RowChanged (tb.setRow row { tb.table row with evidence := evidence })
    next row := by
    split at taken
    · obtain ⟨worked, work, taken⟩ := Option.bind_eq_some_iff.mp taken
      obtain ⟨added, add, taken⟩ := Option.bind_eq_some_iff.mp taken
      cases taken
      exact (rowChanged_workIn work).trans (rowChanged_addThroughput add)
    · obtain ⟨added, add, taken⟩ := Option.bind_eq_some_iff.mp taken
      cases taken
      exact rowChanged_addThroughput add
  refine ⟨(sameRates_setRow tb row _).trans changed.rates, fun other differs => ?_, fun present =>
    used_of_nextEvidence faithful found ?_⟩
  · rw [changed.others other differs]
    exact Function.update_of_ne differs _ _
  · rw [changed.evidence, MmrcTable.setRow] at present
    dsimp only at present
    rw [Function.update_self] at present
    exact present

theorem updateRows_spec (faithful : Faithful store) {minStats rows : Nat}
    (taken : (List.range rows).foldlM (updateRow store minStats) (tb, false) =
      some (next, newNext)) :
    SameRates tb next ∧ ∀ row, (next.table row).evidence ≠ 0 → Used (tb.table row) := by
  refine ⟨?_, fun row present => ?_⟩
  · refine @foldlM_invariant _ _ (updateRow store minStats) (fun state => SameRates tb state.1)
      (List.range rows) ?_ (tb, false) (next, newNext) (.refl tb) taken
    rintro ⟨before, newStats⟩ row ⟨after, newAfter⟩ _ rates updated
    exact rates.trans (updateRow_spec faithful updated).1
  · have parts := @foldlM_parts _ _ (updateRow store minStats)
      (fun state row => state.1.table row = tb.table row)
      (fun state row => (state.1.table row).evidence ≠ 0 → Used (tb.table row))
      (List.range rows) List.nodup_range
      (fun {before row after} _ untouched updated present => by
        rw [← untouched]
        exact (updateRow_spec faithful (Prod.eta before ▸ Prod.eta after ▸ updated)).2.2 present)
      (fun {before row after other} differs updated => by
        have same := (updateRow_spec faithful
          (Prod.eta before ▸ Prod.eta after ▸ updated)).2.1 other differs
        rw [same]
        exact ⟨id, id⟩)
      (tb, false) (next, newNext) (fun _ => rfl) taken row
    by_cases inside : row ∈ List.range rows
    · exact parts.1 inside present
    · have untouched := parts.2 inside
      rw [untouched] at present
      exact .inl present

/-! ## Choosing rates -/

/-- A row of a rate that is allowed and that there is evidence for. -/
def Candidate (tb : MmrcTable) (row : Nat) : Prop :=
  ∃ index tmp, index < rowsFromStaCaps tb.caps ∧ getRateRow tb.caps index = some tmp ∧
    validateRate tb.caps tmp = true ∧ (tb.table tmp.index).evidence ≠ 0 ∧ row = tmp.index

variable {priority after : Priority}

theorem bestRow_scanRow (inside : index < rowsFromStaCaps tb.caps)
    (taken : scanRow store tb priority index = some after) :
    after.bestRow = priority.bestRow ∨ Candidate tb after.bestRow := by
  obtain ⟨tmp, decoded, taken⟩ := Option.bind_eq_some_iff.mp taken
  dsimp only at taken
  split at taken
  · cases taken
    exact .inl rfl
  · next allowed =>
      rw [not_or, Bool.not_eq_false] at allowed
      have candidate : Candidate tb tmp.index :=
        ⟨index, tmp, inside, decoded, allowed.1, allowed.2, rfl⟩
      obtain ⟨tmpTp, -, taken⟩ := Option.bind_eq_some_iff.mp taken
      cases taken
      split
      · split
        · exact .inr candidate
        · split
          · exact .inl rfl
          · exact .inl rfl
      · split
        · exact .inr candidate
        · split
          · exact .inl rfl
          · exact .inl rfl

theorem bestRow_scanRows
    (taken : (List.range (rowsFromStaCaps tb.caps)).foldlM (scanRow store tb) priority =
      some after) :
    after.bestRow = priority.bestRow ∨ Candidate tb after.bestRow := by
  refine @foldlM_invariant _ _ (scanRow store tb)
    (fun state => state.bestRow = priority.bestRow ∨ Candidate tb state.bestRow)
    _ ?_ priority after (.inl rfl) taken
  intro before index state member holds scanned
  rcases bestRow_scanRow (List.mem_range.mp member) scanned with same | candidate
  · rw [same]
    exact holds
  · exact .inr candidate

/-- The rates were chosen anew from a row, and what is below it. -/
structure Chosen (tb next : MmrcTable) (row : Nat) : Prop where
  bestTp : ∃ best bestTp, getRateRow tb.caps row = some best ∧
    next.bestTp = dropRate tb.caps bestTp best
  secondTp : next.secondTp = retryRate tb.caps tb.unconverged 4 next.bestTp
  bestProb : next.bestProb = retryRate tb.caps tb.unconverged 2 next.secondTp
  baseline : next.baseline = baselineRate tb.caps next.bestProb

/-- What is not chosen anew when rates are. -/
structure SameFixed (tb next : MmrcTable) : Prop where
  caps : next.caps = tb.caps
  fixedRate : next.fixedRate = tb.fixedRate
  current : next.currentLookaroundRateIndex = tb.currentLookaroundRateIndex

/-- All rates but the last are the fixed one. -/
structure Fixed (tb next : MmrcTable) : Prop where
  bestTp : next.bestTp = tb.fixedRate
  secondTp : next.secondTp = tb.fixedRate
  bestProb : next.bestProb = tb.fixedRate
  baseline : next.baseline = tb.baseline

theorem generateTablePriority_spec (taken : generateTablePriority store tb newStats = some next) :
    SameFixed tb next ∧
      ((tb.fixedRate.rate ≠ mcsUnused ∧ Fixed tb next) ∨
        (tb.fixedRate.rate = mcsUnused ∧
          (SameRates tb next ∨
            ∃ row, (row = tb.bestTp.index ∨ Candidate tb row) ∧ Chosen tb next row))) := by
  obtain ⟨bestTp, -, taken⟩ := Option.bind_eq_some_iff.mp taken
  obtain ⟨secondBestTp, -, taken⟩ := Option.bind_eq_some_iff.mp taken
  split at taken
  · next fixed =>
      cases taken
      exact ⟨⟨rfl, rfl, rfl⟩, .inl ⟨fixed, rfl, rfl, rfl, rfl⟩⟩
  · next unused =>
      obtain ⟨priority, scanned, taken⟩ := Option.bind_eq_some_iff.mp taken
      have bestRow := bestRow_scanRows scanned
      split at taken
      · obtain ⟨best, decoded, taken⟩ := Option.bind_eq_some_iff.mp taken
        obtain ⟨second, -, taken⟩ := Option.bind_eq_some_iff.mp taken
        obtain ⟨stability, -, taken⟩ := Option.bind_eq_some_iff.mp taken
        obtain ⟨judged, judge, taken⟩ := Option.bind_eq_some_iff.mp taken
        cases taken
        have chosen : SameRates { fillRetryRates
            { tb with bestTp := dropRate tb.caps priority.bestTp best } with
              stabilityCnt := stability } judged := by
          split at judge
          · cases judge
            exact ⟨rfl, rfl, rfl, rfl, rfl, rfl, rfl⟩
          · obtain ⟨count, -, judge⟩ := Option.bind_eq_some_iff.mp judge
            cases judge
            exact ⟨rfl, rfl, rfl, rfl, rfl, rfl, rfl⟩
        refine ⟨⟨chosen.caps, chosen.fixedRate, chosen.current⟩,
          .inr ⟨not_not.mp unused, .inr ⟨priority.bestRow, bestRow, ?_⟩⟩⟩
        refine ⟨⟨best, priority.bestTp, decoded, chosen.bestTp⟩, ?_, ?_, ?_⟩
        · exact chosen.secondTp.trans
            (congrArg (retryRate tb.caps tb.unconverged 4) chosen.bestTp.symm)
        · exact chosen.bestProb.trans
            (congrArg (retryRate tb.caps tb.unconverged 2) chosen.secondTp.symm)
        · exact chosen.baseline.trans (congrArg (baselineRate tb.caps) chosen.bestProb.symm)
      · cases taken
        exact ⟨⟨rfl, rfl, rfl⟩, .inr ⟨not_not.mp unused, .inl (.refl _)⟩⟩

/-! ## The invariant -/

variable {caps : StaCapabilities}

/-- The rates of a table are supported and have the indices of their rows, and unless a
rate is fixed, what is below the best one is supported. -/
structure Proposes (caps : StaCapabilities) (tb : MmrcTable) : Prop where
  sameCaps : tb.caps = caps
  bestTp : Rowed caps tb.bestTp
  secondTp : Rowed caps tb.secondTp
  baseline : Rowed caps tb.baseline
  bestProb : Rowed caps tb.bestProb
  fixedRate : tb.fixedRate.rate ≠ mcsUnused → Rowed caps tb.fixedRate
  descends : tb.fixedRate.rate = mcsUnused → Descends caps tb.bestTp
  current : tb.currentLookaroundRateIndex < rowsFromStaCaps caps

theorem Proposes.of_sameRates (proposes : Proposes caps tb) (same : SameRates tb next) :
    Proposes caps next where
  sameCaps := same.caps.trans proposes.sameCaps
  bestTp := same.bestTp ▸ proposes.bestTp
  secondTp := same.secondTp ▸ proposes.secondTp
  baseline := same.baseline ▸ proposes.baseline
  bestProb := same.bestProb ▸ proposes.bestProb
  fixedRate := fun fixed => same.fixedRate ▸ proposes.fixedRate (same.fixedRate ▸ fixed)
  descends := fun unused => same.bestTp ▸ proposes.descends (same.fixedRate ▸ unused)
  current := same.current ▸ proposes.current

/-- What is below the rates that were used is supported. -/
def UsedDescend (tb : MmrcTable) : Prop :=
  ∀ row < rowsFromStaCaps tb.caps, ∀ rate ∈ getRateRow tb.caps row,
    validateRate tb.caps rate = true → Used (tb.table row) → Descends tb.caps rate

theorem Proposes.generate (proposes : Proposes caps tb) (sound : Sound caps)
    (used : tb.fixedRate.rate = mcsUnused → ∀ row < rowsFromStaCaps caps,
      ∀ rate ∈ getRateRow caps row, validateRate caps rate = true →
        (tb.table row).evidence ≠ 0 → Descends caps rate)
    (taken : generateTablePriority store tb newStats = some next) :
    Proposes caps next := by
  obtain ⟨same, ⟨isFixed, fixed⟩ | ⟨unused, rates | ⟨row, from_, chosen⟩⟩⟩ :=
    generateTablePriority_spec taken
  · have rowed := proposes.fixedRate isFixed
    refine ⟨same.caps.trans proposes.sameCaps, ?_, ?_, ?_, ?_, ?_, ?_, ?_⟩
    · exact fixed.bestTp ▸ rowed
    · exact fixed.secondTp ▸ rowed
    · exact fixed.baseline ▸ proposes.baseline
    · exact fixed.bestProb ▸ rowed
    · exact fun _ => same.fixedRate ▸ rowed
    · exact fun unused => absurd (same.fixedRate ▸ unused) isFixed
    · exact same.current ▸ proposes.current
  · exact proposes.of_sameRates rates
  · obtain ⟨⟨best, bestTp, decoded, dropped⟩, secondTp, bestProb, baseline⟩ := chosen
    rw [proposes.sameCaps] at decoded dropped secondTp bestProb baseline
    have stepping : Stepping caps best := by
      rcases from_ with own | ⟨index, tmp, inside, found, valid, evidence, candidate⟩
      · obtain ⟨other, same, key, rowed⟩ := proposes.bestTp.getRateRow_index sound
        rw [own, same] at decoded
        cases decoded
        exact ⟨(proposes.descends unused).of_key key, rowed⟩
      · rw [proposes.sameCaps] at inside found valid
        obtain ⟨known, same, -, rowed⟩ := exists_getRateRow sound inside
        rw [found] at same
        cases same
        obtain ⟨other, same, key, otherRowed⟩ := (rowed valid).getRateRow_index sound
        rw [candidate, same] at decoded
        cases decoded
        exact ⟨used unused tmp.index (rowed valid).index_lt best same otherRowed.valid evidence,
          otherRowed⟩
    have first : Stepping caps next.bestTp := dropped ▸ stepping.dropRate bestTp
    have second : Stepping caps next.secondTp := secondTp ▸ first.retryRate _ _
    have third : Stepping caps next.bestProb := bestProb ▸ second.retryRate _ _
    have last : Stepping caps next.baseline := baseline ▸ third.baselineRate
    refine ⟨same.caps.trans proposes.sameCaps, first.rowed, second.rowed, last.rowed, third.rowed,
      fun fixed => absurd (same.fixedRate ▸ unused) fixed, fun _ => first.descends, ?_⟩
    exact same.current ▸ proposes.current

theorem sameRates_finishUpdate (tb : MmrcTable) : SameRates tb (finishUpdate tb) := by
  rw [finishUpdate]
  split
  · exact ⟨rfl, rfl, rfl, rfl, rfl, rfl, rfl⟩
  · exact ⟨rfl, rfl, rfl, rfl, rfl, rfl, rfl⟩

theorem Proposes.update (proposes : Proposes caps tb) (sound : Sound caps)
    (faithful : Faithful store) (descend : tb.fixedRate.rate = mcsUnused → UsedDescend tb)
    (taken : update store tb = some next) :
    Proposes caps next := by
  obtain ⟨cycleCnt, -, taken⟩ := Option.bind_eq_some_iff.mp taken
  obtain ⟨⟨rows, newStats⟩, updated, taken⟩ := Option.bind_eq_some_iff.mp taken
  obtain ⟨chosen, generated, taken⟩ := Option.bind_eq_some_iff.mp taken
  cases taken
  obtain ⟨same, evidence⟩ := updateRows_spec faithful updated
  have counted : SameRates tb { tb with cycleCnt := cycleCnt } :=
    ⟨rfl, rfl, rfl, rfl, rfl, rfl, rfl⟩
  have kept := counted.trans same
  refine Proposes.of_sameRates ?_ (sameRates_finishUpdate chosen)
  refine (proposes.of_sameRates kept).generate sound (fun unused row inside rate decoded valid
    present => ?_) generated
  have all := descend (kept.fixedRate ▸ unused)
  rw [UsedDescend, proposes.sameCaps] at all
  exact all row inside rate decoded valid (evidence row present)

end Mmrc
end Morse
