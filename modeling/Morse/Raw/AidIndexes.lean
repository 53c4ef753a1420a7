import Morse.Raw.Spreading
import Mathlib.Order.Bounds.Defs

/-!
# The indexes of a range

A configuration with a range of stations keeps the indexes of the first and of
the last associated one of them.  The search rounds both ends of the range down.
For the end this is the last station of the range.  For the start it is a station
before the range, unless the start is associated itself or none is before it.
-/

namespace Morse
namespace Raw

/-- A configuration whose range is marked invalid. -/
def RawConfig.IsInvalid (cfg : RawConfig) : Prop :=
  cfg.startAidIdx = invalidAidIdxValue ∧ cfg.endAidIdx = invalidAidIdxValue

instance (cfg : RawConfig) : Decidable cfg.IsInvalid := inferInstanceAs (Decidable (_ ∧ _))

/-- A configuration has the indexes of the smallest station from the start of its
range on and of the largest one up to its end. -/
def RawConfig.HasRange (cfg : RawConfig) (aids : List (BitVec 16)) : Prop :=
  ∃ first last : Nat, cfg.startAidIdx = first ∧ cfg.endAidIdx = last ∧
    first < aids.length ∧ last < aids.length ∧
    IsLeast {aid | aid ∈ aids ∧ cfg.startAid ≤ aid} (aids.getD first 0) ∧
    IsGreatest {aid | aid ∈ aids ∧ aid ≤ cfg.endAid} (aids.getD last 0)

/-- The range is marked invalid exactly if no station is in it, and else has its
first and its last station. -/
structure RangeExact (aids : List (BitVec 16)) (cfg : RawConfig) : Prop where
  invalid : cfg.IsInvalid ↔ stationsBetween aids cfg.startAid cfg.endAid = []
  stored : stationsBetween aids cfg.startAid cfg.endAid ≠ [] → cfg.HasRange aids

/-- The search serves for both ends of a range: the start of one with stations
is associated or before all, and one without stations comes after some station.
Without any station at all, the configuration is marked invalid before. -/
structure Findable (aids : List (BitVec 16)) (cfg : RawConfig) : Prop where
  located : stationsBetween aids cfg.startAid cfg.endAid ≠ [] → Located aids cfg.startAid
  after : aids ≠ [] → stationsBetween aids cfg.startAid cfg.endAid = [] →
    ∃ aid ∈ aids, aid < cfg.startAid
  marked : aids = [] → cfg.IsInvalid

/-! ## What the search stores -/

theorem updateAidIndexes_aids (cfg : RawConfig) (aids : List (BitVec 16)) :
    (updateAidIndexes cfg aids).startAid = cfg.startAid ∧
      (updateAidIndexes cfg aids).endAid = cfg.endAid := by
  rw [updateAidIndexes]
  split
  · exact ⟨rfl, rfl⟩
  · dsimp only
    split <;> exact ⟨rfl, rfl⟩

theorem updateAidIndexes_invalid (sorted : aids.Pairwise (· < ·)) (some : aids ≠ [])
    (absent : ¬ Located aids cfg.startAid) :
    (updateAidIndexes cfg aids).IsInvalid := by
  have below := not_not.mp (mt (located_iff sorted some).mpr absent)
  rw [updateAidIndexes, if_neg some]
  dsimp only
  rw [bsearchAidIndexes_eq sorted some, Int.toNat_natCast, if_pos below]
  exact ⟨rfl, rfl⟩

theorem updateAidIndexes_valid (sorted : aids.Pairwise (· < ·)) (some : aids ≠ [])
    (located : Located aids cfg.startAid) :
    (updateAidIndexes cfg aids).startAidIdx =
        ((stationsUpTo aids cfg.startAid - 1 : Nat) : Int) ∧
      (updateAidIndexes cfg aids).endAidIdx =
        ((stationsUpTo aids cfg.endAid - 1 : Nat) : Int) := by
  have above := (located_iff sorted some).mp located
  rw [updateAidIndexes, if_neg some]
  dsimp only
  rw [bsearchAidIndexes_eq sorted some, bsearchAidIndexes_eq sorted some, Int.toNat_natCast,
    if_neg above]
  exact ⟨rfl, rfl⟩

theorem isLeast_of_located (sorted : aids.Pairwise (· < ·)) (some : aids ≠ [])
    (located : Located aids startAid) :
    stationsUpTo aids startAid - 1 < aids.length ∧
      IsLeast {aid | aid ∈ aids ∧ startAid ≤ aid}
        (aids.getD (stationsUpTo aids startAid - 1) 0) := by
  have positive := List.length_pos_of_ne_nil some
  have bound := stationsUpTo_le_length aids startAid
  have inside : stationsUpTo aids startAid - 1 < aids.length := by omega
  have least := BitVec.not_lt.mp ((located_iff sorted some).mp located)
  refine ⟨inside, ⟨?_, least⟩, ?_⟩
  · rw [List.getD_eq_getElem _ _ inside]
    exact List.getElem_mem inside
  · rintro aid ⟨member, after⟩
    obtain ⟨idx, short, rfl⟩ := List.mem_iff_getElem.mp member
    rw [← List.getD_eq_getElem _ 0 short] at after ⊢
    apply (getD_le_getD_iff sorted inside short).mpr
    by_contra early
    have next := (lt_stationsUpTo_iff sorted (by omega : idx + 1 < aids.length)).mp
      (by omega : idx + 1 < stationsUpTo aids startAid)
    have less := getD_lt_getD sorted (by omega : idx < idx + 1) (by omega)
    simp only [BitVec.lt_def, BitVec.le_def] at next less after
    omega

theorem isGreatest_of_reached (sorted : aids.Pairwise (· < ·))
    (reached : ∃ aid ∈ aids, aid ≤ endAid) :
    stationsUpTo aids endAid - 1 < aids.length ∧
      IsGreatest {aid | aid ∈ aids ∧ aid ≤ endAid}
        (aids.getD (stationsUpTo aids endAid - 1) 0) := by
  obtain ⟨early, member, small⟩ := reached
  have counted : 0 < stationsUpTo aids endAid :=
    List.countP_pos_iff.mpr ⟨early, member, decide_eq_true small⟩
  have bound := stationsUpTo_le_length aids endAid
  have inside : stationsUpTo aids endAid - 1 < aids.length := by omega
  have last := (lt_stationsUpTo_iff sorted inside).mp
    (by omega : stationsUpTo aids endAid - 1 < stationsUpTo aids endAid)
  refine ⟨inside, ⟨?_, last⟩, ?_⟩
  · rw [List.getD_eq_getElem _ _ inside]
    exact List.getElem_mem inside
  · rintro aid ⟨present, before⟩
    obtain ⟨idx, short, rfl⟩ := List.mem_iff_getElem.mp present
    rw [← List.getD_eq_getElem _ 0 short] at before ⊢
    have order := (lt_stationsUpTo_iff sorted short).mpr before
    exact (getD_le_getD_iff sorted short inside).mpr (by omega)

theorem stationsBetween_ne_nil_iff :
    stationsBetween aids startAid endAid ≠ [] ↔
      ∃ aid ∈ aids, startAid ≤ aid ∧ aid ≤ endAid := by
  simp only [stationsBetween, Ne, List.filter_eq_nil_iff, decide_eq_true_eq, not_forall, not_not,
    exists_prop]

theorem hasRange_of_located (sorted : aids.Pairwise (· < ·)) (some : aids ≠ [])
    (located : Located aids cfg.startAid)
    (stations : stationsBetween aids cfg.startAid cfg.endAid ≠ []) :
    (updateAidIndexes cfg aids).HasRange aids := by
  obtain ⟨startAid, endAid⟩ := updateAidIndexes_aids cfg aids
  obtain ⟨startAidIdx, endAidIdx⟩ := updateAidIndexes_valid sorted some located
  obtain ⟨aid, member, _, small⟩ := stationsBetween_ne_nil_iff.mp stations
  obtain ⟨firstInside, least⟩ := isLeast_of_located sorted some located
  obtain ⟨lastInside, greatest⟩ := isGreatest_of_reached sorted ⟨aid, member, small⟩
  refine ⟨_, _, startAidIdx, endAidIdx, firstInside, lastInside, ?_, ?_⟩
  · rw [startAid]
    exact least
  · rw [endAid]
    exact greatest

theorem located_iff_of_empty (order : startAid ≤ endAid)
    (none : stationsBetween aids startAid endAid = []) :
    Located aids startAid ↔ ¬ ∃ aid ∈ aids, aid < startAid := by
  have outside (aid : BitVec 16) (member : aid ∈ aids) (after : startAid ≤ aid) :
      ¬ aid ≤ endAid := fun before =>
    stationsBetween_ne_nil_iff.mpr ⟨aid, member, after, before⟩ none
  constructor
  · rintro (member | above) ⟨aid, present, less⟩
    · exact outside startAid member (BitVec.le_refl _) order
    · exact BitVec.lt_irrefl _ (BitVec.lt_trans less (above aid present))
  · intro nothing
    refine .inr fun aid member => BitVec.not_le.mp fun small => ?_
    by_cases same : aid = startAid
    · subst same
      exact outside aid member (BitVec.le_refl _) order
    · exact nothing ⟨aid, member, BitVec.lt_of_le_ne small same⟩

theorem RawConfig.HasRange.not_isInvalid {cfg : RawConfig} (stored : cfg.HasRange aids) :
    ¬ cfg.IsInvalid := by
  obtain ⟨first, _, startAidIdx, _⟩ := stored
  intro invalid
  have negative := startAidIdx.symm.trans invalid.1
  rw [invalidAidIdxValue] at negative
  omega

/-- The indexes of a range are those of its stations exactly if the search serves
for both of its ends. -/
theorem updateAidIndexes_exact_iff (aids : List (BitVec 16)) (cfg : RawConfig) (list : AidList aids)
    (order : cfg.startAid ≤ cfg.endAid) :
    RangeExact aids (updateAidIndexes cfg aids) ↔ Findable aids cfg := by
  have sorted := list.sorted
  obtain ⟨startAid, endAid⟩ := updateAidIndexes_aids cfg aids
  have range : stationsBetween aids (updateAidIndexes cfg aids).startAid
      (updateAidIndexes cfg aids).endAid = stationsBetween aids cfg.startAid cfg.endAid := by
    rw [startAid, endAid]
  by_cases none : aids = []
  · subst none
    constructor
    · intro exact
      exact ⟨fun some => absurd rfl some, fun some => absurd rfl some,
        fun _ => exact.invalid.mpr rfl⟩
    · intro findable
      exact ⟨⟨fun _ => rfl, fun _ => findable.marked rfl⟩, fun some => absurd rfl some⟩
  by_cases stations : stationsBetween aids cfg.startAid cfg.endAid = []
  · have before := located_iff_of_empty order stations
    constructor
    · intro exact
      refine ⟨fun some => absurd stations some, fun _ _ => ?_, fun empty => absurd empty none⟩
      by_contra nothing
      obtain ⟨startAidIdx, _⟩ := updateAidIndexes_valid sorted none (before.mpr nothing)
      have negative := startAidIdx.symm.trans (exact.invalid.mpr (range.trans stations)).1
      rw [invalidAidIdxValue] at negative
      omega
    · intro findable
      have absent : ¬ Located aids cfg.startAid := fun located =>
        before.mp located (findable.after none stations)
      exact ⟨⟨fun _ => range.trans stations, fun _ => updateAidIndexes_invalid sorted none absent⟩,
        fun some => absurd (range.trans stations) some⟩
  · constructor
    · intro exact
      refine ⟨fun _ => ?_, fun _ empty => absurd empty stations, fun empty => absurd empty none⟩
      by_contra absent
      have empty := exact.invalid.mp (updateAidIndexes_invalid sorted none absent)
      exact stations (range ▸ empty)
    · intro findable
      have stored := hasRange_of_located sorted none (findable.located stations) stations
      exact ⟨⟨fun invalid => absurd invalid stored.not_isInvalid,
        fun empty => absurd (range ▸ empty) stations⟩, fun _ => stored⟩

/-- A configuration of a range of stations, as it is before the first update. -/
def ranged (startAid endAid : BitVec 16) : RawConfig :=
  { RawConfig.zeroed 1 with
    startAid := startAid
    endAid := endAid
    startAidIdx := invalidAidIdxValue
    endAidIdx := invalidAidIdxValue }

theorem updateAidIndexes_exact_iff_present :
    RangeExact [2, 4, 6] (updateAidIndexes (ranged 4 9) [2, 4, 6]) ↔
      Findable [2, 4, 6] (ranged 4 9) :=
  updateAidIndexes_exact_iff [2, 4, 6] (ranged 4 9) ⟨by decide, by decide⟩ (by decide)

/-- Stations 2 and 4 are associated.  A range from 3 to 5 has one of them, and is
marked invalid. -/
theorem not_updateAidIndexes_exact :
    ¬ ∀ (aids : List (BitVec 16)) (cfg : RawConfig), AidList aids → cfg.startAid ≤ cfg.endAid →
      RangeExact aids (updateAidIndexes cfg aids) := fun exact =>
  have marked : (updateAidIndexes (ranged 3 5) [2, 4]).IsInvalid := by decide
  have empty := (exact [2, 4] (ranged 3 5) ⟨by decide, by decide⟩ (by decide)).invalid.mp marked
  absurd empty (by decide)

end Raw
end Morse
