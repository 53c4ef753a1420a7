import Morse.Raw.Work
import Morse.Lib.Rounds
import Mathlib.Data.List.GetD

/-!
# The stations from beacon to beacon

A configuration that spreads its stations over beacons serves a few of them in
each, from the one after the last station served on, and starts again at the
end of its range.  Every round is fair.  Its length is as long as configured
exactly if the remainder of the division fits into the beacons.
-/

namespace Morse
namespace Raw

open Lib

/-! ## Sorted lists -/

/-- The identifiers of the associated stations, as the access point lists them. -/
structure AidList (aids : List (BitVec 16)) : Prop where
  sorted : aids.Pairwise (· < ·)
  numAids : aids.length < 2 ^ 16

/-- The associated stations of a range. -/
def stationsBetween (aids : List (BitVec 16)) (startAid endAid : BitVec 16) : List (BitVec 16) :=
  aids.filter fun aid => startAid ≤ aid ∧ aid ≤ endAid

/-- The number of the associated stations up to an identifier. -/
def stationsUpTo (aids : List (BitVec 16)) (aid : BitVec 16) : Nat :=
  aids.countP fun other => other ≤ aid

theorem getD_lt_getD {aids : List (BitVec 16)} (sorted : aids.Pairwise (· < ·))
    (before : first < second) (inside : second < aids.length) :
    aids.getD first 0 < aids.getD second 0 := by
  rw [List.getD_eq_getElem _ _ (Nat.lt_trans before inside), List.getD_eq_getElem _ _ inside]
  exact List.pairwise_iff_getElem.mp sorted first second _ inside before

theorem getD_le_getD_iff {aids : List (BitVec 16)} (sorted : aids.Pairwise (· < ·))
    (firstInside : first < aids.length) (secondInside : second < aids.length) :
    aids.getD first 0 ≤ aids.getD second 0 ↔ first ≤ second := by
  constructor
  · intro order
    by_contra later
    have strict := getD_lt_getD sorted (Nat.not_le.mp later) firstInside
    simp only [BitVec.lt_def, BitVec.le_def] at strict order
    omega
  · intro order
    rcases Nat.lt_or_eq_of_le order with before | rfl
    · exact BitVec.le_of_lt (getD_lt_getD sorted before secondInside)
    · exact BitVec.le_refl _

theorem filter_eq_take_drop {aids : List (BitVec 16)}
    (exact : ∀ idx < aids.length, keep (aids.getD idx 0) = true ↔ low ≤ idx ∧ idx < high) :
    aids.filter keep = (aids.drop low).take (high - low) := by
  induction aids generalizing low high with
  | nil => rw [List.filter_nil, List.drop_nil, List.take_nil]
  | cons aid rest ih =>
    have first := exact 0 (Nat.succ_pos _)
    have others (idx : Nat) (inside : idx < rest.length) :
        keep (rest.getD idx 0) = true ↔ low - 1 ≤ idx ∧ idx < high - 1 := by
      have next := exact (idx + 1) (Nat.succ_lt_succ inside)
      rw [List.getD_cons_succ] at next
      rw [next]
      omega
    have tail := ih others
    cases low with
    | zero =>
      cases high with
      | zero =>
        have skipped : ¬ keep aid = true := fun kept => absurd (first.mp kept).2 (by omega)
        rw [List.filter_cons_of_neg skipped, tail]
        rfl
      | succ high =>
        have kept : keep aid = true := first.mpr ⟨Nat.zero_le _, Nat.succ_pos _⟩
        rw [List.filter_cons_of_pos kept, tail]
        rfl
    | succ low =>
      have skipped : ¬ keep aid = true := fun kept => absurd (first.mp kept).1 (by omega)
      rw [List.filter_cons_of_neg skipped, tail]
      congr 1
      omega

theorem lt_countP_iff {aids : List (BitVec 16)} {early : BitVec 16 → Bool} {idx : Nat}
    (sorted : aids.Pairwise (· < ·))
    (inherits : ∀ aid other, aid < other → early other = true → early aid = true)
    (inside : idx < aids.length) :
    idx < aids.countP early ↔ early (aids.getD idx 0) = true := by
  induction aids generalizing idx with
  | nil => cases inside
  | cons first rest ih =>
    obtain ⟨least, tail⟩ := List.pairwise_cons.mp sorted
    by_cases counted : early first = true
    · rw [List.countP_cons_of_pos counted]
      cases idx with
      | zero => exact ⟨fun _ => counted, fun _ => Nat.succ_pos _⟩
      | succ idx =>
        rw [Nat.succ_lt_succ_iff]
        exact ih tail (Nat.lt_of_succ_lt_succ inside)
    · have late (other : BitVec 16) (member : other ∈ first :: rest) : ¬ early other = true := by
        rcases List.mem_cons.mp member with rfl | later
        · exact counted
        · exact fun holds => counted (inherits first other (least other later) holds)
      rw [List.countP_eq_zero.mpr late, List.getD_eq_getElem _ _ inside]
      exact ⟨fun impossible => absurd impossible (Nat.not_lt_zero _),
        fun holds => absurd holds (late _ (List.getElem_mem inside))⟩

theorem lt_stationsUpTo_iff (sorted : aids.Pairwise (· < ·)) (inside : idx < aids.length) :
    idx < stationsUpTo aids aid ↔ aids.getD idx 0 ≤ aid := by
  rw [stationsUpTo, lt_countP_iff sorted (fun smaller larger less small => ?_) inside,
    decide_eq_true_eq]
  rw [decide_eq_true_eq] at small ⊢
  exact BitVec.le_of_lt (Nat.lt_of_lt_of_le (BitVec.lt_def.mp less) (BitVec.le_def.mp small))

theorem stationsBetween_isInfix (sorted : aids.Pairwise (· < ·)) (startAid endAid : BitVec 16) :
    stationsBetween aids startAid endAid <:+: aids := by
  have exact (idx : Nat) (inside : idx < aids.length) :
      decide (startAid ≤ aids.getD idx 0 ∧ aids.getD idx 0 ≤ endAid) = true ↔
        aids.countP (fun other => other < startAid) ≤ idx ∧ idx < stationsUpTo aids endAid := by
    have before := @lt_countP_iff aids (fun other => other < startAid) idx sorted
      (fun smaller larger less small => by
        rw [decide_eq_true_eq] at small ⊢
        exact BitVec.lt_trans less small) inside
    rw [decide_eq_true_eq, lt_stationsUpTo_iff sorted inside, ← Nat.not_lt, before,
      decide_eq_true_eq, BitVec.not_lt]
  rw [stationsBetween, filter_eq_take_drop exact]
  exact (List.take_prefix _ _).isInfix.trans (List.drop_suffix _ _).isInfix

theorem stationsUpTo_le_length (aids : List (BitVec 16)) (aid : BitVec 16) :
    stationsUpTo aids aid ≤ aids.length :=
  List.countP_le_length

theorem stationsUpTo_eq (sorted : aids.Pairwise (· < ·)) (short : count ≤ aids.length)
    (before : ∀ idx < count, aids.getD idx 0 ≤ aid)
    (after : count < aids.length → aid < aids.getD count 0) :
    stationsUpTo aids aid = count := by
  refine Nat.le_antisymm (Nat.not_lt.mp fun more => ?_) (Nat.not_lt.mp fun less => ?_)
  · have inside := Nat.lt_of_lt_of_le more (stationsUpTo_le_length aids aid)
    have small := (lt_stationsUpTo_iff sorted inside).mp more
    have large := after inside
    simp only [BitVec.lt_def, BitVec.le_def] at small large
    omega
  · have inside := Nat.lt_of_lt_of_le less short
    have small := (lt_stationsUpTo_iff sorted inside).mpr (before _ less)
    exact absurd small (Nat.lt_irrefl _)

/-! ## The indexes of a configuration -/

/-- Where the search for an identifier ends: at the identifier, or beside it. -/
def Bracketed (aids : List (BitVec 16)) (aid : BitVec 16) (midIdx : Int) : Prop :=
  0 ≤ midIdx ∧ midIdx < aids.length ∧
    (aids.getD midIdx.toNat 0 < aid →
      ∀ idx, midIdx.toNat < idx → idx < aids.length → aid < aids.getD idx 0) ∧
    (aid < aids.getD midIdx.toNat 0 → ∀ idx < midIdx.toNat, aids.getD idx 0 < aid)

theorem bsearchLoop_bracketed
    {aids : List (BitVec 16)} {aid : BitVec 16} {fuel : Nat} {startIdx endIdx midIdx : Int}
    (sorted : aids.Pairwise (· < ·)) (enough : endIdx - startIdx < fuel) (lower : 0 ≤ startIdx)
    (upper : endIdx < aids.length)
    (below : ∀ idx : Nat, (idx : Int) < startIdx → aids.getD idx 0 < aid)
    (above : ∀ idx : Nat, endIdx < idx → idx < aids.length → aid < aids.getD idx 0)
    (ended : endIdx < startIdx → Bracketed aids aid midIdx ∧ aids.getD midIdx.toNat 0 ≠ aid) :
    ∃ found mid, bsearchLoop aids aid fuel startIdx endIdx midIdx = (found, mid) ∧
      Bracketed aids aid mid ∧ (found = true ↔ aids.getD mid.toNat 0 = aid) := by
  induction fuel generalizing startIdx endIdx midIdx with
  | zero =>
    obtain ⟨bracketed, differs⟩ := ended (by omega)
    exact ⟨false, midIdx, rfl, bracketed, (fun wrong => by cases wrong),
      fun same => absurd same differs⟩
  | succ fuel ih =>
    rw [bsearchLoop]
    split
    · next range =>
        dsimp only
        generalize exact : startIdx + (endIdx - startIdx) / 2 = mid
        have inside : mid.toNat < aids.length := by omega
        split
        · next same =>
            refine ⟨true, mid, rfl, ⟨by omega, by omega, ?_, ?_⟩, ⟨fun _ => same, fun _ => rfl⟩⟩
            · exact fun less => absurd (same ▸ less) (BitVec.lt_irrefl _)
            · exact fun less => absurd (same ▸ less) (BitVec.lt_irrefl _)
        · next differs =>
            split
            · next larger =>
                have rest (idx : Nat) (later : mid - 1 < idx) (short : idx < aids.length) :
                    aid < aids.getD idx 0 := by
                  have order := (getD_le_getD_iff sorted inside short).mpr (by omega)
                  exact Nat.lt_of_lt_of_le (BitVec.lt_def.mp larger) (BitVec.le_def.mp order)
                refine ih (by omega) lower (by omega) below rest fun empty =>
                  ⟨⟨by omega, by omega, ?_, ?_⟩, differs⟩
                · exact fun less => absurd (BitVec.lt_trans less larger) (BitVec.lt_irrefl _)
                · exact fun _ idx early => below idx (by omega)
            · next notLarger =>
                have smaller : aids.getD mid.toNat 0 < aid :=
                  BitVec.lt_of_le_ne (BitVec.not_lt.mp notLarger) differs
                have rest (idx : Nat) (early : (idx : Int) < mid + 1) :
                    aids.getD idx 0 < aid := by
                  have order := (getD_le_getD_iff sorted (by omega) inside).mpr
                    (by omega : idx ≤ mid.toNat)
                  exact Nat.lt_of_le_of_lt (BitVec.le_def.mp order) (BitVec.lt_def.mp smaller)
                refine ih (by omega) (by omega) upper rest above fun empty =>
                  ⟨⟨by omega, by omega, ?_, ?_⟩, differs⟩
                · exact fun _ idx later short => above idx (by omega) short
                · exact fun less => absurd (BitVec.lt_trans less smaller) (BitVec.lt_irrefl _)
    · next empty =>
        obtain ⟨bracketed, differs⟩ := ended (by omega)
        exact ⟨false, midIdx, rfl, bracketed, (fun wrong => by cases wrong),
          fun same => absurd same differs⟩

theorem bsearchAidIndexes_eq (sorted : aids.Pairwise (· < ·)) (some : aids ≠ []) (aid : BitVec 16) :
    bsearchAidIndexes aids aid = ((stationsUpTo aids aid - 1 : Nat) : Int) := by
  have positive := List.length_pos_of_ne_nil some
  have bound := stationsUpTo_le_length aids aid
  rw [bsearchAidIndexes]
  split
  · next single => omega
  · obtain ⟨found, mid, exact, ⟨lower, upper, after, before⟩, hit⟩ :=
      @bsearchLoop_bracketed aids aid aids.length 0 (aids.length - 1) 0 sorted
        (by omega : (aids.length : Int) - 1 - 0 < aids.length) (Int.le_refl 0) (by omega)
        (fun idx early => by omega) (fun idx later short => by omega) (fun empty => by omega)
    rw [exact]
    have inside : mid.toNat < aids.length := by omega
    have upTo (small : aids.getD mid.toNat 0 ≤ aid) (next : mid.toNat + 1 < aids.length →
        aid < aids.getD (mid.toNat + 1) 0) : stationsUpTo aids aid = mid.toNat + 1 := by
      refine stationsUpTo_eq sorted inside (fun idx early => ?_) next
      exact BitVec.le_trans ((getD_le_getD_iff sorted (by omega) inside).mpr (by omega)) small
    cases found with
    | true =>
      have same := hit.mp rfl
      have count := upTo (same ▸ BitVec.le_refl _) fun next => by
        have order := getD_lt_getD sorted (Nat.lt_succ_self mid.toNat) next
        rw [same] at order
        exact order
      dsimp only
      omega
    | false =>
      dsimp only
      split
      · next larger =>
          have count : stationsUpTo aids aid = mid.toNat :=
            stationsUpTo_eq sorted (Nat.le_of_lt inside)
              (fun idx early => BitVec.le_of_lt (before larger idx early)) fun _ => larger
          omega
      · next notLarger =>
          have differs : aids.getD mid.toNat 0 ≠ aid := fun same => by cases hit.mpr same
          have smaller := BitVec.lt_of_le_ne (BitVec.not_lt.mp notLarger) differs
          have count := upTo (BitVec.le_of_lt smaller) fun next =>
            after smaller _ (Nat.lt_succ_self _) next
          omega

/-! ## Beacons -/

/-- The configuration after some beacons with the same stations; `none` is a
division by zero. -/
def afterBeacons (aids : List (BitVec 16)) (config : RawConfig) : Nat → Option RawConfig
  | 0 => some config
  | beacon + 1 =>
    match afterBeacons aids config beacon with
    | none => none
    | some config => (generateAssignment aids config).map Prod.fst

/-- The stations that the assignment in a beacon names. -/
def beaconGroup (aids : List (BitVec 16)) (config : RawConfig) (beacon : Nat) :
    Option (List (BitVec 16)) :=
  match afterBeacons aids config beacon with
  | none => none
  | some config =>
    (generateAssignment aids config).map fun made =>
      stationsBetween aids made.2.startAid made.2.endAid

/-- A beacon serves a station. -/
def InGroup (aids : List (BitVec 16)) (config : RawConfig) (beacon : Nat) (aid : BitVec 16) :
    Prop :=
  ∃ group, beaconGroup aids config beacon = some group ∧ aid ∈ group

/-- The stations of the range of a configuration. -/
def RawConfig.stations (config : RawConfig) (aids : List (BitVec 16)) : List (BitVec 16) :=
  stationsBetween aids config.startAid config.endAid

/-- The group of a beacon begins where the range does. -/
def StartsCycle (aids : List (BitVec 16)) (config : RawConfig) (beacon : Nat) : Prop :=
  ∃ group aid, beaconGroup aids config beacon = some group ∧ group.head? = some aid ∧
    (config.stations aids).head? = some aid

/-- A cycle of beacons: their groups are disjoint and cover the range, and the
next beacon starts over. -/
structure Cycle (aids : List (BitVec 16)) (config : RawConfig) (first count : Nat) : Prop where
  positive : 0 < count
  disjoint : ∀ one other, first ≤ one → one < other → other < first + count →
    ∀ aid, InGroup aids config one aid → ¬ InGroup aids config other aid
  covers : ∀ aid ∈ config.stations aids, ∃ beacon, first ≤ beacon ∧ beacon < first + count ∧
    InGroup aids config beacon aid
  restarts : StartsCycle aids config (first + count)

/-- The beacons of a configuration serve its stations fairly, whichever station
was served last before them. -/
structure Fair (aids : List (BitVec 16)) (config : RawConfig) : Prop where
  contiguous : ∀ beacon, ∃ group, beaconGroup aids config beacon = some group ∧ group <:+: aids
  again : ∀ first second aid, first < second → InGroup aids config first aid →
    InGroup aids config second aid → ∀ other ∈ config.stations aids,
      ∃ beacon, first ≤ beacon ∧ beacon ≤ second ∧ InGroup aids config beacon other
  recurs : config.stations aids ≠ [] → ∀ beacon, ∃ later, beacon ≤ later ∧
    StartsCycle aids config later
  cycle : ∀ first, StartsCycle aids config first → ∃ count, Cycle aids config first count ∧
    (config.beaconSpreading.maxSpread ≠ 0 → count ≤ config.beaconSpreading.maxSpread.toNat)

/-! ## The turns of a spread configuration -/

/-- The number of beacons that the stations are divided by. -/
def beaconCount (spreading : BeaconSpreading) (numStas : Nat) : Nat :=
  let nominal := spreading.nominalStaPerBeacon.toNat
  let maxSpread := spreading.maxSpread.toNat
  if maxSpread ≠ 0 ∧ maxSpread < numStas / nominal then maxSpread
  else numStas / nominal + if numStas % nominal ≠ 0 then 1 else 0

theorem beaconCount_bounds (nominal : spreading.nominalStaPerBeacon ≠ 0) (populated : 0 < numStas) :
    0 < beaconCount spreading numStas ∧ beaconCount spreading numStas ≤ numStas := by
  have positive : 0 < spreading.nominalStaPerBeacon.toNat :=
    Nat.pos_of_ne_zero fun zero => nominal (BitVec.eq_of_toNat_eq zero)
  have quotient := Nat.div_le_self numStas spreading.nominalStaPerBeacon.toNat
  have split := Nat.div_add_mod numStas spreading.nominalStaPerBeacon.toNat
  rw [beaconCount]
  split
  · next spread => omega
  · by_cases exact : numStas % spreading.nominalStaPerBeacon.toNat = 0
    · rw [if_neg (not_not.mpr exact)]
      refine ⟨Nat.pos_of_ne_zero fun none => ?_, quotient⟩
      rw [Nat.add_zero] at none
      rw [none, exact] at split
      omega
    · have several : 1 < spreading.nominalStaPerBeacon.toNat := by
        refine Nat.lt_of_le_of_ne positive fun single => exact ?_
        rw [← single]
        exact Nat.mod_one _
      have less := Nat.div_lt_self populated several
      rw [if_pos exact]
      exact ⟨Nat.succ_pos _, less⟩

theorem staPerBeacon_eq (nominal : spreading.nominalStaPerBeacon ≠ 0) (populated : 0 < numStas) :
    staPerBeacon spreading numStas =
      some (numStas / beaconCount spreading numStas, numStas % beaconCount spreading numStas) := by
  have bounds := beaconCount_bounds nominal populated
  rw [staPerBeacon]
  rw [beaconCount] at bounds ⊢
  split
  · rfl
  · next moderate =>
      rw [if_neg moderate] at bounds
      rw [if_neg (Nat.ne_of_gt bounds.1)]

/-- The number of stations of a turn that starts at some offset of the range. -/
def groupSize (spreading : BeaconSpreading) (numStas offset : Nat) : Nat :=
  let perBeacon := numStas / beaconCount spreading numStas
  let perBeaconMod := numStas % beaconCount spreading numStas
  min (if offset / perBeacon < perBeaconMod then perBeacon + 1 else perBeacon) (numStas - offset)

theorem groupSize_bounds (nominal : spreading.nominalStaPerBeacon ≠ 0) (inside : offset < numStas) :
    0 < groupSize spreading numStas offset ∧
      groupSize spreading numStas offset ≤ numStas - offset := by
  have bounds := beaconCount_bounds nominal (Nat.lt_of_le_of_lt (Nat.zero_le _) inside)
  have positive := Nat.div_pos bounds.2 bounds.1
  rw [groupSize]
  split <;> omega

/-- How far the turns come, counted on from cycle to cycle. -/
def turns (spreading : BeaconSpreading) (numStas start : Nat) : Nat → Nat
  | 0 => start
  | turn + 1 =>
    let reached := turns spreading numStas start turn
    reached + groupSize spreading numStas (reached % numStas)

theorem rounds_turns (nominal : spreading.nominalStaPerBeacon ≠ 0) (populated : 0 < numStas)
    (start : Nat) :
    Rounds numStas (turns spreading numStas start) where
  positive := populated
  advances := fun turn => by
    have inside := Nat.mod_lt (turns spreading numStas start turn) populated
    exact Nat.lt_add_of_pos_right (groupSize_bounds nominal inside).1
  stays := fun turn => by
    have split := Nat.div_add_mod (turns spreading numStas start turn) numStas
    have inside := Nat.mod_lt (turns spreading numStas start turn) populated
    have size := (groupSize_bounds nominal inside).2
    rw [turns, Nat.succ_mul, Nat.mul_comm]
    omega

/-- A configuration whose range starts at an index and has some stations. -/
structure Spread (aids : List (BitVec 16)) (config : RawConfig) (startIdx numStas : Nat) :
    Prop where
  nominal : config.beaconSpreading.nominalStaPerBeacon ≠ 0
  startAidIdx : config.startAidIdx = startIdx
  endAidIdx : config.endAidIdx = ((startIdx + numStas - 1 : Nat) : Int)
  populated : 0 < numStas
  inside : startIdx + numStas ≤ aids.length

/-- The configuration with another station as the last one served. -/
def RawConfig.serveUpTo (config : RawConfig) (aid : BitVec 16) : RawConfig :=
  { config with beaconSpreading := { config.beaconSpreading with lastAid := aid } }

theorem currentStartIdx_bounds (aids : List (BitVec 16)) (lastAid : BitVec 16)
    (order : startIdx ≤ endIdx) :
    startIdx ≤ currentStartIdx aids lastAid startIdx endIdx ∧
      currentStartIdx aids lastAid startIdx endIdx ≤ endIdx := by
  rw [currentStartIdx]
  cases found : (List.range' startIdx (min (endIdx + 1) aids.length - startIdx)).find? fun idx =>
      lastAid < aids.getD idx 0 with
  | none => exact ⟨Nat.le_refl _, order⟩
  | some idx =>
    have member := List.mem_range'_1.mp (List.mem_of_find?_eq_some found)
    rw [Option.getD_some]
    omega

theorem currentStartIdx_getD (sorted : aids.Pairwise (· < ·)) (low : startIdx ≤ lastIdx)
    (high : lastIdx ≤ endIdx) (inside : endIdx < aids.length) :
    currentStartIdx aids (aids.getD lastIdx 0) startIdx endIdx =
      if lastIdx < endIdx then lastIdx + 1 else startIdx := by
  have later (idx : Nat) (short : idx < aids.length) :
      aids.getD lastIdx 0 < aids.getD idx 0 ↔ lastIdx < idx := by
    have order := getD_le_getD_iff sorted short (Nat.lt_of_le_of_lt high inside)
    rw [← Nat.not_le, ← order, BitVec.not_le]
  rw [currentStartIdx]
  split
  · next more =>
      have found : (List.range' startIdx (min (endIdx + 1) aids.length - startIdx)).find?
          (fun idx => aids.getD lastIdx 0 < aids.getD idx 0) = some (lastIdx + 1) := by
        rw [List.find?_range'_eq_some]
        refine ⟨decide_eq_true ((later _ (by omega)).mpr (Nat.lt_succ_self _)), ?_, ?_⟩
        · rw [List.mem_range'_1]
          omega
        · intro idx _ early
          rw [Bool.not_eq_true', decide_eq_false_iff_not, later _ (by omega)]
          omega
      rw [found, Option.getD_some]
  · next last =>
      have found : (List.range' startIdx (min (endIdx + 1) aids.length - startIdx)).find?
          (fun idx => aids.getD lastIdx 0 < aids.getD idx 0) = none := by
        rw [List.find?_range'_eq_none]
        intro idx above below
        rw [Bool.not_eq_true', decide_eq_false_iff_not, later _ (by omega)]
        omega
      rw [found, Option.getD_none]

namespace Spread

variable {aids : List (BitVec 16)} {config : RawConfig} {startIdx numStas : Nat}

theorem serveUpTo (spread : Spread aids config startIdx numStas) (aid : BitVec 16) :
    Spread aids (config.serveUpTo aid) startIdx numStas :=
  ⟨spread.nominal, spread.startAidIdx, spread.endAidIdx, spread.populated, spread.inside⟩

theorem rounds (spread : Spread aids config startIdx numStas) (offset : Nat) :
    Rounds numStas (turns config.beaconSpreading numStas offset) :=
  rounds_turns spread.nominal spread.populated offset

theorem generateAssignment_eq (spread : Spread aids config startIdx numStas) (list : AidList aids)
    (starts : currentStartIdx aids config.beaconSpreading.lastAid startIdx
      (startIdx + numStas - 1) = startIdx + offset)
    (inside : offset < numStas) :
    let stop := startIdx + offset + groupSize config.beaconSpreading numStas offset - 1
    generateAssignment aids config =
      some (config.serveUpTo (aids.getD stop 0),
        ⟨config.id, aids.getD (startIdx + offset) 0, aids.getD stop 0⟩) := by
  have populated := spread.populated
  have short := list.numAids
  have within := spread.inside
  have bounds := beaconCount_bounds spread.nominal populated
  have positive := Nat.div_pos bounds.2 bounds.1
  have count : (BitVec.ofInt 16 (config.endAidIdx - config.startAidIdx + 1)).toNat = numStas := by
    have difference : config.endAidIdx - config.startAidIdx + 1 = (numStas : Int) := by
      rw [spread.startAidIdx, spread.endAidIdx]
      omega
    rw [difference, BitVec.ofInt_natCast, BitVec.toNat_ofNat, Nat.mod_eq_of_lt (by omega)]
  have startNat : config.startAidIdx.toNat = startIdx := by
    rw [spread.startAidIdx, Int.toNat_natCast]
  have endNat : config.endAidIdx.toNat = startIdx + numStas - 1 := by
    rw [spread.endAidIdx, Int.toNat_natCast]
  have valid : config.beaconSpreading.nominalStaPerBeacon ≠ 0 ∧ 0 ≤ config.startAidIdx ∧
      0 ≤ config.endAidIdx := by
    refine ⟨spread.nominal, ?_, ?_⟩
    · rw [spread.startAidIdx]
      exact Int.natCast_nonneg _
    · rw [spread.endAidIdx]
      exact Int.natCast_nonneg _
  have stop (perBeacon : Nat) (many : 0 < perBeacon) :
      currentEndIdx aids.length (startIdx + offset) perBeacon (startIdx + numStas - 1) =
        startIdx + offset + min perBeacon (numStas - offset) - 1 := by
    rw [currentEndIdx]
    omega
  rw [generateAssignment]
  dsimp only
  rw [if_pos valid, count, startNat, endNat, staPerBeacon_eq spread.nominal populated]
  dsimp only
  rw [starts, Nat.add_sub_cancel_left, stop _ (by split <;> omega)]
  rfl

theorem afterBeacons_eq (spread : Spread aids config startIdx numStas) (list : AidList aids)
    (starts : currentStartIdx aids config.beaconSpreading.lastAid startIdx
      (startIdx + numStas - 1) = startIdx + offset)
    (inside : offset < numStas) (beacon : Nat) :
    ∃ last, afterBeacons aids config beacon = some (config.serveUpTo last) ∧
      currentStartIdx aids last startIdx (startIdx + numStas - 1) =
        startIdx + turns config.beaconSpreading numStas offset beacon % numStas := by
  have populated := spread.populated
  have within := spread.inside
  induction beacon with
  | zero =>
    refine ⟨config.beaconSpreading.lastAid, rfl, ?_⟩
    rw [turns, Nat.mod_eq_of_lt inside]
    exact starts
  | succ beacon ih =>
    obtain ⟨last, exact, next⟩ := ih
    rw [turns]
    generalize turns config.beaconSpreading numStas offset beacon = reached at next ⊢
    have small := Nat.mod_lt reached populated
    have split := Nat.div_add_mod reached numStas
    have made := (spread.serveUpTo last).generateAssignment_eq list next small
    have size : 0 < groupSize (config.serveUpTo last).beaconSpreading numStas
          (reached % numStas) ∧
        groupSize (config.serveUpTo last).beaconSpreading numStas (reached % numStas) ≤
          numStas - reached % numStas :=
      groupSize_bounds spread.nominal small
    rw [afterBeacons, exact]
    dsimp only
    rw [made]
    refine ⟨_, rfl, ?_⟩
    have same : groupSize (config.serveUpTo last).beaconSpreading numStas (reached % numStas) =
      groupSize config.beaconSpreading numStas (reached % numStas) := rfl
    rw [same] at size ⊢
    generalize groupSize config.beaconSpreading numStas (reached % numStas) = served at size ⊢
    rw [currentStartIdx_getD list.sorted (by omega) (by omega) (by omega)]
    by_cases full : served = numStas - reached % numStas
    · have aligned : reached + served = numStas * (reached / numStas + 1) := by
        rw [Nat.mul_succ]
        omega
      rw [if_neg (by omega), aligned, Nat.mul_mod_right]
      rfl
    · have partway : (reached + served) % numStas = reached % numStas + served := by
        rw [Nat.add_mod, Nat.mod_eq_of_lt (by omega : served < numStas),
          Nat.mod_eq_of_lt (by omega)]
      rw [if_pos (by omega)]
      omega

theorem beaconGroup_eq (spread : Spread aids config startIdx numStas) (list : AidList aids)
    (starts : currentStartIdx aids config.beaconSpreading.lastAid startIdx
      (startIdx + numStas - 1) = startIdx + offset)
    (inside : offset < numStas) (beacon : Nat) :
    let reached := turns config.beaconSpreading numStas offset beacon
    beaconGroup aids config beacon =
      some ((aids.drop (startIdx + reached % numStas)).take
        (groupSize config.beaconSpreading numStas (reached % numStas))) := by
  obtain ⟨last, exact, next⟩ := spread.afterBeacons_eq list starts inside beacon
  generalize turns config.beaconSpreading numStas offset beacon = reached at next ⊢
  have within := spread.inside
  have small := Nat.mod_lt reached spread.populated
  have size := groupSize_bounds spread.nominal small
  have made := (spread.serveUpTo last).generateAssignment_eq list next small
  have same : groupSize (config.serveUpTo last).beaconSpreading numStas (reached % numStas) =
    groupSize config.beaconSpreading numStas (reached % numStas) := rfl
  rw [beaconGroup, exact]
  dsimp only
  rw [made, Option.map_some, same]
  generalize groupSize config.beaconSpreading numStas (reached % numStas) = served at size ⊢
  have exactly (idx : Nat) (short : idx < aids.length) :
      decide (aids.getD (startIdx + reached % numStas) 0 ≤ aids.getD idx 0 ∧ aids.getD idx 0 ≤
        aids.getD (startIdx + reached % numStas + served - 1) 0) = true ↔
      startIdx + reached % numStas ≤ idx ∧ idx < startIdx + reached % numStas + served := by
    rw [decide_eq_true_eq, getD_le_getD_iff list.sorted (by omega) short,
      getD_le_getD_iff list.sorted short (by omega)]
    omega
  rw [stationsBetween, filter_eq_take_drop exactly, Nat.add_sub_cancel_left]

theorem inGroup_iff (spread : Spread aids config startIdx numStas) (list : AidList aids)
    (starts : currentStartIdx aids config.beaconSpreading.lastAid startIdx
      (startIdx + numStas - 1) = startIdx + offset)
    (inside : offset < numStas) (beacon : Nat) (aid : BitVec 16) :
    InGroup aids config beacon aid ↔
      ∃ place, Serves numStas (turns config.beaconSpreading numStas offset) beacon place ∧
        aids[startIdx + place]? = some aid := by
  have exact := spread.beaconGroup_eq list starts inside beacon
  have populated := spread.populated
  have step : turns config.beaconSpreading numStas offset (beacon + 1) =
      turns config.beaconSpreading numStas offset beacon + groupSize config.beaconSpreading numStas
        (turns config.beaconSpreading numStas offset beacon % numStas) := rfl
  have small := Nat.mod_lt (turns config.beaconSpreading numStas offset beacon) populated
  have size := groupSize_bounds spread.nominal small
  simp only [InGroup, Serves, exact, Option.some.injEq, exists_eq_left', step]
  generalize turns config.beaconSpreading numStas offset beacon = reached at *
  rw [List.mem_iff_getElem?]
  constructor
  · rintro ⟨idx, found⟩
    rw [List.getElem?_take] at found
    split at found
    · next early =>
        rw [List.getElem?_drop, Nat.add_assoc] at found
        refine ⟨reached % numStas + idx, ⟨reached + idx, by omega, by omega, ?_⟩, found⟩
        rw [Nat.add_mod, Nat.mod_eq_of_lt (by omega : idx < numStas), Nat.mod_eq_of_lt (by omega)]
    · cases found
  · rintro ⟨place, ⟨position, low, high, rfl⟩, found⟩
    obtain ⟨idx, rfl⟩ := Nat.exists_eq_add_of_le low
    have partway : (reached + idx) % numStas = reached % numStas + idx := by
      rw [Nat.add_mod, Nat.mod_eq_of_lt (by omega : idx < numStas), Nat.mod_eq_of_lt (by omega)]
    refine ⟨idx, ?_⟩
    rw [partway, ← Nat.add_assoc] at found
    rw [List.getElem?_take, if_pos (by omega), List.getElem?_drop]
    exact found

theorem contiguous (spread : Spread aids config startIdx numStas) (list : AidList aids)
    (starts : currentStartIdx aids config.beaconSpreading.lastAid startIdx
      (startIdx + numStas - 1) = startIdx + offset)
    (inside : offset < numStas) (beacon : Nat) :
    ∃ group, beaconGroup aids config beacon = some group ∧ group <:+: aids :=
  ⟨_, spread.beaconGroup_eq list starts inside beacon,
    (List.take_prefix _ _).isInfix.trans (List.drop_suffix _ _).isInfix⟩

theorem startsCycle_iff (spread : Spread aids config startIdx numStas) (list : AidList aids)
    (stations : config.stations aids = (aids.drop startIdx).take numStas)
    (starts : currentStartIdx aids config.beaconSpreading.lastAid startIdx
      (startIdx + numStas - 1) = startIdx + offset)
    (inside : offset < numStas) (beacon : Nat) :
    StartsCycle aids config beacon ↔
      turns config.beaconSpreading numStas offset beacon % numStas = 0 := by
  have exact := spread.beaconGroup_eq list starts inside beacon
  have populated := spread.populated
  have within := spread.inside
  have small := Nat.mod_lt (turns config.beaconSpreading numStas offset beacon) populated
  have size := groupSize_bounds spread.nominal small
  have distinct : aids.Nodup := list.sorted.imp BitVec.ne_of_lt
  constructor
  · rintro ⟨group, aid, served, head, first⟩
    rw [exact] at served
    cases served
    rw [List.head?_take, if_neg (Nat.ne_of_gt size.1), List.head?_drop] at head
    rw [stations, List.head?_take, if_neg (Nat.ne_of_gt populated), List.head?_drop] at first
    have same := (List.getElem?_inj (by omega) distinct).mp (head.trans first.symm)
    omega
  · intro aligned
    refine ⟨_, aids[startIdx], exact, ?_, ?_⟩
    · rw [List.head?_take, if_neg (Nat.ne_of_gt size.1), List.head?_drop, aligned]
      exact List.getElem?_eq_getElem _
    · rw [stations, List.head?_take, if_neg (Nat.ne_of_gt populated), List.head?_drop]
      exact List.getElem?_eq_getElem _

end Spread

/-! ## The length of a cycle -/

/-- How far the turns of a cycle come, the first of which serve one station of
the remainder each. -/
def cyclePlan (perBeacon perBeaconMod turn : Nat) : Nat :=
  turn * perBeacon + min turn (perBeaconMod - perBeaconMod / (perBeacon + 1))

theorem cyclePlan_zero (perBeacon perBeaconMod : Nat) : cyclePlan perBeacon perBeaconMod 0 = 0 := by
  rw [cyclePlan, Nat.zero_mul, Nat.zero_min]

theorem cyclePlan_mono (perBeacon perBeaconMod : Nat) :
    Monotone (cyclePlan perBeacon perBeaconMod) := by
  refine monotone_nat_of_le_succ fun turn => ?_
  rw [cyclePlan, cyclePlan, Nat.succ_mul]
  omega

theorem cyclePlan_div_lt_iff (perBeaconMod turn : Nat) (positive : 0 < perBeacon) :
    cyclePlan perBeacon perBeaconMod turn / perBeacon < perBeaconMod ↔
      turn < perBeaconMod - perBeaconMod / (perBeacon + 1) := by
  have split := Nat.div_add_mod perBeaconMod (perBeacon + 1)
  have small := Nat.mod_lt perBeaconMod (Nat.succ_pos perBeacon)
  rw [Nat.div_lt_iff_lt_mul positive, cyclePlan]
  generalize perBeaconMod / (perBeacon + 1) = quotient at *
  generalize perBeaconMod % (perBeacon + 1) = rest at *
  have extra : perBeaconMod - quotient = perBeacon * quotient + rest := by
    rw [← split, Nat.succ_mul]
    omega
  have product : perBeaconMod * perBeacon + rest =
      (perBeacon * quotient + rest) * (perBeacon + 1) := by
    rw [← split]
    ring
  rw [extra]
  constructor
  · intro less
    by_contra late
    have order := Nat.mul_le_mul_right perBeacon (Nat.not_lt.mp late)
    rw [Nat.mul_succ] at product
    omega
  · intro early
    have order := Nat.mul_le_mul_right (perBeacon + 1) (Nat.succ_le_of_lt early)
    rw [Nat.succ_mul, Nat.mul_succ] at order
    omega

theorem le_cyclePlan_iff (count : Nat) (positive : 0 < beacons) (few : beacons ≤ numStas) :
    numStas ≤ cyclePlan (numStas / beacons) (numStas % beacons) count ↔
      beacons ≤ count ∧
        numStas % beacons / (numStas / beacons + 1) ≤ (count - beacons) * (numStas / beacons) := by
  have split := Nat.div_add_mod numStas beacons
  have small := Nat.mod_lt numStas positive
  have several := Nat.div_pos few positive
  have less := Nat.div_le_self (numStas % beacons) (numStas / beacons + 1)
  rw [cyclePlan]
  generalize numStas % beacons / (numStas / beacons + 1) = late at *
  generalize numStas / beacons = perBeacon at *
  rcases Nat.lt_or_ge count beacons with short | enough
  · have order := Nat.mul_le_mul_right perBeacon (Nat.succ_le_of_lt short)
    rw [Nat.succ_mul] at order
    omega
  · obtain ⟨others, rfl⟩ := Nat.exists_eq_add_of_le enough
    rw [Nat.add_sub_cancel_left, Nat.add_mul]
    omega

namespace Spread

variable {aids : List (BitVec 16)} {config : RawConfig} {startIdx numStas offset : Nat}

theorem turns_follow (spread : Spread aids config startIdx numStas)
    (aligned : turns config.beaconSpreading numStas offset first % numStas = 0) (turn : Nat)
    (short : cyclePlan (numStas / beaconCount config.beaconSpreading numStas)
      (numStas % beaconCount config.beaconSpreading numStas) turn < numStas)
    (reached : turns config.beaconSpreading numStas offset (first + turn) =
      turns config.beaconSpreading numStas offset first +
        cyclePlan (numStas / beaconCount config.beaconSpreading numStas)
          (numStas % beaconCount config.beaconSpreading numStas) turn) :
    turns config.beaconSpreading numStas offset (first + turn + 1) =
      turns config.beaconSpreading numStas offset first +
        min numStas (cyclePlan (numStas / beaconCount config.beaconSpreading numStas)
          (numStas % beaconCount config.beaconSpreading numStas) (turn + 1)) := by
  have bounds := beaconCount_bounds spread.nominal spread.populated
  have positive := Nat.div_pos bounds.2 bounds.1
  have early := cyclePlan_div_lt_iff (numStas % beaconCount config.beaconSpreading numStas) turn
    positive
  have place : (turns config.beaconSpreading numStas offset first +
      cyclePlan (numStas / beaconCount config.beaconSpreading numStas)
        (numStas % beaconCount config.beaconSpreading numStas) turn) % numStas =
      cyclePlan (numStas / beaconCount config.beaconSpreading numStas)
        (numStas % beaconCount config.beaconSpreading numStas) turn := by
    rw [Nat.add_mod, aligned, Nat.zero_add, Nat.mod_mod, Nat.mod_eq_of_lt short]
  rw [turns, reached, place, groupSize]
  simp only [early]
  rw [cyclePlan] at short ⊢
  rw [cyclePlan, Nat.succ_mul]
  split <;> omega

theorem mem_stations_iff (stations : config.stations aids = (aids.drop startIdx).take numStas)
    (aid : BitVec 16) :
    aid ∈ config.stations aids ↔
      ∃ place < numStas, aids[startIdx + place]? = some aid := by
  rw [stations, List.mem_iff_getElem?]
  simp only [List.getElem?_take, List.getElem?_drop]
  constructor
  · rintro ⟨place, found⟩
    split at found
    · next inside => exact ⟨place, inside, found⟩
    · cases found
  · rintro ⟨place, inside, found⟩
    exact ⟨place, by rw [if_pos inside]; exact found⟩

theorem place_inj (list : AidList aids) (found : aids[startIdx + place]? = some aid)
    (again : aids[startIdx + other]? = some aid) :
    place = other := by
  have distinct : aids.Nodup := list.sorted.imp BitVec.ne_of_lt
  have inside := (List.getElem?_eq_some_iff.mp found).1
  have same := (List.getElem?_inj inside distinct).mp (found.trans again.symm)
  exact Nat.add_left_cancel same

theorem fair_iff (spread : Spread aids config startIdx numStas) (list : AidList aids)
    (stations : config.stations aids = (aids.drop startIdx).take numStas) :
    Fair aids config ↔
      (config.beaconSpreading.maxSpread ≠ 0 →
        numStas ≤ cyclePlan (numStas / beaconCount config.beaconSpreading numStas)
          (numStas % beaconCount config.beaconSpreading numStas)
          config.beaconSpreading.maxSpread.toNat) := by
  have populated := spread.populated
  have within := spread.inside
  obtain ⟨low, high⟩ := currentStartIdx_bounds aids config.beaconSpreading.lastAid
    (by omega : startIdx ≤ startIdx + numStas - 1)
  obtain ⟨offset, starts⟩ := Nat.exists_eq_add_of_le low
  have inside : offset < numStas := by omega
  have rounds := spread.rounds offset
  have inGroup := spread.inGroup_iff list starts inside
  have startsCycle := spread.startsCycle_iff list stations starts inside
  have members := mem_stations_iff stations
  have planned (first : Nat)
      (aligned : turns config.beaconSpreading numStas offset first % numStas = 0) :=
    rounds.length_le_plan_iff (cyclePlan_zero _ _) (cyclePlan_mono _ _)
      (spread.turns_follow aligned) config.beaconSpreading.maxSpread.toNat
  constructor
  · intro fair limited
    have head : aids[startIdx]? = some aids[startIdx] := List.getElem?_eq_getElem _
    have some : config.stations aids ≠ [] :=
      List.ne_nil_of_mem ((members _).mpr ⟨0, populated, head⟩)
    obtain ⟨first, -, starting⟩ := fair.recurs some 0
    obtain ⟨count, cycle, most⟩ := fair.cycle first starting
    have aligned := (startsCycle first).mp starting
    have last : aids[startIdx + (numStas - 1)]? = Option.some aids[startIdx + (numStas - 1)] :=
      List.getElem?_eq_getElem _
    obtain ⟨beacon, after, before, served⟩ :=
      cycle.covers _ ((members _).mpr ⟨numStas - 1, by omega, last⟩)
    obtain ⟨place, ⟨position, start, stop, exact⟩, found⟩ := (inGroup beacon _).mp served
    have same := place_inj list found last
    have order := rounds.reached_le after
    have reached := rounds.reached_le (by have bound := most limited; omega :
      beacon + 1 ≤ first + config.beaconSpreading.maxSpread.toNat)
    refine (planned first aligned).mp ?_
    have split := Nat.div_add_mod position numStas
    have firstSplit := Nat.div_add_mod (turns config.beaconSpreading numStas offset first) numStas
    have laps := Nat.mul_le_mul_left numStas
      (Nat.div_le_div_right (c := numStas) (Nat.le_trans order start))
    omega
  · intro plan
    refine ⟨spread.contiguous list starts inside, ?_, ?_, ?_⟩
    · intro first second aid before served again other member
      obtain ⟨place, serves, found⟩ := (inGroup first aid).mp served
      obtain ⟨next, servesAgain, foundAgain⟩ := (inGroup second aid).mp again
      obtain ⟨place', small, held⟩ := (members other).mp member
      cases place_inj list found foundAgain
      obtain ⟨beacon, after, early, covers⟩ :=
        rounds.serves_between before serves servesAgain small
      exact ⟨beacon, after, early, (inGroup beacon other).mpr ⟨place', covers, held⟩⟩
    · intro _ beacon
      obtain ⟨later, after, aligned⟩ := rounds.exists_aligned beacon
      exact ⟨later, after, (startsCycle later).mpr aligned⟩
    · intro first starting
      have aligned := (startsCycle first).mp starting
      obtain ⟨count, positive, round⟩ := rounds.exists_round aligned
      refine ⟨count, ⟨positive, ?_, ?_, ?_⟩, fun limited => ?_⟩
      · intro one other after before short aid served again
        obtain ⟨place, serves, found⟩ := (inGroup one aid).mp served
        obtain ⟨next, servesAgain, foundAgain⟩ := (inGroup other aid).mp again
        cases place_inj list found foundAgain
        exact rounds.not_serves_of_round round after before short serves servesAgain
      · intro aid member
        obtain ⟨place, small, held⟩ := (members aid).mp member
        obtain ⟨beacon, after, before, covers⟩ :=
          rounds.serves_of_length_le (Nat.le_of_eq round.symm) small
        exact ⟨beacon, after, before, (inGroup beacon aid).mpr ⟨place, covers, held⟩⟩
      · rw [startsCycle, round, Nat.add_mod_right]
        exact aligned
      · have enough := (planned first aligned).mpr (plan limited)
        by_contra long
        have strict := rounds.add_le_reached (first + config.beaconSpreading.maxSpread.toNat)
          (count - config.beaconSpreading.maxSpread.toNat)
        have joined : first + config.beaconSpreading.maxSpread.toNat +
            (count - config.beaconSpreading.maxSpread.toNat) = first + count := by omega
        rw [joined] at strict
        omega

end Spread

/-! ## Configurations as the update work leaves them -/

/-- The search finds where the range starts: at a station, or before all. -/
def Located (aids : List (BitVec 16)) (startAid : BitVec 16) : Prop :=
  startAid ∈ aids ∨ ∀ aid ∈ aids, startAid < aid

/-- The condition of a fair service.  The range is not one that ends just before
it starts, which has the number of its stations come out as zero; and the
stations, divided by the number of beacons, leave a remainder that fits into the
maximum. -/
def SpreadsEvenly (aids : List (BitVec 16)) (config : RawConfig) : Prop :=
  (config.startAid ∈ aids →
    stationsUpTo aids config.startAid ≠ max (stationsUpTo aids config.endAid) 1 + 1) ∧
  (config.beaconSpreading.maxSpread ≠ 0 → Located aids config.startAid →
    let numStas := (config.stations aids).length
    let beacons := beaconCount config.beaconSpreading numStas
    beacons ≤ config.beaconSpreading.maxSpread.toNat ∧
      numStas % beacons / (numStas / beacons + 1) ≤
        (config.beaconSpreading.maxSpread.toNat - beacons) * (numStas / beacons))

theorem beaconCount_zero (spreading : BeaconSpreading) : beaconCount spreading 0 = 0 := by
  rw [beaconCount, Nat.zero_div, if_neg (fun spread => Nat.not_lt_zero _ spread.2)]
  rfl

theorem spreadsEvenly_of_stations_eq_nil (none : config.stations aids = [])
    (ends : config.startAid ∈ aids →
      stationsUpTo aids config.startAid ≠ max (stationsUpTo aids config.endAid) 1 + 1) :
    SpreadsEvenly aids config := by
  refine ⟨ends, fun _ _ => ?_⟩
  dsimp only
  rw [none, List.length_nil, beaconCount_zero, Nat.zero_mod]
  exact ⟨Nat.zero_le _, Nat.zero_le _⟩

theorem fair_of_stations_eq_nil (none : config.stations aids = [])
    (contiguous : ∀ beacon, ∃ group, beaconGroup aids config beacon = some group ∧
      group <:+: aids) :
    Fair aids config where
  contiguous := contiguous
  again := fun _ _ _ _ _ _ other member => by
    rw [none] at member
    cases member
  recurs := fun some => absurd none some
  cycle := fun first ⟨_, _, _, _, found⟩ => by
    rw [none] at found
    cases found

theorem fair_of_invalid (list : AidList aids) (invalid : config.startAidIdx < 0) :
    Fair aids config := by
  have made (last : BitVec 16) : generateAssignment aids (config.serveUpTo last) =
      some (config.serveUpTo config.endAid, ⟨config.id, config.startAid, config.endAid⟩) :=
    if_neg fun valid => absurd (valid.2.1 : 0 ≤ config.startAidIdx) (Int.not_le.mpr invalid)
  have after (beacon : Nat) :
      ∃ last, afterBeacons aids config beacon = some (config.serveUpTo last) := by
    induction beacon with
    | zero => exact ⟨config.beaconSpreading.lastAid, rfl⟩
    | succ beacon ih =>
      obtain ⟨last, exact⟩ := ih
      rw [afterBeacons, exact]
      dsimp only
      rw [made]
      exact ⟨config.endAid, rfl⟩
  have group (beacon : Nat) : beaconGroup aids config beacon = some (config.stations aids) := by
    obtain ⟨last, exact⟩ := after beacon
    rw [beaconGroup, exact]
    dsimp only
    rw [made]
    rfl
  have served (beacon : Nat) (aid : BitVec 16) (member : aid ∈ config.stations aids) :
      InGroup aids config beacon aid :=
    ⟨_, group beacon, member⟩
  refine ⟨fun beacon => ⟨_, group beacon, stationsBetween_isInfix list.sorted _ _⟩,
    fun first second aid before _ _ other member =>
      ⟨first, Nat.le_refl _, Nat.le_of_lt before, served first other member⟩,
    fun some beacon => ⟨beacon, Nat.le_refl _, ?_⟩,
    fun first starting => ⟨1, ⟨Nat.one_pos, ?_, ?_, ?_⟩, ?_⟩⟩
  · obtain ⟨aid, head⟩ := Option.isSome_iff_exists.mp (List.isSome_head?.mpr some)
    exact ⟨_, aid, group beacon, head, head⟩
  · omega
  · exact fun aid member => ⟨first, Nat.le_refl _, Nat.lt_succ_self _, served first aid member⟩
  · obtain ⟨_, aid, _, _, head⟩ := starting
    exact ⟨_, aid, group _, head, head⟩
  · intro limited
    exact Nat.pos_of_ne_zero fun zero => limited (BitVec.eq_of_toNat_eq zero)

theorem refreshIndexes_fields (config : RawConfig) (aids : List (BitVec 16)) :
    (config.refreshIndexes aids).startAid = config.startAid ∧
      (config.refreshIndexes aids).endAid = config.endAid ∧
      (config.refreshIndexes aids).beaconSpreading = config.beaconSpreading := by
  rw [RawConfig.refreshIndexes]
  split
  · rw [updateAidIndexes]
    split
    · exact ⟨rfl, rfl, rfl⟩
    · dsimp only
      split <;> exact ⟨rfl, rfl, rfl⟩
  · exact ⟨rfl, rfl, rfl⟩

theorem located_iff (sorted : aids.Pairwise (· < ·)) (some : aids ≠ []) :
    Located aids startAid ↔ ¬ aids.getD (stationsUpTo aids startAid - 1) 0 < startAid := by
  have positive := List.length_pos_of_ne_nil some
  have bound := stationsUpTo_le_length aids startAid
  have inside : stationsUpTo aids startAid - 1 < aids.length := by omega
  have value := List.getD_eq_getElem aids 0 inside
  constructor
  · rintro (member | above) less
    · obtain ⟨idx, short, rfl⟩ := List.mem_iff_getElem.mp member
      rw [← List.getD_eq_getElem _ 0 short] at less inside bound
      have counted : idx < stationsUpTo aids (aids.getD idx 0) :=
        (lt_stationsUpTo_iff sorted short).mpr (BitVec.le_refl _)
      have order : aids.getD idx 0 ≤ aids.getD (stationsUpTo aids (aids.getD idx 0) - 1) 0 :=
        (getD_le_getD_iff sorted short inside).mpr (by omega)
      exact BitVec.not_lt.mpr order less
    · have far := above _ (List.getElem_mem inside)
      rw [← value] at far
      exact BitVec.lt_irrefl _ (BitVec.lt_trans less far)
  · intro notLess
    rcases Nat.eq_zero_or_pos (stationsUpTo aids startAid) with none | counted
    · refine .inr fun aid member => ?_
      have large := List.countP_eq_zero.mp none aid member
      rw [decide_eq_true_eq, BitVec.not_le] at large
      exact large
    · have small := (lt_stationsUpTo_iff sorted inside).mp
        (by omega : stationsUpTo aids startAid - 1 < stationsUpTo aids startAid)
      have same := BitVec.le_antisymm small (BitVec.not_lt.mp notLess)
      exact .inl (same ▸ value ▸ List.getElem_mem inside)

theorem refreshIndexes_invalid {config : RawConfig}
    (nominal : config.beaconSpreading.nominalStaPerBeacon ≠ 0) (sorted : aids.Pairwise (· < ·))
    (absent : aids = [] ∨ ¬ Located aids config.startAid) :
    (config.refreshIndexes aids).startAidIdx < 0 := by
  rw [RawConfig.refreshIndexes, if_pos nominal, updateAidIndexes]
  have negative : invalidAidIdxValue < 0 := by decide
  split
  · exact negative
  · next some =>
      have below := not_not.mp (mt (located_iff sorted some).mpr (absent.resolve_left some))
      dsimp only
      rw [bsearchAidIndexes_eq sorted some, Int.toNat_natCast, if_pos below]
      exact negative

theorem refreshIndexes_valid {config : RawConfig}
    (nominal : config.beaconSpreading.nominalStaPerBeacon ≠ 0) (sorted : aids.Pairwise (· < ·))
    (some : aids ≠ []) (located : Located aids config.startAid) :
    (config.refreshIndexes aids).startAidIdx =
        ((stationsUpTo aids config.startAid - 1 : Nat) : Int) ∧
      (config.refreshIndexes aids).endAidIdx =
        ((stationsUpTo aids config.endAid - 1 : Nat) : Int) := by
  have above := (located_iff sorted some).mp located
  rw [RawConfig.refreshIndexes, if_pos nominal, updateAidIndexes, if_neg some]
  dsimp only
  rw [bsearchAidIndexes_eq sorted some, bsearchAidIndexes_eq sorted some, Int.toNat_natCast,
    if_neg above]
  exact ⟨rfl, rfl⟩

theorem stationsBetween_eq (sorted : aids.Pairwise (· < ·)) (some : aids ≠ [])
    (located : Located aids startAid) (endAid : BitVec 16) :
    stationsBetween aids startAid endAid =
      (aids.drop (stationsUpTo aids startAid - 1)).take
        (stationsUpTo aids endAid - (stationsUpTo aids startAid - 1)) := by
  have bound := stationsUpTo_le_length aids startAid
  have notBelow := BitVec.not_lt.mp ((located_iff sorted some).mp located)
  refine filter_eq_take_drop fun idx inside => ?_
  rw [decide_eq_true_eq, lt_stationsUpTo_iff sorted inside]
  refine and_congr_left fun _ => ⟨fun reached => ?_, fun later => ?_⟩
  · by_contra early
    have next := (lt_stationsUpTo_iff sorted (by omega : idx + 1 < aids.length)).mp
      (by omega : idx + 1 < stationsUpTo aids startAid)
    have less := getD_lt_getD sorted (by omega : idx < idx + 1) (by omega)
    simp only [BitVec.lt_def, BitVec.le_def] at next less reached
    omega
  · have order := (getD_le_getD_iff sorted (by omega) inside).mpr later
    exact BitVec.le_trans notBelow order

theorem contiguous_of_reversed {config : RawConfig} {startIdx endIdx : Nat} (list : AidList aids)
    (nominal : config.beaconSpreading.nominalStaPerBeacon ≠ 0)
    (starts : config.startAidIdx = startIdx) (ends : config.endAidIdx = endIdx)
    (reversed : endIdx + 1 < startIdx) (inside : startIdx < aids.length) (beacon : Nat) :
    ∃ group, beaconGroup aids config beacon = some group ∧ group <:+: aids := by
  have short := list.numAids
  have made (last : BitVec 16) : ∃ next assignment,
      generateAssignment aids (config.serveUpTo last) =
        some (config.serveUpTo next, assignment) := by
    have valid : (config.serveUpTo last).beaconSpreading.nominalStaPerBeacon ≠ 0 ∧
        0 ≤ (config.serveUpTo last).startAidIdx ∧ 0 ≤ (config.serveUpTo last).endAidIdx := by
      refine ⟨nominal, ?_, ?_⟩
      · exact starts ▸ Int.natCast_nonneg _
      · exact ends ▸ Int.natCast_nonneg _
    have count : 0 < (BitVec.ofInt 16 (config.endAidIdx - config.startAidIdx + 1)).toNat := by
      rw [BitVec.toNat_ofInt]
      omega
    rw [generateAssignment]
    dsimp only
    rw [if_pos valid]
    have divided := staPerBeacon_eq nominal count
    have same : staPerBeacon (config.serveUpTo last).beaconSpreading =
      staPerBeacon config.beaconSpreading := rfl
    have start : (config.serveUpTo last).startAidIdx = config.startAidIdx := rfl
    have stop : (config.serveUpTo last).endAidIdx = config.endAidIdx := rfl
    rw [same, start, stop, divided]
    exact ⟨_, _, rfl⟩
  have after : ∃ last, afterBeacons aids config beacon = some (config.serveUpTo last) := by
    induction beacon with
    | zero => exact ⟨config.beaconSpreading.lastAid, rfl⟩
    | succ beacon ih =>
      obtain ⟨last, exact⟩ := ih
      obtain ⟨next, assignment, served⟩ := made last
      rw [afterBeacons, exact]
      dsimp only
      rw [served]
      exact ⟨next, rfl⟩
  obtain ⟨last, exact⟩ := after
  obtain ⟨next, assignment, served⟩ := made last
  refine ⟨_, ?_, stationsBetween_isInfix list.sorted assignment.startAid assignment.endAid⟩
  rw [beaconGroup, exact]
  dsimp only
  rw [served]
  rfl

theorem beaconGroup_of_empty {config : RawConfig}
    (nominal : config.beaconSpreading.nominalStaPerBeacon ≠ 0)
    (starts : config.startAidIdx = ((endIdx + 1 : Nat) : Int)) (ends : config.endAidIdx = endIdx) :
    beaconGroup aids config 0 = none := by
  have valid : config.beaconSpreading.nominalStaPerBeacon ≠ 0 ∧ 0 ≤ config.startAidIdx ∧
      0 ≤ config.endAidIdx := by
    refine ⟨nominal, ?_, ?_⟩
    · exact starts ▸ Int.natCast_nonneg _
    · exact ends ▸ Int.natCast_nonneg _
  have count : (BitVec.ofInt 16 (config.endAidIdx - config.startAidIdx + 1)).toNat = 0 := by
    have zero : config.endAidIdx - config.startAidIdx + 1 = 0 := by
      omega
    rw [zero]
    rfl
  have divided : staPerBeacon config.beaconSpreading 0 = none := by
    have none := beaconCount_zero config.beaconSpreading
    rw [beaconCount] at none
    rw [staPerBeacon]
    split
    · next spread => exact absurd spread.2 (by rw [Nat.zero_div]; exact Nat.not_lt_zero _)
    · next moderate =>
        rw [if_neg moderate] at none
        exact if_pos none
  rw [beaconGroup, afterBeacons]
  dsimp only
  rw [generateAssignment]
  dsimp only
  rw [if_pos valid, count, divided]
  rfl

/-- A configuration for the first ten identifiers. -/
def firstTen (maxSpread nominalStaPerBeacon : BitVec 16) : RawConfig :=
  { RawConfig.zeroed 1 with
    startAid := 1
    endAid := 10
    beaconSpreading := ⟨maxSpread, nominalStaPerBeacon, 0⟩ }

end Raw
end Morse
