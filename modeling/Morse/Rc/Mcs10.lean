import Mathlib.Data.List.Basic
import Mathlib.Data.Nat.Cast.Basic
import Morse.Rc.Defs

/-!
# MCS 10 in place of MCS 0

MCS 10 repeats what MCS 0 sends at 1 MHz.  In the automatic mode it takes the place of the
attempts at MCS 0 behind the first: those of further slots, or, if only one slot has MCS 0
and there is a free one, those that this slot has left.
-/

namespace Morse
namespace Rc

/-! ## Rewriting -/

/-- The first loop of `morse_mac_apply_mcs10_mode_auto`: where it ends, and the first and the
last slot of 1 MHz that it comes to. -/
def scanRates (rates : Rates) : Nat → Nat → Option Nat → Option Nat →
    Nat × Option Nat × Option Nat
  | 0, i, mcs0FirstIdx, mcs0LastIdx => (i, mcs0FirstIdx, mcs0LastIdx)
  | left + 1, i, mcs0FirstIdx, mcs0LastIdx =>
    let last := if (rates i).isOneMhz then some i else mcs0LastIdx
    let first := if (rates i).isOneMhz then mcs0FirstIdx.or (some i) else mcs0FirstIdx
    if (rates i).count = 0 then (i, first, last) else scanRates rates left (i + 1) first last

/-- `MCS0_BEFORE_MCS10_COUNT`. -/
def mcs0BeforeMcs10Count : BitVec 8 := 1

/-- The second case of `morse_mac_apply_mcs10_mode_auto`: the attempts of a slot that are
left go to another with MCS 10, if there are any. -/
def addMcs10 (rates : Rates) (slot free : Nat) : Rates :=
  let preMcs10Mcs0Count :=
    if (rates slot).count < mcs0BeforeMcs10Count then (rates slot).count else mcs0BeforeMcs10Count
  let mcs10Count := (rates slot).count - preMcs10Mcs0Count
  if 0 < mcs10Count then
    Function.update
      (Function.update rates slot { rates slot with count := preMcs10Mcs0Count })
      free { (rates slot).withMcs 10 with count := mcs10Count }
  else rates

/-- `morse_mac_apply_mcs10_mode_auto`. -/
def applyMcs10ModeAuto (rates : Rates) : Rates :=
  match scanRates rates txMaxRates 0 none none with
  | (i, some mcs0FirstIdx, some mcs0LastIdx) =>
    if mcs0FirstIdx < mcs0LastIdx then
      fun j =>
        if mcs0FirstIdx + 1 ≤ j ∧ j < i ∧ (rates j).isMcs0 then (rates j).withMcs 10
        else rates j
    else if mcs0LastIdx = mcs0FirstIdx ∧ i < txMaxRates then addMcs10 rates mcs0LastIdx i
    else rates
  | _ => rates

/-! ## What is expected -/

/-- The number of slots in front of the first without attempts. -/
def activeFrom (rates : Rates) : Nat → Nat → Nat
  | 0, i => i
  | left + 1, i => if (rates i).count = 0 then i else activeFrom rates left (i + 1)

/-- The number of slots that are used. -/
def activeRates (rates : Rates) : Nat := activeFrom rates txMaxRates 0

/-- The slots with MCS 0 at 1 MHz. -/
def mcs0Slots (rates : Rates) : List Nat :=
  (List.range (activeRates rates)).filter fun slot => (rates slot).isMcs0

/-- The slots of 1 MHz, among those that are used and the one behind them. -/
def oneMhzSlots (rates : Rates) : List Nat :=
  (List.range (min (activeRates rates + 1) txMaxRates)).filter fun slot => (rates slot).isOneMhz

/-- The attempts of a slot behind the first go to a free one with MCS 10. -/
def splitMcs0 (rates : Rates) (slot free : Nat) : Rates := fun j =>
  if (rates slot).count.toNat ≤ 1 then rates j
  else if j = free then { (rates slot).withMcs 10 with count := (rates slot).count - 1 }
  else if j = slot then { rates slot with count := 1 }
  else rates j

/-- With several slots of MCS 0 those behind the first get MCS 10; with one and a free slot
its attempts are split. -/
def expectedRates (rates : Rates) : Rates :=
  match mcs0Slots rates with
  | [] => rates
  | [slot] =>
    if activeRates rates < txMaxRates then splitMcs0 rates slot (activeRates rates) else rates
  | _ :: later => fun j => if j ∈ later then (rates j).withMcs 10 else rates j

/-- The attempts of all slots. -/
def attempts (rates : Rates) : Nat :=
  ((List.range txMaxRates).map fun slot => (rates slot).count.toNat).sum

/-- A table is rewritten as expected and keeps its attempts. -/
def RewritesMcs0 (rates : Rates) : Prop :=
  applyMcs10ModeAuto rates = expectedRates rates ∧
    attempts (applyMcs10ModeAuto rates) = attempts rates

/-- Without MCS 0, a single slot of 1 MHz in front of a free one has no more than one
attempt.  With MCS 0, its first slot is the only one of 1 MHz, or the first of 1 MHz and, if
no other has MCS 0 and there is a free one, with no more than one attempt. -/
def Rewritable (rates : Rates) : Prop :=
  match mcs0Slots rates with
  | [] => ∀ slot, oneMhzSlots rates = [slot] → activeRates rates < txMaxRates →
      (rates slot).count.toNat ≤ 1
  | slot :: later => oneMhzSlots rates = [slot] ∨
      (oneMhzSlots rates).head? = some slot ∧
        (later = [] → activeRates rates < txMaxRates → (rates slot).count.toNat ≤ 1)

/-! ## The scan -/

theorem le_activeFrom (rates : Rates) (left i : Nat) :
    i ≤ activeFrom rates left i ∧ activeFrom rates left i ≤ i + left := by
  induction left generalizing i with
  | zero => exact ⟨Nat.le_refl i, Nat.le_refl i⟩
  | succ left ih =>
    have later := ih (i + 1)
    rw [activeFrom]
    split
    · omega
    · omega

theorem count_activeFrom (free : activeFrom rates left i < i + left) :
    (rates (activeFrom rates left i)).count = 0 := by
  induction left generalizing i with
  | zero => exact absurd free (Nat.lt_irrefl i)
  | succ left ih =>
    rw [activeFrom] at free ⊢
    split at free
    · next here =>
        rw [if_pos here]
        exact here
    · next here =>
        rw [if_neg here]
        apply ih
        omega

/-- The slots of 1 MHz that the loop comes to. -/
def scannedFrom (rates : Rates) (left i : Nat) : List Nat :=
  (List.range' i (min (activeFrom rates left i + 1 - i) left)).filter fun slot =>
    (rates slot).isOneMhz

theorem scanRates_eq (rates : Rates) (left i : Nat) (first last : Option Nat) :
    scanRates rates left i first last =
      (activeFrom rates left i, first.or (scannedFrom rates left i).head?,
        (scannedFrom rates left i).getLast?.or last) := by
  induction left generalizing i first last with
  | zero =>
    rw [scanRates, activeFrom, scannedFrom, Nat.min_zero, List.range'_zero, List.filter_nil,
      List.head?_nil, List.getLast?_nil, Option.or_none, Option.none_or]
  | succ left ih =>
    have bounds := le_activeFrom rates left (i + 1)
    rw [scanRates, scannedFrom, activeFrom]
    by_cases here : (rates i).count = 0
    · have one : min (i + 1 - i) (left + 1) = 1 := by omega
      simp only [if_pos here, one, List.range'_one]
      cases oneMhz : (rates i).isOneMhz with
      | true => simp [oneMhz]
      | false => simp [oneMhz]
    · have more : min (activeFrom rates left (i + 1) + 1 - i) (left + 1) =
          min (activeFrom rates left (i + 1) + 1 - (i + 1)) left + 1 := by omega
      simp only [if_neg here, more, List.range'_succ, List.filter_cons]
      rw [ih, scannedFrom]
      cases oneMhz : (rates i).isOneMhz with
      | true =>
        simp only [if_true, List.head?_cons, Option.some_or, List.getLast?_cons,
          Option.or_some]
      | false => simp only [Bool.false_eq_true, if_false]

/-! ## The slots -/

variable {rates : Rates} {slot : Nat}

theorem activeRates_le (rates : Rates) : activeRates rates ≤ txMaxRates := by
  have bounds := (le_activeFrom rates txMaxRates 0).2
  exact bounds

theorem oneMhzSlots_eq (rates : Rates) : scannedFrom rates txMaxRates 0 = oneMhzSlots rates := by
  rw [oneMhzSlots, List.range_eq_range']
  rfl

theorem mem_mcs0Slots :
    slot ∈ mcs0Slots rates ↔ slot < activeRates rates ∧ (rates slot).isMcs0 = true := by
  rw [mcs0Slots, List.mem_filter, List.mem_range]

theorem mem_oneMhzSlots :
    slot ∈ oneMhzSlots rates ↔
      (slot ≤ activeRates rates ∧ slot < txMaxRates) ∧ (rates slot).isOneMhz = true := by
  rw [oneMhzSlots, List.mem_filter, List.mem_range, Nat.lt_min, Nat.lt_succ_iff]

theorem isOneMhz_of_isMcs0 {rate : RateInfo} (mcs0 : rate.isMcs0 = true) :
    rate.isOneMhz = true := by
  rw [RateInfo.isMcs0, Bool.and_eq_true] at mcs0
  exact mcs0.2

theorem mem_oneMhzSlots_of_mem (mcs0 : slot ∈ mcs0Slots rates) : slot ∈ oneMhzSlots rates := by
  obtain ⟨used, own⟩ := mem_mcs0Slots.mp mcs0
  have bound := activeRates_le rates
  rw [mem_oneMhzSlots]
  exact ⟨⟨Nat.le_of_lt used, Nat.lt_of_lt_of_le used bound⟩, isOneMhz_of_isMcs0 own⟩

theorem pairwise_mcs0Slots (rates : Rates) : (mcs0Slots rates).Pairwise (· < ·) :=
  List.pairwise_lt_range.filter _

theorem pairwise_oneMhzSlots (rates : Rates) : (oneMhzSlots rates).Pairwise (· < ·) :=
  List.pairwise_lt_range.filter _

theorem withMcs_ne {rate : RateInfo} (mcs0 : rate.isMcs0 = true) :
    (rate.withMcs 10).morseRatecode ≠ rate.morseRatecode := by
  intro same
  have ten := mcsIndexGet_withMcs rate
  rw [RateInfo.isMcs0, Bool.and_eq_true, decide_eq_true_eq] at mcs0
  rw [same, mcs0.1] at ten
  exact absurd ten (by decide)

/-! ## Splitting attempts -/

variable {free : Nat}

theorem addMcs10_eq (differs : (rates slot).count.toNat ≤ 1 ∨ slot ≠ free) :
    addMcs10 rates slot free = splitMcs0 rates slot free := by
  funext j
  rw [addMcs10, splitMcs0]
  by_cases few : (rates slot).count.toNat ≤ 1
  · rw [if_pos few]
    have rest : (rates slot).count - (if (rates slot).count < mcs0BeforeMcs10Count then
        (rates slot).count else mcs0BeforeMcs10Count) = 0 := by
      by_cases none : (rates slot).count < mcs0BeforeMcs10Count
      · rw [if_pos none, BitVec.sub_self]
        exact rfl
      · have one : (rates slot).count = mcs0BeforeMcs10Count := by
          apply BitVec.eq_of_toNat_eq
          exact Nat.le_antisymm few (Nat.not_lt.mp none)
        rw [one]
        exact rfl
    simp only [rest, BitVec.lt_irrefl, if_false]
  · have more : ¬ (rates slot).count < mcs0BeforeMcs10Count := by
      show ¬ (rates slot).count.toNat < 1
      omega
    have rest : 0 < (rates slot).count - mcs0BeforeMcs10Count := by
      have fits : mcs0BeforeMcs10Count ≤ (rates slot).count := by
        show 1 ≤ (rates slot).count.toNat
        omega
      rw [BitVec.lt_def, BitVec.toNat_sub_of_le fits]
      show 0 < (rates slot).count.toNat - 1
      omega
    rw [if_neg few]
    simp only [if_neg more, if_pos rest]
    by_cases atFree : j = free
    · rw [if_pos atFree, atFree, Function.update_self]
      rfl
    · rw [if_neg atFree, Function.update_of_ne atFree]
      by_cases atSlot : j = slot
      · rw [if_pos atSlot, atSlot, Function.update_self]
        rfl
      · rw [if_neg atSlot, Function.update_of_ne atSlot]

theorem splitMcs0_eq_iff (differs : (rates slot).count.toNat ≤ 1 ∨ slot ≠ free) :
    splitMcs0 rates slot free = rates ↔ (rates slot).count.toNat ≤ 1 := by
  constructor
  · intro same
    by_contra many
    have here := congrFun same slot
    rw [splitMcs0, if_neg many, if_neg (differs.resolve_left many), if_pos rfl] at here
    have one := congrArg (fun rate => rate.count.toNat) here
    have less : (1 : BitVec 8).toNat = (rates slot).count.toNat := one
    rw [← less] at many
    exact many (Nat.le_refl 1)
  · intro few
    funext j
    rw [splitMcs0, if_pos few]

theorem morseRatecode_splitMcs0 (apart : slot ≠ free) :
    (splitMcs0 rates slot free slot).morseRatecode = (rates slot).morseRatecode := by
  rw [splitMcs0]
  split
  · rfl
  · simp only [if_true]

/-! ## Attempts -/

theorem attempts_update (rates : Rates) (rate : RateInfo) (held : slot < txMaxRates) :
    attempts (Function.update rates slot rate) + (rates slot).count.toNat =
      attempts rates + rate.count.toNat := by
  have all (table : Rates) : attempts table = (table 0).count.toNat + ((table 1).count.toNat +
      ((table 2).count.toNat + ((table 3).count.toNat + 0))) := rfl
  have cases : slot = 0 ∨ slot = 1 ∨ slot = 2 ∨ slot = 3 := by
    rw [txMaxRates] at held
    omega
  rw [all, all]
  rcases cases with rfl | rfl | rfl | rfl
  all_goals
    simp [Function.update_self, Function.update_of_ne]
    omega

theorem attempts_addMcs10 (held : slot < txMaxRates) (freeHeld : free < txMaxRates)
    (isFree : (rates free).count = 0) :
    attempts (addMcs10 rates slot free) = attempts rates := by
  by_cases same : slot = free
  · have none : (rates slot).count.toNat ≤ 1 := by
      rw [same, isFree]
      decide
    rw [addMcs10_eq (Or.inl none), (splitMcs0_eq_iff (Or.inl none)).mpr none]
  · have fits : (if (rates slot).count < mcs0BeforeMcs10Count then (rates slot).count
        else mcs0BeforeMcs10Count) ≤ (rates slot).count := by
      split
      · exact BitVec.le_refl _
      · next more => exact BitVec.not_lt.mp more
    rw [addMcs10]
    generalize (if (rates slot).count < mcs0BeforeMcs10Count then (rates slot).count
      else mcs0BeforeMcs10Count) = kept at fits ⊢
    dsimp only
    split
    · have first := attempts_update rates { rates slot with count := kept } held
      have second := attempts_update (Function.update rates slot
        { rates slot with count := kept })
        { (rates slot).withMcs 10 with count := (rates slot).count - kept } freeHeld
      have zero : (rates free).count.toNat = 0 := by
        rw [isFree]
        rfl
      rw [Function.update_of_ne (Ne.symm same)] at second
      dsimp only at first second
      rw [BitVec.toNat_sub_of_le fits] at second
      have bound : kept.toNat ≤ (rates slot).count.toNat := fits
      omega
    · rfl

/-! ## What is done -/

theorem scanRates_rates (rates : Rates) :
    scanRates rates txMaxRates 0 none none =
      (activeRates rates, (oneMhzSlots rates).head?, (oneMhzSlots rates).getLast?) := by
  rw [scanRates_eq, oneMhzSlots_eq, Option.none_or, Option.or_none, activeRates]

theorem applyMcs10ModeAuto_of_nil (none' : oneMhzSlots rates = []) :
    applyMcs10ModeAuto rates = rates := by
  rw [applyMcs10ModeAuto, scanRates_rates, none']
  rfl

theorem applyMcs10ModeAuto_of_one (one : oneMhzSlots rates = [slot]) :
    applyMcs10ModeAuto rates =
      if activeRates rates < txMaxRates then addMcs10 rates slot (activeRates rates)
      else rates := by
  rw [applyMcs10ModeAuto, scanRates_rates, one]
  simp only [List.head?_cons, List.getLast?_singleton, Nat.lt_irrefl, if_false, true_and]

variable {next : Nat}

theorem applyMcs10ModeAuto_of_more (several : oneMhzSlots rates = slot :: next :: more) :
    applyMcs10ModeAuto rates = fun j =>
      if j ∈ mcs0Slots rates ∧ slot < j then (rates j).withMcs 10 else rates j := by
  have sorted := pairwise_oneMhzSlots rates
  rw [several, List.pairwise_cons] at sorted
  have last : (oneMhzSlots rates).getLast? =
      some ((next :: more).getLast (List.cons_ne_nil _ _)) := by
    rw [several, List.getLast?_cons_cons, List.getLast?_eq_getLast_of_ne_nil]
  have later := sorted.1 _ (List.getLast_mem (List.cons_ne_nil next more))
  rw [applyMcs10ModeAuto, scanRates_rates, last, several]
  simp only [List.head?_cons, if_pos later]
  funext j
  congr 1
  rw [eq_iff_iff, mem_mcs0Slots]
  constructor
  · rintro ⟨behind, used, mcs0⟩
    exact ⟨⟨used, mcs0⟩, behind⟩
  · rintro ⟨⟨used, mcs0⟩, behind⟩
    exact ⟨behind, used, mcs0⟩

theorem count_le_or_ne (slot : Nat) (free : activeRates rates < txMaxRates) :
    (rates slot).count.toNat ≤ 1 ∨ slot ≠ activeRates rates := by
  by_cases same : slot = activeRates rates
  · left
    have zero : (rates (activeRates rates)).count = 0 :=
      count_activeFrom (by exact free)
    rw [same, zero]
    decide
  · exact Or.inr same

theorem attempts_applyMcs10ModeAuto (rates : Rates) :
    attempts (applyMcs10ModeAuto rates) = attempts rates := by
  cases slots : oneMhzSlots rates with
  | nil => rw [applyMcs10ModeAuto_of_nil slots]
  | cons slot more =>
    cases more with
    | nil =>
      rw [applyMcs10ModeAuto_of_one slots]
      split
      · next free =>
          have held : slot ∈ oneMhzSlots rates := by
            rw [slots]
            exact List.mem_singleton_self slot
          apply attempts_addMcs10 (mem_oneMhzSlots.mp held).1.2 free
          apply count_activeFrom
          exact free
      · rfl
    | cons next more =>
      rw [applyMcs10ModeAuto_of_more slots, attempts]
      congr 2
      funext j
      split
      · rfl
      · rfl

/-! ## Rewriting as expected -/

theorem applyMcs10ModeAuto_eq_iff_of_one (one : oneMhzSlots rates = [slot]) :
    applyMcs10ModeAuto rates = rates ↔
      (activeRates rates < txMaxRates → (rates slot).count.toNat ≤ 1) := by
  rw [applyMcs10ModeAuto_of_one one]
  by_cases free : activeRates rates < txMaxRates
  · have differs := count_le_or_ne slot free
    rw [if_pos free, addMcs10_eq differs, splitMcs0_eq_iff differs]
    exact ⟨fun few _ => few, fun few => few free⟩
  · rw [if_neg free]
    exact ⟨fun _ within => absurd within free, fun _ => rfl⟩

theorem eq_expectedRates_iff_of_nil (none' : mcs0Slots rates = []) :
    applyMcs10ModeAuto rates = rates ↔
      ∀ slot, oneMhzSlots rates = [slot] → activeRates rates < txMaxRates →
        (rates slot).count.toNat ≤ 1 := by
  constructor
  · intro same slot one
    exact (applyMcs10ModeAuto_eq_iff_of_one one).mp same
  · intro few
    cases slots : oneMhzSlots rates with
    | nil => exact applyMcs10ModeAuto_of_nil slots
    | cons slot more =>
      cases more with
      | nil => exact (applyMcs10ModeAuto_eq_iff_of_one slots).mpr (few slot slots)
      | cons next more =>
        rw [applyMcs10ModeAuto_of_more slots, none']
        funext j
        rw [if_neg (fun mcs0 => List.not_mem_nil mcs0.1)]

theorem morseRatecode_expectedRates (slots : mcs0Slots rates = slot :: later) :
    (expectedRates rates slot).morseRatecode = (rates slot).morseRatecode := by
  have sorted := pairwise_mcs0Slots rates
  have first : slot ∈ mcs0Slots rates := by
    rw [slots]
    exact List.mem_cons_self
  rw [slots, List.pairwise_cons] at sorted
  rw [expectedRates, slots]
  cases later with
  | nil =>
    split
    · exact morseRatecode_splitMcs0 (Nat.ne_of_lt (mem_mcs0Slots.mp first).1)
    · rfl
  | cons next more =>
    dsimp only
    rw [if_neg (fun again => Nat.lt_irrefl slot (sorted.1 slot again))]

variable {more later : List Nat}

theorem ne_expectedRates (several : oneMhzSlots rates = first :: next :: more)
    (slots : mcs0Slots rates = slot :: later) (other : first ≠ slot) :
    applyMcs10ModeAuto rates ≠ expectedRates rates := by
  intro same
  have mcs0 : slot ∈ mcs0Slots rates := by
    rw [slots]
    exact List.mem_cons_self
  have sorted := pairwise_oneMhzSlots rates
  have listed := mem_oneMhzSlots_of_mem mcs0
  rw [several] at sorted listed
  have behind : first < slot := by
    rcases List.mem_cons.mp listed with here | there
    · exact absurd here.symm other
    · exact (List.pairwise_cons.mp sorted).1 slot there
  have here := congrArg RateInfo.morseRatecode (congrFun same slot)
  rw [morseRatecode_expectedRates slots, applyMcs10ModeAuto_of_more several] at here
  dsimp only at here
  rw [if_pos ⟨mcs0, behind⟩] at here
  exact withMcs_ne (mem_mcs0Slots.mp mcs0).2 here

theorem eq_expectedRates_iff_of_more (several : oneMhzSlots rates = slot :: next :: more)
    (slots : mcs0Slots rates = slot :: later) :
    applyMcs10ModeAuto rates = expectedRates rates ↔
      (later = [] → activeRates rates < txMaxRates → (rates slot).count.toNat ≤ 1) := by
  have sorted := pairwise_mcs0Slots rates
  rw [slots, List.pairwise_cons] at sorted
  have behind (j : Nat) : j ∈ mcs0Slots rates ∧ slot < j ↔ j ∈ later := by
    rw [slots, List.mem_cons]
    constructor
    · rintro ⟨here | there, after⟩
      · exact absurd after (here ▸ Nat.lt_irrefl j)
      · exact there
    · intro there
      exact ⟨Or.inr there, sorted.1 j there⟩
  rw [applyMcs10ModeAuto_of_more several, expectedRates]
  simp only [behind]
  rw [slots]
  cases later with
  | nil =>
    have stays : (fun j => if j ∈ ([] : List Nat) then (rates j).withMcs 10 else rates j) =
        rates := by
      funext j
      rw [if_neg List.not_mem_nil]
    rw [stays]
    dsimp only
    by_cases free : activeRates rates < txMaxRates
    · rw [if_pos free, eq_comm, splitMcs0_eq_iff (count_le_or_ne slot free)]
      exact ⟨fun few _ _ => few, fun few => few rfl free⟩
    · rw [if_neg free]
      exact ⟨fun _ _ within => absurd within free, fun _ => rfl⟩
  | cons another rest =>
    exact ⟨fun _ empty => absurd empty (List.cons_ne_nil another rest), fun _ => rfl⟩

theorem eq_expectedRates_of_one (one : oneMhzSlots rates = [only])
    (slots : mcs0Slots rates = slot :: later) :
    only = slot ∧ later = [] ∧ applyMcs10ModeAuto rates = expectedRates rates := by
  have same (j : Nat) (mcs0 : j ∈ mcs0Slots rates) : j = only := by
    have listed := mem_oneMhzSlots_of_mem mcs0
    rw [one] at listed
    exact List.mem_singleton.mp listed
  have first : slot = only := same slot (by rw [slots]; exact List.mem_cons_self)
  have sorted := pairwise_mcs0Slots rates
  rw [slots, List.pairwise_cons] at sorted
  have alone : later = [] := by
    apply List.eq_nil_iff_forall_not_mem.mpr
    intro j there
    have again : j = only := same j (by rw [slots]; exact List.mem_cons_of_mem slot there)
    have after := sorted.1 j there
    omega
  refine ⟨first.symm, alone, ?_⟩
  rw [applyMcs10ModeAuto_of_one one, expectedRates, slots, alone, first]
  split
  · next free => exact addMcs10_eq (count_le_or_ne only free)
  · rfl

/-- A table is rewritten as expected if and only if its slots of 1 MHz, and the one behind
the used slots, do not mislead. -/
theorem rewritesMcs0_iff (rates : Rates) : RewritesMcs0 rates ↔ Rewritable rates := by
  rw [RewritesMcs0, and_iff_left (attempts_applyMcs10ModeAuto rates), Rewritable]
  cases slots : mcs0Slots rates with
  | nil =>
    have stays : expectedRates rates = rates := by
      rw [expectedRates, slots]
    rw [stays]
    exact eq_expectedRates_iff_of_nil slots
  | cons slot later =>
    cases oneMhz : oneMhzSlots rates with
    | nil =>
      have listed : slot ∈ oneMhzSlots rates :=
        mem_oneMhzSlots_of_mem (by rw [slots]; exact List.mem_cons_self)
      rw [oneMhz] at listed
      exact absurd listed List.not_mem_nil
    | cons first more =>
      cases more with
      | nil =>
        obtain ⟨same, -, rewritten⟩ := eq_expectedRates_of_one oneMhz slots
        rw [same]
        exact ⟨fun _ => Or.inl rfl, fun _ => rewritten⟩
      | cons next more =>
        by_cases same : first = slot
        · rw [same] at oneMhz ⊢
          rw [eq_expectedRates_iff_of_more oneMhz slots]
          constructor
          · intro few
            exact Or.inr ⟨rfl, few⟩
          · rintro (single | ⟨-, few⟩)
            · exact absurd (List.cons.inj single).2 (List.cons_ne_nil next more)
            · exact few
        · constructor
          · intro rewritten
            exact absurd rewritten (ne_expectedRates oneMhz slots same)
          · rintro (single | ⟨head, -⟩)
            · exact absurd (List.cons.inj single).2 (List.cons_ne_nil next more)
            · exact absurd (Option.some.inj head) same

/-- Three attempts at MCS 0 at 1 MHz in front of slots that are all zero. -/
def singleMcs0 : Rates := fun slot => if slot = 0 then ⟨0, 3⟩ else ⟨0, 0⟩

/-- The all-zero slot behind a single one of MCS 0 reads as 1 MHz, and no MCS 10 is added. -/
theorem not_rewritesMcs0_singleMcs0 : ¬ RewritesMcs0 singleMcs0 := by
  intro rewrites
  have free := congrFun rewrites.1 1
  exact absurd free (by decide)

end Rc
end Morse
