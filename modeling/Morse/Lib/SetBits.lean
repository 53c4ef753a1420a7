import Mathlib.Data.Nat.Count
import Morse.Lib.Bits

/-!
# Counting and finding set bits

How many bits of a vector are set, which is the highest, and what becomes of both
when one bit is set or cleared.
-/

namespace Lib

variable {w : Nat}

/-! ## Positions below a bound -/

section Below

variable {before after : Nat → Bool} {position bound : Nat}

theorem count_of_one_more (inside : position < bound) (clear : before position = false)
    (set : after position = true)
    (others : ∀ other, other ≠ position → after other = before other) :
    Nat.count (after · = true) bound = Nat.count (before · = true) bound + 1 := by
  induction bound with
  | zero => exact absurd inside (Nat.not_lt_zero _)
  | succ bound ih =>
    rw [Nat.count_succ, Nat.count_succ]
    by_cases here : position = bound
    · subst here
      have same : Nat.count (after · = true) position = Nat.count (before · = true) position := by
        rw [Nat.count_eq_card_filter_range, Nat.count_eq_card_filter_range]
        refine congrArg Finset.card (Finset.filter_congr fun other below => ?_)
        rw [others other (Nat.ne_of_lt (Finset.mem_range.mp below))]
      rw [same, if_pos set, if_neg (by rw [clear]; decide)]
    · rw [others bound (Ne.symm here)]
      omega

/-- The highest position below a bound at which a predicate holds. -/
def lastBelow (holds : Nat → Bool) : Nat → Option Nat
  | 0 => none
  | bound + 1 => if holds bound then some bound else lastBelow holds bound

theorem lastBelow_eq_none_iff :
    lastBelow holds bound = none ↔ ∀ position < bound, holds position = false := by
  induction bound with
  | zero => exact ⟨fun _ _ below => absurd below (Nat.not_lt_zero _), fun _ => rfl⟩
  | succ bound ih =>
    rw [lastBelow]
    split
    · next set =>
        refine ⟨by rintro ⟨⟩, fun clear => ?_⟩
        rw [clear bound (Nat.lt_succ_self _)] at set
        cases set
    · next clear =>
        rw [ih]
        refine ⟨fun below position inside => ?_,
          fun below position inside => below position (Nat.lt_succ_of_lt inside)⟩
        rcases Nat.lt_succ_iff_lt_or_eq.mp inside with inside | rfl
        · exact below position inside
        · exact Bool.not_eq_true _ ▸ clear

theorem lastBelow_eq_some (found : lastBelow holds bound = some position) :
    position < bound ∧ holds position = true ∧
      ∀ other < bound, holds other = true → other ≤ position := by
  induction bound with
  | zero => cases found
  | succ bound ih =>
    rw [lastBelow] at found
    split at found
    · next set =>
        cases found
        exact ⟨Nat.lt_succ_self _, set, fun other inside _ => Nat.le_of_lt_succ inside⟩
    · next clear =>
        obtain ⟨inside, set, highest⟩ := ih found
        refine ⟨Nat.lt_succ_of_lt inside, set, fun other below holds => ?_⟩
        rcases Nat.lt_succ_iff_lt_or_eq.mp below with below | rfl
        · exact highest other below holds
        · exact absurd holds clear

/-! ## Rank and selection -/

/-- The position that has so many set positions before it from a position on, among
so many positions. -/
def selectFrom (holds : Nat → Bool) : Nat → Nat → Nat → Option Nat
  | 0, _, _ => none
  | fuel + 1, position, rank =>
    if holds position then
      if rank = 0 then some position else selectFrom holds fuel (position + 1) (rank - 1)
    else selectFrom holds fuel (position + 1) rank

theorem selectFrom_eq_some_iff :
    selectFrom holds fuel start rank = some position ↔
      start ≤ position ∧ position < start + fuel ∧ holds position = true ∧
        Nat.count (holds · = true) position = Nat.count (holds · = true) start + rank := by
  induction fuel generalizing start rank with
  | zero =>
    refine ⟨by rintro ⟨⟩, ?_⟩
    omega
  | succ fuel ih =>
    have next := Nat.count_succ (holds · = true) start
    rw [selectFrom]
    split
    · next set =>
        rw [if_pos set] at next
        split
        · next first =>
            subst first
            constructor
            · rintro ⟨⟩
              exact ⟨Nat.le_refl _, by omega, set, rfl⟩
            · rintro ⟨from_, -, -, counted⟩
              rcases Nat.eq_or_lt_of_le from_ with rfl | later
              · rfl
              · have more := Nat.count_monotone (holds · = true) (Nat.succ_le_of_lt later)
                have one : Nat.count (holds · = true) start + 1 ≤
                    Nat.count (holds · = true) position := next ▸ more
                omega
        · next further =>
            rw [ih]
            constructor
            · rintro ⟨from_, below, holds, counted⟩
              exact ⟨by omega, by omega, holds, by omega⟩
            · rintro ⟨from_, below, holds, counted⟩
              rcases Nat.eq_or_lt_of_le from_ with rfl | later
              · omega
              · exact ⟨later, by omega, holds, by omega⟩
    · next clear =>
        rw [if_neg clear] at next
        rw [ih, next]
        constructor
        · rintro ⟨from_, below, holds, counted⟩
          exact ⟨by omega, by omega, holds, counted⟩
        · rintro ⟨from_, below, holds, counted⟩
          rcases Nat.eq_or_lt_of_le from_ with rfl | later
          · exact absurd holds clear
          · exact ⟨later, by omega, holds, counted⟩

theorem exists_count_eq {holds : Nat → Bool} (below : rank < Nat.count (holds · = true) bound) :
    ∃ position < bound, holds position = true ∧ Nat.count (holds · = true) position = rank := by
  induction bound with
  | zero => exact absurd below (Nat.not_lt_zero _)
  | succ bound ih =>
    rw [Nat.count_succ] at below
    by_cases inside : rank < Nat.count (holds · = true) bound
    · obtain ⟨position, within, found⟩ := ih inside
      exact ⟨position, Nat.lt_succ_of_lt within, found⟩
    · split at below
      · next set => exact ⟨bound, Nat.lt_succ_self _, set, by omega⟩
      · omega

theorem eq_of_count_eq {holds : Nat → Bool} (set : holds position = true)
    (otherSet : holds other = true)
    (same : Nat.count (holds · = true) position = Nat.count (holds · = true) other) :
    position = other :=
  Nat.count_injective set otherSet same

end Below

/-! ## Bits of a vector -/

/-- How many bits of a vector are set. -/
def popCount (vector : BitVec w) : Nat := Nat.count (vector.getLsbD · = true) w

theorem popCount_le (vector : BitVec w) : popCount vector ≤ w :=
  Nat.count_le _

@[simp] theorem popCount_zero : popCount (0 : BitVec w) = 0 := by
  rw [popCount]
  simp

theorem popCount_or (inside : bit < w) (clear : vector.getLsbD bit = false) :
    popCount (vector ||| (1#w <<< bit)) = popCount vector + 1 := by
  refine count_of_one_more inside clear ?_ ?_
  · rw [BitVec.getLsbD_or, getLsbD_one_shiftLeft inside]
    simp
  · intro other apart
    by_cases within : other < w
    · rw [BitVec.getLsbD_or, getLsbD_one_shiftLeft within]
      simp [apart]
    · rw [BitVec.getLsbD_of_ge _ _ (Nat.le_of_not_lt within),
        BitVec.getLsbD_of_ge _ _ (Nat.le_of_not_lt within)]

theorem popCount_and_not (inside : bit < w) (set : vector.getLsbD bit = true) :
    popCount (vector &&& ~~~(1#w <<< bit)) + 1 = popCount vector := by
  refine (count_of_one_more inside ?_ set ?_).symm
  · rw [BitVec.getLsbD_and, BitVec.getLsbD_not, getLsbD_one_shiftLeft inside]
    simp
  · intro other apart
    by_cases within : other < w
    · rw [BitVec.getLsbD_and, BitVec.getLsbD_not, getLsbD_one_shiftLeft within]
      simp [apart, within]
    · rw [BitVec.getLsbD_of_ge _ _ (Nat.le_of_not_lt within),
        BitVec.getLsbD_of_ge _ _ (Nat.le_of_not_lt within)]

theorem and_not_of_clear {bit : Nat} (clear : vector.getLsbD bit = false) :
    vector &&& ~~~(1#w <<< bit) = vector := by
  refine BitVec.eq_of_getLsbD_eq fun other inside => ?_
  rw [BitVec.getLsbD_and, BitVec.getLsbD_not, getLsbD_one_shiftLeft inside]
  by_cases same : other = bit
  · rw [same, clear, Bool.false_and]
  · simp [same, inside]

end Lib
