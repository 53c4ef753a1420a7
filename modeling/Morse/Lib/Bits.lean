import Mathlib.Algebra.Group.Nat.Defs
import Mathlib.Logic.Function.Basic
import Mathlib.Data.List.Basic
import Mathlib.Tactic.Common

/-!
# Single bits of bit vectors

Setting and clearing one bit, in one vector and in one entry of a family of
vectors, read back bit by bit.
-/

namespace Lib

variable {w : Nat}

theorem getLsbD_one_shiftLeft (inside : bit < w) (position : Nat) :
    (1#w <<< position).getLsbD bit = decide (bit = position) := by
  rw [← BitVec.twoPow_eq, BitVec.getLsbD_twoPow, Bool.eq_iff_iff]
  simp only [Bool.and_eq_true, decide_eq_true_eq]
  omega

theorem getLsbD_update_or (family : Nat → BitVec w) (entry position index : Nat)
    (inside : bit < w) :
    (Function.update family entry (family entry ||| (1#w <<< position)) index).getLsbD bit =
      ((family index).getLsbD bit || decide (index = entry ∧ bit = position)) := by
  by_cases same : index = entry
  · subst same
    rw [Function.update_self, BitVec.getLsbD_or, getLsbD_one_shiftLeft inside]
    simp
  · simp [same]

theorem getLsbD_update_and_not (family : Nat → BitVec w) (entry position index : Nat)
    (inside : bit < w) :
    (Function.update family entry (family entry &&& ~~~(1#w <<< position)) index).getLsbD bit =
      ((family index).getLsbD bit && !decide (index = entry ∧ bit = position)) := by
  by_cases same : index = entry
  · subst same
    rw [Function.update_self, BitVec.getLsbD_and, BitVec.getLsbD_not,
      getLsbD_one_shiftLeft inside]
    simp [inside]
  · simp [same]

theorem eq_zero_iff_getLsbD (vector : BitVec w) :
    vector = 0 ↔ ∀ bit, bit < w → vector.getLsbD bit = false := by
  constructor
  · rintro rfl bit _
    exact BitVec.getLsbD_zero
  · intro clear
    apply BitVec.eq_of_getLsbD_eq
    intro bit inside
    rw [clear bit inside]
    exact BitVec.getLsbD_zero.symm

theorem eq_zero_of_update_or {entry position index : Nat} (inside : position < w)
    (zero : Function.update family entry (family entry ||| (1#w <<< position)) index = 0) :
    family index = 0 ∧ index ≠ entry := by
  rw [eq_zero_iff_getLsbD] at zero
  constructor
  · rw [eq_zero_iff_getLsbD]
    intro bit below
    have unset := zero bit below
    rw [getLsbD_update_or _ _ _ _ below] at unset
    exact (Bool.or_eq_false_iff.mp unset).1
  · rintro rfl
    have unset := zero position inside
    rw [getLsbD_update_or _ _ _ _ inside] at unset
    simp at unset

theorem exists_getLsbD_of_ne_zero {vector : BitVec w} (nonzero : vector ≠ 0) :
    ∃ bit, bit < w ∧ vector.getLsbD bit = true := by
  by_contra none
  refine nonzero ((eq_zero_iff_getLsbD vector).mpr fun bit inside => ?_)
  by_contra set
  exact none ⟨bit, inside, Bool.not_eq_false _ ▸ set⟩

/-- Set every bit of a list of positions. -/
def setBits (vector : BitVec w) (positions : List Nat) : BitVec w :=
  positions.foldl (fun vector position => vector ||| (1#w <<< position)) vector

@[simp] theorem setBits_nil (vector : BitVec w) : setBits vector [] = vector := rfl

@[simp] theorem setBits_cons (vector : BitVec w) (position : Nat) (positions : List Nat) :
    setBits vector (position :: positions) =
      setBits (vector ||| (1#w <<< position)) positions := rfl

theorem getLsbD_setBits (vector : BitVec w) (positions : List Nat) (inside : bit < w) :
    (setBits vector positions).getLsbD bit =
      (vector.getLsbD bit || decide (bit ∈ positions)) := by
  induction positions generalizing vector with
  | nil => simp
  | cons position positions inductionHypothesis =>
    rw [setBits_cons, inductionHypothesis, BitVec.getLsbD_or, getLsbD_one_shiftLeft inside,
      Bool.or_assoc]
    simp only [List.mem_cons, Bool.decide_or]

theorem filter_getLsbD_setBits (keep : Nat → Bool) :
    ((List.range w).filter fun position =>
        (setBits (0 : BitVec w) ((List.range w).filter keep)).getLsbD position) =
      (List.range w).filter keep := by
  apply List.filter_congr
  intro position inside
  rw [getLsbD_setBits _ _ (List.mem_range.mp inside)]
  simp [List.mem_range.mp inside]

/-! ## Fields of numbers -/

theorem shiftLeft_and_mask (value shift width : Nat) :
    (value <<< shift) &&& ((2 ^ width - 1) <<< shift) = (value % 2 ^ width) * 2 ^ shift := by
  rw [← Nat.shiftLeft_and_distrib, Nat.and_two_pow_sub_one_eq_mod, Nat.shiftLeft_eq]

theorem or_mul_two_pow (below : low < 2 ^ shift) (value : Nat) :
    low ||| value * 2 ^ shift = value * 2 ^ shift + low := by
  rw [Nat.or_comm, ← Nat.shiftLeft_eq, ← Nat.shiftLeft_add_eq_or_of_lt below]

/-! ## Masks -/

/-- A mask that is set or not. -/
def flag (set : Bool) (mask : BitVec w) : BitVec w := if set then mask else 0

/-- A value has a bit of a mask. -/
def hasMask (value mask : BitVec w) : Bool := decide (value &&& mask ≠ 0)

@[simp] theorem flag_false (mask : BitVec w) : flag false mask = 0 := rfl

@[simp] theorem flag_true (mask : BitVec w) : flag true mask = mask := rfl

theorem flag_and (set : Bool) (value mask : BitVec w) :
    flag set value &&& mask = flag set (value &&& mask) := by
  cases set with
  | true => rfl
  | false => exact BitVec.zero_and

theorem or_and_eq_zero_iff (first second mask : BitVec w) :
    (first ||| second) &&& mask = 0 ↔ first &&& mask = 0 ∧ second &&& mask = 0 := by
  simp only [eq_zero_iff_getLsbD, BitVec.getLsbD_and, BitVec.getLsbD_or]
  constructor
  · intro clear
    constructor <;>
    · intro bit inside
      have both := clear bit inside
      revert both
      cases first.getLsbD bit <;> cases second.getLsbD bit <;> simp
  · rintro ⟨firstClear, secondClear⟩ bit inside
    have one := firstClear bit inside
    have other := secondClear bit inside
    revert one other
    cases first.getLsbD bit <;> cases second.getLsbD bit <;> simp

theorem hasMask_or (first second mask : BitVec w) :
    hasMask (first ||| second) mask = (hasMask first mask || hasMask second mask) := by
  rw [hasMask, hasMask, hasMask, ← Bool.decide_or, decide_eq_decide, Ne, or_and_eq_zero_iff,
    not_and_or]

theorem hasMask_flag (set : Bool) (value mask : BitVec w) :
    hasMask (flag set value) mask = (set && hasMask value mask) := by
  cases set with
  | true => rfl
  | false => simp [hasMask]

theorem hasMask_and (value under mask : BitVec w) :
    hasMask (value &&& under) mask = hasMask value (under &&& mask) := by
  rw [hasMask, hasMask, BitVec.and_assoc]

@[simp] theorem hasMask_zero (value : BitVec w) : hasMask value 0 = false := by
  simp [hasMask]

end Lib
