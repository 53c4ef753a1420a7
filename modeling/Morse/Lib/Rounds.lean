import Mathlib.Data.Nat.Find
import Mathlib.Tactic.Ring

/-!
# Service in rounds

A service goes through the places `0, …, length - 1` again and again, a few at a
turn.  Its positions are counted on from round to round, so that the place of a
position is its remainder.  A turn does not go beyond the end of its round.
-/

namespace Lib

/-- The turns of a service: turn `turn` serves the positions from `reached turn`
on and before `reached (turn + 1)`. -/
structure Rounds (length : Nat) (reached : Nat → Nat) : Prop where
  positive : 0 < length
  advances : ∀ turn, reached turn < reached (turn + 1)
  stays : ∀ turn, reached (turn + 1) ≤ (reached turn / length + 1) * length

/-- The turn serves the place. -/
def Serves (length : Nat) (reached : Nat → Nat) (turn place : Nat) : Prop :=
  ∃ position, reached turn ≤ position ∧ position < reached (turn + 1) ∧
    position % length = place

namespace Rounds

variable {length : Nat} {reached : Nat → Nat}

theorem reached_le (rounds : Rounds length reached) (before : first ≤ second) :
    reached first ≤ reached second := by
  induction second, before using Nat.le_induction with
  | base => exact Nat.le_refl _
  | succ second _ ih => exact Nat.le_trans ih (Nat.le_of_lt (rounds.advances _))

theorem add_le_reached (rounds : Rounds length reached) (first count : Nat) :
    reached first + count ≤ reached (first + count) := by
  induction count with
  | zero => exact Nat.le_refl _
  | succ count ih =>
    have advances := rounds.advances (first + count)
    rw [← Nat.add_assoc, ← Nat.add_assoc]
    omega

theorem exists_turn (rounds : Rounds length reached) (after : reached first ≤ position) :
    ∃ turn, first ≤ turn ∧ reached turn ≤ position ∧ position < reached (turn + 1) := by
  have beyond : ∃ count, position < reached (first + count) := by
    refine ⟨position + 1, ?_⟩
    have far := rounds.add_le_reached first (position + 1)
    omega
  have found := Nat.find_spec beyond
  have least (count : Nat) (small : count < Nat.find beyond) := Nat.find_min beyond small
  cases exact : Nat.find beyond with
  | zero =>
    rw [exact] at found
    exact absurd found (Nat.not_lt.mpr after)
  | succ count =>
    rw [exact] at found least
    exact ⟨first + count, Nat.le_add_right _ _,
      Nat.not_lt.mp (least count (Nat.lt_succ_self count)), found⟩

theorem lt_of_reached_le (rounds : Rounds length reached) (low : reached turn ≤ position)
    (high : position < reached second) :
    turn < second := by
  by_contra late
  have order := rounds.reached_le (Nat.not_lt.mp late)
  omega

theorem serves_of_length_le (rounds : Rounds length reached)
    (enough : reached first + length ≤ reached second) (inside : place < length) :
    ∃ turn, first ≤ turn ∧ turn < second ∧ Serves length reached turn place := by
  have offset := Nat.mod_lt (reached first) rounds.positive
  have split := Nat.div_add_mod (reached first) length
  obtain ⟨position, low, high, same⟩ : ∃ position, reached first ≤ position ∧
      position < reached first + length ∧ position % length = place := by
    by_cases earlier : place < reached first % length
    · refine ⟨length * (reached first / length) + (place + length), by omega, by omega, ?_⟩
      rw [Nat.mul_add_mod, Nat.add_mod_right, Nat.mod_eq_of_lt inside]
    · refine ⟨length * (reached first / length) + place, by omega, by omega, ?_⟩
      rw [Nat.mul_add_mod, Nat.mod_eq_of_lt inside]
  obtain ⟨turn, later, start, stop⟩ := rounds.exists_turn low
  exact ⟨turn, later, rounds.lt_of_reached_le start (by omega), position, start, stop, same⟩

theorem add_length_le_of_mod_eq (before : first < second)
    (same : first % length = second % length) :
    first + length ≤ second := by
  have firstSplit := Nat.div_add_mod first length
  have secondSplit := Nat.div_add_mod second length
  have later : first / length < second / length := by
    by_contra early
    have order := Nat.mul_le_mul_left length (Nat.not_lt.mp early)
    omega
  have gap := Nat.mul_le_mul_left length (Nat.succ_le_of_lt later)
  rw [Nat.mul_succ] at gap
  omega

theorem serves_between (rounds : Rounds length reached) (before : first < second)
    (served : Serves length reached first place) (again : Serves length reached second place)
    (inside : other < length) :
    ∃ turn, first ≤ turn ∧ turn ≤ second ∧ Serves length reached turn other := by
  obtain ⟨position, low, high, same⟩ := served
  obtain ⟨next, nextLow, nextHigh, nextSame⟩ := again
  have order := rounds.reached_le (by omega : first + 1 ≤ second)
  have apart := add_length_le_of_mod_eq (by omega) (same.trans nextSame.symm)
  have enough : reached first + length ≤ reached (second + 1) := by omega
  obtain ⟨turn, later, early, serves⟩ := rounds.serves_of_length_le enough inside
  exact ⟨turn, later, Nat.le_of_lt_succ early, serves⟩

theorem exists_reached_eq (rounds : Rounds length reached) (first : Nat) :
    ∃ turn, first < turn ∧ reached turn = length * (reached first / length + 1) := by
  have positive := rounds.positive
  have offset := Nat.mod_lt (reached first) positive
  have split := Nat.div_add_mod (reached first) length
  obtain ⟨turn, later, low, high⟩ := rounds.exists_turn
    (by omega : reached first ≤ length * (reached first / length) + (length - 1))
  have stays := rounds.stays turn
  have lap : reached turn / length ≤ reached first / length := by
    refine Nat.le_of_lt_succ ((Nat.div_lt_iff_lt_mul positive).mpr ?_)
    rw [Nat.succ_mul, Nat.mul_comm]
    omega
  have bound := Nat.mul_le_mul_right length (Nat.succ_le_succ lap)
  rw [Nat.succ_mul, Nat.succ_mul, Nat.mul_comm (reached first / length)] at bound
  rw [Nat.succ_mul] at stays
  refine ⟨turn + 1, Nat.lt_succ_of_le later, ?_⟩
  rw [Nat.mul_succ]
  omega

theorem exists_round (rounds : Rounds length reached) (aligned : reached first % length = 0) :
    ∃ count, 0 < count ∧ reached (first + count) = reached first + length := by
  obtain ⟨turn, later, exact⟩ := rounds.exists_reached_eq first
  have split := Nat.div_add_mod (reached first) length
  refine ⟨turn - first, Nat.sub_pos_of_lt later, ?_⟩
  rw [Nat.add_sub_cancel' (Nat.le_of_lt later), exact, Nat.mul_succ]
  omega

theorem not_serves_of_round (rounds : Rounds length reached)
    (round : reached (first + count) = reached first + length) (low : first ≤ one)
    (before : one < other) (high : other < first + count)
    (served : Serves length reached one place) :
    ¬ Serves length reached other place := by
  rintro ⟨next, nextLow, nextHigh, nextSame⟩
  obtain ⟨position, start, stop, same⟩ := served
  have lower := rounds.reached_le low
  have middle := rounds.reached_le (by omega : one + 1 ≤ other)
  have upper := rounds.reached_le (by omega : other + 1 ≤ first + count)
  have apart := add_length_le_of_mod_eq (by omega) (same.trans nextSame.symm)
  omega

theorem exists_aligned (rounds : Rounds length reached) (first : Nat) :
    ∃ turn, first ≤ turn ∧ reached turn % length = 0 := by
  obtain ⟨turn, later, exact⟩ := rounds.exists_reached_eq first
  exact ⟨turn, Nat.le_of_lt later, exact ▸ Nat.mul_mod_right _ _⟩

theorem reached_of_plan {plan : Nat → Nat} {first count : Nat} (start : plan 0 = 0)
    (follows : ∀ turn, plan turn < length → reached (first + turn) = reached first + plan turn →
      reached (first + turn + 1) = reached first + min length (plan (turn + 1)))
    (within : ∀ turn < count, plan turn < length) :
    reached (first + count) = reached first + min length (plan count) := by
  induction count with
  | zero =>
    rw [start, Nat.min_zero]
    rfl
  | succ count ih =>
    have inside := within count (Nat.lt_succ_self count)
    have before := ih fun turn early => within turn (Nat.lt_succ_of_lt early)
    rw [Nat.min_eq_right (Nat.le_of_lt inside)] at before
    exact follows count inside before

theorem length_le_plan_iff (rounds : Rounds length reached) (start : plan 0 = 0)
    (grows : Monotone plan)
    (follows : ∀ turn, plan turn < length → reached (first + turn) = reached first + plan turn →
      reached (first + turn + 1) = reached first + min length (plan (turn + 1)))
    (count : Nat) :
    reached first + length ≤ reached (first + count) ↔ length ≤ plan count := by
  constructor
  · intro far
    by_contra short
    have exact := @reached_of_plan length reached plan first count start follows fun turn early =>
      Nat.lt_of_le_of_lt (grows (Nat.le_of_lt early)) (Nat.not_le.mp short)
    omega
  · intro enough
    have ends : ∃ turn, length ≤ plan turn := ⟨count, enough⟩
    have exact := @reached_of_plan length reached plan first (Nat.find ends) start follows
      fun turn early => Nat.not_le.mp (Nat.find_min ends early)
    rw [Nat.min_eq_left (Nat.find_spec ends)] at exact
    rw [← exact]
    exact rounds.reached_le (Nat.add_le_add_left (Nat.find_min' ends enough) first)

end Rounds

end Lib
