import Mathlib.Algebra.Group.Nat.Defs
import Mathlib.Data.Nat.Basic
import Mathlib.Order.Lattice
import Mathlib.Tactic.Common

/-!
# The clock of the chip

The chip counts microseconds in 64 bits and shows the two halves in two registers.  The driver
reads the lower half, the upper one and the lower one again, and adds a carry to the upper half
when the lower one went back in between.
-/

namespace Morse
namespace Hw

variable {Time : Type} [LinearOrder Time]

/-- A counter of 64 bits that does not go back. -/
structure Counter (Time : Type) [LinearOrder Time] where
  value : Time → Nat
  value_lt : ∀ time, value time < 2 ^ 64
  mono : Monotone value

/-- The moments of the three reads of a call, between which the lower half is counted through less
than once. -/
structure Reading (counter : Counter Time) where
  lower1 : Time
  upper : Time
  lower2 : Time
  first_le : lower1 ≤ upper
  last_le : upper ≤ lower2
  short : counter.value lower2 < counter.value lower1 + 2 ^ 32

/-- `MORSE_REG_MTIME_LOWER`, as it is read at some moment. -/
def Counter.mtimeLower (counter : Counter Time) (time : Time) : Nat := counter.value time % 2 ^ 32

/-- `MORSE_REG_MTIME_UPPER`, as it is read at some moment. -/
def Counter.mtimeUpper (counter : Counter Time) (time : Time) : Nat := counter.value time / 2 ^ 32

/-- What `hw_read_clock` makes of the three words that it read. -/
def combine (lower1 upper lower2 : Nat) : Nat :=
  let upper := if lower2 < lower1 then (upper + 1) % 2 ^ 32 else upper
  upper * 2 ^ 32 + lower2

/-- `hw_read_clock`, with the status of each read: the first that fails is returned. -/
def hwReadClock
    (counter : Counter Time)
    (status : Int × Int × Int)
    (reading : Reading counter) : Int × Option Nat :=
  if status.1 ≠ 0 then (status.1, none)
  else if status.2.1 ≠ 0 then (status.2.1, none)
  else if status.2.2 ≠ 0 then (status.2.2, none)
  else
    (0, some (combine (counter.mtimeLower reading.lower1) (counter.mtimeUpper reading.upper)
      (counter.mtimeLower reading.lower2)))

/-! ## Calls -/

variable {counter : Counter Time}

/-- One call: the statuses of its reads, and their moments. -/
abbrev Call (counter : Counter Time) := (Int × Int × Int) × Reading counter

/-- What a call returns. -/
def Call.result (call : Call counter) : Option Nat := (hwReadClock counter call.1 call.2).2

/-- The calls are made one after the other. -/
def InOrder (calls : List (Call counter)) : Prop :=
  calls.Pairwise fun earlier later => earlier.2.lower2 ≤ later.2.lower1

/-- What is returned was held during the call, and the values do not go back from call to call. -/
structure TornFree (calls : List (Call counter)) : Prop where
  held : ∀ call ∈ calls, ∀ value ∈ call.result,
    ∃ time, call.2.lower1 ≤ time ∧ time ≤ call.2.lower2 ∧ counter.value time = value
  nonDecreasing : (calls.filterMap Call.result).Pairwise (· ≤ ·)

/-- The upper half does not change before it is read. -/
def Reading.Steady (reading : Reading counter) : Prop :=
  counter.mtimeUpper reading.lower1 = counter.mtimeUpper reading.upper

/-! ## Readings -/

theorem Reading.bounds (reading : Reading counter) :
    counter.value reading.lower1 ≤ counter.value reading.upper ∧
      counter.value reading.upper ≤ counter.value reading.lower2 :=
  ⟨counter.mono reading.first_le, counter.mono reading.last_le⟩

/-- What is combined in a call. -/
def Reading.combined (reading : Reading counter) : Nat :=
  combine (counter.mtimeLower reading.lower1) (counter.mtimeUpper reading.upper)
    (counter.mtimeLower reading.lower2)

theorem Reading.Steady.combined_eq {reading : Reading counter} (steady : reading.Steady) :
    reading.combined = counter.value reading.lower2 := by
  have short := reading.short
  have bounds := reading.bounds
  have last := counter.value_lt reading.lower2
  rw [Reading.Steady, Counter.mtimeUpper, Counter.mtimeUpper] at steady
  rw [Reading.combined, combine, Counter.mtimeLower, Counter.mtimeUpper, Counter.mtimeLower]
  split
  · next carried => omega
  · next kept => omega

theorem Reading.combined_outside {reading : Reading counter} (torn : ¬ reading.Steady) :
    reading.combined < counter.value reading.lower1 ∨
      counter.value reading.lower2 < reading.combined := by
  have short := reading.short
  have bounds := reading.bounds
  rw [Reading.Steady, Counter.mtimeUpper, Counter.mtimeUpper] at torn
  have carried : counter.value reading.lower2 % 2 ^ 32 < counter.value reading.lower1 % 2 ^ 32 := by
    omega
  rw [Reading.combined, combine, Counter.mtimeLower, Counter.mtimeUpper, Counter.mtimeLower]
  rw [if_pos carried]
  omega

theorem Call.mem_result {call : Call counter} :
    value ∈ call.result ↔ call.1 = (0, 0, 0) ∧ value = call.2.combined := by
  obtain ⟨⟨lower1, upper, lower2⟩, reading⟩ := call
  rw [Call.result, hwReadClock]
  by_cases first : lower1 = 0
  · by_cases second : upper = 0
    · by_cases third : lower2 = 0
      · simp [first, second, third, Reading.combined, eq_comm]
      · simp [first, second, third]
    · simp [first, second]
  · simp [first]

/-- Values are held, and do not go back, if and only if in every call that succeeds the upper half
does not change between the first read and the second. -/
theorem tornFree_iff {calls : List (Call counter)} (inOrder : InOrder calls) :
    TornFree calls ↔ ∀ call ∈ calls, call.1 = (0, 0, 0) → call.2.Steady := by
  constructor
  · intro free call among succeeds
    by_contra torn
    obtain ⟨time, above, below, held⟩ :=
      free.held call among _ (Call.mem_result.mpr ⟨succeeds, rfl⟩)
    have low := counter.mono above
    have high := counter.mono below
    rcases Reading.combined_outside torn with outside | outside <;> omega
  · intro steady
    have value_eq : ∀ call ∈ calls, ∀ value ∈ call.result,
        value = counter.value call.2.lower2 := by
      intro call among value returned
      obtain ⟨succeeds, rfl⟩ := Call.mem_result.mp returned
      exact (steady call among succeeds).combined_eq
    constructor
    · intro call among value returned
      refine ⟨call.2.lower2, call.2.first_le.trans call.2.last_le, le_refl _, ?_⟩
      exact (value_eq call among value returned).symm
    · rw [List.pairwise_filterMap]
      refine inOrder.imp_of_mem fun {earlier later} first second order => ?_
      intro value returned other returns
      rw [value_eq earlier first value returned, value_eq later second other returns]
      exact counter.mono (order.trans (later.2.first_le.trans later.2.last_le))

/-! ## A counter that carries -/

/-- A counter that counts through its lower half at the beginning. -/
def carrying : Counter Nat where
  value := fun time => min (2 ^ 32 - 1 + time) (2 ^ 33)
  value_lt := fun time => (Nat.min_le_right _ _).trans_lt (by decide)
  mono := fun earlier later order => by
    dsimp only
    omega

/-- The upper half is read when it has counted on. -/
def late : Reading carrying where
  lower1 := 0
  upper := 1
  lower2 := 2
  first_le := by decide
  last_le := by decide
  short := by decide

/-- The upper half is read before it counts on. -/
def early : Reading carrying where
  lower1 := 0
  upper := 0
  lower2 := 2
  first_le := by decide
  last_le := by decide
  short := by decide

theorem tornFree_early : TornFree [((0, 0, 0), early)] :=
  (tornFree_iff (List.pairwise_singleton _ _)).mpr (by simp [Reading.Steady, early])

/-- A call in which the carry falls between the first two reads returns what was not held. -/
theorem not_tornFree_late : ¬ TornFree [((0, 0, 0), late)] := by
  intro free
  obtain ⟨time, -, below, held⟩ :=
    free.held _ List.mem_cons_self (2 ^ 33 + 1) (Call.mem_result.mpr ⟨rfl, by decide⟩)
  have bound : carrying.value time ≤ 2 ^ 33 := Nat.min_le_right _ _
  omega

end Hw
end Morse
