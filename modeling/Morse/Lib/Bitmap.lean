import Mathlib.Data.List.Range
import Mathlib.Data.List.Sort
import Morse.Lib.Bits

/-!
# Sets of numbers kept as bitmaps

A family of `w`-bit vectors keeps a set of numbers: number `n` is bit `n % w`
of entry `n / w`.  A listing reads the numbers of a range of entries back in
ascending order.  Two codecs of one set are compared by their listings.
-/

namespace Lib

variable {w : Nat}

/-- The numbers that one entry of a bitmap keeps, in ascending order. -/
def entryListing (index : Nat) (vector : BitVec w) : List Nat :=
  ((List.range w).filter (vector.getLsbD ·)).map (w * index + ·)

/-- The numbers that `count` entries of a bitmap keep, in ascending order. -/
def listing (family : Nat → BitVec w) (start count : Nat) : List Nat :=
  (List.range' start count).flatMap fun index => entryListing index (family index)

theorem mem_entryListing {vector : BitVec w} :
    number ∈ entryListing index vector ↔
      0 < w ∧ number / w = index ∧ vector.getLsbD (number % w) = true := by
  simp only [entryListing, List.mem_map, List.mem_filter, List.mem_range]
  constructor
  · rintro ⟨bit, ⟨inside, set⟩, rfl⟩
    have positive : 0 < w := by omega
    refine ⟨positive, ?_, ?_⟩
    · rw [Nat.mul_add_div positive, Nat.div_eq_of_lt inside, Nat.add_zero]
    · rwa [Nat.mul_add_mod, Nat.mod_eq_of_lt inside]
  · rintro ⟨positive, rfl, set⟩
    exact ⟨number % w, ⟨Nat.mod_lt number positive, set⟩, Nat.div_add_mod number w⟩

@[simp] theorem entryListing_zero (index : Nat) :
    entryListing index (0 : BitVec w) = [] := by
  simp [entryListing]

theorem mem_listing {family : Nat → BitVec w} :
    number ∈ listing family start count ↔
      0 < w ∧ start ≤ number / w ∧ number / w < start + count ∧
        (family (number / w)).getLsbD (number % w) = true := by
  simp only [listing, List.mem_flatMap, List.mem_range'_1, mem_entryListing]
  constructor
  · rintro ⟨_, ⟨above, below⟩, positive, rfl, set⟩
    exact ⟨positive, above, below, set⟩
  · rintro ⟨positive, above, below, set⟩
    exact ⟨number / w, ⟨above, below⟩, positive, rfl, set⟩

@[simp] theorem listing_zero_count (family : Nat → BitVec w) (start : Nat) :
    listing family start 0 = [] := rfl

theorem listing_one (family : Nat → BitVec w) (start : Nat) :
    listing family start 1 = entryListing start (family start) := by
  simp [listing, List.range']

theorem listing_add (family : Nat → BitVec w) (start first second : Nat) :
    listing family start (first + second) =
      listing family start first ++ listing family (start + first) second := by
  rw [listing, ← List.range'_append_1, List.flatMap_append]
  rfl

theorem listing_congr {family other : Nat → BitVec w}
    (agree : ∀ index, start ≤ index → index < start + count → family index = other index) :
    listing family start count = listing other start count := by
  apply List.flatMap_congr
  intro index inside
  rw [List.mem_range'_1] at inside
  rw [agree index inside.1 inside.2]

theorem listing_eq_nil {family : Nat → BitVec w}
    (zero : ∀ index, start ≤ index → index < start + count → family index = 0) :
    listing family start count = [] := by
  rw [listing, List.flatMap_eq_nil_iff]
  intro index inside
  rw [List.mem_range'_1] at inside
  rw [zero index inside.1 inside.2, entryListing_zero]

theorem listing_skip {family : Nat → BitVec w} {start later stop : Nat} (forward : start ≤ later)
    (within : later ≤ stop) (zero : ∀ index, start ≤ index → index < later → family index = 0) :
    listing family start (stop - start) = listing family later (stop - later) := by
  have split : stop - start = (later - start) + (stop - later) := by omega
  rw [split, listing_add, listing_eq_nil, List.nil_append, Nat.add_sub_cancel' forward]
  intro index above below
  exact zero index above (by omega)

theorem pairwise_entryListing (index : Nat) (vector : BitVec w) :
    (entryListing index vector).Pairwise (· < ·) := by
  rw [entryListing, List.pairwise_map]
  refine (List.pairwise_lt_range.filter _).imp ?_
  intro first second ordered
  exact Nat.add_lt_add_left ordered _

theorem pairwise_listing (family : Nat → BitVec w) (start count : Nat) :
    (listing family start count).Pairwise (· < ·) := by
  induction count generalizing start with
  | zero => exact List.Pairwise.nil
  | succ count inductionHypothesis =>
    rw [Nat.add_comm, listing_add, listing_one, List.pairwise_append]
    refine ⟨pairwise_entryListing _ _, inductionHypothesis _, ?_⟩
    intro first inEntry second inRest
    obtain ⟨positive, at_start, _⟩ := mem_entryListing.mp inEntry
    obtain ⟨_, above, _⟩ := mem_listing.mp inRest
    by_contra reversed
    have ordered : second / w ≤ first / w := Nat.div_le_div_right (Nat.not_lt.mp reversed)
    omega

theorem flatMap_filter_of_nil {family : Nat → BitVec w} {place : Nat → Nat} {keep : Nat → Bool}
    {positions : List Nat}
    (dropped : ∀ position ∈ positions, keep position = false →
      entryListing (place position) (family position) = []) :
    ((positions.filter keep).flatMap fun position =>
        entryListing (place position) (family position)) =
      positions.flatMap fun position => entryListing (place position) (family position) := by
  induction positions with
  | nil => rfl
  | cons position positions inductionHypothesis =>
    have rest := inductionHypothesis fun other listed =>
      dropped other (List.mem_cons_of_mem position listed)
    cases kept : keep position with
    | true => simp [kept, rest]
    | false => simp [kept, rest, dropped position List.mem_cons_self kept]

theorem listing_eq_flatMap_range (family : Nat → BitVec w) (start count : Nat) :
    listing family start count =
      (List.range count).flatMap fun distance =>
        entryListing (start + distance) (family (start + distance)) := by
  rw [listing, List.range'_eq_map_range, List.flatMap_map]

theorem filter_range_of_le (within : count ≤ bound) (keep : Nat → Bool) :
    (List.range count).filter keep =
      (List.range bound).filter fun position => decide (position < count) && keep position := by
  obtain ⟨excess, rfl⟩ := Nat.exists_eq_add_of_le within
  have beyond : (((List.range excess).map (count + ·)).filter fun position =>
      decide (position < count) && keep position) = [] := by
    rw [List.filter_eq_nil_iff]
    intro position listed
    obtain ⟨distance, _, rfl⟩ := List.mem_map.mp listed
    simp
  rw [List.range_add, List.filter_append, beyond, List.append_nil]
  apply List.filter_congr
  intro position inside
  simp [List.mem_range.mp inside]

end Lib
