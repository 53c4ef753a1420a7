import Morse.Lib.Layout
import Morse.Lib.Pieces

/-!
# Records in a row

Records of different lengths stand one behind the other, and a reader goes from one to the next by
the length that it finds.  Where the lengths are right, it visits the places of the records and no
others.
-/

namespace Lib

universe u

variable {α : Type u} {Record : Type u} {octets : Record → List α}

/-! ## Places -/

/-- The records with their places. -/
def placed (octets : Record → List α) : Nat → List Record → List (Nat × Record)
  | _, [] => []
  | start, record :: records =>
    (start, record) :: placed octets (start + (octets record).length) records

theorem map_snd_placed (start : Nat) (records : List Record) :
    (placed octets start records).map Prod.snd = records := by
  induction records generalizing start with
  | nil => rfl
  | cons first records ih => rw [placed, List.map_cons, ih]

theorem inside_of_mem_placed (member : (place, record) ∈ placed octets start records) :
    record ∈ records ∧ start ≤ place ∧
      place + (octets record).length ≤ start + (records.flatMap octets).length := by
  induction records generalizing start with
  | nil => exact absurd member List.not_mem_nil
  | cons first records ih =>
    rw [List.flatMap_cons, List.length_append]
    rcases List.mem_cons.mp member with same | later
    · cases same
      exact ⟨List.mem_cons_self, Nat.le_refl _, by omega⟩
    · obtain ⟨among, above, below⟩ := ih later
      exact ⟨List.mem_cons_of_mem _ among, by omega, by omega⟩

theorem exists_mem_placed (member : record ∈ records) (start : Nat) :
    ∃ place, (place, record) ∈ placed octets start records := by
  induction records generalizing start with
  | nil => exact absurd member List.not_mem_nil
  | cons first records ih =>
    rcases List.mem_cons.mp member with rfl | later
    · exact ⟨start, List.mem_cons_self⟩
    · obtain ⟨place, behind⟩ := ih later (start + (octets first).length)
      exact ⟨place, List.mem_cons_of_mem _ behind⟩

theorem exists_last_placed (nonempty : records ≠ []) (start : Nat) :
    ∃ place record, (place, record) ∈ placed octets start records ∧
      place + (octets record).length = start + (records.flatMap octets).length := by
  induction records generalizing start with
  | nil => exact absurd rfl nonempty
  | cons first records ih =>
    rw [List.flatMap_cons, List.length_append]
    by_cases last : records = []
    · subst last
      refine ⟨start, first, List.mem_cons_self, ?_⟩
      rw [List.flatMap_nil, List.length_nil, Nat.add_zero]
    · obtain ⟨place, record, behind, ends⟩ := ih last (start + (octets first).length)
      refine ⟨place, record, List.mem_cons_of_mem _ behind, ?_⟩
      omega

theorem segment_of_append {first second : List α}
    (stands : segment memory position (first ++ second).length = first ++ second) :
    segment memory position first.length = first ∧
      segment memory (position + first.length) second.length = second := by
  rw [List.length_append, segment_add] at stands
  exact List.append_inj stands (length_segment _ _ _)

theorem segment_of_mem_placed
    (stand : segment memory start (records.flatMap octets).length = records.flatMap octets)
    (member : (place, record) ∈ placed octets start records) :
    segment memory place (octets record).length = octets record := by
  induction records generalizing start with
  | nil => exact absurd member List.not_mem_nil
  | cons first records ih =>
    rw [List.flatMap_cons] at stand
    obtain ⟨here, behind⟩ := segment_of_append stand
    rcases List.mem_cons.mp member with same | later
    · cases same
      exact here
    · exact ih behind later

theorem segment_of_width {records : List Record} (each : ∀ record, (octets record).length = width)
    (stand : segment memory start (records.flatMap octets).length = records.flatMap octets)
    (inside : index < records.length) :
    segment memory (start + width * index) width = octets records[index] := by
  induction records generalizing start index with
  | nil => exact absurd inside (Nat.not_lt_zero _)
  | cons first records ih =>
    rw [List.flatMap_cons] at stand
    obtain ⟨here, behind⟩ := segment_of_append stand
    rw [each] at here behind
    cases index with
    | zero => exact here
    | succ index =>
      rw [Nat.mul_succ, Nat.add_comm (width * index), ← Nat.add_assoc]
      exact ih behind (Nat.lt_of_succ_lt_succ inside)

theorem tiles_placed_iff (positive : ∀ record, 0 < (octets record).length) (length : Nat → Nat)
    (records : List Record) (start : Nat) :
    Tiles start (start + (records.flatMap octets).length)
        ((placed octets start records).map fun piece => (piece.1, length piece.1)) ↔
      ∀ piece ∈ placed octets start records, length piece.1 = (octets piece.2).length := by
  induction records generalizing start with
  | nil => exact iff_of_true rfl fun _ inside => absurd inside List.not_mem_nil
  | cons first records ih =>
    rw [placed, List.map_cons, Tiles, List.forall_mem_cons, List.flatMap_cons,
      List.length_append, ← Nat.add_assoc]
    constructor
    · rintro ⟨_, _, rest⟩
      have here : length start = (octets first).length := by
        cases records with
        | nil =>
          rw [placed, List.map_nil, List.flatMap_nil, List.length_nil] at rest
          have last : start + length start = start + (octets first).length + 0 := rest
          omega
        | cons second records =>
          rw [placed, List.map_cons] at rest
          have next := rest.1
          dsimp only at next
          omega
      rw [here] at rest
      exact ⟨here, (ih _).mp rest⟩
    · rintro ⟨here, rest⟩
      rw [here]
      exact ⟨rfl, positive first, (ih _).mpr rest⟩

/-! ## Visits -/

/-- A reader goes on from place to place as long as it is below the end. -/
def visits (advance : Nat → Nat) (stop : Nat) : Nat → Nat → List Nat
  | 0, _ => []
  | fuel + 1, place =>
    if place < stop then place :: visits advance stop fuel (advance place) else []

theorem le_of_mem_visits (goesOn : ∀ place, place < stop → place ≤ advance place)
    (among : visited ∈ visits advance stop fuel place) :
    place ≤ visited := by
  induction fuel generalizing place with
  | zero => exact absurd among List.not_mem_nil
  | succ fuel ih =>
    unfold visits at among
    split at among
    · next below =>
        rcases List.mem_cons.mp among with rfl | later
        · exact Nat.le_refl _
        · exact (goesOn place below).trans (ih later)
    · exact absurd among List.not_mem_nil

theorem eq_advance_of_visits (second : (visits advance stop fuel place)[1]? = some next) :
    next = advance place := by
  cases fuel with
  | zero => cases second
  | succ fuel =>
    unfold visits at second
    split at second
    · cases fuel with
      | zero => cases second
      | succ fuel =>
        rw [List.getElem?_cons_succ] at second
        unfold visits at second
        split at second <;> cases second
        rfl
    · cases second

theorem visits_eq_placed (positive : ∀ record, 0 < (octets record).length) {advance : Nat → Nat}
    {records : List Record} {start fuel : Nat}
    (finds : ∀ piece ∈ placed octets start records,
      advance piece.1 = piece.1 + (octets piece.2).length)
    (enough : (records.flatMap octets).length < fuel) :
    visits advance (start + (records.flatMap octets).length) fuel start =
      (placed octets start records).map Prod.fst := by
  induction records generalizing start fuel with
  | nil =>
    obtain ⟨fuel, rfl⟩ : ∃ more, fuel = more + 1 := ⟨fuel - 1, by omega⟩
    unfold visits
    exact if_neg (Nat.lt_irrefl _)
  | cons first records ih =>
    obtain ⟨here, rest⟩ := List.forall_mem_cons.mp finds
    have size := positive first
    rw [List.flatMap_cons, List.length_append] at enough ⊢
    obtain ⟨fuel, rfl⟩ : ∃ more, fuel = more + 1 := ⟨fuel - 1, by omega⟩
    unfold visits
    rw [if_pos (by omega), here, ← Nat.add_assoc, ih rest (by omega)]
    rfl

end Lib
