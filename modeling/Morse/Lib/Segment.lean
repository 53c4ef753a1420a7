import Mathlib.Data.List.Basic
import Mathlib.Tactic.Common

/-!
# Segments of a buffer

A buffer or an endless stream is a function of the position.  A segment is the
list of the items from a position on; overwriting a part of a buffer changes
that part of a segment and nothing else.
-/

namespace Lib

universe u

variable {α : Type u}

/-- So many items of a buffer from a position on. -/
def segment (buffer : Nat → α) (position count : Nat) : List α :=
  (List.range' position count).map buffer

@[simp] theorem length_segment (buffer : Nat → α) (position count : Nat) :
    (segment buffer position count).length = count := by
  rw [segment, List.length_map, List.length_range']

@[simp] theorem segment_zero (buffer : Nat → α) (position : Nat) :
    segment buffer position 0 = [] := rfl

theorem segment_add (buffer : Nat → α) (position first second : Nat) :
    segment buffer position (first + second) =
      segment buffer position first ++ segment buffer (position + first) second := by
  simp only [segment, ← List.map_append, List.range'_append_1]

theorem segment_congr {buffer other : Nat → α}
    (agree : ∀ index, position ≤ index → index < position + count →
      buffer index = other index) :
    segment buffer position count = segment other position count := by
  apply List.map_congr_left
  intro index inside
  obtain ⟨above, below⟩ := List.mem_range'_1.mp inside
  exact agree index above below

/-- Store some items in a buffer from a position on. -/
def overwrite (buffer : Nat → α) (position : Nat) (items : List α) : Nat → α :=
  fun index =>
    if index < position then buffer index else items[index - position]?.getD (buffer index)

theorem segment_overwrite_self (buffer : Nat → α) (position : Nat) (items : List α) :
    segment (overwrite buffer position items) position items.length = items := by
  apply List.ext_getElem (length_segment _ _ _)
  intro index below inside
  simp only [segment, overwrite, List.getElem_map, List.getElem_range', Nat.one_mul]
  rw [if_neg (by omega), Nat.add_sub_cancel_left, List.getElem?_eq_getElem inside,
    Option.getD_some]

theorem segment_overwrite_before (buffer : Nat → α) (position : Nat) (items : List α) :
    segment (overwrite buffer position items) 0 position = segment buffer 0 position := by
  apply segment_congr
  intro index _ below
  rw [overwrite, if_pos (by omega)]

theorem segment_overwrite_after (buffer : Nat → α) (position : Nat) (items : List α) (count : Nat) :
    segment (overwrite buffer position items) (position + items.length) count =
      segment buffer (position + items.length) count := by
  apply segment_congr
  intro index above _
  have outside : items[index - position]? = none :=
    List.getElem?_eq_none_iff.mpr (by omega)
  rw [overwrite, if_neg (by omega), outside, Option.getD_none]

theorem segment_overwrite (buffer : Nat → α) (position : Nat) (items : List α) (slack : Nat) :
    segment (overwrite buffer position items) 0 (position + (items.length + slack)) =
      segment buffer 0 position ++
        (items ++ segment buffer (position + items.length) slack) := by
  rw [segment_add, segment_overwrite_before, segment_add, Nat.zero_add,
    segment_overwrite_self, segment_overwrite_after]

theorem segment_filled (buffer : Nat → α) (position count padding : Nat) (filling : α) :
    segment (fun index => if index < count then buffer (position + index) else filling) 0
      (count + padding) =
      segment buffer position count ++ List.replicate padding filling := by
  rw [segment_add]
  congr 1
  · apply List.ext_getElem (by simp)
    intro index below inside
    rw [length_segment] at below
    simp [segment, below]
  · apply List.ext_getElem (by simp)
    intro index below inside
    have outside : ¬ count + index < count := by omega
    simp [segment, outside]

theorem take_drop_segment (buffer : Nat → α) (position count skipped length : Nat) :
    ((segment buffer position count).drop skipped).take length =
      segment buffer (position + skipped) (min length (count - skipped)) := by
  rw [segment, ← List.map_drop, ← List.map_take, List.drop_range', segment, Nat.mul_one]
  rcases Nat.le_total length (count - skipped) with shorter | longer
  · rw [List.take_range'_of_length_ge shorter, Nat.min_eq_left shorter]
  · rw [List.take_range'_of_length_le longer, Nat.min_eq_right longer]

end Lib
