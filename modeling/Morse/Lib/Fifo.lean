import Mathlib.Data.List.Basic
import Mathlib.Tactic.Common

/-!
# Bounded first-in first-out queues

A queue that holds no more than its capacity.  Putting an item into a full
queue fails, as does getting one from an empty queue.
-/

namespace Lib

universe u

/-- A queue of at most `capacity` items. -/
structure Fifo (α : Type u) (capacity : Nat) where
  items : List α
  length_le : items.length ≤ capacity

namespace Fifo

variable {α : Type u} {capacity : Nat}

@[ext] theorem ext {fifo other : Fifo α capacity} (items : fifo.items = other.items) :
    fifo = other := by
  cases fifo
  cases items
  rfl

/-- The empty queue. -/
def empty : Fifo α capacity where
  items := []
  length_le := Nat.zero_le _

/-- The number of items in the queue. -/
def len (fifo : Fifo α capacity) : Nat := fifo.items.length

/-- Add an item at the end, if there is room. -/
def put (fifo : Fifo α capacity) (item : α) : Option (Fifo α capacity) :=
  if room : fifo.len < capacity then
    some ⟨fifo.items ++ [item], by
      rw [List.length_append, List.length_singleton]
      exact room⟩
  else none

/-- Take the first item, if there is one. -/
def get (fifo : Fifo α capacity) : Option (α × Fifo α capacity) :=
  match kept : fifo.items with
  | [] => none
  | item :: rest =>
    some (item, ⟨rest, by
      have bound := fifo.length_le
      rw [kept, List.length_cons] at bound
      omega⟩)

theorem put_of_lt {fifo : Fifo α capacity} (room : fifo.len < capacity) (item : α) :
    ∃ after, fifo.put item = some after ∧ after.items = fifo.items ++ [item] :=
  ⟨_, dif_pos room, rfl⟩

theorem put_of_full {fifo : Fifo α capacity} (full : ¬ fifo.len < capacity) (item : α) :
    fifo.put item = none :=
  dif_neg full

theorem get_eq_none {fifo : Fifo α capacity} (none : fifo.get = none) : fifo.items = [] := by
  unfold get at none
  split at none
  · assumption
  · cases none

theorem get_eq_some {fifo after : Fifo α capacity} (taken : fifo.get = some (item, after)) :
    fifo.items = item :: after.items := by
  unfold get at taken
  split at taken
  · cases taken
  · next kept =>
      cases taken
      exact kept

theorem get_of_pos {fifo : Fifo α capacity} (positive : 0 < fifo.len) :
    ∃ item after, fifo.get = some (item, after) := by
  cases taken : fifo.get with
  | none =>
    have nothing := get_eq_none taken
    rw [len, nothing] at positive
    cases positive
  | some split => exact ⟨split.1, split.2, rfl⟩

theorem len_lt_of_get {fifo after : Fifo α capacity} (taken : fifo.get = some (item, after)) :
    after.len < capacity := by
  have bound := fifo.length_le
  rw [get_eq_some taken] at bound
  exact bound

end Fifo
end Lib
