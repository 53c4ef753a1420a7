import Mathlib.Data.List.Basic
import Mathlib.Tactic.Common

/-!
# Partial memories

A partial memory maps some indices to items and faults on all others.  A reader
of a finite buffer is run on the memory of exactly that buffer, so that its
result shows whether it stayed inside.  Memories are ordered by extension: what
a monotone reader finds in a small memory it finds in every larger one.
-/

namespace Lib

/-- Memory behind a pointer: the items that may be read are mapped. -/
abbrev Memory (α : Type _) := Nat → Option α

namespace Memory

/-- The memory of a finite buffer. -/
def ofList (items : List α) : Memory α := fun index => items[index]?

/-- The memory of a buffer all of whose items may be read. -/
def ofFun (items : Nat → α) : Memory α := fun index => some (items index)

/-- The items of a buffer below a limit, and nothing at or past it. -/
def below (items : Nat → α) (limit : Nat) : Memory α :=
  fun index => if index < limit then some (items index) else none

/-- Pointer arithmetic on a memory. -/
def shift (memory : Memory α) (base : Nat) : Memory α :=
  fun index => memory (base + index)

@[simp] theorem shift_apply (memory : Memory α) (base index : Nat) :
    memory.shift base index = memory (base + index) := rfl

@[simp] theorem shift_shift (memory : Memory α) (first second : Nat) :
    (memory.shift first).shift second = memory.shift (first + second) := by
  funext index
  simp [shift, Nat.add_assoc]

@[simp] theorem shift_ofList (items : List α) (base : Nat) :
    (ofList items).shift base = ofList (items.drop base) := by
  funext index
  rw [shift_apply, ofList, ofList, List.getElem?_drop]

/-- Every item of the list is mapped, from index zero on. -/
def Covers (memory : Memory α) (items : List α) : Prop :=
  ∀ index, index < items.length → memory index = items[index]?

theorem covers_ofList (items : List α) : (ofList items).Covers items :=
  fun _ _ => rfl

@[simp] theorem covers_nil (memory : Memory α) : memory.Covers [] := by
  intro index inside
  simp at inside

theorem covers_cons {memory : Memory α} :
    memory.Covers (item :: items) ↔
      memory 0 = some item ∧ (memory.shift 1).Covers items := by
  constructor
  · intro covers
    refine ⟨by simpa using covers 0 (by simp), fun index inside => ?_⟩
    have mapped := covers (1 + index) (by simp; omega)
    rw [shift_apply, mapped, Nat.add_comm, List.getElem?_cons_succ]
  · rintro ⟨head, tail⟩ index inside
    cases index with
    | zero => simpa using head
    | succ index =>
      have mapped := tail index (by simpa using inside)
      rw [shift_apply, Nat.add_comm] at mapped
      rw [mapped, List.getElem?_cons_succ]

theorem covers_append {memory : Memory α} :
    memory.Covers (first ++ second) ↔
      memory.Covers first ∧ (memory.shift first.length).Covers second := by
  induction first generalizing memory with
  | nil =>
    have shifted : memory.shift 0 = memory := by
      funext index
      simp [shift]
    simp [shifted]
  | cons item first inductionHypothesis =>
    rw [List.cons_append, covers_cons, covers_cons, inductionHypothesis, shift_shift,
      and_assoc, List.length_cons, Nat.add_comm 1]

/-- The second memory maps all that the first one maps, to the same items. -/
def Extends (memory larger : Memory α) : Prop :=
  ∀ index item, memory index = some item → larger index = some item

theorem Extends.shift {memory larger : Memory α} (extended : memory.Extends larger) (base : Nat) :
    (memory.shift base).Extends (larger.shift base) :=
  fun index => extended (base + index)

theorem below_extends {items others : Nat → α}
    (agree : ∀ index, index < limit → items index = others index) :
    (below items limit).Extends (ofFun others) := by
  intro index item mapped
  unfold below at mapped
  split at mapped
  · rename_i inside
    rw [ofFun, ← agree index inside]
    exact mapped
  · cases mapped

end Memory
end Lib
