import Mathlib.Data.List.Basic
import Mathlib.Tactic.Common

/-!
# Work in pieces

A range is cut into pieces that lie one behind the other, and these are worked off in turn until
one fails.  Pieces of pieces tile the range again, and then each place of it is covered once.
-/

namespace Lib

universe u v w

/-! ## Tilings -/

/-- Pieces, each a start and a length, lie one behind the other and fill a range. -/
def Tiles : Nat → Nat → List (Nat × Nat) → Prop
  | start, stop, [] => start = stop
  | start, stop, piece :: pieces =>
    piece.1 = start ∧ 0 < piece.2 ∧ Tiles (start + piece.2) stop pieces

/-- A place lies in a piece. -/
def covers (place : Nat) (piece : Nat × Nat) : Bool :=
  decide (piece.1 ≤ place ∧ place < piece.1 + piece.2)

theorem Tiles.le (tiles : Tiles start stop pieces) :
    start ≤ stop := by
  induction pieces generalizing start with
  | nil => exact Nat.le_of_eq tiles
  | cons piece pieces ih =>
    have rest := ih tiles.2.2
    omega

theorem Tiles.inside (tiles : Tiles start stop pieces) (member : piece ∈ pieces) :
    start ≤ piece.1 ∧ 0 < piece.2 ∧ piece.1 + piece.2 ≤ stop := by
  induction pieces generalizing start with
  | nil => cases member
  | cons first pieces ih =>
    obtain ⟨here, positive, rest⟩ := tiles
    rcases List.mem_cons.mp member with rfl | later
    · have bound := rest.le
      exact ⟨Nat.le_of_eq here.symm, positive, by omega⟩
    · obtain ⟨above, some, below⟩ := ih rest later
      exact ⟨by omega, some, below⟩

theorem Tiles.append (left : Tiles start middle first) (right : Tiles middle stop second) :
    Tiles start stop (first ++ second) := by
  induction first generalizing start with
  | nil =>
    obtain rfl := left
    exact right
  | cons piece first ih => exact ⟨left.1, left.2.1, ih left.2.2⟩

theorem Tiles.countP_covers (tiles : Tiles start stop pieces) (place : Nat) :
    pieces.countP (covers place) = if start ≤ place ∧ place < stop then 1 else 0 := by
  induction pieces generalizing start with
  | nil =>
    obtain rfl := tiles
    rw [if_neg (by omega), List.countP_nil]
  | cons piece pieces ih =>
    obtain ⟨here, positive, rest⟩ := tiles
    have bound := rest.le
    rw [List.countP_cons, ih rest, covers]
    by_cases inside : piece.1 ≤ place ∧ place < piece.1 + piece.2
    · have behind : ¬ (start + piece.2 ≤ place ∧ place < stop) := by omega
      have within : start ≤ place ∧ place < stop := by omega
      rw [if_neg behind, if_pos (decide_eq_true inside), if_pos within]
    · have same : start + piece.2 ≤ place ∧ place < stop ↔ start ≤ place ∧ place < stop := by
        omega
      have outside : ¬ decide (piece.1 ≤ place ∧ place < piece.1 + piece.2) = true :=
        fun covered => inside (of_decide_eq_true covered)
      rw [if_neg outside]
      exact if_congr same rfl rfl

/-! ## Working them off -/

section InTurn

variable {Item : Type u} {State : Type v} {Event : Type w}

/-- How far some work got: whether all of it is done, the state then and what happened. -/
structure Progress (State : Type v) (Event : Type w) where
  done : Bool
  state : State
  events : List Event

/-- Items are worked off one after the other until one fails. -/
def inTurn (one : Item → State → Progress State Event) :
    List Item → State → Progress State Event
  | [], state => ⟨true, state, []⟩
  | item :: items, state =>
    let first := one item state
    if first.done then
      let rest := inTurn one items first.state
      ⟨rest.done, rest.state, first.events ++ rest.events⟩
    else first

variable {one : Item → State → Progress State Event}

@[simp] theorem inTurn_singleton (item : Item) (state : State) :
    inTurn one [item] state = one item state := by
  dsimp only [inTurn]
  split
  · next done =>
      rw [List.append_nil, ← done]
  · rfl

theorem inTurn_invariant {Holds : State → Prop} {Good : Event → Prop}
    (each : ∀ item, item ∈ items → ∀ state, Holds state →
      Holds (one item state).state ∧ ∀ event, event ∈ (one item state).events → Good event)
    (holds : Holds state) :
    Holds (inTurn one items state).state ∧
      ∀ event, event ∈ (inTurn one items state).events → Good event := by
  induction items generalizing state with
  | nil => exact ⟨holds, fun event member => absurd member List.not_mem_nil⟩
  | cons item items ih =>
    obtain ⟨kept, good⟩ := each item List.mem_cons_self state holds
    obtain ⟨last, others⟩ := ih
      (fun other member => each other (List.mem_cons_of_mem _ member)) kept
    rw [inTurn]
    split
    · refine ⟨last, fun event member => ?_⟩
      rcases List.mem_append.mp member with here | later
      · exact good event here
      · exact others event later
    · exact ⟨kept, good⟩

theorem inTurn_tiles {one : Nat × Nat → State → Progress State Event}
    {piece : Event → Option (Nat × Nat)} {pieces : List (Nat × Nat)} {start stop distance : Nat}
    (tiles : Tiles start stop pieces)
    (each : ∀ item, item ∈ pieces → ∀ state, (one item state).done = true →
      Tiles (distance + item.1) (distance + item.1 + item.2)
        ((one item state).events.filterMap piece))
    {state : State}
    (done : (inTurn one pieces state).done = true) :
    Tiles (distance + start) (distance + stop)
      ((inTurn one pieces state).events.filterMap piece) := by
  induction pieces generalizing start state with
  | nil =>
    obtain rfl := tiles
    rfl
  | cons item pieces ih =>
    obtain ⟨here, -, rest⟩ := tiles
    rw [inTurn] at done ⊢
    split at done
    · next worked =>
        have first := each item List.mem_cons_self state worked
        rw [here, Nat.add_assoc] at first
        rw [if_pos worked, List.filterMap_append]
        exact first.append (ih rest
          (fun other member => each other (List.mem_cons_of_mem _ member)) done)
    · next failed => exact absurd done failed

end InTurn

end Lib
