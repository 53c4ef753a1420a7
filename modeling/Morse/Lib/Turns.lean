import Mathlib.Data.Nat.Init

/-!
# A loop that takes turns until one of them ends it

A turn is given its number and the state that the turns before it left, and either ends the loop
or leaves a state for the next one.  What the turns keep holds as long as the loop goes on, and a
loop that never ends has a state before every turn.
-/

namespace Lib

universe u v

variable {State : Type u} {End : Type v} {turn : Nat → State → End ⊕ State}
variable {start : State} {count : Nat}

/-- The loop after so many turns: how it ended, or the state for the next turn. -/
def afterTurns (turn : Nat → State → End ⊕ State) (start : State) : Nat → End ⊕ State
  | 0 => .inr start
  | count + 1 =>
    match afterTurns turn start count with
    | .inl ending => .inl ending
    | .inr state => turn count state

theorem afterTurns_succ (goes : afterTurns turn start count = .inr state) :
    afterTurns turn start (count + 1) = turn count state := by
  rw [afterTurns, goes]

theorem before_of_afterTurns (goes : afterTurns turn start (count + 1) = .inr after) :
    ∃ before, afterTurns turn start count = .inr before ∧ turn count before = .inr after := by
  rw [afterTurns] at goes
  cases earlier : afterTurns turn start count with
  | inl ending =>
    rw [earlier] at goes
    cases goes
  | inr before =>
    rw [earlier] at goes
    exact ⟨before, rfl, goes⟩

theorem afterTurns_invariant {Inv : Nat → State → Prop} (initial : Inv 0 start)
    (preserved : ∀ count before after, Inv count before → turn count before = .inr after →
      Inv (count + 1) after)
    {state : State}
    (goes : afterTurns turn start count = .inr state) :
    Inv count state := by
  induction count generalizing state with
  | zero =>
    cases goes
    exact initial
  | succ count ih =>
    obtain ⟨before, earlier, taken⟩ := before_of_afterTurns goes
    exact preserved count before state (ih earlier) taken

theorem turn_of_afterTurns (ended : afterTurns turn start count = .inl ending) :
    ∃ last before, last < count ∧ afterTurns turn start last = .inr before ∧
      turn last before = .inl ending := by
  induction count with
  | zero => cases ended
  | succ count ih =>
    rw [afterTurns] at ended
    cases earlier : afterTurns turn start count with
    | inl first =>
      rw [earlier] at ended
      cases ended
      obtain ⟨last, before, early, found⟩ := ih earlier
      exact ⟨last, before, Nat.lt_succ_of_lt early, found⟩
    | inr before =>
      rw [earlier] at ended
      exact ⟨count, before, Nat.lt_succ_self count, earlier, ended⟩

theorem goes_of_le (before : earlier ≤ count) (goes : afterTurns turn start count = .inr after) :
    ∃ state, afterTurns turn start earlier = .inr state := by
  obtain ⟨extra, rfl⟩ := Nat.exists_eq_add_of_le before
  clear before
  induction extra generalizing after with
  | zero => exact ⟨after, goes⟩
  | succ extra ih =>
    obtain ⟨state, found, -⟩ := before_of_afterTurns goes
    exact ih found

theorem goes_of_not_ended (never : ∀ count ending, afterTurns turn start count ≠ .inl ending)
    (count : Nat) :
    ∃ state, afterTurns turn start count = .inr state := by
  cases found : afterTurns turn start count with
  | inl ending => exact absurd found (never count ending)
  | inr state => exact ⟨state, rfl⟩

end Lib
