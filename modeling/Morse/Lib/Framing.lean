import Mathlib.Data.List.Basic
import Mathlib.Tactic.Common

/-!
# Splitting a stream into frames

A splitter takes the first frame off a list, or finds none.  Where it looks at
no more than the frame it takes, the frames of a stream are those of its parts.
-/

namespace Lib

universe u v

variable {α : Type u} {β : Type v}

/-- A splitter consumes something of the list, and what follows the frame it
takes is of no account. -/
structure Splitter (next : List α → Option (β × List α)) : Prop where
  shorter : ∀ {items frame rest}, next items = some (frame, rest) → rest.length < items.length
  stable : ∀ {items frame rest}, next items = some (frame, rest) →
    ∀ more, next (items ++ more) = some (frame, rest ++ more)

variable (next : List α → Option (β × List α))

/-- At most so many frames from the front of a list, and what is left. -/
def framesWithin : Nat → List α → List β × List α
  | 0, items => ([], items)
  | fuel + 1, items =>
    match next items with
    | none => ([], items)
    | some (frame, rest) =>
      (frame :: (framesWithin fuel rest).1, (framesWithin fuel rest).2)

/-- All frames from the front of a list, and what is left. -/
def frames (items : List α) : List β × List α := framesWithin next items.length items

variable {next}

theorem framesWithin_of_none (none : next items = none) (fuel : Nat) :
    framesWithin next fuel items = ([], items) := by
  cases fuel with
  | zero => rfl
  | succ fuel => simp only [framesWithin, none]

theorem framesWithin_congr (splitter : Splitter next) (enough : items.length ≤ fuel)
    (otherEnough : items.length ≤ other) :
    framesWithin next fuel items = framesWithin next other items := by
  induction fuel generalizing items other with
  | zero =>
    cases found : next items with
    | none => rw [framesWithin_of_none found, framesWithin_of_none found]
    | some split =>
      have shorter := splitter.shorter found
      omega
  | succ fuel ih =>
    cases found : next items with
    | none => rw [framesWithin_of_none found, framesWithin_of_none found]
    | some split =>
      have shorter := splitter.shorter found
      cases other with
      | zero => omega
      | succ other =>
        have same : framesWithin next fuel split.2 = framesWithin next other split.2 :=
          ih (by omega) (by omega)
        simp only [framesWithin, found, same]

theorem frames_of_none (none : next items = none) :
    frames next items = ([], items) :=
  framesWithin_of_none none _

theorem frames_of_some (splitter : Splitter next) (found : next items = some (frame, rest)) :
    frames next items = (frame :: (frames next rest).1, (frames next rest).2) := by
  have shorter := splitter.shorter found
  obtain ⟨fuel, exact⟩ : ∃ fuel, items.length = fuel + 1 := ⟨items.length - 1, by omega⟩
  have same : framesWithin next fuel rest = frames next rest :=
    framesWithin_congr splitter (by omega) (Nat.le_refl _)
  rw [frames, exact]
  simp only [framesWithin, found, same]

theorem frames_append (splitter : Splitter next) (items more : List α) :
    frames next (items ++ more) =
      ((frames next items).1 ++ (frames next ((frames next items).2 ++ more)).1,
        (frames next ((frames next items).2 ++ more)).2) := by
  induction length : items.length using Nat.strongRecOn generalizing items with
  | ind length ih =>
    cases found : next items with
    | none => rw [frames_of_none found, List.nil_append]
    | some split =>
      have shorter := splitter.shorter found
      rw [frames_of_some splitter found,
        frames_of_some splitter (splitter.stable found more),
        ih _ (by omega) split.2 rfl]
      rfl

end Lib
