import Mathlib.Data.Int.GCD
import Mathlib.Tactic.Linarith
import Mathlib.Tactic.Ring

/-!
# Services repeated at an interval

A service occupies a duration from its start, and again at every interval after
it.  Two services of one interval stay apart when each ends before the other's
next occurrence.  Services of two intervals slide along each other by multiples
of the greatest common divisor of the intervals, so that they are compared
modulo that.
-/

namespace Lib

/-- A duration that is occupied from a start on, and again at every interval. -/
structure Service where
  start : Nat
  duration : Nat
  interval : Nat
  deriving DecidableEq, Repr

namespace Service

/-- The times at which a service occupies the medium. -/
def Busy (service : Service) (time : Nat) : Prop :=
  ∃ turn, service.start + turn * service.interval ≤ time ∧
    time < service.start + turn * service.interval + service.duration

/-- Two services occupy one time. -/
def Meets (first second : Service) : Prop :=
  ∃ time, first.Busy time ∧ second.Busy time

theorem Meets.symm (meets : Meets first second) :
    Meets second first := by
  obtain ⟨time, firstBusy, secondBusy⟩ := meets
  exact ⟨time, secondBusy, firstBusy⟩

/-- The first service ends before the second begins, and the second before the
first comes again. -/
def Follows (first second : Service) : Prop :=
  first.start + first.duration ≤ second.start ∧
    second.start + second.duration ≤ first.start + first.interval

theorem Follows.not_meets (follows : Follows first second)
    (equal : first.interval = second.interval) :
    ¬ Meets first second := by
  obtain ⟨before, returns⟩ := follows
  rintro ⟨time, ⟨firstTurn, firstFrom, firstTo⟩, secondTurn, secondFrom, secondTo⟩
  rw [← equal] at secondFrom secondTo
  rcases Nat.lt_or_ge secondTurn firstTurn with later | earlier
  · have turns : (secondTurn + 1) * first.interval ≤ firstTurn * first.interval :=
      Nat.mul_le_mul_right _ later
    rw [Nat.add_mul] at turns
    omega
  · have turns : firstTurn * first.interval ≤ secondTurn * first.interval :=
      Nat.mul_le_mul_right _ earlier
    omega

/-- There is room for a service after a row: before the next service, or before
the first of the row comes again. -/
def RoomFor (new : Service) (row : List Service) : List Service → Prop
  | [] => ∃ first, row.head? = some first ∧ new.start + new.duration ≤ first.start + new.interval
  | next :: _ => new.start + new.duration ≤ next.start

theorem pairwise_follows_insert (row : (front ++ before :: back).Pairwise Follows)
    (equal : ∀ service ∈ front ++ before :: back, service.interval = new.interval)
    (starts : before.start + before.duration ≤ new.start)
    (room : RoomFor new (front ++ [before]) back) :
    (front ++ before :: new :: back).Pairwise Follows := by
  obtain ⟨frontRow, rest, across⟩ := List.pairwise_append.mp row
  obtain ⟨beforeBack, backRow⟩ := List.pairwise_cons.mp rest
  have ahead : ∀ service ∈ front, service.start ≤ before.start ∧
      service.start + service.duration ≤ before.start := by
    intro service member
    have follows := (across service member before List.mem_cons_self).1
    omega
  -- the new service ends before any service ahead of it comes again
  have returns : ∀ service, service ∈ front ∨ service = before →
      new.start + new.duration ≤ service.start + service.interval := by
    intro service which
    have interval : service.interval = new.interval := by
      rcases which with member | rfl
      · exact equal service (List.mem_append_left _ member)
      · exact equal service (by simp)
    cases back with
    | nil =>
      obtain ⟨first, head, fits⟩ := room
      have earliest : first.start ≤ service.start := by
        cases front with
        | nil =>
          cases head
          rcases which with member | rfl
          · cases member
          · exact Nat.le_refl _
        | cons other front =>
          cases head
          rcases which with member | rfl
          · rcases List.mem_cons.mp member with rfl | member
            · exact Nat.le_refl _
            · have follows := ((List.pairwise_cons.mp frontRow).1 service member).1
              omega
          · exact (ahead first List.mem_cons_self).1
      omega
    | cons next back =>
      have follows : Follows service next := by
        rcases which with member | rfl
        · exact across service member next (by simp)
        · exact beforeBack next List.mem_cons_self
      have bound := follows.2
      have fits : new.start + new.duration ≤ next.start := room
      omega
  -- and before any service behind it begins
  have precedes : ∀ service ∈ back, new.start + new.duration ≤ service.start := by
    intro service member
    cases back with
    | nil => cases member
    | cons next back =>
      have fits : new.start + new.duration ≤ next.start := room
      rcases List.mem_cons.mp member with rfl | member
      · exact fits
      · have follows := ((List.pairwise_cons.mp backRow).1 service member).1
        omega
  refine List.pairwise_append.mpr ⟨frontRow, List.pairwise_cons.mpr ⟨?_, List.pairwise_cons.mpr
    ⟨?_, backRow⟩⟩, ?_⟩
  · intro service member
    rcases List.mem_cons.mp member with rfl | member
    · exact ⟨starts, returns before (.inr rfl)⟩
    · exact beforeBack service member
  · intro service member
    have bound := (beforeBack service member).2
    rw [equal before (by simp)] at bound
    exact ⟨precedes service member, by omega⟩
  · intro service member other otherIn
    rcases List.mem_cons.mp otherIn with rfl | otherIn
    · exact across service member _ List.mem_cons_self
    · rcases List.mem_cons.mp otherIn with rfl | otherIn
      · have earlier := ahead service member
        exact ⟨by omega, returns service (.inl member)⟩
      · exact across service member other (List.mem_cons_of_mem _ otherIn)

/-- How far the second service starts after the first, up to the least amount by
which the two slide along each other. -/
def offset (first second : Service) : Int :=
  ((second.start : Int) - first.start) % (Nat.gcd first.interval second.interval : Int)

/-- One of the services takes no time, or the first ends before the second
begins and the second before the first comes again, however far the two have
slid along each other. -/
def Apart (first second : Service) : Prop :=
  first.duration = 0 ∨ second.duration = 0 ∨
    ((first.duration : Int) ≤ offset first second ∧
      offset first second + second.duration ≤ (Nat.gcd first.interval second.interval : Int))

instance (first second : Service) : Decidable (Apart first second) :=
  inferInstanceAs (Decidable (_ ∨ _ ∨ _ ∧ _))

theorem Apart.not_meets (apart : Apart first second) :
    ¬ Meets first second := by
  rintro ⟨time, ⟨firstTurn, firstFrom, firstTo⟩, secondTurn, secondFrom, secondTo⟩
  obtain firstEmpty | secondEmpty | ⟨before, after⟩ := apart
  · omega
  · omega
  · obtain ⟨firstFactor, firstEq⟩ := Nat.gcd_dvd_left first.interval second.interval
    obtain ⟨secondFactor, secondEq⟩ := Nat.gcd_dvd_right first.interval second.interval
    have quotient := Int.emod_add_mul_ediv ((second.start : Int) - first.start)
      (Nat.gcd first.interval second.interval : Int)
    unfold offset at before after
    generalize ((second.start : Int) - first.start) /
      (Nat.gcd first.interval second.interval : Int) = turns at quotient
    generalize ((second.start : Int) - first.start) %
      (Nat.gcd first.interval second.interval : Int) = between at before after quotient
    generalize Nat.gcd first.interval second.interval = divisor at *
    rw [firstEq] at firstFrom firstTo
    rw [secondEq] at secondFrom secondTo
    -- the time lies in both, so the two occurrences are a multiple of the divisor off
    have slid : ((time : Int) - (first.start + firstTurn * (divisor * firstFactor))) -
        (time - (second.start + secondTurn * (divisor * secondFactor))) =
          between + divisor * (turns - firstTurn * firstFactor + secondTurn * secondFactor) := by
      linarith
    generalize turns - firstTurn * firstFactor + secondTurn * secondFactor = slides at slid
    rcases lt_or_ge slides 0 with negative | positive
    · have bound : (divisor : Int) * slides ≤ divisor * (-1) :=
        Int.mul_le_mul_of_nonneg_left (by omega) (Int.natCast_nonneg _)
      linarith
    · have bound : 0 ≤ (divisor : Int) * slides :=
        Int.mul_nonneg (Int.natCast_nonneg _) positive
      linarith

end Service

end Lib
