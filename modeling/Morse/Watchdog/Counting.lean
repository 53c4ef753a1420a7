import Morse.Watchdog.Defs

/-!
# The watchdog is active while it is wanted

The timer is cancelled by whoever stops an active watchdog, also while others want it, and a
stop of a paused watchdog is not counted.  As long as neither happens, the counters are right
and the timer is active exactly when it should be.
-/

namespace Morse
namespace Watchdog

open Lib

/-- The counters are those of who is there, the timer follows them, and nobody paused what
nobody wants. -/
structure State.Inv (state : State) : Prop extends state.Counted where
  unused : state.users.consumers = 0 → state.users.paused = 0

variable {state next : State}

theorem unused_act {users : Users} (unused : users.consumers = 0 → users.paused = 0)
    (action : Action) :
    (users.act action).consumers = 0 → (users.act action).paused = 0 := by
  cases action with
  | start => exact fun none => by cases none
  | stop =>
    intro none
    simp only [Users.act] at none ⊢
    split
    · rfl
    · next several =>
        rw [if_neg several] at none
        dsimp only at none
        omega
  | pause =>
    intro none
    simp only [Users.act] at none ⊢
    split
    · next empty => exact unused empty
    · next some =>
        rw [if_neg some] at none
        exact absurd none some
  | resume =>
    intro none
    have before := unused none
    simp only [Users.act]
    omega
  | refresh => exact unused
  | cleanup => exact fun _ => rfl
  | fire => exact unused

theorem increment_eq_iff (count : Nat) :
    increment count = (count + 1 : Nat) ↔ (count : Int) < intMax := by
  have top : intMax = 2147483647 := rfl
  by_cases room : (count : Int) < intMax
  · rw [increment]
    omega
  · rw [increment]
    omega

theorem counted_iff :
    state.Counted ↔ state.watchdog.consumers = state.users.consumers ∧
      state.watchdog.paused = state.users.paused ∧
      (state.watchdog.active = true ↔ 0 < state.users.consumers ∧ state.users.paused = 0) :=
  ⟨fun counted => ⟨counted.consumers, counted.paused, counted.active⟩,
    fun counters => ⟨counters.1, counters.2.1, counters.2.2⟩⟩

/-! ## One action -/

/-- How the watchdog can be while its counters are right: nobody wants it, it is active, or it
is paused. -/
inductive Standing (watchdog : MorseWatchdog) (users : Users) : Prop
  | unwanted (consumers : users.consumers = 0) (paused : users.paused = 0)
      (inactive : watchdog.active = false)
  | watching (consumers : 0 < users.consumers) (paused : users.paused = 0)
      (active : watchdog.active = true)
  | pausing (consumers : 0 < users.consumers) (paused : 0 < users.paused)
      (inactive : watchdog.active = false)

theorem State.Inv.standing {watchdog : MorseWatchdog} {users : Users}
    (inv : State.Inv ⟨watchdog, users⟩) :
    Standing watchdog users := by
  have active := inv.active
  have unused := inv.unused
  rcases timer : watchdog.active with _ | _
  · rw [timer] at active
    by_cases wanted : users.consumers = 0
    · exact .unwanted wanted (unused wanted) timer
    · refine .pausing (Nat.pos_of_ne_zero wanted) (Nat.pos_of_ne_zero fun free => ?_) timer
      cases active.mpr ⟨Nat.pos_of_ne_zero wanted, free⟩
  · obtain ⟨wanted, free⟩ := active.mp timer
    exact .watching wanted free timer

section Actions

variable {watchdog : MorseWatchdog} {users : Users}

theorem counted_start (inv : State.Inv ⟨watchdog, users⟩) :
    State.Counted ⟨(morseWatchdogStart watchdog).2, users.act .start⟩ ↔
      Nested ⟨watchdog, users⟩ .start := by
  have consumers := inv.consumers
  have paused := inv.paused
  dsimp only at consumers paused
  have counted := increment_eq_iff users.consumers
  rw [← consumers] at counted
  rw [counted_iff]
  cases inv.standing with
  | unwanted none free timer =>
    simp [morseWatchdogStart, watchdogTimerStart, timer, paused, free, Users.act, Nested,
      ← counted]
  | watching some free timer =>
    simp [morseWatchdogStart, timer, paused, free, Users.act, Nested, ← counted]
  | pausing some held timer =>
    have busy : users.paused ≠ 0 := by omega
    simp [morseWatchdogStart, timer, paused, busy, Users.act, Nested, ← counted]

theorem counted_stop (inv : State.Inv ⟨watchdog, users⟩) :
    State.Counted ⟨(morseWatchdogStop watchdog).2, users.act .stop⟩ ↔
      Nested ⟨watchdog, users⟩ .stop := by
  have consumers := inv.consumers
  have paused := inv.paused
  dsimp only at consumers paused
  cases inv.standing with
  | unwanted none free timer =>
    simp [counted_iff, morseWatchdogStop, consumers, none, paused, free, timer, Users.act,
      Nested]
  | watching some free timer =>
    have wanted : ¬watchdog.consumers < 1 := by omega
    by_cases last : users.consumers = 1
    · simp [counted_iff, morseWatchdogStop, hrtimerCancel, consumers, last, paused, free,
        timer, Users.act, Nested]
    · have others : ¬users.consumers ≤ 1 := by omega
      have cancelled : ¬State.Counted
          ⟨(morseWatchdogStop watchdog).2, users.act .stop⟩ := by
        intro counted
        have active := counted.active
        simp only [morseWatchdogStop, if_neg wanted, timer, if_true, hrtimerCancel,
          Users.act, if_neg others] at active
        cases active.mpr ⟨by omega, free⟩
      have refused : ¬Nested ⟨watchdog, users⟩ .stop := by
        simp only [Nested, consumers]
        omega
      exact iff_of_false cancelled refused
  | pausing some held timer =>
    have lost : ¬State.Counted ⟨(morseWatchdogStop watchdog).2, users.act .stop⟩ := by
      intro counted
      have same := counted.consumers
      simp only [morseWatchdogStop, timer, Users.act, ite_self, Bool.false_eq_true, if_false]
        at same
      split at same
      · simp only at same
        omega
      · simp only at same
        omega
    have refused : ¬Nested ⟨watchdog, users⟩ .stop := by
      simp only [Nested, consumers, paused]
      omega
    exact iff_of_false lost refused

theorem counted_pause (inv : State.Inv ⟨watchdog, users⟩) :
    State.Counted ⟨(morseWatchdogPause watchdog).2, users.act .pause⟩ ↔
      Nested ⟨watchdog, users⟩ .pause := by
  have consumers := inv.consumers
  have paused := inv.paused
  dsimp only at consumers paused
  have counted := increment_eq_iff users.paused
  rw [← paused] at counted
  cases inv.standing with
  | unwanted none free timer =>
    simp [counted_iff, morseWatchdogPause, consumers, none, paused, free, timer, Users.act,
      Nested]
  | watching some free timer =>
    have wanted : ¬watchdog.consumers < 1 := by omega
    have wanting : watchdog.consumers ≠ 0 := by omega
    have there : users.consumers ≠ 0 := by omega
    have running : watchdog.paused = 0 := by omega
    rw [counted_iff]
    simp only [morseWatchdogPause, if_neg wanted, running, ne_eq, not_true_eq_false, if_false,
      timer, if_true, hrtimerCancel, Users.act, if_neg there, Nested, wanting, false_or]
    rw [running] at counted
    simpa [consumers] using counted
  | pausing some held timer =>
    have wanted : ¬watchdog.consumers < 1 := by omega
    have wanting : watchdog.consumers ≠ 0 := by omega
    have there : users.consumers ≠ 0 := by omega
    have busy : watchdog.paused ≠ 0 := by omega
    rw [counted_iff]
    simp only [morseWatchdogPause, if_neg wanted, if_pos busy, timer, Users.act, if_neg there,
      Nested, wanting, false_or]
    simpa [consumers] using counted

theorem counted_resume (inv : State.Inv ⟨watchdog, users⟩) :
    State.Counted ⟨(morseWatchdogResume watchdog).2, users.act .resume⟩ := by
  have consumers := inv.consumers
  have paused := inv.paused
  dsimp only at consumers paused
  cases inv.standing with
  | unwanted none free timer =>
    simp [counted_iff, morseWatchdogResume, consumers, none, paused, free, timer, Users.act]
  | watching some free timer =>
    simp [counted_iff, morseWatchdogResume, consumers, some, paused, free, timer, Users.act]
  | pausing some held timer =>
    have wanted : ¬watchdog.consumers < 1 := by omega
    have busy : 0 < watchdog.paused := by omega
    rw [morseWatchdogResume, if_neg wanted, if_pos busy, timer]
    by_cases last : users.paused = 1
    · simp [counted_iff, watchdogTimerStart, consumers, some, last, paused, Users.act]
    · have held : watchdog.paused - 1 ≠ 0 := by omega
      rw [counted_iff]
      simp only [if_pos held, consumers, Users.act]
      simp
      omega

theorem counted_refresh (inv : State.Inv ⟨watchdog, users⟩) :
    State.Counted ⟨(morseWatchdogRefresh watchdog).2, users⟩ := by
  have counted := inv.toCounted
  rw [morseWatchdogRefresh]
  split
  · exact counted
  · split
    · next timer =>
        exact ⟨counted.consumers, counted.paused, iff_of_true rfl (counted.active.mp timer)⟩
    · exact counted

theorem counted_cleanup (inv : State.Inv ⟨watchdog, users⟩) :
    State.Counted ⟨(morseWatchdogCleanup watchdog).2, users.act .cleanup⟩ ↔
      Nested ⟨watchdog, users⟩ .cleanup := by
  have consumers := inv.consumers
  have paused := inv.paused
  dsimp only at consumers paused
  cases inv.standing with
  | unwanted none free timer =>
    simp [counted_iff, morseWatchdogCleanup, consumers, none, paused, free, timer, Users.act,
      Nested]
  | watching some free timer =>
    have wanted : 0 < watchdog.consumers := by omega
    simp [counted_iff, morseWatchdogCleanup, morseWatchdogStop, wanted, hrtimerCancel, paused,
      free, timer, Users.act, Nested]
  | pausing some held timer =>
    have wanted : 0 < watchdog.consumers := by omega
    have busy : users.paused ≠ 0 := by omega
    simp [counted_iff, morseWatchdogCleanup, morseWatchdogStop, wanted, paused, timer,
      Users.act, Nested, busy]
    omega

end Actions

variable {action : Action}

theorem counted_iff_nested (inv : state.Inv) (taken : step state action = some next) :
    next.Counted ↔ Nested state action := by
  obtain ⟨after, acted, rfl⟩ := Option.map_eq_some_iff.mp taken
  cases action with
  | start =>
    cases acted
    exact counted_start inv
  | stop =>
    cases acted
    exact counted_stop inv
  | pause =>
    cases acted
    exact counted_pause inv
  | resume =>
    cases acted
    exact iff_of_true (counted_resume inv) trivial
  | refresh =>
    cases acted
    exact iff_of_true (counted_refresh inv) trivial
  | cleanup =>
    cases acted
    exact counted_cleanup inv
  | fire intervalSecs =>
    obtain ⟨-, fired⟩ := Option.ite_none_right_eq_some.mp acted
    cases fired
    refine iff_of_true ?_ trivial
    rw [morseWatchdogFire]
    have counted := inv.toCounted
    split
    · exact ⟨counted.consumers, counted.paused, counted.active⟩
    · exact ⟨counted.consumers, counted.paused, counted.active⟩

theorem inv_init (intervalSecs : BitVec 32) (hasPing : Bool) :
    (State.init intervalSecs hasPing).Inv where
  consumers := rfl
  paused := rfl
  active := iff_of_false Bool.false_ne_true fun both => Nat.lt_irrefl 0 both.1
  unused := fun _ => rfl

theorem State.Inv.step (inv : state.Inv) (nested : Nested state action)
    (taken : step state action = some next) :
    next.Inv := by
  refine ⟨(counted_iff_nested inv taken).mpr nested, ?_⟩
  obtain ⟨after, -, rfl⟩ := Option.map_eq_some_iff.mp taken
  exact unused_act inv.unused action

/--
While only the last who wants the watchdog stops it, and it is neither stopped nor cleaned up
while it is paused, the counters are those of who is there and the timer is active exactly when
somebody wants it and nobody paused it.  The first action of another kind breaks this.
-/
theorem counted_of_reaches (intervalSecs : BitVec 32) (hasPing : Bool) (state : State)
    (reaches : Reaches Watchdog.step Nested (.init intervalSecs hasPing) state) :
    state.Counted ∧ ∀ action next,
      Watchdog.step state action = some next → (next.Counted ↔ Nested state action) := by
  have inv : state.Inv :=
    @Reaches.invariant _ _ Watchdog.step Nested _ state State.Inv (inv_init _ _)
      (fun before nested taken => before.step nested taken) reaches
  exact ⟨inv.toCounted, fun _ _ taken => counted_iff_nested inv taken⟩

/-- Two start the watchdog, one of them stops it, and it is not active any more. -/
theorem not_counted :
    ¬∀ state, Reaches Watchdog.step (fun _ _ => True) (.init 30 true) state →
      state.Counted := by
  intro counted
  have reaches := @Reaches.of_run _ _ Watchdog.step (fun _ _ => True) (.init 30 true) _
    [.start, .start, .stop] (guarded_true _ _) rfl
  have active := (counted _ reaches).active
  cases active.mpr ⟨by decide, rfl⟩

theorem counted_of_reaches_cleanup :
    let state : State := ⟨⟨false, 5, true, 0, 0, 1⟩, ⟨0, 0⟩⟩
    state.Counted ∧ ∀ action next,
      Watchdog.step state action = some next → (next.Counted ↔ Nested state action) :=
  counted_of_reaches 30 true ⟨⟨false, 5, true, 0, 0, 1⟩, ⟨0, 0⟩⟩
    (@Reaches.of_run _ _ Watchdog.step Nested (.init 30 true) _
      [.start, .start, .pause, .resume, .fire 5, .cleanup]
      ⟨by decide, by decide, by decide, trivial, trivial, by decide, trivial⟩ rfl)

end Watchdog
end Morse
