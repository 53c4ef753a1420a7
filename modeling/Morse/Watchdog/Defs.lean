import Morse.Lib.Transition

/-!
# The watchdog of the chip

One timer looks after the chip on behalf of all who want it to be looked after.  They are
counted, and so are those who want the watchdog paused.
-/

namespace Morse
namespace Watchdog

open Lib

/-- `struct morse_watchdog`: the timer is active or not, and what it calls is there or not.
Noted is how often it was called. -/
structure MorseWatchdog where
  active : Bool
  intervalSecs : BitVec 32
  hasPing : Bool
  consumers : Int
  paused : Int
  pings : Nat
  deriving DecidableEq, Repr

/-- `morse_watchdog_init`. -/
def MorseWatchdog.init (intervalSecs : BitVec 32) (hasPing : Bool) : MorseWatchdog where
  active := false
  intervalSecs := intervalSecs
  hasPing := hasPing
  consumers := 0
  paused := 0
  pings := 0

/-- `INT_MAX`. -/
def intMax : Int := 2147483647

/-- `++` on an `int`. -/
def increment (count : Int) : Int := if count < intMax then count + 1 else -intMax - 1

variable (watchdog : MorseWatchdog)

/-- `hrtimer_start`. -/
def watchdogTimerStart : MorseWatchdog := { watchdog with active := true }

/-- `hrtimer_cancel`. -/
def hrtimerCancel : MorseWatchdog := { watchdog with active := false }

/-- `morse_watchdog_fire`: the timer is started again, with the interval of the module. -/
def morseWatchdogFire (intervalSecs : BitVec 32) : MorseWatchdog :=
  let watchdog :=
    if watchdog.hasPing ∧ watchdog.paused = 0 then
      { watchdog with pings := watchdog.pings + 1 }
    else watchdog
  { watchdog with intervalSecs := intervalSecs }

/-- `morse_watchdog_start`. -/
def morseWatchdogStart : Int × MorseWatchdog :=
  let watchdog :=
    if watchdog.active = false ∧ watchdog.paused = 0 then watchdogTimerStart watchdog
    else watchdog
  (0, { watchdog with consumers := increment watchdog.consumers })

/-- `morse_watchdog_refresh`. -/
def morseWatchdogRefresh : Int × MorseWatchdog :=
  if watchdog.consumers < 1 then (-1, watchdog)
  else if watchdog.active then (0, watchdogTimerStart (hrtimerCancel watchdog))
  else (-1, watchdog)

/-- `morse_watchdog_stop`. -/
def morseWatchdogStop : Int × MorseWatchdog :=
  if watchdog.consumers < 1 then (-1, watchdog)
  else if watchdog.active then
    let watchdog := { watchdog with consumers := watchdog.consumers - 1 }
    (if 0 < watchdog.consumers then 0 else -1, hrtimerCancel watchdog)
  else (-1, watchdog)

/-- `morse_watchdog_pause`. -/
def morseWatchdogPause : Int × MorseWatchdog :=
  if watchdog.consumers < 1 then (-1, watchdog)
  else if watchdog.paused ≠ 0 then
    (-1, { watchdog with paused := increment watchdog.paused })
  else if watchdog.active then
    (0, { hrtimerCancel watchdog with paused := increment watchdog.paused })
  else (-1, { watchdog with paused := increment watchdog.paused })

/-- `morse_watchdog_resume`. -/
def morseWatchdogResume : Int × MorseWatchdog :=
  if watchdog.consumers < 1 then (-1, watchdog)
  else if 0 < watchdog.paused then
    let watchdog := { watchdog with paused := watchdog.paused - 1 }
    if watchdog.paused ≠ 0 then (-1, watchdog)
    else if watchdog.active then (-1, watchdog)
    else (0, watchdogTimerStart watchdog)
  else (-1, watchdog)

/-- `morse_watchdog_cleanup`. -/
def morseWatchdogCleanup : Int × MorseWatchdog :=
  if 0 < watchdog.consumers then
    (0, (morseWatchdogStop { watchdog with consumers := 1 }).2)
  else (0, watchdog)

/-! ## Runs -/

/-- What happens to the watchdog. -/
inductive Action
  | start
  | stop
  | pause
  | resume
  | refresh
  | cleanup
  | fire (intervalSecs : BitVec 32)
  deriving DecidableEq, Repr

/-- The watchdog after an action.  Only an active timer fires. -/
def act : Action → Option MorseWatchdog
  | .start => some (morseWatchdogStart watchdog).2
  | .stop => some (morseWatchdogStop watchdog).2
  | .pause => some (morseWatchdogPause watchdog).2
  | .resume => some (morseWatchdogResume watchdog).2
  | .refresh => some (morseWatchdogRefresh watchdog).2
  | .cleanup => some (morseWatchdogCleanup watchdog).2
  | .fire intervalSecs =>
    if watchdog.active then some (morseWatchdogFire watchdog intervalSecs) else none

/-- Who is there: those who started the watchdog and did not stop it, and those who paused it
and did not resume it, which needs somebody who started it. -/
structure Users where
  consumers : Nat
  paused : Nat
  deriving DecidableEq, Repr

/-- Who is there after an action. -/
def Users.act (users : Users) : Action → Users
  | .start => { users with consumers := users.consumers + 1 }
  | .stop =>
    if users.consumers ≤ 1 then ⟨0, 0⟩ else { users with consumers := users.consumers - 1 }
  | .pause => if users.consumers = 0 then users else { users with paused := users.paused + 1 }
  | .resume => { users with paused := users.paused - 1 }
  | .refresh => users
  | .cleanup => ⟨0, 0⟩
  | .fire _ => users

/-- The watchdog and who is there. -/
structure State where
  watchdog : MorseWatchdog
  users : Users
  deriving DecidableEq, Repr

/-- The watchdog as it is set up, and nobody. -/
def State.init (intervalSecs : BitVec 32) (hasPing : Bool) : State where
  watchdog := .init intervalSecs hasPing
  users := ⟨0, 0⟩

/-- One action. -/
def step (state : State) (action : Action) : Option State :=
  (act state.watchdog action).map fun watchdog => ⟨watchdog, state.users.act action⟩

/-- The counters are those of who is there, and the timer is active exactly when somebody wants
it and nobody paused it. -/
structure State.Counted (state : State) : Prop where
  consumers : state.watchdog.consumers = state.users.consumers
  paused : state.watchdog.paused = state.users.paused
  active : state.watchdog.active = true ↔ 0 < state.users.consumers ∧ state.users.paused = 0

/-- A watchdog is stopped by the last who wants it, and that and the cleanup are while it is
not paused; the counters do not overflow. -/
def Nested (state : State) : Action → Prop
  | .start => state.watchdog.consumers < intMax
  | .stop =>
    state.watchdog.consumers = 0 ∨
      state.watchdog.consumers = 1 ∧ state.watchdog.paused = 0
  | .pause => state.watchdog.consumers = 0 ∨ state.watchdog.paused < intMax
  | .cleanup => state.watchdog.consumers = 0 ∨ state.watchdog.paused = 0
  | .resume | .refresh | .fire _ => True

instance (state : State) : (action : Action) → Decidable (Nested state action)
  | .start => inferInstanceAs (Decidable (_ < _))
  | .stop => inferInstanceAs (Decidable (_ ∨ _))
  | .pause => inferInstanceAs (Decidable (_ ∨ _))
  | .cleanup => inferInstanceAs (Decidable (_ ∨ _))
  | .resume | .refresh | .fire _ => inferInstanceAs (Decidable True)

end Watchdog
end Morse
