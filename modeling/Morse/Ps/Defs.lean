import Mathlib.Algebra.Group.Nat.Defs
import Morse.Lib.Transition

/-!
# Power save on the bus

The bus to the chip is off while the driver has nothing for the chip, and the chip nothing for
the driver.  Who needs the chip says so, and one function judges from that, and from what goes
on around it, whether to wake the chip, to let it sleep, or to look again later.
-/

namespace Morse
namespace Ps

open Lib

/-! ## State -/

/-- What goes on around power save: the events of the chip interface, the frames that wait
to be sent, the level of the busy pin, whether data must not be sent, and the time. -/
structure Surroundings where
  eventFlags : BitVec 64
  txBufferedCount : Nat
  busyGpio : Bool
  dataTxStopped : Bool
  jiffies : BitVec 64
  deriving DecidableEq, Repr

/-- `struct morse_ps` with its works, the bus and the surroundings.  Noted are how often power
save was disabled and enabled, and how often sleep was entered. -/
structure MorsePs where
  wakers : Nat
  enable : Bool
  suspended : Bool
  dynamicPsEn : Bool
  busPsTimeout : BitVec 64
  asyncWakeWork : Bool
  asyncAsserted : Bool
  delayedEvalWork : Option (BitVec 64)
  busEnabled : Bool
  wakeGpio : Bool
  surroundings : Surroundings
  disables : Nat
  enables : Nat
  sleeps : Nat
  deriving DecidableEq, Repr

/-- `morse_ps_init`. -/
def MorsePs.init (enable dynamicPsEn : Bool) (surroundings : Surroundings) : MorsePs where
  wakers := 1
  enable := enable
  suspended := false
  dynamicPsEn := dynamicPsEn
  busPsTimeout := surroundings.jiffies
  asyncWakeWork := false
  asyncAsserted := false
  delayedEvalWork := none
  busEnabled := true
  wakeGpio := true
  surroundings := surroundings
  disables := 0
  enables := 0
  sleeps := 0

/-- What the chip is configured with: whether it has pins for power save, whether its busy pin
is active high, and how long a millisecond is. -/
structure Config where
  mmPsGpiosSupported : Bool
  activeHigh : Bool
  msecsToJiffies : Nat → BitVec 64

section Functions

variable (cfg : Config)

/-! ## Waking and sleeping -/

/-- `morse_ps_is_busy_pin_asserted`. -/
def isBusyPinAsserted (mps : MorsePs) : Bool :=
  cfg.mmPsGpiosSupported && (mps.surroundings.busyGpio == cfg.activeHigh)

/-- `morse_ps_set_wake_gpio`. -/
def setWakeGpio (mps : MorsePs) (raise : Bool) : MorsePs :=
  if cfg.mmPsGpiosSupported then { mps with wakeGpio := raise } else mps

/-- `morse_ps_wakeup`. -/
def wakeup (mps : MorsePs) : MorsePs :=
  if !mps.enable then mps
  else if !mps.suspended then mps
  else { setWakeGpio cfg mps true with busEnabled := true, suspended := false }

/-- `morse_ps_sleep`. -/
def sleep (mps : MorsePs) : MorsePs :=
  let mps := { mps with sleeps := mps.sleeps + 1 }
  if !mps.enable then mps
  else if mps.suspended then mps
  else setWakeGpio cfg { mps with suspended := true, busEnabled := false } false

/-! ## Judging -/

/-- `MORSE_DATA_TRAFFIC_PAUSE_PEND`. -/
def dataTrafficPausePend : Nat := 7

/-- The events that are pending, but for a pause of the traffic. -/
def flagsOnEntry (mps : MorsePs) : BitVec 64 :=
  mps.surroundings.eventFlags &&& ~~~(1#64 <<< dataTrafficPausePend)

/-- `morse_is_data_tx_allowed`. -/
def isDataTxAllowed (mps : MorsePs) : Bool :=
  !mps.surroundings.dataTxStopped && !mps.surroundings.eventFlags.getLsbD dataTrafficPausePend

/-- `time_before`, which is true of a difference that is negative. -/
def timeBefore (first second : BitVec 64) : Bool := (first - second).msb

/-- `DEFAULT_BUS_TIMEOUT_MS`. -/
def defaultBusTimeoutMs : Nat := 5

/-- The end of `morse_ps_evaluate`, which looks again later. -/
def queueLater (mps : MorsePs) : MorsePs :=
  let now := mps.surroundings.jiffies
  let expire := now + cfg.msecsToJiffies defaultBusTimeoutMs
  let expire :=
    if mps.dynamicPsEn && timeBefore expire mps.busPsTimeout then mps.busPsTimeout else expire
  { mps with delayedEvalWork := some (expire - now) }

/-- `morse_ps_evaluate`. -/
def evaluate (mps : MorsePs) : MorsePs :=
  if !mps.enable then mps
  else
    let needsWake := decide (0 < mps.wakers) || decide (flagsOnEntry mps ≠ 0) ||
      decide (0 < mps.surroundings.txBufferedCount)
    let recent := !needsWake && mps.dynamicPsEn && isDataTxAllowed mps &&
      timeBefore mps.surroundings.jiffies mps.busPsTimeout
    if needsWake || recent then
      if recent then queueLater cfg (wakeup cfg mps) else wakeup cfg mps
    else if isBusyPinAsserted cfg mps then queueLater cfg mps
    else sleep cfg mps

/-! ## Steps -/

/-- `morse_ps_disable`, whose count has 32 bits. -/
def disable (mps : MorsePs) : MorsePs :=
  let mps := { mps with disables := mps.disables + 1 }
  if !mps.enable then mps
  else evaluate cfg { mps with wakers := (mps.wakers + 1) % 2 ^ 32 }

/-- `morse_ps_enable`, which refuses to count below zero. -/
def enable (mps : MorsePs) : MorsePs :=
  if !mps.enable then { mps with enables := mps.enables + 1 }
  else if mps.wakers = 0 then mps
  else evaluate cfg { mps with wakers := mps.wakers - 1, enables := mps.enables + 1 }

/-- What is done, or happens, between two times that the lock is held. -/
inductive Action
  /-- `morse_ps_disable`. -/
  | disable
  /-- `morse_ps_enable`. -/
  | enable
  /-- `morse_ps_bus_activity`. -/
  | busActivity (timeoutMs : Nat)
  /-- `morse_ps_evaluate_work`. -/
  | evaluateWork
  /-- `morse_ps_irq_handle`, while nothing waits for the chip to wake. -/
  | irqHandle
  /-- `morse_ps_async_wake_work`, up to the lock. -/
  | asyncWakeStart
  /-- `morse_ps_async_wake_work`, with the lock. -/
  | asyncWakeFinish
  /-- A queue of frames has become empty. -/
  | queueEvaluate
  /-- Something around power save changes. -/
  | change (surroundings : Surroundings)
  deriving DecidableEq, Repr

/-- One thing is done. -/
def step (mps : MorsePs) : Action → Option MorsePs
  | .disable => some (disable cfg mps)
  | .enable => some (enable cfg mps)
  | .busActivity timeoutMs =>
    some { mps with
      busPsTimeout := mps.surroundings.jiffies + cfg.msecsToJiffies timeoutMs }
  | .evaluateWork =>
    if mps.delayedEvalWork = none then none
    else some (evaluate cfg { mps with delayedEvalWork := none })
  | .irqHandle =>
    if mps.enable && cfg.mmPsGpiosSupported then some { mps with asyncWakeWork := true }
    else none
  | .asyncWakeStart =>
    if mps.asyncWakeWork && !mps.asyncAsserted then
      some { mps with asyncWakeWork := false, asyncAsserted := isBusyPinAsserted cfg mps }
    else none
  | .asyncWakeFinish =>
    if mps.asyncAsserted then some (wakeup cfg { mps with asyncAsserted := false }) else none
  | .queueEvaluate =>
    if mps.enable && !mps.suspended && decide (mps.surroundings.txBufferedCount = 0) then
      some { mps with delayedEvalWork := some 0 }
    else none
  | .change surroundings => some { mps with surroundings := surroundings }

end Functions

end Ps
end Morse
