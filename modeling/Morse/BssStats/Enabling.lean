import Morse.Lib.Transition
import Mathlib.Order.Basic

/-!
# Enabling the statistics of a BSS

The statistics are reported by a timer that arms itself again.  They are configured by a command,
and paused while RAW is configured statically; a configuration that comes during that time is
accepted, but only its period is kept.
-/

namespace Morse
namespace BssStats

open Lib

/-- `struct morse_bss_stats_context`, with the period for which the timer is armed, if it is
pending. -/
structure Context where
  enabled : Bool
  paused : Bool
  monitorWindowMs : Nat
  timer : Option Nat
  deriving DecidableEq

/-- `morse_bss_stats_init`: the default period is a second, and the timer is not yet armed. -/
def Context.init : Context := ⟨false, false, 1000, none⟩

/-- The access point: the statistics, the number of static RAW configurations, and what the last
configuration that returned 0 asked for. -/
structure Ap where
  stats : Context
  numStatic : Nat
  requested : Option Bool
  deriving DecidableEq

/-- What happens to the statistics. -/
inductive Op
  | conf (enable : BitVec 8) (monitorWindowMs : BitVec 32)
  | pause
  | resume
  | setStatic (numStatic : Nat)
  | expire
  deriving DecidableEq

/-- `morse_bss_stats_pause`. -/
def pause (stats : Context) : Context × Int :=
  if stats.enabled = false ∨ stats.paused = true then (stats, -22)
  else ({ stats with paused := true, timer := none }, 0)

/-- `morse_bss_stats_resume`. -/
def resume (stats : Context) : Context × Int :=
  if stats.enabled = false then (stats, -22)
  else if stats.paused = false then (stats, -22)
  else if stats.monitorWindowMs = 0 then (stats, -22)
  else ({ stats with paused := false, timer := some stats.monitorWindowMs }, 0)

/-- The periods that are accepted. -/
def ValidWindow (monitorWindowMs : BitVec 32) : Prop :=
  500 ≤ monitorWindowMs.toNat ∧ monitorWindowMs.toNat ≤ 20000

instance (monitorWindowMs : BitVec 32) : Decidable (ValidWindow monitorWindowMs) :=
  inferInstanceAs (Decidable (_ ∧ _))

/-- `morse_cmd_process_bss_stats_conf`; the period is stored before the check for static RAW
configurations. -/
def conf
    (numStatic : Nat)
    (enable : BitVec 8)
    (monitorWindowMs : BitVec 32)
    (stats : Context) :
    Context × Int :=
  if ¬ValidWindow monitorWindowMs then (stats, -22)
  else
    let stats :=
      { stats with monitorWindowMs := if enable ≠ 0 then monitorWindowMs.toNat else 0 }
    if 0 < numStatic then (stats, 0)
    else
      let stats := { stats with enabled := enable ≠ 0, paused := enable = 0 }
      if enable ≠ 0 then ({ stats with timer := some stats.monitorWindowMs }, 0)
      else ({ stats with timer := none }, 0)

/-- The end of `morse_bss_stats_timer_cb`, which is reached whether or not there was anything to
report. -/
def timerCb (stats : Context) : Context := { stats with timer := some stats.monitorWindowMs }

/-- What an operation does to the access point, and what it returns. -/
def perform (ap : Ap) : Op → Option (Ap × Int)
  | .conf enable monitorWindowMs =>
    let done := conf ap.numStatic enable monitorWindowMs ap.stats
    some ({ ap with
      stats := done.1
      requested := if done.2 = 0 then some (enable ≠ 0) else ap.requested }, done.2)
  | .pause => some ({ ap with stats := (pause ap.stats).1 }, (pause ap.stats).2)
  | .resume => some ({ ap with stats := (resume ap.stats).1 }, (resume ap.stats).2)
  | .setStatic numStatic => some ({ ap with numStatic := numStatic }, 0)
  | .expire =>
    if ap.stats.timer = none then none else some ({ ap with stats := timerCb ap.stats }, 0)

/-- A step of the access point. -/
def step (ap : Ap) (op : Op) : Option Ap := (perform ap op).map Prod.fst

/-- At the start nothing is configured. -/
def start : Ap := ⟨.init, 0, none⟩

/-- The timer is pending exactly while statistics are enabled and not paused, and not without a
period; without static RAW configurations statistics are enabled as requested; and an operation
that fails leaves them as they are. -/
structure Sound (ap : Ap) : Prop where
  pending : ap.stats.timer ≠ none ↔ ap.stats.enabled = true ∧ ap.stats.paused = false
  period : ap.stats.timer ≠ some 0
  requested : ap.numStatic = 0 → ∀ enable, ap.requested = some enable → ap.stats.enabled = enable
  failing : ∀ op after ret, perform ap op = some (after, ret) → ret ≠ 0 → after = ap

/-- A configuration that is accepted comes while there is no static RAW configuration, or asks for
what is there already. -/
def Timely (ap : Ap) : Op → Prop
  | .conf enable monitorWindowMs =>
    ValidWindow monitorWindowMs → 0 < ap.numStatic → ap.stats.enabled = decide (enable ≠ 0)
  | _ => True

/-- What timely operations keep. -/
structure Steady (ap : Ap) : Prop where
  pending : ap.stats.timer ≠ none ↔ ap.stats.enabled = true ∧ ap.stats.paused = false
  period : ap.stats.timer ≠ some 0
  window : ap.stats.enabled = true → ap.stats.monitorWindowMs ≠ 0
  requested : ∀ enable, ap.requested = some enable → ap.stats.enabled = enable

variable {ap after : Ap} {op : Op}

theorem eq_of_failing (done : perform ap op = some (after, ret)) (failed : ret ≠ 0) :
    after = ap := by
  cases op with
  | conf enable monitorWindowMs =>
    cases done
    unfold conf at failed ⊢
    dsimp only at failed ⊢
    split at failed
    case isTrue invalid =>
      rw [if_pos invalid]
      rfl
    · split at failed
      · exact absurd rfl failed
      · split at failed <;> exact absurd rfl failed
  | pause =>
    cases done
    unfold pause at failed ⊢
    split at failed
    case isTrue none => rw [if_pos none]
    · exact absurd rfl failed
  | resume =>
    cases done
    unfold resume at failed ⊢
    split at failed
    case isTrue disabled => rw [if_pos disabled]
    case isFalse enabled =>
      split at failed
      case isTrue running => rw [if_neg enabled, if_pos running]
      case isFalse paused =>
        split at failed
        case isTrue zero => rw [if_neg enabled, if_neg paused, if_pos zero]
        · exact absurd rfl failed
  | setStatic numStatic =>
    cases done
    exact absurd rfl failed
  | expire =>
    rw [perform] at done
    split at done
    · cases done
    · cases done
      exact absurd rfl failed

theorem Steady.step (steady : Steady ap) (timely : Timely ap op) (taken : step ap op = some after) :
    Steady after := by
  obtain ⟨pending, period, positive, asked⟩ := steady
  obtain ⟨⟨next, ret⟩, done, rfl⟩ := Option.map_eq_some_iff.mp taken
  cases op with
  | conf enable monitorWindowMs =>
    cases done
    unfold conf
    dsimp only
    split
    · exact ⟨pending, period, positive, by simpa using asked⟩
    case isFalse valid =>
      have least := (not_not.mp valid).1
      split
      case isTrue blocked =>
        have same := timely (not_not.mp valid) blocked
        refine ⟨pending, period, ?_, ?_⟩
        · intro on
          dsimp only at on ⊢
          rw [on] at same
          rw [if_pos (of_decide_eq_true same.symm)]
          omega
        · intro value is
          rw [same]
          exact Option.some.inj is
      · by_cases on : enable ≠ 0
        · have positive : monitorWindowMs.toNat ≠ 0 := by omega
          simp only [if_pos on]
          refine ⟨iff_of_true (Option.some_ne_none _) ⟨decide_eq_true on, decide_eq_false on⟩,
            ?_, fun _ => positive, fun _ is => Option.some.inj is⟩
          exact fun zero => positive (Option.some.inj zero)
        · simp only [if_neg on]
          refine ⟨iff_of_false (not_not.mpr rfl) ?_, Option.some_ne_none _ ∘ Eq.symm, ?_,
            fun _ is => Option.some.inj is⟩
          · exact fun both => on (of_decide_eq_true both.1)
          · exact fun enabled => absurd (of_decide_eq_true enabled) on
  | pause =>
    cases done
    unfold BssStats.pause
    split
    · exact ⟨pending, period, positive, asked⟩
    · exact ⟨by simp, by simp, positive, asked⟩
  | resume =>
    cases done
    unfold BssStats.resume
    split
    · exact ⟨pending, period, positive, asked⟩
    · split
      · exact ⟨pending, period, positive, asked⟩
      · split
        · exact ⟨pending, period, positive, asked⟩
        case isFalse disabled _ zero =>
          exact ⟨by simpa using disabled, by simpa using zero, positive, asked⟩
  | setStatic _ =>
    cases done
    exact ⟨pending, period, positive, asked⟩
  | expire =>
    rw [perform] at done
    split at done
    · cases done
    case isFalse armed =>
      cases done
      have on := pending.mp armed
      exact ⟨iff_of_true (by simp [timerCb]) on, by simpa [timerCb] using positive on.1,
        positive, asked⟩

/-- In every run whose configurations are timely the statistics are sound in every state. -/
theorem sound_of_reaches {ap : Ap} (reaches : Reaches step Timely start ap) :
    Sound ap := by
  have steady : Steady ap := by
    refine reaches.invariant ⟨by decide, by decide, by decide, ?_⟩ fun holds timely taken =>
      holds.step timely taken
    intro enable none
    cases none
  refine ⟨steady.pending, steady.period, fun _ => steady.requested, ?_⟩
  intro op after ret done failed
  exact eq_of_failing done failed

/-- Statistics that are enabled, paused during a static RAW configuration and resumed. -/
def pausedAndResumed : List Op :=
  [.conf 1 500, .expire, .pause, .setStatic 1, .conf 1 2000, .setStatic 0, .resume, .conf 0 500]

theorem sound_pausedAndResumed :
    ∃ ap, run step start pausedAndResumed = some ap ∧ Reaches step Timely start ap ∧ Sound ap := by
  have reaches : Reaches step Timely start ⟨⟨false, true, 0, none⟩, 0, some false⟩ := by
    apply Reaches.of_run pausedAndResumed
    · exact ⟨fun _ blocked => absurd blocked (by decide), trivial, trivial, trivial,
        fun _ _ => rfl, trivial, trivial, fun _ blocked => absurd blocked (by decide), trivial⟩
    · decide
  exact ⟨_, by decide, reaches, sound_of_reaches reaches⟩

/-- A disable that comes during a static RAW configuration is lost: the statistics stay enabled
behind it.  When they run at that time, the timer is armed without a period. -/
theorem not_sound_of_late_disable :
    (∃ ap, run step start [.conf 1 500, .pause, .setStatic 1, .conf 0 500, .setStatic 0] =
      some ap ∧ ap.numStatic = 0 ∧ ap.requested = some false ∧ ap.stats.enabled = true ∧
        ¬Sound ap) ∧
    ∃ ap, run step start [.conf 1 500, .pause, .setStatic 2, .resume, .conf 0 500, .expire] =
      some ap ∧ ap.stats.timer = some 0 ∧ ¬Sound ap := by
  refine ⟨⟨⟨⟨true, true, 0, none⟩, 0, some false⟩, by decide, rfl, rfl, rfl, ?_⟩,
    ⟨⟨true, false, 0, some 0⟩, 2, some false⟩, by decide, rfl, ?_⟩
  · intro sound
    cases sound.requested rfl false rfl
  · intro sound
    exact sound.period rfl

end BssStats
end Morse
