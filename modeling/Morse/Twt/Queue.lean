import Morse.Twt.Schedule

/-!
# The queue of events

Handling an event does not touch the events still queued, so that the loop which
handles them is a run of its turns and ends once each was taken.  The command of
a queued setup event is the one its request type holds.
-/

namespace Morse
namespace Twt

open Lib

namespace MorseTwt

variable {twt next : MorseTwt} {key : Key}

/-! ## Handling keeps the queue -/

@[simp] theorem events_modifySta (addr : Addr) (change : Sta → Sta) :
    (twt.modifySta addr change).events = twt.events := by
  unfold modifySta
  split <;> rfl

@[simp] theorem events_setState (state : State) :
    (twt.setState key state).events = twt.events :=
  events_modifySta _ _

@[simp] theorem events_setData (agrData : AgreementData) :
    (twt.setData key agrData).events = twt.events :=
  events_modifySta _ _

@[simp] theorem events_staRemove (addr : Addr) : (twt.staRemove addr).events = twt.events := by
  rw [staRemove, foldl_agreementRemove]

@[simp] theorem events_enterStateNoAgreement :
    (twt.enterStateNoAgreement key).events = twt.events := by
  unfold enterStateNoAgreement staAgreementRemove
  dsimp only
  split
  · exact events_setState _
  · exact events_setState _

@[simp] theorem events_enterStateAgreement (agrData : AgreementData) :
    (twt.enterStateAgreement key agrData).events = twt.events := by
  rw [enterStateAgreement, events_setData, events_setState]

theorem events_answer (keeps : ∀ twt, (enter twt).events = twt.events) (cmd : SetupCmd)
    (agrData : AgreementData) :
    (twt.answer key cmd agrData enter).events = twt.events := by
  unfold answer
  split
  · rw [keeps]
    exact events_modifySta _ _
  · rfl

@[simp] theorem events_sendReject (agrData : AgreementData) :
    (twt.sendReject key agrData).events = twt.events :=
  events_answer (fun _ => events_enterStateNoAgreement) _ _

theorem events_agreementWakeIntervalAdd
    (adds : twt.agreementWakeIntervalAdd key allocates = some added) :
    added.2.events = twt.events := by
  unfold agreementWakeIntervalAdd at adds
  split at adds
  · cases adds
    rfl
  · split at adds
    · cases adds
      rfl
    · cases adds
      exact events_setData _
    · split at adds
      · cases adds
        exact events_setData _
      · obtain ⟨placed, _, rfl⟩ := Option.map_eq_some_iff.mp adds
        exact events_setData _

theorem events_sendAccept (accepted : twt.sendAccept key agrData allocates = some next) :
    next.events = twt.events := by
  obtain ⟨added, adds, rfl⟩ := Option.map_eq_some_iff.mp accepted
  rw [events_answer (fun _ => events_enterStateAgreement _), events_setData,
    events_agreementWakeIntervalAdd adds, events_setData]

theorem events_handleSetup (handled : twt.handleSetup key cmd agrData allocates = some next) :
    next.events = twt.events := by
  unfold handleSetup at handled
  split at handled
  · cases cmd with
    | request | suggest => rw [events_sendAccept handled, events_setState]
    | demand | grouping =>
      cases handled
      rw [events_sendReject, events_setState]
    | accept | alternate | dictate | reject =>
      cases handled
      rfl
  all_goals cases handled
  all_goals try rfl
  unfold handleEventInAgreement
  split
  · rfl
  · exact events_sendReject _

theorem events_getOrAddSta (finds : twt.getOrAddSta addr allocates = some next) :
    next.events = twt.events := by
  unfold getOrAddSta at finds
  split at finds
  · cases finds
    rfl
  · split at finds <;> cases finds
    rfl

theorem events_handleOne (handled : twt.handleOne event memory = some (go, next)) :
    next.events = twt.events := by
  unfold handleOne at handled
  split at handled
  · cases handled
    split
    · exact events_enterStateNoAgreement
    · rfl
  · split at handled
    · cases handled
      rfl
    · split at handled
      · cases handled
        rfl
      · next found finds =>
          obtain ⟨result, handled, equal⟩ := Option.map_eq_some_iff.mp handled
          cases equal
          rw [events_handleSetup handled, events_getOrAddSta finds]

theorem events_handleNext (handled : twt.handleNext addr memory = some (go, next)) :
    next.events = twt.events.eraseP (sought addr) := by
  unfold handleNext at handled
  split at handled
  · next none =>
      cases handled
      exact (List.eraseP_of_forall_not (by simpa using none)).symm
  · exact events_handleOne handled

/-! ## The loop -/

/-! ## The commands of queued events -/

/-- The command of every queued setup event is the one of its request type. -/
def QueuesCommands (twt : MorseTwt) : Prop :=
  ∀ event ∈ twt.events, ∀ cmd agrData, event.body = .setup cmd agrData →
    cmd = getCommand agrData.params.reqType

theorem QueuesCommands.of_subset (queues : QueuesCommands twt)
    (subset : ∀ event ∈ next.events, event ∈ twt.events) :
    QueuesCommands next :=
  fun event member => queues event (subset event member)

theorem QueuesCommands.queueEvent (queues : QueuesCommands twt)
    (commands : ∀ cmd agrData, event.body = .setup cmd agrData →
      cmd = getCommand agrData.params.reqType) :
    QueuesCommands (twt.queueEvent event) := by
  intro queued member
  rcases List.mem_append.mp member with earlier | last
  · exact queues queued (List.mem_of_mem_filter earlier)
  · rw [List.mem_singleton.mp last]
    exact commands

theorem commands_parseIe (parsed : parseIe element srcAddr allocates = .ok event)
    (body : event.body = .setup cmd agrData) :
    cmd = getCommand agrData.params.reqType := by
  unfold parseIe at parsed
  repeat' split at parsed
  all_goals cases parsed
  cases body
  rfl

theorem QueuesCommands.step (queues : QueuesCommands twt)
    (taken : Twt.step twt action = some next) :
    QueuesCommands next := by
  cases action with
  | processTwtIe element srcAddr allocatesEvent allocatesData =>
    cases taken
    unfold processTwtIe
    split
    · split
      · next event parsed => exact queues.queueEvent fun _ _ => commands_parseIe parsed
      · exact queues
    · exact queues
  | noteActionFrame srcAddr dialogToken allocates =>
    cases taken
    unfold noteActionFrame
    split
    · exact queues
    · next found finds =>
        refine queues.of_subset fun event member => ?_
        rw [events_modifySta, events_getOrAddSta finds] at member
        exact member
  | processTwtTeardown srcAddr flow =>
    cases taken
    unfold processTwtTeardown
    split
    · exact queues.queueEvent (by rintro _ _ ⟨⟩)
    · exact queues
  | handleNext addr memory =>
    obtain ⟨⟨go, result⟩, handled, rfl⟩ := Option.map_eq_some_iff.mp taken
    refine queues.of_subset fun event member => ?_
    rw [events_handleNext handled] at member
    exact List.mem_of_mem_eraseP member
  | txAssocResponse addr =>
    cases taken
    refine queues.of_subset fun event member => ?_
    unfold txAssocResponse at member
    split at member
    · exact member
    · next tx found =>
        rcases dequeueTxResponse_cases
          { twt with tx := twt.tx.eraseP fun event => event.isFor addr none } tx with
          same | ⟨_, _, entered | ⟨agrData, _, entered⟩⟩
        · rw [same] at member
          exact member
        · rw [entered, events_enterStateNoAgreement] at member
          exact member
        · rw [entered, events_enterStateAgreement] at member
          exact member
  | staRemoveAddr addr =>
    cases taken
    refine queues.of_subset fun event member => ?_
    unfold staRemoveAddr at member
    split at member
    · exact member
    · exact member
  | eventQueuePurge addr =>
    cases taken
    exact queues.of_subset fun event member => List.mem_of_mem_filter member

end MorseTwt

end Twt
end Morse
