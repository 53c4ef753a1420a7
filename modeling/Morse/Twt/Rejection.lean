import Morse.Twt.Linkage

/-!
# Requests that are turned down

A station that has an agreement may ask again, for the same flow or for another one.  A
request that is not accepted is to leave what was agreed as it stands.  It does so unless
it came in an action frame for the very flow that is agreed: the rejection that is then
sent at once also enters the state of no agreement.
-/

namespace Morse
namespace Twt

open Lib

/-- Whether an agreement stands. -/
def MorseTwt.stands (twt : MorseTwt) (key : Key) : Bool :=
  twt.state key == .agreement

/-- The agreements that stood, of every station, are what they were, with their
parameters, and have their places in the wake interval lists. -/
structure Undisturbed (before after : MorseTwt) : Prop where
  agreement : ∀ key, before.stands key = true → after.agreement key = before.agreement key
  linkage : restrict before.stands after.wakeIntervals =
    restrict before.stands before.wakeIntervals

/-- The access point after so many association responses to a station. -/
def MorseTwt.responses (twt : MorseTwt) (addr : Addr) : Nat → MorseTwt
  | 0 => twt
  | count + 1 => ((twt.responses addr count).txAssocResponse addr).2

/-- A request or a suggestion is accepted for a flow that nothing is agreed of. -/
def MorseTwt.Accepts (twt : MorseTwt) (event : Event) (cmd : SetupCmd) : Prop :=
  twt.state event.key = .noAgreement ∧ (cmd = .request ∨ cmd = .suggest)

/-- The event that comes next is processed, and what stands is undisturbed, however many
responses follow. -/
def LeavesUndisturbed
    (twt : MorseTwt)
    (addr : Option Addr)
    (event : Event)
    (memory : MorseTwt.Memory) : Prop :=
  ∃ go next, twt.handleNext addr memory = some (go, next) ∧
    ∀ count, Undisturbed twt (next.responses event.addr count)

/-- A request for a flow that is agreed, to be answered by an action frame while no
answer waits for that flow. -/
def MorseTwt.GivesUp (twt : MorseTwt) (event : Event) : Prop :=
  twt.state event.key = .agreement ∧ twt.actionIsPending event.addr = true ∧
    twt.peekTx event.addr (some event.flowId) = none

variable {twt next last : MorseTwt} {key : Key} {addr : Addr} {gone : List Key}

/-! ## Releases that spare what stands -/

theorem Undisturbed.of_schedule_eq (same : next.schedule = twt.schedule) :
    Undisturbed twt next where
  agreement key _ := congrArg (fun schedule => schedule.agreement key) same
  linkage := congrArg (fun schedule => restrict twt.stands schedule.lists) same

theorem Undisturbed.stands (undisturbed : Undisturbed twt next) (stood : twt.stands key = true) :
    next.stands key = true := by
  rw [MorseTwt.stands, MorseTwt.state, undisturbed.agreement key stood]
  exact stood

theorem restrict_congr_stands (kept : ∀ key, twt.stands key = true → next.stands key = true)
    (same : restrict next.stands lists = restrict next.stands others) :
    restrict twt.stands lists = restrict twt.stands others := by
  have twice : ∀ groups : List (List Key),
      restrict twt.stands (restrict next.stands groups) = restrict twt.stands groups := by
    intro groups
    exact restrict_restrict kept groups
  rw [← twice lists, ← twice others, same]

theorem Undisturbed.trans (former : Undisturbed twt next) (latter : Undisturbed next last) :
    Undisturbed twt last where
  agreement key stood := by
    rw [latter.agreement key (former.stands stood)]
    exact former.agreement key stood
  linkage := by
    rw [← former.linkage]
    exact restrict_congr_stands (fun _ => former.stands) latter.linkage

theorem Releases.undisturbed (releases : Releases twt.schedule next.schedule gone)
    (fallen : ∀ other ∈ gone, twt.stands other = false) :
    Undisturbed twt next where
  agreement key stood := by
    have away : key ∉ gone := by
      intro member
      rw [fallen key member] at stood
      cases stood
    rcases releases.kept key away with same | ⟨unlinked, _⟩
    · exact same
    · have state : twt.state key = .agreement := beq_iff_eq.mp stood
      rw [show twt.schedule.state key = .agreement from state] at unlinked
      cases unlinked
  linkage := by
    have lists : next.wakeIntervals =
        gone.foldl (fun lists key => unlink key lists) twt.wakeIntervals := releases.lists
    rw [lists]
    exact restrict_foldl_unlink fallen

theorem stands_eq_false (found : twt.state key = state) (other : state ≠ .agreement) :
    twt.stands key = false := by
  rw [MorseTwt.stands, found]
  exact beq_eq_false_iff_ne.mpr other

/-! ## Responses -/

theorem Settles.undisturbed (settles : Settles twt.schedule next.schedule key agrData) :
    Undisturbed twt next where
  agreement other stood := by
    have different : other ≠ key := by
      rintro rfl
      have considered := settles.considered
      have state : twt.state other = .agreement := beq_iff_eq.mp stood
      rw [show twt.schedule.state other = .agreement from state] at considered
      cases considered
    have agreement : next.agreement =
        Function.update twt.agreement key ⟨.agreement, agrData⟩ := settles.agreement
    rw [agreement, Function.update_of_ne different]
  linkage := by
    have lists : next.wakeIntervals = twt.wakeIntervals := settles.lists
    rw [lists]

theorem undisturbed_txAssocResponse (twt : MorseTwt) (addr : Addr) :
    Undisturbed twt (twt.txAssocResponse addr).2 := by
  unfold MorseTwt.txAssocResponse
  split
  · exact .of_schedule_eq rfl
  · next tx found =>
      generalize taken_eq : ({ twt with
        tx := twt.tx.eraseP fun event => event.isFor addr none } : MorseTwt) = taken
      have same : taken.schedule = twt.schedule := by
        rw [← taken_eq]
        rfl
      refine (Undisturbed.of_schedule_eq same).trans ?_
      rcases taken.dequeueTxResponse_cases tx with unchanged | ⟨present, considered, entered⟩
      · rw [unchanged]
        exact .of_schedule_eq rfl
      · rcases entered with entered | ⟨agrData, body, entered⟩
        · obtain ⟨gone, releases, which⟩ :=
            MorseTwt.releases_enterStateNoAgreement taken tx.key present
          rw [entered]
          refine releases.undisturbed ?_
          intro other member
          rcases which other member with rfl | vacant
          · refine stands_eq_false rfl ?_
            intro standing
            rw [standing] at considered
            cases considered
          · exact stands_eq_false vacant (by decide)
        · rw [entered]
          have settles : Settles taken.schedule
              (taken.enterStateAgreement tx.key agrData).schedule tx.key agrData :=
            ⟨considered, MorseTwt.wakeIntervals_enterStateAgreement agrData,
              MorseTwt.agreement_enterStateAgreement present agrData⟩
          exact settles.undisturbed

theorem undisturbed_responses (twt : MorseTwt) (addr : Addr) (count : Nat) :
    Undisturbed twt (twt.responses addr count) := by
  induction count with
  | zero => exact .of_schedule_eq rfl
  | succ count ih => exact ih.trans (undisturbed_txAssocResponse _ addr)

/-! ## Requests -/

theorem state_staRemove (twt : MorseTwt) (key : Key) :
    (twt.staRemove key.1).state key = .noAgreement := by
  have stas : (twt.staRemove key.1).stas = Function.update twt.stas key.1 none := by
    rw [MorseTwt.staRemove, MorseTwt.foldl_agreementRemove]
  rw [MorseTwt.state, MorseTwt.agreement, stas, Function.update_self]
  rfl

theorem state_enterStateNoAgreement (twt : MorseTwt) (key : Key)
    (present : (twt.stas key.1).isSome) :
    (twt.enterStateNoAgreement key).state key = .noAgreement := by
  rw [MorseTwt.enterStateNoAgreement, MorseTwt.staAgreementRemove]
  split
  · exact state_staRemove _ key
  · change (twt.setState key .noAgreement).state key = .noAgreement
    rw [MorseTwt.state, MorseTwt.agreement_setState present, Function.update_self]

theorem isSome_stas_of_stands (standing : twt.state key = .agreement) :
    (twt.stas key.1).isSome = true := by
  cases found : twt.stas key.1 with
  | some sta => rfl
  | none =>
    rw [MorseTwt.state, MorseTwt.agreement, found] at standing
    cases standing

variable {event : Event} {cmd : SetupCmd} {agrData : AgreementData}
  {memory : MorseTwt.Memory}

theorem exists_handleOne (body : event.body = .setup cmd agrData)
    (refused : ¬twt.Accepts event cmd) :
    ∃ go next, twt.handleOne event memory = some (go, next) := by
  simp only [MorseTwt.handleOne, body]
  split
  · exact ⟨_, _, rfl⟩
  · next isReq =>
      split
      · exact ⟨_, _, rfl⟩
      · next found finds =>
          have same := (MorseTwt.getOrAddSta_eq_some finds).2.1
          have state : found.state event.key = twt.state event.key :=
            congrArg (fun schedule => (schedule.agreement event.key).state) same
          have handled : ∃ next,
              found.handleSetup event.key cmd agrData memory.wakeInterval = some next := by
            unfold MorseTwt.handleSetup
            split
            · next vacant =>
                rw [state] at vacant
                cases cmd with
                | request => exact absurd ⟨vacant, .inl rfl⟩ refused
                | suggest => exact absurd ⟨vacant, .inr rfl⟩ refused
                | _ => exact ⟨_, rfl⟩
            all_goals exact ⟨_, rfl⟩
          obtain ⟨next, handled⟩ := handled
          exact ⟨true, next, by rw [handled]; rfl⟩

variable {go : Bool}

theorem undisturbed_handleOne (body : event.body = .setup cmd agrData)
    (refused : ¬twt.Accepts event cmd) (keeps : ¬twt.GivesUp event)
    (handled : twt.handleOne event memory = some (go, next)) :
    Undisturbed twt next := by
  rcases MorseTwt.handleOne_setup body handled with ⟨which, admits⟩ | ⟨gone, releases, fallen⟩
  · exact absurd ⟨admits.vacant, which⟩ refused
  · rcases fallen with fallen | givesUp
    · refine releases.undisturbed ?_
      intro other member
      exact stands_eq_false (fallen other member) (by decide)
    · exact absurd givesUp keeps

theorem state_handleOne_of_givesUp (body : event.body = .setup cmd agrData)
    (isReq : cmd.isReq = true) (givesUp : twt.GivesUp event)
    (handled : twt.handleOne event memory = some (go, next)) :
    next.state event.key = .noAgreement := by
  obtain ⟨standing, pending, silent⟩ := givesUp
  have present := isSome_stas_of_stands standing
  have found : twt.getOrAddSta event.addr memory.sta = some twt := if_pos present
  have rejected : twt.handleEventInAgreement event.key agrData =
      (twt.clearAction event.addr).enterStateNoAgreement event.key := by
    have none : ¬(twt.peekTx event.key.1 (some event.key.2)).isSome = true := by
      rw [show twt.peekTx event.key.1 (some event.key.2) = none from silent]
      decide
    rw [MorseTwt.handleEventInAgreement, if_neg none, MorseTwt.sendReject]
    exact if_pos pending
  simp only [MorseTwt.handleOne, body, isReq, found, MorseTwt.handleSetup, standing, rejected]
    at handled
  cases handled
  apply state_enterStateNoAgreement
  exact (MorseTwt.isSome_stas_clearAction _ _).trans present

theorem not_leavesUndisturbed {addr : Option Addr}
    (queued : twt.events.find? (MorseTwt.sought addr) = some event)
    (body : event.body = .setup cmd agrData) (isReq : cmd.isReq = true)
    (givesUp : twt.GivesUp event) :
    ¬LeavesUndisturbed twt addr event memory := by
  rintro ⟨go, after, handled, undisturbed⟩
  rw [MorseTwt.handleNext, queued] at handled
  have taken : ({ twt with
      events := twt.events.eraseP (MorseTwt.sought addr) } : MorseTwt).GivesUp event := givesUp
  have given := state_handleOne_of_givesUp body isReq taken handled
  have kept := (undisturbed 0).agreement event.key (beq_iff_eq.mpr givesUp.1)
  have state : after.state event.key = twt.state event.key := congrArg Agreement.state kept
  rw [given, givesUp.1] at state
  cases state

/-- A request that is not accepted leaves undisturbed what stands exactly if it is not
for a flow that is agreed, by an action frame, with no answer waiting for that flow. -/
theorem leavesUndisturbed_iff (twt : MorseTwt) (addr : Option Addr) (event : Event)
    (memory : MorseTwt.Memory) (queued : twt.events.find? (MorseTwt.sought addr) = some event)
    (body : event.body = .setup cmd agrData) (isReq : cmd.isReq = true)
    (refused : ¬twt.Accepts event cmd) :
    LeavesUndisturbed twt addr event memory ↔ ¬twt.GivesUp event := by
  constructor
  · intro undisturbed givesUp
    exact not_leavesUndisturbed queued body isReq givesUp undisturbed
  · intro keeps
    generalize taken_eq : ({ twt with
      events := twt.events.eraseP (MorseTwt.sought addr) } : MorseTwt) = taken
    have next : twt.handleNext addr memory = taken.handleOne event memory := by
      rw [MorseTwt.handleNext, queued, ← taken_eq]
    have same : taken.schedule = twt.schedule := by
      rw [← taken_eq]
      rfl
    have refusedTaken : ¬taken.Accepts event cmd := by
      rw [← taken_eq]
      exact refused
    have keepsTaken : ¬taken.GivesUp event := by
      rw [← taken_eq]
      exact keeps
    obtain ⟨go, after, handled⟩ : ∃ go after,
        taken.handleOne event memory = some (go, after) :=
      exists_handleOne body refusedTaken
    refine ⟨go, after, next.trans handled, ?_⟩
    intro count
    have processed := undisturbed_handleOne body refusedTaken keepsTaken handled
    exact ((Undisturbed.of_schedule_eq same).trans processed).trans
      (undisturbed_responses after event.addr count)

/-- The event of the sample request. -/
def sampleEvent : Event := ⟨1, 0, .setup .request sampleRequest.agrData⟩

theorem leavesUndisturbed_again :
    ∃ twt, Reaches step (fun _ _ => True) MorseTwt.initVif twt ∧
      twt.state sampleEvent.key = .agreement ∧
        (LeavesUndisturbed twt (some 1) sampleEvent ⟨true, true⟩ ↔ ¬twt.GivesUp sampleEvent) := by
  have reached := @Reaches.of_run _ _ step (fun _ _ => True) MorseTwt.initVif _
    [.processTwtIe sampleRequest 1 true true, .handleNext (some 1) ⟨true, true⟩,
      .txAssocResponse 1, .processTwtIe sampleRequest 1 true true]
    (guarded_true _ _) rfl
  refine ⟨_, reached, rfl, ?_⟩
  refine leavesUndisturbed_iff _ (some 1) sampleEvent ⟨true, true⟩ rfl rfl rfl ?_
  rintro ⟨vacant, -⟩
  cases vacant

/-- The same request that comes again in an action frame gives up what was agreed. -/
theorem not_leavesUndisturbed_action :
    ¬∀ twt, Reaches step (fun _ _ => True) MorseTwt.initVif twt →
      ∀ addr event memory cmd agrData,
        twt.events.find? (MorseTwt.sought addr) = some event →
          event.body = .setup cmd agrData → cmd.isReq = true → ¬twt.Accepts event cmd →
            LeavesUndisturbed twt addr event memory := by
  intro always
  have reached := @Reaches.of_run _ _ step (fun _ _ => True) MorseTwt.initVif _
    [.processTwtIe sampleRequest 1 true true, .handleNext (some 1) ⟨true, true⟩,
      .txAssocResponse 1, .processTwtIe sampleRequest 1 true true, .noteActionFrame 1 7 true]
    (guarded_true _ _) rfl
  have undisturbed := always _ reached (some 1) sampleEvent ⟨true, true⟩ .request
    sampleRequest.agrData rfl rfl rfl (by
      rintro ⟨vacant, -⟩
      cases vacant)
  exact not_leavesUndisturbed rfl rfl rfl ⟨rfl, rfl, rfl⟩ undisturbed

end Twt
end Morse
