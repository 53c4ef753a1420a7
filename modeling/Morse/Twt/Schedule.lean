import Morse.Twt.Defs

/-!
# The schedule and its three moves

The schedule is what the wake interval lists and the agreements of the stations
say.  Whatever happens at the access point moves it in one of three ways:
agreements are released, one is admitted at a place of the lists, or one that is
considered is settled with the data of an answer.
-/

namespace Morse
namespace Twt

open Lib

/-- The lists of linked agreements, and the agreements. -/
structure Schedule where
  lists : List (List Key)
  agreement : Key → Agreement

namespace Schedule

/-- The agreements linked into a list. -/
def linked (schedule : Schedule) : List Key := schedule.lists.flatten

/-- The state of an agreement. -/
def state (schedule : Schedule) (key : Key) : State := (schedule.agreement key).state

/-- The data of an agreement. -/
def data (schedule : Schedule) (key : Key) : AgreementData := (schedule.agreement key).data

end Schedule

/-- The states in which an agreement has a place in the lists. -/
def State.isLinked : State → Bool
  | .considerRequest | .considerSuggest | .agreement => true
  | .noAgreement | .considerDemand | .considerGrouping => false

/-- The states in which an answer has still to be sent. -/
def State.isConsidered : State → Bool
  | .considerRequest | .considerSuggest | .considerDemand | .considerGrouping => true
  | .noAgreement | .agreement => false

/-- The data of an accepted request, at the wake time it was given. -/
def AgreementData.accepted (agrData : AgreementData) (wakeTimeUs : BitVec 64) : AgreementData :=
  updateParams ({ agrData with wakeTimeUs := wakeTimeUs }.withCommand .accept)

@[simp] theorem AgreementData.accepted_wakeTimeUs (agrData : AgreementData) (time : BitVec 64) :
    (agrData.accepted time).wakeTimeUs = time := rfl

@[simp] theorem AgreementData.accepted_wakeIntervalUs (agrData : AgreementData) (time : BitVec 64) :
    (agrData.accepted time).wakeIntervalUs = agrData.wakeIntervalUs := rfl

@[simp] theorem AgreementData.accepted_wakeDurationUs (agrData : AgreementData) (time : BitVec 64) :
    (agrData.accepted time).wakeDurationUs = agrData.wakeDurationUs := rfl

/-- Where an agreement comes to stand in the lists, and at which wake time. -/
inductive Placed
    (data : Key → AgreementData)
    (key : Key)
    (allocates : Bool)
    (lists : List (List Key)) : BitVec 64 → List (List Key) → Prop
  | unlinked :
      agreementWakeIntervalGet (fun key => (data key).wakeIntervalUs) (data key).wakeIntervalUs
          allocates lists = none →
        Placed data key allocates lists (data key).wakeTimeUs lists
  | first {before after : List (List Key)} :
      agreementWakeIntervalGet (fun key => (data key).wakeIntervalUs) (data key).wakeIntervalUs
          allocates lists = some (before, [], after) →
        Placed data key allocates lists 0 (before ++ [key] :: after)
  | tail {before after : List (List Key)} {ptr : Key} {rest : List Key} :
      agreementWakeIntervalGet (fun key => (data key).wakeIntervalUs) (data key).wakeIntervalUs
          allocates lists = some (before, ptr :: rest, after) →
        getCommand (data key).params.reqType = .demand →
          Placed data key allocates lists (data key).wakeTimeUs
            (before ++ (ptr :: rest ++ [key]) :: after)
  | gap {before after : List (List Key)} {ptr : Key} {rest entered : List Key}
      {time : BitVec 64} :
      agreementWakeIntervalGet (fun key => (data key).wakeIntervalUs) (data key).wakeIntervalUs
          allocates lists = some (before, ptr :: rest, after) →
        getCommand (data key).params.reqType ≠ .demand →
          insertIntoGap data key (data key).wakeDurationUs (ptr :: rest) = some (time, entered) →
            Placed data key allocates lists time (before ++ entered :: after)

/-! ## The moves -/

/-- Agreements are unlinked and given up; the others stay as they are, or have no
place in the lists before and after. -/
structure Releases (before after : Schedule) (gone : List Key) : Prop where
  lists : after.lists = gone.foldl (fun lists key => unlink key lists) before.lists
  kept : ∀ key, key ∉ gone → after.agreement key = before.agreement key ∨
    (before.state key).isLinked = false ∧ (after.state key).isLinked = false
  given : ∀ key ∈ gone, (after.state key).isLinked = false

/-- A requested agreement is accepted, which none was before. -/
structure Admits
    (before after : Schedule)
    (key : Key)
    (agrData : AgreementData)
    (allocates : Bool) : Prop where
  vacant : before.state key = .noAgreement
  placed : ∃ state wakeTimeUs, state.isLinked = true ∧
    after.agreement =
        Function.update before.agreement key ⟨state, agrData.accepted wakeTimeUs⟩ ∧
      Placed (Function.update before.data key agrData) key allocates before.lists wakeTimeUs
        after.lists

/-- An agreement that is considered is settled with the data of an answer. -/
structure Settles
    (before after : Schedule)
    (key : Key)
    (agrData : AgreementData) : Prop where
  considered : (before.state key).isConsidered = true
  lists : after.lists = before.lists
  agreement : after.agreement = Function.update before.agreement key ⟨.agreement, agrData⟩

theorem Releases.refl (schedule : Schedule) : Releases schedule schedule [] :=
  ⟨rfl, fun _ _ => .inl rfl, by rintro _ ⟨⟩⟩

theorem Releases.trans {some others : List Key} (former : Releases first second some)
    (latter : Releases second third others) :
    Releases first third (some ++ others) where
  lists := by rw [latter.lists, former.lists, List.foldl_append]
  kept key away := by
    rw [List.mem_append, not_or] at away
    rcases former.kept key away.1 with same | ⟨before, between⟩
    · rw [Schedule.state, ← same]
      exact latter.kept key away.2
    · rcases latter.kept key away.2 with same | ⟨_, after⟩
      · rw [Schedule.state, ← same] at between
        exact .inr ⟨before, between⟩
      · exact .inr ⟨before, after⟩
  given key member := by
    by_cases again : key ∈ others
    · exact latter.given key again
    · rw [List.mem_append, or_iff_left again] at member
      have given := former.given key member
      rcases latter.kept key again with same | ⟨_, after⟩
      · rw [Schedule.state, same]
        exact given
      · exact after

theorem Releases.of_update (lists : after.lists = before.lists)
    (agreement : after.agreement = Function.update before.agreement key agr)
    (unlinkedBefore : (before.state key).isLinked = false)
    (unlinkedAfter : agr.state.isLinked = false) :
    Releases before after [] where
  lists := lists
  kept other _ := by
    by_cases same : other = key
    · subst same
      refine .inr ⟨unlinkedBefore, ?_⟩
      rw [Schedule.state, agreement, Function.update_self]
      exact unlinkedAfter
    · rw [agreement, Function.update_of_ne same]
      exact .inl rfl
  given := by rintro _ ⟨⟩

namespace MorseTwt

/-- The schedule of an access point. -/
def schedule (twt : MorseTwt) : Schedule := ⟨twt.wakeIntervals, twt.agreement⟩

variable {twt next : MorseTwt} {key : Key}

/-! ## Changes to stations -/

@[simp] theorem wakeIntervals_modifySta (addr : Addr) (change : Sta → Sta) :
    (twt.modifySta addr change).wakeIntervals = twt.wakeIntervals := by
  unfold modifySta
  split <;> rfl

@[simp] theorem isSome_stas_modifySta (addr other : Addr) (change : Sta → Sta) :
    ((twt.modifySta addr change).stas other).isSome = (twt.stas other).isSome := by
  unfold modifySta
  split
  · next sta found =>
      by_cases same : other = addr
      · subst same
        simp [found]
      · simp [Function.update_of_ne same]
  · rfl

theorem agreement_modifySta_of_eq (keeps : ∀ sta, (change sta).agreements = sta.agreements)
    (addr : Addr) :
    (twt.modifySta addr change).agreement = twt.agreement := by
  funext other
  unfold modifySta
  split
  · next sta found =>
      by_cases same : other.1 = addr
      · subst same
        simp only [agreement, Function.update_self, found, keeps]
      · simp only [agreement, Function.update_of_ne same]
  · rfl

theorem agreement_setAgreement (present : (twt.stas key.1).isSome) (agr : Agreement) :
    (twt.setAgreement key agr).agreement = Function.update twt.agreement key agr := by
  obtain ⟨sta, found⟩ := Option.isSome_iff_exists.mp present
  funext other
  simp only [setAgreement, modifySta, found]
  by_cases same : other.1 = key.1
  · simp only [agreement, same, Function.update_self]
    by_cases flow : other.2 = key.2
    · rw [flow, Function.update_self, Prod.ext same flow, Function.update_self]
    · have different : other ≠ key := fun equal => flow (congrArg Prod.snd equal)
      rw [Function.update_of_ne flow, Function.update_of_ne different]
      simp only [agreement, same, found]
  · have different : other ≠ key := fun equal => same (congrArg Prod.fst equal)
    rw [Function.update_of_ne different]
    simp only [agreement, Function.update_of_ne same]

@[simp] theorem wakeIntervals_setAgreement (agr : Agreement) :
    (twt.setAgreement key agr).wakeIntervals = twt.wakeIntervals :=
  wakeIntervals_modifySta _ _

@[simp] theorem isSome_stas_setAgreement (agr : Agreement) (other : Addr) :
    ((twt.setAgreement key agr).stas other).isSome = (twt.stas other).isSome :=
  isSome_stas_modifySta _ _ _

theorem agreement_setState (present : (twt.stas key.1).isSome) (state : State) :
    (twt.setState key state).agreement =
      Function.update twt.agreement key ⟨state, twt.data key⟩ :=
  agreement_setAgreement present _

theorem agreement_setData (present : (twt.stas key.1).isSome) (agrData : AgreementData) :
    (twt.setData key agrData).agreement =
      Function.update twt.agreement key ⟨twt.state key, agrData⟩ :=
  agreement_setAgreement present _

@[simp] theorem wakeIntervals_setState (state : State) :
    (twt.setState key state).wakeIntervals = twt.wakeIntervals :=
  wakeIntervals_setAgreement _

@[simp] theorem wakeIntervals_setData (agrData : AgreementData) :
    (twt.setData key agrData).wakeIntervals = twt.wakeIntervals :=
  wakeIntervals_setAgreement _

@[simp] theorem isSome_stas_setState (state : State) (other : Addr) :
    ((twt.setState key state).stas other).isSome = (twt.stas other).isSome :=
  isSome_stas_setAgreement _ _

@[simp] theorem isSome_stas_setData (agrData : AgreementData) (other : Addr) :
    ((twt.setData key agrData).stas other).isSome = (twt.stas other).isSome :=
  isSome_stas_setAgreement _ _

@[simp] theorem wakeIntervals_clearAction (addr : Addr) :
    (twt.clearAction addr).wakeIntervals = twt.wakeIntervals :=
  wakeIntervals_modifySta _ _

@[simp] theorem isSome_stas_clearAction (addr other : Addr) :
    ((twt.clearAction addr).stas other).isSome = (twt.stas other).isSome :=
  isSome_stas_modifySta _ _ _

@[simp] theorem agreement_clearAction (addr : Addr) :
    (twt.clearAction addr).agreement = twt.agreement := by
  apply agreement_modifySta_of_eq
  intro sta
  rfl

theorem agreement_addSta (absent : (twt.stas addr).isSome = false) :
    (twt.addSta addr).agreement = twt.agreement := by
  have missing : twt.stas addr = none := by simpa using absent
  funext other
  by_cases same : other.1 = addr
  · simp only [agreement, addSta, same, Function.update_self, missing, Sta.added]
  · simp only [agreement, addSta, Function.update_of_ne same]

theorem getOrAddSta_eq_some (finds : twt.getOrAddSta addr allocates = some found) :
    (found.stas addr).isSome ∧ found.schedule = twt.schedule ∧ found.tx = twt.tx ∧
      found.actionIsPending addr = twt.actionIsPending addr := by
  unfold getOrAddSta at finds
  split at finds
  · next present =>
      cases finds
      exact ⟨present, rfl, rfl, rfl⟩
  · next absent =>
      split at finds
      · cases finds
        have missing : twt.stas addr = none := by simpa using absent
        refine ⟨by simp [addSta], ?_, rfl, ?_⟩
        · rw [schedule, agreement_addSta (by simpa using absent)]
          rfl
        · simp only [actionIsPending, addSta, Function.update_self, missing]
          rfl
      · cases finds

/-! ## Releases -/

/-- The agreements of a station. -/
def keysOf (addr : Addr) : List Key := (List.finRange 8).map fun flow => (addr, flow)

theorem mem_keysOf : key ∈ keysOf addr ↔ key.1 = addr := by
  constructor
  · intro member
    obtain ⟨flow, _, rfl⟩ := List.mem_map.mp member
    rfl
  · intro same
    exact List.mem_map.mpr ⟨key.2, List.mem_finRange _, Prod.ext same.symm rfl⟩

theorem foldl_agreementRemove (addr : Addr) (flows : List Flow) :
    flows.foldl (fun twt flow => twt.agreementRemove (addr, flow)) twt =
      { twt with
        wakeIntervals :=
          (flows.map fun flow => (addr, flow)).foldl (fun lists key => unlink key lists)
            twt.wakeIntervals } := by
  induction flows generalizing twt with
  | nil => rfl
  | cons flow rest ih =>
    rw [List.foldl_cons, ih]
    rfl

theorem releases_staRemove (addr : Addr) :
    Releases twt.schedule (twt.staRemove addr).schedule (keysOf addr) := by
  have lists : (twt.staRemove addr).wakeIntervals =
      (keysOf addr).foldl (fun lists key => unlink key lists) twt.wakeIntervals := by
    rfl
  have stas : (twt.staRemove addr).stas = Function.update twt.stas addr none := by
    rw [staRemove, foldl_agreementRemove]
  refine ⟨lists, ?_, ?_⟩
  · intro key away
    have different : key.1 ≠ addr := fun same => away (mem_keysOf.mpr same)
    simp only [schedule, agreement, stas, Function.update_of_ne different]
    exact .inl trivial
  · intro key member
    simp only [Schedule.state, schedule, agreement, stas, mem_keysOf.mp member,
      Function.update_self]
    rfl

theorem releases_enterStateNoAgreement (twt : MorseTwt) (key : Key)
    (present : (twt.stas key.1).isSome) :
    ∃ gone, Releases twt.schedule (twt.enterStateNoAgreement key).schedule gone ∧
      ∀ other ∈ gone, other = key ∨ twt.state other = .noAgreement := by
  have agreements := agreement_setState present .noAgreement
  generalize removed_eq : (twt.setState key .noAgreement).agreementRemove key = removed
  have removedAgreement : removed.agreement =
      Function.update twt.agreement key ⟨.noAgreement, twt.data key⟩ := by
    rw [← removed_eq, ← agreements]
    rfl
  have removedLists : removed.wakeIntervals = unlink key twt.wakeIntervals := by
    rw [← removed_eq, agreementRemove, wakeIntervals_setState]
  have single : Releases twt.schedule removed.schedule [key] := by
    refine ⟨removedLists, ?_, ?_⟩
    · intro other away
      refine .inl ?_
      simp only [schedule, removedAgreement]
      exact Function.update_of_ne (fun same => away (by simp [same])) _ _
    · intro other member
      rw [List.mem_singleton.mp member]
      simp only [Schedule.state, schedule, removedAgreement, Function.update_self]
      rfl
  rw [enterStateNoAgreement, staAgreementRemove, removed_eq]
  split
  · next none =>
      refine ⟨[key] ++ keysOf key.1, single.trans (releases_staRemove key.1), ?_⟩
      intro other member
      by_cases same : other = key
      · exact .inl same
      · refine .inr ?_
        have station : other.1 = key.1 := by
          rcases List.mem_append.mp member with single | others
          · exact absurd (List.mem_singleton.mp single) same
          · exact mem_keysOf.mp others
        have vacant := none other.2
        rw [← station, state, removedAgreement, Function.update_of_ne same] at vacant
        exact vacant
  · exact ⟨[key], single, fun other member => .inl (List.mem_singleton.mp member)⟩

/-! ## Answers -/

theorem schedule_answer (twt : MorseTwt) (key : Key) (cmd : SetupCmd) (agrData : AgreementData)
    (enter : MorseTwt → MorseTwt) :
    (twt.answer key cmd agrData enter).schedule = twt.schedule ∨
      twt.actionIsPending key.1 = true ∧
        twt.answer key cmd agrData enter = enter (twt.clearAction key.1) := by
  unfold answer
  split
  · next pending => exact .inr ⟨pending, rfl⟩
  · exact .inl rfl

theorem releases_sendReject (twt : MorseTwt) (key : Key) (present : (twt.stas key.1).isSome)
    (agrData : AgreementData) :
    ∃ gone, Releases twt.schedule (twt.sendReject key agrData).schedule gone ∧
      (twt.actionIsPending key.1 = false → gone = []) ∧
      ∀ other ∈ gone, other = key ∨ twt.state other = .noAgreement := by
  rcases schedule_answer twt key .reject (agrData.withCommand .reject)
    (fun twt => twt.enterStateNoAgreement key) with same | ⟨pending, entered⟩
  · refine ⟨[], ?_, fun _ => rfl, by rintro _ ⟨⟩⟩
    rw [sendReject, same]
    exact .refl _
  · have cleared : (twt.clearAction key.1).schedule = twt.schedule := by
      simp only [schedule, agreement_clearAction, wakeIntervals_clearAction]
    obtain ⟨gone, releases, which⟩ :=
      releases_enterStateNoAgreement (twt.clearAction key.1) key (by simpa)
    refine ⟨gone, ?_, ?_, ?_⟩
    · rw [sendReject, entered, ← cleared]
      exact releases
    · intro notPending
      rw [pending] at notPending
      cases notPending
    · intro other member
      simpa only [state, agreement_clearAction] using which other member

theorem agreement_enterStateAgreement (present : (twt.stas key.1).isSome)
    (agrData : AgreementData) :
    (twt.enterStateAgreement key agrData).agreement =
      Function.update twt.agreement key ⟨.agreement, agrData⟩ := by
  have still : ((twt.setState key .agreement).stas key.1).isSome := by simpa
  rw [enterStateAgreement, agreement_setData still, state, agreement_setState present,
    Function.update_self, Function.update_idem]

@[simp] theorem wakeIntervals_enterStateAgreement (agrData : AgreementData) :
    (twt.enterStateAgreement key agrData).wakeIntervals = twt.wakeIntervals := by
  rw [enterStateAgreement, wakeIntervals_setData, wakeIntervals_setState]

theorem agreementWakeIntervalAdd_eq_some (present : (twt.stas key.1).isSome)
    (considered : (twt.state key).isConsidered = true)
    (added : twt.agreementWakeIntervalAdd key allocates = some (ret, next)) :
    (next.stas key.1).isSome ∧ ∃ wakeTimeUs,
      next.agreement = Function.update twt.agreement key
          ⟨twt.state key, { twt.data key with wakeTimeUs := wakeTimeUs }⟩ ∧
        Placed twt.data key allocates twt.wakeIntervals wakeTimeUs next.wakeIntervals := by
  have linking : ∀ wakeTimeUs before agreements after,
      ((twt.link key wakeTimeUs before agreements after).stas key.1).isSome ∧
      (twt.link key wakeTimeUs before agreements after).agreement =
        Function.update twt.agreement key
          ⟨twt.state key, { twt.data key with wakeTimeUs := wakeTimeUs }⟩ := by
    intro wakeTimeUs before agreements after
    exact ⟨(isSome_stas_setData _ _).trans present, agreement_setData present _⟩
  have unchanged : twt.agreement = Function.update twt.agreement key
      ⟨twt.state key, { twt.data key with wakeTimeUs := (twt.data key).wakeTimeUs }⟩ :=
    (Function.update_eq_self key twt.agreement).symm
  unfold agreementWakeIntervalAdd at added
  split at added
  · next other =>
      rcases other with state | state <;> rw [state] at considered <;> cases considered
  · split at added
    · next none =>
        cases added
        exact ⟨present, _, unchanged, .unlinked none⟩
    · next before after found =>
        cases added
        exact ⟨(linking _ _ _ _).1, _, (linking _ _ _ _).2, .first found⟩
    · next before ptr rest after found =>
        split at added
        · next demand =>
            cases added
            exact ⟨(linking _ _ _ _).1, _, (linking _ _ _ _).2, .tail found demand⟩
        · next notDemand =>
            obtain ⟨⟨time, entered⟩, placed, result⟩ := Option.map_eq_some_iff.mp added
            cases result
            exact ⟨(linking _ _ _ _).1, _, (linking _ _ _ _).2, .gap found notDemand placed⟩

theorem sendAccept_eq_some (present : (twt.stas key.1).isSome)
    (considered : (twt.state key).isConsidered = true)
    (accepted : twt.sendAccept key agrData allocates = some next) :
    ∃ state wakeTimeUs, (state = twt.state key ∨ state = .agreement) ∧
      next.agreement =
          Function.update twt.agreement key ⟨state, agrData.accepted wakeTimeUs⟩ ∧
        Placed (Function.update twt.data key agrData) key allocates twt.wakeIntervals wakeTimeUs
          next.wakeIntervals := by
  obtain ⟨⟨ret, linked⟩, added, rfl⟩ := Option.map_eq_some_iff.mp accepted
  have copied := agreement_setData present agrData
  have copiedState : (twt.setData key agrData).state key = twt.state key := by
    rw [state, copied, Function.update_self]
  have copiedData : (twt.setData key agrData).data = Function.update twt.data key agrData := by
    funext other
    rw [data, copied]
    by_cases same : other = key
    · rw [same, Function.update_self, Function.update_self]
    · rw [Function.update_of_ne same, Function.update_of_ne same]
      rfl
  obtain ⟨there, wakeTimeUs, agreements, placed⟩ :=
    agreementWakeIntervalAdd_eq_some (by simpa) (by rw [copiedState]; exact considered) added
  rw [copiedData, wakeIntervals_setData] at placed
  rw [copied, copiedState, copiedData, Function.update_self, Function.update_idem] at agreements
  have linkedData : linked.data key = { agrData with wakeTimeUs := wakeTimeUs } := by
    rw [data, agreements, Function.update_self]
  have linkedState : linked.state key = twt.state key := by
    rw [state, agreements, Function.update_self]
  have settled : (linked.setData key (agrData.accepted wakeTimeUs)).agreement =
      Function.update twt.agreement key ⟨twt.state key, agrData.accepted wakeTimeUs⟩ := by
    rw [agreement_setData there, agreements, linkedState, Function.update_idem]
  simp only [linkedData]
  rcases schedule_answer (linked.setData key (agrData.accepted wakeTimeUs)) key
    .accept (agrData.accepted wakeTimeUs)
    (fun twt => twt.enterStateAgreement key (agrData.accepted wakeTimeUs))
    with same | ⟨_, entered⟩
  · have lists := congrArg Schedule.lists same
    have states := congrArg Schedule.agreement same
    simp only [schedule, wakeIntervals_setData] at lists states
    refine ⟨twt.state key, wakeTimeUs, .inl rfl, states.trans settled, ?_⟩
    rw [AgreementData.accepted] at lists
    rw [lists]
    exact placed
  · rw [AgreementData.accepted] at entered
    rw [entered]
    refine ⟨.agreement, wakeTimeUs, .inr rfl, ?_, ?_⟩
    · rw [agreement_enterStateAgreement (by simpa), agreement_clearAction]
      rw [AgreementData.accepted] at settled
      rw [settled, Function.update_idem]
      rfl
    · rw [wakeIntervals_enterStateAgreement, wakeIntervals_clearAction, wakeIntervals_setData]
      exact placed

/-! ## What an action does to the schedule -/

theorem admits_handleEventInNoAgreement (present : (twt.stas key.1).isSome)
    (vacant : twt.state key = .noAgreement) (which : cmd = .request ∨ cmd = .suggest)
    (handled : twt.handleEventInNoAgreement key cmd agrData allocates = some next) :
    Admits twt.schedule next.schedule key agrData allocates := by
  have entering : ∀ considered : State, considered.isConsidered = true →
      considered.isLinked = true →
        (twt.setState key considered).sendAccept key agrData allocates = some next →
          Admits twt.schedule next.schedule key agrData allocates := by
    intro considered isConsidered isLinked accepted
    have agreements := agreement_setState present considered
    have stateEq : (twt.setState key considered).state key = considered := by
      rw [state, agreements, Function.update_self]
    have dataEq : Function.update (twt.setState key considered).data key agrData =
        Function.update twt.data key agrData := by
      funext other
      by_cases same : other = key
      · rw [same, Function.update_self, Function.update_self]
      · rw [Function.update_of_ne same, Function.update_of_ne same, data, agreements,
          Function.update_of_ne same]
        rfl
    obtain ⟨entered, wakeTimeUs, which, result, placed⟩ :=
      sendAccept_eq_some (by simpa) (by rw [stateEq]; exact isConsidered) accepted
    rw [agreements, Function.update_idem] at result
    rw [dataEq, wakeIntervals_setState] at placed
    refine ⟨vacant, entered, wakeTimeUs, ?_, result, placed⟩
    rcases which with rfl | rfl
    · rw [stateEq]
      exact isLinked
    · rfl
  rcases which with rfl | rfl
  · exact entering .considerRequest rfl rfl handled
  · exact entering .considerSuggest rfl rfl handled

theorem releases_demand (present : (twt.stas key.1).isSome) (vacant : twt.state key = .noAgreement)
    (agrData : AgreementData) :
    ∃ gone, Releases twt.schedule
        ((twt.setState key .considerDemand).sendReject key agrData).schedule gone ∧
      ∀ other ∈ gone, twt.state other = .noAgreement := by
  have agreements := agreement_setState present .considerDemand
  have entered : Releases twt.schedule (twt.setState key .considerDemand).schedule [] := by
    refine .of_update (wakeIntervals_setState _) agreements ?_ rfl
    change (twt.state key).isLinked = false
    rw [vacant]
    rfl
  obtain ⟨gone, releases, _, which⟩ :=
    releases_sendReject (twt.setState key .considerDemand) key (by simpa) agrData
  refine ⟨[] ++ gone, entered.trans releases, ?_⟩
  intro other member
  rcases which other member with rfl | none
  · exact vacant
  · by_cases same : other = key
    · rw [same]
      exact vacant
    · rw [state, agreements, Function.update_of_ne same] at none
      exact none

theorem handleOne_setup (body : event.body = .setup cmd agrData)
    (handled : twt.handleOne event memory = some (go, next)) :
    ((cmd = .request ∨ cmd = .suggest) ∧
        Admits twt.schedule next.schedule event.key agrData memory.wakeInterval) ∨
      ∃ gone, Releases twt.schedule next.schedule gone ∧
        ((∀ other ∈ gone, twt.state other = .noAgreement) ∨
          twt.state event.key = .agreement ∧ twt.actionIsPending event.addr = true ∧
            twt.peekTx event.addr (some event.flowId) = none) := by
  have still : twt.schedule = next.schedule → ∃ gone, Releases twt.schedule next.schedule gone ∧
      ((∀ other ∈ gone, twt.state other = .noAgreement) ∨
        twt.state event.key = .agreement ∧ twt.actionIsPending event.addr = true ∧
          twt.peekTx event.addr (some event.flowId) = none) := by
    intro same
    rw [← same]
    exact ⟨[], .refl _, .inl (by rintro _ ⟨⟩)⟩
  simp only [handleOne, body] at handled
  split at handled
  · cases handled
    exact .inr (still rfl)
  · next isReq =>
      split at handled
      · cases handled
        exact .inr (still rfl)
      · next found finds =>
          obtain ⟨present, same, sameTx, samePending⟩ := getOrAddSta_eq_some finds
          have states : ∀ other, found.state other = twt.state other := fun other =>
            congrArg (fun schedule => (schedule.agreement other).state) same
          obtain ⟨result, handled, equal⟩ := Option.map_eq_some_iff.mp handled
          cases equal
          rw [← same]
          unfold handleSetup at handled
          split at handled
          · next vacant =>
              have rejecting : ∃ gone, Releases found.schedule
                  ((found.setState event.key .considerDemand).sendReject event.key
                    agrData).schedule gone ∧
                  ((∀ other ∈ gone, twt.state other = .noAgreement) ∨
                    twt.state event.key = .agreement ∧ twt.actionIsPending event.addr = true ∧
                      twt.peekTx event.addr (some event.flowId) = none) := by
                obtain ⟨gone, releases, which⟩ := releases_demand present vacant agrData
                exact ⟨gone, releases,
                  .inl fun other member => (states other).symm.trans (which other member)⟩
              cases cmd with
              | request =>
                exact .inl ⟨.inl rfl,
                  admits_handleEventInNoAgreement present vacant (.inl rfl) handled⟩
              | suggest =>
                exact .inl ⟨.inr rfl,
                  admits_handleEventInNoAgreement present vacant (.inr rfl) handled⟩
              | demand =>
                cases handled
                exact .inr rejecting
              | grouping =>
                cases handled
                exact .inr rejecting
              | accept => cases isReq rfl
              | alternate => cases isReq rfl
              | dictate => cases isReq rfl
              | reject => cases isReq rfl
          all_goals try
            cases handled
            exact .inr ⟨[], .refl _, .inl (by rintro _ ⟨⟩)⟩
          next stands =>
            cases handled
            unfold handleEventInAgreement
            split
            · exact .inr ⟨[], .refl _, .inl (by rintro _ ⟨⟩)⟩
            · next silent =>
                obtain ⟨gone, releases, pending, which⟩ :=
                  releases_sendReject found event.key present agrData
                refine .inr ⟨gone, releases, ?_⟩
                by_cases waits : twt.actionIsPending event.addr = true
                · refine .inr ⟨(states _).symm.trans stands, waits, ?_⟩
                  have none : found.peekTx event.addr (some event.flowId) = none :=
                    Option.not_isSome_iff_eq_none.mp silent
                  rw [peekTx, ← sameTx]
                  exact none
                · have none := pending (by rw [← Bool.not_eq_true] ; exact samePending ▸ waits)
                  rw [none]
                  exact .inl (by rintro _ ⟨⟩)

theorem handleOne_teardown (body : event.body = .teardown)
    (handled : twt.handleOne event memory = some (go, next)) :
    ∃ gone, Releases twt.schedule next.schedule gone := by
  simp only [handleOne, body] at handled
  cases handled
  split
  · next present =>
      obtain ⟨gone, releases, _⟩ := releases_enterStateNoAgreement twt event.key present
      exact ⟨gone, releases⟩
  · exact ⟨[], .refl _⟩

theorem dequeueTxResponse_cases (twt : MorseTwt) (tx : Event) :
    (twt.dequeueTxResponse tx).2 = twt ∨
      (twt.stas tx.addr).isSome ∧ (twt.state tx.key).isConsidered = true ∧
        ((twt.dequeueTxResponse tx).2 = twt.enterStateNoAgreement tx.key ∨
          ∃ agrData, tx.body = .setup .accept agrData ∧
            (twt.dequeueTxResponse tx).2 = twt.enterStateAgreement tx.key agrData) := by
  unfold dequeueTxResponse
  split
  · next present =>
      generalize twt.state tx.key = state
      cases state with
      | noAgreement => exact .inl rfl
      | agreement => exact .inl rfl
      | considerRequest | considerSuggest | considerDemand | considerGrouping =>
        simp only
        split
        · next agrData body => exact .inr ⟨present, rfl, .inr ⟨agrData, body, rfl⟩⟩
        · exact .inr ⟨present, rfl, .inl rfl⟩
        · exact .inl rfl
  · exact .inl rfl

end MorseTwt

open MorseTwt in
/-- What an action does to the schedule. -/
inductive Moves (twt next : MorseTwt) : Action → Prop
  | releases {action : Action} {gone : List Key} :
      Releases twt.schedule next.schedule gone → Moves twt next action
  | admits {addr : Option Addr} {memory : Memory} {event : Event} {cmd : SetupCmd}
      {agrData : AgreementData} :
      twt.events.find? (sought addr) = some event → event.body = .setup cmd agrData →
        (cmd = .request ∨ cmd = .suggest) →
          Admits twt.schedule next.schedule event.key agrData memory.wakeInterval →
            Moves twt next (.handleNext addr memory)
  | settles {addr : Addr} {tx : Event} {agrData : AgreementData} :
      twt.peekTx addr none = some tx → tx.body = .setup .accept agrData →
        Settles twt.schedule next.schedule tx.key agrData →
          Moves twt next (.txAssocResponse addr)

variable {twt next : MorseTwt} {action : Action}

theorem Moves.of_schedule_eq (same : next.schedule = twt.schedule) : Moves twt next action := by
  have releases : Releases twt.schedule next.schedule [] := by
    rw [same]
    exact .refl _
  exact .releases releases

theorem moves_txAssocResponse (addr : Addr) :
    Moves twt (twt.txAssocResponse addr).2 (.txAssocResponse addr) := by
  unfold MorseTwt.txAssocResponse
  split
  · exact .of_schedule_eq rfl
  · next tx found =>
      generalize taken_eq : ({ twt with
        tx := twt.tx.eraseP fun event => event.isFor addr none } : MorseTwt) = taken
      have same : taken.schedule = twt.schedule := by
        rw [← taken_eq]
        rfl
      rcases taken.dequeueTxResponse_cases tx with unchanged | ⟨present, considered, entered⟩
      · rw [unchanged]
        exact .of_schedule_eq same
      · rcases entered with entered | ⟨agrData, body, entered⟩
        · obtain ⟨gone, releases, _⟩ :=
            MorseTwt.releases_enterStateNoAgreement taken tx.key present
          rw [entered]
          exact .releases (same ▸ releases)
        · rw [entered]
          refine .settles found body (same ▸ ⟨considered, ?_, ?_⟩)
          · exact MorseTwt.wakeIntervals_enterStateAgreement agrData
          · exact MorseTwt.agreement_enterStateAgreement present agrData

theorem moves_handleNext (handled : twt.handleNext addr memory = some (go, next)) :
    Moves twt next (.handleNext addr memory) := by
  unfold MorseTwt.handleNext at handled
  split at handled
  · cases handled
    exact .of_schedule_eq rfl
  · next event found =>
      cases body : event.body with
      | teardown =>
        obtain ⟨gone, releases⟩ := MorseTwt.handleOne_teardown body handled
        exact .releases releases
      | setup cmd agrData =>
        rcases MorseTwt.handleOne_setup body handled with ⟨which, admits⟩ | ⟨gone, releases, _⟩
        · exact .admits found body which admits
        · exact .releases releases

theorem step_moves (taken : step twt action = some next) : Moves twt next action := by
  cases action with
  | processTwtIe element srcAddr allocatesEvent allocatesData =>
    cases taken
    refine .of_schedule_eq ?_
    unfold MorseTwt.processTwtIe
    repeat' split
    all_goals rfl
  | noteActionFrame srcAddr dialogToken allocates =>
    cases taken
    refine .of_schedule_eq ?_
    unfold MorseTwt.noteActionFrame
    split
    · rfl
    · next found finds =>
        have same := (MorseTwt.getOrAddSta_eq_some finds).2.1
        rw [← same]
        simp only [MorseTwt.schedule, MorseTwt.wakeIntervals_modifySta]
        congr 1
        apply MorseTwt.agreement_modifySta_of_eq
        intro sta
        rfl
  | processTwtTeardown srcAddr flow =>
    cases taken
    refine .of_schedule_eq ?_
    unfold MorseTwt.processTwtTeardown
    split <;> rfl
  | handleNext addr memory =>
    obtain ⟨⟨go, result⟩, handled, rfl⟩ := Option.map_eq_some_iff.mp taken
    exact moves_handleNext handled
  | txAssocResponse addr =>
    cases taken
    exact moves_txAssocResponse addr
  | staRemoveAddr addr =>
    cases taken
    unfold MorseTwt.staRemoveAddr
    split
    · exact .releases (MorseTwt.releases_staRemove addr)
    · exact .of_schedule_eq rfl
  | eventQueuePurge addr =>
    cases taken
    exact .of_schedule_eq rfl

end Twt
end Morse
