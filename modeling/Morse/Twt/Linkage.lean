import Mathlib.Data.Nat.Basic
import Morse.Twt.Schedule

/-!
# Linked agreements

An agreement has a place in the wake interval lists from the moment its request
is considered for acceptance until it is given up.  Each list holds the
agreements of one wake interval, and the lists are in ascending order.  The
lists rest on two things the code does not look at: that a new list could be
allocated, and that an acceptance which an association response takes answers
the request under consideration, not an earlier one.
-/

namespace Morse
namespace Twt

open Lib

variable {data : Key → AgreementData} {key : Key} {allocates : Bool}
  {lists entered before after : List (List Key)} {group : List Key} {time : BitVec 64}

/-! ## Placing an agreement -/

theorem located_agreementWakeIntervalGet (grouped : Grouped (fun key => (interval key).toNat) lists)
    (found : agreementWakeIntervalGet interval sought allocates lists =
      some (before, group, after)) :
    Located (fun key => (interval key).toNat) lists sought.toNat before group after := by
  induction lists generalizing before with
  | nil =>
    simp only [agreementWakeIntervalGet] at found
    split at found
    · cases found
      exact ⟨rfl, by rintro _ ⟨⟩, by rintro _ ⟨⟩, by rintro _ ⟨⟩⟩
    · cases found
  | cons wakeInterval rest ih =>
    have first := List.pairwise_cons.mp grouped.ascending
    cases wakeInterval with
    | nil => cases found
    | cons agr agreements =>
      have same : ∀ key ∈ agr :: agreements, (interval key).toNat = (interval agr).toNat :=
        fun key member => grouped.same _ List.mem_cons_self key member agr List.mem_cons_self
      simp only [agreementWakeIntervalGet] at found
      split at found
      · next equal =>
          cases found
          refine ⟨rfl, by rintro _ ⟨⟩, ?_, ?_⟩
          · intro key member
            rw [same key member, equal]
          · intro other otherIn key member
            rw [← equal]
            exact first.1 other otherIn agr List.mem_cons_self key member
      · next different =>
          split at found
          · next larger =>
              split at found
              · cases found
                refine ⟨rfl, by rintro _ ⟨⟩, by rintro _ ⟨⟩, ?_⟩
                intro other otherIn key member
                rcases List.mem_cons.mp otherIn with rfl | otherIn
                · rw [same key member]
                  exact BitVec.lt_def.mp larger
                · exact (BitVec.lt_def.mp larger).trans
                    (first.1 other otherIn agr List.mem_cons_self key member)
              · cases found
          · next notLarger =>
              obtain ⟨⟨ahead, others⟩, foundRest, equal⟩ := Option.map_eq_some_iff.mp found
              cases equal
              have located := ih grouped.tail foundRest
              refine ⟨?_, ?_, located.equal, located.above⟩
              · rw [List.cons_append, ← located.split]
              · intro other otherIn key member
                rcases List.mem_cons.mp otherIn with rfl | otherIn
                · rw [same key member]
                  refine Nat.lt_of_le_of_ne ?_ ?_
                  · exact Nat.le_of_not_lt fun less => notLarger (BitVec.lt_def.mpr less)
                  · exact fun equal => different (BitVec.eq_of_toNat_eq equal)
                · exact located.below other otherIn key member

theorem agreementWakeIntervalGet_ne_none (nonempty : ∀ group ∈ lists, group ≠ []) :
    agreementWakeIntervalGet interval sought true lists ≠ none := by
  induction lists with
  | nil => rintro ⟨⟩
  | cons wakeInterval rest ih =>
    cases wakeInterval with
    | nil => exact absurd rfl (nonempty [] List.mem_cons_self)
    | cons agr agreements =>
      have others := ih fun group member =>
        nonempty group (List.mem_cons_of_mem _ member)
      simp only [agreementWakeIntervalGet]
      split
      · rintro ⟨⟩
      · split
        · rintro ⟨⟩
        · simpa using others

theorem perm_insertIntoGap {entered : List Key}
    (placed : insertIntoGap data key wakeDurationUs agreements = some (time, entered)) :
    entered.Perm (key :: agreements) := by
  induction agreements generalizing entered with
  | nil => cases placed
  | cons ptr rest ih =>
    cases rest with
    | nil =>
      cases placed
      exact .swap key ptr []
    | cons ptrNext rest =>
      simp only [insertIntoGap] at placed
      split at placed
      · cases placed
      · split at placed
        · cases placed
          exact .swap key ptr _
        · obtain ⟨⟨later, others⟩, placedRest, equal⟩ := Option.map_eq_some_iff.mp placed
          cases equal
          exact ((ih placedRest).cons ptr).trans (.swap key ptr _)

theorem Placed.grouped (placed : Placed data key allocates lists time entered)
    (grouped : Grouped (fun key => (data key).wakeIntervalUs.toNat) lists)
    (absent : key ∉ lists.flatten) :
    (allocates = false ∧ entered = lists) ∨
      Grouped (fun key => (data key).wakeIntervalUs.toNat) entered ∧
        entered.flatten.Perm (key :: lists.flatten) := by
  have entering : ∀ {before group after agreements},
      agreementWakeIntervalGet (fun key => (data key).wakeIntervalUs) (data key).wakeIntervalUs
        allocates lists = some (before, group, after) →
      agreements.Perm (key :: group) →
        Grouped (fun key => (data key).wakeIntervalUs.toNat) (before ++ agreements :: after) ∧
          (before ++ agreements :: after).flatten.Perm (key :: lists.flatten) := by
    intro before group after agreements found put
    have located := located_agreementWakeIntervalGet grouped found
    exact ⟨grouped.enter located put rfl absent, located.flatten_perm put⟩
  cases placed with
  | unlinked none =>
    refine .inl ⟨?_, rfl⟩
    by_contra present
    rw [Bool.not_eq_false] at present
    subst present
    exact agreementWakeIntervalGet_ne_none grouped.nonempty none
  | first found => exact .inr (entering found (.refl _))
  | tail found _ => exact .inr (entering found (List.perm_append_singleton key _))
  | gap found _ walked => exact .inr (entering found (perm_insertIntoGap walked))

/-! ## Linked agreements of a schedule -/

/-- The wake interval of an agreement. -/
def Schedule.interval (schedule : Schedule) (key : Key) : Nat :=
  (schedule.data key).wakeIntervalUs.toNat

/-- The lists are in order, and what they hold has a place in them. -/
structure Linkage (schedule : Schedule) : Prop where
  grouped : Grouped schedule.interval schedule.lists
  admitted : ∀ key ∈ schedule.linked, (schedule.state key).isLinked = true

/-- Every agreement that has a place in the lists is in one. -/
def Complete (schedule : Schedule) : Prop :=
  ∀ key, (schedule.state key).isLinked = true → key ∈ schedule.linked

variable {schedule next : Schedule} {agrData : AgreementData} {gone : List Key}

theorem Linkage.not_mem (linkage : Linkage schedule) (vacant : schedule.state key = .noAgreement) :
    key ∉ schedule.linked := by
  intro member
  have linked := linkage.admitted key member
  rw [vacant] at linked
  cases linked

theorem Releases.mem_linked (releases : Releases schedule next gone) (linkage : Linkage schedule) :
    key ∈ next.linked ↔ key ∈ schedule.linked ∧ key ∉ gone := by
  rw [Schedule.linked, releases.lists]
  exact linkage.grouped.mem_foldl_unlink

theorem Releases.agreement_eq (releases : Releases schedule next gone) (linkage : Linkage schedule)
    (member : key ∈ next.linked) :
    next.agreement key = schedule.agreement key := by
  obtain ⟨linked, away⟩ := (releases.mem_linked linkage).mp member
  rcases releases.kept key away with same | ⟨unlinked, _⟩
  · exact same
  · rw [linkage.admitted key linked] at unlinked
    cases unlinked

theorem Releases.linkage (releases : Releases schedule next gone) (linkage : Linkage schedule) :
    Linkage next where
  grouped := by
    have kept := linkage.grouped.foldl_unlink gone
    rw [← releases.lists] at kept
    refine kept.congr fun key member => ?_
    rw [Schedule.interval, Schedule.data, releases.agreement_eq linkage member]
    rfl
  admitted key member := by
    rw [Schedule.state, releases.agreement_eq linkage member]
    exact linkage.admitted key ((releases.mem_linked linkage).mp member).1

theorem Releases.complete (releases : Releases schedule next gone) (linkage : Linkage schedule)
    (complete : Complete schedule) :
    Complete next := by
  intro key linked
  have away : key ∉ gone := by
    intro member
    rw [releases.given key member] at linked
    cases linked
  refine (releases.mem_linked linkage).mpr ⟨complete key ?_, away⟩
  rcases releases.kept key away with same | ⟨_, unlinked⟩
  · rw [Schedule.state, ← same]
    exact linked
  · rw [unlinked] at linked
    cases linked

theorem Linkage.requested (linkage : Linkage schedule) (absent : key ∉ schedule.linked)
    (agrData : AgreementData) :
    Grouped (fun other => (Function.update schedule.data key agrData other).wakeIntervalUs.toNat)
      schedule.lists := by
  refine linkage.grouped.congr fun other member => ?_
  have different : other ≠ key := by
    rintro rfl
    exact absent member
  rw [Function.update_of_ne different]
  rfl

theorem Admits.linkage (admits : Admits schedule next key agrData allocates)
    (linkage : Linkage schedule) :
    Linkage next ∧ (allocates = false ∧ next.lists = schedule.lists ∨
      next.linked.Perm (key :: schedule.linked)) := by
  obtain ⟨state, wakeTimeUs, linked, agreement, placed⟩ := admits.placed
  have absent := linkage.not_mem admits.vacant
  have others : ∀ other ∈ schedule.linked, other ≠ key := by
    rintro other member rfl
    exact absent member
  have requested := linkage.requested absent agrData
  have interval : next.interval =
      fun other => (Function.update schedule.data key agrData other).wakeIntervalUs.toNat := by
    funext other
    rw [Schedule.interval, Schedule.data, agreement]
    by_cases same : other = key
    · rw [same, Function.update_self, Function.update_self]
      rfl
    · rw [Function.update_of_ne same, Function.update_of_ne same]
      rfl
  have states : ∀ other ∈ schedule.linked, (next.state other).isLinked = true := by
    intro other member
    rw [Schedule.state, agreement, Function.update_of_ne (others other member)]
    exact linkage.admitted other member
  rcases placed.grouped requested absent with ⟨memory, same⟩ | ⟨grouped, permutation⟩
  · refine ⟨⟨?_, ?_⟩, .inl ⟨memory, same⟩⟩
    · rw [interval, same]
      exact requested
    · intro other member
      rw [Schedule.linked, same] at member
      exact states other member
  · refine ⟨⟨?_, ?_⟩, .inr permutation⟩
    · rw [interval]
      exact grouped
    · intro other member
      rcases List.mem_cons.mp (permutation.mem_iff.mp member) with rfl | member
      · rw [Schedule.state, agreement, Function.update_self]
        exact linked
      · exact states other member

theorem Admits.complete (admits : Admits schedule next key agrData true)
    (linkage : Linkage schedule) (complete : Complete schedule) :
    Complete next := by
  obtain ⟨state, wakeTimeUs, _, agreement, _⟩ := admits.placed
  rcases (admits.linkage linkage).2 with ⟨none, _⟩ | permutation
  · cases none
  · intro other linked
    refine permutation.mem_iff.mpr ?_
    by_cases same : other = key
    · rw [same]
      exact List.mem_cons_self
    · rw [Schedule.state, agreement, Function.update_of_ne same] at linked
      exact List.mem_cons_of_mem _ (complete other linked)

theorem Settles.linkage (settles : Settles schedule next key agrData) (linkage : Linkage schedule)
    (interval : key ∈ schedule.linked →
      agrData.wakeIntervalUs = (schedule.data key).wakeIntervalUs) :
    Linkage next where
  grouped := by
    rw [settles.lists]
    refine linkage.grouped.congr fun other member => ?_
    rw [Schedule.interval, Schedule.data, settles.agreement]
    by_cases same : other = key
    · subst same
      rw [Function.update_self, interval member]
      rfl
    · rw [Function.update_of_ne same]
      rfl
  admitted other member := by
    rw [Schedule.state, settles.agreement]
    by_cases same : other = key
    · rw [same, Function.update_self]
      rfl
    · rw [Function.update_of_ne same]
      rw [Schedule.linked, settles.lists] at member
      exact linkage.admitted other member

theorem Settles.complete (settles : Settles schedule next key agrData)
    (linked : (schedule.state key).isLinked = true) (complete : Complete schedule) :
    Complete next := by
  intro other otherLinked
  rw [Schedule.linked, settles.lists]
  by_cases same : other = key
  · rw [same]
    exact complete key linked
  · rw [Schedule.state, settles.agreement, Function.update_of_ne same] at otherLinked
    exact complete other otherLinked

/-! ## Runs -/

/-- There is memory for a new list, and an acceptance that an association response
takes for an agreement under consideration answers the request considered: that
one is to be accepted, and its wake interval is that of the acceptance. -/
def AnswersAtHand (twt : MorseTwt) : Action → Prop
  | .handleNext _ memory => memory.wakeInterval = true
  | .txAssocResponse addr => ∀ tx agrData,
      twt.peekTx addr none = some tx → tx.body = .setup .accept agrData →
        (twt.state tx.key).isConsidered = true →
          (twt.state tx.key).isLinked = true ∧
            agrData.wakeIntervalUs = (twt.data tx.key).wakeIntervalUs
  | _ => True

/-- An agreement whose state is among those named is linked exactly once, and
others are not; each list holds agreements of one wake interval, and the lists
are in ascending order of it. -/
structure LinkedExactly (named : State → Bool) (twt : MorseTwt) : Prop where
  once : ∀ key, named (twt.state key) = true ↔ twt.wakeIntervals.flatten.count key = 1
  nonempty : ∀ agreements ∈ twt.wakeIntervals, agreements ≠ []
  same : ∀ agreements ∈ twt.wakeIntervals, ∀ first ∈ agreements, ∀ second ∈ agreements,
    (twt.data first).wakeIntervalUs = (twt.data second).wakeIntervalUs
  ascending : twt.wakeIntervals.Pairwise fun former latter =>
    ∀ first ∈ former, ∀ second ∈ latter,
      (twt.data first).wakeIntervalUs < (twt.data second).wakeIntervalUs

variable {twt after : MorseTwt} {action : Action}

theorem linkage_step (linkage : Linkage twt.schedule) (complete : Complete twt.schedule)
    (admitted : AnswersAtHand twt action) (taken : step twt action = some after) :
    Linkage after.schedule ∧ Complete after.schedule := by
  cases step_moves taken with
  | releases releases => exact ⟨releases.linkage linkage, releases.complete linkage complete⟩
  | admits _ _ _ admits =>
    rw [show _ = true from admitted] at admits
    exact ⟨(admits.linkage linkage).1, admits.complete linkage complete⟩
  | settles found body settles =>
    have answers := admitted _ _ found body settles.considered
    exact ⟨settles.linkage linkage fun _ => answers.2, settles.complete answers.1 complete⟩

/-- While acceptances answer the request at hand, the agreements linked are those
considered for acceptance and those that stand, each in one place. -/
theorem linkedExactly_of_reaches (reaches : Reaches step AnswersAtHand MorseTwt.initVif twt) :
    LinkedExactly State.isLinked twt ∧ twt.wakeIntervals.flatten.Nodup := by
  have initial : Linkage MorseTwt.initVif.schedule ∧ Complete MorseTwt.initVif.schedule :=
    ⟨⟨.nil, by rintro _ ⟨⟩⟩, by rintro _ ⟨⟩⟩
  obtain ⟨linkage, complete⟩ : Linkage twt.schedule ∧ Complete twt.schedule := by
    refine @Reaches.invariant _ _ step AnswersAtHand MorseTwt.initVif twt
      (fun twt => Linkage twt.schedule ∧ Complete twt.schedule) initial ?_ reaches
    intro before action after holds admitted taken
    exact linkage_step holds.1 holds.2 admitted taken
  refine ⟨⟨?_, linkage.grouped.nonempty, ?_, ?_⟩, linkage.grouped.distinct⟩
  · intro key
    constructor
    · intro linked
      exact List.count_eq_one_of_mem linkage.grouped.distinct (complete key linked)
    · intro once
      have occurs : 0 < twt.wakeIntervals.flatten.count key := by
        rw [once]
        exact Nat.one_pos
      exact linkage.admitted key (List.count_pos_iff.mp occurs)
  · intro agreements member first firstIn second secondIn
    exact BitVec.eq_of_toNat_eq
      (linkage.grouped.same agreements member first firstIn second secondIn)
  · refine linkage.grouped.ascending.imp ?_
    intro former latter less first firstIn second secondIn
    exact BitVec.lt_def.mpr (less first firstIn second secondIn)

/-- A request for four units of 256 us at every 100 * 2^10 us, for flow 0. -/
def sampleRequest : TwtElement := ⟨15, 0, ⟨0x2821, 0, 4, 100, 0⟩⟩

theorem linkedExactly_answered :
    ∃ twt, Reaches step AnswersAtHand MorseTwt.initVif twt ∧ twt.state (1, 0) = .agreement ∧
      LinkedExactly State.isLinked twt ∧ twt.wakeIntervals.flatten.Nodup := by
  have reached := @Reaches.of_run _ _ step AnswersAtHand MorseTwt.initVif _
    [.processTwtIe sampleRequest 1 true true, .handleNext (some 1) ⟨true, true⟩,
      .txAssocResponse 1]
    ⟨trivial, rfl, by
      intro tx agrData found body considered
      cases found
      cases body
      exact ⟨rfl, rfl⟩, trivial⟩ rfl
  exact ⟨_, reached, rfl, linkedExactly_of_reaches reached⟩

/-- An agreement is linked while its acceptance still waits to be sent. -/
theorem not_linkedExactly_agreement :
    ¬ ∀ twt, Reaches step (fun _ _ => True) MorseTwt.initVif twt →
      LinkedExactly (fun state => state == .agreement) twt := by
  intro all
  have reached := @Reaches.of_run _ _ step (fun _ _ => True) MorseTwt.initVif _
    [.processTwtIe sampleRequest 1 true true, .handleNext (some 1) ⟨true, true⟩]
    (guarded_true _ _) rfl
  have linked := (all _ reached).once (1, 0)
  exact absurd (linked.mpr rfl) (by decide)

end Twt
end Morse
