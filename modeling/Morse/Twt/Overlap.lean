import Morse.Lib.Periods
import Morse.Twt.Linkage
import Morse.Twt.Queue

/-!
# Service periods that do not overlap

An accepted request is given the end of another service period of its wake
interval, or time zero where there is none.  Neither the end of the interval nor
the service periods of other intervals are looked at, and no request is refused
for want of room.  Where each request that is accepted happens to find room at
that place, no two service periods of the schedule ever overlap.
-/

namespace Morse
namespace Twt

open Lib Lib.Service

/-- The service periods of an agreement. -/
def AgreementData.service (agrData : AgreementData) : Service where
  start := agrData.wakeTimeUs.toNat
  duration := agrData.wakeDurationUs.toNat
  interval := agrData.wakeIntervalUs.toNat

/-- The service periods asked for, from a time on. -/
def AgreementData.serviceAt (agrData : AgreementData) (start : Nat) : Service :=
  { agrData.service with start := start }

namespace Schedule

/-- The service periods of an agreement. -/
def service (schedule : Schedule) (key : Key) : Service := (schedule.data key).service

/-- The end of the first service period of an agreement. -/
def endOf (schedule : Schedule) (key : Key) : Nat :=
  (schedule.service key).start + (schedule.service key).duration

end Schedule

/-! ## Where a request fits -/

/-- From that time on, the periods asked for keep apart from those of the
agreements of other wake intervals. -/
def ClearAt (schedule : Schedule) (agrData : AgreementData) (start : Nat) : Prop :=
  ∀ other ∈ schedule.linked, schedule.interval other ≠ agrData.wakeIntervalUs.toNat →
    Apart (agrData.serviceAt start) (schedule.service other)

/-- There is room in a list of the wake interval after the first agreement that
the list leaves a duration behind that suffices, or else after the last: before
the next one, or before the first of the list comes again, and clear of the
other wake intervals. -/
def RoomIn (schedule : Schedule) (agrData : AgreementData) (first : Key) : List Key → Prop
  | [] => False
  | [ptr] =>
    schedule.endOf ptr < 2 ^ 64 ∧
      schedule.endOf ptr + agrData.wakeDurationUs.toNat ≤
        (schedule.service first).start + agrData.wakeIntervalUs.toNat ∧
      ClearAt schedule agrData (schedule.endOf ptr)
  | ptr :: ptrNext :: rest =>
    if agrData.wakeDurationUs.setWidth 64 ≤
        unallocDurUs (schedule.data ptr) (schedule.data ptrNext) then
      schedule.endOf ptr + agrData.wakeDurationUs.toNat ≤ (schedule.service ptrNext).start ∧
        ClearAt schedule agrData (schedule.endOf ptr)
    else RoomIn schedule agrData first (ptrNext :: rest)

/-- A request fits: the first of its wake interval is clear of the others from
time zero on, and a later one has room in the list of its interval. -/
structure Fits (schedule : Schedule) (agrData : AgreementData) : Prop where
  first : (∀ other ∈ schedule.linked, schedule.interval other ≠ agrData.wakeIntervalUs.toNat) →
    ClearAt schedule agrData 0
  later : ∀ first rest, first :: rest ∈ schedule.lists →
    schedule.interval first = agrData.wakeIntervalUs.toNat →
      RoomIn schedule agrData first (first :: rest)

/-- The place in a list at which there is room. -/
structure Place
    (schedule : Schedule)
    (agrData : AgreementData)
    (first : Key)
    (agreements front : List Key)
    (ptr : Key)
    (back : List Key) : Prop where
  split : agreements = front ++ ptr :: back
  bounded : schedule.endOf ptr < 2 ^ 64
  clear : ClearAt schedule agrData (schedule.endOf ptr)
  returns : back = [] →
    schedule.endOf ptr + agrData.wakeDurationUs.toNat ≤
      (schedule.service first).start + agrData.wakeIntervalUs.toNat
  precedes : ∀ ptrNext rest, back = ptrNext :: rest →
    schedule.endOf ptr + agrData.wakeDurationUs.toNat ≤ (schedule.service ptrNext).start

variable {schedule next : Schedule} {agrData : AgreementData} {key first : Key}
  {agreements : List Key}

theorem RoomIn.exists_place (room : RoomIn schedule agrData first agreements) (key : Key) :
    ∃ front ptr back, Place schedule agrData first agreements front ptr back ∧
      ∀ {data : Key → AgreementData} {time : BitVec 64} {entered : List Key},
        (∀ other ∈ agreements, data other = schedule.data other) →
          insertIntoGap data key agrData.wakeDurationUs agreements = some (time, entered) →
            time.toNat = schedule.endOf ptr ∧ entered = front ++ ptr :: key :: back := by
  have endUs : ∀ ptr, schedule.endOf ptr < 2 ^ 64 →
      (schedule.data ptr).endUs.toNat = schedule.endOf ptr := by
    intro ptr bounded
    exact Nat.mod_eq_of_lt bounded
  induction agreements with
  | nil => exact absurd room id
  | cons ptr rest ih =>
    cases rest with
    | nil =>
      obtain ⟨bounded, returns, clear⟩ := room
      refine ⟨[], ptr, [],
        ⟨rfl, bounded, clear, fun _ => returns, by rintro _ _ ⟨⟩⟩, ?_⟩
      intro data time entered agree placed
      cases placed
      rw [agree ptr List.mem_cons_self]
      exact ⟨endUs ptr bounded, rfl⟩
    | cons ptrNext rest =>
      simp only [RoomIn] at room
      split at room
      · next wide =>
          obtain ⟨precedes, clear⟩ := room
          have bounded : schedule.endOf ptr < 2 ^ 64 := by
            have start : (schedule.service ptrNext).start < 2 ^ 64 :=
              (schedule.data ptrNext).wakeTimeUs.isLt
            omega
          refine ⟨[], ptr, ptrNext :: rest, ⟨rfl, bounded, clear, by rintro ⟨⟩, ?_⟩, ?_⟩
          · intro other others equal
            cases equal
            exact precedes
          · intro data time entered agree placed
            have here := agree ptr List.mem_cons_self
            have there := agree ptrNext (by simp)
            simp only [insertIntoGap, here, there, wide, if_true] at placed
            split at placed
            · cases placed
            · cases placed
              exact ⟨endUs ptr bounded, rfl⟩
      · next narrow =>
          obtain ⟨front, place, back, found, chosen⟩ := ih room
          refine ⟨ptr :: front, place, back,
            ⟨?_, found.bounded, found.clear, found.returns, found.precedes⟩, ?_⟩
          · rw [found.split, List.cons_append]
          · intro data time entered agree placed
            have here := agree ptr List.mem_cons_self
            have there := agree ptrNext (by simp)
            simp only [insertIntoGap, here, there, narrow, if_false] at placed
            split at placed
            · cases placed
            · obtain ⟨⟨later, others⟩, walked, equal⟩ := Option.map_eq_some_iff.mp placed
              cases equal
              have result := chosen
                (fun other member => agree other (List.mem_cons_of_mem _ member)) walked
              exact ⟨result.1, by rw [result.2, List.cons_append]⟩

/-! ## Schedules without overlap -/

/-- In each list the service periods follow one another within the wake interval,
and those of different intervals do not meet. -/
structure Spaced (schedule : Schedule) : Prop where
  rows : ∀ agreements ∈ schedule.lists, (agreements.map schedule.service).Pairwise Follows
  cross : ∀ first ∈ schedule.linked, ∀ second ∈ schedule.linked,
    schedule.interval first ≠ schedule.interval second →
      ¬ Meets (schedule.service first) (schedule.service second)

theorem Spaced.not_meets (spaced : Spaced schedule) (linkage : Linkage schedule)
    (firstIn : first ∈ schedule.linked) (secondIn : second ∈ schedule.linked)
    (different : first ≠ second) :
    ¬ Meets (schedule.service first) (schedule.service second) := by
  by_cases equal : schedule.interval first = schedule.interval second
  · obtain ⟨agreements, member, firstThere⟩ := List.mem_flatten.mp firstIn
    have secondThere := linkage.grouped.mem_of_value_eq member firstThere secondIn equal
    have apart : agreements.Pairwise fun first second =>
        ¬ Meets (schedule.service first) (schedule.service second) := by
      refine (List.pairwise_map.mp (spaced.rows agreements member)).imp_of_mem ?_
      intro former latter formerIn latterIn follows
      exact follows.not_meets (linkage.grouped.same agreements member former formerIn
        latter latterIn)
    have symmetric : Std.Symm fun first second =>
        ¬ Meets (schedule.service first) (schedule.service second) :=
      ⟨fun _ _ apart meets => apart meets.symm⟩
    exact apart.forall firstThere secondThere different
  · exact spaced.cross first firstIn second secondIn equal

theorem Releases.spaced (releases : Releases schedule next gone) (linkage : Linkage schedule)
    (spaced : Spaced schedule) :
    Spaced next := by
  have same : ∀ key ∈ next.linked, next.data key = schedule.data key := by
    intro key member
    rw [Schedule.data, releases.agreement_eq linkage member]
    rfl
  refine ⟨?_, ?_⟩
  · intro agreements member
    have services : agreements.map next.service = agreements.map schedule.service := by
      refine List.map_congr_left fun key there => ?_
      rw [Schedule.service, same key (List.mem_flatten.mpr ⟨agreements, member, there⟩)]
      rfl
    rw [services]
    rw [releases.lists] at member
    obtain ⟨whole, wholeIn, part⟩ := exists_of_mem_foldl_unlink member
    exact (spaced.rows whole wholeIn).sublist (part.map schedule.service)
  · intro first firstIn second secondIn different
    rw [Schedule.interval, Schedule.interval, same first firstIn, same second secondIn] at different
    rw [Schedule.service, Schedule.service, same first firstIn, same second secondIn]
    exact spaced.cross first ((releases.mem_linked linkage).mp firstIn).1 second
      ((releases.mem_linked linkage).mp secondIn).1 different

theorem Settles.spaced (settles : Settles schedule next key agrData)
    (times : agrData.service = schedule.service key) (spaced : Spaced schedule) :
    Spaced next := by
  have service : next.service = schedule.service := by
    funext other
    rw [Schedule.service, Schedule.data, settles.agreement]
    by_cases same : other = key
    · rw [same, Function.update_self]
      exact times
    · rw [Function.update_of_ne same]
      rfl
  have interval : next.interval = schedule.interval :=
    funext fun other => congrArg Service.interval (congrFun service other)
  refine ⟨?_, ?_⟩
  · rw [service, settles.lists]
    exact spaced.rows
  · rw [service, interval, Schedule.linked, settles.lists]
    exact spaced.cross

theorem Spaced.enter {start : Nat} (spaced : Spaced schedule) (absent : key ∉ schedule.linked)
    (others : ∀ other, other ≠ key → next.service other = schedule.service other)
    (new : next.service key = agrData.serviceAt start) (clear : ClearAt schedule agrData start)
    (kept : ∀ other, other ∈ before ∨ other ∈ after → other ∈ schedule.lists)
    (lists : next.lists = before ++ entered :: after)
    (members : next.linked.Perm (key :: schedule.linked))
    (row : (entered.map next.service).Pairwise Follows) :
    Spaced next := by
  have apart : ∀ other ∈ schedule.linked, other ≠ key := by
    rintro other member rfl
    exact absent member
  have intervals : ∀ other, other ≠ key → next.interval other = schedule.interval other :=
    fun other different => congrArg Service.interval (others other different)
  have newInterval : next.interval key = agrData.wakeIntervalUs.toNat :=
    congrArg Service.interval new
  have newClear : ∀ other ∈ schedule.linked, next.interval other ≠ next.interval key →
      ¬ Meets (next.service key) (next.service other) := by
    intro other member different
    rw [intervals other (apart other member), newInterval] at different
    rw [others other (apart other member), new]
    exact (clear other member different).not_meets
  refine ⟨?_, ?_⟩
  · intro agreements member
    rw [lists] at member
    have earlier : agreements ∈ before ∨ agreements ∈ after →
        (agreements.map next.service).Pairwise Follows := by
      intro which
      have old := kept agreements which
      have services : agreements.map next.service = agreements.map schedule.service := by
        refine List.map_congr_left fun other there => others other ?_
        exact apart other (List.mem_flatten.mpr ⟨agreements, old, there⟩)
      rw [services]
      exact spaced.rows agreements old
    rcases List.mem_append.mp member with member | member
    · exact earlier (.inl member)
    · rcases List.mem_cons.mp member with rfl | member
      · exact row
      · exact earlier (.inr member)
  · intro first firstIn second secondIn different
    rcases List.mem_cons.mp (members.mem_iff.mp firstIn) with rfl | firstIn
    · rcases List.mem_cons.mp (members.mem_iff.mp secondIn) with rfl | secondIn
      · exact absurd rfl different
      · exact newClear second secondIn different.symm
    · rcases List.mem_cons.mp (members.mem_iff.mp secondIn) with rfl | secondIn
      · exact fun meets => newClear first firstIn different meets.symm
      · rw [intervals first (apart first firstIn), intervals second (apart second secondIn)]
          at different
        rw [others first (apart first firstIn), others second (apart second secondIn)]
        exact spaced.cross first firstIn second secondIn different

theorem Place.row (place : Place schedule agrData first agreements front ptr back)
    (head : agreements.head? = some first)
    (row : (agreements.map schedule.service).Pairwise Follows)
    (equal : ∀ other ∈ agreements, schedule.interval other = agrData.wakeIntervalUs.toNat)
    (others : ∀ other ∈ agreements, next.service other = schedule.service other)
    (new : next.service key = agrData.serviceAt (schedule.endOf ptr)) :
    ((front ++ ptr :: key :: back).map next.service).Pairwise Follows := by
  have split := place.split
  subst split
  have entered : (front ++ ptr :: key :: back).map next.service =
      front.map schedule.service ++
        schedule.service ptr :: next.service key :: back.map schedule.service := by
    rw [List.map_append, List.map_cons, List.map_cons, others ptr (by simp),
      List.map_congr_left fun other there => others other (List.mem_append_left _ there),
      List.map_congr_left fun other there => others other (by simp [there])]
  rw [List.map_append] at row
  rw [entered]
  refine pairwise_follows_insert row ?_ ?_ ?_
  · intro service member
    rw [← List.map_cons, ← List.map_append] at member
    obtain ⟨other, there, rfl⟩ := List.mem_map.mp member
    rw [new]
    exact equal other there
  · rw [new]
    exact Nat.le_refl _
  · rw [new]
    cases back with
    | nil =>
      refine ⟨schedule.service first, ?_, place.returns rfl⟩
      rw [← List.map_singleton, ← List.map_append, List.head?_map, head]
      rfl
    | cons ptrNext rest => exact place.precedes ptrNext rest rfl

theorem Admits.service_eq (admits : Admits schedule next key agrData allocates) :
    ∃ start, next.service key = agrData.serviceAt start ∧
      ∀ other, other ≠ key → next.service other = schedule.service other := by
  obtain ⟨state, wakeTimeUs, _, agreement, _⟩ := admits.placed
  refine ⟨wakeTimeUs.toNat, ?_, ?_⟩
  · rw [Schedule.service, Schedule.data, agreement, Function.update_self]
    rfl
  · intro other different
    rw [Schedule.service, Schedule.data, agreement, Function.update_of_ne different]
    rfl

theorem Admits.spaced (admits : Admits schedule next key agrData true)
    (notDemand : getCommand agrData.params.reqType ≠ .demand) (fits : Fits schedule agrData)
    (linkage : Linkage schedule) (spaced : Spaced schedule) :
    Spaced next := by
  have members : next.linked.Perm (key :: schedule.linked) := by
    rcases (admits.linkage linkage).2 with ⟨none, _⟩ | members
    · cases none
    · exact members
  obtain ⟨state, wakeTimeUs, _, agreement, placed⟩ := admits.placed
  have absent := linkage.not_mem admits.vacant
  have requested := linkage.requested absent agrData
  have apart : ∀ other ∈ schedule.linked, other ≠ key := by
    rintro other member rfl
    exact absent member
  have others : ∀ other, other ≠ key → next.service other = schedule.service other := by
    intro other different
    rw [Schedule.service, Schedule.data, agreement, Function.update_of_ne different]
    rfl
  have new : next.service key = agrData.serviceAt wakeTimeUs.toNat := by
    rw [Schedule.service, Schedule.data, agreement, Function.update_self]
    rfl
  have interval : ∀ other ∈ schedule.linked,
      (Function.update schedule.data key agrData other).wakeIntervalUs.toNat =
        schedule.interval other := by
    intro other member
    rw [Function.update_of_ne (apart other member)]
    rfl
  generalize lists_eq : next.lists = lists at placed
  cases placed with
  | unlinked none => exact absurd none (agreementWakeIntervalGet_ne_none requested.nonempty)
  | first found =>
    have located := located_agreementWakeIntervalGet requested found
    rw [Function.update_self] at located
    have foreign : ∀ other ∈ schedule.linked,
        schedule.interval other ≠ agrData.wakeIntervalUs.toNat := by
      intro other member
      rw [← interval other member]
      rw [Schedule.linked, located.flatten_eq, List.mem_append] at member
      rcases member with member | member <;>
        obtain ⟨agreements, listed, there⟩ := List.mem_flatten.mp member
      · exact (located.below agreements listed other there).ne
      · exact (located.above agreements listed other there).ne'
    exact spaced.enter absent others new (fits.first foreign) (fun _ => located.mem_of_mem)
      lists_eq members (List.pairwise_singleton _ _)
  | tail found demand =>
    rw [Function.update_self] at demand
    exact absurd demand notDemand
  | @gap _ after ptr rest _ _ found _ walked =>
    have located := located_agreementWakeIntervalGet requested found
    rw [Function.update_self] at located walked
    have listed : ptr :: rest ∈ schedule.lists := by
      rw [located.split]
      exact List.mem_append_right _ List.mem_cons_self
    have there : ∀ other ∈ ptr :: rest, other ∈ schedule.linked :=
      fun other member => List.mem_flatten.mpr ⟨_, listed, member⟩
    have equal : ∀ other ∈ ptr :: rest,
        schedule.interval other = agrData.wakeIntervalUs.toNat :=
      fun other member => (interval other (there other member)).symm.trans
        (located.equal other member)
    have room := fits.later ptr rest listed (equal ptr List.mem_cons_self)
    obtain ⟨front, place, back, found, chosen⟩ := room.exists_place key
    obtain ⟨time, rfl⟩ := chosen
      (fun other member => Function.update_of_ne (apart other (there other member)) _ _) walked
    rw [time] at new
    have row := found.row rfl (spaced.rows _ listed) equal
      (fun other member => others other (apart other (there other member))) new
    exact spaced.enter absent others new found.clear (fun _ => located.mem_of_mem)
      lists_eq members row

/-! ## Runs -/

/-- Whenever the periods asked for began, they would meet those of an agreement. -/
def NoSlot (schedule : Schedule) (agrData : AgreementData) : Prop :=
  ∀ start, ∃ other ∈ schedule.linked, Meets (agrData.serviceAt start) (schedule.service other)

/-- The agreements linked before are those linked after, and are what they were; an
agreement that had no place in the lists has none. -/
structure Refused (before after : MorseTwt) (key : Key) : Prop where
  lists : after.wakeIntervals = before.wakeIntervals
  others : ∀ other ∈ before.wakeIntervals.flatten, after.agreement other = before.agreement other
  refused : (before.state key).isLinked = false → (after.state key).isLinked = false

open MorseTwt in
/-- No service periods of linked agreements meet, and a request for which there is
no slot is refused when it is handled by a step that the guard admits. -/
structure Conforms (guard : MorseTwt → Action → Prop) (twt : MorseTwt) : Prop where
  apart : ∀ first ∈ twt.wakeIntervals.flatten, ∀ second ∈ twt.wakeIntervals.flatten,
    first ≠ second → ¬ Meets (twt.data first).service (twt.data second).service
  refuses : ∀ {addr memory event cmd agrData go next}, guard twt (.handleNext addr memory) →
    twt.events.find? (sought addr) = some event → event.body = .setup cmd agrData →
      cmd.isReq = true → NoSlot twt.schedule agrData →
        twt.handleNext addr memory = some (go, next) → Refused twt next event.key

open MorseTwt in
/-- There is memory for a new list; a request that is accepted fits; one that has no
slot does not come in an action frame for an agreement that stands, unless an answer
waits for it; and an acceptance that an association response takes has the service
periods of the agreement considered, which is to be accepted. -/
def KeepsApart (twt : MorseTwt) : Action → Prop
  | .handleNext addr memory => memory.wakeInterval = true ∧
      ∀ event cmd agrData, twt.events.find? (sought addr) = some event →
        event.body = .setup cmd agrData →
          ((cmd = .request ∨ cmd = .suggest) → twt.state event.key = .noAgreement →
            Fits twt.schedule agrData) ∧
          (NoSlot twt.schedule agrData → twt.state event.key = .agreement →
            twt.actionIsPending event.addr = true →
              twt.peekTx event.addr (some event.flowId) ≠ none)
  | .txAssocResponse addr => ∀ tx agrData,
      twt.peekTx addr none = some tx → tx.body = .setup .accept agrData →
        (twt.state tx.key).isConsidered = true →
          (twt.state tx.key).isLinked = true ∧ agrData.service = (twt.data tx.key).service
  | _ => True

variable {twt after : MorseTwt} {action : Action}

theorem KeepsApart.answersAtHand (keeps : KeepsApart twt action) :
    AnswersAtHand twt action := by
  cases action with
  | handleNext addr memory => exact keeps.1
  | txAssocResponse addr =>
    intro tx agrData found body considered
    obtain ⟨linked, service⟩ := keeps tx agrData found body considered
    exact ⟨linked, BitVec.eq_of_toNat_eq (congrArg Service.interval service)⟩
  | processTwtIe | noteActionFrame | processTwtTeardown | staRemoveAddr | eventQueuePurge =>
    trivial

/-- What holds of every state of a run whose requests fit. -/
structure InOrder (twt : MorseTwt) : Prop where
  linkage : Linkage twt.schedule
  complete : Complete twt.schedule
  spaced : Spaced twt.schedule
  queues : MorseTwt.QueuesCommands twt

theorem inOrder_initVif : InOrder MorseTwt.initVif :=
  ⟨⟨.nil, by rintro _ ⟨⟩⟩, by rintro _ ⟨⟩, ⟨by rintro _ ⟨⟩, by rintro _ ⟨⟩⟩, by rintro _ ⟨⟩⟩

theorem MorseTwt.QueuesCommands.not_demand (queues : MorseTwt.QueuesCommands twt)
    (found : twt.events.find? (MorseTwt.sought addr) = some event)
    (body : event.body = .setup cmd agrData) (which : cmd = .request ∨ cmd = .suggest) :
    getCommand agrData.params.reqType ≠ .demand := by
  rw [← queues event (List.mem_of_find?_eq_some found) cmd agrData body]
  rcases which with rfl | rfl <;> rintro ⟨⟩

theorem InOrder.step (order : InOrder twt) (keeps : KeepsApart twt action)
    (taken : Twt.step twt action = some after) :
    InOrder after := by
  obtain ⟨linkage, complete⟩ :=
    linkage_step order.linkage order.complete keeps.answersAtHand taken
  refine ⟨linkage, complete, ?_, order.queues.step taken⟩
  cases step_moves taken with
  | releases releases => exact releases.spaced order.linkage order.spaced
  | admits found body which admits =>
    obtain ⟨memory, requests⟩ := keeps
    rw [memory] at admits
    exact admits.spaced (order.queues.not_demand found body which)
      ((requests _ _ _ found body).1 which admits.vacant) order.linkage order.spaced
  | settles found body settles =>
    exact settles.spaced (keeps _ _ found body settles.considered).2 order.spaced

theorem InOrder.refuses (order : InOrder twt) (keeps : KeepsApart twt (.handleNext addr memory))
    (found : twt.events.find? (MorseTwt.sought addr) = some event)
    (body : event.body = .setup cmd agrData) (noSlot : NoSlot twt.schedule agrData)
    (handled : twt.handleNext addr memory = some (go, after)) :
    Refused twt after event.key := by
  have ordered : InOrder after := by
    have taken : Twt.step twt (.handleNext addr memory) = some after := by
      rw [Twt.step, handled]
      rfl
    exact order.step keeps taken
  have requests := keeps.2 event cmd agrData found body
  rw [MorseTwt.handleNext, found] at handled
  rcases MorseTwt.handleOne_setup body handled with ⟨which, admits⟩ | ⟨gone, releases, which⟩
  · -- the slot it was given would be one
    rw [keeps.1] at admits
    obtain ⟨start, new, others⟩ := admits.service_eq
    obtain ⟨other, member, meets⟩ := noSlot start
    have absent := order.linkage.not_mem admits.vacant
    have different : other ≠ event.key := by
      rintro rfl
      exact absent member
    have members : after.schedule.linked.Perm (event.key :: twt.schedule.linked) := by
      rcases (admits.linkage order.linkage).2 with ⟨none, _⟩ | members
      · cases none
      · exact members
    have apart := ordered.spaced.not_meets ordered.linkage
      (members.mem_iff.mpr List.mem_cons_self)
      (members.mem_iff.mpr (List.mem_cons_of_mem _ member)) different.symm
    rw [new, others other different] at apart
    exact absurd meets apart
  · have vacant : ∀ other ∈ gone, twt.state other = .noAgreement := by
      rcases which with vacant | ⟨stands, pending, silent⟩
      · exact vacant
      · exact absurd silent (requests.2 noSlot stands pending)
    have lists : after.wakeIntervals = twt.wakeIntervals :=
      releases.lists.trans (foldl_unlink_of_not_mem fun other member =>
        order.linkage.not_mem (vacant other member))
    refine ⟨lists, ?_, ?_⟩
    · intro other member
      have still : other ∈ after.schedule.linked := by
        rw [MorseTwt.schedule, lists]
        exact member
      exact releases.agreement_eq order.linkage still
    · intro unlinked
      by_cases member : event.key ∈ gone
      · exact releases.given _ member
      · rcases releases.kept _ member with same | ⟨_, unlinkedAfter⟩
        · change (after.schedule.agreement event.key).state.isLinked = false
          rw [same]
          exact unlinked
        · exact unlinkedAfter

/-- In a run whose requests fit, no service periods overlap, and a request for which
there is no slot is refused. -/
theorem conforms_of_reaches (reaches : Reaches step KeepsApart MorseTwt.initVif twt) :
    Conforms KeepsApart twt := by
  have order : InOrder twt := by
    refine @Reaches.invariant _ _ step KeepsApart MorseTwt.initVif twt InOrder inOrder_initVif ?_
      reaches
    intro before action after holds keeps taken
    exact holds.step keeps taken
  refine ⟨?_, ?_⟩
  · intro first firstIn second secondIn different
    exact order.spaced.not_meets order.linkage firstIn secondIn different
  · intro addr memory event cmd agrData go next keeps found body _ noSlot handled
    exact order.refuses keeps found body noSlot handled

theorem conforms_twoStations :
    ∃ twt, Reaches step KeepsApart MorseTwt.initVif twt ∧
      twt.wakeIntervals = [[(1, 0), (2, 0)]] ∧ Conforms KeepsApart twt := by
  have reached := @Reaches.of_run _ _ step KeepsApart MorseTwt.initVif _
    [.processTwtIe sampleRequest 1 true true, .handleNext (some 1) ⟨true, true⟩,
      .processTwtIe sampleRequest 2 true true, .handleNext (some 2) ⟨true, true⟩]
    ⟨trivial, ⟨rfl, by
      intro event cmd agrData found body
      cases found
      cases body
      exact ⟨fun _ _ => ⟨fun _ => by rintro _ ⟨⟩, by rintro _ _ ⟨⟩⟩, fun _ stands => by
        cases stands⟩⟩,
      trivial, ⟨rfl, by
      intro event cmd agrData found body
      cases found
      cases body
      refine ⟨fun _ _ => ⟨?_, ?_⟩, fun _ stands => by cases stands⟩
      · intro foreign
        exact absurd rfl (foreign (1, 0) List.mem_cons_self)
      · intro first rest member _
        cases List.mem_singleton.mp member
        refine ⟨by decide, by decide, ?_⟩
        intro other there different
        cases List.mem_singleton.mp there
        exact absurd rfl different⟩, trivial⟩ rfl
  exact ⟨_, reached, rfl, conforms_of_reaches reached⟩

/-- A request for four units of 256 us at every 150 * 2^10 us, for flow 0. -/
def longerRequest : TwtElement := ⟨15, 0, ⟨0x2821, 0, 4, 150, 0⟩⟩

/-- The first service periods of two wake intervals both begin at time zero. -/
theorem not_conforms_twoIntervals :
    ¬ ∀ twt, Reaches step (fun _ _ => True) MorseTwt.initVif twt →
      Conforms (fun _ _ => True) twt := by
  intro all
  have reached := @Reaches.of_run _ _ step (fun _ _ => True) MorseTwt.initVif _
    [.processTwtIe sampleRequest 1 true true, .handleNext (some 1) ⟨true, true⟩,
      .processTwtIe longerRequest 2 true true, .handleNext (some 2) ⟨true, true⟩]
    (guarded_true _ _) rfl
  refine (all _ reached).apart (1, 0) ?_ (2, 0) ?_ (by decide) ⟨0, ⟨0, ?_, ?_⟩, ⟨0, ?_, ?_⟩⟩
  all_goals decide

end Twt
end Morse
