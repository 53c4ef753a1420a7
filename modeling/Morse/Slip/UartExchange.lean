import Morse.Slip.Exchange

/-!
# Command exchange over a serial line

A read without an octet tests the status that the last octet left.  After the end of a frame that
status is stale: the loops then enter a new round, with a new time for the time-out to count from,
at every such read, and the call only goes on to its end with another octet.
-/

namespace Morse
namespace Slip

open Lib

/-- The octets that the first reads return. -/
def uartReceived (reads : Nat → UartRead) (count : Nat) : List Octet :=
  (List.range count).filterMap fun turn =>
    match reads turn with
    | .octet c => some c
    | _ => none

section Reads

variable {reads : Nat → UartRead} {count : Nat}

theorem uartReceived_octet (read : reads count = .octet c) :
    uartReceived reads (count + 1) = uartReceived reads count ++ [c] := by
  rw [uartReceived, List.range_succ, uartReceived]
  simp [read]

theorem uartReceived_other (other : ∀ c, reads count ≠ .octet c) :
    uartReceived reads (count + 1) = uartReceived reads count := by
  rw [uartReceived, List.range_succ, uartReceived]
  cases read : reads count with
  | octet c => exact absurd read (other c)
  | nothing => simp [read]
  | failed code => simp [read]

end Reads

section Turns

variable {clock : Nat → Int} {seqNum : Vector Octet seqnumLen} {resp : TransportBuff}

theorem uartTest_eq (seqNumField : List Octet) (state : UartState) :
    uartTest clock seqNumField state =
      if Accepts seqNumField (state.status, state.rx) then
        .inl ⟨.success, state.rx, (checkFrame seqNumField state.rx.buffer state.rx.length).2⟩
      else if state.status = .inProgress then .inr state
      else if state.status = .complete then
        .inr ({ state with
          dataLen := (checkFrame seqNumField state.rx.buffer state.rx.length).2 }.enter clock)
      else .inr (state.enter clock) := by
  rw [uartTest]
  cases state.status with
  | complete =>
    cases accepted : (checkFrame seqNumField state.rx.buffer state.rx.length).1 with
    | true => simp [Accepts, accepted]
    | false => simp [Accepts, accepted]
  | inProgress => simp [Accepts]
  | bufferLimit => simp [Accepts]
  | error => simp [Accepts]

variable {seqNumField : List Octet} {ending : LoopEnd}

theorem uartTest_ends (ended : uartTest clock seqNumField state = .inl ending) :
    Accepts seqNumField (state.status, state.rx) ∧
      ending =
        ⟨.success, state.rx, (checkFrame seqNumField state.rx.buffer state.rx.length).2⟩ := by
  rw [uartTest_eq] at ended
  split at ended
  · next accepted =>
      cases ended
      exact ⟨accepted, rfl⟩
  split at ended
  · cases ended
  split at ended
  · cases ended
  · cases ended

/-- What the variables for the time-out have to do with the clock: a round that was entered with a
stale status counts from its start. -/
structure UartState.Timed (clock : Nat → Int) (count : Nat) (state : UartState) : Prop where
  few : state.readings ≤ 2 * count + 1
  read : ∃ reading < state.readings, state.lastTime = clock reading
  timeout : 0 ≤ state.timeout
  entered : state.status ≠ .inProgress → state.timeout = startOfTransferTimeoutClocks ∧
    ∃ reading, state.readings = reading + 1 ∧ state.lastTime = clock reading

/-- What holds before every read. -/
def UartInv (clock : Nat → Int) (seqNum : Vector Octet seqnumLen) (resp : TransportBuff)
    (reads : Nat → UartRead) (count : Nat) (state : UartState) : Prop :=
  Tracks seqNum resp (uartReceived reads count) state.rx state.status ∧ state.Timed clock count

theorem uartInv_start (reads : Nat → UartRead) :
    UartInv clock seqNum resp reads 0 (.start clock resp) :=
  ⟨Tracks.start seqNum resp,
    ⟨Nat.le_refl 1, ⟨0, Nat.one_pos, rfl⟩, show 0 ≤ startOfTransferTimeoutClocks by decide,
      fun stale => absurd rfl stale⟩⟩

theorem uartTest_kept (few : state.readings ≤ 2 * count + 2)
    (read : ∃ reading < state.readings, state.lastTime = clock reading)
    (timeout : 0 ≤ state.timeout) (goes : uartTest clock seqNumField state = .inr after) :
    ¬Accepts seqNumField (state.status, state.rx) ∧
      after.rx = (if state.status = .inProgress then state.rx else rxStateReset state.rx) ∧
      after.status = state.status ∧ after.Timed clock (count + 1) := by
  rw [uartTest_eq] at goes
  split at goes
  · cases goes
  next refused =>
    refine ⟨refused, ?_⟩
    split at goes
    · next still =>
        cases goes
        rw [if_pos still]
        exact ⟨rfl, rfl, by omega, read, timeout, fun ended => absurd still ended⟩
    next ended =>
      have entered : 0 ≤ startOfTransferTimeoutClocks := by decide
      rw [if_neg ended]
      split at goes
      · cases goes
        exact ⟨rfl, rfl, by simp only [UartState.enter]; omega,
          ⟨state.readings, Nat.lt_succ_self _, rfl⟩, entered, fun _ =>
            ⟨rfl, state.readings, rfl, rfl⟩⟩
      · cases goes
        exact ⟨rfl, rfl, by simp only [UartState.enter]; omega,
          ⟨state.readings, Nat.lt_succ_self _, rfl⟩, entered, fun _ =>
            ⟨rfl, state.readings, rfl, rfl⟩⟩

variable {reads : Nat → UartRead} {count : Nat} {before : UartState}

variable {after : UartState}

theorem uartTurn_kept (inv : UartInv clock seqNum resp reads count before)
    (goes : uartTurn clock seqNum.toList (reads count) before = .inr after) :
    UartInv clock seqNum resp reads (count + 1) after := by
  obtain ⟨tracks, timed⟩ := inv
  have few := timed.few
  obtain ⟨reading, earlier, last⟩ := timed.read
  cases read : reads count with
  | failed code =>
    rw [read] at goes
    cases goes
  | nothing =>
    rw [read, uartTurn] at goes
    split at goes
    · cases goes
    obtain ⟨-, rx, status, after⟩ :=
      @uartTest_kept clock seqNum.toList count { before with readings := before.readings + 1 } _
        (by dsimp only; omega) ⟨reading, Nat.lt_succ_of_lt earlier, last⟩ timed.timeout goes
    refine ⟨?_, after⟩
    have same : (if before.status = .inProgress then before.rx else rxStateReset before.rx) =
        before.rx := by
      split
      · rfl
      · next ended => exact tracks.reset ended
    rw [uartReceived_other (fun c octet => by cases read.symm.trans octet), rx, status, same]
    exact tracks
  | octet c =>
    rw [read, uartTurn] at goes
    dsimp only at goes
    have kept : ¬Accepts seqNum.toList (rx before.rx c) ∧
        after.rx = (if (rx before.rx c).1 = .inProgress then (rx before.rx c).2
          else rxStateReset (rx before.rx c).2) ∧
        after.status = (rx before.rx c).1 ∧ after.Timed clock (count + 1) := by
      split at goes
      · refine uartTest_kept ?_ ⟨before.readings, Nat.lt_succ_self _, rfl⟩ ?_ goes
        · dsimp only
          omega
        · exact show 0 ≤ transferInProgressTimeoutClocks by decide
      · have kept := fun few read timeout =>
          @uartTest_kept clock seqNum.toList count _ after few read timeout goes
        exact kept (by dsimp only; omega) ⟨reading, earlier, last⟩ timed.timeout
    obtain ⟨refused, rx, status, after⟩ := kept
    refine ⟨?_, after⟩
    rw [uartReceived_octet read, rx, status]
    exact tracks.octet refused

theorem uartTurn_ends (inv : UartInv clock seqNum resp reads count before)
    (ended : uartTurn clock seqNum.toList (reads count) before = .inl ending) :
    (∃ code, reads count = .failed code ∧ ending.outcome = .readFailed code) ∨
      (reads count = .nothing ∧ before.timeout < clock before.readings - before.lastTime ∧
        ending.outcome = .timedOut) ∨
      ∃ c, reads count = .octet c ∧ Accepts seqNum.toList (rx before.rx c) ∧
        ending = ⟨.success, (rx before.rx c).2,
          (checkFrame seqNum.toList (rx before.rx c).2.buffer (rx before.rx c).2.length).2⟩ := by
  obtain ⟨tracks, timed⟩ := inv
  cases read : reads count with
  | failed code =>
    rw [read] at ended
    cases ended
    exact .inl ⟨code, rfl, rfl⟩
  | nothing =>
    rw [read, uartTurn] at ended
    split at ended
    · next late =>
        cases ended
        exact .inr (.inl ⟨rfl, late, rfl⟩)
    · obtain ⟨⟨complete, accepted⟩, -⟩ := uartTest_ends ended
      have refused := tracks.not_accepts (fun still => by cases still.symm.trans complete)
      cases refused.symm.trans accepted
  | octet c =>
    rw [read, uartTurn] at ended
    dsimp only at ended
    have accepted : Accepts seqNum.toList (rx before.rx c) ∧
        ending = ⟨.success, (rx before.rx c).2,
          (checkFrame seqNum.toList (rx before.rx c).2.buffer
            (rx before.rx c).2.length).2⟩ := by
      split at ended
      · exact uartTest_ends ended
      · exact uartTest_ends ended
    exact .inr (.inr ⟨c, rfl, accepted⟩)

theorem uartTurn_waits (read : reads count = .nothing) (still : before.status = .inProgress)
    (goes : uartTurn clock seqNum.toList (reads count) before = .inr after) :
    clock before.readings - before.lastTime ≤ before.timeout ∧
      after = { before with readings := before.readings + 1 } := by
  rw [read, uartTurn] at goes
  split at goes
  · cases goes
  · next early =>
      rw [uartTest, if_pos still] at goes
      cases goes
      exact ⟨Int.not_lt.mp early, rfl⟩

end Turns

/-! ## Runs -/

/-- A clock that does not go back, and goes beyond any time. -/
structure Advances (clock : Nat → Int) : Prop where
  forward : ∀ first second, first ≤ second → clock first ≤ clock second
  unbounded : ∀ time, ∃ reading, time < clock reading

/-- The octets stop in the middle of a frame, or a read fails. -/
def UartQuiet (reads : Nat → UartRead) (resp : TransportBuff) : Prop :=
  (∃ turn code, reads turn = .failed code) ∨
    ∀ last, (∀ count, last ≤ count → uartReceived reads count = uartReceived reads last) →
      lastStatus (decode resp (uartReceived reads last)).1 = .inProgress

section Runs

variable {clock : Nat → Int} {seqNum : Vector Octet seqnumLen} {resp : TransportBuff}
variable {reads : Nat → UartRead} {count : Nat}

/-- The loops of `uart_slip_send`. -/
def uartLoop (clock : Nat → Int) (seqNum : Vector Octet seqnumLen) (resp : TransportBuff)
    (reads : Nat → UartRead) : Nat → LoopEnd ⊕ UartState :=
  afterTurns (fun turn => uartTurn clock seqNum.toList (reads turn)) (.start clock resp)

variable {state : UartState}

theorem uartInv_of_goes (goes : uartLoop clock seqNum resp reads count = .inr state) :
    UartInv clock seqNum resp reads count state := by
  refine @afterTurns_invariant _ _ _ _ _ (UartInv clock seqNum resp reads)
    (uartInv_start reads) ?_ state goes
  intro count before after inv taken
  exact uartTurn_kept inv taken

variable {ending : LoopEnd}

theorem uartLoop_ends (ended : uartLoop clock seqNum resp reads count = .inl ending) :
    (∃ turn code, reads turn = .failed code ∧ ending.outcome = .readFailed code) ∨
      ending.outcome = .timedOut ∨
      ending.outcome = .success ∧ ∃ turn frame payload, turn ≤ count ∧
        (decode resp (uartReceived reads turn)).1.getLast? = some (.complete, frame) ∧
        Answers seqNum frame payload ∧ ending.dataLen = payload.length ∧
        segment ending.rx.buffer 0 payload.length = payload := by
  obtain ⟨last, before, early, goes, taken⟩ := turn_of_afterTurns ended
  have inv := uartInv_of_goes goes
  rcases uartTurn_ends inv taken with ⟨code, read, outcome⟩ | ⟨-, -, outcome⟩ |
    ⟨c, read, accepted, rfl⟩
  · exact .inl ⟨last, code, read, outcome⟩
  · exact .inr (.inl outcome)
  · obtain ⟨frame, payload, answers, length, data⟩ := inv.1.answer accepted
    refine .inr (.inr ⟨rfl, last + 1, _, payload, early, ?_, answers, length, data⟩)
    rw [uartReceived_octet read]
    exact frame

theorem uartLoop_error
    (unanswered : ∀ count, Unanswered seqNum (decode resp (uartReceived reads count)).1)
    (ended : uartLoop clock seqNum resp reads count = .inl ending) :
    (∃ turn code, reads turn = .failed code ∧ ending.outcome = .readFailed code) ∨
      ending.outcome = .timedOut := by
  rcases uartLoop_ends ended with failed | late | ⟨-, turn, frame, payload, -, last, answers, -⟩
  · exact .inl failed
  · exact .inr late
  · exact absurd answers
      (unanswered turn frame payload (List.mem_of_getLast? last))

theorem uartLoop_timesOut (advances : Advances clock)
    (silent : ∀ turn, start ≤ turn → reads turn = .nothing)
    (goes : uartLoop clock seqNum resp reads start = .inr state)
    (still : state.status = .inProgress) :
    ∃ count ending, uartLoop clock seqNum resp reads count = .inl ending := by
  by_contra never
  have on (count : Nat) : ∃ state, uartLoop clock seqNum resp reads count = .inr state :=
    goes_of_not_ended (fun count ending ended => never ⟨count, ending, ended⟩) count
  have waits (extra : Nat) : uartLoop clock seqNum resp reads (start + extra) =
      .inr { state with readings := state.readings + extra } := by
    induction extra with
    | zero => exact goes
    | succ extra ih =>
      obtain ⟨next, later⟩ := on (start + extra + 1)
      have taken := (afterTurns_succ ih).symm.trans later
      obtain ⟨-, rfl⟩ := @uartTurn_waits clock seqNum reads (start + extra)
        { state with readings := state.readings + extra } next
        (silent _ (Nat.le_add_right _ _)) still taken
      exact later
  obtain ⟨reading, late⟩ := advances.unbounded (state.lastTime + state.timeout)
  obtain ⟨next, later⟩ := on (start + reading + 1)
  have taken := (afterTurns_succ (waits reading)).symm.trans later
  obtain ⟨early, -⟩ := @uartTurn_waits clock seqNum reads (start + reading)
    { state with readings := state.readings + reading } next
    (silent _ (Nat.le_add_right _ _)) still taken
  have forward := advances.forward reading (state.readings + reading) (Nat.le_add_left _ _)
  dsimp only at early
  omega

/-- A clock that stands still for some readings. -/
def lateClock (still : Nat) (reading : Nat) : Int := ((reading - still : Nat) : Int)

theorem advances_lateClock (still : Nat) : Advances (lateClock still) where
  forward := fun first second before => by
    unfold lateClock
    omega
  unbounded := fun time => by
    refine ⟨still + time.toNat + 1, ?_⟩
    unfold lateClock
    omega

theorem uartLoop_goes
    (unanswered : ∀ count, Unanswered seqNum (decode resp (uartReceived reads count)).1)
    (ended : ∀ count, last ≤ count → uartReceived reads count = uartReceived reads last)
    (works : ∀ turn code, reads turn ≠ .failed code)
    (stale : lastStatus (decode resp (uartReceived reads last)).1 ≠ .inProgress) (count : Nat) :
    ∃ state, uartLoop (lateClock (2 * last + 1)) seqNum resp reads count = .inr state := by
  induction count with
  | zero => exact ⟨_, rfl⟩
  | succ count ih =>
    obtain ⟨before, goes⟩ := ih
    obtain ⟨tracks, timed⟩ := uartInv_of_goes goes
    have taken := afterTurns_succ goes
    cases next : uartTurn (lateClock (2 * last + 1)) seqNum.toList (reads count) before with
    | inr after => exact ⟨after, taken.trans next⟩
    | inl ending =>
      exfalso
      rcases uartTurn_ends ⟨tracks, timed⟩ next with ⟨code, read, -⟩ | ⟨read, late, -⟩ |
        ⟨c, read, accepted, -⟩
      · exact works count code read
      · have few := timed.few
        obtain ⟨reading, earlier, time⟩ := timed.read
        have timeout := timed.timeout
        rcases Nat.lt_or_ge count last with early | behind
        · rw [time] at late
          unfold lateClock at late
          omega
        · have status := tracks.status
          rw [ended count behind] at status
          obtain ⟨start, reading, readings, time⟩ :=
            timed.entered fun still => stale (status.symm.trans still)
          rw [start, time] at late
          unfold lateClock startOfTransferTimeoutClocks clocksPerSec at late
          omega
      · obtain ⟨found, payload, answers, -⟩ := tracks.answer accepted
        rw [← uartReceived_octet read] at found
        exact unanswered (count + 1) _ payload (List.mem_of_getLast? found) answers

theorem uartLoop_meets_iff (seqNum : Vector Octet seqnumLen) (resp : TransportBuff)
    (reads : Nat → UartRead) :
    (∀ clock, Advances clock →
        LoopMeets seqNum resp (uartReceived reads) (uartLoop clock seqNum resp reads)) ↔
      (Silent seqNum resp (uartReceived reads) → UartQuiet reads resp) := by
  constructor
  · rintro meets ⟨⟨last, ended⟩, unanswered⟩
    by_contra loud
    unfold UartQuiet at loud
    push Not at loud
    obtain ⟨works, last, ended, stale⟩ := loud
    obtain ⟨count, ending, found, -⟩ :=
      (meets _ (advances_lateClock (2 * last + 1))).ends ⟨⟨last, ended⟩, unanswered⟩
    obtain ⟨state, goes⟩ := uartLoop_goes unanswered ended works stale count
    cases found.symm.trans goes
  · intro quiet clock advances
    refine
      { success := fun count ending ended zero => ?_
        skips := fun count ending ended => ?_
        answered := fun count state goes => (uartInv_of_goes goes).1.unanswered
        ends := fun silent => ?_ }
    · rcases uartLoop_ends ended with ⟨-, code, -, failed⟩ | late | ⟨-, answered⟩
      · rw [failed] at zero
        cases zero
      · rw [late] at zero
        cases zero
      · exact answered
    · rcases uartLoop_ends ended with ⟨-, code, -, failed⟩ | late | ⟨success, -⟩
      · rw [failed]
        rintro ⟨⟩
      · rw [late]
        rintro ⟨⟩
      · rw [success]
        rintro ⟨⟩
    · have returns : ∃ count ending, uartLoop clock seqNum resp reads count = .inl ending := by
        by_contra never
        have on (count : Nat) : ∃ state, uartLoop clock seqNum resp reads count = .inr state :=
          goes_of_not_ended (fun count ending ended => never ⟨count, ending, ended⟩) count
        have works (turn code : Nat) : reads turn ≠ .failed code := by
          intro read
          obtain ⟨state, goes⟩ := on turn
          have taken := afterTurns_succ goes
          rw [read] at taken
          exact never ⟨turn + 1, _, taken⟩
        obtain ⟨last, ended⟩ := silent.1
        rcases quiet silent with ⟨turn, code, read⟩ | quiet
        · exact works turn code read
        · obtain ⟨state, goes⟩ := on last
          have still := (uartInv_of_goes goes).1.status.trans (quiet last ended)
          refine never (uartLoop_timesOut advances (fun turn later => ?_) goes still)
          cases read : reads turn with
          | octet c =>
            have more := congrArg List.length
              ((ended (turn + 1) (by omega)).trans (ended turn later).symm)
            rw [uartReceived_octet read] at more
            exact absurd more (by simp)
          | nothing => rfl
          | failed code => exact absurd read (works turn code)
      obtain ⟨count, ending, ended⟩ := returns
      refine ⟨count, ending, ended, ?_⟩
      rcases uartLoop_error silent.2 ended with ⟨-, code, -, failed⟩ | late
      · rw [failed]
        exact Int.negSucc_ne_zero code
      · rw [late]
        decide

end Runs

end Slip
end Morse
