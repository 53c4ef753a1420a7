import Morse.Slip.UartExchange

/-!
# Command exchange over a socket

Here the receiver's errors end the call, and a closed connection does not: it is read again and
again.  There is no time-out.
-/

namespace Morse
namespace Slip

open Lib

/-- The octets that the first reads return. -/
def tcpReceived (socket : Socket) (count : Nat) : List Octet :=
  (List.range count).filterMap fun turn =>
    match socket.read turn with
    | .octet c => some c
    | _ => none

/-- The status after which the loops go on, if there is no answer. -/
def RxStatus.Fair (status : RxStatus) : Prop := status = .inProgress ∨ status = .complete

section Turns

variable {seqNum : Vector Octet seqnumLen} {resp : TransportBuff} {socket : Socket} {count : Nat}

theorem tcpReceived_octet (read : socket.read count = .octet c) :
    tcpReceived socket (count + 1) = tcpReceived socket count ++ [c] := by
  rw [tcpReceived, List.range_succ, tcpReceived]
  simp [read]

theorem tcpReceived_other (other : ∀ c, socket.read count ≠ .octet c) :
    tcpReceived socket (count + 1) = tcpReceived socket count := by
  rw [tcpReceived, List.range_succ, tcpReceived]
  cases read : socket.read count with
  | octet c => exact absurd read (other c)
  | closed => simp [read]
  | failed code => simp [read]
  | silent => simp [read]

theorem tcpTest_eq (seqNumField : List Octet) (state : TcpState) :
    tcpTest seqNumField state =
      if Accepts seqNumField (state.status, state.rx) then
        .inl ⟨.success, state.rx, (checkFrame seqNumField state.rx.buffer state.rx.length).2⟩
      else if state.status = .inProgress then .inr state
      else if state.status = .complete then
        .inr { state with
          dataLen := (checkFrame seqNumField state.rx.buffer state.rx.length).2
          rx := rxStateReset state.rx }
      else .inl ⟨.badFrame, state.rx, state.dataLen⟩ := by
  rw [tcpTest]
  cases state.status with
  | complete =>
    cases accepted : (checkFrame seqNumField state.rx.buffer state.rx.length).1 with
    | true => simp [Accepts, accepted]
    | false => simp [Accepts, accepted]
  | inProgress => simp [Accepts]
  | bufferLimit => simp [Accepts]
  | error => simp [Accepts]

variable {seqNumField : List Octet}

theorem tcpTest_kept (goes : tcpTest seqNumField state = .inr after) :
    ¬Accepts seqNumField (state.status, state.rx) ∧ state.status.Fair ∧
      after.rx = (if state.status = .inProgress then state.rx else rxStateReset state.rx) ∧
      after.status = state.status := by
  rw [tcpTest_eq] at goes
  split at goes
  · cases goes
  next refused =>
    refine ⟨refused, ?_⟩
    split at goes
    · next still =>
        cases goes
        exact ⟨.inl still, (if_pos still).symm, rfl⟩
    next ended =>
      split at goes
      · next complete =>
          cases goes
          exact ⟨.inr complete, (if_neg ended).symm, rfl⟩
      · cases goes

variable {ending : LoopEnd}

theorem tcpTest_ends (ended : tcpTest seqNumField state = .inl ending) :
    (Accepts seqNumField (state.status, state.rx) ∧
        ending =
          ⟨.success, state.rx, (checkFrame seqNumField state.rx.buffer state.rx.length).2⟩) ∨
      ¬state.status.Fair ∧ ending.outcome = .badFrame := by
  rw [tcpTest_eq] at ended
  split at ended
  · next accepted =>
      cases ended
      exact .inl ⟨accepted, rfl⟩
  split at ended
  · cases ended
  next ended' =>
    split at ended
    · cases ended
    · next bad =>
        cases ended
        exact .inr ⟨fun fair => fair.elim ended' bad, rfl⟩

/-- What holds before every read. -/
def TcpInv (seqNum : Vector Octet seqnumLen) (resp : TransportBuff) (socket : Socket)
    (count : Nat) (state : TcpState) : Prop :=
  Tracks seqNum resp (tcpReceived socket count) state.rx state.status ∧ state.status.Fair

theorem tcpInv_start (socket : Socket) : TcpInv seqNum resp socket 0 (.start resp) :=
  ⟨Tracks.start seqNum resp, .inl rfl⟩

variable {before : TcpState}

theorem tcpTurn_kept (inv : TcpInv seqNum resp socket count before)
    (goes : tcpTurn seqNum.toList (socket.read count) before = .inr after) :
    TcpInv seqNum resp socket (count + 1) after := by
  obtain ⟨tracks, fair⟩ := inv
  cases read : socket.read count with
  | failed code =>
    rw [read] at goes
    cases goes
  | silent =>
    rw [read] at goes
    cases goes
    rw [TcpInv, tcpReceived_other (fun c octet => by cases read.symm.trans octet)]
    exact ⟨tracks, fair⟩
  | closed =>
    rw [read] at goes
    obtain ⟨-, -, rx, status⟩ := tcpTest_kept goes
    have same : (if before.status = .inProgress then before.rx else rxStateReset before.rx) =
        before.rx := by
      split
      · rfl
      · next ended => exact tracks.reset ended
    rw [TcpInv, tcpReceived_other (fun c octet => by cases read.symm.trans octet), rx, status,
      same]
    exact ⟨tracks, fair⟩
  | octet c =>
    rw [read] at goes
    obtain ⟨refused, fair, rx, status⟩ := tcpTest_kept goes
    rw [TcpInv, tcpReceived_octet read, rx, status]
    exact ⟨tracks.octet refused, fair⟩

theorem tcpTurn_ends (inv : TcpInv seqNum resp socket count before)
    (ended : tcpTurn seqNum.toList (socket.read count) before = .inl ending) :
    (∃ code, socket.read count = .failed code ∧ ending.outcome = .readFailed code) ∨
      (∃ c, socket.read count = .octet c ∧ Accepts seqNum.toList (rx before.rx c) ∧
        ending = ⟨.success, (rx before.rx c).2,
          (checkFrame seqNum.toList (rx before.rx c).2.buffer (rx before.rx c).2.length).2⟩) ∨
      ∃ c, socket.read count = .octet c ∧ ¬(rx before.rx c).1.Fair ∧
        ending.outcome = .badFrame := by
  obtain ⟨tracks, fair⟩ := inv
  cases read : socket.read count with
  | failed code =>
    rw [read] at ended
    cases ended
    exact .inl ⟨code, rfl, rfl⟩
  | silent =>
    rw [read] at ended
    cases ended
  | closed =>
    rw [read] at ended
    rcases tcpTest_ends ended with ⟨⟨complete, accepted⟩, -⟩ | ⟨unfair, -⟩
    · have refused := tracks.not_accepts (fun still => by cases still.symm.trans complete)
      cases refused.symm.trans accepted
    · exact absurd fair unfair
  | octet c =>
    rw [read] at ended
    rcases tcpTest_ends ended with accepted | bad
    · exact .inr (.inl ⟨c, rfl, accepted⟩)
    · exact .inr (.inr ⟨c, rfl, bad⟩)

theorem Tracks.lastStatus_octet {status : RxStatus}
    (tracks : Tracks seqNum resp octets state status) (c : Octet) :
    lastStatus (decode resp (octets ++ [c])).1 = (rx state c).1 := by
  rw [decode_concat, lastStatus, List.getLast?_append, tracks.decoded]
  rfl

end Turns

/-! ## Runs -/

/-- Up to an answer, or to a read that fails, the receiver reports no error. -/
def TcpClean (seqNum : Vector Octet seqnumLen) (resp : TransportBuff) (socket : Socket) : Prop :=
  ∀ count, (∀ turn code, turn < count → socket.read turn ≠ .failed code) →
    Unanswered seqNum (decode resp (tcpReceived socket count)).1 →
      (lastStatus (decode resp (tcpReceived socket (count + 1))).1).Fair

section Runs

variable {seqNum : Vector Octet seqnumLen} {resp : TransportBuff} {socket : Socket} {count : Nat}

/-- The loops of `tcp_slip_send`. -/
def tcpLoop (seqNum : Vector Octet seqnumLen) (resp : TransportBuff) (socket : Socket) :
    Nat → LoopEnd ⊕ TcpState :=
  afterTurns (fun turn => tcpTurn seqNum.toList (socket.read turn)) (.start resp)

variable {state : TcpState}

theorem tcpInv_of_goes (goes : tcpLoop seqNum resp socket count = .inr state) :
    TcpInv seqNum resp socket count state := by
  refine @afterTurns_invariant _ _ _ _ _ (TcpInv seqNum resp socket) (tcpInv_start socket) ?_
    state goes
  intro count before after inv taken
  exact tcpTurn_kept inv taken

theorem not_failed_of_goes (goes : tcpLoop seqNum resp socket count = .inr state) (turn code : Nat)
    (early : turn < count) :
    socket.read turn ≠ .failed code := by
  intro read
  obtain ⟨after, later⟩ := goes_of_le (Nat.succ_le_of_lt early) goes
  obtain ⟨before, -, taken⟩ := before_of_afterTurns later
  rw [read] at taken
  cases taken

theorem tcpLoop_ends (ended : tcpLoop seqNum resp socket count = .inl ending) :
    (∃ turn code, socket.read turn = .failed code ∧ ending.outcome = .readFailed code) ∨
      (ending.outcome = .success ∧ ∃ turn frame payload, turn ≤ count ∧
        (decode resp (tcpReceived socket turn)).1.getLast? = some (.complete, frame) ∧
        Answers seqNum frame payload ∧ ending.dataLen = payload.length ∧
        segment ending.rx.buffer 0 payload.length = payload) ∨
      ending.outcome = .badFrame ∧ ¬TcpClean seqNum resp socket := by
  obtain ⟨last, before, early, goes, taken⟩ := turn_of_afterTurns ended
  have inv := tcpInv_of_goes goes
  rcases tcpTurn_ends inv taken with ⟨code, read, outcome⟩ | ⟨c, read, accepted, rfl⟩ |
    ⟨c, read, unfair, outcome⟩
  · exact .inl ⟨last, code, read, outcome⟩
  · obtain ⟨frame, payload, answers, length, data⟩ := inv.1.answer accepted
    refine .inr (.inl ⟨rfl, last + 1, _, payload, early, ?_, answers, length, data⟩)
    rw [tcpReceived_octet read]
    exact frame
  · refine .inr (.inr ⟨outcome, fun clean => unfair ?_⟩)
    have fair := clean last (not_failed_of_goes goes) inv.1.unanswered
    rw [tcpReceived_octet read, inv.1.lastStatus_octet c] at fair
    exact fair

theorem unanswered_of_le (before : earlier ≤ count)
    (unanswered : Unanswered seqNum (decode resp (tcpReceived socket count)).1) :
    Unanswered seqNum (decode resp (tcpReceived socket earlier)).1 := by
  obtain ⟨extra, rfl⟩ := Nat.exists_eq_add_of_le before
  clear before
  induction extra with
  | zero => exact unanswered
  | succ extra ih =>
    refine ih fun frame payload found => ?_
    cases read : socket.read (earlier + extra) with
    | octet c =>
      refine unanswered frame payload ?_
      rw [← Nat.add_assoc, tcpReceived_octet read, decode_concat]
      exact List.mem_append_left _ found
    | closed =>
      refine unanswered frame payload ?_
      rwa [← Nat.add_assoc, tcpReceived_other (fun c octet => by cases read.symm.trans octet)]
    | failed code =>
      refine unanswered frame payload ?_
      rwa [← Nat.add_assoc, tcpReceived_other (fun c octet => by cases read.symm.trans octet)]
    | silent =>
      refine unanswered frame payload ?_
      rwa [← Nat.add_assoc, tcpReceived_other (fun c octet => by cases read.symm.trans octet)]

theorem tcpLoop_goes (works : ∀ turn code, turn < count → socket.read turn ≠ .failed code)
    (unanswered : Unanswered seqNum (decode resp (tcpReceived socket count)).1)
    (fair : ∀ turn, turn < count →
      (lastStatus (decode resp (tcpReceived socket (turn + 1))).1).Fair) :
    ∃ state, tcpLoop seqNum resp socket count = .inr state := by
  induction count with
  | zero => exact ⟨_, rfl⟩
  | succ count ih =>
    obtain ⟨before, goes⟩ := ih
      (fun turn code early => works turn code (Nat.lt_succ_of_lt early))
      (unanswered_of_le (Nat.le_succ count) unanswered)
      (fun turn early => fair turn (Nat.lt_succ_of_lt early))
    have inv := tcpInv_of_goes goes
    have taken := afterTurns_succ goes
    cases next : tcpTurn seqNum.toList (socket.read count) before with
    | inr after => exact ⟨after, taken.trans next⟩
    | inl ending =>
      exfalso
      rcases tcpTurn_ends inv next with ⟨code, read, -⟩ | ⟨c, read, accepted, -⟩ |
        ⟨c, read, unfair, -⟩
      · exact works count code (Nat.lt_succ_self count) read
      · obtain ⟨found, payload, answers, -⟩ := inv.1.answer accepted
        rw [← tcpReceived_octet read] at found
        exact unanswered _ payload (List.mem_of_getLast? found) answers
      · have fair := fair count (Nat.lt_succ_self count)
        rw [tcpReceived_octet read, inv.1.lastStatus_octet c] at fair
        exact unfair fair

theorem tcpClean_of_meets
    (meets : LoopMeets seqNum resp (tcpReceived socket) (tcpLoop seqNum resp socket)) :
    TcpClean seqNum resp socket := by
  intro count
  induction count using Nat.strong_induction_on with
  | _ count ih =>
    intro works unanswered
    obtain ⟨before, goes⟩ := tcpLoop_goes works unanswered fun turn early =>
      ih turn early (fun other code sooner => works other code (by omega))
        (unanswered_of_le (Nat.le_of_lt early) unanswered)
    have inv := tcpInv_of_goes goes
    have taken := afterTurns_succ goes
    cases next : tcpTurn seqNum.toList (socket.read count) before with
    | inr after =>
      have later := tcpInv_of_goes (taken.trans next)
      rw [← later.1.status]
      exact later.2
    | inl ending =>
      rcases tcpTurn_ends inv next with ⟨code, read, -⟩ | ⟨c, read, ⟨complete, -⟩, -⟩ |
        ⟨c, read, -, bad⟩
      · rw [tcpReceived_other (fun c octet => by cases read.symm.trans octet),
          ← inv.1.status]
        exact inv.2
      · rw [tcpReceived_octet read, inv.1.lastStatus_octet c]
        exact .inr complete
      · exact absurd bad (meets.skips (count + 1) ending (taken.trans next))

theorem tcpLoop_meets_iff (seqNum : Vector Octet seqnumLen) (resp : TransportBuff)
    (socket : Socket) :
    LoopMeets seqNum resp (tcpReceived socket) (tcpLoop seqNum resp socket) ↔
      TcpClean seqNum resp socket ∧
        (Silent seqNum resp (tcpReceived socket) →
          ∃ turn code, socket.read turn = .failed code) := by
  constructor
  · intro meets
    refine ⟨tcpClean_of_meets meets, fun silent => ?_⟩
    obtain ⟨count, ending, ended, nonzero⟩ := meets.ends silent
    rcases tcpLoop_ends ended with ⟨turn, code, read, -⟩ | ⟨success, -⟩ | ⟨bad, -⟩
    · exact ⟨turn, code, read⟩
    · rw [success] at nonzero
      exact absurd rfl nonzero
    · exact absurd bad (meets.skips count ending ended)
  · rintro ⟨clean, fails⟩
    refine
      { success := fun count ending ended zero => ?_
        skips := fun count ending ended => ?_
        answered := fun count state goes => (tcpInv_of_goes goes).1.unanswered
        ends := fun silent => ?_ }
    · rcases tcpLoop_ends ended with ⟨-, code, -, failed⟩ | ⟨-, answered⟩ | ⟨-, unclean⟩
      · rw [failed] at zero
        cases zero
      · exact answered
      · exact absurd clean unclean
    · rcases tcpLoop_ends ended with ⟨-, code, -, failed⟩ | ⟨success, -⟩ | ⟨-, unclean⟩
      · rw [failed]
        rintro ⟨⟩
      · rw [success]
        rintro ⟨⟩
      · exact absurd clean unclean
    · obtain ⟨turn, code, read⟩ := fails silent
      cases ended : tcpLoop seqNum resp socket (turn + 1) with
      | inr state => exact absurd read (not_failed_of_goes ended turn code (Nat.lt_succ_self turn))
      | inl ending =>
        refine ⟨turn + 1, ending, ended, ?_⟩
        rcases tcpLoop_ends ended with ⟨-, code, -, failed⟩ |
          ⟨-, place, frame, payload, -, last, answers, -⟩ | ⟨-, unclean⟩
        · rw [failed]
          exact Int.negSucc_ne_zero code
        · exact absurd answers
            (silent.2 place frame payload (List.mem_of_getLast? last))
        · exact absurd clean unclean

end Runs

/-! ## Both transports -/

/-- What `uart_slip_send` needs to be given to do what is asked. -/
def UartServed {σ : Type} (transportTxFn : Octet → σ → Int × σ) (arg : σ)
    (seqNum : Vector Octet seqnumLen) (req resp : TransportBuff) (reads : Nat → UartRead) :
    Prop :=
  Silent seqNum resp (uartReceived reads) →
    Room req ∧ (Sends transportTxFn arg seqNum req → UartQuiet reads resp)

/-- What `tcp_slip_send` needs to be given to do what is asked. -/
def TcpServed {σ : Type} (transportTxFn : Octet → σ → Int × σ) (arg : σ)
    (seqNum : Vector Octet seqnumLen) (req resp : TransportBuff) (socket : Socket) : Prop :=
  (Silent seqNum resp (tcpReceived socket) →
    Room req ∧ (Sends transportTxFn arg seqNum req →
      ∃ turn code, socket.read turn = .failed code)) ∧
    (Room req → Sends transportTxFn arg seqNum req → TcpClean seqNum resp socket)

/--
Whatever the clock, a call over the serial line does what is asked exactly when it is served so,
and so does a call over a socket.
-/
theorem slipSend_meets_iff {σ : Type} (transportTxFn : Octet → σ → Int × σ) (arg : σ)
    (seqNum : Vector Octet seqnumLen) (req resp : TransportBuff) (reads : Nat → UartRead)
    (socket : Socket) :
    ((∀ clock, Advances clock →
        Meets seqNum req resp (uartReceived reads)
          (uartSlipSend transportTxFn arg clock reads seqNum req resp)) ↔
        UartServed transportTxFn arg seqNum req resp reads) ∧
      (Meets seqNum req resp (tcpReceived socket)
          (tcpSlipSend transportTxFn arg socket seqNum req resp) ↔
        TcpServed transportTxFn arg seqNum req resp socket) := by
  by_cases room : Room req
  · by_cases sends : Sends transportTxFn arg seqNum req
    · have uart : (∀ clock, Advances clock →
          Meets seqNum req resp (uartReceived reads)
            (uartSlipSend transportTxFn arg clock reads seqNum req resp)) ↔
          ∀ clock, Advances clock →
            LoopMeets seqNum resp (uartReceived reads) (uartLoop clock seqNum resp reads) :=
        forall_congr' fun clock => imp_congr_right fun _ => meets_of_sends room sends
      have tcp : Meets seqNum req resp (tcpReceived socket)
          (tcpSlipSend transportTxFn arg socket seqNum req resp) ↔
          LoopMeets seqNum resp (tcpReceived socket) (tcpLoop seqNum resp socket) :=
        meets_of_sends room sends
      rw [uart, tcp, uartLoop_meets_iff, tcpLoop_meets_iff, UartServed, TcpServed]
      simp only [room, sends, true_and, forall_const]
      exact and_comm
    · rw [UartServed, TcpServed]
      simp only [room, sends, false_imp_iff, implies_true, and_true, iff_true]
      exact ⟨fun clock _ => meets_of_not_sends room sends, meets_of_not_sends room sends⟩
  · have uart : (∀ clock, Advances clock →
        Meets seqNum req resp (uartReceived reads)
          (uartSlipSend transportTxFn arg clock reads seqNum req resp)) ↔
        ¬Silent seqNum resp (uartReceived reads) :=
      ⟨fun meets => (meets_of_not_room room).mp (meets _ (advances_lateClock 0)),
        fun noisy clock _ => (meets_of_not_room room).mpr noisy⟩
    have tcp : Meets seqNum req resp (tcpReceived socket)
        (tcpSlipSend transportTxFn arg socket seqNum req resp) ↔
        ¬Silent seqNum resp (tcpReceived socket) := meets_of_not_room room
    rw [uart, tcp, UartServed, TcpServed]
    simp only [room, false_and, false_imp_iff, and_true]

/-- A request of one octet. -/
def oneOctetReq : TransportBuff where
  data := fun _ => 0
  dataLen := 1
  capacity := 7

/-- A buffer for the response. -/
def respBuff : TransportBuff where
  data := fun _ => 0
  dataLen := 0
  capacity := 16

/-- A frame of one octet, and then nothing. -/
def junkReads : Nat → UartRead
  | 0 => .octet 7
  | 1 => .octet frameEnd
  | _ => .nothing

/-- A connection that is closed at once. -/
def closedSocket : Socket where
  read := fun _ => .closed
  closed_stays := fun _ _ => rfl
  silent_stays := fun _ silent => by cases silent

theorem uartReceived_junkReads (count : Nat) :
    uartReceived junkReads (count + 2) = [7, frameEnd] := by
  induction count with
  | zero => rfl
  | succ count ih =>
    have other (c : Octet) : junkReads (count + 2) ≠ .octet c := by rintro ⟨⟩
    rw [uartReceived_other other, ih]

theorem tcpReceived_closedSocket (count : Nat) : tcpReceived closedSocket count = [] := by
  induction count with
  | zero => rfl
  | succ count ih =>
    have other (c : Octet) : closedSocket.read count ≠ .octet c := by rintro ⟨⟩
    rw [tcpReceived_other other, ih]

theorem unanswered_of_short (short : ∀ result ∈ results, result.2.length < 6) :
    Unanswered seqNum results := by
  intro frame payload found answers
  have length := answers.length
  have small : frame.length < 6 := short _ found
  unfold seqnumLen crcLen at length
  omega

theorem silent_junkReads (seqNum : Vector Octet seqnumLen) :
    Silent seqNum respBuff (uartReceived junkReads) := by
  refine ⟨⟨2, fun count later => ?_⟩, fun count => unanswered_of_short ?_⟩
  · obtain ⟨extra, rfl⟩ := Nat.exists_eq_add_of_le' later
    rw [uartReceived_junkReads]
    rfl
  · rcases count with _ | _ | count
    · decide
    · decide
    · rw [uartReceived_junkReads]
      decide

/-- The serial line with a frame that is too short, and a socket that is closed. -/
theorem not_meets_junk :
    (¬∀ clock, Advances clock →
        Meets (.replicate 4 0) oneOctetReq respBuff (uartReceived junkReads)
          (uartSlipSend sendAll [] clock junkReads (.replicate 4 0) oneOctetReq respBuff)) ∧
      ¬Meets (.replicate 4 0) oneOctetReq respBuff (tcpReceived closedSocket)
        (tcpSlipSend sendAll [] closedSocket (.replicate 4 0) oneOctetReq respBuff) := by
  have room : Room oneOctetReq := Nat.le_refl 7
  have sends : Sends sendAll [] (.replicate 4 0) oneOctetReq := by
    intro framed _
    rw [tx]
    rw [txLoop_sendAll]
  constructor
  · intro meets
    have loops := (uartLoop_meets_iff (.replicate 4 0) respBuff junkReads).mp
      fun clock advances => (meets_of_sends room sends).mp (meets clock advances)
    rcases loops (silent_junkReads _) with ⟨turn, code, read⟩ | quiet
    · rcases turn with _ | _ | turn
      · cases read
      · cases read
      · cases read
    · have still := quiet 2 fun count later => by
        obtain ⟨extra, rfl⟩ := Nat.exists_eq_add_of_le' later
        rw [uartReceived_junkReads]
        rfl
      exact absurd still (by decide)
  · intro meets
    have loops := (tcpLoop_meets_iff (.replicate 4 0) respBuff closedSocket).mp
      ((meets_of_sends room sends).mp meets)
    obtain ⟨turn, code, read⟩ := loops.2 ⟨⟨0, fun count _ => by
      rw [tcpReceived_closedSocket, tcpReceived_closedSocket]⟩, fun count => by
        rw [tcpReceived_closedSocket]
        exact unanswered_of_short (by decide)⟩
    cases read

end Slip
end Morse
