import Morse.Slip.ExchangeDefs
import Morse.Slip.Resync

/-!
# What is asked of a command exchange

A frame answers a request if it ends in the sequence number of the request and in the CRC of what
is before it.  The loops of both transports track the decoder: between two reads its state is that
of the octets received so far, with a reset after every frame, and no frame so far has been an
answer.
-/

namespace Morse
namespace Slip

open Lib

/-- The frame carries a payload, the sequence number and a correct CRC over both. -/
def Answers (seqNum : Vector Octet seqnumLen) (frame payload : List Octet) : Prop :=
  frame = payload ++ seqNum.toList ++ crcField (crc16Gen (payload ++ seqNum.toList))

theorem Answers.length (answers : Answers seqNum frame payload) :
    frame.length = payload.length + seqnumLen + crcLen := by
  rw [answers, List.length_append, List.length_append, Vector.length_toList]
  rfl

theorem answers_segment_iff (seqNum : Vector Octet seqnumLen) (data : Nat → Octet) (count : Nat) :
    Answers seqNum (segment data 0 (count + seqnumLen + crcLen)) (segment data 0 count) ↔
      segment data (count + seqnumLen) crcLen =
          crcField (crc16Gen (segment data 0 (count + seqnumLen))) ∧
        segment data count seqnumLen = seqNum.toList := by
  have whole : segment data 0 (count + seqnumLen + crcLen) =
      segment data 0 (count + seqnumLen) ++ segment data (count + seqnumLen) crcLen := by
    rw [segment_add, Nat.zero_add]
  have front : segment data 0 (count + seqnumLen) =
      segment data 0 count ++ segment data count seqnumLen := by
    rw [segment_add, Nat.zero_add]
  rw [Answers, whole]
  constructor
  · intro answers
    obtain ⟨before, crc⟩ := List.append_inj' answers (length_segment _ _ _)
    rw [front] at before
    have seq := List.append_cancel_left before
    rw [front, seq]
    exact ⟨crc, rfl⟩
  · rintro ⟨crc, seq⟩
    rw [crc, front, seq]

variable {data : Nat → Octet} {length : Nat}

theorem Answers.payload_eq (answers : Answers seqNum (segment data 0 length) payload) :
    length = payload.length + seqnumLen + crcLen ∧ payload = segment data 0 payload.length := by
  have count := answers.length
  rw [length_segment] at count
  refine ⟨count, ?_⟩
  subst count
  rw [Answers, Nat.add_assoc, segment_add, List.append_assoc] at answers
  exact (List.append_inj_left answers (length_segment _ _ _)).symm

theorem checkFrame_iff (seqNum : Vector Octet seqnumLen) (data : Nat → Octet)
    (length dataLen : Nat) :
    checkFrame seqNum.toList data length = (true, dataLen) ↔
      length = dataLen + seqnumLen + crcLen ∧
        Answers seqNum (segment data 0 length) (segment data 0 dataLen) := by
  unfold checkFrame
  split
  · next short =>
      refine iff_of_false (by simp) fun both => ?_
      omega
  · next enough =>
      obtain ⟨count, rfl⟩ : ∃ count, length = count + seqnumLen + crcLen :=
        ⟨length - (seqnumLen + crcLen), by omega⟩
      simp only [Nat.add_sub_cancel]
      have same : (count + seqnumLen + crcLen = dataLen + seqnumLen + crcLen ∧
          Answers seqNum (segment data 0 (count + seqnumLen + crcLen)) (segment data 0 dataLen)) ↔
            count = dataLen ∧ Answers seqNum (segment data 0 (count + seqnumLen + crcLen))
              (segment data 0 count) := by
        constructor
        · rintro ⟨lengths, answers⟩
          obtain rfl : count = dataLen := by omega
          exact ⟨rfl, answers⟩
        · rintro ⟨rfl, answers⟩
          exact ⟨rfl, answers⟩
      rw [same, answers_segment_iff]
      split
      · next damaged => exact iff_of_false (by simp) fun both => damaged both.2.1
      · next intact =>
          split
          · next foreign => exact iff_of_false (by simp) fun both => foreign both.2.2
          · next own =>
              rw [Prod.mk.injEq]
              exact ⟨fun both => ⟨both.2, not_not.mp intact, not_not.mp own⟩,
                fun both => ⟨rfl, both.1⟩⟩

theorem not_answers_of_refused (refused : (checkFrame seqNum.toList data length).1 = false)
    (payload : List Octet) :
    ¬Answers seqNum (segment data 0 length) payload := by
  intro answers
  obtain ⟨count, same⟩ := answers.payload_eq
  rw [same] at answers
  have accepted := (checkFrame_iff seqNum data length payload.length).mpr ⟨count, answers⟩
  rw [accepted] at refused
  cases refused

/-! ## Decoding -/

/-- What the receiver says of the octets of a call. -/
def decode (resp : TransportBuff) (octets : List Octet) : List (RxStatus × List Octet) × RxState :=
  receiveAll (rxStateReset (.init resp.data resp.capacity)) octets

/-- The last status, or the one with which the loops are entered. -/
def lastStatus (results : List (RxStatus × List Octet)) : RxStatus :=
  (results.getLast?.map Prod.fst).getD .inProgress

/-- No frame is an answer. -/
def Unanswered (seqNum : Vector Octet seqnumLen) (results : List (RxStatus × List Octet)) : Prop :=
  ∀ frame payload, (.complete, frame) ∈ results → ¬Answers seqNum frame payload

/-- The loops track the octets received so far. -/
structure Tracks (seqNum : Vector Octet seqnumLen) (resp : TransportBuff) (octets : List Octet)
    (rx : RxState) (status : RxStatus) : Prop where
  decoded : rx = (decode resp octets).2
  status : status = lastStatus (decode resp octets).1
  unanswered : Unanswered seqNum (decode resp octets).1

/-- The decoder has a frame that is accepted. -/
def Accepts (seqNumField : List Octet) (result : RxStatus × RxState) : Prop :=
  result.1 = .complete ∧ (checkFrame seqNumField result.2.buffer result.2.length).1 = true

instance (seqNumField : List Octet) (result : RxStatus × RxState) :
    Decidable (Accepts seqNumField result) :=
  inferInstanceAs (Decidable (_ ∧ _))

theorem decode_concat (resp : TransportBuff) (octets : List Octet) (c : Octet) :
    decode resp (octets ++ [c]) =
      ((decode resp octets).1 ++ [(receive (decode resp octets).2 c).1],
        (receive (decode resp octets).2 c).2) := by
  rw [decode, receiveAll_append]
  rfl

section Tracking

variable {seqNum : Vector Octet seqnumLen} {resp : TransportBuff} {octets : List Octet}
variable {state : RxState} {status : RxStatus}

theorem Tracks.start (seqNum : Vector Octet seqnumLen) (resp : TransportBuff) :
    Tracks seqNum resp [] (rxStateReset (.init resp.data resp.capacity)) .inProgress :=
  ⟨rfl, rfl, fun _ _ none => (by cases none)⟩

variable {c : Octet}

theorem Tracks.octet (tracks : Tracks seqNum resp octets state status)
    (refused : ¬Accepts seqNum.toList (rx state c)) :
    Tracks seqNum resp (octets ++ [c])
      (if (rx state c).1 = .inProgress then (rx state c).2
        else rxStateReset (rx state c).2) (rx state c).1 := by
  have same := tracks.decoded
  subst same
  refine ⟨?_, ?_, ?_⟩
  · rw [decode_concat]
    rfl
  · rw [decode_concat, lastStatus, List.getLast?_append]
    rfl
  · intro frame payload found
    rw [decode_concat] at found
    rcases List.mem_append.mp found with early | late
    · exact tracks.unanswered frame payload early
    · have last := List.mem_singleton.mp late
      have complete : (rx (decode resp octets).2 c).1 = .complete :=
        (congrArg Prod.fst last).symm
      have whole : frame = (rx (decode resp octets).2 c).2.packet := congrArg Prod.snd last
      rw [whole]
      refine not_answers_of_refused (Bool.eq_false_iff.mpr fun accepted => ?_) payload
      exact refused ⟨complete, accepted⟩

theorem Tracks.answer (tracks : Tracks seqNum resp octets state status)
    (accepted : Accepts seqNum.toList (rx state c)) :
    (decode resp (octets ++ [c])).1.getLast? =
        some (.complete, (rx state c).2.packet) ∧
      ∃ payload, Answers seqNum (rx state c).2.packet payload ∧
        (checkFrame seqNum.toList (rx state c).2.buffer (rx state c).2.length).2 =
          payload.length ∧
        segment (rx state c).2.buffer 0 payload.length = payload := by
  have same := tracks.decoded
  subst same
  obtain ⟨complete, accepted⟩ := accepted
  refine ⟨?_, ?_⟩
  · rw [decode_concat, List.getLast?_append]
    exact congrArg some (Prod.ext complete rfl)
  · generalize rx (decode resp octets).2 c = result at *
    obtain ⟨count, answers⟩ :=
      (checkFrame_iff seqNum result.2.buffer result.2.length _).mp (Prod.ext accepted rfl)
    exact ⟨_, answers, (length_segment _ _ _).symm, by rw [length_segment]⟩

theorem Tracks.reset (tracks : Tracks seqNum resp octets state status)
    (ended : status ≠ .inProgress) :
    rxStateReset state = state := by
  have same := tracks.decoded
  have last := tracks.status
  rcases List.eq_nil_or_concat octets with rfl | ⟨before, c, rfl⟩
  · exact absurd last ended
  · rw [List.concat_eq_append, decode_concat] at same last
    rw [lastStatus, List.getLast?_append] at last
    have closed : (rx (decode resp before).2 c).1 ≠ .inProgress := fun still =>
      ended (last.trans still)
    rw [same, receive]
    dsimp only
    rw [if_neg closed]
    rfl

theorem Tracks.not_accepts (tracks : Tracks seqNum resp octets state status)
    (ended : status ≠ .inProgress) :
    (checkFrame seqNum.toList state.buffer state.length).1 = false := by
  rw [← tracks.reset ended]
  rfl

end Tracking

/-! ## What is asked -/

/-- A call, as a function of the number of reads, of which these octets are received.  It returns
success only for an answer and with its payload, gives the request its length back, does not
return for a frame that is no answer, does return for an answer, and returns an error if only
finitely many octets come, without an answer. -/
structure Meets (seqNum : Vector Octet seqnumLen) (req resp : TransportBuff)
    (received : Nat → List Octet) (progress : Nat → Progress) : Prop where
  success : ∀ count returned, progress count = .returned returned → returned.outcome.ret = 0 →
    ∃ turn frame payload, turn ≤ count ∧
      (decode resp (received turn)).1.getLast? = some (.complete, frame) ∧
      Answers seqNum frame payload ∧ returned.resp.dataLen = payload.length ∧
      segment returned.resp.data 0 payload.length = payload
  restored : ∀ count returned, progress count = .returned returned →
    returned.req.dataLen = req.dataLen
  skips : ∀ count returned, progress count = .returned returned → returned.outcome ≠ .badFrame
  answered : ∀ count, progress count = .running →
    Unanswered seqNum (decode resp (received count)).1
  ends : (∃ last, ∀ count, last ≤ count → received count = received last) →
    (∀ count, Unanswered seqNum (decode resp (received count)).1) →
      ∃ count returned, progress count = .returned returned ∧ returned.outcome.ret ≠ 0

/-- Only finitely many octets come, without an answer. -/
def Silent (seqNum : Vector Octet seqnumLen) (resp : TransportBuff)
    (received : Nat → List Octet) : Prop :=
  (∃ last, ∀ count, last ≤ count → received count = received last) ∧
    ∀ count, Unanswered seqNum (decode resp (received count)).1

/-- What is asked of the receiving part of a call. -/
structure LoopMeets {State : Type} (seqNum : Vector Octet seqnumLen) (resp : TransportBuff)
    (received : Nat → List Octet) (receiving : Nat → LoopEnd ⊕ State) : Prop where
  success : ∀ count ending, receiving count = .inl ending → ending.outcome.ret = 0 →
    ∃ turn frame payload, turn ≤ count ∧
      (decode resp (received turn)).1.getLast? = some (.complete, frame) ∧
      Answers seqNum frame payload ∧ ending.dataLen = payload.length ∧
      segment ending.rx.buffer 0 payload.length = payload
  skips : ∀ count ending, receiving count = .inl ending → ending.outcome ≠ .badFrame
  answered : ∀ count state, receiving count = .inr state →
    Unanswered seqNum (decode resp (received count)).1
  ends : Silent seqNum resp received →
    ∃ count ending, receiving count = .inl ending ∧ ending.outcome.ret ≠ 0

/-- There is room for sequence number and CRC behind the request. -/
def Room (req : TransportBuff) : Prop := req.dataLen + seqnumLen + crcLen ≤ req.capacity

/-- The octets of the request are sent. -/
def Sends {σ : Type} (transportTxFn : Octet → σ → Int × σ) (arg : σ)
    (seqNum : Vector Octet seqnumLen) (req : TransportBuff) : Prop :=
  ∀ framed, appendTrailer seqNum req = some framed →
    (tx transportTxFn (segment framed.data 0 framed.dataLen) arg).1 = 0

section Requests

variable {σ State : Type} {transportTxFn : Octet → σ → Int × σ} {arg : σ}
variable {seqNum : Vector Octet seqnumLen} {req resp : TransportBuff}
variable {received : Nat → List Octet} {receiving : List Octet → Nat → LoopEnd ⊕ State}

theorem appendTrailer_none (full : ¬Room req) : appendTrailer seqNum req = none := by
  unfold Room at full
  rw [appendTrailer]
  split
  · rfl
  · rw [if_pos (by omega)]

theorem appendTrailer_some (room : Room req) :
    ∃ framed, appendTrailer seqNum req = some framed ∧
      segment framed.data req.dataLen seqnumLen = seqNum.toList := by
  unfold Room at room
  refine ⟨_, by rw [appendTrailer, if_neg (by omega)]; exact if_neg (by omega), ?_⟩
  dsimp only
  have size : seqNum.toList.length = seqnumLen := Vector.length_toList
  have stored := segment_overwrite_self req.data req.dataLen seqNum.toList
  rw [size] at stored
  refine Eq.trans (segment_congr fun index _ below => ?_) stored
  rw [overwrite, if_pos below]

theorem meets_of_not_room (full : ¬Room req) :
    Meets seqNum req resp received
        (fun count => send transportTxFn arg seqNum req resp fun field => receiving field count) ↔
      ¬Silent seqNum resp received := by
  have aborted (count : Nat) :
      send transportTxFn arg seqNum req resp (fun field => receiving field count) = .aborted := by
    rw [send, appendTrailer_none full]
  constructor
  · rintro meets ⟨finite, unanswered⟩
    obtain ⟨count, returned, found, -⟩ := meets.ends finite unanswered
    cases (aborted count).symm.trans found
  · intro noisy
    exact
      { success := fun count _ found => by cases (aborted count).symm.trans found
        restored := fun count _ found => by cases (aborted count).symm.trans found
        skips := fun count _ found => by cases (aborted count).symm.trans found
        answered := fun count found => by cases (aborted count).symm.trans found
        ends := fun finite unanswered => absurd ⟨finite, unanswered⟩ noisy }

theorem meets_of_not_sends (room : Room req) (failed : ¬Sends transportTxFn arg seqNum req) :
    Meets seqNum req resp received
      (fun count => send transportTxFn arg seqNum req resp fun field => receiving field count) := by
  obtain ⟨framed, appended, -⟩ := @appendTrailer_some seqNum req room
  have nonzero : (tx transportTxFn (segment framed.data 0 framed.dataLen) arg).1 ≠ 0 := by
    intro zero
    refine failed fun other found => ?_
    obtain rfl := Option.some.inj (appended.symm.trans found)
    exact zero
  have returns (count : Nat) :
      send transportTxFn arg seqNum req resp (fun field => receiving field count) =
        .returned ⟨.txFailed (tx transportTxFn (segment framed.data 0 framed.dataLen) arg).1,
          { framed with dataLen := req.dataLen }, resp⟩ := by
    rw [send, appended]
    exact if_pos nonzero
  have same {count : Nat} {returned : Returned}
      (found : send transportTxFn arg seqNum req resp (fun field => receiving field count) =
        .returned returned) := Progress.returned.inj ((returns count).symm.trans found)
  exact
    { success := fun count returned found zero => by
        rw [← same found] at zero
        exact absurd zero nonzero
      restored := fun count returned found => by rw [← same found]
      skips := fun count returned found => by
        rw [← same found]
        rintro ⟨⟩
      answered := fun count found => by cases (returns count).symm.trans found
      ends := fun _ _ => ⟨0, _, returns 0, nonzero⟩ }

theorem meets_of_sends (room : Room req) (sends : Sends transportTxFn arg seqNum req) :
    Meets seqNum req resp received
        (fun count => send transportTxFn arg seqNum req resp fun field => receiving field count) ↔
      LoopMeets seqNum resp received (receiving seqNum.toList) := by
  obtain ⟨framed, appended, field⟩ := @appendTrailer_some seqNum req room
  have zero := sends framed appended
  have ended {count : Nat} {ending : LoopEnd}
      (found : receiving seqNum.toList count = .inl ending) :
      send transportTxFn arg seqNum req resp (fun field => receiving field count) =
        .returned ⟨ending.outcome, { framed with dataLen := req.dataLen },
          { resp with data := ending.rx.buffer, dataLen := ending.dataLen }⟩ := by
    rw [send, appended]
    dsimp only
    rw [zero, field, found]
    exact if_neg (not_not.mpr rfl)
  have goes {count : Nat} {state : State}
      (found : receiving seqNum.toList count = .inr state) :
      send transportTxFn arg seqNum req resp (fun field => receiving field count) =
        .running := by
    rw [send, appended]
    dsimp only
    rw [zero, field, found]
    exact if_neg (not_not.mpr rfl)
  have inner {count : Nat} {returned : Returned}
      (found : send transportTxFn arg seqNum req resp (fun field => receiving field count) =
        .returned returned) :
      ∃ ending, receiving seqNum.toList count = .inl ending ∧
        returned = ⟨ending.outcome, { framed with dataLen := req.dataLen },
          { resp with data := ending.rx.buffer, dataLen := ending.dataLen }⟩ := by
    cases loop : receiving seqNum.toList count with
    | inl ending => exact ⟨ending, rfl, Progress.returned.inj (found.symm.trans (ended loop))⟩
    | inr state => cases found.symm.trans (goes loop)
  constructor
  · intro meets
    exact
      { success := fun count ending found => meets.success count _ (ended found)
        skips := fun count ending found => meets.skips count _ (ended found)
        answered := fun count state found => meets.answered count (goes found)
        ends := fun silent => by
          obtain ⟨count, returned, found, nonzero⟩ := meets.ends silent.1 silent.2
          obtain ⟨ending, loop, rfl⟩ := inner found
          exact ⟨count, ending, loop, nonzero⟩ }
  · intro meets
    exact
      { success := fun count returned found success => by
          obtain ⟨ending, loop, rfl⟩ := inner found
          exact meets.success count ending loop success
        restored := fun count returned found => by
          obtain ⟨ending, -, rfl⟩ := inner found
          rfl
        skips := fun count returned found => by
          obtain ⟨ending, loop, rfl⟩ := inner found
          exact meets.skips count ending loop
        answered := fun count found => by
          cases loop : receiving seqNum.toList count with
          | inl ending => cases found.symm.trans (ended loop)
          | inr state => exact meets.answered count state loop
        ends := fun finite unanswered => by
          obtain ⟨count, ending, loop, nonzero⟩ := meets.ends ⟨finite, unanswered⟩
          exact ⟨count, _, ended loop, nonzero⟩ }

end Requests

end Slip
end Morse
