import Morse.Slip.Resync

/-!
# What the sender reports

The status of each octet replaces that of the one before, and those of the two ends are not looked
at.  What is returned is the status of the last octet of the packet, whatever became of the others.
-/

namespace Morse
namespace Slip

open Lib

variable (answers : Nat → Int)

/-- A transport that answers each call with a given status, and keeps what it was given. -/
def record (c : Octet) (sent : List (Octet × Int)) : Int × List (Octet × Int) :=
  (answers sent.length, sent ++ [(c, answers sent.length)])

/-- The octets that were accepted. -/
def accepted (sent : List (Octet × Int)) : List Octet :=
  sent.filterMap fun call => if call.2 = 0 then some call.1 else none

/-- Zero is returned if and only if the whole frame was accepted. -/
def ReportsSend (packet : List Octet) : Prop :=
  (tx (record answers) packet []).1 = 0 ↔
    accepted (tx (record answers) packet []).2 = encoded packet

/-- An octet that is sent as two. -/
abbrev Special (c : Octet) : Prop := c = frameEsc ∨ c = frameEnd

/-- How many calls an octet takes from some call on. -/
def octetCalls (call : Nat) (c : Octet) : Nat :=
  if Special c ∧ answers call = 0 then 2 else 1

/-- The call behind those for some octets. -/
def callBehind : List Octet → Nat → Nat
  | [], call => call
  | c :: rest, call => callBehind rest (call + octetCalls answers call c)

/-- One of the calls for an octet fails. -/
def OctetFails (call : Nat) (c : Octet) : Prop :=
  answers call ≠ 0 ∨ Special c ∧ answers (call + 1) ≠ 0

/-- One of the calls for the last octet of the packet fails. -/
def LastFails (packet : List Octet) : Prop :=
  ∃ rest c, packet = rest ++ [c] ∧ OctetFails answers (callBehind answers rest 1) c

variable {answers}

/-! ## One octet -/

theorem special_frameEsc : Special frameEsc := Or.inl rfl

theorem special_frameEnd : Special frameEnd := Or.inr rfl

theorem frameEnd_ne_frameEsc : frameEnd ≠ frameEsc := by decide

theorem length_escaped (c : Octet) : (escaped c).length = if Special c then 2 else 1 := by
  rw [escaped]
  by_cases esc : c = frameEsc
  · simp [esc, special_frameEsc]
  · by_cases stop : c = frameEnd
    · simp [stop, special_frameEnd, frameEnd_ne_frameEsc]
    · simp [esc, stop]

theorem txOctet_record (c : Octet) (sent : List (Octet × Int)) :
    ((txOctet (record answers) c sent).1 = 0 ↔ ¬ OctetFails answers sent.length c) ∧
      (txOctet (record answers) c sent).2.length =
        sent.length + octetCalls answers sent.length c ∧
      (¬ OctetFails answers sent.length c →
        (txOctet (record answers) c sent).2 = sent ++ (escaped c).map (·, 0)) := by
  rw [txOctet, escaped, OctetFails, octetCalls]
  by_cases esc : c = frameEsc
  · by_cases first : answers sent.length = 0 <;>
      simp +contextual [record, esc, first, special_frameEsc]
  · by_cases stop : c = frameEnd
    · by_cases first : answers sent.length = 0 <;>
        simp +contextual [record, stop, first, special_frameEnd, frameEnd_ne_frameEsc]
    · simp +contextual [record, esc, stop]

/-! ## The loop -/

theorem txLoop_concat (packet : List Octet) (c : Octet) (sent : Int × List (Octet × Int)) :
    txLoop (record answers) (packet ++ [c]) sent =
      txOctet (record answers) c (txLoop (record answers) packet sent).2 := by
  induction packet generalizing sent with
  | nil => rfl
  | cons first rest ih => exact ih _

theorem length_txLoop (packet : List Octet) (sent : Int × List (Octet × Int)) :
    (txLoop (record answers) packet sent).2.length =
      callBehind answers packet sent.2.length := by
  induction packet generalizing sent with
  | nil => rfl
  | cons c rest ih => rw [txLoop, ih, callBehind, (txOctet_record c sent.2).2.1]

theorem callBehind_le (packet : List Octet) (call : Nat) :
    callBehind answers packet call ≤ call + (packet.flatMap escaped).length := by
  induction packet generalizing call with
  | nil => exact Nat.le_refl _
  | cons c rest ih =>
    have once : octetCalls answers call c ≤ (escaped c).length := by
      rw [octetCalls, length_escaped]
      by_cases special : Special c
      · split <;> decide
      · rw [if_neg special, if_neg fun both => special both.1]
    have later := ih (call + octetCalls answers call c)
    rw [callBehind, List.flatMap_cons, List.length_append]
    omega

theorem txLoop_of_accepted (packet : List Octet) (sent : List (Octet × Int))
    (accepts : ∀ call, call < sent.length + (packet.flatMap escaped).length → answers call = 0) :
    txLoop (record answers) packet (0, sent) =
      (0, sent ++ (packet.flatMap escaped).map (·, 0)) := by
  induction packet generalizing sent with
  | nil => rw [txLoop, List.flatMap_nil, List.map_nil, List.append_nil]
  | cons c rest ih =>
    obtain ⟨status, -, octets⟩ := @txOctet_record answers c sent
    rw [List.flatMap_cons, List.length_append, length_escaped] at accepts
    have fine : ¬ OctetFails answers sent.length c := by
      rintro (fails | ⟨special, fails⟩)
      · exact fails (accepts _ (by split <;> omega))
      · rw [if_pos special] at accepts
        exact fails (accepts _ (by omega))
    have turn : txOctet (record answers) c sent = (0, sent ++ (escaped c).map (·, 0)) :=
      Prod.ext (status.mpr fine) (octets fine)
    rw [txLoop, turn, ih, List.flatMap_cons, List.map_append, List.append_assoc]
    intro call below
    rw [List.length_append, List.length_map, length_escaped] at below
    exact accepts call (by omega)

theorem length_encoded (packet : List Octet) :
    (encoded packet).length = (packet.flatMap escaped).length + 2 := by
  rw [encoded_eq, List.length_cons, List.length_append, List.length_singleton]

theorem tx_of_accepted (packet : List Octet)
    (accepts : ∀ call, call < (encoded packet).length → answers call = 0) :
    tx (record answers) packet [] = (0, (encoded packet).map (·, 0)) := by
  rw [length_encoded] at accepts
  have start : record answers frameEnd [] = (0, [(frameEnd, 0)]) := by
    rw [record, List.length_nil, accepts 0 (Nat.succ_pos _)]
    rfl
  have loop := txLoop_of_accepted packet [(frameEnd, 0)] fun call below =>
    accepts call (by rw [List.length_singleton] at below; omega)
  rw [tx, start, loop, encoded_eq, record, List.length_append, List.length_map,
    accepts _ (by rw [List.length_singleton]; omega)]
  simp

theorem tx_eq_zero_iff (packet : List Octet) :
    (tx (record answers) packet []).1 = 0 ↔ ¬ LastFails answers packet := by
  rcases List.eq_nil_or_concat' packet with rfl | ⟨rest, c, rfl⟩
  · refine iff_of_true rfl ?_
    rintro ⟨rest, c, same, -⟩
    exact absurd same (by simp)
  · have result := (@txOctet_record answers c
      (txLoop (record answers) rest (0, (record answers frameEnd []).2)).2).1
    rw [length_txLoop] at result
    rw [tx, txLoop_concat]
    refine result.trans (not_congr ⟨fun fails => ⟨rest, c, rfl, fails⟩, ?_⟩)
    rintro ⟨other, last, same, fails⟩
    obtain ⟨rfl, ends⟩ := List.append_inj' same rfl
    obtain rfl := List.singleton_inj.mp ends
    exact fails

/-! ## What is accepted -/

/-- Each call has the status that it was answered with. -/
def Answered (answers : Nat → Int) (sent : List (Octet × Int)) : Prop :=
  ∀ call, ∀ given ∈ sent[call]?, given.2 = answers call

theorem Answered.record (answered : Answered answers sent) (c : Octet) :
    Answered answers (record answers c sent).2 := by
  intro call given found
  rw [Slip.record, List.getElem?_append] at found
  split at found
  · exact answered call given found
  · next behind =>
      obtain ⟨here, rfl⟩ := List.getElem?_eq_some_iff.mp found
      rw [List.length_singleton] at here
      have same : call = sent.length := by omega
      subst same
      simp

theorem Answered.txOctet (answered : Answered answers sent) (c : Octet) :
    Answered answers (txOctet (Slip.record answers) c sent).2 := by
  have both (second : Octet) :
      Answered answers
        (if (Slip.record answers frameEsc sent).1 ≠ 0 then Slip.record answers frameEsc sent
          else Slip.record answers second (Slip.record answers frameEsc sent).2).2 := by
    split
    · exact answered.record _
    · exact (answered.record _).record _
  rw [Slip.txOctet]
  split
  · exact both _
  · split
    · exact both _
    · exact answered.record _

theorem Answered.txLoop (answered : Answered answers sent.2) (packet : List Octet) :
    Answered answers (txLoop (Slip.record answers) packet sent).2 := by
  induction packet generalizing sent with
  | nil => exact answered
  | cons c rest ih => exact ih (answered.txOctet c)

theorem accepted_tx_iff (packet : List Octet) :
    accepted (tx (record answers) packet []).2 = encoded packet ↔
      ∀ call, call < (encoded packet).length → answers call = 0 := by
  constructor
  · intro whole
    have start : Answered answers [] := fun call given found => by
      cases found
    have answered : Answered answers (tx (record answers) packet []).2 :=
      (@Answered.txLoop answers (0, _) (start.record frameEnd) packet).record frameEnd
    have few : (tx (record answers) packet []).2.length ≤ (encoded packet).length := by
      have loop := @length_txLoop answers packet (0, (record answers frameEnd []).2)
      have calls := @callBehind_le answers packet (record answers frameEnd []).2.length
      have first : (record answers frameEnd []).2.length = 1 := rfl
      have stop (sent : List (Octet × Int)) :
          (record answers frameEnd sent).2.length = sent.length + 1 := List.length_append
      dsimp only at loop
      rw [tx, stop, length_encoded]
      omega
    generalize (tx (record answers) packet []).2 = sent at *
    have all : ∀ given ∈ sent, given.2 = 0 := by
      intro given among
      by_contra fails
      have fewer : (accepted sent).length < sent.length :=
        List.length_filterMap_lt_length_iff_exists.mpr ⟨given, among, if_neg fails⟩
      rw [whole] at fewer
      omega
    intro call below
    have short : (accepted sent).length ≤ sent.length := List.length_filterMap_le _ _
    rw [whole] at short
    have inside : call < sent.length := by omega
    rw [← answered call _ (List.getElem?_eq_getElem inside)]
    exact all _ (List.getElem_mem inside)
  · intro accepts
    rw [tx_of_accepted packet accepts]
    simp [accepted, List.filterMap_map]

/-- The whole frame is reported if and only if no call fails or one for the last octet does. -/
theorem reportsSend_iff (packet : List Octet) :
    ReportsSend answers packet ↔
      (∀ call, call < (encoded packet).length → answers call = 0) ∨ LastFails answers packet := by
  rw [ReportsSend, accepted_tx_iff, tx_eq_zero_iff]
  by_cases accepts : ∀ call, call < (encoded packet).length → answers call = 0
  · refine iff_of_true (iff_of_true ?_ accepts) (Or.inl accepts)
    rw [← tx_eq_zero_iff, tx_of_accepted packet accepts]
  · rw [iff_false_right accepts, not_not, or_iff_right accepts]

/-- A packet of two octets, of which the first is not accepted, is reported as sent. -/
theorem not_reportsSend_first :
    ¬ ReportsSend (fun call => if call = 1 then -1 else 0) [0x01, 0x02] := by
  rw [ReportsSend]
  decide

end Slip
end Morse
