import Mathlib.Algebra.GroupWithZero.Nat
import Morse.Yaps.RoundTrip

/-!
# The writer's account

A call of the writer sends the batches that fill the window from its loop and
what is left of the last batch from its clean-up.  The clean-up counts its
batch without looking at the outcome, and its outcome replaces that of the loop.
So the count and the returned value are right exactly where the clean-up has
nothing to send, or sends with success the end of the whole list.
-/

namespace Morse
namespace Yaps

open Lib

variable {crc7BeByte : BitVec 8 → Octet → BitVec 8}

/-- The account of a call is exact: the packets counted as sent are those whose
octets the chip has taken, and a call that leaves out a packet returns an
error. -/
def Accounted (crc7BeByte : BitVec 8 → Octet → BitVec 8) (aux : AuxData) (pkts : List Pkt)
    (result : Option Errno × Writer) : Prop :=
  ∃ groups rest, EncodesEach crc7BeByte aux groups result.2.written ∧
    groups.flatten ++ rest = pkts ∧
    result.2.numPktsSent = groups.flatten.length ∧
    (rest ≠ [] → result.1 ≠ none)

/-- The outcome of a write by its number. -/
def outcomeAt (outcomes : List (Option Errno)) (index : Nat) : Option Errno :=
  outcomes[index]?.join

/-- How many packets pass their checks before the first that does not. -/
def acceptedLen : AuxData → List Pkt → Nat
  | _, [] => 0
  | aux, pkt :: rest =>
    match morseYapsHwWritePktErrCheck aux pkt with
    | (some _, _) => 0
    | (none, charged) => acceptedLen charged rest + 1

/-- How often the window fills up when these packets join a batch of that many
octets. -/
def fullWindows : Nat → List Pkt → Nat
  | _, [] => 0
  | batched, pkt :: rest =>
    if yapsHwWindowSizeBytes < batched + pkt.txLen then fullWindows pkt.txLen rest + 1
    else fullWindows (batched + pkt.txLen) rest

/-- Where the account is exact: nothing was sent, or the loop met an error of
the bus, or the clean-up sends the end of the whole list with success. -/
def AccountsFor (aux : AuxData) (locked : Bool) (outcomes : List (Option Errno))
    (pkts : List Pkt) : Prop :=
  let accepted := acceptedLen aux pkts
  let windows := fullWindows 0 (pkts.take accepted)
  locked = true ∨ accepted = 0 ∨ (∃ index < windows, outcomeAt outcomes index ≠ none) ∨
    (accepted = pkts.length ∧ outcomeAt outcomes windows = none)

theorem acceptedLen_le (aux : AuxData) (pkts : List Pkt) : acceptedLen aux pkts ≤ pkts.length := by
  induction pkts generalizing aux with
  | nil => exact Nat.le_refl 0
  | cons pkt rest ih =>
    unfold acceptedLen
    split
    · exact Nat.zero_le _
    · next charged _ => exact Nat.succ_le_succ (ih charged)

theorem acceptedLen_cons_of_refused
    (refused : morseYapsHwWritePktErrCheck aux pkt = (some error, charged)) :
    acceptedLen aux (pkt :: rest) = 0 := by
  simp only [acceptedLen, refused]

theorem acceptedLen_cons_of_accepted
    (accepted : morseYapsHwWritePktErrCheck aux pkt = (none, charged)) :
    acceptedLen aux (pkt :: rest) = acceptedLen charged rest + 1 := by
  simp only [acceptedLen, accepted]

/-! ## The octets of the packets sent -/

theorem txLen_pos (pkt : Pkt) : 0 < pkt.txLen := by
  unfold Pkt.txLen sizeofDelim
  omega

theorem IsFrame.length_eq (frame : IsFrame crc7BeByte aux pkt octets) :
    octets.length = pkt.txLen := by
  obtain ⟨irq, padding, length, rfl⟩ := frame
  simp only [List.length_append, length, cpuToLe32, List.length_cons, List.length_nil, Pkt.txLen,
    Pkt.paddedLen, sizeofDelim]
  omega

theorem Encodes.length_eq_sum (encodes : Encodes crc7BeByte aux pkts octets) :
    octets.length = (pkts.map Pkt.txLen).sum := by
  induction encodes with
  | nil => rfl
  | snoc _ frame ih =>
    rw [List.length_append, ih, frame.length_eq, List.map_append, List.sum_append]
    rfl

theorem sum_txLen_eq_zero (nothing : (pkts.map Pkt.txLen).sum = 0) :
    pkts = [] := by
  cases pkts with
  | nil => rfl
  | cons pkt rest =>
    have positive := txLen_pos pkt
    rw [List.map_cons, List.sum_cons] at nothing
    omega

theorem EncodesEach.flatten_unique (each : EncodesEach crc7BeByte aux groups windows)
    (other : EncodesEach crc7BeByte aux others windows)
    (same : groups.flatten ++ rest = others.flatten ++ left) :
    groups.flatten = others.flatten := by
  have sums : (groups.flatten.map Pkt.txLen).sum = (others.flatten.map Pkt.txLen).sum := by
    rw [← each.flatten.length_eq_sum, ← other.flatten.length_eq_sum]
  rcases List.append_eq_append_iff.mp same with ⟨between, longer, -⟩ | ⟨between, longer, -⟩
  · rw [longer, List.map_append, List.sum_append] at sums
    rw [longer, @sum_txLen_eq_zero between (by omega), List.append_nil]
  · rw [longer, List.map_append, List.sum_append] at sums
    rw [longer, @sum_txLen_eq_zero between (by omega), List.append_nil]

/-! ## A write -/

section Write

variable {aux : AuxData} {writer : Writer} {groups : List (List Pkt)} {pending : List Pkt}
  {pkt : Pkt}

theorem outcomeAt_zero (outcomes : List (Option Errno)) :
    outcomeAt outcomes 0 = outcomes.head?.join := by
  rw [outcomeAt, List.head?_eq_getElem?]

theorem outcomeAt_tail (outcomes : List (Option Errno)) (index : Nat) :
    outcomeAt outcomes.tail index = outcomeAt outcomes (index + 1) := by
  rw [outcomeAt, outcomeAt, List.getElem?_tail]

theorem dmWrite_outcome (writer : Writer) :
    writer.dmWrite.1 = outcomeAt writer.outcomes 0 ∧
      writer.dmWrite.2.outcomes = writer.outcomes.tail := by
  rw [outcomeAt_zero]
  unfold Writer.dmWrite
  split
  · next failed => exact ⟨failed.symm, rfl⟩
  · next succeeds => exact ⟨succeeds.symm, rfl⟩

theorem makeRoom_stays (room : writer.batchTxnLen + pkt.txLen ≤ yapsHwWindowSizeBytes) :
    writer.makeRoom pkt = (none, writer) := by
  unfold Writer.makeRoom
  rw [if_neg (Nat.not_lt.mpr room)]

theorem makeRoom_fails (sent : Sent crc7BeByte aux writer groups)
    (full : yapsHwWindowSizeBytes < writer.batchTxnLen + pkt.txLen)
    (failed : outcomeAt writer.outcomes 0 ≠ none) :
    (writer.makeRoom pkt).1 ≠ none ∧ (writer.makeRoom pkt).2.batchTxnLen = 0 ∧
      Sent crc7BeByte aux (writer.makeRoom pkt).2 groups := by
  obtain ⟨auxKept, -, -, -, sentKept, lost, -⟩ := dmWrite_frame writer
  have answered := (dmWrite_outcome writer).1
  unfold Writer.makeRoom
  rw [if_pos full]
  rcases written : writer.dmWrite with ⟨outcome, flushed⟩
  rw [written] at auxKept sentKept lost answered
  cases outcome with
  | none => exact absurd answered.symm failed
  | some error =>
    refine ⟨by simp, rfl, ?_⟩
    exact sent.congr (by rw [auxKept]) (lost (by simp)) sentKept

theorem makeRoom_flushes (sent : Sent crc7BeByte aux writer groups)
    (batch : Batch crc7BeByte aux writer pending)
    (full : yapsHwWindowSizeBytes < writer.batchTxnLen + pkt.txLen)
    (taken : outcomeAt writer.outcomes 0 = none) :
    ∃ ready, writer.makeRoom pkt = (none, ready) ∧ ready.batchTxnLen = 0 ∧
      Sent crc7BeByte aux ready (groups ++ [pending]) ∧ Batch crc7BeByte aux ready [] ∧
      ready.aux = writer.aux ∧ ready.outcomes = writer.outcomes.tail := by
  obtain ⟨auxKept, -, -, pendingKept, sentKept, -, -⟩ := dmWrite_frame writer
  obtain ⟨answered, consumed⟩ := dmWrite_outcome writer
  rw [taken] at answered
  obtain ⟨windows, windows_le⟩ := sent.dmWrite batch answered
  unfold Writer.makeRoom
  rw [if_pos full]
  rcases written : writer.dmWrite with ⟨outcome, flushed⟩
  rw [written] at auxKept pendingKept sentKept answered consumed windows windows_le
  cases outcome with
  | some error => cases answered
  | none =>
    refine ⟨_, rfl, rfl, ⟨?_, windows, windows_le, ?_⟩, ⟨.nil, Nat.zero_le _, rfl⟩, auxKept,
      consumed⟩
    · rw [← sent.reserved, ← auxKept]
    · rw [sentKept, pendingKept, sent.count, batch.count, List.flatten_append,
        List.length_append, List.flatten_singleton]

theorem makeRoom_room (sent : Sent crc7BeByte aux writer groups)
    (batch : Batch crc7BeByte aux writer pending) (short : pkt.txLen ≤ yapsHwWindowSizeBytes)
    (flows : yapsHwWindowSizeBytes < writer.batchTxnLen + pkt.txLen →
      outcomeAt writer.outcomes 0 = none) :
    ∃ ready later waiting flushes, writer.makeRoom pkt = (none, ready) ∧
      Sent crc7BeByte aux ready later ∧ Batch crc7BeByte aux ready waiting ∧
      later.flatten ++ waiting = groups.flatten ++ pending ∧ ready.aux = writer.aux ∧
      ready.batchTxnLen + pkt.txLen ≤ yapsHwWindowSizeBytes ∧
      (∀ rest, fullWindows writer.batchTxnLen (pkt :: rest) =
        fullWindows (ready.batchTxnLen + pkt.txLen) rest + flushes) ∧
      (∀ index, outcomeAt ready.outcomes index = outcomeAt writer.outcomes (index + flushes)) ∧
      (∀ index < flushes, outcomeAt writer.outcomes index = none) := by
  rcases Nat.lt_or_ge yapsHwWindowSizeBytes (writer.batchTxnLen + pkt.txLen) with full | room
  · obtain ⟨ready, made, emptied, laterSent, laterBatch, auxKept, consumed⟩ :=
      makeRoom_flushes sent batch full (flows full)
    refine ⟨ready, groups ++ [pending], [], 1, made, laterSent, laterBatch, ?_, auxKept, ?_, ?_,
      ?_, ?_⟩
    · rw [List.append_nil, List.flatten_append, List.flatten_singleton]
    · rw [emptied, Nat.zero_add]
      exact short
    · intro rest
      rw [fullWindows, if_pos full, emptied, Nat.zero_add]
    · intro index
      rw [consumed, outcomeAt_tail]
    · intro index below
      rw [Nat.lt_one_iff.mp below]
      exact flows full
  · refine ⟨writer, groups, pending, 0, makeRoom_stays room, sent, batch, rfl, rfl, room, ?_,
      fun _ => rfl, fun _ below => absurd below (Nat.not_lt_zero _)⟩
    intro rest
    rw [fullWindows, if_neg (Nat.not_lt.mpr room), Nat.add_zero]

end Write

/-! ## The loop -/

/-- Where the loop ends.  After a failed write the batch is given up and the
packets sent are counted; without one the accepted packets are counted or wait
in the batch, and the loop has used one outcome for each full window. -/
structure LoopSettled (crc7BeByte : BitVec 8 → Octet → BitVec 8) (aux : AuxData)
    (accepted : List Pkt) (windows : Nat) (whole : Prop) (outcomes : List (Option Errno))
    (result : Option Errno × Writer) : Prop where
  stopped :
    (∃ index < windows, outcomeAt outcomes index ≠ none) →
      result.1 ≠ none ∧ result.2.batchTxnLen = 0 ∧
        ∃ groups rest, Sent crc7BeByte aux result.2 groups ∧ groups.flatten ++ rest = accepted
  finished :
    (∀ index < windows, outcomeAt outcomes index = none) →
      (result.1 = none ↔ whole) ∧ outcomeAt result.2.outcomes 0 = outcomeAt outcomes windows ∧
        ∃ groups pending, Sent crc7BeByte aux result.2 groups ∧
          Batch crc7BeByte aux result.2 pending ∧ 0 < result.2.batchTxnLen ∧
          groups.flatten ++ pending = accepted ∧ pending ≠ []

theorem LoopSettled.after {whole : Prop}
    {outcomes later : List (Option Errno)} {result : Option Errno × Writer}
    (settled : LoopSettled crc7BeByte aux accepted windows whole later result)
    (shifted : ∀ index, outcomeAt later index = outcomeAt outcomes (index + flushes))
    (taken : ∀ index < flushes, outcomeAt outcomes index = none) :
    LoopSettled crc7BeByte aux accepted (windows + flushes) whole outcomes result where
  stopped := by
    rintro ⟨index, below, failed⟩
    have reached : flushes ≤ index := Nat.le_of_not_lt fun early => failed (taken index early)
    refine settled.stopped ⟨index - flushes, by omega, ?_⟩
    rw [shifted, Nat.sub_add_cancel reached]
    exact failed
  finished := by
    intro calm
    obtain ⟨ret, next, standing⟩ := settled.finished fun index below => by
      rw [shifted]
      exact calm _ (Nat.add_lt_add_right below flushes)
    exact ⟨ret, next.trans (shifted windows), standing⟩

theorem writeLoop_eq_of_failed (failed : (writer.makeRoom pkt).1 ≠ none) :
    writeLoop crc7BeByte (pkt :: rest) writer = writer.makeRoom pkt := by
  rcases made : writer.makeRoom pkt with ⟨outcome, stopped⟩
  rw [made] at failed
  cases outcome with
  | none => exact absurd rfl failed
  | some error => cases rest <;> simp only [writeLoop, made]

theorem LoopSettled.left {ret : Option Errno} {pkt : Pkt} (sent : Sent crc7BeByte aux writer groups)
    (batch : Batch crc7BeByte aux writer pending)
    (room : writer.batchTxnLen + pkt.txLen ≤ yapsHwWindowSizeBytes)
    (total : groups.flatten ++ (pending ++ [pkt]) = accepted) (returned : ret = none ↔ whole) :
    LoopSettled crc7BeByte aux accepted 0 whole writer.outcomes
      (ret, writer.append crc7BeByte pkt) where
  stopped := by
    rintro ⟨_, below, _⟩
    exact absurd below (Nat.not_lt_zero _)
  finished := by
    intro _
    refine ⟨returned, rfl, groups, pending ++ [pkt], sent.append, batch.append sent room, ?_,
      total, List.append_ne_nil_of_right_ne_nil _ (List.cons_ne_nil _ _)⟩
    exact Nat.lt_of_lt_of_le (txLen_pos pkt) (Nat.le_add_left _ _)

theorem LoopSettled.failed (sent : Sent crc7BeByte aux writer groups)
    (full : yapsHwWindowSizeBytes < writer.batchTxnLen + pkt.txLen)
    (failed : outcomeAt writer.outcomes 0 ≠ none) (total : groups.flatten ++ waiting = accepted)
    (positive : 0 < windows) :
    LoopSettled crc7BeByte aux accepted windows whole writer.outcomes
      (writeLoop crc7BeByte (pkt :: rest) writer) := by
  obtain ⟨error, emptied, kept⟩ := makeRoom_fails sent full failed
  rw [writeLoop_eq_of_failed error]
  exact ⟨fun _ => ⟨error, emptied, groups, waiting, kept, total⟩,
    fun calm => absurd (calm 0 positive) failed⟩

theorem writeLoop_settled (sent : Sent crc7BeByte aux writer groups)
    (batch : Batch crc7BeByte aux writer pending) (short : pkt.txLen ≤ yapsHwWindowSizeBytes) :
    LoopSettled crc7BeByte aux
      (groups.flatten ++ pending ++ pkt :: rest.take (acceptedLen writer.aux rest))
      (fullWindows writer.batchTxnLen (pkt :: rest.take (acceptedLen writer.aux rest)))
      (acceptedLen writer.aux rest = rest.length) writer.outcomes
      (writeLoop crc7BeByte (pkt :: rest) writer) := by
  induction rest generalizing pkt writer groups pending with
  | nil =>
    by_cases flows : yapsHwWindowSizeBytes < writer.batchTxnLen + pkt.txLen →
        outcomeAt writer.outcomes 0 = none
    · obtain ⟨ready, later, waiting, flushes, made, laterSent, waits, same, -, fits, windows,
        shifted, taken⟩ := makeRoom_room sent batch short flows
      have flagged : Sent crc7BeByte aux { ready with delimIrq := true } later :=
        laterSent.congr rfl rfl rfl
      have joins : Batch crc7BeByte aux { ready with delimIrq := true } waiting :=
        ⟨waits.octets, waits.length_le, waits.count⟩
      have total : later.flatten ++ (waiting ++ [pkt]) =
          groups.flatten ++ pending ++ [pkt] := by
        rw [← List.append_assoc, same]
      have ended : writeLoop crc7BeByte [pkt] writer =
          (none, { ready with delimIrq := true }.append crc7BeByte pkt) := by
        simp only [writeLoop, made]
      rw [ended, windows]
      exact (LoopSettled.left flagged joins fits total (by simp [acceptedLen])).after
        shifted taken
    · obtain ⟨full, failed⟩ := Classical.not_imp.mp flows
      refine LoopSettled.failed sent full failed (List.append_assoc _ _ _).symm ?_
      rw [fullWindows, if_pos full]
      exact Nat.succ_pos _
  | cons next rest ih =>
    by_cases flows : yapsHwWindowSizeBytes < writer.batchTxnLen + pkt.txLen →
        outcomeAt writer.outcomes 0 = none
    · obtain ⟨ready, later, waiting, flushes, made, laterSent, waits, same, auxKept, fits,
        windows, shifted, taken⟩ := makeRoom_room sent batch short flows
      have kept := reserved_of_errCheck ready.aux next
      rcases check : morseYapsHwWritePktErrCheck ready.aux next with ⟨refused, charged⟩
      rw [check] at kept
      have charges (irq : Bool) :
          Sent crc7BeByte aux { ready with aux := charged, delimIrq := irq } later :=
        laterSent.congr kept rfl rfl
      have joins (irq : Bool) :
          Batch crc7BeByte aux { ready with aux := charged, delimIrq := irq } waiting :=
        ⟨waits.octets, waits.length_le, waits.count⟩
      have total : later.flatten ++ (waiting ++ [pkt]) =
          groups.flatten ++ pending ++ [pkt] := by
        rw [← List.append_assoc, same]
      rw [windows]
      cases refused with
      | some error =>
        have none_accepted : acceptedLen writer.aux (next :: rest) = 0 := by
          rw [← auxKept]
          exact acceptedLen_cons_of_refused check
        have ended : writeLoop crc7BeByte (pkt :: next :: rest) writer =
            (some error,
              { ready with aux := charged, delimIrq := true }.append crc7BeByte pkt) := by
          simp only [writeLoop, made, check]
        rw [ended, none_accepted]
        exact (LoopSettled.left (charges true) (joins true) fits total (by simp)).after
          shifted taken
      | none =>
        have one_more : acceptedLen writer.aux (next :: rest) =
            acceptedLen charged rest + 1 := by
          rw [← auxKept]
          exact acceptedLen_cons_of_accepted check
        have ended : writeLoop crc7BeByte (pkt :: next :: rest) writer =
            writeLoop crc7BeByte (next :: rest)
              ({ ready with aux := charged }.append crc7BeByte pkt) := by
          simp only [writeLoop, made, check]
        have small : next.txLen ≤ yapsHwWindowSizeBytes := by
          refine txLen_le (@errCheck_eq_none ready.aux next ?_)
          rw [check]
        have others := ih (charges ready.delimIrq).append
          ((joins ready.delimIrq).append (charges ready.delimIrq) fits) small
        rw [ended, one_more, List.take_succ_cons, List.length_cons]
        have settled := @LoopSettled.after _ _ _ _ _ _ writer.outcomes _ _ others shifted taken
        have regroup (tail : List Pkt) :
            groups.flatten ++ pending ++ pkt :: next :: tail =
              later.flatten ++ (waiting ++ [pkt]) ++ next :: tail := by
          rw [total]
          simp only [List.append_assoc, List.cons_append, List.nil_append]
        rw [regroup, Nat.add_right_cancel_iff]
        exact settled
    · obtain ⟨full, failed⟩ := Classical.not_imp.mp flows
      refine LoopSettled.failed sent full failed (List.append_assoc _ _ _).symm ?_
      rw [fullWindows, if_pos full]
      exact Nat.succ_pos _

/-! ## The call -/

variable {result : Option Errno × Writer}

theorem accounted_of_stopped (error : result.1 ≠ none) (emptied : result.2.batchTxnLen = 0)
    (sent : Sent crc7BeByte aux result.2 groups) (total : groups.flatten ++ rest = pkts) :
    Accounted crc7BeByte aux pkts (writeExit result) := by
  obtain ⟨ret, writer⟩ := result
  simp only at emptied
  simp only [writeExit, emptied, Nat.lt_irrefl, if_false]
  exact ⟨groups, rest, sent.windows, total, sent.count, fun _ => error⟩

theorem accounted_iff_of_finished (sent : Sent crc7BeByte aux result.2 groups)
    (batch : Batch crc7BeByte aux result.2 pending) (positive : 0 < result.2.batchTxnLen)
    (nonempty : pending ≠ []) (total : groups.flatten ++ pending ++ rest = pkts) :
    Accounted crc7BeByte aux pkts (writeExit result) ↔
      rest = [] ∧ outcomeAt result.2.outcomes 0 = none := by
  obtain ⟨ret, writer⟩ := result
  obtain ⟨-, -, -, pendingKept, sentKept, lost, -⟩ := dmWrite_frame writer
  have taken := sent.dmWrite batch
  have counted : writer.dmWrite.2.numPktsSent + writer.dmWrite.2.pktsPending =
      groups.flatten.length + pending.length := by
    rw [sentKept, pendingKept, sent.count, batch.count]
  rw [← (dmWrite_outcome writer).1]
  simp only [writeExit, positive, if_true]
  constructor
  · rintro ⟨others, unsent, windows, split, count, returned⟩
    simp only [counted] at windows count returned
    have accepted : writer.dmWrite.1 = none := by
      by_contra refused
      rw [lost refused] at windows
      have splits : groups.flatten ++ (pending ++ rest) = others.flatten ++ unsent := by
        rw [← List.append_assoc, total, split]
      have same := sent.windows.flatten_unique windows splits
      rw [← same] at count
      exact nonempty (List.length_eq_zero_iff.mp (by omega))
    refine ⟨?_, accepted⟩
    by_contra unreached
    have splits : (groups ++ [pending]).flatten ++ rest = others.flatten ++ unsent := by
      rw [List.flatten_append, List.flatten_singleton, total, split]
    have same := (taken accepted).1.flatten_unique windows splits
    rw [List.flatten_append, List.flatten_singleton] at same
    rw [← split, ← same] at total
    rw [List.append_cancel_left total] at unreached
    exact returned unreached accepted
  · rintro ⟨rfl, accepted⟩
    refine ⟨groups ++ [pending], [], (taken accepted).1, ?_, ?_, fun left => absurd rfl left⟩
    · rw [List.flatten_append, List.flatten_singleton, total]
    · rw [List.flatten_append, List.flatten_singleton, List.length_append]
      exact counted

theorem LoopSettled.accounted_iff
    (settled : LoopSettled crc7BeByte aux accepted windows whole outcomes result)
    (total : accepted ++ rest = pkts) (reached : rest = [] ↔ whole) :
    Accounted crc7BeByte aux pkts (writeExit result) ↔
      (∃ index < windows, outcomeAt outcomes index ≠ none) ∨
        (whole ∧ outcomeAt outcomes windows = none) := by
  by_cases fails : ∃ index < windows, outcomeAt outcomes index ≠ none
  · obtain ⟨error, emptied, groups, waiting, sent, split⟩ := settled.stopped fails
    have reaches : groups.flatten ++ (waiting ++ rest) = pkts := by
      rw [← List.append_assoc, split, total]
    exact iff_of_true (accounted_of_stopped error emptied sent reaches) (.inl fails)
  · have calm : ∀ index < windows, outcomeAt outcomes index = none := by
      intro index below
      by_contra failed
      exact fails ⟨index, below, failed⟩
    obtain ⟨-, next, groups, pending, sent, batch, positive, split, nonempty⟩ :=
      settled.finished calm
    have reaches : groups.flatten ++ pending ++ rest = pkts := by
      rw [split, total]
    rw [accounted_iff_of_finished sent batch positive nonempty reaches, next, reached]
    exact ⟨.inr, fun either => either.resolve_left fails⟩

theorem accounted_of_nothing (aux charged : AuxData) (pkts : List Pkt) (toChipBuffer : Nat → Octet)
    (outcomes : List (Option Errno)) (ret : Option Errno) (returned : pkts ≠ [] → ret ≠ none) :
    Accounted crc7BeByte aux pkts
      (ret, { Writer.start aux toChipBuffer outcomes with aux := charged }) :=
  ⟨[], pkts, .nil, rfl, rfl, returned⟩

/-- `morse_yaps_hw_write_pkts`, from any state of the chip and the buffer. -/
theorem writePkts_accounted_iff (crc7BeByte : BitVec 8 → Octet → BitVec 8)
    (aux : AuxData) (toChipBuffer : Nat → Octet) (locked : Bool)
    (outcomes : List (Option Errno)) (slot : Pkt) (pkts : List Pkt) :
    Accounted crc7BeByte aux pkts
        (morseYapsHwWritePkts crc7BeByte aux toChipBuffer locked outcomes slot pkts) ↔
      AccountsFor aux locked outcomes pkts := by
  unfold morseYapsHwWritePkts AccountsFor
  cases locked with
  | true =>
    refine iff_of_true ?_ (.inl rfl)
    exact accounted_of_nothing aux aux pkts toChipBuffer outcomes _ fun _ => by simp
  | false =>
    simp only [Bool.false_eq_true, false_or]
    have kept := reserved_of_errCheck aux (pkts.headD slot)
    rcases check : morseYapsHwWritePktErrCheck aux (pkts.headD slot) with ⟨refused, charged⟩
    rw [check] at kept
    cases refused with
    | some error =>
      refine iff_of_true ?_ (.inl ?_)
      · exact accounted_of_nothing aux charged pkts toChipBuffer outcomes _ fun _ => by simp
      · cases pkts with
        | nil => rfl
        | cons pkt rest => exact acceptedLen_cons_of_refused check
    | none =>
      cases pkts with
      | nil =>
        refine iff_of_true ?_ (.inl rfl)
        exact accounted_of_nothing aux charged [] toChipBuffer outcomes _ (absurd rfl)
      | cons pkt rest =>
        rw [List.headD_cons] at check
        have sent : Sent crc7BeByte aux
            { Writer.start aux toChipBuffer outcomes with aux := charged } [] :=
          ⟨kept, .nil, (fun _ member => by cases member), rfl⟩
        have batch : Batch crc7BeByte aux
            { Writer.start aux toChipBuffer outcomes with aux := charged } [] :=
          ⟨.nil, Nat.zero_le _, rfl⟩
        have short : pkt.txLen ≤ yapsHwWindowSizeBytes := by
          refine txLen_le (@errCheck_eq_none aux pkt ?_)
          rw [check]
        have bound := acceptedLen_le charged rest
        have total : pkt :: rest.take (acceptedLen charged rest) ++
            rest.drop (acceptedLen charged rest) = pkt :: rest := by
          rw [List.cons_append, List.take_append_drop]
        have reached : rest.drop (acceptedLen charged rest) = [] ↔
            acceptedLen charged rest = rest.length := by
          rw [List.drop_eq_nil_iff]
          exact ⟨Nat.le_antisymm bound, fun all => Nat.le_of_eq all.symm⟩
        have others := (writeLoop_settled sent batch short).accounted_iff total reached
        rw [acceptedLen_cons_of_accepted check, List.length_cons,
          Nat.add_right_cancel_iff]
        refine others.trans ⟨.inr, fun either => either.resolve_left ?_⟩
        exact Nat.succ_ne_zero _

/-- A packet that the bus refuses is counted; and a command queue with room for
one packet is reported as a success when there are two. -/
theorem not_accounted :
    ¬ Accounted crc7BeByteBitwise (idleAux 0) [oddPkt]
        (morseYapsHwWritePkts crc7BeByteBitwise (idleAux 0) (fun _ => 0) false [some .eio] oddPkt
          [oddPkt]) ∧
      ¬ Accounted crc7BeByteBitwise { idleAux 0 with tcCmdQSize := 1 } [oddPkt, oddPkt]
        (morseYapsHwWritePkts crc7BeByteBitwise { idleAux 0 with tcCmdQSize := 1 } (fun _ => 0)
          false [] oddPkt [oddPkt, oddPkt]) := by
  constructor
  · rintro ⟨groups, rest, windows, -, count, -⟩
    rw [List.forall₂_nil_right_iff.mp windows] at count
    cases count
  · rintro ⟨groups, rest, -, split, count, returned⟩
    have succeeds : (morseYapsHwWritePkts crc7BeByteBitwise { idleAux 0 with tcCmdQSize := 1 }
        (fun _ => 0) false [] oddPkt [oddPkt, oddPkt]).1 = none := by
      decide +kernel
    have unsent : rest ≠ [] := by
      rintro rfl
      rw [List.append_nil] at split
      rw [split] at count
      cases count
    exact returned unsent succeeds

end Yaps
end Morse
