import Morse.Skbq.Aging
import Morse.Skbq.Lists
import Morse.Skbq.Runs
import Morse.Yaps.Receiving

/-!
# What becomes of dequeued frames

The frames that the transmit routine takes off a queue are settled by the number
of packets sent: a first part is completed, and the others go back to the front
of the queue, except for those that no longer fit.  Only a failed status update
leaves them nowhere.  Whatever happens, frames are sent in the order in which they
were queued.
-/

namespace Morse
namespace Yaps

open Lib

theorem txDequeue_fst (driver : Driver) (jiffies : BitVec 64) (queue : TxQueue) (mq : Skbq) :
    (txDequeue driver jiffies queue mq).1 =
      (txPurge driver jiffies queue mq).skbq.skbs.take maxPktsPerTxTxn :=
  Skbq.deqWalk_fst maxPktsPerTxTxn _ [] 0 _

/-! ## Settlement -/

/-- How the frames taken off a queue are divided. -/
structure Division where
  sent : List SkBuff
  purged : List SkBuff
  requeued : List SkBuff

/-- The division accounts for the frames in order: those sent wait for their
status or are freed, the purged ones are freed, and the others are at the front
of the queue again. -/
structure Division.Settles (division : Division) (driver : Driver) (jiffies : BitVec 64)
    (skbs : List SkBuff) (before after : Skbq) : Prop where
  whole : skbs = division.sent ++ (division.purged ++ division.requeued)
  skbq : after.skbq.skbs = division.requeued ++ before.skbq.skbs
  pending : after.pending.skbs = before.pending.skbs ++
    (division.sent.filter (Skbq.awaitsStatus driver)).map (Skbq.stamped driver jiffies)
  freed : after.freed = before.freed ++ division.purged ++
    division.sent.filter (fun skb => !Skbq.awaitsStatus driver skb)
  reported : after.reported = before.reported

theorem txSettle_settles
    (driver : Driver) (jiffies : BitVec 64) (skbs : List SkBuff) (numPktsSent : Nat) (mq : Skbq) :
    ∃ division : Division, division.sent = skbs.take numPktsSent ∧
      division.Settles driver jiffies skbs mq (txSettle driver jiffies skbs numPktsSent mq) := by
  obtain ⟨requeued, whole, queued, others⟩ := Skbq.enqPrepend_lists mq (skbs.drop numPktsSent)
  have returned : ∃ middle : Skbq,
      txSettle driver jiffies skbs numPktsSent mq =
        middle.txComplete driver jiffies (skbs.take numPktsSent) ∧
      middle.skbq.skbs = requeued ++ mq.skbq.skbs ∧ middle.pending = mq.pending ∧
      middle.freed = mq.freed ++ (mq.enqPrepend (skbs.drop numPktsSent)).1 ∧
      middle.reported = mq.reported := by
    have completed (middle : Skbq) :
        (if skbs.take numPktsSent = [] then middle
          else middle.txComplete driver jiffies (skbs.take numPktsSent)) =
          middle.txComplete driver jiffies (skbs.take numPktsSent) := by
      split
      · next none => rw [none, Skbq.txComplete, List.foldl_nil]
      · rfl
    unfold txSettle
    rw [completed]
    refine ⟨_, rfl, ?_⟩
    split
    · next none =>
        rw [none, List.nil_eq, List.append_eq_nil_iff] at whole
        rw [none, whole.2]
        exact ⟨rfl, rfl, (List.append_nil _).symm, rfl⟩
    · refine ⟨queued, others.pending, ?_, others.reported⟩
      simp only [others.freed]
  obtain ⟨middle, settled, skbqEq, pendingEq, freedEq, reportedEq⟩ := returned
  obtain ⟨skbq, pending, freed, reported⟩ :=
    Skbq.txComplete_lists driver jiffies middle (skbs.take numPktsSent)
  refine ⟨⟨skbs.take numPktsSent, (mq.enqPrepend (skbs.drop numPktsSent)).1, requeued⟩, rfl,
    ?_, ?_, ?_, ?_, ?_⟩
  · rw [← whole, List.take_append_drop]
  · rw [settled, skbq, skbqEq]
  · rw [settled, pending, pendingEq]
  · rw [settled, freed, freedEq]
  · rw [settled, reported, reportedEq]

/-- The queue when the transmit routine updates the status. -/
def txBefore (driver : Driver) (jiffies : BitVec 64) (queue : TxQueue)
    (meanwhile : Skbq → Skbq) (mq : Skbq) : List SkBuff × Skbq :=
  match mq.skbq.skbs with
  | [] => ([], mq)
  | _ :: _ =>
    ((txDequeue driver jiffies queue mq).1, meanwhile (txDequeue driver jiffies queue mq).2)

/-- Every frame that was dequeued, from the front of the queue and in order, is
accounted for once; and what the chip has taken are packets of frames that
were sent, each of them once. -/
def TxConserves (crc7BeByte : BitVec 8 → Octet → BitVec 8) (driver : Driver)
    (jiffies : BitVec 64) (env : TxEnv) (skbs : List SkBuff) (before : Skbq)
    (windows : List (List Octet)) (after : Skbq) : Prop :=
  ∃ division : Division, division.Settles driver jiffies skbs before after ∧
    ∃ groups, EncodesEach crc7BeByte env.aux groups windows ∧
      groups.flatten <+: env.pkts division.sent

theorem encodesEach_congr (each : EncodesEach crc7BeByte aux groups windows)
    (same : other.reservedYapsPageSize = aux.reservedYapsPageSize) :
    EncodesEach crc7BeByte other groups windows := by
  refine List.Forall₂.imp (fun pkts octets encodes => ?_) each
  induction encodes with
  | nil => exact .nil
  | snoc _ frame ih => exact ih.snoc (frame.congr same)

theorem eq_nil_of_settles_self {division : Division}
    (settles : division.Settles driver jiffies skbs mq mq) :
    skbs = [] := by
  have requeued : division.requeued = [] := List.self_eq_append_left.mp settles.skbq
  have pending := List.self_eq_append_right.mp settles.pending
  have freed := settles.freed
  rw [List.append_assoc, List.self_eq_append_right, List.append_eq_nil_iff] at freed
  have sent : division.sent = [] := by
    rw [List.map_eq_nil_iff, List.filter_eq_nil_iff] at pending
    rw [List.filter_eq_nil_iff] at freed
    refine List.eq_nil_iff_forall_not_mem.mpr fun skb member => ?_
    have completed := freed.2 skb member
    have awaits := pending skb member
    simp only [Bool.not_eq_true', Bool.not_eq_false] at completed
    exact awaits completed
  rw [settles.whole, sent, freed.1, requeued, List.append_nil, List.append_nil]

theorem txWrite_conserves_iff (crc7BeByte : BitVec 8 → Octet → BitVec 8)
    (driver : Driver) (jiffies : BitVec 64) (env : TxEnv) (skbs : List SkBuff) (mq : Skbq) :
    TxConserves crc7BeByte driver jiffies env skbs mq
        (txWrite crc7BeByte driver jiffies env skbs mq).2.1
        (txWrite crc7BeByte driver jiffies env skbs mq).2.2 ↔
      (morseYapsHwUpdateStatus env.aux env.statusLocked env.polls).1 = none ∨ skbs = [] := by
  unfold txWrite
  rcases status : morseYapsHwUpdateStatus env.aux env.statusLocked env.polls with ⟨failed, aux⟩
  cases failed with
  | some error =>
    simp only [reduceCtorEq, false_or]
    constructor
    · rintro ⟨division, settles, -⟩
      exact eq_nil_of_settles_self settles
    · rintro rfl
      exact ⟨⟨[], [], []⟩, ⟨rfl, rfl, by simp, by simp, rfl⟩, [], .nil, List.nil_prefix⟩
  | none =>
    simp only [true_or, iff_true]
    obtain ⟨regs, -, rfl⟩ := updateStatus_eq_none status
    obtain ⟨groups, rest, windows, -, total, sent_le, -, -⟩ :=
      writePkts_wrote crc7BeByte { env.aux with statusRegs := regs } env.toChipBuffer
        env.writeLocked env.writes env.slot (env.pkts skbs)
    obtain ⟨division, sent, settles⟩ := txSettle_settles driver jiffies skbs _ mq
    refine ⟨division, settles, groups, encodesEach_congr windows rfl, ?_⟩
    rw [sent, TxEnv.pkts, List.map_take, List.prefix_take_iff]
    exact ⟨⟨rest, total⟩, sent_le⟩

/-- `morse_yaps_tx` accounts for every frame exactly when the status update
succeeds or nothing was dequeued. -/
theorem txConserves_iff (crc7BeByte : BitVec 8 → Octet → BitVec 8)
    (driver : Driver) (jiffies : BitVec 64) (env : TxEnv) (queue : TxQueue)
    (meanwhile : Skbq → Skbq) (mq : Skbq) :
    let before := txBefore driver jiffies queue meanwhile mq
    let result := morseYapsTx crc7BeByte driver jiffies env queue meanwhile mq
    (before.1 = [] ∨ before.1 = (txPurge driver jiffies queue mq).skbq.skbs.take maxPktsPerTxTxn) ∧
      (TxConserves crc7BeByte driver jiffies env before.1 before.2 result.2.1 result.2.2 ↔
        (morseYapsHwUpdateStatus env.aux env.statusLocked env.polls).1 = none ∨
          before.1 = []) := by
  intro before result
  cases waiting : mq.skbq.skbs with
  | nil =>
    have nothing : before = ([], mq) := by simp only [before, txBefore, waiting]
    have returned : result = (none, [], mq) := by simp only [result, morseYapsTx, waiting]
    rw [nothing, returned]
    refine ⟨.inl rfl, iff_of_true ?_ (.inr rfl)⟩
    exact ⟨⟨[], [], []⟩, ⟨rfl, rfl, by simp, by simp, rfl⟩, [], .nil, List.nil_prefix⟩
  | cons first rest =>
    have dequeued : before = ((txDequeue driver jiffies queue mq).1,
        meanwhile (txDequeue driver jiffies queue mq).2) := by
      simp only [before, txBefore, waiting]
    have returned : result = txWrite crc7BeByte driver jiffies env
        (txDequeue driver jiffies queue mq).1
          (meanwhile (txDequeue driver jiffies queue mq).2) := by
      simp only [result, morseYapsTx, waiting]
    rw [dequeued, returned]
    exact ⟨.inr (txDequeue_fst driver jiffies queue mq),
      txWrite_conserves_iff crc7BeByte driver jiffies env _ _⟩

/-- A chip that does not answer within the timeout. -/
def silentEnv : TxEnv where
  aux := idleAux 0
  toChipBuffer := fun _ => 0
  statusLocked := false
  polls := []
  writeLocked := false
  writes := []
  slot := emptyPkt
  payload := fun skb => ⟨List.replicate (min skb.len.toNat 128) 0, by
    rw [List.length_replicate]
    omega⟩

/-- A data queue with one frame. -/
def oneWaiting : Skbq :=
  ((Skbq.init (.toChip (.data .be))).tx (Skbq.System.plainSkb .data 1 100)).2

theorem not_txConserves_silentEnv :
    ¬ TxConserves crc7BeByteBitwise Skbq.System.defaultDriver 0 silentEnv
      (txBefore Skbq.System.defaultDriver 0 .other id oneWaiting).1
      (txBefore Skbq.System.defaultDriver 0 .other id oneWaiting).2
      (morseYapsTx crc7BeByteBitwise Skbq.System.defaultDriver 0 silentEnv .other id
        oneWaiting).2.1
      (morseYapsTx crc7BeByteBitwise Skbq.System.defaultDriver 0 silentEnv .other id
        oneWaiting).2.2 := by
  rintro ⟨division, settles, -⟩
  have nothing := eq_nil_of_settles_self settles
  revert nothing
  decide +kernel

/-! ## The order of frames -/

/-- A queue whose frames are sent, the frames that were queued, and those that were sent, both in
order. -/
structure Line where
  mq : Skbq
  queued : List SkBuff
  sent : List SkBuff

/-- What happens to the queue: a frame is queued, or `morse_yaps_tx` runs, with frames that are
queued while it writes packets. -/
inductive LineMove
  | tx (skb : SkBuff)
  | yapsTx (jiffies : BitVec 64) (env : TxEnv) (queue : TxQueue) (arrivals : List SkBuff)

/-- `morse_skbq_tx`, which queues the frame if there is room. -/
def Line.tx (line : Line) (skb : SkBuff) : Line :=
  { line with
    mq := (line.mq.tx skb).2
    queued := line.queued ++
      if (line.mq.tx skb).1 = none then [{ skb with pktId := line.mq.pktSeq }] else [] }

/-- The frames that a run of `morse_yaps_tx` counts as sent. -/
def sentBy (crc7BeByte : BitVec 8 → Octet → BitVec 8) (env : TxEnv) (skbs : List SkBuff) :
    List SkBuff :=
  match morseYapsHwUpdateStatus env.aux env.statusLocked env.polls with
  | (some _, _) => []
  | (none, aux) =>
    skbs.take (morseYapsHwWritePkts crc7BeByte aux env.toChipBuffer env.writeLocked env.writes
      env.slot (env.pkts skbs)).2.numPktsSent

/-- One move. -/
def Line.move (crc7BeByte : BitVec 8 → Octet → BitVec 8) (driver : Driver) (line : Line) :
    LineMove → Line
  | .tx skb => line.tx skb
  | .yapsTx jiffies env queue arrivals =>
    let later (mq : Skbq) := arrivals.foldl Line.tx { line with mq := mq }
    let before := txBefore driver jiffies queue (fun mq => (later mq).mq) line.mq
    { mq := (morseYapsTx crc7BeByte driver jiffies env queue (fun mq => (later mq).mq) line.mq).2.2
      queued := if line.mq.skbq.skbs = [] then line.queued
        else (later (txDequeue driver jiffies queue line.mq).2).queued
      sent := line.sent ++ sentBy crc7BeByte env before.1 }

/-- What was sent, and behind it what waits, are frames in the order in which they were queued. -/
def Line.InOrder (line : Line) : Prop := (line.sent ++ line.mq.skbq.skbs).Sublist line.queued

theorem tx_queued (line : Line) (skb : SkBuff) :
    ∃ arrived, (line.tx skb).mq.skbq.skbs = line.mq.skbq.skbs ++ arrived ∧
      (line.tx skb).queued = line.queued ++ arrived ∧ (line.tx skb).sent = line.sent := by
  refine ⟨_, ?_, rfl, rfl⟩
  unfold Line.tx Skbq.tx Skbq.skbqPut Skbq.put
  by_cases room : skb.len ≤ line.mq.space
  · simp only [if_pos room]
    rfl
  · simp only [if_neg room, reduceCtorEq, if_false, List.append_nil]

theorem foldl_tx_queued (arrivals : List SkBuff) (line : Line) :
    ∃ arrived, (arrivals.foldl Line.tx line).mq.skbq.skbs = line.mq.skbq.skbs ++ arrived ∧
      (arrivals.foldl Line.tx line).queued = line.queued ++ arrived ∧
        (arrivals.foldl Line.tx line).sent = line.sent := by
  induction arrivals generalizing line with
  | nil => exact ⟨[], (List.append_nil _).symm, (List.append_nil _).symm, rfl⟩
  | cons skb arrivals ih =>
    obtain ⟨first, waiting, queued, sent⟩ := tx_queued line skb
    obtain ⟨others, waiting', queued', sent'⟩ := ih (line.tx skb)
    refine ⟨first ++ others, ?_, ?_, sent'.trans sent⟩
    · rw [List.foldl_cons, waiting', waiting, List.append_assoc]
    · rw [List.foldl_cons, queued', queued, List.append_assoc]

theorem skbs_deqWalk (numItems : Nat) (count : Nat) (skbs : List SkBuff) {mq : Skbq}
    (onList : mq.skbq.skbs = walk) :
    (Skbq.deqWalk numItems walk count skbs mq).2.2.skbq.skbs = walk.drop (numItems - count) := by
  induction walk generalizing count skbs mq with
  | nil => rw [Skbq.deqWalk, onList, List.drop_nil]
  | cons pfirst rest ih =>
    simp only [Skbq.deqWalk]
    split
    · next full => rw [Nat.sub_eq_zero_of_le (Int.ofNat_le.mp full), List.drop_zero, onList]
    · next more =>
        have others := ih (count + 1) (skbs ++ [pfirst])
          (Skbq.list_unlink_of_head .skbq onList)
        rw [Int.natCast_add, Int.natCast_one] at others
        obtain ⟨left, exact⟩ : ∃ left, numItems - count = left + 1 :=
          ⟨numItems - count - 1, by omega⟩
        rw [others, exact, List.drop_succ_cons, show numItems - (count + 1) = left by omega]

theorem sublist_txPurge (driver : Driver) (jiffies : BitVec 64) (queue : TxQueue) (mq : Skbq) :
    (txPurge driver jiffies queue mq).skbq.skbs.Sublist mq.skbq.skbs := by
  cases queue with
  | cmdQ => exact .refl _
  | mgmtQ =>
    rw [txPurge]
    split
    · rw [Skbq.purgeAged, Skbq.skbs_purgeAgedWalk rfl]
      exact List.dropWhile_sublist _
    · exact .refl _
  | other => exact .refl _

theorem sublist_txDequeue (driver : Driver) (jiffies : BitVec 64) (queue : TxQueue) (mq : Skbq) :
    ((txDequeue driver jiffies queue mq).1 ++
      (txDequeue driver jiffies queue mq).2.skbq.skbs).Sublist mq.skbq.skbs := by
  have stays : (txDequeue driver jiffies queue mq).2.skbq.skbs =
      (txPurge driver jiffies queue mq).skbq.skbs.drop maxPktsPerTxTxn :=
    skbs_deqWalk maxPktsPerTxTxn 0 [] rfl
  rw [txDequeue_fst, stays, List.take_append_drop]
  exact sublist_txPurge driver jiffies queue mq

theorem sublist_txWrite (crc7BeByte : BitVec 8 → Octet → BitVec 8) (driver : Driver)
    (jiffies : BitVec 64) (env : TxEnv) (skbs : List SkBuff) (mq : Skbq) :
    (sentBy crc7BeByte env skbs ++
      (txWrite crc7BeByte driver jiffies env skbs mq).2.2.skbq.skbs).Sublist
        (skbs ++ mq.skbq.skbs) := by
  unfold txWrite sentBy
  rcases morseYapsHwUpdateStatus env.aux env.statusLocked env.polls with ⟨failed, aux⟩
  cases failed with
  | some error => exact List.sublist_append_right _ _
  | none =>
    dsimp only
    generalize (morseYapsHwWritePkts crc7BeByte aux env.toChipBuffer env.writeLocked env.writes
      env.slot (env.pkts skbs)).2.numPktsSent = numPktsSent
    obtain ⟨division, sent, settles⟩ := txSettle_settles driver jiffies skbs numPktsSent mq
    have whole : skbs ++ mq.skbq.skbs =
        division.sent ++ (division.purged ++ (division.requeued ++ mq.skbq.skbs)) := by
      simp only [settles.whole, List.append_assoc]
    rw [← sent, settles.skbq, whole]
    exact (List.sublist_append_right _ _).append_left _

theorem inOrder_move (crc7BeByte : BitVec 8 → Octet → BitVec 8) (driver : Driver)
    {line : Line} (inOrder : line.InOrder) (move : LineMove) :
    (line.move crc7BeByte driver move).InOrder := by
  rw [Line.InOrder] at inOrder
  cases move with
  | tx skb =>
    obtain ⟨arrived, waiting, queued, sent⟩ := tx_queued line skb
    rw [Line.move, Line.InOrder, waiting, queued, ← List.append_assoc]
    exact inOrder.append_right arrived
  | yapsTx jiffies env queue arrivals =>
    rw [Line.move, Line.InOrder]
    cases waiting : line.mq.skbq.skbs with
    | nil =>
      have nothing : sentBy crc7BeByte env [] = [] := by
        unfold sentBy
        split
        · rfl
        · exact List.take_nil
      simp only [txBefore, morseYapsTx, waiting, nothing, List.append_nil, if_true]
      rwa [waiting, List.append_nil] at inOrder
    | cons first rest =>
      obtain ⟨arrived, later, queued, -⟩ := foldl_tx_queued arrivals
        { line with mq := (txDequeue driver jiffies queue line.mq).2 }
      simp only [txBefore, morseYapsTx, waiting, reduceCtorEq, if_false]
      rw [queued, List.append_assoc]
      have written := sublist_txWrite crc7BeByte driver jiffies env
        (txDequeue driver jiffies queue line.mq).1
        (arrivals.foldl Line.tx { line with mq := (txDequeue driver jiffies queue line.mq).2 }).mq
      rw [later, ← List.append_assoc] at written
      have taken := (sublist_txDequeue driver jiffies queue line.mq).append_right arrived
      have before := ((written.trans taken).append_left line.sent)
      rw [← List.append_assoc line.sent line.mq.skbq.skbs] at before
      exact before.trans (inOrder.append_right arrived)

/-- Whatever the chip does, frames are sent in the order in which they were queued, and none of
them twice. -/
theorem inOrder_run (crc7BeByte : BitVec 8 → Octet → BitVec 8) (driver : Driver) (kind : QueueKind)
    (moves : List LineMove) :
    (moves.foldl (Line.move crc7BeByte driver) ⟨.init kind, [], []⟩).InOrder := by
  have kept : ∀ line : Line, line.InOrder →
      (moves.foldl (Line.move crc7BeByte driver) line).InOrder := by
    induction moves with
    | nil => exact fun _ inOrder => inOrder
    | cons move moves ih =>
      exact fun line inOrder => ih _ (inOrder_move crc7BeByte driver inOrder move)
  exact kept _ (List.Sublist.refl [])

end Yaps
end Morse
