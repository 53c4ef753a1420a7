import Morse.Lib.Keyed

/-!
# The SKB queues

Frames for the chip wait on the `skbq` list of a queue and, once they have been
written to the chip, on its `pending` list until their status is reported.
This module transcribes the operations on such a queue.

A frame is told apart by its address, as the pointers of an intrusive list do.
Where a frame leaves the queue for good, the model records it: on `freed` when
it is given back to the kernel, on `reported` when mac80211 takes it with its
transmit status.
-/

namespace Morse

open Lib

/-- The error numbers of the driver, returned negated; success is `none`. -/
inductive Errno
  | enomem
  | einval
  | enodev
  | eperm
  | eagain
  | eio
  | enospc
  | emsgsize
  | enoent
  | etimedout
  deriving DecidableEq, Repr

/-! ## Frames -/

/-- `enum morse_skb_channel`. -/
inductive Channel
  | data
  | ndpFrames
  | dataNoack
  | beacon
  | mgmt
  | wiphy
  | internalCritBeacon
  | loopback
  | command
  | txStatus
  | other
  deriving DecidableEq, Repr

/-- `MORSE_TX_STATUS_FLAGS_NO_REPORT`. -/
def txStatusFlagsNoReport : BitVec 32 := 1 <<< 1

/-- `MORSE_TX_STATUS_FLAGS_PS_FILTERED`. -/
def txStatusFlagsPsFiltered : BitVec 32 := 1 <<< 15

/-- `MORSE_TX_STATUS_PAGE_INVALID`. -/
def txStatusPageInvalid : BitVec 32 := 1 <<< 17

/-- `MORSE_TX_STATUS_DUTY_CYCLE_CANT_SEND`. -/
def txStatusDutyCycleCantSend : BitVec 32 := 1 <<< 19

/-- `struct sk_buff` with the fields of its Morse header and of its control
buffer that the queues read. -/
structure SkBuff where
  address : Nat
  len : BitVec 32
  channel : Channel
  flags : BitVec 32
  pktId : BitVec 32
  enqueueTime : BitVec 32
  txStatusExpiry : BitVec 64
  deriving DecidableEq, Repr

/-- `struct sk_buff_head`. -/
structure SkBuffHead where
  skbs : List SkBuff
  qlen : BitVec 32
  deriving DecidableEq, Repr

/-- `__skb_queue_head_init`. -/
def SkBuffHead.init : SkBuffHead where
  skbs := []
  qlen := 0

/-- Where a frame is put: `queue_before`, `queue_at_head`, or neither. -/
inductive Place
  | before (other : SkBuff)
  | head
  | tail

/-- `__skb_queue_before`, `__skb_queue_head` and `__skb_queue_tail`. -/
def SkBuffHead.insert (queue : SkBuffHead) (skb : SkBuff) : Place → SkBuffHead
  | .before other =>
    ⟨insertBefore SkBuff.address other.address skb queue.skbs, queue.qlen + 1⟩
  | .head => ⟨skb :: queue.skbs, queue.qlen + 1⟩
  | .tail => ⟨queue.skbs ++ [skb], queue.qlen + 1⟩

/-- The list after a frame of that address left it, if it was on it. -/
def SkBuffHead.without (queue : SkBuffHead) (skb : SkBuff) : SkBuffHead :=
  { queue with skbs := removeKey SkBuff.address skb.address queue.skbs }

/-! ## Queues -/

/-- `enum morse_page_aci`. -/
inductive Aci
  | be
  | bk
  | vi
  | vo
  deriving DecidableEq, Repr

/-- The queues that a transmit status can belong to. -/
inductive TcQueue
  | data (aci : Aci)
  | mgmt
  | beacon
  deriving DecidableEq, Repr

/-- What a queue is for, `mq->flags`. -/
inductive QueueKind
  | command
  | toHost
  | toChip (queue : TcQueue)
  deriving DecidableEq, Repr

/-- The two lists of a queue, `&mq->skbq` and `&mq->pending`. -/
inductive ListName
  | skbq
  | pending
  deriving DecidableEq, Repr

/-- `struct morse_skbq`, the statistics its operations count, and the frames
that left it for good.  `sizeWarned` is set where `__morse_skbq_unlink` warns
that the byte counter underflows. -/
structure Skbq where
  kind : QueueKind
  pktSeq : BitVec 32
  skbqSize : BitVec 32
  skbq : SkBuffHead
  pending : SkBuffHead
  freed : List SkBuff
  reported : List SkBuff
  sizeWarned : Bool
  txStatusDropped : BitVec 32
  txStatusFlushed : BitVec 32
  txStatusPageInvalid : BitVec 32
  txStatusDutyCycleCantSend : BitVec 32
  txAgedOut : BitVec 32
  deriving DecidableEq, Repr

/-- `MORSE_SKBQ_SIZE`. -/
def morseSkbqSize : BitVec 32 := 4 * 128 * 1024

/-- What the operations read of the driver around the queue. -/
structure Driver where
  fullmac : Bool
  monitorMode : Bool
  fwReportsBcnTxStatus : Bool
  /-- `msecs_to_jiffies(tx_queued_lifetime_ms)` -/
  txQueuedLifetime : BitVec 64
  /-- `msecs_to_jiffies(tx_status_lifetime_ms)` -/
  txStatusLifetime : BitVec 64

namespace Skbq

/-- `morse_skbq_init`. -/
def init (kind : QueueKind) : Skbq where
  kind := kind
  pktSeq := 0
  skbqSize := 0
  skbq := .init
  pending := .init
  freed := []
  reported := []
  sizeWarned := false
  txStatusDropped := 0
  txStatusFlushed := 0
  txStatusPageInvalid := 0
  txStatusDutyCycleCantSend := 0
  txAgedOut := 0

/-- `__morse_skbq_space`. -/
def space (mq : Skbq) : BitVec 32 := morseSkbqSize - mq.skbqSize

/-- `dev_kfree_skb`, `dev_kfree_skb_any` and `morse_flush_txskb`. -/
def free (mq : Skbq) (skb : SkBuff) : Skbq :=
  { mq with freed := mq.freed ++ [skb] }

/-- `__morse_skbq_unlink`: the byte counter and the length are those of the
list that was named, while the frame leaves whichever list it is on. -/
def unlink (mq : Skbq) (queue : ListName) (skb : SkBuff) : Skbq :=
  match queue with
  | .skbq =>
    { mq with
      sizeWarned := mq.sizeWarned || decide (mq.skbqSize < skb.len)
      skbqSize := mq.skbqSize - (if skb.len ≤ mq.skbqSize then skb.len else mq.skbqSize)
      skbq := { mq.skbq.without skb with qlen := mq.skbq.qlen - 1 }
      pending := mq.pending.without skb }
  | .pending =>
    { mq with
      skbq := mq.skbq.without skb
      pending := { mq.pending.without skb with qlen := mq.pending.qlen - 1 } }

/-- `__morse_skbq_put`; `none` is `-ENOMEM`. -/
def put (mq : Skbq) (queue : ListName) (skb : SkBuff) (place : Place) : Option Skbq :=
  match queue with
  | .skbq =>
    if skb.len ≤ mq.space then
      some { mq with
        skbqSize := mq.skbqSize + skb.len
        skbq := mq.skbq.insert skb place }
    else none
  | .pending => some { mq with pending := mq.pending.insert skb place }

/-- A put whose return value is ignored. -/
def putIgnored (mq : Skbq) (queue : ListName) (skb : SkBuff) (place : Place) : Skbq :=
  (mq.put queue skb place).getD mq

/-- `morse_skbq_put`. -/
def skbqPut (mq : Skbq) (skb : SkBuff) : Option Errno × Skbq :=
  match mq.put .skbq skb .tail with
  | some mq => (none, mq)
  | none => (some .enomem, mq)

/-! ## Transmission -/

/-- `morse_skbq_tx`: the frame is queued, and its packet identifier is stamped
whether or not there was room. -/
def tx (mq : Skbq) (skb : SkBuff) : Option Errno × Skbq :=
  let queued := mq.skbqPut { skb with pktId := mq.pktSeq }
  (queued.1, { queued.2 with pktSeq := mq.pktSeq + 1 })

/-- `morse_skbq_skb_tx`: `gate` is the error of a blocked driver, `padded`
says whether `skb_pad` found tailroom.  The frame is always consumed. -/
def skbTx (mq : Skbq) (skb : SkBuff) (gate : Option Errno) (padded : Bool) :
    Option Errno × Skbq :=
  match gate with
  | some error => (some error, mq.free skb)
  | none =>
    if !padded then (some .einval, mq.free skb)
    else
      match (mq.tx skb).1 with
      | none => mq.tx skb
      | some error => (some error, (mq.tx skb).2.free { skb with pktId := mq.pktSeq })

/-- `__skbq_tx_move_to_pending`. -/
def txMoveToPending (driver : Driver) (jiffies : BitVec 64) (mq : Skbq) (skb : SkBuff) : Skbq :=
  mq.putIgnored .pending
    { skb with txStatusExpiry := jiffies + driver.txStatusLifetime } .tail

/-- One turn of `morse_skbq_tx_complete`. -/
def txCompleteOne (driver : Driver) (jiffies : BitVec 64) (mq : Skbq) (skb : SkBuff) : Skbq :=
  match skb.channel with
  | .beacon =>
    if driver.fwReportsBcnTxStatus then txMoveToPending driver jiffies mq skb
    else mq.free skb
  | .loopback => mq.free skb
  | .wiphy => mq.free skb
  | _ =>
    if skb.flags &&& txStatusFlagsNoReport ≠ 0 then mq.free skb
    else txMoveToPending driver jiffies mq skb

/-- `morse_skbq_tx_complete`. -/
def txComplete (driver : Driver) (jiffies : BitVec 64) (mq : Skbq) (skbs : List SkBuff) : Skbq :=
  skbs.foldl (txCompleteOne driver jiffies) mq

/-! ## Moving frames in batches -/

/-- The walk of `morse_skbq_enq`: the frames left over, the bytes queued, and
the queue. -/
def enqWalk : List SkBuff → BitVec 32 → BitVec 32 → Skbq → List SkBuff × BitVec 32 × Skbq
  | [], _, count, mq => ([], count, mq)
  | pfirst :: rest, size, count, mq =>
    if pfirst.len ≤ size then
      enqWalk rest (size - pfirst.len) (count + pfirst.len)
        (mq.putIgnored .skbq pfirst .tail)
    else (pfirst :: rest, count, mq)

/-- `morse_skbq_enq`. -/
def enq (mq : Skbq) (skbs : List SkBuff) : List SkBuff × BitVec 32 × Skbq :=
  enqWalk skbs mq.space 0 mq

/-- The reverse walk of `morse_skbq_enq_prepend`, over the reversed list. -/
def enqPrependWalk :
    List SkBuff → BitVec 32 → BitVec 32 → Skbq → List SkBuff × BitVec 32 × Skbq
  | [], _, count, mq => ([], count, mq)
  | pfirst :: rest, size, count, mq =>
    if pfirst.len ≤ size then
      enqPrependWalk rest (size - pfirst.len) (count + pfirst.len)
        (mq.putIgnored .skbq pfirst .head)
    else ((pfirst :: rest).reverse, count, mq)

/-- `morse_skbq_enq_prepend`. -/
def enqPrepend (mq : Skbq) (skbs : List SkBuff) : List SkBuff × BitVec 32 × Skbq :=
  enqPrependWalk skbs.reverse mq.space 0 mq

/-- The walk of `morse_skbq_deq_num_items`, appending to `skbs`. -/
def deqWalk (numItems : Int) :
    List SkBuff → Int → List SkBuff → Skbq → List SkBuff × Int × Skbq
  | [], count, skbs, mq => (skbs, count, mq)
  | pfirst :: rest, count, skbs, mq =>
    if numItems ≤ count then (skbs, count, mq)
    else deqWalk numItems rest (count + 1) (skbs ++ [pfirst]) (mq.unlink .skbq pfirst)

/-- `morse_skbq_deq_num_items`, onto an empty list. -/
def deqNumItems (mq : Skbq) (numItems : Int) : List SkBuff × Int × Skbq :=
  deqWalk numItems mq.skbq.skbs 0 [] mq

/-! ## Purging -/

/-- `has_queued_tx_skb_expired`. -/
def hasQueuedTxSkbExpired (driver : Driver) (jiffies : BitVec 64) (skb : SkBuff) : Bool :=
  decide (0 < skb.enqueueTime) &&
    (0 : BitVec 32).slt
      (jiffies.setWidth 32 - (skb.enqueueTime + driver.txQueuedLifetime.setWidth 32))

/-- The walk of `morse_skbq_purge_aged`. -/
def purgeAgedWalk (driver : Driver) (jiffies : BitVec 64) : List SkBuff → Skbq → Skbq
  | [], mq => mq
  | pfirst :: rest, mq =>
    if !hasQueuedTxSkbExpired driver jiffies pfirst then mq
    else
      let mq := (mq.unlink .skbq pfirst).free pfirst
      purgeAgedWalk driver jiffies rest { mq with txAgedOut := mq.txAgedOut + 1 }

/-- `morse_skbq_purge_aged`. -/
def purgeAged (driver : Driver) (jiffies : BitVec 64) (mq : Skbq) : Skbq :=
  purgeAgedWalk driver jiffies mq.skbq.skbs mq

/-- `morse_skbq_purge` of one of the queue's own lists: every frame is dequeued
and freed, the byte counter is not touched. -/
def purge (mq : Skbq) (queue : ListName) : Nat × Skbq :=
  match queue with
  | .skbq =>
    (mq.skbq.skbs.length,
      { mq with
        freed := mq.freed ++ mq.skbq.skbs
        skbq := ⟨[], mq.skbq.qlen - BitVec.ofNat 32 mq.skbq.skbs.length⟩ })
  | .pending =>
    (mq.pending.skbs.length,
      { mq with
        freed := mq.freed ++ mq.pending.skbs
        pending := ⟨[], mq.pending.qlen - BitVec.ofNat 32 mq.pending.skbs.length⟩ })

/-- `morse_skbq_finish`. -/
def finish (mq : Skbq) : Skbq :=
  { ((mq.purge .skbq).2.purge .pending).2 with skbqSize := 0 }

/-- A walk of `morse_skbq_tx_flush` over one list. -/
def txFlushWalk (queue : ListName) : List SkBuff → Nat → Skbq → Nat × Skbq
  | [], cnt, mq => (cnt, mq)
  | pfirst :: rest, cnt, mq =>
    txFlushWalk queue rest (cnt + 1) ((mq.unlink queue pfirst).free pfirst)

/-- `morse_skbq_tx_flush`. -/
def txFlush (mq : Skbq) : Nat × Skbq :=
  match txFlushWalk .pending mq.pending.skbs 0 mq with
  | (cnt, mq) => txFlushWalk .skbq mq.skbq.skbs cnt mq

/-! ## Frames awaiting their status -/

/-- `__has_pending_tx_skb_timed_out`: `time_is_before_jiffies`. -/
def hasPendingTxSkbTimedOut (jiffies : BitVec 64) (skb : SkBuff) : Bool :=
  (skb.txStatusExpiry - jiffies).slt 0

/-- `__skbq_drop_pending_skb`. -/
def dropPendingSkb (mq : Skbq) (skb : SkBuff) : Skbq :=
  let mq := (mq.unlink .pending skb).free skb
  { mq with txStatusDropped := mq.txStatusDropped + 1 }

/-- A pending frame whose status is overdue is dropped and counted as flushed. -/
def flushPendingSkb (mq : Skbq) (skb : SkBuff) : Skbq :=
  let mq := mq.dropPendingSkb skb
  { mq with txStatusFlushed := mq.txStatusFlushed + 1 }

/-- The walk of `__skbq_get_pending_by_id`. -/
def getPendingWalk (jiffies : BitVec 64) (pktId : BitVec 32) :
    List SkBuff → Skbq → Option SkBuff × Skbq
  | [], mq => (none, mq)
  | pfirst :: rest, mq =>
    if pfirst.pktId = pktId then (some pfirst, mq)
    else if pfirst.pktId < pktId ∧ hasPendingTxSkbTimedOut jiffies pfirst = true then
      getPendingWalk jiffies pktId rest (mq.flushPendingSkb pfirst)
    else getPendingWalk jiffies pktId rest mq

/-- `__skbq_get_pending_by_id`. -/
def getPendingById (jiffies : BitVec 64) (mq : Skbq) (pktId : BitVec 32) :
    Option SkBuff × Skbq :=
  getPendingWalk jiffies pktId mq.pending.skbs mq

/-- The walk of `morse_skbq_check_for_stale_tx`. -/
def staleWalk (jiffies : BitVec 64) : List SkBuff → Nat → Skbq → Nat × Skbq
  | [], flushed, mq => (flushed, mq)
  | pfirst :: rest, flushed, mq =>
    if hasPendingTxSkbTimedOut jiffies pfirst then
      staleWalk jiffies rest (flushed + 1) (mq.flushPendingSkb pfirst)
    else staleWalk jiffies rest flushed mq

/-- `morse_skbq_check_for_stale_tx`. -/
def checkForStaleTx (jiffies : BitVec 64) (mq : Skbq) : Nat × Skbq :=
  if mq.pending.qlen = 0 then (0, mq)
  else staleWalk jiffies mq.pending.skbs 0 mq

/-! ## Finishing a frame -/

/-- `__skbq_cmd_finish`: the list to unlink from is the pending list when that
is not empty, else the `skbq` list when that is not empty. -/
def cmdFinish (mq : Skbq) (skb : SkBuff) : Skbq :=
  if 0 < mq.pending.qlen then (mq.unlink .pending skb).free skb
  else if 0 < mq.skbq.qlen then (mq.unlink .skbq skb).free skb
  else mq

/-- `__skbq_data_tx_finish`: in monitor mode the frame is freed, else it goes
to mac80211 with its status. -/
def dataTxFinish (driver : Driver) (mq : Skbq) (skb : SkBuff) : Skbq :=
  let mq := mq.unlink .pending skb
  if driver.monitorMode then mq.free skb
  else { mq with reported := mq.reported ++ [skb] }

/-- `morse_skbq_skb_finish`. -/
def skbFinish (driver : Driver) (mq : Skbq) (skb : SkBuff) : Skbq :=
  match mq.kind with
  | .command => mq.cmdFinish skb
  | _ => dataTxFinish driver mq skb

/-- `morse_skbq_skb_finish_fullmac`. -/
def skbFinishFullmac (mq : Skbq) (skb : SkBuff) : Skbq :=
  (mq.unlink .pending skb).free skb

end Skbq

/-! ## Transmit status -/

/-- `struct morse_skb_tx_status`.  `isStation` is the type of the interface that
the frame or else the status belongs to. -/
structure TxStatus where
  flags : BitVec 32
  pktId : BitVec 32
  tid : BitVec 8
  channel : Channel
  isStation : Bool
  deriving DecidableEq, Repr

/-- `dot11_tid_to_ac`. -/
def dot11TidToAc (tid : BitVec 8) : Aci :=
  if tid = 1 ∨ tid = 2 then .bk
  else if tid = 4 ∨ tid = 5 then .vi
  else if tid = 6 ∨ tid = 7 then .vo
  else .be

/-- `__morse_skbq_match_tx_status_to_skbq`. -/
def TxStatus.matchSkbq (txSts : TxStatus) : Option TcQueue :=
  match txSts.channel with
  | .data => some (.data (dot11TidToAc txSts.tid))
  | .dataNoack => some (.data (dot11TidToAc txSts.tid))
  | .loopback => some (.data (dot11TidToAc txSts.tid))
  | .mgmt => some .mgmt
  | .beacon => some .beacon
  | _ => none

/-- `mors_vif->supports_ps_filter`: set for station interfaces when they are
added, never in fullmac mode. -/
def TxStatus.supportsPsFilter (driver : Driver) (txSts : TxStatus) : Bool :=
  !driver.fullmac && txSts.isStation

namespace Skbq

/-- The walk of `insert_pending_skb_to_skbq` to the first frame that the
inserted one does not follow. -/
def insertWalk (skb : SkBuff) (insertionId : BitVec 32) : List SkBuff → Skbq → Skbq
  | [], mq => mq
  | pfirst :: rest, mq =>
    if insertionId ≤ pfirst.pktId then mq.putIgnored .skbq skb (.before pfirst)
    else insertWalk skb insertionId rest mq

/-- `insert_pending_skb_to_skbq`. -/
def insertPendingSkbToSkbq (mq : Skbq) (skb : SkBuff) (insertionId : BitVec 32) : Skbq :=
  let tail := mq.skbq.skbs.getLast?
  let mq := mq.unlink .pending skb
  match tail with
  | none => mq.putIgnored .skbq skb .tail
  | some tail =>
    if tail.pktId ≤ insertionId then mq.putIgnored .skbq skb .tail
    else insertWalk skb insertionId mq.skbq.skbs mq

/-- `tx_skb_is_ps_filtered`: whether it consumed the frame, and the queue. -/
def txSkbIsPsFiltered (driver : Driver) (mq : Skbq) (skb : SkBuff) (txSts : TxStatus) :
    Bool × Skbq :=
  if !txSts.supportsPsFilter driver then (true, mq.dropPendingSkb skb)
  else if !driver.fullmac && !txSts.isStation then (false, mq)
  else (true, mq.insertPendingSkbToSkbq skb txSts.pktId)

/-- What one turn of `morse_skbq_tx_status_process` does with the pending frame
it found. -/
def txStatusApply (driver : Driver) (mq : Skbq) (txSkb : SkBuff) (txSts : TxStatus) : Skbq :=
  if txSts.flags &&& Morse.txStatusPageInvalid ≠ 0 then
    { mq with txStatusPageInvalid := mq.txStatusPageInvalid + 1 }.dropPendingSkb txSkb
  else if txSts.flags &&& Morse.txStatusDutyCycleCantSend ≠ 0 then
    { mq with
      txStatusDutyCycleCantSend := mq.txStatusDutyCycleCantSend + 1 }.dropPendingSkb txSkb
  else if txSts.flags &&& txStatusFlagsPsFiltered ≠ 0 ∧
      (txSkbIsPsFiltered driver mq txSkb txSts).1 = true then
    (txSkbIsPsFiltered driver mq txSkb txSts).2
  else if driver.fullmac then mq.skbFinishFullmac txSkb
  else skbFinish driver mq txSkb

/-- One turn of `morse_skbq_tx_status_process`, as far as this queue goes. -/
def txStatusOne (driver : Driver) (jiffies : BitVec 64) (mq : Skbq) (txSts : TxStatus) : Skbq :=
  match txSts.matchSkbq with
  | none => mq
  | some queue =>
    if mq.kind ≠ .toChip queue then mq
    else
      match mq.getPendingById jiffies txSts.pktId with
      | (none, mq) => mq
      | (some txSkb, mq) => txStatusApply driver mq txSkb txSts

/-- `morse_skbq_tx_status_process`. -/
def txStatusProcess (driver : Driver) (jiffies : BitVec 64) (mq : Skbq)
    (statuses : List TxStatus) : Skbq :=
  statuses.foldl (txStatusOne driver jiffies) mq

end Skbq
end Morse
