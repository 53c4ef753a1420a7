import Morse.Skbq.Moves

/-!
# Frames awaiting their status

The walks over the pending list drop overdue frames on the way.  A reported
frame is dropped, finished, or put back on the `skbq` list for a station that
went to sleep, which is where room is needed.
-/

namespace Morse
namespace Skbq

open Lib

/-! ## Overdue frames -/

theorem flushPendingSkb_conserves (consistent : mq.Consistent) (member : skb ∈ mq.pending.skbs) :
    Conserves mq (mq.flushPendingSkb skb) [] [] :=
  (unlink_free_conserves .pending consistent member).congr rfl

theorem dropPendingSkb_conserves (consistent : mq.Consistent) (member : skb ∈ mq.pending.skbs) :
    Conserves mq (mq.dropPendingSkb skb) [] [] :=
  (unlink_free_conserves .pending consistent member).congr rfl

theorem sublist_flushPendingSkb {mq : Skbq} (onList : (skb :: rest).Sublist mq.pending.skbs) :
    rest.Sublist (mq.flushPendingSkb skb).pending.skbs := by
  have removed := onList.eraseP (p := fun item => item.address = skb.address)
  rwa [List.eraseP_cons_of_pos (by simp)] at removed

theorem staleWalk_conserves (consistent : mq.Consistent) (onList : walk.Sublist mq.pending.skbs) :
    Conserves mq (staleWalk jiffies walk flushed mq).2 [] [] := by
  induction walk generalizing flushed mq with
  | nil => exact consistent.conserves []
  | cons pfirst rest ih =>
    simp only [staleWalk]
    split
    · have dropped := flushPendingSkb_conserves consistent
        (onList.subset List.mem_cons_self)
      exact dropped.trans (ih dropped.consistent (sublist_flushPendingSkb onList))
        fun _ => rfl
    · exact ih consistent (List.sublist_of_cons_sublist onList)

theorem checkForStaleTx_conserves (consistent : mq.Consistent) (jiffies : BitVec 64) :
    Conserves mq (mq.checkForStaleTx jiffies).2 [] [] := by
  unfold checkForStaleTx
  split
  · exact consistent.conserves []
  · exact staleWalk_conserves consistent (.refl _)

/-! ## Looking a frame up -/

theorem getPendingWalk_fst
    (jiffies : BitVec 64) (pktId : BitVec 32) (walk : List SkBuff) (mq : Skbq) :
    (getPendingWalk jiffies pktId walk mq).1 =
      walk.find? fun skb => skb.pktId = pktId := by
  induction walk generalizing mq with
  | nil => rfl
  | cons pfirst rest ih =>
    simp only [getPendingWalk, List.find?_cons]
    split
    · next same => simp only [same, decide_true]
    · next different =>
        simp only [different, decide_false]
        split
        · exact ih _
        · exact ih _

theorem getPendingWalk_frame (jiffies : BitVec 64) (pktId : BitVec 32) (consistent : mq.Consistent)
    (onList : walk.Sublist mq.pending.skbs) :
    (getPendingWalk jiffies pktId walk mq).2.skbq = mq.skbq ∧
      (getPendingWalk jiffies pktId walk mq).2.skbqSize = mq.skbqSize ∧
      (getPendingWalk jiffies pktId walk mq).2.kind = mq.kind := by
  induction walk generalizing mq with
  | nil => exact ⟨rfl, rfl, rfl⟩
  | cons pfirst rest ih =>
    simp only [getPendingWalk]
    split
    · exact ⟨rfl, rfl, rfl⟩
    split
    · have member := onList.subset List.mem_cons_self
      have dropped := flushPendingSkb_conserves consistent member
      obtain ⟨skbq, skbqSize, kind⟩ :=
        ih dropped.consistent (sublist_flushPendingSkb onList)
      have untouched : (mq.flushPendingSkb pfirst).skbq = mq.skbq :=
        without_skbq_of_mem_pending consistent (keyCount_pos_of_mem _ member)
      exact ⟨skbq.trans untouched, skbqSize, kind⟩
    · exact ih consistent (List.sublist_of_cons_sublist onList)

theorem getPendingWalk_conserves (jiffies : BitVec 64) (pktId : BitVec 32)
    (consistent : mq.Consistent) (onList : walk.Sublist mq.pending.skbs) :
    Conserves mq (getPendingWalk jiffies pktId walk mq).2 [] [] ∧
      ∀ skb, (getPendingWalk jiffies pktId walk mq).1 = some skb →
        skb ∈ (getPendingWalk jiffies pktId walk mq).2.pending.skbs := by
  induction walk generalizing mq with
  | nil => exact ⟨consistent.conserves [], fun _ none => by cases none⟩
  | cons pfirst rest ih =>
    have member := onList.subset List.mem_cons_self
    simp only [getPendingWalk]
    split
    · refine ⟨consistent.conserves [], ?_⟩
      rintro skb ⟨rfl⟩
      exact member
    split
    · have dropped := flushPendingSkb_conserves consistent member
      obtain ⟨others, found⟩ :=
        ih dropped.consistent (sublist_flushPendingSkb onList)
      exact ⟨dropped.trans others fun _ => rfl, found⟩
    · exact ih consistent (List.sublist_of_cons_sublist onList)

/-! ## Putting a frame back -/

theorem insertWalk_eq_put (bounded : ∃ other ∈ walk, insertionId ≤ other.pktId) :
    ∃ place, insertWalk skb insertionId walk mq = mq.putIgnored .skbq skb place := by
  induction walk with
  | nil =>
    obtain ⟨_, none, _⟩ := bounded
    cases none
  | cons pfirst rest ih =>
    simp only [insertWalk]
    split
    · exact ⟨.before pfirst, rfl⟩
    · next smaller =>
        apply ih
        obtain ⟨other, member, above⟩ := bounded
        rcases List.mem_cons.mp member with rfl | member
        · exact absurd above smaller
        · exact ⟨other, member, above⟩

theorem insertPendingSkbToSkbq_eq_put {mq : Skbq} (consistent : mq.Consistent)
    (member : skb ∈ mq.pending.skbs) (insertionId : BitVec 32) :
    ∃ place, mq.insertPendingSkbToSkbq skb insertionId =
      (mq.unlink .pending skb).putIgnored .skbq skb place := by
  have untouched : (mq.unlink .pending skb).skbq = mq.skbq :=
    without_skbq_of_mem_pending consistent (keyCount_pos_of_mem _ member)
  simp only [insertPendingSkbToSkbq]
  split
  · exact ⟨.tail, rfl⟩
  · next tail last =>
      split
      · exact ⟨.tail, rfl⟩
      · next after =>
          apply insertWalk_eq_put
          rw [untouched]
          exact ⟨tail, List.mem_of_getLast? last, BitVec.le_of_lt (BitVec.not_le.mp after)⟩

theorem insertPendingSkbToSkbq_conserves (consistent : mq.Consistent)
    (member : skb ∈ mq.pending.skbs) (fits : skb.len ≤ mq.space) (insertionId : BitVec 32) :
    Conserves mq (mq.insertPendingSkbToSkbq skb insertionId) [] [] := by
  obtain ⟨place, same⟩ := insertPendingSkbToSkbq_eq_put consistent member insertionId
  have unlinked := unlink_pending_conserves consistent (keyCount_pos_of_mem _ member)
  have absent := (unlinked.holds_returned consistent).head
  rw [same]
  exact unlinked.trans (putIgnored_skbq_conserves unlinked.consistent absent fits place)
    fun _ => rfl

/-! ## Reported frames -/

/-- The status has the frame put back: no other flag disposes of it, and its
interface is filtered by the driver. -/
def Refilters (driver : Driver) (txSts : TxStatus) : Prop :=
  txSts.flags &&& Morse.txStatusPageInvalid = 0 ∧
    txSts.flags &&& Morse.txStatusDutyCycleCantSend = 0 ∧
    txSts.flags &&& txStatusFlagsPsFiltered ≠ 0 ∧
    txSts.supportsPsFilter driver = true

instance (driver : Driver) (txSts : TxStatus) : Decidable (Refilters driver txSts) := by
  unfold Refilters
  infer_instance

theorem dataTxFinish_conserves (consistent : mq.Consistent) (member : skb ∈ mq.pending.skbs) :
    Conserves mq (dataTxFinish driver mq skb) [] [] := by
  have unlinked := unlink_pending_conserves consistent (keyCount_pos_of_mem _ member)
  have absent := (unlinked.holds_returned consistent).head
  unfold dataTxFinish
  split
  · exact unlinked.trans (free_conserves unlinked.consistent absent) fun _ => rfl
  · exact unlinked.trans (report_conserves unlinked.consistent absent) fun _ => rfl

theorem txStatusApply_conserves (driver : Driver) (txSts : TxStatus) (consistent : mq.Consistent)
    (member : skb ∈ mq.pending.skbs) (toChip : mq.kind = .toChip queue)
    (fits : Refilters driver txSts → skb.len ≤ mq.space) :
    Conserves mq (txStatusApply driver mq skb txSts) [] [] := by
  have dropped := dropPendingSkb_conserves consistent member
  unfold txStatusApply
  split
  · exact dropped.congr rfl
  next valid =>
  split
  · exact dropped.congr rfl
  next allowed =>
  split
  · next filtered =>
      unfold txSkbIsPsFiltered at filtered ⊢
      split
      · exact dropped
      · next supported =>
          split at filtered
          · exact absurd ‹_› supported
          split
          · exact consistent.conserves []
          · refine insertPendingSkbToSkbq_conserves consistent member (fits ?_) txSts.pktId
            exact ⟨not_not.mp valid, not_not.mp allowed, filtered.1, by simpa using supported⟩
  split
  · exact unlink_free_conserves .pending consistent member
  · unfold skbFinish
    rw [toChip]
    exact dataTxFinish_conserves consistent member

/-- If the status is for this queue and has its frame put back, that frame
fits. -/
def StatusFits (driver : Driver) (mq : Skbq) (txSts : TxStatus) : Prop :=
  txSts.matchSkbq.map .toChip = some mq.kind → Refilters driver txSts →
    ∀ skb ∈ mq.pending.skbs.find? (fun skb => skb.pktId = txSts.pktId), skb.len ≤ mq.space

instance (driver : Driver) (mq : Skbq) (txSts : TxStatus) :
    Decidable (StatusFits driver mq txSts) := by
  unfold StatusFits
  infer_instance

theorem txStatusOne_conserves (consistent : mq.Consistent) (fits : StatusFits driver mq txSts) :
    Conserves mq (txStatusOne driver jiffies mq txSts) [] [] := by
  unfold txStatusOne
  split
  · exact consistent.conserves []
  next queue matched =>
  split
  · exact consistent.conserves []
  next routed =>
  have toChip : mq.kind = .toChip queue := not_not.mp routed
  obtain ⟨dropped, found⟩ :=
    getPendingWalk_conserves jiffies txSts.pktId consistent
      (List.Sublist.refl mq.pending.skbs)
  obtain ⟨-, skbqSize, kind⟩ :=
    getPendingWalk_frame jiffies txSts.pktId consistent
      (List.Sublist.refl mq.pending.skbs)
  have first := getPendingWalk_fst jiffies txSts.pktId mq.pending.skbs mq
  simp only [getPendingById]
  split
  · next result => rwa [result] at dropped
  · next txSkb after result =>
      rw [result] at dropped found skbqSize kind first
      have applied := txStatusApply_conserves driver txSts
        dropped.consistent (found txSkb rfl) (kind.trans toChip) fun refilters => by
          have room := fits (by rw [matched, toChip]; rfl) refilters txSkb first.symm
          simp only [space] at room ⊢
          rw [skbqSize]
          exact room
      exact dropped.trans applied fun _ => rfl

end Skbq
end Morse
