import Morse.Skbq.Accounting

/-!
# Every queue operation accounts for its frames

The walks of the queue operations are followed frame by frame.  Two places
need a condition: a frame that is put back into a full `skbq` list, and a
command that is finished while it is not where its queue looks for it.
-/

namespace Morse
namespace Skbq

open Lib

/-! ## Single frames -/

theorem put_of_le_space {mq : Skbq} (fits : skb.len ≤ mq.space) (place : Place) :
    ∃ after, mq.put .skbq skb place = some after ∧
      mq.putIgnored .skbq skb place = after ∧ after.space = mq.space - skb.len := by
  have accepted : mq.put .skbq skb place = some { mq with
      skbqSize := mq.skbqSize + skb.len
      skbq := mq.skbq.insert skb place } :=
    if_pos fits
  refine ⟨_, accepted, ?_, ?_⟩
  · rw [putIgnored, accepted, Option.getD_some]
  · simp only [space]
    bv_omega

theorem putIgnored_skbq_conserves (consistent : mq.Consistent) (absent : mq.Absent skb)
    (fits : skb.len ≤ mq.space) (place : Place) :
    Conserves mq (mq.putIgnored .skbq skb place) [skb] [] := by
  obtain ⟨after, accepted, same, -⟩ := put_of_le_space fits place
  rw [same]
  exact put_skbq_conserves consistent absent accepted

/-- The list of that name. -/
def list (mq : Skbq) : ListName → SkBuffHead
  | .skbq => mq.skbq
  | .pending => mq.pending

theorem unlink_free_conserves (queue : ListName) (consistent : mq.Consistent)
    (member : skb ∈ (mq.list queue).skbs) :
    Conserves mq ((mq.unlink queue skb).free skb) [] [] := by
  have unlinked : Conserves mq (mq.unlink queue skb) [] [skb] := by
    cases queue with
    | skbq => exact unlink_skbq_conserves consistent member
    | pending => exact unlink_pending_conserves consistent (keyCount_pos_of_mem _ member)
  have freed := free_conserves unlinked.consistent (unlinked.holds_returned consistent).head
  exact unlinked.trans freed fun _ => by simp

theorem skbqPut_conserves (consistent : mq.Consistent) (absent : mq.Absent skb) :
    Conserves mq (mq.skbqPut skb).2 [skb]
      (if (mq.skbqPut skb).1 = none then [] else [skb]) := by
  cases accepted : mq.put .skbq skb .tail with
  | none =>
    have refused : mq.skbqPut skb = (some .enomem, mq) := by
      simp only [skbqPut, accepted]
    simp only [refused, reduceCtorEq, if_false]
    exact consistent.conserves [skb]
  | some after =>
    have queued : mq.skbqPut skb = (none, after) := by
      simp only [skbqPut, accepted]
    simp only [queued, if_true]
    exact put_skbq_conserves consistent absent accepted

theorem tx_accounts (mq : Skbq) (skb : SkBuff) :
    (mq.tx skb).2.accounts = (mq.skbqPut { skb with pktId := mq.pktSeq }).2.accounts := by
  simp only [tx, accounts]

theorem tx_conserves (consistent : mq.Consistent) (absent : mq.Absent skb) :
    Conserves mq (mq.tx skb).2 [skb] (if (mq.tx skb).1 = none then [] else [skb]) := by
  have queued := skbqPut_conserves consistent
    (show mq.Absent { skb with pktId := mq.pktSeq } from absent)
  have error : (mq.tx skb).1 = (mq.skbqPut { skb with pktId := mq.pktSeq }).1 := by
    simp only [tx]
  rw [← error] at queued
  refine (queued.congr (tx_accounts mq skb)).rewritten ?_ ?_
  · simp only [List.map_cons, List.map_nil]
  · split
    · simp only [List.map_nil]
    · simp only [List.map_cons, List.map_nil]

theorem skbTx_conserves (consistent : mq.Consistent) (absent : mq.Absent skb) :
    Conserves mq (mq.skbTx skb gate padded).2 [skb] [] := by
  have sent := tx_conserves consistent absent
  unfold skbTx
  split
  · exact free_conserves consistent absent
  split
  · exact free_conserves consistent absent
  split
  · next accepted =>
      rw [if_pos accepted] at sent
      exact sent
  · next refused =>
      rw [refused, if_neg (by simp)] at sent
      have held : (mq.tx skb).2.Absent skb := by
        have balance := sent.balance skb.address
        rw [absent] at balance
        unfold Absent
        omega
      exact sent.trans (free_conserves sent.consistent held) fun _ => by simp

/-! ## Batches -/

theorem enqWalk_conserves (consistent : mq.Consistent) (holds : mq.Holds skbs)
    (room : size = mq.space) :
    Conserves mq (enqWalk skbs size count mq).2.2 skbs (enqWalk skbs size count mq).1 := by
  induction skbs generalizing size count mq with
  | nil => exact consistent.conserves []
  | cons pfirst rest ih =>
    simp only [enqWalk]
    split
    · next fits =>
        subst room
        have queued :=
          putIgnored_skbq_conserves consistent holds.head fits .tail
        obtain ⟨_, -, same, space⟩ := put_of_le_space fits .tail
        refine queued.trans (ih queued.consistent (holds.tail queued) ?_) ?_
        · rw [same, space]
        · simp only [keyCount_cons, keyCount_nil]
          omega
    · exact consistent.conserves (pfirst :: rest)

theorem enq_conserves (consistent : mq.Consistent) (holds : mq.Holds skbs) :
    Conserves mq (mq.enq skbs).2.2 skbs (mq.enq skbs).1 :=
  enqWalk_conserves consistent holds rfl

theorem enqPrependWalk_conserves (consistent : mq.Consistent) (holds : mq.Holds skbs)
    (room : size = mq.space) :
    Conserves mq (enqPrependWalk skbs size count mq).2.2 skbs
      (enqPrependWalk skbs size count mq).1 := by
  induction skbs generalizing size count mq with
  | nil => exact consistent.conserves []
  | cons pfirst rest ih =>
    simp only [enqPrependWalk]
    split
    · next fits =>
        subst room
        have queued :=
          putIgnored_skbq_conserves consistent holds.head fits .head
        obtain ⟨_, -, same, space⟩ := put_of_le_space fits .head
        refine queued.trans (ih queued.consistent (holds.tail queued) ?_) ?_
        · rw [same, space]
        · simp only [keyCount_cons, keyCount_nil]
          omega
    · exact (consistent.conserves _).perm (.refl _) (List.reverse_perm _).symm

theorem enqPrepend_conserves (consistent : mq.Consistent) (holds : mq.Holds skbs) :
    Conserves mq (mq.enqPrepend skbs).2.2 skbs (mq.enqPrepend skbs).1 := by
  have reversed : mq.Holds skbs.reverse := by
    intro address
    rw [keyCount_congr SkBuff.address (List.reverse_perm skbs)]
    exact holds address
  exact (enqPrependWalk_conserves consistent reversed rfl).perm (List.reverse_perm skbs) (.refl _)

theorem list_unlink_of_head (queue : ListName) {mq : Skbq}
    (head : (mq.list queue).skbs = skb :: rest) :
    ((mq.unlink queue skb).list queue).skbs = rest := by
  cases queue with
  | skbq =>
    simp only [list] at head
    simp only [unlink, list, SkBuffHead.without, head, removeKey_cons_self]
  | pending =>
    simp only [list] at head
    simp only [unlink, list, SkBuffHead.without, head, removeKey_cons_self]

theorem mem_of_head {skb : SkBuff} (head : skbs = skb :: rest) :
    skb ∈ skbs := by
  rw [head]
  exact List.mem_cons_self

theorem deqWalk_conserves {numItems count : Int} {walk skbs : List SkBuff} {mq : Skbq}
    (consistent : mq.Consistent) (onList : mq.skbq.skbs = walk) :
    Conserves mq (deqWalk numItems walk count skbs mq).2.2 skbs
      (deqWalk numItems walk count skbs mq).1 := by
  induction walk generalizing count skbs mq with
  | nil => exact consistent.conserves skbs
  | cons pfirst rest ih =>
    simp only [deqWalk]
    split
    · exact consistent.conserves skbs
    · have unlinked := unlink_skbq_conserves consistent (mem_of_head onList)
      have others := @ih (count + 1) (skbs ++ [pfirst]) _
        unlinked.consistent (list_unlink_of_head .skbq onList)
      exact unlinked.trans others fun _ => by
        simp only [keyCount_append, keyCount_nil]
        omega

variable {mq : Skbq}

theorem deqNumItems_conserves (consistent : mq.Consistent) (numItems : Int) :
    Conserves mq (mq.deqNumItems numItems).2.2 [] (mq.deqNumItems numItems).1 :=
  deqWalk_conserves consistent rfl

theorem purgeAgedWalk_conserves (consistent : mq.Consistent) (onList : mq.skbq.skbs = walk) :
    Conserves mq (purgeAgedWalk driver jiffies walk mq) [] [] := by
  induction walk generalizing mq with
  | nil => exact consistent.conserves []
  | cons pfirst rest ih =>
    simp only [purgeAgedWalk]
    split
    · exact consistent.conserves []
    · have dropped :=
        unlink_free_conserves .skbq consistent (mem_of_head onList)
      have counted : Conserves mq { (mq.unlink .skbq pfirst).free pfirst with
          txAgedOut := ((mq.unlink .skbq pfirst).free pfirst).txAgedOut + 1 } [] [] :=
        dropped.congr rfl
      have remaining := list_unlink_of_head .skbq onList
      exact counted.trans (ih counted.consistent remaining) fun _ => rfl

theorem purgeAged_conserves (consistent : mq.Consistent) (driver : Driver) (jiffies : BitVec 64) :
    Conserves mq (mq.purgeAged driver jiffies) [] [] :=
  purgeAgedWalk_conserves consistent rfl

theorem purge_pending_conserves (consistent : mq.Consistent) :
    Conserves mq (mq.purge .pending).2 [] [] := by
  have balance (address : Nat) : (mq.purge .pending).2.tally address = mq.tally address := by
    simp only [purge, tally, keyCount_append, keyCount_nil]
    omega
  refine ⟨⟨consistent.size_eq, consistent.size_le, consistent.unwarned, consistent.skbq_qlen,
    ?_, ?_⟩, balance⟩
  · simp only [purge, consistent.pending_qlen, List.length_nil]
    exact BitVec.sub_self _
  · intro address
    rw [balance]
    exact consistent.single address

theorem finish_conserves (consistent : mq.Consistent) :
    Conserves mq mq.finish [] [] := by
  have balance (address : Nat) : mq.finish.tally address = mq.tally address := by
    simp only [finish, purge, tally, keyCount_append, keyCount_nil]
    omega
  refine ⟨⟨rfl, Nat.zero_le _, consistent.unwarned, ?_, ?_, ?_⟩, balance⟩
  · simp only [finish, purge, consistent.skbq_qlen, List.length_nil]
    exact BitVec.sub_self _
  · simp only [finish, purge, consistent.pending_qlen, List.length_nil]
    exact BitVec.sub_self _
  · intro address
    rw [balance]
    exact consistent.single address

theorem txFlushWalk_conserves (queue : ListName) (cnt : Nat) (consistent : mq.Consistent)
    (onList : (mq.list queue).skbs = walk) :
    Conserves mq (txFlushWalk queue walk cnt mq).2 [] [] := by
  induction walk generalizing cnt mq with
  | nil => exact consistent.conserves []
  | cons pfirst rest ih =>
    have dropped := unlink_free_conserves queue consistent (mem_of_head onList)
    have remaining : (((mq.unlink queue pfirst).free pfirst).list queue).skbs = rest := by
      rw [← list_unlink_of_head queue onList]
      cases queue <;> rfl
    exact dropped.trans (ih _ dropped.consistent remaining) fun _ => rfl

theorem txFlush_conserves (consistent : mq.Consistent) :
    Conserves mq mq.txFlush.2 [] [] := by
  have pending := txFlushWalk_conserves .pending 0 consistent rfl
  exact pending.trans (txFlushWalk_conserves .skbq _ pending.consistent rfl)
    fun _ => rfl

/-! ## Frames given to the chip -/

theorem txCompleteOne_conserves (driver : Driver) (jiffies : BitVec 64) (consistent : mq.Consistent)
    (absent : mq.Absent skb) :
    Conserves mq (txCompleteOne driver jiffies mq skb) [skb] [] := by
  have freed := free_conserves consistent absent
  have awaiting : Conserves mq (txMoveToPending driver jiffies mq skb) [skb] [] :=
    (put_pending_conserves consistent (show mq.Absent { skb with
      txStatusExpiry := jiffies + driver.txStatusLifetime } from absent)).rewritten
      (by simp only [List.map_cons, List.map_nil]) rfl
  unfold txCompleteOne
  split
  · split
    · exact awaiting
    · exact freed
  · exact freed
  · exact freed
  · split
    · exact freed
    · exact awaiting

theorem txComplete_conserves (consistent : mq.Consistent) (holds : mq.Holds skbs) :
    Conserves mq (txComplete driver jiffies mq skbs) skbs [] := by
  induction skbs generalizing mq with
  | nil => exact consistent.conserves []
  | cons skb rest ih =>
    have completed := txCompleteOne_conserves driver jiffies consistent holds.head
    have others := ih completed.consistent (holds.tail completed)
    exact completed.trans others fun _ => by simp only [keyCount_cons, keyCount_nil]; omega

end Skbq
end Morse
