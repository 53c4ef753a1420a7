import Morse.Skbq.Moves

/-!
# The queue operations, list by list

Which frames a batch operation takes and where it puts them, in order, whatever
the state of the queue.
-/

namespace Morse
namespace Skbq

open Lib

theorem deqWalk_fst (numItems : Nat) (walk skbs : List SkBuff) (count : Nat) (mq : Skbq) :
    (deqWalk numItems walk count skbs mq).1 = skbs ++ walk.take (numItems - count) := by
  induction walk generalizing count skbs mq with
  | nil => simp [deqWalk]
  | cons pfirst rest ih =>
    simp only [deqWalk]
    split
    · next full =>
        rw [Nat.sub_eq_zero_of_le (Int.ofNat_le.mp full), List.take_zero, List.append_nil]
    · next more =>
        have others := ih (skbs ++ [pfirst]) (count + 1) (mq.unlink .skbq pfirst)
        rw [Int.natCast_add, Int.natCast_one] at others
        obtain ⟨left, exact⟩ : ∃ left, numItems - count = left + 1 :=
          ⟨numItems - count - 1, by omega⟩
        rw [others, exact, List.take_succ_cons, List.append_assoc, List.singleton_append,
          show numItems - (count + 1) = left by omega]

/-- What an operation leaves alone when it puts frames on the `skbq` list. -/
structure SameOthers (before after : Skbq) : Prop where
  pending : after.pending = before.pending
  freed : after.freed = before.freed
  reported : after.reported = before.reported

theorem enqPrependWalk_lists (skbs : List SkBuff) (size count : BitVec 32) (mq : Skbq)
    (room : size = mq.space) :
    ∃ taken left, skbs = taken ++ left ∧
      (enqPrependWalk skbs size count mq).1 = left.reverse ∧
      (enqPrependWalk skbs size count mq).2.2.skbq.skbs = taken.reverse ++ mq.skbq.skbs ∧
      SameOthers mq (enqPrependWalk skbs size count mq).2.2 := by
  induction skbs generalizing size count mq with
  | nil => exact ⟨[], [], rfl, rfl, rfl, ⟨rfl, rfl, rfl⟩⟩
  | cons pfirst rest ih =>
    simp only [enqPrependWalk]
    split
    · next fits =>
        subst room
        have put : mq.putIgnored .skbq pfirst .head =
            { mq with
              skbqSize := mq.skbqSize + pfirst.len
              skbq := mq.skbq.insert pfirst .head } := by
          simp only [putIgnored, put, if_pos fits, Option.getD_some]
        obtain ⟨_, -, same, space⟩ := put_of_le_space fits .head
        obtain ⟨taken, left, rfl, leftOver, queued, others⟩ :=
          ih (mq.space - pfirst.len) (count + pfirst.len)
            (mq.putIgnored .skbq pfirst .head) (by rw [same, space])
        refine ⟨pfirst :: taken, left, rfl, leftOver, ?_, ?_⟩
        · rw [queued, put, List.reverse_cons, List.append_assoc]
          rfl
        · refine ⟨others.pending.trans ?_, others.freed.trans ?_, others.reported.trans ?_⟩ <;>
            rw [put]
    · exact ⟨[], pfirst :: rest, rfl, rfl, rfl, ⟨rfl, rfl, rfl⟩⟩

theorem enqPrepend_lists (mq : Skbq) (skbs : List SkBuff) :
    ∃ requeued, skbs = (mq.enqPrepend skbs).1 ++ requeued ∧
      (mq.enqPrepend skbs).2.2.skbq.skbs = requeued ++ mq.skbq.skbs ∧
      SameOthers mq (mq.enqPrepend skbs).2.2 := by
  obtain ⟨taken, left, split, leftOver, queued, others⟩ :=
    enqPrependWalk_lists skbs.reverse mq.space 0 mq rfl
  refine ⟨taken.reverse, ?_, queued, others⟩
  have reversed := congrArg List.reverse split
  rw [List.reverse_reverse, List.reverse_append] at reversed
  rw [enqPrepend, leftOver]
  exact reversed

/-- Whether a frame given to the chip waits for its status. -/
def awaitsStatus (driver : Driver) (skb : SkBuff) : Bool :=
  match skb.channel with
  | .beacon => driver.fwReportsBcnTxStatus
  | .loopback => false
  | .wiphy => false
  | _ => decide (skb.flags &&& txStatusFlagsNoReport = 0)

/-- The frame as it waits for its status. -/
def stamped (driver : Driver) (jiffies : BitVec 64) (skb : SkBuff) : SkBuff :=
  { skb with txStatusExpiry := jiffies + driver.txStatusLifetime }

theorem txCompleteOne_eq (driver : Driver) (jiffies : BitVec 64) (mq : Skbq) (skb : SkBuff) :
    txCompleteOne driver jiffies mq skb =
      if awaitsStatus driver skb then
        { mq with pending := mq.pending.insert (stamped driver jiffies skb) .tail }
      else mq.free skb := by
  cases channel : skb.channel <;>
    simp only [txCompleteOne, awaitsStatus, channel, decide_eq_true_eq, ne_eq, ite_not,
      Bool.false_eq_true, if_false]
  all_goals rfl

theorem txComplete_lists (driver : Driver) (jiffies : BitVec 64) (mq : Skbq) (skbs : List SkBuff) :
    (mq.txComplete driver jiffies skbs).skbq = mq.skbq ∧
      (mq.txComplete driver jiffies skbs).pending.skbs =
        mq.pending.skbs ++ (skbs.filter (awaitsStatus driver)).map (stamped driver jiffies) ∧
      (mq.txComplete driver jiffies skbs).freed =
        mq.freed ++ skbs.filter (fun skb => !awaitsStatus driver skb) ∧
      (mq.txComplete driver jiffies skbs).reported = mq.reported := by
  induction skbs generalizing mq with
  | nil => simp [txComplete]
  | cons skb rest ih =>
    have step : mq.txComplete driver jiffies (skb :: rest) =
        (txCompleteOne driver jiffies mq skb).txComplete driver jiffies rest := rfl
    obtain ⟨skbq, pending, freed, reported⟩ :=
      ih (txCompleteOne driver jiffies mq skb)
    rw [step, skbq, pending, freed, reported, txCompleteOne_eq]
    cases awaits : awaitsStatus driver skb with
    | true => simp [awaits, SkBuffHead.insert]
    | false => simp [awaits, free]

end Skbq
end Morse
