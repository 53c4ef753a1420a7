import Mathlib.Data.Nat.Cast.Basic
import Morse.Skbq.Defs

/-!
# Accounting of a queue

A queue is consistent when its byte counter is the sum of the lengths on the
`skbq` list and no frame is in two places.  Every operation is a composition of
a few primitive moves; what a move or an operation does to the whereabouts of
the frames is said by one equation, `Conserves`, which composes.
-/

namespace Morse
namespace Skbq

open Lib

/-- The bytes of a list of frames. -/
def bytes (skbs : List SkBuff) : Nat := (skbs.map fun skb => skb.len.toNat).sum

@[simp] theorem bytes_nil : bytes [] = 0 := rfl

@[simp] theorem bytes_cons (skb : SkBuff) (skbs : List SkBuff) :
    bytes (skb :: skbs) = skb.len.toNat + bytes skbs := by
  simp [bytes]

@[simp] theorem bytes_append (first second : List SkBuff) :
    bytes (first ++ second) = bytes first + bytes second := by
  simp [bytes]

theorem bytes_congr (permutation : first.Perm second) :
    bytes first = bytes second :=
  (permutation.map _).sum_eq

/-- How often a frame is on a list of the queue or left it for good. -/
def tally (mq : Skbq) (address : Nat) : Nat :=
  keyCount SkBuff.address address mq.skbq.skbs +
    keyCount SkBuff.address address mq.pending.skbs +
    keyCount SkBuff.address address mq.freed +
    keyCount SkBuff.address address mq.reported

/-- The counters of a queue agree with its lists, the byte counter never
underflowed, and every frame is in one place at most. -/
structure Consistent (mq : Skbq) : Prop where
  size_eq : mq.skbqSize.toNat = bytes mq.skbq.skbs
  size_le : mq.skbqSize ≤ morseSkbqSize
  unwarned : mq.sizeWarned = false
  skbq_qlen : mq.skbq.qlen = BitVec.ofNat 32 mq.skbq.skbs.length
  pending_qlen : mq.pending.qlen = BitVec.ofNat 32 mq.pending.skbs.length
  single : ∀ address, mq.tally address ≤ 1

/-- An operation that is given some frames and gives others back, and accounts
for every frame in between. -/
structure Conserves (before after : Skbq) (given returned : List SkBuff) : Prop where
  consistent : after.Consistent
  balance : ∀ address,
    after.tally address + keyCount SkBuff.address address returned =
      before.tally address + keyCount SkBuff.address address given

/-- The parts of a queue that its accounting reads. -/
def accounts (mq : Skbq) : BitVec 32 × SkBuffHead × SkBuffHead × List SkBuff × List SkBuff × Bool :=
  (mq.skbqSize, mq.skbq, mq.pending, mq.freed, mq.reported, mq.sizeWarned)

variable {mq other : Skbq}

theorem tally_congr (same : other.accounts = mq.accounts) (address : Nat) :
    other.tally address = mq.tally address := by
  simp only [accounts, Prod.mk.injEq] at same
  simp only [tally, same]

theorem Consistent.congr (consistent : mq.Consistent) (same : other.accounts = mq.accounts) :
    other.Consistent := by
  have tallies := tally_congr same
  simp only [accounts, Prod.mk.injEq] at same
  obtain ⟨skbqSize, skbq, pending, -, -, sizeWarned⟩ := same
  refine ⟨?_, ?_, ?_, ?_, ?_, ?_⟩
  · rw [skbqSize, skbq, consistent.size_eq]
  · rw [skbqSize]
    exact consistent.size_le
  · rw [sizeWarned, consistent.unwarned]
  · rw [skbq, consistent.skbq_qlen]
  · rw [pending, consistent.pending_qlen]
  · intro address
    rw [tallies]
    exact consistent.single address

theorem Consistent.conserves (consistent : mq.Consistent) (skbs : List SkBuff) :
    Conserves mq mq skbs skbs :=
  ⟨consistent, fun _ => rfl⟩

theorem Conserves.perm (conserves : Conserves before after given returned)
    (sameGiven : given.Perm otherGiven) (sameReturned : returned.Perm otherReturned) :
    Conserves before after otherGiven otherReturned where
  consistent := conserves.consistent
  balance address := by
    rw [← keyCount_congr SkBuff.address sameGiven, ← keyCount_congr SkBuff.address sameReturned,
      conserves.balance]

theorem Conserves.rewritten (conserves : Conserves before after given returned)
    (sameGiven : given.map SkBuff.address = otherGiven.map SkBuff.address)
    (sameReturned : returned.map SkBuff.address = otherReturned.map SkBuff.address) :
    Conserves before after otherGiven otherReturned where
  consistent := conserves.consistent
  balance address := by
    have balance := conserves.balance address
    unfold keyCount at balance ⊢
    rw [← sameGiven, ← sameReturned, balance]

theorem Conserves.congr (conserves : Conserves before after given returned)
    (same : other.accounts = after.accounts) :
    Conserves before other given returned where
  consistent := conserves.consistent.congr same
  balance address := by rw [tally_congr same, conserves.balance]

theorem Conserves.trans (first : Conserves before middle firstGiven firstReturned)
    (second : Conserves middle after secondGiven secondReturned)
    (cancels : ∀ address,
      keyCount SkBuff.address address returned + keyCount SkBuff.address address firstGiven +
          keyCount SkBuff.address address secondGiven =
        keyCount SkBuff.address address given + keyCount SkBuff.address address firstReturned +
          keyCount SkBuff.address address secondReturned) :
    Conserves before after given returned where
  consistent := second.consistent
  balance address := by
    have firstBalance := first.balance address
    have secondBalance := second.balance address
    have cancel := cancels address
    omega

/-- A frame that is in no place of the queue. -/
def Absent (mq : Skbq) (skb : SkBuff) : Prop := mq.tally skb.address = 0

/-- Frames that a caller holds: none of them is with the queue, none twice. -/
def Holds (mq : Skbq) (skbs : List SkBuff) : Prop :=
  ∀ address, mq.tally address + keyCount SkBuff.address address skbs ≤ 1

theorem Holds.head (holds : mq.Holds (skb :: skbs)) :
    mq.Absent skb := by
  have bound := holds skb.address
  rw [keyCount_cons, if_pos rfl] at bound
  unfold Absent
  omega

theorem Holds.tail (holds : before.Holds (skb :: skbs))
    (conserves : Conserves before after [skb] []) :
    after.Holds skbs := by
  intro address
  have bound := holds address
  have balance := conserves.balance address
  simp only [keyCount_cons, keyCount_nil] at bound balance
  omega

theorem Conserves.holds_returned (consistent : before.Consistent)
    (conserves : Conserves before after [] returned) :
    after.Holds returned := by
  intro address
  rw [conserves.balance, keyCount_nil]
  exact consistent.single address

/-! ## Primitive moves -/

theorem keyCount_skbq_le (consistent : mq.Consistent) (address : Nat) :
    keyCount SkBuff.address address mq.skbq.skbs ≤ 1 := by
  have single := consistent.single address
  unfold tally at single
  omega

theorem keyCount_pending_le (consistent : mq.Consistent) (address : Nat) :
    keyCount SkBuff.address address mq.pending.skbs ≤ 1 := by
  have single := consistent.single address
  unfold tally at single
  omega

theorem without_pending_of_mem_skbq (consistent : mq.Consistent) (member : skb ∈ mq.skbq.skbs) :
    mq.pending.without skb = mq.pending := by
  have single := consistent.single skb.address
  have occurs := keyCount_pos_of_mem SkBuff.address member
  unfold tally at single
  simp only [SkBuffHead.without]
  rw [removeKey_of_keyCount_eq_zero]
  omega

theorem without_skbq_of_mem_pending (consistent : mq.Consistent)
    (member : 0 < keyCount SkBuff.address skb.address mq.pending.skbs) :
    mq.skbq.without skb = mq.skbq := by
  have single := consistent.single skb.address
  unfold tally at single
  simp only [SkBuffHead.without]
  rw [removeKey_of_keyCount_eq_zero]
  omega

theorem ofNat_length_sub_one {skb : SkBuff} (permutation : (skb :: first).Perm second) :
    BitVec.ofNat 32 second.length - 1 = BitVec.ofNat 32 first.length := by
  rw [← permutation.length_eq, List.length_cons, BitVec.ofNat_add]
  exact BitVec.add_sub_cancel _ _

theorem unlink_skbq_conserves (consistent : mq.Consistent) (member : skb ∈ mq.skbq.skbs) :
    Conserves mq (mq.unlink .skbq skb) [] [skb] := by
  have permutation := perm_removeKey SkBuff.address member (keyCount_skbq_le consistent skb.address)
  have total := bytes_congr permutation
  have size := consistent.size_eq
  rw [bytes_cons] at total
  have fits : skb.len ≤ mq.skbqSize := by
    rw [BitVec.le_def]
    omega
  have balance (address : Nat) : (mq.unlink .skbq skb).tally address +
      keyCount SkBuff.address address [skb] = mq.tally address := by
    have moved := keyCount_congr SkBuff.address permutation address
    simp only [unlink, tally, without_pending_of_mem_skbq consistent member]
    simp only [SkBuffHead.without]
    rw [keyCount_cons] at moved ⊢
    rw [keyCount_nil]
    omega
  refine ⟨⟨?_, ?_, ?_, ?_, ?_, ?_⟩, balance⟩
  · simp only [unlink, SkBuffHead.without, if_pos fits]
    rw [BitVec.toNat_sub_of_le fits]
    omega
  · simp only [unlink, if_pos fits]
    have limit := consistent.size_le
    rw [BitVec.le_def] at limit ⊢
    rw [BitVec.toNat_sub_of_le fits]
    omega
  · simp only [unlink, consistent.unwarned, Bool.false_or, decide_eq_false_iff_not]
    exact BitVec.not_lt.mpr fits
  · simp only [unlink, SkBuffHead.without]
    rw [consistent.skbq_qlen, ofNat_length_sub_one permutation]
  · simp only [unlink, without_pending_of_mem_skbq consistent member]
    exact consistent.pending_qlen
  · intro address
    have single := consistent.single address
    have equation := balance address
    omega

theorem unlink_pending_conserves (consistent : mq.Consistent)
    (member : 0 < keyCount SkBuff.address skb.address mq.pending.skbs) :
    Conserves mq (mq.unlink .pending skb) [] [skb] := by
  obtain ⟨found, onList, sameAddress⟩ := List.mem_map.mp (List.count_pos_iff.mp member)
  have permutation := perm_removeKey SkBuff.address onList
    (keyCount_pending_le consistent found.address)
  rw [sameAddress] at permutation
  have balance (address : Nat) : (mq.unlink .pending skb).tally address +
      keyCount SkBuff.address address [skb] = mq.tally address := by
    have moved := keyCount_congr SkBuff.address permutation address
    simp only [unlink, tally, without_skbq_of_mem_pending consistent member]
    simp only [SkBuffHead.without]
    rw [keyCount_cons, sameAddress] at moved
    rw [keyCount_cons, keyCount_nil]
    omega
  refine ⟨⟨?_, ?_, ?_, ?_, ?_, ?_⟩, balance⟩
  · simp only [unlink, without_skbq_of_mem_pending consistent member]
    exact consistent.size_eq
  · exact consistent.size_le
  · exact consistent.unwarned
  · simp only [unlink, without_skbq_of_mem_pending consistent member]
    exact consistent.skbq_qlen
  · simp only [unlink, SkBuffHead.without]
    rw [consistent.pending_qlen, ofNat_length_sub_one permutation]
  · intro address
    have single := consistent.single address
    have equation := balance address
    omega

theorem Absent.single {mq after : Skbq} (absent : mq.Absent skb) (consistent : mq.Consistent)
    (balance : ∀ address, after.tally address =
      mq.tally address + keyCount SkBuff.address address [skb])
    (address : Nat) :
    after.tally address ≤ 1 := by
  rw [balance, keyCount_cons, keyCount_nil]
  split
  · next same =>
      rw [Absent, same] at absent
      omega
  · exact consistent.single address

theorem free_conserves (consistent : mq.Consistent) (absent : mq.Absent skb) :
    Conserves mq (mq.free skb) [skb] [] := by
  have balance (address : Nat) : (mq.free skb).tally address =
      mq.tally address + keyCount SkBuff.address address [skb] := by
    simp only [free, tally, keyCount_append]
    omega
  refine ⟨⟨consistent.size_eq, consistent.size_le, consistent.unwarned, consistent.skbq_qlen,
    consistent.pending_qlen, absent.single consistent balance⟩, balance⟩

theorem report_conserves (consistent : mq.Consistent) (absent : mq.Absent skb) :
    Conserves mq { mq with reported := mq.reported ++ [skb] } [skb] [] := by
  have balance (address : Nat) : tally { mq with reported := mq.reported ++ [skb] } address =
      mq.tally address + keyCount SkBuff.address address [skb] := by
    simp only [tally, keyCount_append]
    omega
  refine ⟨⟨consistent.size_eq, consistent.size_le, consistent.unwarned, consistent.skbq_qlen,
    consistent.pending_qlen, absent.single consistent balance⟩, balance⟩

theorem perm_insert (queue : SkBuffHead) (skb : SkBuff) (place : Place) :
    (queue.insert skb place).skbs.Perm (skb :: queue.skbs) := by
  cases place with
  | before other => exact perm_insertBefore SkBuff.address other.address skb queue.skbs
  | head => exact .refl _
  | tail => exact List.perm_append_singleton skb queue.skbs

@[simp] theorem insert_qlen (queue : SkBuffHead) (skb : SkBuff) (place : Place) :
    (queue.insert skb place).qlen = queue.qlen + 1 := by
  cases place <;> rfl

theorem insert_qlen_eq {queue : SkBuffHead}
    (length : queue.qlen = BitVec.ofNat 32 queue.skbs.length) (skb : SkBuff) (place : Place) :
    (queue.insert skb place).qlen =
      BitVec.ofNat 32 (queue.insert skb place).skbs.length := by
  rw [insert_qlen, (perm_insert queue skb place).length_eq, List.length_cons, length,
    BitVec.ofNat_add]
  rfl

theorem toNat_space (consistent : mq.Consistent) :
    mq.space.toNat = morseSkbqSize.toNat - mq.skbqSize.toNat :=
  BitVec.toNat_sub_of_le consistent.size_le

theorem put_skbq_conserves (consistent : mq.Consistent) (absent : mq.Absent skb)
    (accepted : mq.put .skbq skb place = some after) :
    Conserves mq after [skb] [] := by
  simp only [put, Option.ite_none_right_eq_some, Option.some.injEq] at accepted
  obtain ⟨room, rfl⟩ := accepted
  have permutation := perm_insert mq.skbq skb place
  have total := bytes_congr permutation
  have size := consistent.size_eq
  have limit := consistent.size_le
  have space := toNat_space consistent
  rw [bytes_cons] at total
  rw [BitVec.le_def] at room limit
  have sum : (mq.skbqSize + skb.len).toNat = mq.skbqSize.toNat + skb.len.toNat := by
    rw [BitVec.toNat_add]
    omega
  have balance (address : Nat) :
      tally { mq with
        skbqSize := mq.skbqSize + skb.len
        skbq := mq.skbq.insert skb place } address =
      mq.tally address + keyCount SkBuff.address address [skb] := by
    have moved := keyCount_congr SkBuff.address permutation address
    simp only [tally, moved, keyCount_cons, keyCount_nil]
    omega
  refine ⟨⟨?_, ?_, consistent.unwarned, ?_, consistent.pending_qlen,
    absent.single consistent balance⟩, balance⟩
  · change (mq.skbqSize + skb.len).toNat = bytes (mq.skbq.insert skb place).skbs
    omega
  · change mq.skbqSize + skb.len ≤ morseSkbqSize
    rw [BitVec.le_def]
    omega
  · exact insert_qlen_eq consistent.skbq_qlen skb place

theorem put_pending_conserves (consistent : mq.Consistent) (absent : mq.Absent skb) :
    Conserves mq (mq.putIgnored .pending skb place) [skb] [] := by
  have permutation := perm_insert mq.pending skb place
  have balance (address : Nat) : (mq.putIgnored .pending skb place).tally address =
      mq.tally address + keyCount SkBuff.address address [skb] := by
    have moved := keyCount_congr SkBuff.address permutation address
    simp only [putIgnored, put, Option.getD_some, tally, moved, keyCount_cons, keyCount_nil]
    omega
  refine ⟨⟨consistent.size_eq, consistent.size_le, consistent.unwarned, consistent.skbq_qlen,
    insert_qlen_eq consistent.pending_qlen skb place, absent.single consistent balance⟩, balance⟩

end Skbq
end Morse
