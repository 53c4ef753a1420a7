import Morse.Pageset.Defs
import Morse.Skbq.Lists

/-!
# What becomes of dequeued frames

No more frames are dequeued than there are pages, and a page is counted only
when a frame was written, so that every frame dequeued is given a write.  The
frames then part by the result of their write.
-/

namespace Morse
namespace Pageset

open Lib

/-- The writes of frames one after another, each with its result, and the pages. -/
def attempts (env : TxEnv) :
    List SkBuff → Nat → Pages → List (SkBuff × Option Errno) × Pages
  | [], _, pages => ([], pages)
  | skb :: rest, index, pages =>
    let written := morsePagesetWrite (env.write index) skb
      (returnHandlers (env.returned index) pages)
    let others := attempts env rest (index + 1) written.2
    ((skb, written.1) :: others.1, others.2)

theorem attempts_map_fst (env : TxEnv) (skbs : List SkBuff) (index : Nat) (pages : Pages) :
    (attempts env skbs index pages).1.map Prod.fst = skbs := by
  induction skbs generalizing index pages with
  | nil => rfl
  | cons skb rest ih =>
    simp only [attempts, List.map_cons, ih]

/-- The frames whose write succeeded. -/
def written (outcomes : List (SkBuff × Option Errno)) : List SkBuff :=
  (outcomes.filter fun outcome => outcome.2.isNone).map Prod.fst

/-- The frames whose write failed. -/
def unwritten (outcomes : List (SkBuff × Option Errno)) : List SkBuff :=
  (outcomes.filter fun outcome => !outcome.2.isNone).map Prod.fst

theorem perm_written_unwritten (outcomes : List (SkBuff × Option Errno)) :
    (written outcomes ++ unwritten outcomes).Perm (outcomes.map Prod.fst) := by
  rw [written, unwritten, ← List.map_append]
  exact (List.filter_append_perm _ outcomes).map Prod.fst

theorem txWalk_eq_attempts (env : TxEnv) (skbs : List SkBuff) (index numPages : Nat) (pages : Pages)
    (enough : skbs.length ≤ numPages) :
    txWalk env skbs index numPages pages =
      (written (attempts env skbs index pages).1, unwritten (attempts env skbs index pages).1,
        (attempts env skbs index pages).2) := by
  induction skbs generalizing index numPages pages with
  | nil => rfl
  | cons skb rest ih =>
    rw [List.length_cons] at enough
    have more : numPages ≠ 0 := by omega
    simp only [txWalk, attempts, if_pos more]
    split
    · next success =>
        rw [ih _ _ _ (by omega), success]
        simp [written, unwritten]
    · next failure =>
        rw [ih _ _ _ (by omega), failure]
        simp [written, unwritten]

/-- What `morse_pageset_tx` takes off the queue, and the queue when it settles
these frames. -/
def txBefore (driver : Driver) (jiffies : BitVec 64) (queue : TxQueue)
    (meanwhile : Skbq → Skbq) (pages : Pages) (mq : Skbq) : List SkBuff × Skbq :=
  match mq.skbq.skbs with
  | [] => ([], mq)
  | skb :: _ =>
    let dequeued := txDequeue driver jiffies queue (morsePagesetNumPages skb pages) mq
    (dequeued.1, meanwhile dequeued.2)

/-- Every frame with a result is on one list: written ones wait for their status
or are freed, the others are freed. -/
structure Settles (driver : Driver) (jiffies : BitVec 64)
    (outcomes : List (SkBuff × Option Errno)) (before after : Skbq) : Prop where
  skbq : after.skbq = before.skbq
  pending : after.pending.skbs = before.pending.skbs ++
    ((written outcomes).filter (Skbq.awaitsStatus driver)).map (Skbq.stamped driver jiffies)
  freed : after.freed = before.freed ++ unwritten outcomes ++
    (written outcomes).filter (fun skb => !Skbq.awaitsStatus driver skb)
  reported : after.reported = before.reported

theorem txSettle_settles
    (driver : Driver) (jiffies : BitVec 64) (outcomes : List (SkBuff × Option Errno)) (mq : Skbq) :
    Settles driver jiffies outcomes mq
      (txSettle driver jiffies (written outcomes) (unwritten outcomes) mq) := by
  have completed (middle : Skbq) :
      (if written outcomes = [] then middle
        else middle.txComplete driver jiffies (written outcomes)) =
        middle.txComplete driver jiffies (written outcomes) := by
    split
    · next none => rw [none, Skbq.txComplete, List.foldl_nil]
    · rfl
  unfold txSettle
  rw [completed]
  obtain ⟨skbq, pending, freed, reported⟩ := Skbq.txComplete_lists driver jiffies
    { mq with freed := mq.freed ++ unwritten outcomes } (written outcomes)
  exact ⟨skbq, pending, freed, reported⟩

theorem txDequeue_fst
    (driver : Driver) (jiffies : BitVec 64) (queue : TxQueue) (numPages : Nat) (mq : Skbq) :
    (txDequeue driver jiffies queue numPages mq).1 =
      (txPurge driver jiffies queue mq).skbq.skbs.take numPages := by
  simp only [txDequeue]
  split
  · exact Skbq.deqWalk_fst numPages _ [] 0 _
  · next none => rw [Nat.eq_zero_of_not_pos none, List.take_zero]

theorem morsePagesetTx_eq (driver : Driver) (jiffies : BitVec 64) (env : TxEnv) (queue : TxQueue)
    (meanwhile : Skbq → Skbq) (pages : Pages) (mq : Skbq) :
    let before := txBefore driver jiffies queue meanwhile pages mq
    let outcomes := (attempts env before.1 0 pages).1
    morsePagesetTx driver jiffies env queue meanwhile pages mq =
      ((attempts env before.1 0 pages).2,
        txSettle driver jiffies (written outcomes) (unwritten outcomes) before.2) := by
  intro before outcomes
  cases waiting : mq.skbq.skbs with
  | nil =>
    have nothing : before = ([], mq) := by simp only [before, txBefore, waiting]
    simp [outcomes, nothing, morsePagesetTx, waiting, attempts, txSettle, written, unwritten]
  | cons skb rest =>
    have taken : before =
        ((txDequeue driver jiffies queue (morsePagesetNumPages skb pages) mq).1,
          meanwhile (txDequeue driver jiffies queue (morsePagesetNumPages skb pages) mq).2) := by
      simp only [before, txBefore, waiting]
    have enough : (txDequeue driver jiffies queue (morsePagesetNumPages skb pages) mq).1.length ≤
        morsePagesetNumPages skb pages := by
      rw [txDequeue_fst]
      exact List.length_take_le _ _
    simp only [outcomes, taken, morsePagesetTx, waiting,
      txWalk_eq_attempts env _ 0 _ pages enough]

/-- Every frame that `morse_pageset_tx` dequeues is given one write and settled
by the result, whatever the pages and the outcomes of the writes. -/
theorem morsePagesetTx_settles
    (driver : Driver) (jiffies : BitVec 64) (env : TxEnv) (queue : TxQueue)
    (meanwhile : Skbq → Skbq) (pages : Pages) (mq : Skbq) :
    let before := txBefore driver jiffies queue meanwhile pages mq
    let outcomes := (attempts env before.1 0 pages).1
    let after := morsePagesetTx driver jiffies env queue meanwhile pages mq
    before.1 <+: (txPurge driver jiffies queue mq).skbq.skbs ∧
      outcomes.map Prod.fst = before.1 ∧
      (written outcomes ++ unwritten outcomes).Perm before.1 ∧
      after.1 = (attempts env before.1 0 pages).2 ∧
      Settles driver jiffies outcomes before.2 after.2 := by
  intro before outcomes after
  have tried : outcomes.map Prod.fst = before.1 := attempts_map_fst env before.1 0 pages
  refine ⟨?_, tried, tried ▸ perm_written_unwritten outcomes, ?_⟩
  · simp only [before, txBefore]
    split
    · exact List.nil_prefix
    · rw [txDequeue_fst]
      exact List.take_prefix _ _
  · have exact : after = _ :=
      morsePagesetTx_eq driver jiffies env queue meanwhile pages mq
    rw [exact]
    exact ⟨rfl, txSettle_settles driver jiffies outcomes before.2⟩

end Pageset
end Morse
