import Morse.Skbq.Moves

/-!
# Frames that waited too long

Probe and authentication frames are dropped from a queue once they waited for longer than
their lifetime.  The time is kept in the frame, in 32 bits of a clock that wraps and with
zero for frames that do not expire, and the queue is walked from its head up to the first
frame that is not to be dropped.
-/

namespace Morse
namespace Skbq

/-! ## Frames and their times -/

/-- Probe requests, probe responses and authentication frames expire. -/
def expires (frameControl : BitVec 16) : Bool :=
  decide (frameControl &&& 0x00fc = 0x0040) || decide (frameControl &&& 0x00fc = 0x0050) ||
    decide (frameControl &&& 0x00fc = 0x00b0)

/-- `set_queued_tx_skb_expiry`. -/
def setQueuedTxSkbExpiry (frameControl : BitVec 16) (jiffies : BitVec 64) (skb : SkBuff) :
    SkBuff :=
  { skb with enqueueTime := if expires frameControl then jiffies.setWidth 32 else 0 }

/-- A frame that was sent at a time, which is counted without an end. -/
structure SentFrame where
  skb : SkBuff
  frameControl : BitVec 16
  sent : Nat

/-- The frame as it is queued. -/
def SentFrame.queued (frame : SentFrame) : SkBuff :=
  setQueuedTxSkbExpiry frame.frameControl (BitVec.ofNat 64 frame.sent) frame.skb

/-- The expiry time of the frame has passed. -/
def SentFrame.Passed (driver : Driver) (now : Nat) (frame : SentFrame) : Prop :=
  expires frame.frameControl = true ∧ frame.sent + driver.txQueuedLifetime.toNat < now

instance (driver : Driver) (now : Nat) (frame : SentFrame) : Decidable (frame.Passed driver now) :=
  inferInstanceAs (Decidable (_ ∧ _))

/-- The frame reads as one that has expired. -/
def SentFrame.reads (driver : Driver) (now : Nat) (frame : SentFrame) : Bool :=
  hasQueuedTxSkbExpired driver (BitVec.ofNat 64 now) frame.queued

/-- The queue with these frames. -/
def holding (mq : Skbq) (frames : List SentFrame) : Skbq :=
  { mq with skbq := { mq.skbq with skbs := frames.map SentFrame.queued } }

/-- Dropping aged frames leaves those whose expiry time has not passed, in their order, and
a byte counter that was right stays so. -/
def PurgesAged (driver : Driver) (now : Nat) (mq : Skbq) (frames : List SentFrame) : Prop :=
  ((mq.holding frames).purgeAged driver (BitVec.ofNat 64 now)).skbq.skbs =
      (frames.filter fun frame => !decide (frame.Passed driver now)).map SentFrame.queued ∧
    ((mq.holding frames).skbqSize.toNat = bytes (mq.holding frames).skbq.skbs →
      ((mq.holding frames).purgeAged driver (BitVec.ofNat 64 now)).skbqSize.toNat =
        bytes ((mq.holding frames).purgeAged driver (BitVec.ofNat 64 now)).skbq.skbs)

/-- The frames whose expiry time has passed come first, all of them read so, and the frame
behind them does not. -/
def AgedFirst (driver : Driver) (now : Nat) (frames : List SentFrame) : Prop :=
  ∃ aged others, frames = aged ++ others ∧
    (∀ frame ∈ aged, frame.Passed driver now ∧ frame.reads driver now = true) ∧
    (∀ frame ∈ others, ¬ frame.Passed driver now) ∧
    ∀ frame ∈ others.head?, frame.reads driver now = false

/-! ## The walk -/

variable {driver : Driver} {jiffies : BitVec 64} {now : Nat} {walk : List SkBuff} {mq : Skbq}

theorem skbs_purgeAgedWalk (onList : mq.skbq.skbs = walk) :
    (purgeAgedWalk driver jiffies walk mq).skbq.skbs =
      walk.dropWhile (hasQueuedTxSkbExpired driver jiffies) := by
  induction walk generalizing mq with
  | nil => exact onList
  | cons pfirst rest ih =>
    rw [purgeAgedWalk, List.dropWhile_cons]
    cases reads : hasQueuedTxSkbExpired driver jiffies pfirst with
    | false => exact onList
    | true =>
      apply ih
      exact list_unlink_of_head .skbq onList

theorem skbqSize_purgeAgedWalk (onList : mq.skbq.skbs = walk)
    (counted : mq.skbqSize.toNat = bytes walk) :
    (purgeAgedWalk driver jiffies walk mq).skbqSize.toNat =
      bytes (purgeAgedWalk driver jiffies walk mq).skbq.skbs := by
  induction walk generalizing mq with
  | nil =>
    rw [purgeAgedWalk, onList]
    exact counted
  | cons pfirst rest ih =>
    rw [purgeAgedWalk]
    cases reads : hasQueuedTxSkbExpired driver jiffies pfirst with
    | false =>
      rw [Bool.not_false, if_pos rfl, onList]
      exact counted
    | true =>
      rw [bytes_cons] at counted
      apply ih
      · exact list_unlink_of_head .skbq onList
      · have fits : pfirst.len ≤ mq.skbqSize := by
          rw [BitVec.le_def]
          omega
        show (mq.skbqSize - if pfirst.len ≤ mq.skbqSize then pfirst.len else
          mq.skbqSize).toNat = bytes rest
        rw [if_pos fits, BitVec.toNat_sub_of_le fits]
        omega

/-! ## Frames that come first -/

theorem agedFirst_nil : AgedFirst driver now [] := by
  refine ⟨[], [], rfl, ?_, ?_, ?_⟩
  · intro frame member
    cases member
  · intro frame member
    cases member
  · intro frame member
    cases member

theorem agedFirst_cons (frame : SentFrame) (rest : List SentFrame) :
    AgedFirst driver now (frame :: rest) ↔
      if frame.reads driver now then frame.Passed driver now ∧ AgedFirst driver now rest
      else ∀ other ∈ frame :: rest, ¬ other.Passed driver now := by
  constructor
  · rintro ⟨aged, others, split, passed, kept, head⟩
    cases aged with
    | nil =>
      rw [List.nil_append] at split
      rw [← split] at kept head
      rw [head frame rfl]
      exact kept
    | cons first aged =>
      obtain ⟨rfl, rfl⟩ := List.cons.inj split
      obtain ⟨⟨own, reads⟩, later⟩ := List.forall_mem_cons.mp passed
      rw [reads]
      exact ⟨own, aged, others, rfl, later, kept, head⟩
  · intro either
    cases reads : frame.reads driver now with
    | true =>
      rw [reads] at either
      obtain ⟨own, aged, others, rfl, passed, kept, head⟩ := either
      exact ⟨frame :: aged, others, rfl, List.forall_mem_cons.mpr ⟨⟨own, reads⟩, passed⟩, kept,
        head⟩
    | false =>
      rw [reads] at either
      refine ⟨[], frame :: rest, rfl, ?_, either, ?_⟩
      · intro other member
        cases member
      · intro other member
        cases member
        exact reads

theorem dropWhile_eq_filter_iff (frames : List SentFrame) :
    (frames.map SentFrame.queued).dropWhile
          (hasQueuedTxSkbExpired driver (BitVec.ofNat 64 now)) =
        (frames.filter fun frame => !decide (frame.Passed driver now)).map SentFrame.queued ↔
      AgedFirst driver now frames := by
  induction frames with
  | nil => exact iff_of_true rfl agedFirst_nil
  | cons frame rest ih =>
    rw [agedFirst_cons, List.map_cons, List.dropWhile_cons]
    cases reads : frame.reads driver now with
    | true =>
      have first : hasQueuedTxSkbExpired driver (BitVec.ofNat 64 now) frame.queued = true :=
        reads
      rw [first, if_pos rfl]
      by_cases passed : frame.Passed driver now
      · rw [List.filter_cons_of_neg (by simp only [passed, decide_true, Bool.not_true,
          Bool.false_eq_true, not_false_eq_true]), ih]
        exact (and_iff_right passed).symm
      · rw [List.filter_cons_of_pos (by simp only [passed, decide_false, Bool.not_false])]
        refine iff_of_false ?_ fun both => passed both.1
        intro same
        have stays := List.head?_dropWhile_not
          (hasQueuedTxSkbExpired driver (BitVec.ofNat 64 now)) (rest.map SentFrame.queued)
        rw [same] at stays
        have plain : hasQueuedTxSkbExpired driver (BitVec.ofNat 64 now) frame.queued = false :=
          stays
        rw [first] at plain
        cases plain
    | false =>
      have first : hasQueuedTxSkbExpired driver (BitVec.ofNat 64 now) frame.queued = false :=
        reads
      rw [first, if_neg Bool.false_ne_true]
      constructor
      · intro same
        have length := congrArg List.length same
        rw [List.length_cons, List.length_map, List.length_map] at length
        have all : (frame :: rest).filter (fun frame => !decide (frame.Passed driver now)) =
            frame :: rest :=
          List.filter_sublist.eq_of_length (by exact length.symm)
        intro other member
        have kept := List.filter_eq_self.mp all other member
        simpa only [Bool.not_eq_true', decide_eq_false_iff_not] using kept
      · intro none
        have all : (frame :: rest).filter (fun frame => !decide (frame.Passed driver now)) =
            frame :: rest := by
          rw [List.filter_eq_self]
          intro other member
          simp only [none other member, decide_false, Bool.not_false]
        rw [all, List.map_cons]

/-- Aged frames are dropped, and only these, if and only if they come first in the queue
and read so. -/
theorem purgesAged_iff (driver : Driver) (now : Nat) (mq : Skbq) (frames : List SentFrame) :
    PurgesAged driver now mq frames ↔ AgedFirst driver now frames := by
  have counter : (mq.holding frames).skbqSize.toNat = bytes (mq.holding frames).skbq.skbs →
      ((mq.holding frames).purgeAged driver (BitVec.ofNat 64 now)).skbqSize.toNat =
        bytes ((mq.holding frames).purgeAged driver (BitVec.ofNat 64 now)).skbq.skbs := by
    intro counted
    exact skbqSize_purgeAgedWalk rfl counted
  rw [PurgesAged, and_iff_left counter, purgeAged, skbs_purgeAgedWalk rfl,
    ← dropWhile_eq_filter_iff]
  rfl

/-! ## How an expired frame reads -/

/-! ## A frame behind another -/

/-- Two frames sent at once, an action frame and a probe request. -/
def mixedFrames : List SentFrame :=
  [⟨⟨0, 100, .mgmt, 0, 0, 0, 0⟩, 0x00d0, 500⟩, ⟨⟨1, 60, .mgmt, 0, 1, 0, 0⟩, 0x0040, 500⟩]

/-- A probe request stays in the queue after its time, behind a frame that does not
expire. -/
theorem not_purgesAged_mixed :
    ¬ PurgesAged ⟨false, false, false, 250, 1000⟩ 1000 (init (.toChip .mgmt)) mixedFrames := by
  rintro ⟨left, -⟩
  have walked : ((((init (.toChip .mgmt)).holding mixedFrames).purgeAged
      ⟨false, false, false, 250, 1000⟩ (BitVec.ofNat 64 1000)).skbq.skbs).length = 2 := by
    decide +kernel
  rw [left] at walked
  cases walked

end Skbq
end Morse
