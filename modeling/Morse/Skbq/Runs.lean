import Mathlib.Data.List.Count
import Mathlib.Data.List.Perm.Subperm
import Morse.Lib.Transition
import Morse.Skbq.Statuses

/-!
# Runs of a queue

A queue is run by callers that allocate frames, hold them, give them to the
queue and take them from it.  One step is one operation under the queue's
lock; statuses are handled one by one, as the lock is taken for each.
-/

namespace Morse
namespace Skbq

open Lib

/-- A queue, the frames that callers hold by their addresses, and all frames
that were ever allocated. -/
structure System where
  mq : Skbq
  held : List Nat
  allocated : List Nat
  deriving DecidableEq, Repr

/-- `morse_skbq_init`, with no frame allocated yet. -/
def System.init (kind : QueueKind) : System where
  mq := .init kind
  held := []
  allocated := []

/-- The operations on a queue and the life of frames outside of it. -/
inductive Operation
  | alloc (skb : SkBuff)
  | kfree (skb : SkBuff)
  | put (skb : SkBuff)
  | skbTx (skb : SkBuff) (gate : Option Errno) (padded : Bool)
  | unlink (queue : ListName) (skb : SkBuff)
  | enq (skbs : List SkBuff)
  | deqNumItems (numItems : Int)
  | enqPrepend (skbs : List SkBuff)
  | insertPending (skb : SkBuff) (insertionId : BitVec 32)
  | cmdFinish (skb : SkBuff)
  | purgeAged (jiffies : BitVec 64)
  | purgePending
  | txComplete (jiffies : BitVec 64) (skbs : List SkBuff)
  | txStatus (jiffies : BitVec 64) (txSts : TxStatus)
  | checkForStaleTx (jiffies : BitVec 64)
  | txFlush
  | finish

namespace System

/-- Callers give the queue frames that they hold and hold what it returns; an
operation is refused to callers that do not hold what they give. -/
def exchange (system : System) (given returned : List SkBuff) (after : Skbq) : Option System :=
  if (given.map SkBuff.address).Subperm system.held then
    some { system with
      mq := after
      held := returned.map SkBuff.address ++ system.held.diff (given.map SkBuff.address) }
  else none

/-- One operation.  A frame can be unlinked or put back from the list it is on
only; `cmdFinish`, of command queues, asks nothing of its caller and takes the
frame out of whatever list it is on. -/
def step (driver : Driver) (system : System) : Operation → Option System
  | .alloc skb =>
    if skb.address ∈ system.allocated then none
    else some { system with
      held := skb.address :: system.held
      allocated := skb.address :: system.allocated }
  | .kfree skb => system.exchange [skb] [] (system.mq.free skb)
  | .put skb =>
    system.exchange [skb] (if (system.mq.skbqPut skb).1 = none then [] else [skb])
      (system.mq.skbqPut skb).2
  | .skbTx skb gate padded => system.exchange [skb] [] (system.mq.skbTx skb gate padded).2
  | .unlink queue skb =>
    if skb ∈ (system.mq.list queue).skbs then
      system.exchange [] [skb] (system.mq.unlink queue skb)
    else none
  | .enq skbs => system.exchange skbs (system.mq.enq skbs).1 (system.mq.enq skbs).2.2
  | .deqNumItems numItems =>
    system.exchange [] (system.mq.deqNumItems numItems).1 (system.mq.deqNumItems numItems).2.2
  | .enqPrepend skbs =>
    system.exchange skbs (system.mq.enqPrepend skbs).1 (system.mq.enqPrepend skbs).2.2
  | .insertPending skb insertionId =>
    if skb ∈ system.mq.pending.skbs then
      system.exchange [] [] (system.mq.insertPendingSkbToSkbq skb insertionId)
    else none
  | .cmdFinish skb =>
    if system.mq.kind = .command then
      some { system with
        mq := system.mq.cmdFinish skb
        held :=
          if 0 < system.mq.pending.qlen ∨ 0 < system.mq.skbq.qlen then
            system.held.erase skb.address
          else system.held }
    else none
  | .purgeAged jiffies => system.exchange [] [] (system.mq.purgeAged driver jiffies)
  | .purgePending => system.exchange [] [] (system.mq.purge .pending).2
  | .txComplete jiffies skbs =>
    system.exchange skbs [] (txComplete driver jiffies system.mq skbs)
  | .txStatus jiffies txSts =>
    system.exchange [] [] (txStatusOne driver jiffies system.mq txSts)
  | .checkForStaleTx jiffies => system.exchange [] [] (system.mq.checkForStaleTx jiffies).2
  | .txFlush => system.exchange [] [] system.mq.txFlush.2
  | .finish => system.exchange [] [] system.mq.finish

/-- Every frame of the queue is where it should be: the byte counter is the sum
of the lengths on the `skbq` list, within the limit and never underflowed, and
every frame that no caller holds and that has not left for good is on exactly
one of the two lists. -/
structure Accounted (system : System) : Prop where
  size_eq : system.mq.skbqSize.toNat = bytes system.mq.skbq.skbs
  size_le : system.mq.skbqSize ≤ morseSkbqSize
  unwarned : system.mq.sizeWarned = false
  one_list : ∀ address ∈ system.allocated, address ∉ system.held →
    keyCount SkBuff.address address system.mq.freed = 0 →
    keyCount SkBuff.address address system.mq.reported = 0 →
      keyCount SkBuff.address address system.mq.skbq.skbs +
        keyCount SkBuff.address address system.mq.pending.skbs = 1

/-- What every operation keeps: the queue is consistent, and every allocated
frame is in exactly one place. -/
structure Kept (system : System) : Prop where
  consistent : system.mq.Consistent
  located : ∀ address,
    system.mq.tally address + system.held.count address = system.allocated.count address
  distinct : ∀ address, system.allocated.count address ≤ 1

theorem Kept.accounted {system : System} (kept : system.Kept) : system.Accounted where
  size_eq := kept.consistent.size_eq
  size_le := kept.consistent.size_le
  unwarned := kept.consistent.unwarned
  one_list := by
    intro address allocated notHeld notFreed notReported
    have located := kept.located address
    have once := kept.distinct address
    have occurs := List.count_pos_iff.mpr allocated
    rw [List.count_eq_zero.mpr notHeld] at located
    unfold tally at located
    omega

theorem kept_init (kind : QueueKind) : (System.init kind).Kept where
  consistent :=
    { size_eq := rfl
      size_le := Nat.zero_le _
      unwarned := rfl
      skbq_qlen := rfl
      pending_qlen := rfl
      single := fun _ => Nat.zero_le _ }
  located := fun _ => rfl
  distinct := fun _ => Nat.zero_le _

theorem Kept.holds {system : System} (kept : system.Kept)
    (held : (given.map SkBuff.address).Subperm system.held) :
    system.mq.Holds given := by
  intro address
  have located := kept.located address
  have once := kept.distinct address
  have enough : keyCount SkBuff.address address given ≤ system.held.count address :=
    held.count_le address
  omega

theorem Kept.exchange {system next : System} (kept : system.Kept)
    (conserves : system.mq.Holds given → Conserves system.mq after given returned)
    (taken : system.exchange given returned after = some next) :
    next.Kept := by
  simp only [System.exchange, Option.ite_none_right_eq_some, Option.some.injEq] at taken
  obtain ⟨held, rfl⟩ := taken
  have conserves := conserves (kept.holds held)
  refine ⟨conserves.consistent, ?_, kept.distinct⟩
  intro address
  have balance := conserves.balance address
  have located := kept.located address
  have enough := held.count_le address
  simp only [List.count_append, List.count_diff]
  unfold keyCount at balance
  omega

/-- A frame is with the queue under the given condition: what a status puts
back fits, and a command is finished where the queue looks for it. -/
def Guard (driver : Driver) (system : System) : Operation → Prop
  | .insertPending skb _ => skb.len ≤ system.mq.space
  | .txStatus _ txSts => StatusFits driver system.mq txSts
  | .cmdFinish skb =>
    if 0 < system.mq.pending.qlen then
      skb.address ∈ system.mq.pending.skbs.map SkBuff.address
    else 0 < system.mq.skbq.qlen → skb ∈ system.mq.skbq.skbs
  | _ => True

instance (driver : Driver) (system : System) (operation : Operation) :
    Decidable (Guard driver system operation) := by
  cases operation <;> unfold Guard <;> infer_instance

theorem Kept.cmdFinish (kept : system.Kept) (present : Guard driver system (.cmdFinish skb))
    (taken : step driver system (.cmdFinish skb) = some next) :
    next.Kept := by
  simp only [System.step, Option.ite_none_right_eq_some, Option.some.injEq] at taken
  simp only [Guard] at present
  have conserves : Conserves system.mq (system.mq.cmdFinish skb) [] [] := by
    unfold Skbq.cmdFinish
    split
    · next waiting =>
        rw [if_pos waiting] at present
        have unlinked :=
          unlink_pending_conserves kept.consistent (List.count_pos_iff.mpr present)
        exact unlinked.trans (free_conserves unlinked.consistent
          (unlinked.holds_returned kept.consistent).head) fun _ => rfl
    · next empty =>
        rw [if_neg empty] at present
        split
        · next queued =>
            exact unlink_free_conserves .skbq kept.consistent (present queued)
        · exact kept.consistent.conserves []
  have notHeld (onList : 0 < system.mq.pending.qlen ∨ 0 < system.mq.skbq.qlen) :
      skb.address ∉ system.held := by
    have located := kept.located skb.address
    have once := kept.distinct skb.address
    have somewhere : 0 < system.mq.tally skb.address := by
      unfold tally
      split at present
      · have occurs : 0 < keyCount SkBuff.address skb.address system.mq.pending.skbs :=
          List.count_pos_iff.mpr present
        omega
      · next empty =>
          have occurs := keyCount_pos_of_mem SkBuff.address
            (present (onList.resolve_left empty))
          omega
    apply List.count_eq_zero.mp
    omega
  obtain ⟨-, rfl⟩ := taken
  refine ⟨conserves.consistent, ?_, kept.distinct⟩
  intro address
  have balance := conserves.balance address
  rw [keyCount_nil, Nat.add_zero] at balance
  rw [balance]
  split
  · next onList =>
      rw [List.erase_of_not_mem (notHeld onList)]
      exact kept.located address
  · exact kept.located address

theorem Kept.step (kept : system.Kept) (guard : Guard driver system operation)
    (taken : step driver system operation = some next) :
    next.Kept := by
  have consistent := kept.consistent
  cases operation with
  | alloc skb =>
    simp only [System.step, Option.ite_none_left_eq_some, Option.some.injEq] at taken
    obtain ⟨fresh, rfl⟩ := taken
    have absent := List.count_eq_zero.mpr fresh
    refine ⟨consistent, ?_, ?_⟩
    · intro address
      have located := kept.located address
      simp only [List.count_cons]
      omega
    · intro address
      have once := kept.distinct address
      rw [List.count_cons]
      split
      · next same =>
          rw [eq_of_beq same] at absent
          omega
      · exact once
  | kfree skb => exact kept.exchange (fun holds => free_conserves consistent holds.head) taken
  | put skb => exact kept.exchange (fun holds => skbqPut_conserves consistent holds.head) taken
  | skbTx skb gate padded =>
    exact kept.exchange (fun holds => skbTx_conserves consistent holds.head) taken
  | unlink queue skb =>
    simp only [System.step, Option.ite_none_right_eq_some] at taken
    refine kept.exchange (fun _ => ?_) taken.2
    cases queue with
    | skbq => exact unlink_skbq_conserves consistent taken.1
    | pending => exact unlink_pending_conserves consistent (keyCount_pos_of_mem _ taken.1)
  | enq skbs => exact kept.exchange (enq_conserves consistent) taken
  | deqNumItems numItems =>
    exact kept.exchange (fun _ => deqNumItems_conserves consistent numItems) taken
  | enqPrepend skbs => exact kept.exchange (enqPrepend_conserves consistent) taken
  | insertPending skb insertionId =>
    simp only [System.step, Option.ite_none_right_eq_some] at taken
    exact kept.exchange
      (fun _ => insertPendingSkbToSkbq_conserves consistent taken.1 guard insertionId) taken.2
  | cmdFinish skb => exact kept.cmdFinish guard taken
  | purgeAged jiffies =>
    exact kept.exchange (fun _ => purgeAged_conserves consistent driver jiffies) taken
  | purgePending => exact kept.exchange (fun _ => purge_pending_conserves consistent) taken
  | txComplete jiffies skbs => exact kept.exchange (txComplete_conserves consistent) taken
  | txStatus jiffies txSts =>
    exact kept.exchange (fun _ => txStatusOne_conserves consistent guard) taken
  | checkForStaleTx jiffies =>
    exact kept.exchange (fun _ => checkForStaleTx_conserves consistent jiffies) taken
  | txFlush => exact kept.exchange (fun _ => txFlush_conserves consistent) taken
  | finish => exact kept.exchange (fun _ => finish_conserves consistent) taken

theorem kept_of_reaches {kind : QueueKind}
    (reaches : Reaches (step driver) (Guard driver) (System.init kind) system) :
    system.Kept :=
  reaches.invariant (kept_init kind) Kept.step

/-- In every run whose steps meet their condition, every frame is accounted for
in every state reached. -/
theorem accounted_of_reaches (driver : Driver) (kind : QueueKind) (system : System)
    (reaches : Reaches (step driver) (Guard driver) (System.init kind) system) :
    system.Accounted :=
  (kept_of_reaches reaches).accounted

/-- The driver with its default lifetimes, at a hundred jiffies a second. -/
def defaultDriver : Driver where
  fullmac := false
  monitorMode := false
  fwReportsBcnTxStatus := false
  txQueuedLifetime := 100
  txStatusLifetime := 1500

/-- A frame of `len` octets for a channel. -/
def plainSkb (channel : Channel) (address : Nat) (len : BitVec 32) : SkBuff where
  address := address
  len := len
  channel := channel
  flags := 0
  pktId := 0
  enqueueTime := 0
  txStatusExpiry := 0

theorem accounted_of_reaches_finishedCommand :
    ∃ system, Reaches (step defaultDriver) (Guard defaultDriver) (System.init .command) system ∧
      system.mq.freed.length = 1 ∧ system.Accounted := by
  have reaches : Reaches (step defaultDriver) (Guard defaultDriver) (System.init .command) _ :=
    Reaches.of_run [.alloc (plainSkb .command 1 40), .skbTx (plainSkb .command 1 40) none true,
      .deqNumItems 16, .txComplete 0 [plainSkb .command 1 40], .cmdFinish (plainSkb .command 1 40)]
    ⟨trivial, trivial, trivial, trivial, by decide, trivial⟩ rfl
  exact ⟨_, reaches, rfl, accounted_of_reaches defaultDriver .command _ reaches⟩

/-- In every state reached, a frame that was allocated is in exactly one place: with a caller, on a
list of the queue, with mac80211 or freed; and nothing else is anywhere. -/
theorem once_of_reaches (driver : Driver) (kind : QueueKind) (system : System)
    (reaches : Reaches (step driver) (Guard driver) (System.init kind) system) (address : Nat) :
    system.held.count address + keyCount SkBuff.address address system.mq.skbq.skbs +
      keyCount SkBuff.address address system.mq.pending.skbs +
      keyCount SkBuff.address address system.mq.reported +
      keyCount SkBuff.address address system.mq.freed =
        if address ∈ system.allocated then 1 else 0 := by
  have kept := kept_of_reaches reaches
  have located := kept.located address
  have once := kept.distinct address
  unfold tally at located
  split
  · next known =>
      have occurs := List.count_pos_iff.mpr known
      omega
  · next unknown =>
      rw [List.count_eq_zero.mpr unknown] at located
      omega

/-- A command that was finished is freed, and nowhere else. -/
theorem once_of_reaches_finishedCommand :
    ∃ system, Reaches (step defaultDriver) (Guard defaultDriver) (System.init .command) system ∧
      system.held.count 1 + keyCount SkBuff.address 1 system.mq.skbq.skbs +
        keyCount SkBuff.address 1 system.mq.pending.skbs +
        keyCount SkBuff.address 1 system.mq.reported +
        keyCount SkBuff.address 1 system.mq.freed = if 1 ∈ system.allocated then 1 else 0 := by
  have reaches : Reaches (step defaultDriver) (Guard defaultDriver) (System.init .command) _ :=
    Reaches.of_run [.alloc (plainSkb .command 1 40), .skbTx (plainSkb .command 1 40) none true,
      .deqNumItems 16, .txComplete 0 [plainSkb .command 1 40], .cmdFinish (plainSkb .command 1 40)]
    ⟨trivial, trivial, trivial, trivial, by decide, trivial⟩ rfl
  exact ⟨_, reaches, once_of_reaches defaultDriver .command _ reaches 1⟩

/-- A command that times out while its frame is being written is not found when
it is finished, so that it awaits a response for good.  The next command is then
looked for on the pending list while it is still on the `skbq` list. -/
theorem not_accounted_of_lateCommand :
    ∃ system,
      run (step defaultDriver) (System.init .command)
        [.alloc (plainSkb .command 1 40), .skbTx (plainSkb .command 1 40) none true,
          .deqNumItems 16,
          .cmdFinish (plainSkb .command 1 40), .txComplete 0 [plainSkb .command 1 40],
          .alloc (plainSkb .command 2 60), .skbTx (plainSkb .command 2 60) none true,
          .cmdFinish (plainSkb .command 2 60)] = some system ∧
      system.mq.skbqSize = 60 ∧ system.mq.skbq.skbs = [] ∧ ¬ system.Accounted := by
  refine ⟨_, rfl, by decide, by decide, ?_⟩
  intro accounted
  exact absurd accounted.size_eq (by decide)

end System
end Skbq
end Morse
