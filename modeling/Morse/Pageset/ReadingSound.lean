import Morse.Pageset.Reading

/-!
# What a read does with its page

Every page that is popped goes back to the chip once, and every buffer is freed
or delivered once.  The value that a read returns is the answer of the return
pager wherever a page goes back, so that a lack of memory is reported only where
that fails too.
-/

namespace Morse
namespace Pageset

open Lib
open Skbq.Checksum (Octet)
open Yaps (BuffSkbHeader skbTrim)

/-! ## What is expected -/

/-- The header says that the page is the chip's already. -/
def ReadEnv.chipOwned (env : ReadEnv) : Bool :=
  env.allocates &&
    match env.readPage 0 with
    | .error _ => false
    | .ok data => data 0 == morseSkbHeaderChipOwnedSync

/-- The pages that a read has to give back: the one that was popped, unless it
is the chip's. -/
def ReadEnv.toReturn (env : ReadEnv) : List (BitVec 32) :=
  match env.takePage with
  | .error _ => []
  | .ok addr => if env.chipOwned then [] else [env.pageAddr addr]

/-- A buffer is freed, or put at the end of a queue, and nothing else happens to
the frames. -/
inductive Disposed (address : Nat) (before after : Receiver) : Prop
  | freed (skb : SkBuff) :
      skb.address = address → after.freed = before.freed ++ [skb] →
        (∀ queue, after.queue queue = before.queue queue) → Disposed address before after
  | delivered (skb : SkBuff) (queue : RxQueue) :
      skb.address = address →
        (before.queue queue).put .skbq skb .tail = some (after.queue queue) →
        (∀ other, other ≠ queue → after.queue other = before.queue other) →
        after.freed = before.freed → Disposed address before after

/-- Nothing happens to the frames. -/
structure Untouched (before after : Receiver) : Prop where
  freed : after.freed = before.freed
  queues : ∀ queue, after.queue queue = before.queue queue

/-- A frame cannot be delivered for lack of memory: there is no buffer for its
page, or no room for it in its queue. -/
def LacksMemory (env : ReadEnv) (receiver : Receiver) : Prop :=
  ∃ addr, env.takePage = .ok addr ∧
    (env.allocates = false ∨
      ∃ queue channel len, env.examine = .accepted queue channel len ∧
        (receiver.queue queue).space < (skbTrim (env.skb addr channel) len).len)

/-- A read gives its page back once, disposes of its buffer once, and reports a
lack of memory, so that no pass goes on after it. -/
structure ReadSound (env : ReadEnv) (receiver : Receiver) : Prop where
  returned : (morsePagesetRead env receiver).2.puts = receiver.puts ++ env.toReturn
  disposed :
    ∀ addr, env.takePage = .ok addr → env.allocates = true →
      Disposed env.address receiver (morsePagesetRead env receiver).2
  untouched :
    (∀ addr, env.takePage = .ok addr → env.allocates = false) →
      Untouched receiver (morsePagesetRead env receiver).2
  reported : LacksMemory env receiver → (morsePagesetRead env receiver).1 ≠ none
  stops :
    LacksMemory env receiver → ∀ (pass : RxPass) (left count : Nat), pass.reads count = env →
      (rxLoop pass (left + 1) count receiver).count = count + 1

/-! ## The cases of a read -/

/-- What a read can do. -/
inductive ReadCase (env : ReadEnv) (receiver : Receiver) : Option Errno × Receiver → Prop
  | idle (error : Errno) :
      env.takePage = .error error → ReadCase env receiver (some error, receiver)
  | noBuffer (addr : BitVec 32) :
      env.takePage = .ok addr → env.allocates = false →
        ReadCase env receiver
          (env.put, { receiver with puts := receiver.puts ++ [env.pageAddr addr] })
  | owned (addr : BitVec 32) (ret : Option Errno) :
      env.takePage = .ok addr → env.allocates = true → env.examine = .dropped ret true →
        ReadCase env receiver
          (ret, { receiver with freed := receiver.freed ++ [env.skb addr .other] })
  | dropped (addr : BitVec 32) (ret : Option Errno) :
      env.takePage = .ok addr → env.allocates = true → env.examine = .dropped ret false →
        ReadCase env receiver
          (env.put, { receiver with
            freed := receiver.freed ++ [env.skb addr .other]
            puts := receiver.puts ++ [env.pageAddr addr] })
  | full (addr : BitVec 32) (queue : RxQueue) (channel : Channel) (len : Nat) :
      env.takePage = .ok addr → env.allocates = true →
        env.examine = .accepted queue channel len →
        (receiver.queue queue).space < (skbTrim (env.skb addr channel) len).len →
        ReadCase env receiver
          (env.put, { receiver with
            freed := receiver.freed ++ [skbTrim (env.skb addr channel) len]
            puts := receiver.puts ++ [env.pageAddr addr] })
  | delivered (addr : BitVec 32) (queue : RxQueue) (channel : Channel) (len : Nat) (mq : Skbq) :
      env.takePage = .ok addr → env.allocates = true →
        env.examine = .accepted queue channel len →
        (skbTrim (env.skb addr channel) len).len ≤ (receiver.queue queue).space →
        (receiver.queue queue).put .skbq (skbTrim (env.skb addr channel) len) .tail = some mq →
        ReadCase env receiver
          (env.put, { receiver.withQueue queue mq with
            puts := receiver.puts ++ [env.pageAddr addr] })

theorem pageAddr_ne_zero (env : ReadEnv) (addr : BitVec 32) : env.pageAddr addr ≠ 0 := by
  intro zero
  have bit := congrArg (fun word => BitVec.getLsbD word 20) zero
  rw [ReadEnv.pageAddr] at bit
  cases chip : env.chip with
  | mm6108 =>
    rw [chip] at bit
    simp [Chip.pagerBaseAddress] at bit
  | mm8108 =>
    rw [chip] at bit
    simp [Chip.pagerBaseAddress] at bit

theorem exit_page (some_page : pageAddr ≠ 0) (env : ReadEnv) (ret : Option Errno)
    (skb : Option SkBuff) (receiver : Receiver) :
    env.exit ret skb pageAddr receiver =
      (env.put, { receiver with
        freed := receiver.freed ++ skb.toList
        puts := receiver.puts ++ [pageAddr] }) := by
  simp only [ReadEnv.exit, if_pos some_page]

theorem exit_none (env : ReadEnv) (ret : Option Errno) (skb : Option SkBuff) (receiver : Receiver) :
    env.exit ret skb 0 receiver =
      (ret, { receiver with freed := receiver.freed ++ skb.toList }) := by
  simp only [ReadEnv.exit, ne_eq, not_true_eq_false, if_false]

theorem withQueue_self (receiver : Receiver) (queue : RxQueue) :
    receiver.withQueue queue (receiver.queue queue) = receiver := by
  cases queue <;> rfl

theorem skbqPut_eq (mq : Skbq) (skb : SkBuff) :
    (skb.len ≤ mq.space ∧ ∃ filled, mq.put .skbq skb .tail = some filled ∧
      mq.skbqPut skb = (none, filled)) ∨
    (mq.space < skb.len ∧ mq.skbqPut skb = (some .enomem, mq)) := by
  by_cases room : skb.len ≤ mq.space
  · obtain ⟨filled, put⟩ : ∃ filled, mq.put .skbq skb .tail = some filled := by
      rw [Skbq.put, if_pos room]
      exact ⟨_, rfl⟩
    refine .inl ⟨room, filled, put, ?_⟩
    rw [Skbq.skbqPut, put]
  · refine .inr ⟨BitVec.not_le.mp room, ?_⟩
    rw [Skbq.skbqPut, Skbq.put, if_neg room]

theorem readCase (env : ReadEnv) (receiver : Receiver) :
    ReadCase env receiver (morsePagesetRead env receiver) := by
  unfold morsePagesetRead
  cases taken : env.takePage with
  | error error =>
    simp only [exit_none, Option.toList_none, List.append_nil]
    exact .idle error taken
  | ok addr =>
    have some_page := pageAddr_ne_zero env addr
    cases allocates : env.allocates with
    | false =>
      simp only [Bool.not_false, if_true, exit_page some_page, Option.toList_none,
        List.append_nil]
      exact .noBuffer addr taken allocates
    | true =>
      cases examined : env.examine with
      | dropped ret chipOwned =>
        cases chipOwned with
        | true =>
          exact .owned addr ret taken allocates examined
        | false =>
          simp only [Bool.false_eq_true, if_false, exit_page some_page]
          exact .dropped addr ret taken allocates examined
      | accepted queue channel len =>
        rcases skbqPut_eq (receiver.queue queue) (skbTrim (env.skb addr channel) len) with
          ⟨room, filled, put, answers⟩ | ⟨noRoom, answers⟩
        · simp only [answers, exit_page some_page, Option.toList_none, List.append_nil]
          have case_eq := @ReadCase.delivered env receiver addr queue channel len filled
            taken allocates examined room put
          cases queue <;> exact case_eq
        · simp only [answers, exit_page some_page, withQueue_self]
          exact .full addr queue channel len taken allocates examined noRoom

/-! ## One read -/

variable {env : ReadEnv}

theorem chipOwned_iff (allocates : env.allocates = true) :
    env.chipOwned = true ↔ ∃ ret, env.examine = .dropped ret true := by
  unfold ReadEnv.chipOwned ReadEnv.examine
  rw [allocates]
  cases read : env.readPage 0 with
  | error error => simp
  | ok data =>
    have sync_eq : (BuffSkbHeader.ofMemory data).sync = data 0 := rfl
    simp only
    split
    · rw [sync_eq]
      simp
    · next sync =>
        rw [sync_eq, not_not] at sync
        rw [sync]
        refine iff_of_false (by decide) ?_
        rintro ⟨ret, dropped⟩
        split at dropped
        · cases dropped
        · split at dropped
          · cases dropped
          · split at dropped <;> cases dropped
          · cases dropped

theorem address_skbTrim (skb : SkBuff) (len : Nat) : (skbTrim skb len).address = skb.address := by
  unfold skbTrim
  split <;> rfl

theorem toReturn_eq (taken : env.takePage = .ok addr) (notOwned : env.chipOwned = false) :
    env.toReturn = [env.pageAddr addr] := by
  simp only [ReadEnv.toReturn, taken, notOwned, Bool.false_eq_true, if_false]

theorem chipOwned_eq_false (allocates : env.allocates = true)
    (kept : ∀ ret, env.examine ≠ .dropped ret true) :
    env.chipOwned = false := by
  rw [Bool.eq_false_iff]
  intro owned
  obtain ⟨ret, dropped⟩ := (chipOwned_iff allocates).mp owned
  exact kept ret dropped

theorem read_returned (env : ReadEnv) (receiver : Receiver) :
    (morsePagesetRead env receiver).2.puts = receiver.puts ++ env.toReturn := by
  have shown := readCase env receiver
  generalize morsePagesetRead env receiver = result at shown
  cases shown with
  | idle error taken =>
    rw [ReadEnv.toReturn, taken, List.append_nil]
  | noBuffer addr taken none =>
    have notOwned : env.chipOwned = false := by rw [ReadEnv.chipOwned, none, Bool.false_and]
    rw [toReturn_eq taken notOwned]
  | owned addr ret taken allocates examined =>
    have owned := (chipOwned_iff allocates).mpr ⟨ret, examined⟩
    simp only [ReadEnv.toReturn, taken, owned, if_true, List.append_nil]
  | dropped addr ret taken allocates examined =>
    rw [toReturn_eq taken (chipOwned_eq_false allocates fun other => by simp [examined])]
  | full addr queue channel len taken allocates examined =>
    rw [toReturn_eq taken (chipOwned_eq_false allocates fun other => by simp [examined])]
  | delivered addr queue channel len mq taken allocates examined =>
    rw [toReturn_eq taken (chipOwned_eq_false allocates fun other => by simp [examined])]

theorem read_disposed (taken : env.takePage = .ok addr) (allocates : env.allocates = true)
    (receiver : Receiver) :
    Disposed env.address receiver (morsePagesetRead env receiver).2 := by
  have shown := readCase env receiver
  generalize morsePagesetRead env receiver = result at shown
  cases shown with
  | idle error idle =>
    rw [taken] at idle
    cases idle
  | noBuffer addr taken none =>
    rw [allocates] at none
    cases none
  | owned addr ret => exact .freed _ rfl rfl (fun queue => by cases queue <;> rfl)
  | dropped addr ret => exact .freed _ rfl rfl (fun queue => by cases queue <;> rfl)
  | full addr queue channel len =>
    exact .freed _ (address_skbTrim _ _) rfl (fun queue => by cases queue <;> rfl)
  | delivered addr queue channel len mq taken allocates examined room put =>
    refine .delivered _ queue (address_skbTrim (env.skb addr channel) len) ?_ ?_ ?_
    · rw [put]
      cases queue <;> rfl
    · intro other different
      cases queue <;> cases other <;> first | rfl | exact absurd rfl different
    · cases queue <;> rfl

theorem read_untouched (none : ∀ addr, env.takePage = .ok addr → env.allocates = false)
    (receiver : Receiver) :
    Untouched receiver (morsePagesetRead env receiver).2 := by
  have shown := readCase env receiver
  generalize morsePagesetRead env receiver = result at shown
  cases shown with
  | idle error idle => exact ⟨rfl, fun _ => rfl⟩
  | noBuffer addr taken => exact ⟨rfl, fun queue => by cases queue <;> rfl⟩
  | owned addr ret taken allocates => exact absurd allocates (by rw [none addr taken]; decide)
  | dropped addr ret taken allocates => exact absurd allocates (by rw [none addr taken]; decide)
  | full addr queue channel len taken allocates =>
    exact absurd allocates (by rw [none addr taken]; decide)
  | delivered addr queue channel len mq taken allocates =>
    exact absurd allocates (by rw [none addr taken]; decide)

theorem read_ret_of_lacksMemory (lacks : LacksMemory env receiver) :
    (morsePagesetRead env receiver).1 = env.put := by
  obtain ⟨addr, taken, lacking⟩ := lacks
  have shown := readCase env receiver
  generalize morsePagesetRead env receiver = result at shown
  cases shown with
  | idle error idle =>
    rw [taken] at idle
    cases idle
  | owned other ret _ allocates examined =>
    rcases lacking with none | ⟨queue, channel, len, accepted, -⟩
    · rw [allocates] at none
      cases none
    · rw [examined] at accepted
      cases accepted
  | noBuffer | dropped | full | delivered => rfl

/-! ## A pass -/

theorem rxLoop_count_gt (pass : RxPass) (left count : Nat) (receiver : Receiver) :
    count < (rxLoop pass (left + 1) count receiver).count := by
  induction left generalizing count receiver with
  | zero =>
    unfold rxLoop
    simp only
    split_ifs
    · exact Nat.lt_succ_self count
    · omega
    · exact Nat.lt_succ_self count
  | succ left ih =>
    unfold rxLoop
    simp only
    split_ifs
    · exact Nat.lt_succ_self count
    · exact Nat.lt_of_succ_lt (ih (count + 1) _)
    · exact Nat.lt_succ_self count

theorem rxLoop_count_of_error {pass : RxPass}
    (error : (morsePagesetRead (pass.reads count) receiver).1 ≠ none) :
    (rxLoop pass (left + 1) count receiver).count = count + 1 := by
  unfold rxLoop
  simp only
  split_ifs with _ goesOn
  · rfl
  · exact absurd goesOn.2 error
  · rfl

theorem rxLoop_count_of_success (succeeds : (morsePagesetRead env receiver).1 = none) :
    1 < (rxLoop ⟨fun _ => env, false, fun _ => false⟩ 2 0 receiver).count := by
  rw [rxLoop]
  simp only [Bool.false_eq_true, and_false, if_false, succeeds, Nat.zero_lt_one,
    and_self, if_true]
  exact rxLoop_count_gt _ 0 1 _

/-- `morse_pageset_read`, from any state of the queues. -/
theorem readSound_iff (env : ReadEnv) (receiver : Receiver) :
    ReadSound env receiver ↔ (LacksMemory env receiver → env.put ≠ none) := by
  constructor
  · intro sound lacks
    rw [← read_ret_of_lacksMemory lacks]
    exact sound.reported lacks
  · intro refused
    refine ⟨read_returned env receiver, fun addr taken allocates =>
      read_disposed taken allocates receiver, fun none => read_untouched none receiver, ?_, ?_⟩
    · intro lacks
      rw [read_ret_of_lacksMemory lacks]
      exact refused lacks
    · rintro lacks pass left count rfl
      apply rxLoop_count_of_error
      rw [read_ret_of_lacksMemory lacks]
      exact refused lacks

/-- Empty queues. -/
def emptyReceiver : Receiver where
  dataQ := .init .toHost
  cmdQ := .init .command
  freed := []
  puts := []

/-- A page of forty-eight octets for which there is no buffer. -/
def noBufferEnv : ReadEnv where
  cmdResp := []
  txSts := []
  pop := .ok 0x03000100
  chip := .mm6108
  allocates := false
  address := 1
  readPage := fun _ => .ok fun _ => 0
  validateSkbChecksum := true
  hasDataQ := true
  put := none

/-- Without a buffer the read succeeds, and a pass goes on to the next page. -/
theorem not_readSound :
    ¬ ReadSound noBufferEnv emptyReceiver ∧
      1 < (rxLoop ⟨fun _ => noBufferEnv, false, fun _ => false⟩ 2 0 emptyReceiver).count := by
  have lacks : LacksMemory noBufferEnv emptyReceiver := ⟨0x03000100, rfl, .inl rfl⟩
  have succeeds := read_ret_of_lacksMemory lacks
  exact ⟨fun sound => sound.reported lacks succeeds, rxLoop_count_of_success succeeds⟩

end Pageset
end Morse
