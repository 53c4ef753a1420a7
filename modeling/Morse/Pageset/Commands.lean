import Morse.Pageset.Conservation
import Morse.Pageset.Sending

/-!
# Pages for commands

One page is held back for a command.  No other frame takes the last reserved
page, and a command that finds no reserved page pops one from the pager.  It
comes to that only if it is dequeued, for which some page must be on the host.
-/

namespace Morse
namespace Pageset

open Lib

/-! ## The reserved queue -/

theorem Pages.len_putReserved_ge (pages : Pages) (page : MorsePage) :
    pages.reservedPages.len ≤ (pages.putReserved page).reservedPages.len := by
  rcases Nat.lt_or_ge pages.reservedPages.len cmdRsvedPagesMax with room | full
  · obtain ⟨after, put, items⟩ := Fifo.put_of_lt room page
    simp only [putReserved, put, Option.getD_some, Fifo.len, items, List.length_append]
    omega
  · rw [putReserved, Fifo.put_of_full (Nat.not_lt_of_le full), Option.getD_none]

theorem fillReserved_len_ge (pager : List MorsePage) (popped : Nat) (pages : Pages) :
    pages.reservedPages.len ≤ (fillReserved pager popped pages).2.2.2.reservedPages.len := by
  induction pager generalizing popped pages with
  | nil => exact Nat.le_refl _
  | cons page rest ih =>
    simp only [fillReserved]
    split
    · split
      · exact ih _ (pages.pop page)
      · exact Nat.le_trans (Pages.len_putReserved_ge (pages.pop page) page) (ih _ _)
    · exact Nat.le_refl _

@[simp] theorem fillCached_reservedPages (pager : List MorsePage) (popped : Nat) (pages : Pages) :
    (fillCached pager popped pages).2.2.reservedPages = pages.reservedPages := by
  induction pager generalizing popped pages with
  | nil => rfl
  | cons page rest ih =>
    simp only [fillCached]
    split
    · split
      · exact ih _ _
      · exact ih _ _
    · rfl

theorem returnHandlerNoLock_reservedPages (pager : List MorsePage) (pages : Pages) :
    (returnHandlerNoLock pager pages).2.reservedPages =
      (fillReserved pager 0 pages).2.2.2.reservedPages := by
  unfold returnHandlerNoLock
  split
  · next exact => rw [exact]
  · next exact => rw [exact, fillCached_reservedPages]

theorem returnHandlerNoLock_len_ge (pager : List MorsePage) (pages : Pages) :
    pages.reservedPages.len ≤ (returnHandlerNoLock pager pages).2.reservedPages.len := by
  rw [returnHandlerNoLock_reservedPages]
  exact fillReserved_len_ge pager 0 pages

theorem returnHandlerNoLock_len_pos (fresh : pages.copies page.addr = 0) :
    0 < (returnHandlerNoLock (page :: rest) pages).2.reservedPages.len := by
  rw [returnHandlerNoLock_reservedPages, fillReserved]
  split
  · next room =>
      have uncached : ¬ pages.pageIsCached page = true := by
        rw [pageIsCached_iff, fresh]
        exact Nat.lt_irrefl 0
      rw [if_neg uncached]
      refine Nat.lt_of_lt_of_le ?_ (fillReserved_len_ge _ _ _)
      obtain ⟨after, put, items⟩ := Fifo.put_of_lt room page
      simp [Pages.putReserved, Pages.pop, put, Fifo.len, items]
  · next full => exact Nat.lt_of_lt_of_le (Nat.succ_pos 1) (Nat.le_of_not_lt full)

/-! ## Other frames -/

theorem putBack_len_ge (pages : Pages) (queue : PageQueue) (page : MorsePage) :
    pages.reservedPages.len ≤ (pages.putBack queue page).reservedPages.len := by
  cases queue with
  | reserved => exact pages.len_putReserved_ge page
  | cached => exact Nat.le_refl _

theorem writePage_len_ge
    (env : WriteEnv) (skb : SkBuff) (queue : PageQueue) (page : MorsePage) (pages : Pages) :
    pages.reservedPages.len ≤ (writePage env skb queue page pages).2.reservedPages.len := by
  unfold writePage
  split
  · exact Nat.le_refl _
  · split
    · exact Nat.le_refl _
    · split
      · exact putBack_len_ge pages queue page
      · split
        · exact Nat.le_refl _
        · split <;> exact Nat.le_refl _

theorem rsvedPageIsAvail_of_ne_command (other : channel ≠ .command)
    (pager : List MorsePage) (pages : Pages) :
    ∃ avail, rsvedPageIsAvail pager channel pages = (avail, pages) ∧
      (avail = true → 1 < pages.reservedPages.len) := by
  cases channel with
  | beacon => exact ⟨_, rfl, of_decide_eq_true⟩
  | command => contradiction
  | _ => exact ⟨false, rfl, fun none => by cases none⟩

theorem chooseQueue_of_ne_command (other : skb.channel ≠ .command)
    (env : WriteEnv) (pages : Pages) :
    ∃ queue, chooseQueue env skb pages = (queue, pages) ∧
      (queue = .reserved → 1 < pages.reservedPages.len) := by
  obtain ⟨avail, exact, spare⟩ := rsvedPageIsAvail_of_ne_command other env.pager pages
  rw [chooseQueue, exact]
  cases avail with
  | true => exact ⟨.reserved, rfl, fun _ => spare rfl⟩
  | false => exact ⟨.cached, rfl, fun none => by cases none⟩

theorem get_reserved_len {pages after : Pages} (got : pages.get .reserved = some (page, after)) :
    pages.reservedPages.len = after.reservedPages.len + 1 := by
  obtain ⟨⟨first, left⟩, split, equal⟩ := Option.map_eq_some_iff.mp got
  cases equal
  rw [Fifo.len, Fifo.get_eq_some split]
  rfl

theorem get_cached_reservedPages {pages after : Pages}
    (got : pages.get .cached = some (page, after)) :
    after.reservedPages = pages.reservedPages := by
  obtain ⟨split, -, equal⟩ := Option.map_eq_some_iff.mp got
  cases equal
  rfl

theorem morsePagesetWrite_len_pos (other : skb.channel ≠ .command)
    (positive : 0 < pages.reservedPages.len) :
    0 < (morsePagesetWrite env skb pages).2.reservedPages.len := by
  obtain ⟨queue, chosen, spare⟩ := chooseQueue_of_ne_command other env pages
  unfold morsePagesetWrite
  split
  · exact positive
  · rw [chosen]
    dsimp only
    split
    · exact positive
    · next page after got =>
        refine Nat.lt_of_lt_of_le ?_ (writePage_len_ge env skb queue page after)
        cases queue with
        | reserved =>
          have before := spare rfl
          rw [get_reserved_len got] at before
          exact Nat.lt_of_succ_lt_succ before
        | cached =>
          rw [get_cached_reservedPages got]
          exact positive

/-- The operations of frames that are no commands. -/
def Operation.Other (_ : Pages) : Operation → Prop
  | .returned _ => True
  | .write _ skb => skb.channel ≠ .command

theorem len_pos_of_reaches (reaches : Reaches step Operation.Other before after)
    (positive : 0 < before.reservedPages.len) :
    0 < after.reservedPages.len := by
  refine @Reaches.invariant _ _ step Operation.Other before after
    (fun pages => 0 < pages.reservedPages.len) positive ?_ reaches
  intro state operation next kept other taken
  cases operation with
  | returned pager =>
    cases taken
    exact Nat.lt_of_lt_of_le kept (returnHandlerNoLock_len_ge pager state)
  | write env skb =>
    cases taken
    exact morsePagesetWrite_len_pos other kept

/-! ## Commands -/

theorem Pages.mem_putReserved {pages : Pages}
    (member : other ∈ (pages.putReserved page).reservedPages.items) :
    other = page ∨ other ∈ pages.reservedPages.items := by
  rcases Nat.lt_or_ge pages.reservedPages.len cmdRsvedPagesMax with room | full
  · obtain ⟨after, put, items⟩ := Fifo.put_of_lt room page
    simp only [putReserved, put, Option.getD_some, items, List.mem_append,
      List.mem_singleton] at member
    exact member.symm
  · rw [putReserved, Fifo.put_of_full (Nat.not_lt_of_le full)] at member
    exact .inr member

theorem mem_fillReserved
    (member : page ∈ (fillReserved pager popped pages).2.2.2.reservedPages.items) :
    page ∈ pager ∨ page ∈ pages.reservedPages.items := by
  induction pager generalizing popped pages with
  | nil => exact .inr member
  | cons first rest ih =>
    simp only [fillReserved] at member
    split at member
    · split at member
      · exact (ih member).imp (List.mem_cons_of_mem _) id
      · rcases ih member with popped | held
        · exact .inl (List.mem_cons_of_mem _ popped)
        · rcases Pages.mem_putReserved held with rfl | kept
          · exact .inl List.mem_cons_self
          · exact .inr kept
    · exact .inr member

/-- What a command needs to be written, besides being dequeued: the chip has
returned the reserved number of pages, of which the host has none, the pages
are large enough, and no error is met. -/
structure Supplied (env : WriteEnv) (skb : SkBuff) (pages : Pages) : Prop where
  unlocked : env.locked = false
  returned : cmdRsvedPagesMax ≤ env.pager.length
  fresh : ∀ page ∈ env.pager, pages.copies page.addr = 0
  sizes : ∀ page, page ∈ env.pager ∨ page ∈ pages.reservedPages.items →
    writeLen skb ≤ page.sizeBytes.toNat
  tailroom : writeLen skb ≤ skb.len.toNat + env.tailroom
  writePage : env.writePage = none
  put : env.put = none

theorem morsePagesetWrite_command (command : skb.channel = .command)
    (supplied : Supplied env skb pages) :
    (morsePagesetWrite env skb pages).1 = none := by
  obtain ⟨first, rest, popped⟩ : ∃ first rest, env.pager = first :: rest :=
    List.exists_cons_of_length_pos (Nat.lt_of_lt_of_le (Nat.succ_pos 1) supplied.returned)
  have avail : ∃ filled : Pages, rsvedPageIsAvail env.pager skb.channel pages = (true, filled) ∧
      0 < filled.reservedPages.len ∧ ∀ page ∈ filled.reservedPages.items,
        page ∈ env.pager ∨ page ∈ pages.reservedPages.items := by
    simp only [command, rsvedPageIsAvail]
    split
    · have positive : 0 < (returnHandlerNoLock env.pager pages).2.reservedPages.len := by
        have fresh := supplied.fresh first (popped ▸ List.mem_cons_self)
        rw [popped]
        exact returnHandlerNoLock_len_pos fresh
      refine ⟨_, by rw [decide_eq_true positive], positive, fun page member => ?_⟩
      rw [returnHandlerNoLock_reservedPages] at member
      exact mem_fillReserved member
    · next held =>
        have positive := Nat.pos_of_ne_zero held
        exact ⟨pages, by rw [decide_eq_true positive], positive, fun page member => .inr member⟩
  obtain ⟨filled, exact, positive, members⟩ := avail
  obtain ⟨page, left, got⟩ := Fifo.get_of_pos positive
  have fits : writeLen skb ≤ page.sizeBytes.toNat := by
    refine supplied.sizes page (members page ?_)
    rw [Fifo.get_eq_some got]
    exact List.mem_cons_self
  simp only [morsePagesetWrite, supplied.unlocked, chooseQueue, exact, Pages.get, got,
    Option.map_some, writePage, if_neg (Nat.not_lt_of_le fits),
    if_neg (Nat.not_lt_of_le supplied.tailroom), supplied.writePage, supplied.put,
    Bool.false_eq_true, if_false]

/-- Commands are not starved: transmission from another queue leaves a reserved
page, and a command at the front of its queue is written if it is supplied. -/
structure ProtectsCommands (pages : Pages) : Prop where
  leaves : ∀ (driver : Driver) (jiffies : BitVec 64) (env : TxEnv) (queue : TxQueue)
    (meanwhile : Skbq → Skbq) (mq : Skbq),
    (∀ skb ∈ (txPurge driver jiffies queue mq).skbq.skbs, skb.channel ≠ .command) →
      0 < pages.reservedPages.len →
        0 < (morsePagesetTx driver jiffies env queue meanwhile pages mq).1.reservedPages.len
  writes : ∀ (driver : Driver) (jiffies : BitVec 64) (env : TxEnv)
    (meanwhile : Skbq → Skbq) (mq : Skbq) (skb : SkBuff) (rest : List SkBuff),
    mq.skbq.skbs = skb :: rest → skb.channel = .command →
      Supplied (env.write 0) skb (returnHandlers (env.returned 0) pages) →
        written (attempts env (txBefore driver jiffies .cmdQ meanwhile pages mq).1 0 pages).1 =
          [skb]

theorem morsePagesetTx_len_pos
    (driver : Driver) (jiffies : BitVec 64) (env : TxEnv) (queue : TxQueue)
    (meanwhile : Skbq → Skbq) (pages : Pages) (mq : Skbq)
    (others : ∀ skb ∈ (txPurge driver jiffies queue mq).skbq.skbs, skb.channel ≠ .command)
    (positive : 0 < pages.reservedPages.len) :
    0 < (morsePagesetTx driver jiffies env queue meanwhile pages mq).1.reservedPages.len := by
  unfold morsePagesetTx
  split
  · exact positive
  · refine len_pos_of_reaches (txWalk_reaches (fun _ _ => trivial) ?_ env 0 _ pages) positive
    intro other member _ _
    rw [txDequeue_fst] at member
    exact others other (List.mem_of_mem_take member)

theorem txBefore_command (front : mq.skbq.skbs = skb :: rest) (command : skb.channel = .command)
    (driver : Driver) (jiffies : BitVec 64) (meanwhile : Skbq → Skbq) (pages : Pages) :
    (txBefore driver jiffies .cmdQ meanwhile pages mq).1 =
      if 0 < pages.reservedPages.len + pages.cachedPages.len then [skb] else [] := by
  have kept : (txPurge driver jiffies .cmdQ mq).skbq = mq.skbq := rfl
  simp only [txBefore, front]
  rw [txDequeue_fst, kept, front]
  simp only [morsePagesetNumPages, command]
  split
  · next some =>
      rw [show min cmdRsvedCmdPagesMax (pages.reservedPages.len + pages.cachedPages.len) = 1 from
        Nat.min_eq_left some]
      rfl
  · next none =>
      rw [Nat.eq_zero_of_not_pos none]
      rfl

/-- A driver that reports nothing. -/
def plainDriver : Driver where
  fullmac := false
  monitorMode := false
  fwReportsBcnTxStatus := false
  txQueuedLifetime := 0
  txStatusLifetime := 0

/-- A command of 40 octets. -/
def commandSkb : SkBuff :=
  { dataSkb 40 with channel := .command }

/-- A write that could pop two pages. -/
def suppliedEnv : TxEnv where
  returned := fun _ => []
  write := fun _ => { plainWrite with pager := [plainPage 1, plainPage 2] }

theorem not_protectsCommands_of_empty (reserved : pages.reservedPages.items = [])
    (cached : pages.cachedPages.items = []) :
    ¬ ProtectsCommands pages := by
  intro protects
  have supplied : Supplied (suppliedEnv.write 0) commandSkb
      (returnHandlers (suppliedEnv.returned 0) pages) := by
    refine ⟨rfl, Nat.le_refl 2, fun page _ => ?_, fun page member => ?_, by decide, rfl, rfl⟩
    · simp only [suppliedEnv, returnHandlers, List.foldl_nil, Pages.copies, reserved, cached,
        keyCount_nil]
    · simp only [suppliedEnv, returnHandlers, List.foldl_nil, reserved, List.not_mem_nil,
        or_false, List.mem_cons, plainWrite] at member
      rcases member with rfl | rfl
      · decide
      · decide
  have front : ((Skbq.init .command).tx commandSkb).2.skbq.skbs = [commandSkb] := rfl
  have wrote := protects.writes plainDriver 0 suppliedEnv id _ commandSkb [] front
    rfl supplied
  rw [txBefore_command front rfl, if_neg (by simp [Fifo.len, reserved, cached])] at wrote
  cases wrote

/-- Commands are protected exactly while the host has some page. -/
theorem protectsCommands_iff (pages : Pages) :
    ProtectsCommands pages ↔ 0 < pages.reservedPages.len + pages.cachedPages.len := by
  constructor
  · intro protects
    refine Nat.pos_of_ne_zero fun none => ?_
    rw [Nat.add_eq_zero_iff] at none
    exact not_protectsCommands_of_empty (List.eq_nil_of_length_eq_zero none.1)
      (List.eq_nil_of_length_eq_zero none.2) protects
  · intro some
    refine ⟨fun driver jiffies env queue meanwhile mq =>
      morsePagesetTx_len_pos driver jiffies env queue meanwhile pages mq, ?_⟩
    intro driver jiffies env meanwhile mq skb rest front command supplied
    rw [txBefore_command front command, if_pos some]
    have success := morsePagesetWrite_command command supplied
    simp [attempts, written, success]

theorem not_protectsCommands_init : ¬ ProtectsCommands Pages.init :=
  not_protectsCommands_of_empty rfl rfl

end Pageset
end Morse
