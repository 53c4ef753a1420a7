import Morse.Lib.Transition
import Morse.Pageset.Defs

/-!
# Page conservation

A page that the host took from the pager is in one of the two queues or has been
handed back.  Two branches break this: a page returned while the cached queue is
full, and a page taken for a frame that is then not written.
-/

namespace Morse
namespace Pageset

open Lib

/-- How often the page of an address is in a queue or handed back. -/
def Pages.places (pages : Pages) (addr : BitVec 32) : Nat :=
  keyCount MorsePage.addr addr pages.reservedPages.items +
    keyCount MorsePage.addr addr pages.cachedPages.items + pages.handedBack.count addr

/-- Every page that the host took is in exactly one place. -/
def Pages.Conserved (pages : Pages) : Prop :=
  ∀ addr, pages.places addr = if addr ∈ pages.taken then 1 else 0

/-- How often the page of an address is in the queues. -/
def Pages.copies (pages : Pages) (addr : BitVec 32) : Nat :=
  keyCount MorsePage.addr addr pages.reservedPages.items +
    keyCount MorsePage.addr addr pages.cachedPages.items

theorem Pages.places_eq (pages : Pages) (addr : BitVec 32) :
    pages.places addr = pages.copies addr + pages.handedBack.count addr := rfl

theorem any_addr_iff (addr : BitVec 32) (items : List MorsePage) :
    items.any (fun other => other.addr == addr) = true ↔
      0 < keyCount MorsePage.addr addr items := by
  rw [List.any_eq_true, keyCount, List.count_pos_iff, List.mem_map]
  simp only [beq_iff_eq]

theorem pageIsCached_iff (pages : Pages) (page : MorsePage) :
    pages.pageIsCached page = true ↔ 0 < pages.copies page.addr := by
  rw [Pages.pageIsCached, Bool.or_eq_true, any_addr_iff, any_addr_iff, Pages.copies]
  omega

/-! ## Returned pages -/

@[simp] theorem Pages.copies_pop (pages : Pages) (page : MorsePage) (addr : BitVec 32) :
    (pages.pop page).copies addr = pages.copies addr := rfl

variable {pages : Pages}

theorem Pages.copies_putReserved (room : pages.reservedPages.len < cmdRsvedPagesMax)
    (page : MorsePage) (addr : BitVec 32) :
    (pages.putReserved page).copies addr =
      pages.copies addr + if page.addr = addr then 1 else 0 := by
  obtain ⟨after, put, items⟩ := Fifo.put_of_lt room page
  simp only [copies, putReserved, put, Option.getD_some, items, keyCount_append, keyCount_cons,
    keyCount_nil]
  omega

theorem Pages.copies_putCached (room : pages.cachedPages.len < cachedPagesMax)
    (page : MorsePage) (addr : BitVec 32) :
    (pages.putCached page).copies addr =
      pages.copies addr + if page.addr = addr then 1 else 0 := by
  obtain ⟨after, put, items⟩ := Fifo.put_of_lt room page
  simp only [copies, putCached, put, Option.getD_some, items, keyCount_append, keyCount_cons,
    keyCount_nil]
  omega

/-- The pages of `after` are those of `before` with one page more in its queues. -/
structure Adds (page : MorsePage) (before after : Pages) : Prop where
  copies : ∀ addr, after.copies addr = before.copies addr + if page.addr = addr then 1 else 0
  handedBack : after.handedBack = before.handedBack
  taken : after.taken = before.taken
  total : after.reservedPages.len + after.cachedPages.len =
    before.reservedPages.len + before.cachedPages.len + 1

theorem Pages.adds_putReserved (pages : Pages) (room : pages.reservedPages.len < cmdRsvedPagesMax)
    (page : MorsePage) :
    Adds page pages (pages.putReserved page) where
  copies := copies_putReserved room page
  handedBack := rfl
  taken := rfl
  total := by
    obtain ⟨after, put, items⟩ := Fifo.put_of_lt room page
    simp only [putReserved, put, Option.getD_some, Fifo.len, items, List.length_append,
      List.length_singleton]
    omega

theorem Pages.adds_putCached (pages : Pages) (room : pages.cachedPages.len < cachedPagesMax)
    (page : MorsePage) :
    Adds page pages (pages.putCached page) where
  copies := copies_putCached room page
  handedBack := rfl
  taken := rfl
  total := by
    obtain ⟨after, put, items⟩ := Fifo.put_of_lt room page
    simp only [putCached, put, Option.getD_some, Fifo.len, items, List.length_append,
      List.length_singleton]
    omega

theorem Pages.Conserved.pop_cached (conserved : pages.Conserved)
    (cached : 0 < pages.copies page.addr) :
    (pages.pop page).Conserved := by
  intro addr
  have before := conserved addr
  have own := conserved page.addr
  rw [places_eq] at before own ⊢
  rw [copies_pop]
  simp only [Pages.pop, List.mem_cons]
  rcases eq_or_ne addr page.addr with rfl | other
  · rw [List.count_eq_zero_of_not_mem (by simp), if_pos (.inl rfl)]
    split at own <;> omega
  · rw [List.count_filter (by simpa using other), before]
    simp only [other, false_or]

theorem Pages.Conserved.pop_put (conserved : pages.Conserved) (fresh : pages.copies page.addr = 0)
    (adds : Adds page (pages.pop page) after) :
    after.Conserved := by
  intro addr
  have before := conserved addr
  rw [places_eq] at before ⊢
  rw [adds.copies, adds.handedBack, adds.taken, copies_pop]
  simp only [Pages.pop, List.mem_cons]
  rcases eq_or_ne addr page.addr with rfl | other
  · rw [List.count_eq_zero_of_not_mem (by simp), fresh, if_pos rfl, if_pos (.inl rfl)]
  · rw [List.count_filter (by simpa using other), if_neg other.symm, Nat.add_zero, before]
    simp only [other, false_or]

/-- How many of the pages are neither in the queues nor a repetition. -/
def newCount (copies : BitVec 32 → Nat) : List MorsePage → Nat
  | [] => 0
  | page :: rest =>
    if copies page.addr = 0 then
      newCount (fun addr => copies addr + if page.addr = addr then 1 else 0) rest + 1
    else newCount copies rest

/-- The free places in the two queues. -/
def Pages.room (pages : Pages) : Nat :=
  cmdRsvedPagesMax + cachedPagesMax - (pages.reservedPages.len + pages.cachedPages.len)

/-- There is a place in the queues for every new page that the return handler
pops, as it stops after a number of pops. -/
def PagerFits (popped : Nat) (pager : List MorsePage) (pages : Pages) : Prop :=
  newCount pages.copies (pager.take (maxExpectedPops - popped)) ≤ pages.room

theorem PagerFits.skip (fits : PagerFits popped (page :: rest) pages)
    (cached : 0 < pages.copies page.addr) :
    PagerFits (popped + 1) rest (pages.pop page) := by
  rcases Nat.lt_or_ge popped maxExpectedPops with more | done
  · obtain ⟨left, exact⟩ : ∃ left, maxExpectedPops - popped = left + 1 :=
      ⟨maxExpectedPops - popped - 1, by omega⟩
    rw [PagerFits, exact, List.take_succ_cons, newCount, if_neg (Nat.ne_of_gt cached)] at fits
    rw [PagerFits, show maxExpectedPops - (popped + 1) = left by omega]
    exact fits
  · rw [PagerFits, Nat.sub_eq_zero_of_le (Nat.le_succ_of_le done)]
    exact Nat.zero_le _

theorem PagerFits.keep (fits : PagerFits popped (page :: rest) pages)
    (fresh : pages.copies page.addr = 0) (adds : Adds page (pages.pop page) after) :
    PagerFits (popped + 1) rest after := by
  rcases Nat.lt_or_ge popped maxExpectedPops with more | done
  · obtain ⟨left, exact⟩ : ∃ left, maxExpectedPops - popped = left + 1 :=
      ⟨maxExpectedPops - popped - 1, by omega⟩
    rw [PagerFits, exact, List.take_succ_cons, newCount, if_pos fresh] at fits
    rw [PagerFits, show maxExpectedPops - (popped + 1) = left by omega, funext adds.copies]
    have total := adds.total
    simp only [Pages.room, Pages.pop] at fits total ⊢
    exact Nat.le_trans (Nat.le_sub_of_add_le fits) (by omega)
  · rw [PagerFits, Nat.sub_eq_zero_of_le (Nat.le_succ_of_le done)]
    exact Nat.zero_le _

theorem PagerFits.cached_room (fits : PagerFits popped (page :: rest) pages)
    (more : popped < maxExpectedPops) (fresh : pages.copies page.addr = 0)
    (full : cmdRsvedPagesMax ≤ pages.reservedPages.len) :
    pages.cachedPages.len < cachedPagesMax := by
  obtain ⟨left, exact⟩ : ∃ left, maxExpectedPops - popped = left + 1 :=
    ⟨maxExpectedPops - popped - 1, by omega⟩
  rw [PagerFits, exact, List.take_succ_cons, newCount, if_pos fresh, Pages.room] at fits
  omega

theorem fillReserved_conserved (conserved : pages.Conserved) (fits : PagerFits popped pager pages) :
    let filled := fillReserved pager popped pages
    filled.2.2.2.Conserved ∧ PagerFits filled.2.1 filled.1 filled.2.2.2 ∧
      (filled.2.2.1 = false → cmdRsvedPagesMax ≤ filled.2.2.2.reservedPages.len) := by
  induction pager generalizing popped pages with
  | nil =>
    refine ⟨conserved, fits, fun enough => ?_⟩
    simpa [fillReserved] using enough
  | cons page rest ih =>
    simp only [fillReserved]
    split
    · next room =>
        split
        · next cached =>
            have copies := (pageIsCached_iff pages page).mp cached
            exact ih (conserved.pop_cached copies) (fits.skip copies)
        · next fresh =>
            rw [pageIsCached_iff, Nat.pos_iff_ne_zero, not_not] at fresh
            have adds := Pages.adds_putReserved (pages.pop page) room page
            exact ih (conserved.pop_put fresh adds) (fits.keep fresh adds)
    · next full => exact ⟨conserved, fits, fun _ => Nat.le_of_not_lt full⟩

theorem fillCached_conserved (conserved : pages.Conserved) (fits : PagerFits popped pager pages)
    (full : cmdRsvedPagesMax ≤ pages.reservedPages.len) :
    (fillCached pager popped pages).2.2.Conserved := by
  induction pager generalizing popped pages with
  | nil => exact conserved
  | cons page rest ih =>
    simp only [fillCached]
    split
    · next more =>
        split
        · next cached =>
            have copies := (pageIsCached_iff pages page).mp cached
            exact ih (conserved.pop_cached copies) (fits.skip copies) full
        · next fresh =>
            rw [pageIsCached_iff, Nat.pos_iff_ne_zero, not_not] at fresh
            have adds := Pages.adds_putCached (pages.pop page)
              (fits.cached_room more fresh full) page
            exact ih (conserved.pop_put fresh adds) (fits.keep fresh adds) full
    · exact conserved

theorem returnHandlerNoLock_conserved (conserved : pages.Conserved)
    (fits : PagerFits 0 pager pages) :
    (returnHandlerNoLock pager pages).2.Conserved := by
  obtain ⟨filled, fitting, full⟩ := fillReserved_conserved conserved fits
  unfold returnHandlerNoLock
  split
  · next exact =>
      rw [exact] at filled
      exact filled
  · next exact =>
      rw [exact] at filled fitting full
      exact fillCached_conserved filled fitting (full rfl)

/-! ## Writing a frame -/

/-- What a page taken from a queue leaves behind. -/
structure Takes (page : MorsePage) (before after : Pages) : Prop where
  copies : ∀ addr, before.copies addr = after.copies addr + if page.addr = addr then 1 else 0
  handedBack : after.handedBack = before.handedBack
  taken : after.taken = before.taken

theorem Pages.takes_of_get (got : pages.get queue = some (page, after)) :
    Takes page pages after := by
  cases queue with
  | reserved =>
    obtain ⟨⟨first, left⟩, split, equal⟩ := Option.map_eq_some_iff.mp got
    cases equal
    refine ⟨fun addr => ?_, rfl, rfl⟩
    simp only [copies, Fifo.get_eq_some split, keyCount_cons]
    omega
  | cached =>
    obtain ⟨⟨first, left⟩, split, equal⟩ := Option.map_eq_some_iff.mp got
    cases equal
    refine ⟨fun addr => ?_, rfl, rfl⟩
    simp only [copies, Fifo.get_eq_some split, keyCount_cons]
    omega

theorem Pages.adds_putBack (got : pages.get queue = some (page, after)) :
    Adds page after (after.putBack queue page) := by
  cases queue with
  | reserved =>
    obtain ⟨⟨first, left⟩, split, equal⟩ := Option.map_eq_some_iff.mp got
    cases equal
    exact adds_putReserved _ (Fifo.len_lt_of_get split) _
  | cached =>
    obtain ⟨⟨first, left⟩, split, equal⟩ := Option.map_eq_some_iff.mp got
    cases equal
    exact adds_putCached _ (Fifo.len_lt_of_get split) _

theorem Pages.Conserved.put_back (conserved : pages.Conserved) (takes : Takes page pages middle)
    (adds : Adds page middle after) :
    after.Conserved := by
  intro addr
  have before := conserved addr
  rw [places_eq, takes.copies] at before
  rw [places_eq, adds.copies, adds.handedBack, adds.taken, takes.handedBack, takes.taken]
  exact before

theorem Pages.Conserved.hand_back (conserved : pages.Conserved) (takes : Takes page pages after) :
    (after.handBack page).Conserved := by
  intro addr
  have before := conserved addr
  rw [places_eq, takes.copies] at before
  rw [places_eq, handBack, takes.taken, ← before, takes.handedBack, List.count_cons]
  simp only [beq_iff_eq]
  exact (Nat.add_right_comm _ _ _).trans (Nat.add_assoc _ _ _) |>.symm

/-- The page that a frame is written to is large enough, the frame has the
tailroom for its padding, and the chip takes the page at one of the two tries
if it was written. -/
structure Writable (env : WriteEnv) (skb : SkBuff) (page : MorsePage) : Prop where
  size : writeLen skb ≤ page.sizeBytes.toNat
  tailroom : writeLen skb ≤ skb.len.toNat + env.tailroom
  put : env.writePage = none → env.put = none ∨ env.putAgain = none

theorem writePage_conserved (conserved : pages.Conserved)
    (got : pages.get queue = some (page, after)) (writable : Writable env skb page) :
    (writePage env skb queue page after).2.Conserved := by
  have takes := Pages.takes_of_get got
  rw [writePage, if_neg (Nat.not_lt_of_le writable.size),
    if_neg (Nat.not_lt_of_le writable.tailroom)]
  cases written : env.writePage with
  | some error => exact conserved.put_back takes (Pages.adds_putBack got)
  | none =>
    cases put : env.put with
    | none => exact conserved.hand_back takes
    | some error =>
      have again : env.putAgain = none := by
        rcases writable.put written with none | none
        · rw [put] at none
          cases none
        · exact none
      rw [again]
      exact conserved.hand_back takes

/-- The return handler runs within the write of a command that finds no reserved
page. -/
def chooseFits (env : WriteEnv) (skb : SkBuff) (pages : Pages) : Prop :=
  skb.channel = .command → pages.reservedPages.len = 0 → PagerFits 0 env.pager pages

theorem chooseQueue_conserved (conserved : pages.Conserved) (fits : chooseFits env skb pages) :
    (chooseQueue env skb pages).2.Conserved := by
  have same : (chooseQueue env skb pages).2 = (rsvedPageIsAvail env.pager skb.channel pages).2 := by
    rw [chooseQueue]
    split <;> next exact => rw [exact]
  rw [same]
  unfold rsvedPageIsAvail
  split
  · exact conserved
  · next command =>
      split
      · next exhausted =>
          exact returnHandlerNoLock_conserved conserved (fits command exhausted)
      · exact conserved
  · exact conserved

/-- What a write needs so that it loses no page: the pages that it may pop find
a place, and the page that it takes is written or at least given to the chip. -/
def Keeps (env : WriteEnv) (skb : SkBuff) (pages : Pages) : Prop :=
  env.locked = false →
    chooseFits env skb pages ∧
      ∀ page after, (chooseQueue env skb pages).2.get (chooseQueue env skb pages).1 =
        some (page, after) → Writable env skb page

theorem morsePagesetWrite_conserved (conserved : pages.Conserved) (keeps : Keeps env skb pages) :
    (morsePagesetWrite env skb pages).2.Conserved := by
  unfold morsePagesetWrite
  cases locked : env.locked with
  | true => exact conserved
  | false =>
    obtain ⟨fits, writable⟩ := keeps locked
    have chosen := chooseQueue_conserved conserved fits
    simp only [Bool.false_eq_true, if_false]
    split
    · exact chosen
    · next got => exact writePage_conserved chosen got (writable _ _ got)

/-! ## Runs -/

/-- What happens to the pages under the lock. -/
inductive Operation
  | returned (pager : List MorsePage)
  | write (env : WriteEnv) (skb : SkBuff)

/-- One operation on the pages. -/
def step (pages : Pages) : Operation → Option Pages
  | .returned pager => some (returnHandlerNoLock pager pages).2
  | .write env skb => some (morsePagesetWrite env skb pages).2

/-- The condition of each operation. -/
def Operation.Safe (pages : Pages) : Operation → Prop
  | .returned pager => PagerFits 0 pager pages
  | .write env skb => Keeps env skb pages

theorem returnHandlers_reaches {guard : Pages → Operation → Prop}
    (admits : ∀ pager pages, guard pages (.returned pager))
    (pagers : List (List MorsePage)) (pages : Pages) :
    Reaches step guard pages (returnHandlers pagers pages) := by
  induction pagers generalizing pages with
  | nil => exact .start
  | cons pager rest ih =>
    have taken : step pages (.returned pager) = some (returnHandlerNoLock pager pages).2 := rfl
    exact (Reaches.start.step (admits pager pages) taken).trans (ih _)

theorem txWalk_reaches {guard : Pages → Operation → Prop}
    (admits : ∀ pager pages, guard pages (.returned pager))
    (writes : ∀ skb ∈ skbs, ∀ env pages, guard pages (.write env skb))
    (env : TxEnv) (index numPages : Nat) (pages : Pages) :
    Reaches step guard pages (txWalk env skbs index numPages pages).2.2 := by
  induction skbs generalizing index numPages pages with
  | nil => exact .start
  | cons skb rest ih =>
    have others := ih fun other member => writes other (List.mem_cons_of_mem _ member)
    have returned := returnHandlers_reaches admits (env.returned index) pages
    have written : step (returnHandlers (env.returned index) pages)
        (.write (env.write index) skb) = some (morsePagesetWrite (env.write index) skb
          (returnHandlers (env.returned index) pages)).2 := rfl
    have wrote := returned.step (writes skb List.mem_cons_self _ _) written
    simp only [txWalk]
    split
    · next exact =>
        refine Reaches.trans ?_ (others _ _ _)
        split at exact
        · rw [exact] at wrote
          exact wrote
        · cases exact
    · next exact =>
        refine Reaches.trans ?_ (others _ _ _)
        split at exact
        · rw [exact] at wrote
          exact wrote
        · cases exact
          exact returned

/-- In every run of return handlers and writes that meet their condition, every
page that the host took stays in exactly one place. -/
theorem conserved_of_reaches {pages : Pages}
    (reaches : Reaches step Operation.Safe Pages.init pages) :
    pages.Conserved := by
  refine reaches.invariant (fun addr => rfl) ?_
  intro before operation after conserved safe taken
  cases operation with
  | returned pager =>
    cases taken
    exact returnHandlerNoLock_conserved conserved safe
  | write env skb =>
    cases taken
    exact morsePagesetWrite_conserved conserved safe

/-- A page of 2048 octets. -/
def plainPage (addr : BitVec 32) : MorsePage where
  addr := addr
  sizeBytes := 2048

/-- A write that meets no error. -/
def plainWrite : WriteEnv where
  locked := false
  pager := []
  tailroom := 3
  writePage := none
  put := none
  putAgain := none

/-- A data frame of some length. -/
def dataSkb (len : BitVec 32) : SkBuff where
  address := 1
  len := len
  channel := .data
  flags := 0
  pktId := 0
  enqueueTime := 0
  txStatusExpiry := 0

/-- Three pages come, and a frame of 100 octets is written to the third. -/
def plainRun : Pages :=
  (morsePagesetWrite plainWrite (dataSkb 100)
    (returnHandlerNoLock [plainPage 1, plainPage 2, plainPage 3] Pages.init).2).2

theorem conserved_of_reaches_plainRun : plainRun.Conserved := by
  refine conserved_of_reaches (Reaches.of_run
    [.returned [plainPage 1, plainPage 2, plainPage 3], .write plainWrite (dataSkb 100)]
    ⟨?_, ?_, trivial⟩ rfl)
  · exact Nat.le_of_ble_eq_true rfl
  · intro _
    refine ⟨(fun command => by cases command), fun page after got => ?_⟩
    cases got
    exact ⟨by decide, by decide, fun _ => .inl rfl⟩

/-- The state after a frame larger than the only cached page. -/
def oversizeRun : Pages :=
  (morsePagesetWrite plainWrite (dataSkb 4000)
    (returnHandlerNoLock [plainPage 1, plainPage 2, plainPage 3] Pages.init).2).2

theorem not_conserved_oversizeRun :
    Reaches step (fun _ _ => True) Pages.init oversizeRun ∧ ¬ oversizeRun.Conserved := by
  refine ⟨Reaches.of_run
    [.returned [plainPage 1, plainPage 2, plainPage 3], .write plainWrite (dataSkb 4000)]
    ⟨trivial, trivial, trivial⟩ rfl, fun conserved => ?_⟩
  have lost := conserved 3
  revert lost
  decide

end Pageset
end Morse
