import Morse.Pager.SwTransfers

/-!
# The ring and the cache are one queue

What was inserted into a software pager is what was delivered, then what is pending in the ring
and in the cache, in every state that is reached without overflowing the cache or the ring and
without a write that ends where the ring does.
-/

namespace Morse
namespace Pager

open Lib

/-! ## Runs -/

/-- The state at the start: nothing is cached or was accessed, the pointers are published and
inside the ring, and the ring holds whole page addresses. -/
structure SwStarts (ring : SwRing) (state : SwState) : Prop where
  headInside : ring.Inside state.pager.chipHead
  tailInside : ring.Inside state.pager.chipTail
  head : state.pager.head = state.pager.chipHead
  tail : state.pager.tail = state.pager.chipTail
  headClean : state.pager.headIsDirty = false
  tailClean : state.pager.tailIsDirty = false
  cache : state.pager.cache.items = []
  clean : state.pager.pagesNeedPut = false
  accesses : state.pager.accesses = []
  whole : 4 ∣ (ring.count state.pager.chipHead state.pager.chipTail).toNat
  inserted : state.inserted =
    ring.pages state.pager.memory state.pager.chipTail state.pager.chipHead
  delivered : state.delivered = []

/-- The host uses its own end, puts no page into a full cache, pops when what the ring holds fits
into the cache, and notifies when what the cache holds fits into the ring and does not end where
the ring does. -/
def SwAdmits (ring : SwRing) (flags : SwFlags) (state : SwState) : SwAction → Prop
  | .pop _ => flags.hostPuts = false ∧ (state.pager.cache.items = [] →
      (ring.count state.pager.chipHead state.pager.tail).toNat ≤ 4 * maxPagerPageLen)
  | .put _ => flags.hostPuts = true ∧ state.pager.cache.len < maxPagerPageLen
  | .notify => state.pager.pagesNeedPut = true →
      4 * state.pager.cache.len ≤
          (ring.space state.pager.head state.pager.chipTail).toNat ∧
        state.pager.head.toNat + 4 * state.pager.cache.len ≠
          ring.base.toNat + ring.size.toNat
  | .chipAdd _ => True
  | .chipRemove => True

/-- The published pointers and the accesses are inside the ring, and what was inserted is what
was delivered and what is pending, the first of which the next pop gives. -/
structure SwSound (ring : SwRing) (flags : SwFlags) (state : SwState) : Prop where
  head : ring.Inside state.pager.chipHead
  tail : ring.Inside state.pager.chipTail
  accesses : ∀ access ∈ state.pager.accesses, ring.Within access
  order : state.inserted = state.delivered ++ state.pending ring flags
  delivers : ∀ page rest, SwAdmits ring flags state (.pop true) →
    state.pending ring flags = page :: rest →
      (state.pager.pop ring true).result = 0 ∧ (state.pager.pop ring true).page = some page

/-- What holds of a pager whose pages the host inserts. -/
structure Producing (ring : SwRing) (state : SwState) : Prop where
  head : state.pager.head = state.pager.chipHead
  headClean : state.pager.headIsDirty = false
  tailClean : state.pager.tailIsDirty = false
  needs : state.pager.cache.items ≠ [] → state.pager.pagesNeedPut = true
  queue : ∃ queued,
    Holds ring state.pager.memory state.pager.chipTail state.pager.chipHead queued ∧
      state.inserted = state.delivered ++ queued ++ state.pager.cache.items

/-- What holds of a pager whose pages the host removes: so many octets behind the published tail
were read. -/
structure Consuming (ring : SwRing) (state : SwState) : Prop where
  headClean : state.pager.headIsDirty = false
  clean : state.pager.pagesNeedPut = false
  tailInside : ring.Inside state.pager.tail
  published : state.pager.tailIsDirty = false → state.pager.tail = state.pager.chipTail
  queue : ∃ read queued,
    Holds ring state.pager.memory state.pager.tail state.pager.chipHead queued ∧
      ring.index state.pager.tail =
        (ring.index state.pager.chipTail + read) % ring.size.toNat ∧
      read + 4 * queued.length < ring.size.toNat ∧
      state.inserted = state.delivered ++ state.pager.cache.items ++ queued

/-- What holds of a pager in every state. -/
structure SwKept (ring : SwRing) (flags : SwFlags) (state : SwState) : Prop where
  head : ring.Inside state.pager.chipHead
  tail : ring.Inside state.pager.chipTail
  accesses : ∀ access ∈ state.pager.accesses, ring.Within access
  producing : flags.hostPuts = true → Producing ring state
  consuming : flags.hostPuts = false → Consuming ring state

section Steps

variable {ring : SwRing} {flags : SwFlags} {state next : SwState}

theorem SwKept.of_starts (starts : SwStarts ring state) : SwKept ring flags state where
  head := starts.headInside
  tail := starts.tailInside
  accesses access here := by
    rw [starts.accesses] at here
    cases here
  producing _ :=
    { head := starts.head
      headClean := starts.headClean
      tailClean := starts.tailClean
      needs := fun some => absurd starts.cache some
      queue := by
        refine ⟨_, Holds.of_whole starts.tailInside starts.headInside starts.whole, ?_⟩
        rw [starts.cache, starts.delivered, List.append_nil, List.nil_append, starts.inserted] }
  consuming _ :=
    { headClean := starts.headClean
      clean := starts.clean
      tailInside := by
        rw [starts.tail]
        exact starts.tailInside
      published := fun _ => starts.tail
      queue := by
        have holds := @Holds.of_whole ring state.pager.memory _ _ starts.tailInside
          starts.headInside starts.whole
        refine ⟨0, _, ?_, ?_, by rw [Nat.zero_add]; exact holds.fits, ?_⟩
        · rw [starts.tail]
          exact holds
        · rw [starts.tail, Nat.add_zero, Nat.mod_eq_of_lt (SwRing.index_lt starts.tailInside)]
        · rw [starts.cache, starts.delivered, List.append_nil, List.nil_append,
            starts.inserted] }

theorem SwKept.order (kept : SwKept ring flags state) :
    state.inserted = state.delivered ++ state.pending ring flags := by
  cases puts : flags.hostPuts with
  | true =>
    obtain ⟨queued, holds, order⟩ := (kept.producing puts).queue
    rw [SwState.pending, if_pos puts, holds.pages kept.tail kept.head, order, List.append_assoc]
  | false =>
    obtain ⟨_, queued, holds, -, -, order⟩ := (kept.consuming puts).queue
    rw [SwState.pending, if_neg (by rw [puts]; exact Bool.false_ne_true),
      holds.pages (kept.consuming puts).tailInside kept.head, order, List.append_assoc]

variable {page : BitVec 32}

theorem SwKept.put (kept : SwKept ring flags state) (admits : SwAdmits ring flags state (.put page))
    (taken : swStep ring flags state (.put page) = some next) :
    SwKept ring flags next := by
  obtain ⟨puts, room⟩ := admits
  obtain ⟨cache, done, items⟩ := Fifo.put_of_lt room page
  have producing := kept.producing puts
  obtain ⟨queued, holds, order⟩ := producing.queue
  simp only [swStep, SwPager.put, done, Option.getD_some] at taken
  cases taken
  refine ⟨kept.head, kept.tail, kept.accesses, fun _ => ?_, fun none => ?_⟩
  · refine ⟨producing.head, producing.headClean, producing.tailClean, fun _ => rfl,
      queued, holds, ?_⟩
    rw [items, order, List.append_assoc]
  · rw [puts] at none
    cases none

theorem SwKept.chipAdd (kept : SwKept ring flags state)
    (taken : swStep ring flags state (.chipAdd page) = some next) :
    SwKept ring flags next := by
  simp only [swStep] at taken
  split at taken
  · next room =>
      obtain ⟨puts, room⟩ := room
      cases taken
      have consuming := kept.consuming puts
      obtain ⟨read, queued, holds, before, below, order⟩ := consuming.queue
      have behind : ring.index state.pager.chipHead =
          (ring.index state.pager.chipTail + (read + 4 * queued.length)) %
            ring.size.toNat := by
        rw [holds.head, before, Nat.mod_add_mod, Nat.add_assoc]
      have left := SwRing.toNat_space
        (SwRing.toNat_count kept.head kept.tail behind below) below
      have stores : Stores ring.base.toNat ring.size.toNat state.pager.memory
          (ring.storePage state.pager.memory state.pager.chipHead page)
          (ring.index state.pager.chipHead) (wordOctets [page]) := by
        apply stores_storeEach
        rw [length_leOctets]
        omega
      obtain ⟨inside, moved⟩ := @SwRing.advance_inside ring state.pager.chipHead
      refine ⟨inside, kept.tail, kept.accesses, fun none => ?_, fun _ => ?_⟩
      · rw [puts] at none
        cases none
      · refine ⟨consuming.headClean, consuming.clean, consuming.tailInside,
          consuming.published, read, queued ++ [page], holds.append stores ?_ moved, before,
          ?_, ?_⟩
        · rw [List.length_singleton]
          omega
        · rw [List.length_append, List.length_singleton]
          omega
        · rw [order, List.append_assoc]
  · cases taken

theorem SwKept.chipRemove (kept : SwKept ring flags state)
    (taken : swStep ring flags state .chipRemove = some next) :
    SwKept ring flags next := by
  simp only [swStep] at taken
  split at taken
  · next some =>
      obtain ⟨puts, some⟩ := some
      cases taken
      have producing := kept.producing puts
      obtain ⟨queued, holds, order⟩ := producing.queue
      rw [holds.count kept.tail kept.head] at some
      obtain ⟨inside, moved⟩ := @SwRing.advance_inside ring state.pager.chipTail
      cases queued with
      | nil => exact absurd some (by decide)
      | cons page rest =>
        refine ⟨kept.head, inside, kept.accesses, fun _ => ?_, fun none => ?_⟩
        · refine ⟨producing.head, producing.headClean, producing.tailClean,
            producing.needs, rest, holds.rest moved, ?_⟩
          rw [holds.pages kept.tail kept.head, order]
          simp only [List.take_succ_cons, List.take_zero, List.append_assoc,
            List.cons_append, List.nil_append]
        · rw [puts] at none
          cases none
  · cases taken

variable {pager : SwPager}

theorem publish_of_puts (puts : flags.hostPuts = true) (clean : pager.tailIsDirty = false) :
    pager.publish flags = if pager.headIsDirty then pager.writeHead else pager := by
  obtain ⟨direction, content⟩ := flags
  cases direction with
  | toChip =>
    cases content with
    | populated => simp [SwPager.publish]
    | free => cases puts
  | toHost =>
    cases content with
    | populated => cases puts
    | free => simp [SwPager.publish, clean]

theorem publish_of_pops (pops : flags.hostPuts = false) (clean : pager.headIsDirty = false) :
    pager.publish flags = if pager.tailIsDirty then pager.writeTail else pager := by
  obtain ⟨direction, content⟩ := flags
  cases direction with
  | toChip =>
    cases content with
    | populated => cases pops
    | free => simp [SwPager.publish, clean]
  | toHost =>
    cases content with
    | populated => simp [SwPager.publish]
    | free => cases pops

theorem Producing.notify (kept : SwKept ring flags state) (puts : flags.hostPuts = true)
    (admits : SwAdmits ring flags state .notify) :
    SwKept ring flags
      { state with pager := (state.pager.notifyPager ring flags).2 } := by
  have producing := kept.producing puts
  obtain ⟨queued, holds, order⟩ := producing.queue
  by_cases full : state.pager.pagesNeedPut ∧ 0 < state.pager.cache.len
  · obtain ⟨room, short⟩ := admits full.1
    have headInside : ring.Inside state.pager.head := by
      rw [producing.head]
      exact kept.head
    have behind : ring.index state.pager.head =
        (ring.index state.pager.chipTail + 4 * queued.length) % ring.size.toNat := by
      rw [producing.head]
      exact holds.head
    have left := SwRing.toNat_space
      (SwRing.toNat_count headInside kept.tail behind holds.fits) holds.fits
    have headValue := SwRing.toNat_eq headInside
    have length : (wordOctets state.pager.cache.items).length = 4 * state.pager.cache.len :=
      length_wordOctets _
    obtain ⟨after, done, written⟩ := @written_store ring
      { state.pager with cache := Fifo.empty, tail := state.pager.chipTail } _
      (wordOctets state.pager.cache.items) headInside kept.tail behind
      (by omega) (by dsimp only; omega)
    have flushed : state.pager.flush ring = { after with pagesNeedPut := false } := by
      rw [SwPager.flush, if_pos full, SwPager.dataWrite, SwPager.readTail, done]
    have frame := written.frame
    have notified : (state.pager.notifyPager ring flags).2 =
        { after with
          pagesNeedPut := false, chipHead := after.head, headIsDirty := false } := by
      have clean : ({ after with pagesNeedPut := false } : SwPager).tailIsDirty = false := by
        rw [frame]
        exact producing.tailClean
      have dirty : after.headIsDirty = true := by rw [frame]
      rw [SwPager.notifyPager, flushed, publish_of_puts puts clean]
      rw [if_pos dirty]
      rfl
    obtain ⟨more, accesses, within⟩ := written.accesses
    have chipTail : after.chipTail = state.pager.chipTail := by rw [frame]
    have cache : after.cache = Fifo.empty := by rw [frame]
    rw [notified]
    refine ⟨written.inside, ?_, ?_, fun _ => ?_, fun none => ?_⟩
    · rw [chipTail]
      exact kept.tail
    · intro access here
      rw [accesses] at here
      rcases List.mem_append.mp here with before | new
      · exact kept.accesses access before
      · exact within access new
    · refine ⟨rfl, rfl, ?_, fun some => ?_, queued ++ state.pager.cache.items, ?_, ?_⟩
      · rw [frame]
        exact producing.tailClean
      · rw [cache] at some
        exact absurd rfl some
      · rw [chipTail]
        refine holds.append ?_ ?_ ?_
        · rw [← producing.head]
          exact written.stores
        · change 4 * queued.length + 4 * state.pager.cache.len < _
          omega
        · rw [← producing.head, ← length_wordOctets]
          exact written.index
      · have nothing : after.cache.items = [] := by
          rw [cache]
          rfl
        rw [order, nothing, List.append_nil, List.append_assoc]
    · rw [puts] at none
      cases none
  · have flushed : state.pager.flush ring = state.pager := if_neg full
    have notified : (state.pager.notifyPager ring flags).2 = state.pager := by
      rw [SwPager.notifyPager, flushed, publish_of_puts puts producing.tailClean,
        producing.headClean, if_neg Bool.false_ne_true]
    rw [notified]
    exact kept

theorem Consuming.notify (kept : SwKept ring flags state) (pops : flags.hostPuts = false) :
    SwKept ring flags
      { state with pager := (state.pager.notifyPager ring flags).2 } := by
  have consuming := kept.consuming pops
  obtain ⟨read, queued, holds, before, below, order⟩ := consuming.queue
  have flushed : state.pager.flush ring = state.pager := by
    rw [SwPager.flush, if_neg]
    rw [consuming.clean]
    exact fun both => Bool.false_ne_true both.1
  have notified : (state.pager.notifyPager ring flags).2 =
      { state.pager with chipTail := state.pager.tail, tailIsDirty := false } := by
    rw [SwPager.notifyPager, flushed, publish_of_pops pops consuming.headClean]
    cases dirty : state.pager.tailIsDirty with
    | true => rfl
    | false =>
      have same := consuming.published dirty
      generalize state.pager = pager at dirty same
      cases pager
      cases dirty
      cases same
      rfl
  rw [notified]
  refine ⟨kept.head, consuming.tailInside, kept.accesses, fun some => ?_, fun _ => ?_⟩
  · rw [pops] at some
    cases some
  · refine ⟨consuming.headClean, consuming.clean, consuming.tailInside, fun _ => rfl, 0, queued,
      holds, ?_, by omega, order⟩
    rw [Nat.add_zero, Nat.mod_eq_of_lt (SwRing.index_lt consuming.tailInside)]

theorem items_foldl_refill {queued : List (BitVec 32)}
    (room : cache.items.length + queued.length ≤ maxPagerPageLen) :
    (queued.foldl SwPager.refill cache).items = cache.items ++ queued := by
  induction queued generalizing cache with
  | nil => exact (List.append_nil _).symm
  | cons word rest ih =>
    rw [List.length_cons] at room
    obtain ⟨after, done, items⟩ := @Fifo.put_of_lt _ _ cache (by
      rw [Fifo.len]
      omega) word
    have turn : SwPager.refill cache word = after := by
      rw [SwPager.refill, done, Option.getD_some]
    rw [List.foldl_cons, turn, ih, items, List.append_assoc]
    · rfl
    · rw [items, List.length_append, List.length_singleton]
      omega

theorem popCached_of_cons (first : pager.cache.items = page :: rest) :
    ∃ cache : Fifo (BitVec 32) maxPagerPageLen, cache.items = rest ∧
      pager.popCached = ⟨0, some page, { pager with cache }⟩ := by
  obtain ⟨word, cache, taken⟩ := @Fifo.get_of_pos _ _ pager.cache (by
    rw [Fifo.len, first]
    exact Nat.succ_pos _)
  have items := Fifo.get_eq_some taken
  rw [first] at items
  obtain ⟨rfl, rfl⟩ := List.cons.inj items
  refine ⟨cache, rfl, ?_⟩
  rw [SwPager.popCached, taken]

/-- What a pop does: it gives the first page that is pending, or none where none is pending or
there is no memory. -/
def PopsFirst (ring : SwRing) (flags : SwFlags) (state : SwState) (enough : Bool)
    (popped : SwPager.SwPopped) : Prop :=
  (∃ page rest, popped.result = 0 ∧ popped.page = some page ∧
      state.pending ring flags = page :: rest) ∨
    popped.page = none ∧ (state.pending ring flags = [] ∨ enough = false)

theorem Consuming.popCached {page : BitVec 32} {rest : List (BitVec 32)}
    (pops : flags.hostPuts = false) (kept : SwKept ring flags { state with pager })
    (first : pager.cache.items = page :: rest) :
    pager.popCached.result = 0 ∧ pager.popCached.page = some page ∧
      SwKept ring flags { state with
        pager := pager.popCached.pager
        delivered := state.delivered ++ [page] } := by
  have consuming := kept.consuming pops
  obtain ⟨read, queued, holds, before, below, order⟩ := consuming.queue
  obtain ⟨cache, items, popped⟩ := popCached_of_cons first
  rw [popped]
  refine ⟨rfl, rfl, kept.head, kept.tail, kept.accesses, fun some => ?_, fun _ => ?_⟩
  · rw [pops] at some
    cases some
  · refine ⟨consuming.headClean, consuming.clean, consuming.tailInside, consuming.published,
      read, queued, holds, before, below, ?_⟩
    rw [order, first, items]
    simp only [List.append_assoc, List.cons_append, List.nil_append]

theorem Consuming.refilled {read : Nat} (kept : SwKept ring flags state)
    (pops : flags.hostPuts = false) (room : 4 * queued.length ≤ 4 * maxPagerPageLen)
    (cached : state.pager.cache.items = [])
    (holds : Holds ring state.pager.memory state.pager.tail state.pager.chipHead queued)
    (before : ring.index state.pager.tail =
      (ring.index state.pager.chipTail + read) % ring.size.toNat)
    (below : read + 4 * queued.length < ring.size.toNat)
    (order : state.inserted = state.delivered ++ state.pager.cache.items ++ queued)
    (taken : TakenOff ring state.pager.readHead after (4 * queued.length) data) :
    words data = queued ∧
      (queued.foldl SwPager.refill after.cache).items = queued ∧
      SwKept ring flags { state with
        pager := { after with cache := queued.foldl SwPager.refill after.cache } } := by
  have consuming := kept.consuming pops
  have frame := taken.frame
  have cache : after.cache.items = [] := by
    rw [frame]
    exact cached
  have filled : (queued.foldl SwPager.refill after.cache).items = queued := by
    rw [items_foldl_refill, cache, List.nil_append]
    rw [cache, List.length_nil]
    omega
  have chipHead : after.chipHead = state.pager.chipHead := by rw [frame]; rfl
  have chipTail : after.chipTail = state.pager.chipTail := by rw [frame]; rfl
  obtain ⟨more, accesses, within⟩ := taken.accesses
  have moved : ring.index after.tail =
      (ring.index state.pager.tail + 4 * queued.length) % ring.size.toNat := taken.index
  refine ⟨?_, filled, ?_, ?_, ?_, fun some => ?_, fun _ => ?_⟩
  · rw [taken.data]
    exact (congrArg words holds.octets).trans (words_wordOctets queued)
  · rw [chipHead]
    exact kept.head
  · rw [chipTail]
    exact kept.tail
  · intro access here
    rw [accesses] at here
    rcases List.mem_append.mp here with before | new
    · exact kept.accesses access before
    · exact within access new
  · rw [pops] at some
    cases some
  · refine ⟨?_, ?_, taken.inside, fun clean => ?_, read + 4 * queued.length, [],
      Holds.nil _ taken.inside ?_, ?_, by simpa using below, ?_⟩
    · rw [frame]
      exact consuming.headClean
    · rw [frame]
      exact consuming.clean
    · rw [frame] at clean
      cases clean
    · rw [chipHead, holds.head, moved]
    · rw [chipTail, moved, before, Nat.mod_add_mod, Nat.add_assoc]
    · rw [order, cached, filled, List.append_nil, List.append_nil]

theorem Consuming.pop_read {read : Nat} (kept : SwKept ring flags state)
    (pops : flags.hostPuts = false)
    (room : (ring.count state.pager.chipHead state.pager.tail).toNat ≤ 4 * maxPagerPageLen)
    (cached : state.pager.cache.items = [])
    (holds : Holds ring state.pager.memory state.pager.tail state.pager.chipHead (page :: rest))
    (before : ring.index state.pager.tail =
      (ring.index state.pager.chipTail + read) % ring.size.toNat)
    (below : read + 4 * (page :: rest).length < ring.size.toNat)
    (order : state.inserted =
      state.delivered ++ state.pager.cache.items ++ (page :: rest))
    (counted : (ring.count state.pager.chipHead state.pager.tail).toNat =
      4 * (page :: rest).length) :
    PopsFirst ring flags state true (state.pager.pop ring true) ∧
      SwKept ring flags { state with
        pager := (state.pager.pop ring true).pager
        delivered := state.delivered ++ (state.pager.pop ring true).page.toList } := by
  have consuming := kept.consuming pops
  obtain ⟨data, after, done, taken⟩ := @takenOff_dataRead ring state.pager.readHead
    (4 * (page :: rest).length) _ kept.head consuming.tailInside holds.head holds.fits
    (Nat.le_refl _)
  rw [counted] at room
  obtain ⟨read, filled, refilled⟩ :=
    Consuming.refilled kept pops room cached holds before below order taken
  have length : state.pager.cache.len = 0 := by
    rw [Fifo.len, cached]
    rfl
  have popped : state.pager.pop ring true = SwPager.popCached
      { after with cache := (page :: rest).foldl SwPager.refill after.cache } := by
    rw [SwPager.pop, if_pos length]
    refine (if_neg ?_).trans ((if_neg Bool.noConfusion).trans ?_)
    · rw [SwPager.readHead]
      rw [counted, List.length_cons]
      omega
    · have toRead : (ring.count state.pager.readHead.head state.pager.readHead.tail).toNat =
          4 * (page :: rest).length := counted
      rw [toRead, done, SwPager.popRead, read]
  obtain ⟨result, given, popsKept⟩ := Consuming.popCached pops refilled filled
  rw [popped]
  refine ⟨Or.inl ⟨page, rest, result, given, ?_⟩, ?_⟩
  · rw [SwState.pending, if_neg (by rw [pops]; exact Bool.false_ne_true),
      holds.pages consuming.tailInside kept.head, cached, List.nil_append]
  · rw [given]
    exact popsKept

theorem Consuming.pop (kept : SwKept ring flags state)
    (admits : SwAdmits ring flags state (.pop enough)) :
    PopsFirst ring flags state enough (state.pager.pop ring enough) ∧
      SwKept ring flags { state with
        pager := (state.pager.pop ring enough).pager
        delivered := state.delivered ++ (state.pager.pop ring enough).page.toList } := by
  obtain ⟨pops, room⟩ := admits
  have consuming := kept.consuming pops
  obtain ⟨read, queued, holds, before, below, order⟩ := consuming.queue
  have counted := holds.count consuming.tailInside kept.head
  have pending : state.pending ring flags = state.pager.cache.items ++ queued := by
    rw [SwState.pending, if_neg (by rw [pops]; exact Bool.false_ne_true),
      holds.pages consuming.tailInside kept.head]
  cases cached : state.pager.cache.items with
  | cons page rest =>
    have length : state.pager.cache.len ≠ 0 := by
      rw [Fifo.len, cached]
      exact Nat.succ_ne_zero _
    have popped : state.pager.pop ring enough = state.pager.popCached := if_neg length
    obtain ⟨result, given, after⟩ := @Consuming.popCached ring flags state state.pager page rest
      pops kept cached
    rw [popped]
    refine ⟨Or.inl ⟨page, rest ++ queued, result, given, ?_⟩, ?_⟩
    · rw [pending, cached, List.cons_append]
    · rw [given]
      exact after
  | nil =>
    have length : state.pager.cache.len = 0 := by
      rw [Fifo.len, cached]
      rfl
    have headRead : SwKept ring flags { state with
        pager := { state.pager with head := state.pager.chipHead } } := by
      refine ⟨kept.head, kept.tail, kept.accesses, fun some => ?_, fun _ => ?_⟩
      · rw [pops] at some
        cases some
      · exact ⟨consuming.headClean, consuming.clean, consuming.tailInside,
          consuming.published, read, queued, holds, before, below, order⟩
    cases queued with
    | nil =>
      have popped : state.pager.pop ring enough = ⟨-eAgain, none, state.pager.readHead⟩ := by
        rw [SwPager.pop, if_pos length]
        exact if_pos counted
      rw [popped]
      refine ⟨Or.inr ⟨rfl, Or.inl ?_⟩, ?_⟩
      · rw [pending, cached]
        rfl
      · rw [Option.toList_none, List.append_nil]
        exact headRead
    | cons page rest =>
      have some : (ring.count state.pager.chipHead state.pager.tail).toNat ≠ 0 := by
        rw [counted, List.length_cons]
        omega
      cases enough with
      | false =>
        have popped : state.pager.pop ring false =
            ⟨-eNoMem, none, state.pager.readHead⟩ := by
          rw [SwPager.pop, if_pos length]
          exact (if_neg some).trans (if_pos rfl)
        rw [popped]
        refine ⟨Or.inr ⟨rfl, Or.inr rfl⟩, ?_⟩
        rw [Option.toList_none, List.append_nil]
        exact headRead
      | true =>
        exact Consuming.pop_read kept pops (room cached) cached holds before below order
          counted

theorem SwKept.step (kept : SwKept ring flags state) (admits : SwAdmits ring flags state action)
    (taken : swStep ring flags state action = some next) :
    SwKept ring flags next := by
  cases action with
  | pop enough =>
    cases taken
    exact (Consuming.pop kept admits).2
  | put page => exact kept.put admits taken
  | notify =>
    cases taken
    cases puts : flags.hostPuts with
    | true => exact Producing.notify kept puts admits
    | false => exact Consuming.notify kept puts
  | chipAdd page => exact kept.chipAdd taken
  | chipRemove => exact kept.chipRemove taken

end Steps

/-- In every run whose steps are admitted, the pager is one queue. -/
theorem swSound_of_reaches {ring : SwRing} {flags : SwFlags} {start state : SwState}
    (starts : SwStarts ring start)
    (reaches : Reaches (swStep ring flags) (SwAdmits ring flags) start state) :
    SwSound ring flags state := by
  have kept : SwKept ring flags state := by
    refine @Reaches.invariant _ _ (swStep ring flags) (SwAdmits ring flags) start state
      (SwKept ring flags) (SwKept.of_starts starts) ?_ reaches
    intro before action after holds admits taken
    exact holds.step admits taken
  refine ⟨kept.head, kept.tail, kept.accesses, kept.order, fun page rest admits pending => ?_⟩
  rcases (Consuming.pop kept admits).1 with ⟨given, others, result, popped, same⟩ | ⟨-, none⟩
  · rw [pending] at same
    cases same
    exact ⟨result, popped⟩
  · rcases none with none | none
    · rw [pending] at none
      cases none
    · cases none

/-- A ring of so many octets. -/
def smallRing (order : Nat) (below : order < 16) : SwRing where
  base := 0x1000
  size := BitVec.twoPow 16 order
  power := ⟨order, by
    rw [BitVec.toNat_twoPow]
    exact Nat.mod_eq_of_lt (Nat.pow_lt_pow_right Nat.one_lt_two below)⟩
  room := by
    have small := (BitVec.twoPow 16 order).isLt
    change 0x1000 + (BitVec.twoPow 16 order).toNat ≤ 2 ^ 32
    omega

/-- A pager with nothing in the ring, whose pointers are at an address. -/
def emptyPager (pointer : BitVec 32) : SwState where
  pager :=
    { head := pointer
      tail := pointer
      headIsDirty := false
      tailIsDirty := false
      cache := Fifo.empty
      pagesNeedPut := false
      memory := fun _ => 0
      chipHead := pointer
      chipTail := pointer
      accesses := [] }
  inserted := []
  delivered := []

/-- The pages that the host fills for the chip. -/
def filled : SwFlags := ⟨.toChip, .populated⟩

theorem swSound_of_reaches_around :
    ∃ state, run (swStep (smallRing 4 (by decide)) filled) (emptyPager 0x100a)
        [.put 0x2000, .put 0x3000, .notify, .chipRemove] = some state ∧
      state.delivered = [0x2000] ∧ SwSound (smallRing 4 (by decide)) filled state := by
  refine ⟨_, rfl, by decide +kernel, @swSound_of_reaches _ _ (emptyPager 0x100a) _ ?_ ?_⟩
  · exact ⟨by decide, by decide, rfl, rfl, rfl, rfl, rfl, rfl, rfl, by decide, rfl, rfl⟩
  · exact @Reaches.of_run _ _ (swStep (smallRing 4 (by decide)) filled)
      (SwAdmits (smallRing 4 (by decide)) filled) (emptyPager 0x100a) _
      [.put 0x2000, .put 0x3000, .notify, .chipRemove]
      ⟨⟨rfl, by decide⟩, ⟨rfl, by decide⟩, fun _ => by decide, trivial, trivial⟩ rfl

/-- A write up to the end of the ring publishes a head behind it; the page that is put into a full
cache, and the pages that do not fit into the ring, are lost, and nothing is reported. -/
theorem not_swSound :
    (∃ state, run (swStep (smallRing 3 (by decide)) filled) (emptyPager 0x1004)
        [.put 0x2000, .notify] = some state ∧
          ¬ (smallRing 3 (by decide)).Inside state.pager.chipHead) ∧
      (∃ state, run (swStep (smallRing 8 (by decide)) filled) (emptyPager 0x1000)
        (List.replicate 33 (.put 0x2000)) = some state ∧ state.inserted.length = 33 ∧
          state.delivered = [] ∧ (state.pending (smallRing 8 (by decide)) filled).length = 32 ∧
          (state.pager.put 0x2000).1 = 0) ∧
      ∃ state, run (swStep (smallRing 2 (by decide)) filled) (emptyPager 0x1000)
        [.put 0x2000, .notify] = some state ∧ state.inserted = [0x2000] ∧
          state.delivered = [] ∧ state.pending (smallRing 2 (by decide)) filled = [] ∧
          (state.pager.notifyPager (smallRing 2 (by decide)) filled).1 = 0 := by
  refine ⟨⟨_, rfl, by decide⟩, ⟨_, rfl, by decide +kernel, rfl, by decide +kernel, rfl⟩, _, rfl,
    rfl, rfl, by decide +kernel, rfl⟩

end Pager
end Morse
