import Mathlib.Logic.Function.Basic
import Morse.Lib.Transition

/-!
# The hardware pager

The hardware hands out and takes back pages of the packet memory by words of 32 bits: the
highest bit tells one of two blocks of 31 pages, the other bits are a bitmap of pages in it.
The driver keeps a cache of pages in such bitmaps for a pager of free pages, takes pages from it
and puts them into it one at a time, and gives the whole cache to the hardware when it notifies
the chip.  Without a packet memory the words are the addresses of pages, and nothing is cached.
-/

namespace Morse
namespace Pager

open Lib

/-- `struct morse_pager_pkt_memory`. -/
structure PktMemory where
  baseAddr : BitVec 32
  pageLen : BitVec 16
  pageLenReserved : BitVec 8
  num : BitVec 8

namespace PktMemory

variable (pktMemory : PktMemory)

/-- `morse_pager_hw_get_index_from_page`; no length is zero where this is used. -/
def getIndexFromPage (addr : BitVec 32) : Option (BitVec 8) :=
  if addr < pktMemory.baseAddr ∨ pktMemory.baseAddr +
      BitVec.ofNat 32 (pktMemory.pageLen.toNat * pktMemory.num.toNat) < addr then none
  else some (BitVec.ofNat 8 ((addr - BitVec.ofNat 32 pktMemory.pageLenReserved.toNat -
    pktMemory.baseAddr).toNat / pktMemory.pageLen.toNat))

/-- The address of a page, without the octets reserved in front. -/
def address (index : Nat) : BitVec 32 :=
  pktMemory.baseAddr + BitVec.ofNat 32 (pktMemory.pageLen.toNat * index) +
    BitVec.ofNat 32 pktMemory.pageLenReserved.toNat

/-- `morse_pager_hw_get_page_from_index`. -/
def getPageFromIndex (index : Nat) : Option (BitVec 32) :=
  if pktMemory.num.toNat ≤ index then none else some (pktMemory.address index)

end PktMemory

/-- The words of the cache, and those behind them in memory. -/
abbrev Words := Nat → BitVec 32

/-- `MORSE_PAGER_NUM_BLOCKS`. -/
def numBlocks : Nat := 2

/-- `MORSE_PAGER_BITS_BITMAP_LEN`. -/
def bitmapLen : Nat := 31

/-- One bit of a word. -/
def bit (index : Nat) : BitVec 32 := BitVec.twoPow 32 index

/-- The block that a word tells. -/
def blockOf (word : BitVec 32) : Nat := (word >>> bitmapLen).toNat

/-- The bitmap of a word. -/
def bitmapOf (word : BitVec 32) : BitVec 32 := word &&& ~~~ bit bitmapLen

/-- `morse_pager_hw_cache_pages`. -/
def cachePages (words : Words) (word : BitVec 32) : Words :=
  Function.update words (blockOf word) (bitmapOf word)

/-- `ffs`, counting from zero. -/
def ffs (word : BitVec 32) : Option Nat := (List.range 32).find? word.getLsbD

/-- The first word of the cache that is not empty. -/
def firstBlock (words : Words) : Option Nat :=
  (List.range numBlocks).find? fun block => words block != 0

/-- `morse_pager_hw_get_page_from_cache`: the page, unless it fails, and the words after it. -/
def getPageFromCache (pktMemory : PktMemory) (words : Words) : Option (BitVec 32) × Words :=
  match firstBlock words with
  | none => (none, words)
  | some block =>
    match ffs (words block) with
    | none => (none, words)
    | some index =>
      (pktMemory.getPageFromIndex (block * bitmapLen + index),
        Function.update words block (words block &&& ~~~ bit index))

/-- What a pop gives: a page, the words after it, and what was taken from the hardware. -/
structure Popped where
  page : Option (BitVec 32)
  words : Words
  taken : Option (BitVec 32)

/-- `_morse_pager_hw_pop`: the register may fail to be read, and zero tells that no page is
left. -/
def rawPop (answer : Option (BitVec 32)) : Option (BitVec 32) :=
  match answer with
  | none => none
  | some word => if word = 0 then none else some word

/-- `morse_pager_hw_pop` of a pager of free pages. -/
def pop (pktMemory : PktMemory) (words : Words) (answer : Option (BitVec 32)) : Popped :=
  if pktMemory.num = 0 then ⟨rawPop answer, words, rawPop answer⟩
  else
    match getPageFromCache pktMemory words with
    | (some page, words) => ⟨some page, words, none⟩
    | (none, words) =>
      match rawPop answer with
      | none => ⟨none, words, none⟩
      | some word =>
        ⟨(getPageFromCache pktMemory (cachePages words word)).1,
          (getPageFromCache pktMemory (cachePages words word)).2, some word⟩

/-- What a put does: whether it succeeds, the words after it, and what the hardware got. -/
structure Put where
  success : Bool
  words : Words
  given : Option (BitVec 32)

/-- `morse_pager_hw_put` of a pager of free pages; without a packet memory the register may fail
to be written. -/
def put (pktMemory : PktMemory) (words : Words) (addr : BitVec 32) (written : Bool) : Put :=
  if pktMemory.num = 0 then ⟨written, words, if written then some addr else none⟩
  else
    match pktMemory.getIndexFromPage addr with
    | none => ⟨false, words, none⟩
    | some index =>
      let block := index.toNat / bitmapLen
      ⟨true, Function.update words block
        (words block ||| bit (index.toNat - block * bitmapLen)), none⟩

/-- One turn of the loop of `_morse_pager_hw_notify_pager`: the words, and what was written so
far with whether that succeeded. -/
def notifyBlock (status : Nat → Bool) (done : Words × List (BitVec 32 × Bool)) (block : Nat) :
    Words × List (BitVec 32 × Bool) :=
  if done.1 block = 0 then done
  else (Function.update done.1 block 0,
    done.2 ++ [(BitVec.ofNat 32 block <<< bitmapLen ||| done.1 block, status block)])

/-- `morse_pager_hw_notify_pager` of a pager of free pages. -/
def notify (pktMemory : PktMemory) (words : Words) (status : Nat → Bool) :
    Words × List (BitVec 32 × Bool) :=
  if pktMemory.num = 0 then (words, [])
  else (List.range numBlocks).foldl (notifyBlock status) (words, [])

/-! ## Pages and where they are -/

/-- The pages of a bitmap in a block. -/
def pagesOf (pktMemory : PktMemory) (block : Nat) (bitmap : BitVec 32) (addr : BitVec 32) :
    Bool :=
  (List.range bitmapLen).any fun index =>
    bitmap.getLsbD index && pktMemory.address (block * bitmapLen + index) == addr

/-- The pages of the words of the cache. -/
def cachedPages (pktMemory : PktMemory) (words : Words) (addr : BitVec 32) : Bool :=
  (List.range numBlocks).any fun block => pagesOf pktMemory block (words block) addr

/-- The pages that a word of the hardware tells. -/
def decoded (pktMemory : PktMemory) (word addr : BitVec 32) : Bool :=
  if pktMemory.num = 0 then word == addr
  else pagesOf pktMemory (blockOf word) (bitmapOf word) addr

/-- Where a page can be. -/
inductive Place
  /-- With the caller. -/
  | held
  /-- In the cache. -/
  | cached
  /-- In the hardware. -/
  | inside
  deriving DecidableEq

/-- The pager with its caller and the hardware. -/
structure State where
  words : Words
  /-- The pages that the caller holds. -/
  held : BitVec 32 → Bool
  /-- The pages in the hardware. -/
  inside : BitVec 32 → Bool
  /-- The pages that were put since the last notification, and not popped again. -/
  fresh : BitVec 32 → Bool
  /-- The pages in the cache that came from the hardware. -/
  refilled : BitVec 32 → Bool

/-- Pages by their places. -/
def pagesAt (held cached inside : BitVec 32 → Bool) : Place → BitVec 32 → Bool
  | .held => held
  | .cached => cached
  | .inside => inside

/-- The pages in each place. -/
def State.pages (pktMemory : PktMemory) (state : State) : Place → BitVec 32 → Bool :=
  pagesAt state.held (cachedPages pktMemory state.words) state.inside

/-- What the caller and the hardware do. -/
inductive Action
  /-- A page is popped; what the register answers, if it is read. -/
  | pop (answer : Option (BitVec 32))
  /-- A page is put; whether the register is written, if it is. -/
  | put (addr : BitVec 32) (written : Bool)
  /-- The chip is notified; which words are written. -/
  | notify (status : Nat → Bool)

/-- Some pages are taken from others. -/
def without (pages taken : BitVec 32 → Bool) (addr : BitVec 32) : Bool :=
  pages addr && !taken addr

/-- Some pages are added to others. -/
def together (pages more : BitVec 32 → Bool) (addr : BitVec 32) : Bool :=
  pages addr || more addr

/-- The only page, if there is one. -/
def only (page : Option (BitVec 32)) (addr : BitVec 32) : Bool := page == some addr

/-- The pages of a word, if there is one. -/
def told (pktMemory : PktMemory) (word : Option (BitVec 32)) (addr : BitVec 32) : Bool :=
  word.elim false fun word => decoded pktMemory word addr

/-- The pages of the words that were written. -/
def written (pktMemory : PktMemory) (words : List (BitVec 32 × Bool)) (addr : BitVec 32) : Bool :=
  words.any fun entry => entry.2 && decoded pktMemory entry.1 addr

/-- One step. -/
def step (pktMemory : PktMemory) (state : State) : Action → Option State
  | .pop answer =>
    let popped := pop pktMemory state.words answer
    some { state with
      words := popped.words
      held := together state.held (only popped.page)
      inside := without state.inside (told pktMemory popped.taken)
      fresh := without state.fresh (only popped.page)
      refilled := without
        (if pktMemory.num = 0 then state.refilled
          else together state.refilled (told pktMemory popped.taken))
        (only popped.page) }
  | .put addr ok =>
    let done := put pktMemory state.words addr ok
    some { state with
      words := done.words
      held := if done.success then without state.held (only (some addr)) else state.held
      inside := together state.inside (told pktMemory done.given)
      fresh := if done.success ∧ pktMemory.num ≠ 0
        then together state.fresh (only (some addr)) else state.fresh }
  | .notify status =>
    let done := notify pktMemory state.words status
    some { state with
      words := done.1
      inside := together state.inside (written pktMemory done.2)
      fresh := if pktMemory.num = 0 then state.fresh else fun _ => false
      refilled := if pktMemory.num = 0 then state.refilled else fun _ => false }

end Pager
end Morse
