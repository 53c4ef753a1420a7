import Morse.Lib.Fifo
import Morse.Lib.Ring
import Morse.Lib.Transition

/-!
# The software pager

A software pager is a ring of octets in the memory of the chip, with a head where page addresses
are inserted and a tail where they are removed.  One end is the host's and the other the chip's.
The driver keeps copies of both, and in front of its own end a cache of pages: pages that are put
are written to the ring when the chip is notified, and a pop reads all that the ring holds.  The
pointer of the host's end is published when the chip is notified.
-/

namespace Morse
namespace Pager

open Lib

/-- Where the ring is; its size is a power of two. -/
structure SwRing where
  base : BitVec 32
  size : BitVec 16
  power : ∃ order, size.toNat = 2 ^ order
  room : base.toNat + size.toNat ≤ 2 ^ 32

/-- `MAX_PAGER_PAGE_LEN`. -/
def maxPagerPageLen : Nat := 32

/-- `EAGAIN`. -/
def eAgain : Int := 11

/-- `ENOMEM`. -/
def eNoMem : Int := 12

/-- The direction of the pages of a pager. -/
inductive Direction
  /-- `MORSE_PAGER_FLAGS_DIR_TO_CHIP`. -/
  | toChip
  /-- `MORSE_PAGER_FLAGS_DIR_TO_HOST`. -/
  | toHost
  deriving DecidableEq

/-- What the pages of a pager hold. -/
inductive Content
  /-- `MORSE_PAGER_FLAGS_POPULATED`. -/
  | populated
  /-- `MORSE_PAGER_FLAGS_FREE`. -/
  | free
  deriving DecidableEq

/-- The flags of a pager. -/
structure SwFlags where
  direction : Direction
  content : Content
  deriving DecidableEq

/-- Whether the host inserts the pages: filled ones for the chip, and free ones that the chip may
fill.  It removes those of the other pagers. -/
def SwFlags.hostPuts : SwFlags → Bool
  | ⟨.toChip, .populated⟩ => true
  | ⟨.toChip, .free⟩ => false
  | ⟨.toHost, .populated⟩ => false
  | ⟨.toHost, .free⟩ => true

/-- `struct morse_pager_sw_aux_data` with what it is about: the memory of the chip, the pointers
that are published there, and what was accessed of the memory so far. -/
structure SwPager where
  head : BitVec 32
  tail : BitVec 32
  headIsDirty : Bool
  tailIsDirty : Bool
  cache : Fifo (BitVec 32) maxPagerPageLen
  pagesNeedPut : Bool
  memory : Nat → BitVec 8
  chipHead : BitVec 32
  chipTail : BitVec 32
  accesses : List (BitVec 32 × Nat)

namespace SwRing

variable (ring : SwRing)

/-- The size as `u32`. -/
def size32 : BitVec 32 := ring.size.setWidth 32

/-- `__morse_pager_sw_count`. -/
def count (head tail : BitVec 32) : BitVec 32 :=
  ((head - ring.base) - (tail - ring.base)) &&& (ring.size32 - 1)

/-- `__morse_pager_sw_space`. -/
def space (head tail : BitVec 32) : BitVec 32 := ring.size32 - 1 - ring.count head tail

/-- The last octet of the ring. -/
def last : BitVec 32 := ring.base + ring.size32 - 1

/-- `morse_pager_sw_space_to_end`. -/
def spaceToEnd (head tail : BitVec 32) : BitVec 32 :=
  if tail ≤ head then ring.last - head + 1 else tail - head

/-- `morse_pager_sw_count_to_end`. -/
def countToEnd (head tail : BitVec 32) : BitVec 32 :=
  if tail ≤ head then head - tail else ring.last - tail + 1

end SwRing

namespace SwPager

variable (ring : SwRing) (pager : SwPager)

/-- `morse_dm_write`. -/
def dmWrite (address : BitVec 32) (data : List (BitVec 8)) : SwPager :=
  { pager with
    memory := overwrite pager.memory address.toNat data
    accesses := pager.accesses ++ [(address, data.length)] }

/-- `morse_dm_read`: what is read, and the access. -/
def dmRead (address : BitVec 32) (len : Nat) : List (BitVec 8) × SwPager :=
  (segment pager.memory address.toNat len,
    { pager with accesses := pager.accesses ++ [(address, len)] })

/-- `morse_pager_sw_rb_read_head`. -/
def readHead : SwPager := { pager with head := pager.chipHead }

/-- `morse_pager_sw_rb_read_tail`. -/
def readTail : SwPager := { pager with tail := pager.chipTail }

/-- `morse_pager_sw_rb_write_head`. -/
def writeHead : SwPager := { pager with chipHead := pager.head, headIsDirty := false }

/-- `morse_pager_sw_rb_write_tail`. -/
def writeTail : SwPager := { pager with chipTail := pager.tail, tailIsDirty := false }

/-- `morse_pager_sw_data_write` after the tail was read. -/
def store (data : List (BitVec 8)) : Int × SwPager :=
  let spc2end := (ring.spaceToEnd pager.head pager.tail).toNat
  if (ring.space pager.head pager.tail).toNat < data.length then (-eAgain, pager)
  else if data.length ≤ spc2end then
    let written := pager.dmWrite pager.head data
    (0, { written with
      head := written.head + BitVec.ofNat 32 data.length
      headIsDirty := true })
  else
    let first := pager.dmWrite pager.head (data.take spc2end)
    let second := first.dmWrite ring.base (data.drop spc2end)
    (0, { second with
      head := ring.base + BitVec.ofNat 32 (data.drop spc2end).length
      headIsDirty := true })

/-- `morse_pager_sw_data_write`. -/
def dataWrite (data : List (BitVec 8)) : Int × SwPager := pager.readTail.store ring data

/-- The tail behind what was read up to the end of the ring. -/
def tailAfter (len : Nat) : BitVec 32 :=
  let tail := pager.tail + BitVec.ofNat 32 len
  if tail = ring.base + ring.size32 then ring.base else tail

/-- `morse_pager_sw_data_read`: what is read, unless it fails. -/
def dataRead (len : Nat) : Option (List (BitVec 8)) × SwPager :=
  let cnt2end := (ring.countToEnd pager.head pager.tail).toNat
  if (ring.count pager.head pager.tail).toNat < len then (none, pager)
  else if len ≤ cnt2end then
    let read := pager.dmRead pager.tail len
    (some read.1, { read.2 with tail := pager.tailAfter ring len, tailIsDirty := true })
  else
    let first := pager.dmRead pager.tail cnt2end
    let second := first.2.dmRead ring.base (len - cnt2end)
    (some (first.1 ++ second.1),
      { second.2 with
        tail := ring.base + BitVec.ofNat 32 (len - cnt2end)
        tailIsDirty := true })

/-- The pages of the cache are written to the ring, if there are any; `kzalloc` gives a
buffer. -/
def flush : SwPager :=
  if pager.pagesNeedPut ∧ 0 < pager.cache.len then
    let written :=
      ({ pager with cache := Fifo.empty }.dataWrite ring (wordOctets pager.cache.items)).2
    { written with pagesNeedPut := false }
  else pager

/-- The pointer of the end that the flags tell is published if it has changed. -/
def publish (flags : SwFlags) : SwPager :=
  match flags.direction with
  | .toChip =>
    if flags.content = .populated ∧ pager.headIsDirty then pager.writeHead
    else if flags.content = .free ∧ pager.tailIsDirty then pager.writeTail
    else pager
  | .toHost =>
    if flags.content = .populated ∧ pager.tailIsDirty then pager.writeTail
    else if flags.content = .free ∧ pager.headIsDirty then pager.writeHead
    else pager

/-- `morse_pager_sw_notify_pager`, which returns zero. -/
def notifyPager (flags : SwFlags) : Int × SwPager := (0, (pager.flush ring).publish flags)

/-- One turn of the loop that puts what was read into the cache, which only warns when the cache
is full. -/
def refill (cache : Fifo (BitVec 32) maxPagerPageLen) (word : BitVec 32) :
    Fifo (BitVec 32) maxPagerPageLen :=
  (cache.put word).getD cache

/-- What a pop gives: its result and the address of the page. -/
structure SwPopped where
  result : Int
  page : Option (BitVec 32)
  pager : SwPager

/-- The page that is first in the cache, which holds one; the address is zero where it does
not. -/
def popCached : SwPopped :=
  match pager.cache.get with
  | some (word, cache) => ⟨0, some word, { pager with cache }⟩
  | none => ⟨0, some 0, pager⟩

/-- What is read from the ring is put into the cache, and the first page is taken from it. -/
def popRead : Option (List (BitVec 8)) × SwPager → SwPopped
  | (none, pager) => ⟨-eAgain, none, pager⟩
  | (some data, read) =>
    { read with cache := (words data).foldl refill read.cache }.popCached

/-- `morse_pager_sw_pop`; whether `kzalloc` gives a buffer if it is asked for one. -/
def pop (enough : Bool) : SwPopped :=
  if pager.cache.len = 0 then
    let pager := pager.readHead
    let toRead := (ring.count pager.head pager.tail).toNat
    if toRead = 0 then ⟨-eAgain, none, pager⟩
    else if enough = false then ⟨-eNoMem, none, pager⟩
    else popRead (pager.dataRead ring toRead)
  else pager.popCached

/-- `morse_pager_sw_put`, which returns zero. -/
def put (page : BitVec 32) : Int × SwPager :=
  (0, { pager with cache := (pager.cache.put page).getD pager.cache, pagesNeedPut := true })

end SwPager

/-! ## The pager with the chip -/

/-- The pager, and the pages that were inserted and delivered so far. -/
structure SwState where
  pager : SwPager
  inserted : List (BitVec 32)
  delivered : List (BitVec 32)

/-- What the host and the chip do. -/
inductive SwAction
  /-- The host pops a page; whether there is memory for a buffer. -/
  | pop (enough : Bool)
  /-- The host puts a page. -/
  | put (page : BitVec 32)
  /-- The host notifies the chip. -/
  | notify
  /-- The chip inserts a page. -/
  | chipAdd (page : BitVec 32)
  /-- The chip removes a page. -/
  | chipRemove

namespace SwRing

variable (ring : SwRing)

/-- The index in the ring of a pointer. -/
def index (pointer : BitVec 32) : Nat := pointer.toNat - ring.base.toNat

/-- A pointer is to an octet of the ring. -/
def Inside (pointer : BitVec 32) : Prop :=
  ring.base.toNat ≤ pointer.toNat ∧ pointer.toNat < ring.base.toNat + ring.size.toNat

instance (pointer : BitVec 32) : Decidable (ring.Inside pointer) :=
  inferInstanceAs (Decidable (_ ∧ _))

/-- The octets of the ring from a tail to a head. -/
def octets (memory : Nat → BitVec 8) (tail head : BitVec 32) : List (BitVec 8) :=
  segment (unrolled memory ring.base.toNat ring.size.toNat) (ring.index tail)
    (ring.count head tail).toNat

/-- The pages in the ring from a tail to a head. -/
def pages (memory : Nat → BitVec 8) (tail head : BitVec 32) : List (BitVec 32) :=
  words (ring.octets memory tail head)

/-- A pointer moved by one page address. -/
def advance (pointer : BitVec 32) : BitVec 32 :=
  ring.base + BitVec.ofNat 32 ((ring.index pointer + 4) % ring.size.toNat)

/-- The octets of a page address are stored in the ring one by one from a pointer on. -/
def storePage (memory : Nat → BitVec 8) (pointer : BitVec 32) (page : BitVec 32) :
    Nat → BitVec 8 :=
  storeEach ring.base.toNat ring.size.toNat memory (ring.index pointer) (leOctets 4 page)

end SwRing

/-- The pages that are inserted and not yet delivered, in order. -/
def SwState.pending (ring : SwRing) (flags : SwFlags) (state : SwState) : List (BitVec 32) :=
  let pager := state.pager
  if flags.hostPuts then
    ring.pages pager.memory pager.chipTail pager.chipHead ++ pager.cache.items
  else pager.cache.items ++ ring.pages pager.memory pager.tail pager.chipHead

/-- One step.  The chip inserts a page where there is room for it, and removes one where there
is one, as the published pointers tell. -/
def swStep (ring : SwRing) (flags : SwFlags) (state : SwState) : SwAction → Option SwState
  | .pop enough =>
    let popped := state.pager.pop ring enough
    some { state with
      pager := popped.pager
      delivered := state.delivered ++ popped.page.toList }
  | .put page =>
    some { state with
      pager := (state.pager.put page).2
      inserted := state.inserted ++ [page] }
  | .notify => some { state with pager := (state.pager.notifyPager ring flags).2 }
  | .chipAdd page =>
    let pager := state.pager
    if flags.hostPuts = false ∧ 4 ≤ (ring.space pager.chipHead pager.chipTail).toNat then
      some { state with
        pager := { pager with
          memory := ring.storePage pager.memory pager.chipHead page
          chipHead := ring.advance pager.chipHead }
        inserted := state.inserted ++ [page] }
    else none
  | .chipRemove =>
    let pager := state.pager
    if flags.hostPuts = true ∧ 4 ≤ (ring.count pager.chipHead pager.chipTail).toNat then
      some { state with
        pager := { pager with chipTail := ring.advance pager.chipTail }
        delivered := state.delivered ++
          (ring.pages pager.memory pager.chipTail pager.chipHead).take 1 }
    else none

end Pager
end Morse
