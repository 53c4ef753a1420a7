import Morse.Lib.Fifo
import Morse.Skbq.Defs

/-!
# The page transport

The host borrows pages of chip memory, fills them with frames and passes them
back.  Free pages wait in two queues on the host: a few reserved for commands
and beacons, and the others.

A page is told apart by its address.  Where a page leaves the host's queues the
model records it: on `handedBack` when the chip has it, on `taken` once the host
has popped it from the chip's pager.
-/

namespace Morse
namespace Pageset

open Lib

/-- `CMD_RSVED_PAGES_MAX`, the length of the reserved queue. -/
def cmdRsvedPagesMax : Nat := 2

/-- `CMD_RSVED_CMD_PAGES_MAX`. -/
def cmdRsvedCmdPagesMax : Nat := 1

/-- `CACHED_PAGES_MAX`, the length of the cached queue. -/
def cachedPagesMax : Nat := 32

/-- `MAX_PAGES_PER_TX_TXN`. -/
def maxPagesPerTxTxn : Nat := 16

/-- `struct morse_page`. -/
structure MorsePage where
  addr : BitVec 32
  sizeBytes : BitVec 32
  deriving DecidableEq, Repr

/-- The pages of the to-chip `struct morse_pageset`, and where pages went. -/
structure Pages where
  reservedPages : Fifo MorsePage cmdRsvedPagesMax
  cachedPages : Fifo MorsePage cachedPagesMax
  handedBack : List (BitVec 32)
  taken : List (BitVec 32)

/-- `morse_pageset_init`. -/
def Pages.init : Pages where
  reservedPages := .empty
  cachedPages := .empty
  handedBack := []
  taken := []

/-! ## Returned pages -/

/-- `morse_pageset_page_is_cached`. -/
def Pages.pageIsCached (pages : Pages) (page : MorsePage) : Bool :=
  pages.reservedPages.items.any (fun other => other.addr == page.addr) ||
    pages.cachedPages.items.any (fun other => other.addr == page.addr)

/-- A successful `pop`: the page is the host's now. -/
def Pages.pop (pages : Pages) (page : MorsePage) : Pages :=
  { pages with
    handedBack := pages.handedBack.filter (· ≠ page.addr)
    taken := page.addr :: pages.taken }

/-- `kfifo_put(&pageset->reserved_pages, page)`, the result ignored. -/
def Pages.putReserved (pages : Pages) (page : MorsePage) : Pages :=
  { pages with reservedPages := (pages.reservedPages.put page).getD pages.reservedPages }

/-- `kfifo_put(&pageset->cached_pages, page)`, the result ignored. -/
def Pages.putCached (pages : Pages) (page : MorsePage) : Pages :=
  { pages with cachedPages := (pages.cachedPages.put page).getD pages.cachedPages }

/-- The first loop of the return handler.  The pager is given by the pages that
it pops before it fails; the loop leaves the others, the number popped, whether
the pager failed, and the pages. -/
def fillReserved : List MorsePage → Nat → Pages → List MorsePage × Nat × Bool × Pages
  | [], popped, pages =>
    ([], popped, decide (pages.reservedPages.len < cmdRsvedPagesMax), pages)
  | page :: rest, popped, pages =>
    if pages.reservedPages.len < cmdRsvedPagesMax then
      if pages.pageIsCached page then fillReserved rest (popped + 1) (pages.pop page)
      else fillReserved rest (popped + 1) ((pages.pop page).putReserved page)
    else (page :: rest, popped, false, pages)

/-- `max_expected_pops`. -/
def maxExpectedPops : Nat := cachedPagesMax * 2

/-- The second loop of the return handler. -/
def fillCached : List MorsePage → Nat → Pages → List MorsePage × Nat × Pages
  | [], popped, pages => ([], popped, pages)
  | page :: rest, popped, pages =>
    if popped < maxExpectedPops then
      if pages.pageIsCached page then fillCached rest (popped + 1) (pages.pop page)
      else fillCached rest (popped + 1) ((pages.pop page).putCached page)
    else (page :: rest, popped, pages)

/-- `morse_pageset_to_chip_return_handler_no_lock`: what is left in the pager,
and the pages. -/
def returnHandlerNoLock (pager : List MorsePage) (pages : Pages) : List MorsePage × Pages :=
  match fillReserved pager 0 pages with
  | (pager, _, true, pages) => (pager, pages)
  | (pager, popped, false, pages) =>
    let filled := fillCached pager popped pages
    (filled.1, filled.2.2)

/-- Return handlers that run one after another, each with the pages that its
pops deliver. -/
def returnHandlers (pagers : List (List MorsePage)) (pages : Pages) : Pages :=
  pagers.foldl (fun pages pager => (returnHandlerNoLock pager pages).2) pages

/-! ## Writing a frame -/

/-- `morse_pageset_rsved_page_is_avail`, with the lock held: the return handler
runs for a command that finds no reserved page. -/
def rsvedPageIsAvail (pager : List MorsePage) (channel : Channel) (pages : Pages) :
    Bool × Pages :=
  match channel with
  | .beacon => (decide (1 < pages.reservedPages.len), pages)
  | .command =>
    let pages :=
      if pages.reservedPages.len = 0 then (returnHandlerNoLock pager pages).2 else pages
    (decide (0 < pages.reservedPages.len), pages)
  | _ => (false, pages)

/-- What `morse_pageset_write` meets: the lock, the pages in the pager, the
tailroom of the frame, and the outcomes of the bus operations on the page. -/
structure WriteEnv where
  locked : Bool
  pager : List MorsePage
  tailroom : Nat
  writePage : Option Errno
  put : Option Errno
  /-- the second `put`, of the page that the chip is to discard -/
  putAgain : Option Errno

/-- `write_len`. -/
def writeLen (skb : SkBuff) : Nat :=
  skb.len.toNat + (if skb.len.toNat % 4 ≠ 0 then 4 - skb.len.toNat % 4 else 0)

/-- The two queues of free pages. -/
inductive PageQueue
  | reserved
  | cached
  deriving DecidableEq, Repr

/-- `kfifo_get` from one of the queues. -/
def Pages.get (pages : Pages) : PageQueue → Option (MorsePage × Pages)
  | .reserved =>
    pages.reservedPages.get.map fun taken => (taken.1, { pages with reservedPages := taken.2 })
  | .cached =>
    pages.cachedPages.get.map fun taken => (taken.1, { pages with cachedPages := taken.2 })

/-- `kfifo_put` into one of the queues, the result ignored. -/
def Pages.putBack (pages : Pages) : PageQueue → MorsePage → Pages
  | .reserved, page => pages.putReserved page
  | .cached, page => pages.putCached page

/-- A successful `put` of a page to the chip. -/
def Pages.handBack (pages : Pages) (page : MorsePage) : Pages :=
  { pages with handedBack := page.addr :: pages.handedBack }

/-- The part of `morse_pageset_write` that has a page. -/
def writePage (env : WriteEnv) (skb : SkBuff) (queue : PageQueue) (page : MorsePage)
    (pages : Pages) : Option Errno × Pages :=
  if page.sizeBytes.toNat < writeLen skb then (some .enospc, pages)
  else if skb.len.toNat + env.tailroom < writeLen skb then (some .enospc, pages)
  else
    match env.writePage with
    | some error => (some error, pages.putBack queue page)
    | none =>
      match env.put with
      | none => (none, pages.handBack page)
      | some error =>
        match env.putAgain with
        | none => (some error, pages.handBack page)
        | some _ => (some error, pages)

/-- The queue that `morse_pageset_write` takes a page from, and the pages. -/
def chooseQueue (env : WriteEnv) (skb : SkBuff) (pages : Pages) : PageQueue × Pages :=
  match rsvedPageIsAvail env.pager skb.channel pages with
  | (true, pages) => (.reserved, pages)
  | (false, pages) => (.cached, pages)

/-- `morse_pageset_write`. -/
def morsePagesetWrite (env : WriteEnv) (skb : SkBuff) (pages : Pages) : Option Errno × Pages :=
  if env.locked then (some .eperm, pages)
  else
    let chosen := chooseQueue env skb pages
    match chosen.2.get chosen.1 with
    | none => (some .enospc, chosen.2)
    | some (page, pages) => writePage env skb chosen.1 page pages

/-! ## Transmission -/

/-- `morse_pageset_num_pages`, by the frame at the front of the queue. -/
def morsePagesetNumPages (skb : SkBuff) (pages : Pages) : Nat :=
  match skb.channel with
  | .command =>
    min cmdRsvedCmdPagesMax (pages.reservedPages.len + pages.cachedPages.len)
  | channel =>
    min maxPagesPerTxTxn
      ((if (rsvedPageIsAvail [] channel pages).1 then cmdRsvedPagesMax - cmdRsvedCmdPagesMax
        else 0) + pages.cachedPages.len)

/-- The to-chip queues, as `morse_pageset_tx` tells them apart. -/
inductive TxQueue
  | cmdQ
  | mgmtQ
  | other
  deriving DecidableEq, Repr

/-- What `morse_pageset_tx` purges first. -/
def txPurge (driver : Driver) (jiffies : BitVec 64) (queue : TxQueue) (mq : Skbq) : Skbq :=
  match queue with
  | .cmdQ => (mq.purge .pending).2
  | .mgmtQ => if 0 < mq.skbq.qlen then mq.purgeAged driver jiffies else mq
  | .other => mq

/-- The frames that `morse_pageset_tx` then takes off the queue, and the queue. -/
def txDequeue (driver : Driver) (jiffies : BitVec 64) (queue : TxQueue) (numPages : Nat)
    (mq : Skbq) : List SkBuff × Skbq :=
  let purged := txPurge driver jiffies queue mq
  if 0 < numPages then ((purged.deqNumItems numPages).1, (purged.deqNumItems numPages).2.2)
  else ([], purged)

/-- What `morse_pageset_tx` meets at the frame of each number: the return
handlers that run before it while the lock is free, and its write. -/
structure TxEnv where
  returned : Nat → List (List MorsePage)
  write : Nat → WriteEnv

/-- The walk of `morse_pageset_tx` over the dequeued frames, numbered from
`index` on: those sent, those that failed, and the pages. -/
def txWalk (env : TxEnv) :
    List SkBuff → Nat → Nat → Pages → List SkBuff × List SkBuff × Pages
  | [], _, _, pages => ([], [], pages)
  | pfirst :: rest, index, numPages, pages =>
    let pages := returnHandlers (env.returned index) pages
    let written :=
      if numPages ≠ 0 then morsePagesetWrite (env.write index) pfirst pages
      else (some .enospc, pages)
    match written with
    | (none, pages) =>
      let others := txWalk env rest (index + 1) (numPages - 1) pages
      (pfirst :: others.1, others.2.1, others.2.2)
    | (some _, pages) =>
      let others := txWalk env rest (index + 1) numPages pages
      (others.1, pfirst :: others.2.1, others.2.2)

/-- The end of `morse_pageset_tx`: failed frames are purged, sent ones are
completed. -/
def txSettle (driver : Driver) (jiffies : BitVec 64) (skbqSent skbqFailed : List SkBuff)
    (mq : Skbq) : Skbq :=
  let mq := { mq with freed := mq.freed ++ skbqFailed }
  if skbqSent = [] then mq else mq.txComplete driver jiffies skbqSent

/-- `morse_pageset_tx`: the pages and the queue.  `meanwhile` is what others do
to the queue, whose lock is free while the pages are written. -/
def morsePagesetTx (driver : Driver) (jiffies : BitVec 64) (env : TxEnv)
    (queue : TxQueue) (meanwhile : Skbq → Skbq) (pages : Pages) (mq : Skbq) : Pages × Skbq :=
  match mq.skbq.skbs with
  | [] => (pages, mq)
  | skb :: _ =>
    let numPages := morsePagesetNumPages skb pages
    let dequeued := txDequeue driver jiffies queue numPages mq
    let walked := txWalk env dequeued.1 0 numPages pages
    (walked.2.2, txSettle driver jiffies walked.1 walked.2.1 (meanwhile dequeued.2))

end Pageset
end Morse
