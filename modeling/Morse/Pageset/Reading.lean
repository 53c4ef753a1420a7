import Morse.Pageset.Defs
import Morse.Skbq.Checksum
import Morse.Yaps.Handlers

/-!
# Pages from the chip

The receive handler pops pages from the chip, copies the frame of each into a
buffer and passes it on, and gives the page back.  A page that cannot be used is
given back all the same, from the exit that all paths share; what the return
pager answers there replaces what was to be returned, also where there was no
memory for the frame and the handler should stop.
-/

namespace Morse
namespace Pageset

open Lib
open Skbq.Checksum (Octet morseValidateSkbChecksum)
open Yaps (BuffSkbHeader channelOfOctet sizeofBuffSkbHeader skbTrim)

/-! ## The state of reception -/

/-- The chips, told apart by `pager_base_address`. -/
inductive Chip
  | mm6108
  | mm8108
  deriving DecidableEq, Repr

/-- `regs->pager_base_address`. -/
def Chip.pagerBaseAddress : Chip → BitVec 32
  | .mm6108 => 0x80100000
  | .mm8108 => 0x00100000

/-- `MORSE_SKB_HEADER_SYNC`. -/
def morseSkbHeaderSync : Octet := 0xAA

/-- `MORSE_SKB_HEADER_CHIP_OWNED_SYNC`. -/
def morseSkbHeaderChipOwnedSync : Octet := 0xBB

/-- The queues for frames from the chip. -/
inductive RxQueue
  | dataQ
  | cmdQ
  deriving DecidableEq, Repr

/-- The queue of a declared channel. -/
def rxQueueOf : Channel → Option RxQueue
  | .data => some .dataQ
  | .ndpFrames => some .dataQ
  | .txStatus => some .dataQ
  | .dataNoack => some .dataQ
  | .beacon => some .dataQ
  | .mgmt => some .dataQ
  | .loopback => some .dataQ
  | .command => some .cmdQ
  | .wiphy => none
  | .internalCritBeacon => none
  | .other => none

/-- The from-chip queues, the buffers that were freed, and the pages that were
given to the return pager. -/
structure Receiver where
  dataQ : Skbq
  cmdQ : Skbq
  freed : List SkBuff
  puts : List (BitVec 32)

/-- The queue of that name. -/
def Receiver.queue (receiver : Receiver) : RxQueue → Skbq
  | .dataQ => receiver.dataQ
  | .cmdQ => receiver.cmdQ

/-- The receiver with another state of one queue. -/
def Receiver.withQueue (receiver : Receiver) : RxQueue → Skbq → Receiver
  | .dataQ, mq => { receiver with dataQ := mq }
  | .cmdQ, mq => { receiver with cmdQ := mq }

/-- What a call of `morse_pageset_read` meets. -/
structure ReadEnv where
  /-- `bypass.cmd_resp.to_process` -/
  cmdResp : List (BitVec 32)
  /-- `bypass.tx_sts.to_process` -/
  txSts : List (BitVec 32)
  /-- what the populated pager pops -/
  pop : Except Errno (BitVec 32)
  chip : Chip
  allocates : Bool
  /-- the buffer allocated -/
  address : Nat
  /-- what the reads of the page deliver, and what lies in memory behind it -/
  readPage : Nat → Except Errno (Nat → Octet)
  validateSkbChecksum : Bool
  /-- whether `skbq_pageset_get_rx_data_q` finds a queue -/
  hasDataQ : Bool
  /-- what the return pager answers -/
  put : Option Errno

/-! ## Reading a page -/

/-- The page to read, as its pager or its bypass delivers it. -/
def ReadEnv.takePage (env : ReadEnv) : Except Errno (BitVec 32) :=
  match env.cmdResp, env.txSts with
  | addr :: _, _ => .ok addr
  | [], addr :: _ => .ok addr
  | [], [] => env.pop

/-- `skb_len = round_up(page.addr >> 20, 4)`. -/
def pageLen (addr : BitVec 32) : Nat := ((addr >>> 20).toNat + 3) / 4 * 4

/-- `page.addr` without the length. -/
def ReadEnv.pageAddr (env : ReadEnv) (addr : BitVec 32) : BitVec 32 :=
  addr &&& 0xFFFFF#32 ||| env.chip.pagerBaseAddress

/-- `max_checksum_rounds`. -/
def maxChecksumRounds : Nat := 2

/-- The loop of the checksum test, over as many rounds: whether it passed, the
error that ended it, and the octets.  A transmit status is read again. -/
def ReadEnv.checksumRounds (env : ReadEnv) :
    Nat → Nat → (Nat → Octet) → Bool × Option Errno × (Nat → Octet)
  | 0, _, data => (false, none, data)
  | rounds + 1, index, data =>
    let validation := morseValidateSkbChecksum data
    if validation.valid then (true, none, validation.data)
    else if channelOfOctet (validation.data 1) ≠ .txStatus then (false, none, validation.data)
    else
      match env.readPage index with
      | .error error => (false, some error, validation.data)
      | .ok data => env.checksumRounds rounds (index + 1) data

/-- What becomes of a page that was read into a buffer: it is dropped with a
return value, being the chip's own or not, or its frame is for a queue. -/
inductive Examined
  | dropped (ret : Option Errno) (chipOwned : Bool)
  | accepted (queue : RxQueue) (channel : Channel) (len : Nat)
  deriving DecidableEq

/-- `hdr->offset` once an impossible one is replaced. -/
def correctedOffset (hdr : BuffSkbHeader) : Nat :=
  if 3 < hdr.offset.toNat then (if hdr.len.toNat % 4 ≠ 0 then 4 - hdr.len.toNat % 4 else 0)
  else hdr.offset.toNat

/-- The part of `morse_pageset_read` that has a buffer, up to the queue. -/
def ReadEnv.examine (env : ReadEnv) : Examined :=
  match env.readPage 0 with
  | .error error => .dropped (some error) false
  | .ok data =>
    let hdr := BuffSkbHeader.ofMemory data
    if hdr.sync ≠ morseSkbHeaderSync then
      .dropped none (decide (hdr.sync = morseSkbHeaderChipOwnedSync))
    else
      match
        if env.validateSkbChecksum then env.checksumRounds maxChecksumRounds 1 data
        else (true, none, data)
      with
      | (false, ret, _) => .dropped ret false
      | (true, _, data) =>
        let hdr := BuffSkbHeader.ofMemory data
        let len := sizeofBuffSkbHeader + correctedOffset hdr + hdr.len.toNat
        match rxQueueOf hdr.channel with
        | none => .dropped none false
        | some .dataQ =>
          if env.hasDataQ then .accepted .dataQ hdr.channel len else .dropped none false
        | some .cmdQ => .accepted .cmdQ hdr.channel len

/-- The buffer of a page.  The fields that only transmission uses are clear. -/
def ReadEnv.skb (env : ReadEnv) (addr : BitVec 32) (channel : Channel) : SkBuff where
  address := env.address
  len := BitVec.ofNat 32 (pageLen addr)
  channel := channel
  flags := 0
  pktId := 0
  enqueueTime := 0
  txStatusExpiry := 0

/-- The exit of `morse_pageset_read`: free the buffer that is left, and give a
page back. -/
def ReadEnv.exit (env : ReadEnv) (ret : Option Errno) (skb : Option SkBuff)
    (pageAddr : BitVec 32) (receiver : Receiver) : Option Errno × Receiver :=
  let receiver := { receiver with freed := receiver.freed ++ skb.toList }
  if pageAddr ≠ 0 then (env.put, { receiver with puts := receiver.puts ++ [pageAddr] })
  else (ret, receiver)

/-- `morse_pageset_read`. -/
def morsePagesetRead (env : ReadEnv) (receiver : Receiver) : Option Errno × Receiver :=
  match env.takePage with
  | .error error => env.exit (some error) none 0 receiver
  | .ok addr =>
    if !env.allocates then env.exit (some .enomem) none (env.pageAddr addr) receiver
    else
      match env.examine with
      | .dropped ret chipOwned =>
        env.exit ret (some (env.skb addr .other)) (if chipOwned then 0 else env.pageAddr addr)
          receiver
      | .accepted queue channel len =>
        let skb := skbTrim (env.skb addr channel) len
        match (receiver.queue queue).skbqPut skb with
        | (some _, mq) =>
          env.exit (some .enomem) (some skb) (env.pageAddr addr)
            (receiver.withQueue queue mq)
        | (none, mq) => env.exit none none (env.pageAddr addr) (receiver.withQueue queue mq)

/-! ## A pass of the receive handler -/

/-- `PAGE_RETURN_NOTIFY_INT`. -/
def pageReturnNotifyInt : Nat := 4

/-- What a pass meets: its reads by their number, whether it looks for beacon
requests, and after which pages it finds one. -/
structure RxPass where
  reads : Nat → ReadEnv
  doBeaconIrqCheck : Bool
  beaconRequested : Nat → Bool

/-- How a pass ends: the reads made, the last return value, whether a beacon
request ended it, and the receiver. -/
structure RxEnd where
  count : Nat
  ret : Option Errno
  isBeaconPending : Bool
  receiver : Receiver

/-- The loop of `morse_pageset_rx_handler` with so many reads left. -/
def rxLoop (pass : RxPass) : Nat → Nat → Receiver → RxEnd
  | 0, count, receiver => ⟨count, none, false, receiver⟩
  | left + 1, count, receiver =>
    let read := morsePagesetRead (pass.reads count) receiver
    if (count + 1) % pageReturnNotifyInt = 0 ∧ pass.doBeaconIrqCheck = true ∧
        pass.beaconRequested (count + 1) = true then
      ⟨count + 1, read.1, true, read.2⟩
    else if 0 < left ∧ read.1 = none then rxLoop pass left (count + 1) read.2
    else ⟨count + 1, read.1, false, read.2⟩

end Pageset
end Morse
