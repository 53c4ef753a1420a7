import Morse.Yaps.Defs

/-!
# The YAPS work handlers

The work item moves frames from the queues to the transport and back.  The
receive handler splits a window and passes its packets on; the transmit routine
takes a batch from a queue and settles it by the number of packets sent.
-/

namespace Morse
namespace Yaps

open Lib

/-- `MAX_PKTS_PER_TX_TXN`. -/
def maxPktsPerTxTxn : Nat := 16

/-- `MAX_PKTS_PER_RX_TXN`, the size of `from_chip_pkts`. -/
def maxPktsPerRxTxn : Nat := 32

/-! ## Reception -/

/-- `MORSE_SKB_HEADER_SYNC`. -/
def morseSkbHeaderSync : Octet := 0xAA

/-- `sizeof(struct morse_buff_skb_header)`. -/
def sizeofBuffSkbHeader : Nat := 40

/-- `struct morse_buff_skb_header`, what reception reads of it. -/
structure BuffSkbHeader where
  sync : Octet
  channel : Channel
  len : BitVec 16
  offset : Octet

/-- `enum morse_skb_channel` as a number. -/
def channelOfOctet (octet : Octet) : Channel :=
  if octet = 0x00 then .data
  else if octet = 0x01 then .ndpFrames
  else if octet = 0x02 then .dataNoack
  else if octet = 0x03 then .beacon
  else if octet = 0x04 then .mgmt
  else if octet = 0x05 then .wiphy
  else if octet = 0x80 then .internalCritBeacon
  else if octet = 0xEE then .loopback
  else if octet = 0xFE then .command
  else if octet = 0xFF then .txStatus
  else .other

/-- The header at the start of some memory. -/
def BuffSkbHeader.ofMemory (memory : Nat → Octet) : BuffSkbHeader where
  sync := memory 0
  channel := channelOfOctet (memory 1)
  len := memory 3 ++ memory 2
  offset := memory 4

/-- The queues for frames from the chip. -/
inductive RxQueue
  | dataRxQ
  | cmdRespQ
  deriving DecidableEq, Repr

/-- The queue of a declared channel. -/
def rxQueueOf : Channel → Option RxQueue
  | .data => some .dataRxQ
  | .ndpFrames => some .dataRxQ
  | .txStatus => some .dataRxQ
  | .dataNoack => some .dataRxQ
  | .beacon => some .dataRxQ
  | .mgmt => some .dataRxQ
  | .wiphy => some .dataRxQ
  | .loopback => some .dataRxQ
  | .command => some .cmdRespQ
  | .internalCritBeacon => none
  | .other => none

/-- The receive side of `struct morse_yaps`, and the frames that it freed. -/
structure Receiver where
  dataRxQ : Skbq
  cmdRespQ : Skbq
  freed : List SkBuff

/-- The queue of that name. -/
def Receiver.queue (receiver : Receiver) : RxQueue → Skbq
  | .dataRxQ => receiver.dataRxQ
  | .cmdRespQ => receiver.cmdRespQ

/-- The receiver with another state of one queue. -/
def Receiver.withQueue (receiver : Receiver) : RxQueue → Skbq → Receiver
  | .dataRxQ, mq => { receiver with dataRxQ := mq }
  | .cmdRespQ, mq => { receiver with cmdRespQ := mq }

/-- What the handling of received packets depends on: the addresses of the
buffers allocated for them, what lies in memory behind their data, and the
checksum test. -/
structure RxEnv where
  address : Nat → Nat
  beyond : Nat → Octet
  validateSkbChecksum : Bool
  checksumValid : List Octet → Bool

/-- The header of a received packet. -/
def RxEnv.header (env : RxEnv) (pkt : RxPkt) : BuffSkbHeader :=
  .ofMemory fun index => pkt.data.getD index (env.beyond index)

/-- The socket buffer of a received packet.  The fields that only transmission
uses are clear. -/
def RxEnv.skb (env : RxEnv) (index : Nat) (pkt : RxPkt) : SkBuff where
  address := env.address index
  len := BitVec.ofNat 32 pkt.data.length
  channel := (env.header pkt).channel
  flags := 0
  pktId := 0
  enqueueTime := 0
  txStatusExpiry := 0

/-- `skb_trim`. -/
def skbTrim (skb : SkBuff) (len : Nat) : SkBuff :=
  if len < skb.len.toNat then { skb with len := BitVec.ofNat 32 len } else skb

/-- `dev_kfree_skb` in the receive handler. -/
def Receiver.free (receiver : Receiver) (skb : SkBuff) : Receiver :=
  { receiver with freed := receiver.freed ++ [skb] }

/-- `morse_yaps_read_pkt`. -/
def morseYapsReadPkt (env : RxEnv) (receiver : Receiver) (index : Nat) (pkt : RxPkt) : Receiver :=
  let skb := env.skb index pkt
  let hdr := env.header pkt
  if hdr.sync ≠ morseSkbHeaderSync then receiver.free skb
  else if env.validateSkbChecksum = true ∧ env.checksumValid pkt.data = false ∧
      hdr.channel ≠ .txStatus then
    receiver.free skb
  else
    match rxQueueOf hdr.channel with
    | none => receiver.free skb
    | some queue =>
      let skbLen := sizeofBuffSkbHeader + hdr.offset.toNat + hdr.len.toNat
      if (receiver.queue queue).space.toInt < skbLen then receiver.free skb
      else receiver.withQueue queue ((receiver.queue queue).enq [skbTrim skb skbLen]).2.2

/-- The loop of `morse_yaps_rx_handler` over the packets received. -/
def handOver (env : RxEnv) : Nat → List RxPkt → Receiver → Receiver
  | _, [], receiver => receiver
  | index, pkt :: rest, receiver =>
    handOver env (index + 1) rest (morseYapsReadPkt env receiver index pkt)

/-- What a run of the receive handler leaves: its return value, if it returns;
the receiver; and the octets that were consumed from the chip's queue. -/
structure RxResult where
  more : Option Bool
  receiver : Receiver
  consumed : List Octet

/-- The packets that are handled after `morse_yaps_hw_read_pkts` returned. -/
def ReadResult.handled (result : ReadResult) : List RxPkt :=
  match result.ret with
  | none => []
  | some none => result.received
  | some (some error) => if error = .eagain then result.received else []

/-- `morse_yaps_rx_handler`. -/
def morseYapsRxHandler (crc7BeByte : BitVec 8 → Octet → BitVec 8) (aux : AuxData)
    (statusLocked : Bool) (polls : List (Except Errno StatusRegisters)) (readEnv : ReadEnv)
    (env : RxEnv) (receiver : Receiver) : RxResult :=
  match morseYapsHwUpdateStatus aux statusLocked polls with
  | (some error, _) =>
    { more := some (decide (error = .enomem ∨ error = .eagain))
      receiver := receiver
      consumed := [] }
  | (none, aux) =>
    let result := morseYapsHwReadPkts crc7BeByte aux readEnv maxPktsPerRxTxn
    { more := result.ret.map fun ret => decide (ret = some .enomem ∨ ret = some .eagain)
      receiver := handOver env 0 result.handled receiver
      consumed := result.consumed }

/-! ## Transmission -/

/-- The to-chip queues of `struct morse_yaps`, as `morse_yaps_tx` tells them
apart. -/
inductive TxQueue
  | cmdQ
  | mgmtQ
  | other
  deriving DecidableEq, Repr

/-- The to-chip queue for a channel. -/
def toChipQOf : Channel → ToChipQ
  | .command => .cmdQ
  | .beacon => .beaconQ
  | .mgmt => .mgmtQ
  | _ => .txQ

/-- The data of a frame: no longer than the range of an `int`. -/
abbrev Payload := { data : List Octet // data.length < 2 ^ 31 }

/-- What `morse_yaps_tx` purges first: timed-out commands, and management
frames that waited too long. -/
def txPurge (driver : Driver) (jiffies : BitVec 64) (queue : TxQueue) (mq : Skbq) : Skbq :=
  match queue with
  | .cmdQ => (mq.purge .pending).2
  | .mgmtQ => if 0 < mq.skbq.qlen then mq.purgeAged driver jiffies else mq
  | .other => mq

/-- The frames that `morse_yaps_tx` then takes off the queue, in order, and the
queue. -/
def txDequeue (driver : Driver) (jiffies : BitVec 64) (queue : TxQueue) (mq : Skbq) :
    List SkBuff × Skbq :=
  let dequeued := (txPurge driver jiffies queue mq).deqNumItems maxPktsPerTxTxn
  (dequeued.1, dequeued.2.2)

/-- What a run of `morse_yaps_tx` finds on the bus, and what lies in memory. -/
structure TxEnv where
  aux : AuxData
  toChipBuffer : Nat → Octet
  statusLocked : Bool
  polls : List (Except Errno StatusRegisters)
  writeLocked : Bool
  writes : List (Option Errno)
  /-- the first element of `to_chip_pkts` from an earlier run -/
  slot : Pkt
  payload : SkBuff → Payload

/-- The packets of some frames, `to_chip_pkts`. -/
def TxEnv.pkts (env : TxEnv) (skbs : List SkBuff) : List Pkt :=
  skbs.map fun skb => ⟨(env.payload skb).1, toChipQOf skb.channel, (env.payload skb).2⟩

/-- `morse_yaps_tx` after the packets were written: those not sent go back to
the front of the queue or are purged, those sent are completed. -/
def txSettle (driver : Driver) (jiffies : BitVec 64) (skbqToSend : List SkBuff)
    (numPktsSent : Nat) (mq : Skbq) : Skbq :=
  let skbqSent := skbqToSend.take numPktsSent
  let skbqFailed := skbqToSend.drop numPktsSent
  let requeued := mq.enqPrepend skbqFailed
  let mq :=
    if skbqFailed = [] then mq
    else { requeued.2.2 with freed := requeued.2.2.freed ++ requeued.1 }
  if skbqSent = [] then mq else mq.txComplete driver jiffies skbqSent

/-- `morse_yaps_tx` from the status update on: the outcome, the windows that the
chip took, and the queue. -/
def txWrite (crc7BeByte : BitVec 8 → Octet → BitVec 8) (driver : Driver) (jiffies : BitVec 64)
    (env : TxEnv) (skbqToSend : List SkBuff) (mq : Skbq) :
    Option Errno × List (List Octet) × Skbq :=
  match morseYapsHwUpdateStatus env.aux env.statusLocked env.polls with
  | (some error, _) => (some error, [], mq)
  | (none, aux) =>
    let result := morseYapsHwWritePkts crc7BeByte aux env.toChipBuffer env.writeLocked env.writes
      env.slot (env.pkts skbqToSend)
    (result.1, result.2.written,
      txSettle driver jiffies skbqToSend result.2.numPktsSent mq)

/-- `morse_yaps_tx`.  `meanwhile` is what others do to the queue, whose lock is
free while the packets are written. -/
def morseYapsTx (crc7BeByte : BitVec 8 → Octet → BitVec 8) (driver : Driver)
    (jiffies : BitVec 64) (env : TxEnv) (queue : TxQueue) (meanwhile : Skbq → Skbq) (mq : Skbq) :
    Option Errno × List (List Octet) × Skbq :=
  match mq.skbq.skbs with
  | [] => (none, [], mq)
  | _ :: _ =>
    txWrite crc7BeByte driver jiffies env (txDequeue driver jiffies queue mq).1
      (meanwhile (txDequeue driver jiffies queue mq).2)

end Yaps
end Morse
