import Morse.Lib.Segment
import Morse.Skbq.Defs

/-!
# The YAPS transport

Packets travel in both directions as a stream of 32-bit delimiters, each
followed by its packet and padding to a word boundary.  This module transcribes
the writer, which gathers packets into windows, and the reader, which splits a
window into packets again.

The CRC of a delimiter is the kernel's `crc7_be_byte`, taken as a parameter.
What the bus and the allocator answer is an input of the calls.
-/

namespace Morse
namespace Yaps

open Lib

/-- One octet, `u8`. -/
abbrev Octet := BitVec 8

/-! ## Constants -/

/-- `YAPS_HW_WINDOW_SIZE_BYTES`. -/
def yapsHwWindowSizeBytes : Nat := 32768

/-- `YAPS_MAX_PKT_SIZE_BYTES`. -/
def yapsMaxPktSizeBytes : Nat := 16128

/-- `YAPS_METADATA_PAGE_COUNT`. -/
def yapsMetadataPageCount : Nat := 1

/-- `YAPS_PHANDLE_CORRUPTION_WAR_EXTRA_PAGE`. -/
def yapsPhandleCorruptionWarExtraPage : Nat := 1

/-- `YAPS_PAGE_SIZE`. -/
def yapsPageSize : Nat := 256

/-- `sizeof(delim)`. -/
def sizeofDelim : Nat := 4

/-- `YAPS_CALC_PADDING`. -/
def yapsCalcPadding (bytes : Nat) : Nat :=
  if bytes % 4 ≠ 0 then 4 - bytes % 4 else 0

/-! ## Packets and registers -/

/-- `enum morse_yaps_to_chip_q`, without the bound that ends it. -/
inductive ToChipQ
  | txQ
  | cmdQ
  | beaconQ
  | mgmtQ
  deriving DecidableEq, Repr

/-- The number of a queue. -/
def ToChipQ.toNat : ToChipQ → Nat
  | .txQ => 0
  | .cmdQ => 1
  | .beaconQ => 2
  | .mgmtQ => 3

/-- `MORSE_YAPS_NUM_TC_Q`. -/
def morseYapsNumTcQ : Nat := 4

/-- A to-chip `struct morse_yaps_pkt` with the data of its `skb`.  No length
of a socket buffer exceeds the range of an `int`. -/
structure Pkt where
  data : List Octet
  tcQueue : ToChipQ
  length_lt : data.length < 2 ^ 31
  deriving DecidableEq

/-- `struct morse_yaps_status_registers`, the registers the driver acts on. -/
structure StatusRegisters where
  tcTxPoolNumPages : BitVec 32
  tcCmdPoolNumPages : BitVec 32
  tcBeaconPoolNumPages : BitVec 32
  tcMgmtPoolNumPages : BitVec 32
  tcTxNumPkts : BitVec 32
  tcCmdNumPkts : BitVec 32
  tcBeaconNumPkts : BitVec 32
  tcMgmtNumPkts : BitVec 32
  fcNumPkts : BitVec 32
  fcRxBytesInQueue : BitVec 32
  tcDelimCrcFailDetected : BitVec 32
  lock : BitVec 32
  deriving DecidableEq, Repr

/-- `struct morse_yaps_hw_aux_data`, without the addresses and the buffers. -/
structure AuxData where
  tcTxQSize : BitVec 8
  tcCmdQSize : BitVec 8
  tcBeaconQSize : BitVec 8
  tcMgmtQSize : BitVec 8
  reservedYapsPageSize : BitVec 16
  statusRegs : StatusRegisters
  deriving DecidableEq, Repr

/-! ## Delimiters -/

section Crc

variable (crc7BeByte : BitVec 8 → Octet → BitVec 8)

/-- `morse_yaps_crc`. -/
def morseYapsCrc (word : BitVec 32) : BitVec 8 :=
  let word := word &&& 0x1ffffff#32
  let crc := crc7BeByte 0 ((word >>> 24).setWidth 8)
  let crc := crc7BeByte crc ((word >>> 16).setWidth 8)
  let crc := crc7BeByte crc ((word >>> 8).setWidth 8)
  let crc := crc7BeByte crc (word.setWidth 8)
  crc >>> 1

/-- `morse_yaps_delimiter`. -/
def morseYapsDelimiter (aux : AuxData) (size : Nat) (poolId : Nat) (irq : Bool) : BitVec 32 :=
  let delim := (BitVec.ofNat 32 size &&& 0x3FFF#32) + aux.reservedYapsPageSize.setWidth 32
  let delim := delim ||| (BitVec.ofNat 32 (yapsCalcPadding size) &&& 0x3#32) <<< 17
  let delim := delim ||| (BitVec.ofNat 32 poolId &&& 0x7#32) <<< 14
  let delim := delim ||| ((BitVec.ofBool irq).setWidth 32 &&& 0x1#32) <<< 19
  delim ||| ((morseYapsCrc crc7BeByte delim).setWidth 32 &&& 0x7F#32) <<< 25

end Crc

/-- `YAPS_DELIM_GET_PHANDLE_SIZE`. -/
def yapsDelimGetPhandleSize (delim : BitVec 32) : Nat := (delim &&& 0x3FFF#32).toNat

/-- `YAPS_DELIM_GET_PKT_SIZE`. -/
def yapsDelimGetPktSize (aux : AuxData) (delim : BitVec 32) : Int :=
  (yapsDelimGetPhandleSize delim : Int) - (aux.reservedYapsPageSize.toNat : Int)

/-- `YAPS_DELIM_GET_POOL_ID`. -/
def yapsDelimGetPoolId (delim : BitVec 32) : Nat := ((delim >>> 14) &&& 0x7#32).toNat

/-- `YAPS_DELIM_GET_PADDING`. -/
def yapsDelimGetPadding (delim : BitVec 32) : Nat := ((delim >>> 17) &&& 0x3#32).toNat

/-- `YAPS_DELIM_GET_CRC`. -/
def yapsDelimGetCrc (delim : BitVec 32) : BitVec 32 := (delim >>> 25) &&& 0x7F#32

/-- `morse_yaps_is_valid_delimiter`. -/
def morseYapsIsValidDelimiter (crc7BeByte : BitVec 8 → Octet → BitVec 8) (delim : BitVec 32) :
    Bool :=
  if (morseYapsCrc crc7BeByte delim).setWidth 32 ≠ yapsDelimGetCrc delim then false
  else if yapsDelimGetPhandleSize delim = 0 then false
  else if yapsMaxPktSizeBytes < yapsDelimGetPhandleSize delim + yapsDelimGetPadding delim then
    false
  else if yapsCalcPadding (yapsDelimGetPhandleSize delim) ≠ yapsDelimGetPadding delim then false
  else true

/-- `cpu_to_le32`, as octets in memory. -/
def cpuToLe32 (word : BitVec 32) : List Octet :=
  [word.setWidth 8, (word >>> 8).setWidth 8, (word >>> 16).setWidth 8, (word >>> 24).setWidth 8]

/-- `le32_to_cpu` of the first four octets. -/
def le32ToCpu (octets : List Octet) : BitVec 32 :=
  octets.getD 3 0 ++ octets.getD 2 0 ++ octets.getD 1 0 ++ octets.getD 0 0

/-! ## Writing -/

/-- `morse_yaps_pages_required`. -/
def morseYapsPagesRequired (aux : AuxData) (sizeBytes : Nat) : Nat :=
  (sizeBytes + aux.reservedYapsPageSize.toNat + yapsPageSize - 1) / yapsPageSize +
    yapsMetadataPageCount + yapsPhandleCorruptionWarExtraPage

/-- `*pool_pages_avail`. -/
def AuxData.poolPagesAvail (aux : AuxData) : ToChipQ → BitVec 32
  | .txQ => aux.statusRegs.tcTxPoolNumPages
  | .cmdQ => aux.statusRegs.tcCmdPoolNumPages
  | .beaconQ => aux.statusRegs.tcBeaconPoolNumPages
  | .mgmtQ => aux.statusRegs.tcMgmtPoolNumPages

/-- `*pkts_in_queue`. -/
def AuxData.pktsInQueue (aux : AuxData) : ToChipQ → BitVec 32
  | .txQ => aux.statusRegs.tcTxNumPkts
  | .cmdQ => aux.statusRegs.tcCmdNumPkts
  | .beaconQ => aux.statusRegs.tcBeaconNumPkts
  | .mgmtQ => aux.statusRegs.tcMgmtNumPkts

/-- The size of a to-chip queue. -/
def AuxData.tcQSize (aux : AuxData) : ToChipQ → BitVec 8
  | .txQ => aux.tcTxQSize
  | .cmdQ => aux.tcCmdQSize
  | .beaconQ => aux.tcBeaconQSize
  | .mgmtQ => aux.tcMgmtQSize

/-- `*pool_pages_avail -= pages_required` and `*pkts_in_queue += 1`. -/
def StatusRegisters.charge (regs : StatusRegisters) (pages : BitVec 32) :
    ToChipQ → StatusRegisters
  | .txQ =>
    { regs with
      tcTxPoolNumPages := regs.tcTxPoolNumPages - pages
      tcTxNumPkts := regs.tcTxNumPkts + 1 }
  | .cmdQ =>
    { regs with
      tcCmdPoolNumPages := regs.tcCmdPoolNumPages - pages
      tcCmdNumPkts := regs.tcCmdNumPkts + 1 }
  | .beaconQ =>
    { regs with
      tcBeaconPoolNumPages := regs.tcBeaconPoolNumPages - pages
      tcBeaconNumPkts := regs.tcBeaconNumPkts + 1 }
  | .mgmtQ =>
    { regs with
      tcMgmtPoolNumPages := regs.tcMgmtPoolNumPages - pages
      tcMgmtNumPkts := regs.tcMgmtNumPkts + 1 }

/-- `morse_yaps_will_fit` with `update`. -/
def morseYapsWillFit (aux : AuxData) (pkt : Pkt) : Bool × AuxData :=
  let pagesRequired := BitVec.ofNat 32 (morseYapsPagesRequired aux pkt.data.length)
  let queuePktsAvail := (aux.tcQSize pkt.tcQueue).setWidth 32 - aux.pktsInQueue pkt.tcQueue
  if (aux.poolPagesAvail pkt.tcQueue).slt pagesRequired then (false, aux)
  else if queuePktsAvail = 0 then (false, aux)
  else (true, { aux with statusRegs := aux.statusRegs.charge pagesRequired pkt.tcQueue })

/-- `morse_yaps_hw_write_pkt_err_check`. -/
def morseYapsHwWritePktErrCheck (aux : AuxData) (pkt : Pkt) : Option Errno × AuxData :=
  if yapsMaxPktSizeBytes < pkt.data.length + aux.reservedYapsPageSize.toNat then
    (some .emsgsize, aux)
  else if morseYapsNumTcQ < pkt.tcQueue.toNat then (some .einval, aux)
  else
    match morseYapsWillFit aux pkt with
    | (false, aux) => (some .eagain, aux)
    | (true, aux) => (none, aux)

/-- The variables of `morse_yaps_hw_write_pkts`.  `outcomes` is what the
`morse_dm_write` calls to come return, success once it is used up; `written` are
the windows that the chip has taken. -/
structure Writer where
  aux : AuxData
  toChipBuffer : Nat → Octet
  batchTxnLen : Nat
  pktsPending : Nat
  numPktsSent : Nat
  delimIrq : Bool
  outcomes : List (Option Errno)
  written : List (List Octet)

/-- `morse_dm_write` of the batch. -/
def Writer.dmWrite (writer : Writer) : Option Errno × Writer :=
  match writer.outcomes.head?.join with
  | some error => (some error, { writer with outcomes := writer.outcomes.tail })
  | none =>
    (none, { writer with
      outcomes := writer.outcomes.tail
      written := writer.written ++ [segment writer.toChipBuffer 0 writer.batchTxnLen] })

/-- `pkt_size`: the length of a packet with its padding. -/
def Pkt.paddedLen (pkt : Pkt) : Nat := pkt.data.length + yapsCalcPadding pkt.data.length

/-- `tx_len`. -/
def Pkt.txLen (pkt : Pkt) : Nat := pkt.paddedLen + sizeofDelim

/-- Send the batch when the packet would cross the end of the window. -/
def Writer.makeRoom (writer : Writer) (pkt : Pkt) : Option Errno × Writer :=
  if yapsHwWindowSizeBytes < writer.batchTxnLen + pkt.txLen then
    match writer.dmWrite with
    | (some error, writer) => (some error, { writer with batchTxnLen := 0 })
    | (none, writer) =>
      (none, { writer with
        batchTxnLen := 0
        numPktsSent := writer.numPktsSent + writer.pktsPending
        pktsPending := 0 })
  else (none, writer)

section Crc

variable (crc7BeByte : BitVec 8 → Octet → BitVec 8)

/-- Put the delimiter and the data of a packet behind the batch. -/
def Writer.append (writer : Writer) (pkt : Pkt) : Writer :=
  let delim :=
    morseYapsDelimiter crc7BeByte writer.aux pkt.paddedLen pkt.tcQueue.toNat writer.delimIrq
  { writer with
    toChipBuffer :=
      overwrite writer.toChipBuffer writer.batchTxnLen (cpuToLe32 delim ++ pkt.data)
    batchTxnLen := writer.batchTxnLen + pkt.txLen
    pktsPending := writer.pktsPending + 1 }

/-- The loop of `morse_yaps_hw_write_pkts`, from a packet that was checked. -/
def writeLoop : List Pkt → Writer → Option Errno × Writer
  | [], writer => (none, writer)
  | [pkt], writer =>
    match writer.makeRoom pkt with
    | (some error, writer) => (some error, writer)
    | (none, writer) => (none, { writer with delimIrq := true }.append crc7BeByte pkt)
  | pkt :: next :: rest, writer =>
    match writer.makeRoom pkt with
    | (some error, writer) => (some error, writer)
    | (none, writer) =>
      match morseYapsHwWritePktErrCheck writer.aux next with
      | (some error, aux) =>
        (some error, { writer with aux := aux, delimIrq := true }.append crc7BeByte pkt)
      | (none, aux) =>
        writeLoop (next :: rest) ({ writer with aux := aux }.append crc7BeByte pkt)

/-- The clean-up of `morse_yaps_hw_write_pkts` sends what is left of the batch. -/
def writeExit : Option Errno × Writer → Option Errno × Writer
  | (ret, writer) =>
    if 0 < writer.batchTxnLen then
      let sent := writer.dmWrite
      (sent.1, { sent.2 with numPktsSent := sent.2.numPktsSent + sent.2.pktsPending })
    else (ret, writer)

/-- The variables at the start of a call. -/
def Writer.start (aux : AuxData) (toChipBuffer : Nat → Octet) (outcomes : List (Option Errno)) :
    Writer where
  aux := aux
  toChipBuffer := toChipBuffer
  batchTxnLen := 0
  pktsPending := 0
  numPktsSent := 0
  delimIrq := false
  outcomes := outcomes
  written := []

/-- `morse_yaps_hw_write_pkts`.  `locked` says that the transport lock was
taken already; the first check looks at `slot`, the first element of the array,
when there is no packet. -/
def morseYapsHwWritePkts (aux : AuxData) (toChipBuffer : Nat → Octet) (locked : Bool)
    (outcomes : List (Option Errno)) (slot : Pkt) (pkts : List Pkt) : Option Errno × Writer :=
  let writer := Writer.start aux toChipBuffer outcomes
  if locked then (some .eperm, writer)
  else
    match morseYapsHwWritePktErrCheck aux (pkts.headD slot) with
    | (some error, aux) => (some error, { writer with aux := aux })
    | (none, aux) => writeExit (writeLoop crc7BeByte pkts { writer with aux := aux })

end Crc

/-! ## Reading -/

/-- A from-chip `struct morse_yaps_pkt` with the data of its `skb`. -/
structure RxPkt where
  data : List Octet
  fcQueue : Nat
  deriving DecidableEq, Repr

/-- What the surroundings answer to a call of `morse_yaps_hw_read_pkts`. -/
structure ReadEnv where
  /-- the octets that the from-chip queue delivers -/
  stream : Nat → Octet
  /-- what the buffer holds behind a window -/
  stale : List Octet
  /-- the transport lock was taken already -/
  locked : Bool
  /-- the outcome of the read of the window -/
  windowError : Option Errno
  /-- the outcome of the read of a packet that runs off the window -/
  overhangError : Option Errno
  /-- whether an allocation of the call succeeds -/
  allocates : Nat → Bool

/-- How the parsing loop ends: by leaving it, through an error, or in a copy of
a negative length. -/
inductive LoopEnd
  | left
  | error (error : Errno)
  | fault
  deriving DecidableEq, Repr

/-- What the parsing loop leaves: its end, the packets, and the octets that it
took from the queue beyond the window. -/
structure LoopResult where
  outcome : LoopEnd
  received : List RxPkt
  overhang : List Octet
  deriving DecidableEq, Repr

/-- One more packet before the others. -/
def LoopResult.cons (pkt : RxPkt) (result : LoopResult) : LoopResult :=
  { result with received := pkt :: result.received }

/-- An end without further packets. -/
def LoopResult.stop (outcome : LoopEnd) : LoopResult where
  outcome := outcome
  received := []
  overhang := []

/-- `dev_alloc_skb`: no buffer of a negative, as unsigned too large, size. -/
def ReadEnv.devAllocSkb (env : ReadEnv) (index : Nat) (size : Int) : Bool :=
  env.allocates index && decide (0 ≤ size)

section Crc

variable (crc7BeByte : BitVec 8 → Octet → BitVec 8)

/-- The parsing loop of `morse_yaps_hw_read_pkts`: `slots` packets may still be
received, `octets` is the buffer from the read pointer on, and `window` octets
were read into it. -/
def readLoop (aux : AuxData) (env : ReadEnv) (window : Nat) :
    Nat → Nat → List Octet → Int → LoopResult
  | 0, _, _, _ => .stop .left
  | slots + 1, index, octets, bytesRemaining =>
    if bytesRemaining ≤ 0 then .stop .left
    else
      let delim := le32ToCpu octets
      let octets := octets.drop sizeofDelim
      let bytesRemaining := bytesRemaining - sizeofDelim
      if delim = 0 then .stop .left
      else if !morseYapsIsValidDelimiter crc7BeByte delim then .stop .left
      else
        let pktSize := yapsDelimGetPktSize aux delim
        let totalLen := pktSize + yapsDelimGetPadding delim
        if !env.devAllocSkb index pktSize then .stop (.error .enomem)
        else if totalLen ≤ bytesRemaining then
          (readLoop aux env window slots (index + 1) (octets.drop totalLen.toNat)
            (bytesRemaining - totalLen)).cons
              ⟨octets.take pktSize.toNat, yapsDelimGetPoolId delim⟩
        else if bytesRemaining < 0 then .stop .fault
        else
          match env.overhangError with
          | some error => .stop (.error error)
          | none =>
            let overhang := segment env.stream window (totalLen - bytesRemaining).toNat
            if pktSize < bytesRemaining then { LoopResult.stop .fault with overhang := overhang }
            else
              { outcome := .left
                received :=
                  [⟨octets.take bytesRemaining.toNat ++
                      overhang.take (pktSize - bytesRemaining).toNat,
                    yapsDelimGetPoolId delim⟩]
                overhang := overhang }

/-- What a call of `morse_yaps_hw_read_pkts` leaves: its return value, `none`
when it does not return; the packets it counts as received; and the octets that
it consumed from the queue. -/
structure ReadResult where
  ret : Option (Option Errno)
  received : List RxPkt
  consumed : List Octet
  deriving DecidableEq, Repr

/-- `morse_calc_bytes_remaining`: `none` is `-EIO`. -/
def morseCalcBytesRemaining (aux : AuxData) : Option Nat :=
  let bytesInQueue := aux.statusRegs.fcRxBytesInQueue
  let delimOverhead := aux.statusRegs.fcNumPkts * 4
  let reservedBytes := aux.statusRegs.fcNumPkts * aux.reservedYapsPageSize.setWidth 32
  if 2 ^ 31 ≤ bytesInQueue.toNat ∨ 2 ^ 31 ≤ delimOverhead.toNat ∨ 2 ^ 31 ≤ reservedBytes.toNat
  then none
  else some bytesInQueue.toNat

/-- The length of the window that a call reads. -/
def windowLen (bytes : Nat) : Nat := min bytes yapsHwWindowSizeBytes

/-- `morse_yaps_hw_read_pkts`. -/
def morseYapsHwReadPkts (aux : AuxData) (env : ReadEnv) (numPktsMax : Nat) : ReadResult :=
  if numPktsMax = 0 then ⟨some none, [], []⟩
  else
    match morseCalcBytesRemaining aux with
    | none => ⟨some (some .eio), [], []⟩
    | some 0 => ⟨some none, [], []⟩
    | some bytes =>
      if env.locked then ⟨some (some .eperm), [], []⟩
      else
        match env.windowError with
        | some error => ⟨some (some error), [], []⟩
        | none =>
          let window := segment env.stream 0 (windowLen bytes)
          let result := readLoop crc7BeByte aux env (windowLen bytes) numPktsMax 0
            (window ++ env.stale) (windowLen bytes)
          { ret :=
              match result.outcome with
              | .left =>
                some (if yapsHwWindowSizeBytes < bytes then some .eagain else none)
              | .error error => some (some error)
              | .fault => none
            received := result.received
            consumed := window ++ result.overhang }

end Crc

/-! ## Status -/

/-- The polls of `morse_yaps_hw_update_status` that fit into its timeout, each
with the outcome of the bus read. -/
def pollStatus : List (Except Errno StatusRegisters) → Except Errno StatusRegisters
  | [] => .error .etimedout
  | .error error :: _ => .error error
  | .ok regs :: rest => if regs.lock ≠ 0 then pollStatus rest else .ok regs

/-- `morse_yaps_hw_update_status`. -/
def morseYapsHwUpdateStatus (aux : AuxData) (locked : Bool)
    (polls : List (Except Errno StatusRegisters)) : Option Errno × AuxData :=
  if locked then (some .eperm, aux)
  else
    match pollStatus polls with
    | .error error => (some error, aux)
    | .ok regs =>
      (if regs.tcDelimCrcFailDetected ≠ 0 then some .eio else none,
        { aux with statusRegs := regs })

end Yaps
end Morse
