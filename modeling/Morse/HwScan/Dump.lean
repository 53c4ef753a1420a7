import Morse.HwScan.Command
import Morse.Lib.Records

/-!
# Logging the command of a scan

Before the command is sent, it is read again for the log.  The reader goes from header to header,
remembers where each parameter stands, and then reads the parameters.
-/

namespace Morse
namespace HwScan

open Lib

/-- The host that the driver is built for. -/
inductive Host
  | bits32
  | bits64
  deriving DecidableEq

/-- The size of a pointer. -/
def Host.pointerSize : Host → Nat
  | .bits32 => 4
  | .bits64 => 8

/-- A number of two octets in memory. -/
def le16 (memory : Nat → Octet) (position : Nat) : Nat := octetsNat (segment memory position 2)

/-- A number of four octets in memory. -/
def le32 (memory : Nat → Octet) (position : Nat) : BitVec 32 :=
  BitVec.ofNat 32 (octetsNat (segment memory position 4))

/-- A header that was visited. -/
structure Visit where
  offset : Nat
  tag : Nat
  len : Nat
  deriving DecidableEq

/-- Where the command ends, by the length in its header. -/
def commandEnd (memory : Nat → Octet) : Nat := le16 memory 4 + 12

/-- The step from one header to the next: the length and `sizeof(tlv)`, which is the size of a
pointer. -/
def nextTlv (host : Host) (memory : Nat → Octet) (position : Nat) : Nat :=
  position + le16 memory (position + 2) + host.pointerSize

/-- The headers in the order in which they are visited. -/
def visited (host : Host) (memory : Nat → Octet) : List Visit :=
  (visits (nextTlv host memory) (commandEnd memory) (commandEnd memory) reqHwScanSize).map
    fun position => ⟨position, le16 memory position, le16 memory (position + 2)⟩

/-- Of the headers with a tag the last one is remembered. -/
def lastWith (tag : BitVec 16) (headers : List Visit) : Option Visit :=
  headers.reverse.find? fun header => header.tag = tag.toNat

/-- The number of items of one size behind a header that was found. -/
def itemCount (size : Nat) : Option Visit → Nat
  | none => 0
  | some header => header.len / size

/-- The octets that are read behind a header, as offsets and lengths. -/
def readsBehind (reads : List (Nat × Nat)) : Option Visit → List (Nat × Nat)
  | none => []
  | some header => reads.map fun read => (header.offset + read.1, read.2)

/-- The reads for the channels, each with the power that it points to. -/
def channelReads (memory : Nat → Octet) (numChans : Nat) (chList pwrList : Option Visit) :
    List (Nat × Nat) :=
  match chList with
  | none => []
  | some chList =>
    (List.range numChans).flatMap fun i =>
      let position := chList.offset + 4 + 4 * i
      let idx := (bmget (le32 memory position) pwrListIdx 26).toNat
      (position, 4) :: readsBehind [(4 + 4 * idx, 4)] pwrList

/-- The reads for the plans. -/
def scheduledReads (numSched : Nat) (sched : Option Visit) : List (Nat × Nat) :=
  readsBehind ((List.range numSched).flatMap fun i => [(4 + 8 * i, 4), (4 + 8 * i + 4, 4)]) sched

/-- The reads for the match sets; of an SSID as many octets are read as its length says. -/
def filterReads (memory : Nat → Octet) (numFilter : Nat) (filter : Option Visit) :
    List (Nat × Nat) :=
  match filter with
  | none => []
  | some filter =>
    (List.range numFilter).flatMap fun i =>
      let position := filter.offset + 4 + 43 * i
      [(position, 4), (position + 4, 6), (position + 10, 1),
        (position + 11, (memory (position + 10)).toNat)]

/-- What comes of a dump: the headers that were visited, all the octets that were read, and the
numbers of items; the last is the number that the log gives for the filters. -/
structure Dump where
  visited : List Visit
  reads : List (Nat × Nat)
  numChans : Nat
  numSched : Nat
  numFilter : Nat
  filtersLogged : Nat

/-- `morse_hw_scan_dump_scan_cmd`; nothing is dumped unless logs are enabled and the command starts
a scan. -/
def dumpScanCmd (host : Host) (logged : Bool) (memory : Nat → Octet) : Option Dump :=
  let flags := le32 memory 12
  if logged = false then none
  else if flags &&& flagsStart = 0 ∧ flags &&& flagsSchedStart = 0 then none
  else
    let headers := visited host memory
    let chList := lastWith tagChanList headers
    let sched := lastWith tagSched headers
    let filter := lastWith tagFilter headers
    let numChans := itemCount 4 chList
    let numSched := itemCount 8 sched
    let numFilter := itemCount 43 filter
    let reads :=
      [(4, 2), (12, 4), (16, 4)] ++
      headers.flatMap (fun header => [(header.offset, 2), (header.offset + 2, 2)]) ++
      readsBehind [(4, 4)] (lastWith tagDwellOnHome headers) ++
      readsBehind [(4, 4), (8, 4)] (lastWith tagSchedParams headers) ++
      if numChans = 0 then []
      else
        channelReads memory numChans chList (lastWith tagPowerList headers) ++
        scheduledReads numSched sched ++ filterReads memory numFilter filter
    some ⟨headers, reads, numChans, numSched, numFilter, numSched⟩

/-! ## What the reader should find -/

/-- A command in memory, whatever stands behind it. -/
def commandMemory
    (region : Region)
    (params : HwScanParams)
    (store : Bool)
    (schedReq : Option SchedScanRequest)
    (behind : Nat → Octet) :
    Nat → Octet :=
  overwrite behind 0 (hwScanCommand region params store schedReq)

/-- The command asks for a scan to start. -/
def StartsScan (params : HwScanParams) (store : Bool) : Prop :=
  params.operation = .start ∧ store = false ∨ params.operation = .schedStart

/-- The numbers of plans and of match sets that a request has. -/
def planCount (schedReq : Option SchedScanRequest) : Nat :=
  ((schedReq.bind SchedScanRequest.scanPlans).getD []).length

@[inherit_doc planCount]
def matchSetCount (schedReq : Option SchedScanRequest) : Nat :=
  ((schedReq.bind SchedScanRequest.matchSets).getD []).length

/-- The encoding of a scan and the reader agree: what is inserted has the computed size, the
lengths in the headers tile it, the reader visits each parameter once and in order, reads nothing
at the end of the command or behind it, and finds the numbers of items. -/
structure Agrees
    (host : Host)
    (region : Region)
    (params : HwScanParams)
    (store : Bool)
    (schedReq : Option SchedScanRequest)
    (behind : Nat → Octet) :
    Prop where
  size : reqHwScanSize + (insertTlvs region params [] schedReq).length =
    getCommandSize params schedReq
  tiles : Tiles reqHwScanSize (getCommandSize params schedReq)
    ((placed Tlv.octets reqHwScanSize (emitted region params schedReq)).map fun piece =>
      (piece.1, 4 + le16 (commandMemory region params store schedReq behind) (piece.1 + 2)))
  dumps : ∃ dump, dumpScanCmd host true (commandMemory region params store schedReq behind) =
      some dump ∧
    dump.visited.map Visit.offset =
      (placed Tlv.octets reqHwScanSize (emitted region params schedReq)).map Prod.fst ∧
    dump.visited.map Visit.tag =
      (emitted region params schedReq).map (fun tlv => tlv.tag.toNat) ∧
    (∀ read ∈ dump.reads,
      read.1 + read.2 ≤ commandEnd (commandMemory region params store schedReq behind)) ∧
    dump.numChans = params.channels.length ∧
    dump.numSched = planCount schedReq ∧
    dump.numFilter = matchSetCount schedReq

/-- The powers that the channels point to stand inside the command. -/
def PowersInside (params : HwScanParams) (schedReq : Option SchedScanRequest) : Prop :=
  ∀ listed ∈ params.channels,
    reqHwScanSize + (4 + 4 * params.channels.length) + 4 + 4 * (listed.powerIdx % 64) + 4 ≤
      getCommandSize params schedReq

end HwScan
end Morse
