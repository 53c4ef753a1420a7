import Morse.HwScan.Lists
import Morse.Lib.Octets

/-!
# The command that starts a scan

The command has a fixed header, and behind it the parameters of the scan, each with a tag and a
length in front.  Its size is computed before it is filled.
-/

namespace Morse
namespace HwScan

open Lib

/-- An octet. -/
abbrev Octet := BitVec 8

/-! ## Parameters -/

/-- What the command asks for. -/
inductive HwScanOp
  | start
  | stop
  | schedStart
  | schedStop
  deriving DecidableEq

/-- `struct morse_hw_scan_params`, with the fields that the command is made of. -/
structure HwScanParams where
  dwellTimeMs : BitVec 32
  dwellOnHomeMs : BitVec 32
  operation : HwScanOp
  survey : Bool
  probeReq : Option (List Octet)
  channels : List ListedChannel
  powersQdbm : List (BitVec 32)
  use1mhzProbes : Bool

/-- `struct cfg80211_match_set`: an SSID has at most 32 octets. -/
structure MatchSet where
  rssiThold : BitVec 32
  bssid : List Octet
  bssid_length : bssid.length = 6
  ssid : List Octet
  ssid_length : ssid.length ≤ 32

/-- `struct cfg80211_sched_scan_plan`. -/
structure ScanPlan where
  interval : BitVec 32
  iterations : BitVec 32
  deriving DecidableEq

/-- `struct cfg80211_sched_scan_request`; the match sets and the plans may be NULL. -/
structure SchedScanRequest where
  delay : BitVec 32
  minRssiThold : BitVec 32
  matchSets : Option (List MatchSet)
  scanPlans : Option (List ScanPlan)

/-! ## Packing -/

/-- `BMSET`, the lowest bit of the field being `ctz`. -/
def bmset (value field : BitVec 32) (ctz : Nat) : BitVec 32 := (value <<< ctz) &&& field

/-- `BMGET`. -/
def bmget (value field : BitVec 32) (ctz : Nat) : BitVec 32 := (value &&& field) >>> ctz

/-- The index of a bandwidth in a rate code. -/
def bwMhzToBwIndex (bwMhz : Nat) : BitVec 32 :=
  if bwMhz = 1 then 0 else if bwMhz = 2 then 1 else if bwMhz = 4 then 2 else if bwMhz = 8 then 3
  else 1

/-- `HW_SCAN_CH_LIST_PWR_LIST_IDX`. -/
def pwrListIdx : BitVec 32 := 0xFC000000

/-- A channel in 32 bits: the frequency, the bandwidths of the channel and of its primary channel,
the index of the primary channel and the index of the power. -/
def packChannel (region : Region) (chan : Channel) (pwrIdx : Nat) : BitVec 32 :=
  let freqKhz := BitVec.ofInt 32 (channelToFreqKhz region chan.hwValue)
  let opBwMhz := chan.bw
  let primBwMhz := min opBwMhz 2
  bmset freqKhz 0x000FFFFF 0 ||| bmset (bwMhzToBwIndex opBwMhz) 0x00300000 20 |||
    bmset (bwMhzToBwIndex primBwMhz) 0x00400000 22 ||| bmset 0 0x03800000 23 |||
    bmset (BitVec.ofNat 32 pwrIdx) pwrListIdx 26

/-- The header of a parameter, its length being kept in 16 bits. -/
def packTlvHdr (tag : BitVec 16) (len : Nat) : List Octet :=
  leOctets 2 tag ++ leOctets 2 (BitVec.ofNat 16 len)

/-- The tags of the parameters. -/
def tagProbeReq : BitVec 16 := 1
@[inherit_doc tagProbeReq] def tagChanList : BitVec 16 := 2
@[inherit_doc tagProbeReq] def tagPowerList : BitVec 16 := 3
@[inherit_doc tagProbeReq] def tagDwellOnHome : BitVec 16 := 4
@[inherit_doc tagProbeReq] def tagSched : BitVec 16 := 5
@[inherit_doc tagProbeReq] def tagFilter : BitVec 16 := 6
@[inherit_doc tagProbeReq] def tagSchedParams : BitVec 16 := 7

/-! ## Adding parameters -/

/-- The channels of the scan. -/
def addChannelListTlv (region : Region) (buf : List Octet) (params : HwScanParams) : List Octet :=
  buf ++ packTlvHdr tagChanList (params.channels.length * 4) ++
    params.channels.flatMap fun listed =>
      leOctets 4 (packChannel region listed.channel listed.powerIdx)

/-- The powers that the channels point to. -/
def addPowerListTlv (buf : List Octet) (params : HwScanParams) : List Octet :=
  buf ++ packTlvHdr tagPowerList (4 * params.powersQdbm.length) ++
    params.powersQdbm.flatMap (leOctets 4)

/-- The template of the probe request. -/
def addProbeReqTlv (buf probeReq : List Octet) : List Octet :=
  buf ++ packTlvHdr tagProbeReq probeReq.length ++ probeReq

/-- The time on the home channel between two channels. -/
def addDwellOnHomeTlv (buf : List Octet) (params : HwScanParams) : List Octet :=
  buf ++ packTlvHdr tagDwellOnHome (8 - 4) ++ leOctets 4 params.dwellOnHomeMs

/-- `struct hw_scan_match_set`: what the SSID leaves of its 32 octets is zero. -/
def MatchSet.octets (set : MatchSet) : List Octet :=
  leOctets 4 set.rssiThold ++ set.bssid ++ [BitVec.ofNat 8 set.ssid.length] ++
    set.ssid ++ List.replicate (32 - set.ssid.length) 0

/-- The filters of a scheduled scan. -/
def addFilterTlv (buf : List Octet) (matchSets : List MatchSet) : List Octet :=
  buf ++ packTlvHdr tagFilter (43 * matchSets.length) ++ matchSets.flatMap MatchSet.octets

/-- `struct hw_scan_sched_plan`. -/
def ScanPlan.octets (plan : ScanPlan) : List Octet :=
  leOctets 4 plan.interval ++ leOctets 4 plan.iterations

/-- The plans of a scheduled scan. -/
def addScheduledTlv (buf : List Octet) (scanPlans : List ScanPlan) : List Octet :=
  buf ++ packTlvHdr tagSched (8 * scanPlans.length) ++ scanPlans.flatMap ScanPlan.octets

/-- The delay of a scheduled scan and the threshold for all filters. -/
def addScheduledParamsTlv (buf : List Octet) (schedReq : SchedScanRequest) : List Octet :=
  buf ++ packTlvHdr tagSchedParams (12 - 4) ++ leOctets 4 schedReq.delay ++
    leOctets 4 schedReq.minRssiThold

/-- `morse_hw_scan_insert_tlvs`. -/
def insertTlvs
    (region : Region)
    (params : HwScanParams)
    (buf : List Octet)
    (schedReq : Option SchedScanRequest) :
    List Octet :=
  let buf := addChannelListTlv region buf params
  let buf := addPowerListTlv buf params
  let buf := if params.dwellOnHomeMs ≠ 0 then addDwellOnHomeTlv buf params else buf
  let buf := match params.probeReq with
    | some probeReq => addProbeReqTlv buf probeReq
    | none => buf
  match schedReq with
  | none => buf
  | some schedReq =>
    let buf := addScheduledParamsTlv buf schedReq
    let buf := match schedReq.matchSets with
      | some matchSets => addFilterTlv buf matchSets
      | none => buf
    match schedReq.scanPlans with
    | some scanPlans => addScheduledTlv buf scanPlans
    | none => buf

/-- `sizeof(struct morse_cmd_req_hw_scan)`: the header, the flags and the dwell time. -/
def reqHwScanSize : Nat := 12 + 4 + 4

/-- `morse_hw_scan_get_command_size`. -/
def getCommandSize (params : HwScanParams) (schedReq : Option SchedScanRequest) : Nat :=
  if params.operation ≠ .start ∧ params.operation ≠ .schedStart then reqHwScanSize
  else
    let cmdSize := reqHwScanSize + (4 + 4 * params.channels.length)
    let cmdSize := cmdSize + (4 + 4 * params.powersQdbm.length)
    let cmdSize := match params.probeReq with
      | some probeReq => cmdSize + (4 + probeReq.length)
      | none => cmdSize
    let cmdSize := if params.dwellOnHomeMs ≠ 0 then cmdSize + 8 else cmdSize
    match schedReq with
    | none => cmdSize
    | some schedReq =>
      let cmdSize := cmdSize + 12
      let cmdSize := match schedReq.matchSets with
        | some matchSets => cmdSize + (4 + 43 * matchSets.length)
        | none => cmdSize
      match schedReq.scanPlans with
      | some scanPlans => cmdSize + (4 + 8 * scanPlans.length)
      | none => cmdSize

/-! ## The command -/

/-- `MORSE_CMD_HW_SCAN_FLAGS_START` and the other flags of the command. -/
def flagsStart : BitVec 32 := 0x01
@[inherit_doc flagsStart] def flagsAbort : BitVec 32 := 0x02
@[inherit_doc flagsStart] def flagsSurvey : BitVec 32 := 0x04
@[inherit_doc flagsStart] def flagsStore : BitVec 32 := 0x08
@[inherit_doc flagsStart] def flags1mhzProbes : BitVec 32 := 0x10
@[inherit_doc flagsStart] def flagsSchedStart : BitVec 32 := 0x20
@[inherit_doc flagsStart] def flagsSchedStop : BitVec 32 := 0x40

/-- The flags of a command; parameters that are only stored do not start a scan. -/
def flagsFor (operation : HwScanOp) (survey use1mhzProbes store : Bool) : BitVec 32 :=
  let flags :=
    if store then flagsStore
    else if operation = .start then flagsStart
    else if operation = .stop then flagsAbort
    else 0
  let flags :=
    if operation = .schedStart then flags ||| flagsSchedStart
    else if operation = .schedStop then flags ||| flagsSchedStop
    else flags
  let flags := if survey then flags ||| flagsSurvey else flags
  if use1mhzProbes then flags ||| flags1mhzProbes else flags

@[inherit_doc flagsFor]
def commandFlags (params : HwScanParams) (store : Bool) : BitVec 32 :=
  flagsFor params.operation params.survey params.use1mhzProbes store

/-- The header that `morse_cmd_init` fills, with the length of the command in 16 bits; a command
that seems shorter than its header is left blank. -/
def cmdHeader (len : BitVec 16) : List Octet :=
  if len < 12 then List.replicate 12 0
  else
    leOctets 2 (0 : BitVec 16) ++ leOctets 2 (0x0044 : BitVec 16) ++ leOctets 2 (len - 12) ++
      leOctets 2 (0 : BitVec 16) ++ leOctets 2 (0 : BitVec 16) ++ leOctets 2 (0 : BitVec 16)

/-- The command as it is filled by `morse_cmd_hw_scan`. -/
def hwScanCommand
    (region : Region)
    (params : HwScanParams)
    (store : Bool)
    (schedReq : Option SchedScanRequest) :
    List Octet :=
  let starts := params.operation = .start ∨ params.operation = .schedStart
  let dwellTimeMs := if starts then params.dwellTimeMs else 0
  let inserted := if starts then insertTlvs region params [] schedReq else []
  let len := BitVec.ofNat 16 (reqHwScanSize + inserted.length)
  cmdHeader len ++ leOctets 4 (commandFlags params store) ++ leOctets 4 dwellTimeMs ++ inserted

/-! ## What is emitted -/

/-- A parameter: a tag and what stands behind the header. -/
structure Tlv where
  tag : BitVec 16
  payload : List Octet
  deriving DecidableEq

/-- A parameter as it is laid out. -/
def Tlv.octets (tlv : Tlv) : List Octet := packTlvHdr tlv.tag tlv.payload.length ++ tlv.payload

/-- The parameters of a scheduled scan, in their order. -/
def schedTlvs (schedReq : SchedScanRequest) : List Tlv :=
  ⟨tagSchedParams, leOctets 4 schedReq.delay ++ leOctets 4 schedReq.minRssiThold⟩ ::
    (schedReq.matchSets.toList.map fun matchSets =>
      (⟨tagFilter, matchSets.flatMap MatchSet.octets⟩ : Tlv)) ++
    schedReq.scanPlans.toList.map fun scanPlans =>
      ⟨tagSched, scanPlans.flatMap ScanPlan.octets⟩

/-- The payload of the channels. -/
def channelOctets (region : Region) (channels : List ListedChannel) : List Octet :=
  channels.flatMap fun listed => leOctets 4 (packChannel region listed.channel listed.powerIdx)

/-- The parameters of a scan, in their order. -/
def emitted
    (region : Region)
    (params : HwScanParams)
    (schedReq : Option SchedScanRequest) :
    List Tlv :=
  ⟨tagChanList, channelOctets region params.channels⟩ ::
    ⟨tagPowerList, params.powersQdbm.flatMap (leOctets 4)⟩ ::
    (if params.dwellOnHomeMs ≠ 0 then [⟨tagDwellOnHome, leOctets 4
      params.dwellOnHomeMs⟩] else []) ++
    (params.probeReq.toList.map fun probeReq => ⟨tagProbeReq, probeReq⟩) ++
    schedReq.toList.flatMap schedTlvs

theorem length_flatMap_of_width {Item : Type} {octets : Item → List Octet}
    (each : ∀ item, (octets item).length = width) (items : List Item) :
    (items.flatMap octets).length = width * items.length := by
  induction items with
  | nil => rfl
  | cons item items ih =>
    rw [List.flatMap_cons, List.length_append, each, ih, List.length_cons,
      Nat.mul_succ, Nat.add_comm]

theorem length_channelOctets (region : Region) (channels : List ListedChannel) :
    (channelOctets region channels).length = 4 * channels.length :=
  length_flatMap_of_width (fun _ => length_leOctets _ _) channels

theorem length_powerOctets (powers : List (BitVec 32)) :
    (powers.flatMap (leOctets 4)).length = 4 * powers.length :=
  length_flatMap_of_width (length_leOctets 4) powers

theorem MatchSet.length_octets (set : MatchSet) : set.octets.length = 43 := by
  have named := set.bssid_length
  have short := set.ssid_length
  simp only [MatchSet.octets, List.length_append, length_leOctets, List.length_singleton,
    List.length_replicate]
  omega

theorem length_filterOctets (matchSets : List MatchSet) :
    (matchSets.flatMap MatchSet.octets).length = 43 * matchSets.length :=
  length_flatMap_of_width MatchSet.length_octets matchSets

theorem ScanPlan.length_octets (plan : ScanPlan) : plan.octets.length = 8 := by
  rw [ScanPlan.octets, List.length_append, length_leOctets, length_leOctets]

theorem length_planOctets (scanPlans : List ScanPlan) :
    (scanPlans.flatMap ScanPlan.octets).length = 8 * scanPlans.length :=
  length_flatMap_of_width ScanPlan.length_octets scanPlans

theorem length_packTlvHdr (tag : BitVec 16) (len : Nat) : (packTlvHdr tag len).length = 4 := by
  rw [packTlvHdr, List.length_append, length_leOctets, length_leOctets]

theorem Tlv.length_octets (tlv : Tlv) : tlv.octets.length = 4 + tlv.payload.length := by
  rw [Tlv.octets, List.length_append, length_packTlvHdr]

theorem insertTlvs_eq (region : Region) (params : HwScanParams) (buf : List Octet)
    (schedReq : Option SchedScanRequest) :
    insertTlvs region params buf schedReq =
      buf ++ (emitted region params schedReq).flatMap Tlv.octets := by
  have channels (buf : List Octet) : addChannelListTlv region buf params =
      buf ++ Tlv.octets ⟨tagChanList, channelOctets region params.channels⟩ := by
    rw [addChannelListTlv, Tlv.octets, length_channelOctets, Nat.mul_comm, channelOctets,
      List.append_assoc]
  have powers (buf : List Octet) : addPowerListTlv buf params =
      buf ++ Tlv.octets ⟨tagPowerList, params.powersQdbm.flatMap (leOctets 4)⟩ := by
    rw [addPowerListTlv, Tlv.octets, length_powerOctets, List.append_assoc]
  have dwell (buf : List Octet) : addDwellOnHomeTlv buf params =
      buf ++ Tlv.octets ⟨tagDwellOnHome, leOctets 4 params.dwellOnHomeMs⟩ := by
    rw [addDwellOnHomeTlv, Tlv.octets, length_leOctets, List.append_assoc]
  have probe (buf probeReq : List Octet) :
      addProbeReqTlv buf probeReq = buf ++ Tlv.octets ⟨tagProbeReq, probeReq⟩ := by
    rw [addProbeReqTlv, Tlv.octets, List.append_assoc]
  have infos (buf : List Octet) (schedReq : SchedScanRequest) :
      addScheduledParamsTlv buf schedReq = buf ++ Tlv.octets
        ⟨tagSchedParams, leOctets 4 schedReq.delay ++ leOctets 4 schedReq.minRssiThold⟩ := by
    rw [addScheduledParamsTlv, Tlv.octets, List.length_append, length_leOctets, length_leOctets,
      List.append_assoc, List.append_assoc]
  have filters (buf : List Octet) (matchSets : List MatchSet) : addFilterTlv buf matchSets =
      buf ++ Tlv.octets ⟨tagFilter, matchSets.flatMap MatchSet.octets⟩ := by
    rw [addFilterTlv, Tlv.octets, length_filterOctets, List.append_assoc]
  have plans (buf : List Octet) (scanPlans : List ScanPlan) : addScheduledTlv buf scanPlans =
      buf ++ Tlv.octets ⟨tagSched, scanPlans.flatMap ScanPlan.octets⟩ := by
    rw [addScheduledTlv, Tlv.octets, length_planOctets, List.append_assoc]
  unfold insertTlvs emitted schedTlvs
  simp only [channels, powers, dwell, probe, infos, filters, plans]
  by_cases dwells : params.dwellOnHomeMs = 0#32 <;> cases params.probeReq <;> cases schedReq with
  | none => simp [dwells]
  | some schedReq =>
    obtain ⟨delay, minRssiThold, matchSets, scanPlans⟩ := schedReq
    cases matchSets <;> cases scanPlans <;> simp [dwells]

theorem length_insertTlvs (region : Region)
    (starts : params.operation = .start ∨ params.operation = .schedStart)
    (schedReq : Option SchedScanRequest) :
    reqHwScanSize + (insertTlvs region params [] schedReq).length =
      getCommandSize params schedReq := by
  rw [insertTlvs_eq, List.nil_append]
  have sized : ¬(params.operation ≠ .start ∧ params.operation ≠ .schedStart) := by
    rintro ⟨noStart, noSchedStart⟩
    exact starts.elim noStart noSchedStart
  unfold getCommandSize emitted schedTlvs
  rw [if_neg sized]
  by_cases dwells : params.dwellOnHomeMs = 0#32 <;> cases params.probeReq <;> cases schedReq with
  | none =>
    simp [-List.length_flatMap, dwells, Tlv.length_octets, length_channelOctets,
      length_powerOctets]
    omega
  | some schedReq =>
    obtain ⟨delay, minRssiThold, matchSets, scanPlans⟩ := schedReq
    cases matchSets <;> cases scanPlans <;>
      simp [-List.length_flatMap, dwells, Tlv.length_octets, length_channelOctets,
        length_powerOctets, length_filterOctets, length_planOctets] <;> omega

end HwScan
end Morse
