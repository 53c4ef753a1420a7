import Morse.Lib.Bits
import Morse.Lib.Octets

/-!
# Short headers of protocol version 1

Between stations that support it, data goes out with a short header.  An address
is left out where the receiver has stored it, or finds it from the association
identifier.  This module transcribes the conversion of a header before a frame is
sent and the conversion back after one was received.
-/

namespace Morse
namespace Pv1

open Lib

/-- An Ethernet address, its first octet the least significant. -/
abbrev Addr := BitVec 48

/-- `is_multicast_ether_addr`, which a broadcast address satisfies. -/
def isMulticastEtherAddr (addr : Addr) : Bool := addr.getLsbD 0

/-! ## Fields of frame controls -/

/-- `IEEE80211_FCTL_FTYPE`. -/
def fctlFtype : BitVec 16 := 0x000C

/-- `IEEE80211_FTYPE_DATA`. -/
def ftypeData : BitVec 16 := 0x0008

/-- `IEEE80211_STYPE_QOS_DATA`. -/
def stypeQosData : BitVec 16 := 0x0080

/-- `IEEE80211_FCTL_TODS`. -/
def fctlTods : BitVec 16 := 0x0100

/-- `IEEE80211_FCTL_FROMDS`. -/
def fctlFromds : BitVec 16 := 0x0200

/-- `IEEE80211_FCTL_MOREFRAGS`. -/
def fctlMorefrags : BitVec 16 := 0x0400

/-- `IEEE80211_FCTL_PM`. -/
def fctlPm : BitVec 16 := 0x1000

/-- `IEEE80211_FCTL_MOREDATA`. -/
def fctlMoredata : BitVec 16 := 0x2000

/-- `IEEE80211_FCTL_PROTECTED`. -/
def fctlProtected : BitVec 16 := 0x4000

/-- `IEEE80211_QOS_CTL_TID_MASK`. -/
def qosCtlTidMask : BitVec 8 := 0x0F

/-- `IEEE80211_QOS_CTL_EOSP`. -/
def qosCtlEosp : BitVec 8 := 0x10

/-- `IEEE80211_QOS_CTL_ACK_POLICY_NOACK`. -/
def qosCtlAckPolicyNoack : BitVec 8 := 0x20

/-- `IEEE80211_QOS_CTL_TAG1D_MASK`. -/
def qosCtlTag1dMask : BitVec 32 := 0x07

/-- `IEEE80211_QOS_CTL_LEN`. -/
def qosCtlLen : Nat := 2

/-- `DOT11_PV1_PROTOCOL_VERSION`. -/
def pv1ProtocolVersion : BitVec 16 := 0x0001

/-- `IEEE80211_PV1_FCTL_VERS`. -/
def pv1FctlVers : BitVec 16 := 0x0003

/-- `IEEE80211_PV1_FCTL_FTYPE`. -/
def pv1FctlFtype : BitVec 16 := 0x001C

/-- `IEEE80211_PV1_FCTL_STYPE`. -/
def pv1FctlStype : BitVec 16 := 0x00E0

/-- `IEEE80211_PV1_FCTL_FROMDS`. -/
def pv1FctlFromds : BitVec 16 := 0x0100

/-- `IEEE80211_PV1_FCTL_MOREFRAGS`. -/
def pv1FctlMorefrags : BitVec 16 := 0x0200

/-- `IEEE80211_PV1_FCTL_PM`. -/
def pv1FctlPm : BitVec 16 := 0x0400

/-- `IEEE80211_PV1_FCTL_MOREDATA`. -/
def pv1FctlMoredata : BitVec 16 := 0x0800

/-- `IEEE80211_PV1_FCTL_PROTECTED`. -/
def pv1FctlProtected : BitVec 16 := 0x1000

/-- `IEEE80211_PV1_FCTL_END_SP`. -/
def pv1FctlEndSp : BitVec 16 := 0x2000

/-- `IEEE80211_PV1_FCTL_ACK_POLICY`. -/
def pv1FctlAckPolicy : BitVec 16 := 0x8000

/-- `DOT11_MAC_PV1_STYPE_OFFSET`. -/
def pv1StypeOffset : Nat := 5

/-- `DOT11_MAC_PV1_FRAME_TYPE_QOS_DATA_SID`. -/
def pv1FrameTypeQosDataSid : BitVec 16 := 0x0000

/-- `DOT11_MAC_PV1_FRAME_TYPE_QOS_DATA`. -/
def pv1FrameTypeQosData : BitVec 16 := 0x000C

/-- `DOT11_MAC_PV1_SID_AID_MASK`. -/
def pv1SidAidMask : BitVec 16 := 0x1FFF

/-- `DOT11_MAC_PV1_SID_A3_PRESENT`. -/
def pv1SidA3Present : BitVec 16 := 0x2000

/-- `DOT11_MAC_PV1_SID_A4_PRESENT`. -/
def pv1SidA4Present : BitVec 16 := 0x4000

/-- `BPN_LEN`. -/
def bpnLen : Nat := 4

/-! ## Headers and contexts -/

/-- `struct ieee80211_hdr`. -/
structure Ieee80211Hdr where
  frameControl : BitVec 16
  durationId : BitVec 16
  addr1 : Addr
  addr2 : Addr
  addr3 : Addr
  seqCtrl : BitVec 16
  addr4 : Addr
  deriving DecidableEq, Repr

/-- `ieee80211_has_a4`. -/
def hasA4 (frameControl : BitVec 16) : Bool :=
  decide (frameControl &&& (fctlTods ||| fctlFromds) = fctlTods ||| fctlFromds)

/-- `ieee80211_is_mgmt`. -/
def isMgmt (frameControl : BitVec 16) : Bool := decide (frameControl &&& fctlFtype = 0)

/-- The length of a header before its quality of service control. -/
def hdrLen (frameControl : BitVec 16) : Nat := if hasA4 frameControl then 30 else 24

/-- The octets of `struct ieee80211_hdr`. -/
def Ieee80211Hdr.octets (hdr : Ieee80211Hdr) : List (BitVec 8) :=
  leOctets 2 hdr.frameControl ++ (leOctets 2 hdr.durationId ++ (leOctets 6 hdr.addr1 ++
    (leOctets 6 hdr.addr2 ++ (leOctets 6 hdr.addr3 ++ (leOctets 2 hdr.seqCtrl ++
      leOctets 6 hdr.addr4)))))

/-- `struct morse_pv1_hc_request`. -/
structure HcRequest where
  headerCompressionA3 : Addr
  headerCompressionA4 : Addr
  storedA3 : Addr
  storedA4 : Addr
  a1A3Differ : Bool
  a2A4Differ : Bool
  a4Included : Bool
  actionDialogToken : BitVec 8
  actionInProgress : Bool
  deriving DecidableEq, Repr

/-- A request as `mors_pv1_init_vif` leaves it. -/
def HcRequest.zeroed : HcRequest := ⟨0, 0, 0, 0, false, false, false, 0, false⟩

/-- The partial TIDs, and the management frames behind them. -/
abbrev Ptid := Fin 9

/-- `struct morse_sta_pv1`. -/
structure StaPv1 where
  a3Stored : Bool
  a4Stored : Bool
  storedA3 : Addr
  storedA4 : Addr
  lastSeqNum : Ptid → BitVec 16
  bpn : Ptid → BitVec 32

/-- A context as `memset` leaves it. -/
def StaPv1.zeroed : StaPv1 := ⟨false, false, 0, 0, fun _ => 0, fun _ => 0⟩

/-- The types of an interface that the conversions tell apart. -/
inductive IfType
  | station
  | ap
  | other
  deriving DecidableEq, Repr

/-- A frame to be converted: its header, the first octet of its quality of service
control, what follows, and the octets free in front. -/
structure TxSkb where
  hdr : Ieee80211Hdr
  qosCtl : BitVec 8
  priority : BitVec 32
  body : List (BitVec 8)
  headroom : Nat
  deriving DecidableEq, Repr

/-- `IEEE80211_SEQ_TO_SN` of the sequence control. -/
def TxSkb.seqNum (skb : TxSkb) : BitVec 16 := (skb.hdr.seqCtrl &&& 0xFFF0) >>> 4

/-- The end of the association that sends: the type of its interface, its own
identifier, and that of the peer. -/
structure Sender where
  type : IfType
  selfAid : BitVec 16
  staAid : BitVec 16
  /-- PV1 is enabled on the interface and supported by the peer. -/
  supported : Bool
  deriving DecidableEq, Repr

/-- The errors of the conversions. -/
inductive Failure
  /-- `-EINVAL` -/
  | einval
  /-- `-EFAULT` -/
  | efault
  deriving DecidableEq, Repr

/-! ## Before a frame is sent -/

/-- `morse_pv1_a3_a4_check`. -/
def a3A4Check (txRequest : HcRequest) (hdr : Ieee80211Hdr) : HcRequest :=
  let cleared :=
    { txRequest with
      a4Included := hasA4 hdr.frameControl
      a1A3Differ := false
      a2A4Differ := false }
  if isMulticastEtherAddr hdr.addr3 then { cleared with a1A3Differ := true }
  else
    let third :=
      if hdr.addr1 ≠ hdr.addr3 then
        { cleared with a1A3Differ := true, headerCompressionA3 := hdr.addr3 }
      else cleared
    if third.a4Included ∧ hdr.addr2 ≠ hdr.addr4 then
      { third with a2A4Differ := true, headerCompressionA4 := hdr.addr4 }
    else third

/-- The test of `morse_prepare_pv1_frame_ctrl` for a header with an identifier. -/
def usesSid (ctx : StaPv1) (txRequest : HcRequest) : Bool :=
  ctx.a3Stored || ctx.a4Stored || txRequest.a1A3Differ || txRequest.a2A4Differ

/-- `morse_prepare_pv1_frame_ctrl`. -/
def preparePv1FrameCtrl (ctx : StaPv1) (txRequest : HcRequest) (skb : TxSkb) : BitVec 16 :=
  pv1ProtocolVersion &&& pv1FctlVers |||
    ((skb.qosCtl &&& qosCtlTidMask).setWidth 16 <<< pv1StypeOffset) &&& pv1FctlStype |||
    pv1FctlFtype &&&
      (if usesSid ctx txRequest then pv1FrameTypeQosDataSid else pv1FrameTypeQosData) |||
    flag (hasMask skb.hdr.frameControl fctlFromds) pv1FctlFromds |||
    flag (hasMask skb.hdr.frameControl fctlMorefrags) pv1FctlMorefrags |||
    flag (hasMask skb.hdr.frameControl fctlPm) pv1FctlPm |||
    flag (hasMask skb.hdr.frameControl fctlMoredata) pv1FctlMoredata |||
    flag (hasMask skb.hdr.frameControl fctlProtected) pv1FctlProtected |||
    flag (hasMask skb.qosCtl qosCtlEosp) pv1FctlEndSp

/-- The identifier that an interface puts into a header. -/
def Sender.sid (sender : Sender) : BitVec 16 :=
  match sender.type with
  | .station => sender.selfAid &&& pv1SidAidMask
  | .ap => sender.staAid &&& pv1SidAidMask
  | .other => 0

/-- A3 goes into the header unless it is stored. -/
def a3Present (ctx : StaPv1) (hdr : Ieee80211Hdr) : Bool :=
  !ctx.a3Stored || decide (ctx.storedA3 ≠ hdr.addr3)

/-- A4 goes into the header of a frame that has one, unless it is stored. -/
def a4Present (ctx : StaPv1) (hdr : Ieee80211Hdr) : Bool :=
  hasA4 hdr.frameControl && (!ctx.a4Stored || decide (ctx.storedA4 ≠ hdr.addr4))

/-- `morse_prepare_pv1_sid_header`, with the frame control before it. -/
def preparePv1SidHeader (sender : Sender) (ctx : StaPv1) (hdr : Ieee80211Hdr) (fc : BitVec 16) :
    List (BitVec 8) :=
  let sid := sender.sid ||| flag (a3Present ctx hdr) pv1SidA3Present |||
    flag (a4Present ctx hdr) pv1SidA4Present
  let optional :=
    (if a3Present ctx hdr then leOctets 6 hdr.addr3 else []) ++
      (if a4Present ctx hdr then leOctets 6 hdr.addr4 else [])
  leOctets 2 fc ++
    if hasMask fc pv1FctlFromds then
      leOctets 2 sid ++ (leOctets 6 hdr.addr2 ++ (leOctets 2 hdr.seqCtrl ++ optional))
    else leOctets 6 hdr.addr1 ++ (leOctets 2 sid ++ (leOctets 2 hdr.seqCtrl ++ optional))

/-- `morse_prepare_pv1_qos_header`, with the frame control before it. -/
def preparePv1QosHeader (hdr : Ieee80211Hdr) (fc : BitVec 16) : List (BitVec 8) :=
  leOctets 2 fc ++ (leOctets 6 hdr.addr1 ++ (leOctets 6 hdr.addr2 ++ leOctets 2 hdr.seqCtrl))

/-- `morse_prepare_pv1_mac_header`. -/
def preparePv1MacHeader (sender : Sender) (ctx : StaPv1) (hdr : Ieee80211Hdr) (fc : BitVec 16) :
    List (BitVec 8) :=
  if fc &&& pv1FctlFtype = pv1FrameTypeQosDataSid then preparePv1SidHeader sender ctx hdr fc
  else if fc &&& pv1FctlFtype = pv1FrameTypeQosData then preparePv1QosHeader hdr fc
  else leOctets 2 fc

/-- The partial TID of a frame, or the place behind them for management frames. -/
def ptidOf (tid : BitVec 32) (mgmt : Bool) : Ptid :=
  if mgmt then 8 else ⟨(tid &&& 0x07).toNat % 8, Nat.lt_succ_of_lt (Nat.mod_lt _ (by decide))⟩

/-- `morse_pv1_retrieve_tx_bpn`, whose value is negative where its top bit is set. -/
def retrieveTxBpn (supported : Bool) (ctx : StaPv1) (seqNum : BitVec 16) (ptid : Ptid) :
    BitVec 32 × StaPv1 :=
  if !supported then (-1, ctx)
  else
    let bpn :=
      if seqNum < ctx.lastSeqNum ptid then ctx.bpn ptid + 1 else ctx.bpn ptid
    (bpn,
      { ctx with
        bpn := Function.update ctx.bpn ptid bpn
        lastSeqNum := Function.update ctx.lastSeqNum ptid seqNum })

/-- A converted frame: its header, its base packet number where it is protected, and
what follows. -/
structure Pv1Skb where
  header : List (BitVec 8)
  bpn : Option (BitVec 32)
  body : List (BitVec 8)
  deriving DecidableEq, Repr

/-- The partial TID that a frame is numbered on. -/
def TxSkb.ptid (skb : TxSkb) : Ptid :=
  ptidOf (skb.priority &&& qosCtlTag1dMask) (isMgmt skb.hdr.frameControl)

/-- `morse_convert_pv0_to_pv1`.  The context is returned with what the conversion
changed, also when it fails. -/
def convertPv0ToPv1 (sender : Sender) (ctx : StaPv1) (txRequest : HcRequest) (skb : TxSkb) :
    StaPv1 × Except Failure Pv1Skb :=
  let pv0HdrLen := hdrLen skb.hdr.frameControl + qosCtlLen
  let len := pv0HdrLen + skb.body.length
  let fc := preparePv1FrameCtrl ctx txRequest skb
  let header := preparePv1MacHeader sender ctx skb.hdr fc
  let headroomRequired := len - pv0HdrLen + header.length
  if hasMask skb.hdr.frameControl fctlProtected then
    let numbered := retrieveTxBpn sender.supported ctx skb.seqNum skb.ptid
    if numbered.1.msb then (numbered.2, .error .einval)
    else if len + skb.headroom < headroomRequired + bpnLen then (numbered.2, .error .efault)
    else (numbered.2, .ok ⟨header, some numbered.1, skb.body⟩)
  else if len + skb.headroom < headroomRequired then (ctx, .error .efault)
  else (ctx, .ok ⟨header, none, skb.body⟩)

/-! ## After a frame was received -/

/-- A station of the receiver: its interface, its identifier and address, and what it
asked to be stored. -/
structure Sta where
  onVif : Bool
  aid : BitVec 16
  addr : Addr
  rxCtx : StaPv1

/-- The end of the association that receives, with the stations that are iterated
over and the one found by the address of its access point. -/
structure Receiver where
  type : IfType
  addr : Addr
  stations : List Sta
  bssidSta : Option Sta

/-- `pv1_find_sta_by_aid` over all stations, with an identifier of eight bits; a later
station takes the place of an earlier one. -/
def findStaByAid (aid : BitVec 8) (stations : List Sta) : Option Sta :=
  stations.foldl (fun found sta =>
    if sta.onVif ∧ sta.aid = aid.setWidth 16 then some sta else found) none

/-- `morse_pv1_find_sta` of a header with an identifier. -/
def pv1FindSta (receiver : Receiver) (sid : BitVec 16) : Option Sta :=
  match receiver.type with
  | .ap => findStaByAid ((sid &&& pv1SidAidMask).setWidth 8) receiver.stations
  | .station => receiver.bssidSta
  | .other => none

/-- `morse_prepare_pv0_frame_ctrl`. -/
def preparePv0FrameCtrl (pv1Fc : BitVec 16) : BitVec 16 :=
  ftypeData ||| stypeQosData |||
    (if hasMask pv1Fc pv1FctlFromds then fctlFromds else fctlTods) |||
    flag (hasMask pv1Fc pv1FctlMorefrags) fctlMorefrags |||
    flag (hasMask pv1Fc pv1FctlPm) fctlPm |||
    flag (hasMask pv1Fc pv1FctlMoredata) fctlMoredata |||
    flag (hasMask pv1Fc pv1FctlProtected) fctlProtected

/-- `morse_convert_pv1_to_pv0_qos_ctrl`, the first octet. -/
def convertPv1ToPv0QosCtrl (fc : BitVec 16) : BitVec 8 :=
  ((fc &&& pv1FctlStype) >>> pv1StypeOffset).setWidth 8 &&& qosCtlTidMask |||
    flag (hasMask fc pv1FctlEndSp) qosCtlEosp |||
    flag (hasMask fc pv1FctlAckPolicy) qosCtlAckPolicyNoack

/-- A header as its initialiser leaves it. -/
def Ieee80211Hdr.zeroed : Ieee80211Hdr := ⟨0, 0, 0, 0, 0, 0, 0⟩

/-- The addresses of a header with an identifier, its frame control, and its length. -/
def preparePv0SidHeader (receiver : Receiver) (octets : List (BitVec 8)) (pv1Fc pv0Fc : BitVec 16) :
    Ieee80211Hdr × Nat :=
  let fromDs := hasMask pv1Fc pv1FctlFromds
  let sid := if fromDs then numberAt 16 2 2 octets else numberAt 16 2 8 octets
  let sta := pv1FindSta receiver sid
  let a3 := hasMask sid pv1SidA3Present
  let a4 := hasMask sid pv1SidA4Present
  let storedA4 := sta.elim false fun sta => sta.rxCtx.a4Stored
  ({ frameControl := pv0Fc ||| flag (a4 || storedA4) (fctlTods ||| fctlFromds)
     durationId := 0
     addr1 := if fromDs then receiver.addr else numberAt 48 6 2 octets
     addr2 := if fromDs then numberAt 48 6 4 octets else sta.elim 0 Sta.addr
     addr3 :=
       if a3 then numberAt 48 6 12 octets
       else sta.elim 0 fun sta => if sta.rxCtx.a3Stored then sta.rxCtx.storedA3 else 0
     seqCtrl := numberAt 16 2 10 octets
     addr4 :=
       if a4 then numberAt 48 6 (if a3 then 18 else 12) octets
       else sta.elim 0 fun sta => if sta.rxCtx.a4Stored then sta.rxCtx.storedA4 else 0 },
    12 + (if a3 then 6 else 0) + (if a4 then 6 else 0))

/-- `morse_prepare_pv0_mac_header`, which is given the frame control by value. -/
def preparePv0MacHeader (receiver : Receiver) (octets : List (BitVec 8)) (pv1Fc pv0Fc : BitVec 16) :
    Ieee80211Hdr × Nat :=
  if pv1Fc &&& pv1FctlFtype = pv1FrameTypeQosDataSid then
    preparePv0SidHeader receiver octets pv1Fc pv0Fc
  else if pv1Fc &&& pv1FctlFtype = pv1FrameTypeQosData then
    ({ frameControl := pv0Fc
       durationId := 0
       addr1 := numberAt 48 6 2 octets
       addr2 := numberAt 48 6 8 octets
       addr3 := numberAt 48 6 2 octets
       seqCtrl := numberAt 16 2 14 octets
       addr4 := 0 }, 16)
  else ({ Ieee80211Hdr.zeroed with frameControl := pv0Fc }, 2)

/-- `morse_prepare_ccmp_header`. -/
def prepareCcmpHeader : List (BitVec 8) → List (BitVec 8)
  | o0 :: o1 :: o2 :: o3 :: o4 :: o5 :: _ :: _ :: rest =>
    o5 :: o4 :: 0 :: 0 :: o3 :: o2 :: o1 :: o0 :: rest
  | octets => octets

/-- `morse_mac_convert_pv1_to_pv0` on an interface where PV1 is enabled.  The second
octet of the quality of service control is what the stack held. -/
def convertPv1ToPv0
    (receiver : Receiver)
    (octets : List (BitVec 8))
    (headroom : Nat)
    (decrypted : Bool)
    (stray : BitVec 8) : Except Failure (List (BitVec 8)) :=
  let pv1Fc := numberAt 16 2 0 octets
  let pv0Fc := preparePv0FrameCtrl pv1Fc
  let prepared := preparePv0MacHeader receiver octets pv1Fc pv0Fc
  let headroomRequired := octets.length + 30 + qosCtlLen - prepared.2
  if octets.length + headroom < headroomRequired then .error .efault
  else
    let body := octets.drop prepared.2
    let body := if hasMask pv1Fc pv1FctlProtected && decrypted then prepareCcmpHeader body else body
    let pv0HdrSize := if hasA4 pv0Fc then 30 else 30 - 6
    .ok (prepared.1.octets.take pv0HdrSize ++
      (convertPv1ToPv0QosCtrl pv1Fc :: stray :: body))

end Pv1
end Morse
