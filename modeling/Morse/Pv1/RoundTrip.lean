import Mathlib.Data.List.Induction
import Morse.Pv1.Headers

/-!
# From a long header to a short one and back

A data frame that is sent with a short header is given a long header again by its
receiver.  This module says for which frames and contexts the long header is the one
that the sender had.
-/

namespace Morse
namespace Pv1

open Lib

/-! ## Frames and their two ends -/

/-- The flags in the frame control of a data frame. -/
structure FrameFlags where
  toDs : Bool
  fromDs : Bool
  moreFrags : Bool
  pm : Bool
  moreData : Bool
  isProtected : Bool
  deriving DecidableEq, Repr

/-- The frame control of a data frame with quality of service. -/
def FrameFlags.frameControl (flags : FrameFlags) : BitVec 16 :=
  ftypeData ||| stypeQosData ||| flag flags.toDs fctlTods ||| flag flags.fromDs fctlFromds |||
    flag flags.moreFrags fctlMorefrags ||| flag flags.pm fctlPm |||
    flag flags.moreData fctlMoredata ||| flag flags.isProtected fctlProtected

/-- A frame with quality of service, of one of the eight access categories. -/
structure QosData (flags : FrameFlags) (skb : TxSkb) : Prop where
  frameControl : skb.hdr.frameControl = flags.frameControl
  tid : skb.qosCtl &&& qosCtlTidMask < 8

/-- What a receiver stored for a sender is what the sender takes it to have stored. -/
structure Agrees (ctx : StaPv1) (entry : Sta) : Prop where
  a3Stored : entry.rxCtx.a3Stored = ctx.a3Stored
  a4Stored : entry.rxCtx.a4Stored = ctx.a4Stored
  storedA3 : entry.rxCtx.storedA3 = ctx.storedA3
  storedA4 : entry.rxCtx.storedA4 = ctx.storedA4

/-- A station sends a frame to its access point, which knows it by its identifier. -/
structure Uplink (aid : BitVec 16) (ctx : StaPv1) (flags : FrameFlags) (skb : TxSkb)
    (sender : Sender) (receiver : Receiver) : Prop where
  frame : QosData flags skb
  supported : sender.supported = true
  senderType : sender.type = .station
  receiverType : receiver.type = .ap
  toDs : flags.toDs = true
  aidPositive : 1 ≤ aid.toNat
  aidBelow : aid.toNat ≤ 2007
  selfAid : sender.selfAid = aid
  addr1 : skb.hdr.addr1 = receiver.addr
  /-- The station is one of those of the access point. -/
  entry : ∃ entry ∈ receiver.stations, entry.onVif = true ∧ entry.aid = aid ∧
    entry.addr = skb.hdr.addr2 ∧ Agrees ctx entry
  /-- No two stations of the interface have one identifier or one address. -/
  distinct : ∀ first ∈ receiver.stations, ∀ second ∈ receiver.stations,
    first.onVif = true → second.onVif = true →
      (first.aid = second.aid ∨ first.addr = second.addr) → first = second
  addr2 : skb.hdr.addr2 ≠ 0

/-- An access point sends a frame to one of its stations. -/
structure Downlink (aid : BitVec 16) (ctx : StaPv1) (flags : FrameFlags) (skb : TxSkb)
    (sender : Sender) (receiver : Receiver) : Prop where
  frame : QosData flags skb
  supported : sender.supported = true
  senderType : sender.type = .ap
  receiverType : receiver.type = .station
  fromDs : flags.fromDs = true
  aidPositive : 1 ≤ aid.toNat
  aidBelow : aid.toNat ≤ 2007
  staAid : sender.staAid = aid
  addr1 : skb.hdr.addr1 = receiver.addr
  /-- The access point is the one that the station is associated with. -/
  entry : ∃ entry, receiver.bssidSta = some entry ∧ entry.addr = skb.hdr.addr2 ∧ Agrees ctx entry

/-- A frame is converted, arrives with whatever follows its header, and is converted
back. -/
def roundTrip
    (sender : Sender)
    (ctx : StaPv1)
    (txRequest : HcRequest)
    (skb : TxSkb)
    (receiver : Receiver)
    (rest : List (BitVec 8))
    (headroom : Nat)
    (decrypted : Bool)
    (stray : BitVec 8) : Except Failure (List (BitVec 8)) := do
  let converted ← (convertPv0ToPv1 sender ctx (a3A4Check txRequest skb.hdr) skb).2
  convertPv1ToPv0 receiver (converted.header ++ rest) headroom decrypted stray

/-- Octets start with the header that a frame had, and are as long as this header and
what follows it. -/
structure Recovers (skb : TxSkb) (rest octets : List (BitVec 8)) : Prop where
  frameControl : numberAt 16 2 0 octets = skb.hdr.frameControl
  addr1 : numberAt 48 6 4 octets = skb.hdr.addr1
  addr2 : numberAt 48 6 10 octets = skb.hdr.addr2
  addr3 : numberAt 48 6 16 octets = skb.hdr.addr3
  seqCtrl : numberAt 16 2 22 octets = skb.hdr.seqCtrl
  addr4 : hasA4 skb.hdr.frameControl = true → numberAt 48 6 24 octets = skb.hdr.addr4
  qosCtl : octets[hdrLen (numberAt 16 2 0 octets)]? =
    some (skb.qosCtl &&& (qosCtlTidMask ||| qosCtlEosp))
  length : octets.length = hdrLen (numberAt 16 2 0 octets) + qosCtlLen + rest.length

/-- The packet number that a protected frame would be given is not negative. -/
def HasNumber (ctx : StaPv1) (skb : TxSkb) : Prop :=
  (if skb.seqNum < ctx.lastSeqNum skb.ptid then ctx.bpn skb.ptid + 1
    else ctx.bpn skb.ptid).msb = false

/-- A frame and the contexts of its two ends for which the header comes through. -/
structure ComesThrough (aid : BitVec 16) (ctx : StaPv1) (txRequest : HcRequest)
    (flags : FrameFlags) (skb : TxSkb) : Prop where
  threeAddresses : (flags.toDs && flags.fromDs) = false
  number : flags.isProtected = true → HasNumber ctx skb
  stored : usesSid ctx (a3A4Check txRequest skb.hdr) = true →
    ctx.a4Stored = false ∧ (flags.fromDs = true ∨ aid.toNat < 256)

/-! ## Frame controls -/

section FrameControl

variable (flags : FrameFlags)

theorem hasMask_frameControl :
    hasMask flags.frameControl fctlFromds = flags.fromDs ∧
      hasMask flags.frameControl fctlMorefrags = flags.moreFrags ∧
      hasMask flags.frameControl fctlPm = flags.pm ∧
      hasMask flags.frameControl fctlMoredata = flags.moreData ∧
      hasMask flags.frameControl fctlProtected = flags.isProtected := by
  obtain ⟨toDs, fromDs, moreFrags, pm, moreData, isProtected⟩ := flags
  revert toDs fromDs moreFrags pm moreData isProtected
  decide +kernel

theorem hasA4_frameControl : hasA4 flags.frameControl = (flags.toDs && flags.fromDs) := by
  obtain ⟨toDs, fromDs, moreFrags, pm, moreData, isProtected⟩ := flags
  revert toDs fromDs moreFrags pm moreData isProtected
  decide +kernel

/-- The flags that a receiver gives a frame, which say one direction. -/
def FrameFlags.oneWay (flags : FrameFlags) : FrameFlags :=
  { flags with toDs := !flags.fromDs }

theorem preparePv0FrameCtrl_pv1Fc {flags : FrameFlags} (frame : QosData flags skb) (ctx : StaPv1)
    (txRequest : HcRequest) :
    preparePv0FrameCtrl (preparePv1FrameCtrl ctx txRequest skb) = flags.oneWay.frameControl := by
  obtain ⟨fromDs, moreFrags, pm, moreData, isProtected⟩ := hasMask_frameControl flags
  unfold preparePv0FrameCtrl
  rw [hasMask_pv1Fc_fromds, hasMask_pv1Fc_morefrags, hasMask_pv1Fc_pm, hasMask_pv1Fc_moredata,
    hasMask_pv1Fc_protected, frame.frameControl, fromDs, moreFrags, pm, moreData, isProtected]
  cases way : flags.fromDs <;> simp [FrameFlags.frameControl, FrameFlags.oneWay, way]

end FrameControl

/-! ## Reading a short header -/

section Reading

variable {receiver : Receiver} {sender : Sender} {ctx : StaPv1} {hdr : Ieee80211Hdr}

/-- The identifier field of a header. -/
def sidField (sender : Sender) (ctx : StaPv1) (hdr : Ieee80211Hdr) : BitVec 16 :=
  sender.sid ||| flag (a3Present ctx hdr) pv1SidA3Present |||
    flag (a4Present ctx hdr) pv1SidA4Present

theorem hasMask_sid (beside : pv1SidAidMask &&& mask = 0) :
    hasMask sender.sid mask = false := by
  unfold Sender.sid
  split
  · rw [hasMask_and, beside, hasMask_zero]
  · rw [hasMask_and, beside, hasMask_zero]
  · simp [hasMask]

theorem hasMask_sidField_a3 :
    hasMask (sidField sender ctx hdr) pv1SidA3Present = a3Present ctx hdr := by
  rw [sidField, hasMask_or, hasMask_or, hasMask_sid (by decide), hasMask_flag]
  cases a3Present ctx hdr <;> cases a4Present ctx hdr <;> decide

theorem hasMask_sidField_a4 :
    hasMask (sidField sender ctx hdr) pv1SidA4Present = a4Present ctx hdr := by
  rw [sidField, hasMask_or, hasMask_or, hasMask_sid (by decide), hasMask_flag]
  cases a3Present ctx hdr <;> cases a4Present ctx hdr <;> decide

theorem sidField_and_mask : sidField sender ctx hdr &&& pv1SidAidMask = sender.sid := by
  have a3 : pv1SidA3Present &&& pv1SidAidMask = 0 := by decide
  have a4 : pv1SidA4Present &&& pv1SidAidMask = 0 := by decide
  have none : ∀ set, flag set (0 : BitVec 16) = 0#16 := by
    intro set
    cases set <;> rfl
  rw [sidField, BitVec.and_or_distrib_right, BitVec.and_or_distrib_right, flag_and, flag_and, a3,
    a4, none, none, BitVec.or_zero, BitVec.or_zero]
  unfold Sender.sid
  split
  · rw [BitVec.and_assoc, BitVec.and_self]
  · rw [BitVec.and_assoc, BitVec.and_self]
  · exact BitVec.zero_and

theorem preparePv0SidHeader_preparePv1SidHeader (fc pv0Fc : BitVec 16) (rest : List (BitVec 8)) :
    preparePv0SidHeader receiver (preparePv1SidHeader sender ctx hdr fc ++ rest) fc pv0Fc =
      let sta := pv1FindSta receiver (sidField sender ctx hdr)
      ({ frameControl := pv0Fc |||
          flag (a4Present ctx hdr || sta.elim false fun sta => sta.rxCtx.a4Stored)
            (fctlTods ||| fctlFromds)
         durationId := 0
         addr1 := if hasMask fc pv1FctlFromds then receiver.addr else hdr.addr1
         addr2 := if hasMask fc pv1FctlFromds then hdr.addr2 else sta.elim 0 Sta.addr
         addr3 :=
          if a3Present ctx hdr then hdr.addr3
          else sta.elim 0 fun sta => if sta.rxCtx.a3Stored then sta.rxCtx.storedA3 else 0
         seqCtrl := hdr.seqCtrl
         addr4 :=
          if a4Present ctx hdr then hdr.addr4
          else sta.elim 0 fun sta => if sta.rxCtx.a4Stored then sta.rxCtx.storedA4 else 0 },
        (preparePv1SidHeader sender ctx hdr fc).length) := by
  have a3 := @hasMask_sidField_a3 sender ctx hdr
  have a4 := @hasMask_sidField_a4 sender ctx hdr
  have field : sender.sid ||| flag (a3Present ctx hdr) pv1SidA3Present |||
      flag (a4Present ctx hdr) pv1SidA4Present = sidField sender ctx hdr := rfl
  unfold preparePv0SidHeader preparePv1SidHeader
  rw [field]
  cases way : hasMask fc pv1FctlFromds <;> cases third : a3Present ctx hdr <;>
    cases fourth : a4Present ctx hdr
  all_goals
    rw [third] at a3
    rw [fourth] at a4
    simp (disch := omega) [numberAt_zero, numberAt_behind, List.append_assoc, a3, a4]

theorem preparePv0MacHeader_preparePv1QosHeader (type : fc &&& pv1FctlFtype = pv1FrameTypeQosData)
    (pv0Fc : BitVec 16) (rest : List (BitVec 8)) :
    preparePv0MacHeader receiver (preparePv1QosHeader hdr fc ++ rest) fc pv0Fc =
      ({ frameControl := pv0Fc
         durationId := 0
         addr1 := hdr.addr1
         addr2 := hdr.addr2
         addr3 := hdr.addr1
         seqCtrl := hdr.seqCtrl
         addr4 := 0 }, (preparePv1QosHeader hdr fc).length) := by
  have apart : pv1FrameTypeQosData ≠ pv1FrameTypeQosDataSid := by decide
  unfold preparePv0MacHeader preparePv1QosHeader
  rw [type, if_neg apart]
  simp (disch := omega) [numberAt_zero, numberAt_behind, List.append_assoc]

theorem numberAt_preparePv1MacHeader (fc : BitVec 16) (rest : List (BitVec 8)) :
    numberAt 16 2 0 (preparePv1MacHeader sender ctx hdr fc ++ rest) = fc := by
  unfold preparePv1MacHeader preparePv1SidHeader preparePv1QosHeader
  split
  · rw [List.append_assoc, numberAt_zero (by omega)]
  · split
    · rw [List.append_assoc, numberAt_zero (by omega)]
    · rw [numberAt_zero (by omega)]

theorem length_prepareCcmpHeader (octets : List (BitVec 8)) :
    (prepareCcmpHeader octets).length = octets.length := by
  unfold prepareCcmpHeader
  split <;> rfl

theorem take_octets (hdr : Ieee80211Hdr) :
    hdr.octets.take 24 =
      leOctets 2 hdr.frameControl ++ (leOctets 2 hdr.durationId ++ (leOctets 6 hdr.addr1 ++
        (leOctets 6 hdr.addr2 ++ (leOctets 6 hdr.addr3 ++ leOctets 2 hdr.seqCtrl)))) := by
  have whole : ∀ {w : Nat} (count kept : Nat) (value : BitVec w), count ≤ kept →
      (leOctets count value).take kept = leOctets count value := by
    intro w count kept value enough
    exact List.take_of_length_le ((length_leOctets count value).trans_le enough)
  unfold Ieee80211Hdr.octets
  simp [List.take_append, whole]

theorem numberAt_take_octets (hdr : Ieee80211Hdr) (rest : List (BitVec 8)) :
    numberAt 16 2 0 (hdr.octets.take 24 ++ rest) = hdr.frameControl ∧
      numberAt 48 6 4 (hdr.octets.take 24 ++ rest) = hdr.addr1 ∧
      numberAt 48 6 10 (hdr.octets.take 24 ++ rest) = hdr.addr2 ∧
      numberAt 48 6 16 (hdr.octets.take 24 ++ rest) = hdr.addr3 ∧
      numberAt 16 2 22 (hdr.octets.take 24 ++ rest) = hdr.seqCtrl := by
  rw [take_octets]
  simp (disch := omega) [List.append_assoc, numberAt_zero, numberAt_behind]

theorem convertPv1ToPv0_of_prepared (first : numberAt 16 2 0 (header ++ rest) = fc)
    (made : preparePv0MacHeader receiver (header ++ rest) fc (preparePv0FrameCtrl fc) =
      (prepared, header.length))
    (oneWay : hasA4 (preparePv0FrameCtrl fc) = false)
    (long : 12 ≤ header.length)
    (room : 20 ≤ headroom)
    (decrypted : Bool)
    (stray : BitVec 8) :
    ∃ body, body.length = rest.length ∧
      convertPv1ToPv0 receiver (header ++ rest) headroom decrypted stray =
        .ok (prepared.octets.take 24 ++ (convertPv1ToPv0QosCtrl fc :: stray :: body)) := by
  unfold convertPv1ToPv0
  dsimp only
  rw [first, made]
  rw [if_neg (by simp only [List.length_append, qosCtlLen]; omega), List.drop_left, oneWay]
  refine ⟨_, ?_, rfl⟩
  split
  · exact length_prepareCcmpHeader rest
  · rfl

theorem recovers_iff {prepared : Ieee80211Hdr} {rest body : List (BitVec 8)} {control : BitVec 8}
    (same : body.length = rest.length)
    (carried : control = skb.qosCtl &&& (qosCtlTidMask ||| qosCtlEosp)) (stray : BitVec 8) :
    Recovers skb rest (prepared.octets.take 24 ++ (control :: stray :: body)) ↔
      hasA4 skb.hdr.frameControl = false ∧
        prepared.frameControl = skb.hdr.frameControl ∧ prepared.addr1 = skb.hdr.addr1 ∧
        prepared.addr2 = skb.hdr.addr2 ∧ prepared.addr3 = skb.hdr.addr3 ∧
        prepared.seqCtrl = skb.hdr.seqCtrl := by
  obtain ⟨fc, addr1, addr2, addr3, seqCtrl⟩ :=
    numberAt_take_octets prepared (control :: stray :: body)
  have front : (prepared.octets.take 24).length = 24 := by
    rw [take_octets]
    simp only [List.length_append, length_leOctets]
  have length : (prepared.octets.take 24 ++ (control :: stray :: body)).length =
      24 + qosCtlLen + rest.length := by
    rw [List.length_append, List.length_cons, List.length_cons, qosCtlLen]
    omega
  constructor
  · intro recovers
    have whole := recovers.length
    rw [recovers.frameControl] at whole
    refine ⟨?_, fc.symm.trans recovers.frameControl, addr1.symm.trans recovers.addr1,
      addr2.symm.trans recovers.addr2, addr3.symm.trans recovers.addr3,
      seqCtrl.symm.trans recovers.seqCtrl⟩
    by_contra four
    rw [hdrLen, if_pos (Bool.not_eq_false _ ▸ four)] at whole
    omega
  · rintro ⟨three, sameControl, sameAddr1, sameAddr2, sameAddr3, sameSeqCtrl⟩
    have short : hdrLen skb.hdr.frameControl = 24 := by
      rw [hdrLen, three]
      rfl
    refine
      { frameControl := fc.trans sameControl
        addr1 := addr1.trans sameAddr1
        addr2 := addr2.trans sameAddr2
        addr3 := addr3.trans sameAddr3
        seqCtrl := seqCtrl.trans sameSeqCtrl
        addr4 := fun four => absurd four (by rw [three]; decide)
        qosCtl := ?_
        length := ?_ }
    · rw [fc, sameControl, short, ← carried]
      rfl
    · rw [length, fc, sameControl, short]

end Reading

/-! ## Finding a station -/

section Finding

variable {aid : BitVec 8} {stations : List Sta}

theorem findStaByAid_append_singleton (sta : Sta) :
    findStaByAid aid (stations ++ [sta]) =
      if sta.onVif ∧ sta.aid = aid.setWidth 16 then some sta else findStaByAid aid stations := by
  rw [findStaByAid, List.foldl_append]
  rfl

theorem mem_of_findStaByAid (found : findStaByAid aid stations = some sta) :
    sta ∈ stations ∧ sta.onVif = true ∧ sta.aid = aid.setWidth 16 := by
  induction stations using List.reverseRecOn with
  | nil => cases found
  | append_singleton front last ih =>
    rw [findStaByAid_append_singleton] at found
    split at found
    · next matching =>
        cases found
        exact ⟨List.mem_append_right _ (List.mem_singleton_self _), matching⟩
    · obtain ⟨member, matching⟩ := ih found
      exact ⟨List.mem_append_left _ member, matching⟩

theorem exists_findStaByAid (member : entry ∈ stations) (onVif : entry.onVif = true)
    (same : entry.aid = aid.setWidth 16) :
    ∃ sta, findStaByAid aid stations = some sta := by
  induction stations using List.reverseRecOn with
  | nil => cases member
  | append_singleton front last ih =>
    rw [findStaByAid_append_singleton]
    split
    · exact ⟨last, rfl⟩
    · next different =>
        rcases List.mem_append.mp member with member | member
        · exact ih member
        · rw [List.mem_singleton] at member
          exact absurd ⟨member ▸ onVif, member ▸ same⟩ different

end Finding

/-! ## The two ends -/

section Ends

variable {aid : BitVec 16} {ctx : StaPv1} {flags : FrameFlags} {skb : TxSkb} {sender : Sender}
  {receiver : Receiver}

theorem Uplink.sid_eq (link : Uplink aid ctx flags skb sender receiver) : sender.sid = aid := by
  have below := link.aidBelow
  unfold Sender.sid
  rw [link.senderType, link.selfAid]
  apply BitVec.eq_of_toNat_eq
  have mask : pv1SidAidMask.toNat = 2 ^ 13 - 1 := rfl
  rw [BitVec.toNat_and, mask, Nat.and_two_pow_sub_one_eq_mod]
  omega

theorem Uplink.find_of_lt (link : Uplink aid ctx flags skb sender receiver)
    (small : aid.toNat < 256) :
    ∃ entry, pv1FindSta receiver (sidField sender ctx skb.hdr) = some entry ∧
      entry.addr = skb.hdr.addr2 ∧ Agrees ctx entry := by
  obtain ⟨entry, member, onVif, sameAid, addr, agrees⟩ := link.entry
  have kept : (aid.setWidth 8).setWidth 16 = aid := by
    apply BitVec.eq_of_toNat_eq
    rw [BitVec.toNat_setWidth, BitVec.toNat_setWidth]
    omega
  obtain ⟨sta, found⟩ := @exists_findStaByAid (aid.setWidth 8) _ _ member onVif
    (sameAid.trans kept.symm)
  obtain ⟨staMember, staOnVif, staAid⟩ := mem_of_findStaByAid found
  have same : sta = entry := link.distinct sta staMember entry member staOnVif onVif
    (.inl (staAid.trans (kept.trans sameAid.symm)))
  refine ⟨entry, ?_, addr, agrees⟩
  rw [pv1FindSta, link.receiverType, sidField_and_mask, link.sid_eq]
  exact same ▸ found

theorem Uplink.find_of_le (link : Uplink aid ctx flags skb sender receiver)
    (wide : 256 ≤ aid.toNat) :
    (pv1FindSta receiver (sidField sender ctx skb.hdr)).elim 0 Sta.addr ≠ skb.hdr.addr2 := by
  obtain ⟨entry, member, onVif, sameAid, addr, -⟩ := link.entry
  rw [pv1FindSta, link.receiverType, sidField_and_mask, link.sid_eq]
  cases found : findStaByAid (aid.setWidth 8) receiver.stations with
  | none => exact link.addr2.symm
  | some sta =>
    obtain ⟨staMember, staOnVif, staAid⟩ := mem_of_findStaByAid found
    intro sameAddr
    have same := link.distinct sta staMember entry member staOnVif onVif
      (.inr (sameAddr.trans addr.symm))
    have narrow := congrArg BitVec.toNat staAid
    rw [same, sameAid, BitVec.toNat_setWidth] at narrow
    omega

theorem Downlink.find (link : Downlink aid ctx flags skb sender receiver) :
    ∃ entry, pv1FindSta receiver (sidField sender ctx skb.hdr) = some entry ∧
      entry.addr = skb.hdr.addr2 ∧ Agrees ctx entry := by
  obtain ⟨entry, known, rest⟩ := link.entry
  refine ⟨entry, ?_, rest⟩
  rw [pv1FindSta, link.receiverType]
  exact known

end Ends

/-! ## The round trip -/

section Trip

variable {aid : BitVec 16} {ctx : StaPv1} {txRequest : HcRequest} {flags : FrameFlags}
  {skb : TxSkb} {sender : Sender} {receiver : Receiver} {rest : List (BitVec 8)}
  {headroom : Nat} {decrypted : Bool} {stray : BitVec 8} {prepared : Ieee80211Hdr}

/-- The header that a frame is sent with. -/
def sentHeader (sender : Sender) (ctx : StaPv1) (txRequest : HcRequest) (skb : TxSkb) :
    List (BitVec 8) :=
  preparePv1MacHeader sender ctx skb.hdr
    (preparePv1FrameCtrl ctx (a3A4Check txRequest skb.hdr) skb)

theorem roundTrip_eq (frame : QosData flags skb) (supported : sender.supported = true)
    (octets : List (BitVec 8)) :
    roundTrip sender ctx txRequest skb receiver rest headroom decrypted stray = .ok octets ↔
      (flags.isProtected = true → HasNumber ctx skb) ∧
        convertPv1ToPv0 receiver (sentHeader sender ctx txRequest skb ++ rest) headroom decrypted
          stray = .ok octets := by
  have flagged := (hasMask_frameControl flags).2.2.2.2
  rw [← frame.frameControl] at flagged
  unfold roundTrip
  cases isProtected : flags.isProtected with
  | false =>
    rw [convertPv0ToPv1_of_not_protected sender (flagged.trans isProtected)]
    exact (and_iff_right (by rintro ⟨⟩)).symm
  | true =>
    rw [convertPv0ToPv1_of_protected sender (flagged.trans isProtected), supported]
    have number : (retrieveTxBpn true ctx skb.seqNum skb.ptid).1 =
        if skb.seqNum < ctx.lastSeqNum skb.ptid then ctx.bpn skb.ptid + 1
        else ctx.bpn skb.ptid := rfl
    unfold HasNumber
    rw [number]
    generalize (if skb.seqNum < ctx.lastSeqNum skb.ptid then ctx.bpn skb.ptid + 1
        else ctx.bpn skb.ptid) = bpn
    cases bpn.msb with
    | false => exact (and_iff_right fun _ => rfl).symm
    | true =>
      constructor
      · rintro ⟨⟩
      · rintro ⟨positive, -⟩
        cases positive rfl

theorem roundTrip_recovers_iff (frame : QosData flags skb) (supported : sender.supported = true)
    (made : preparePv0MacHeader receiver (sentHeader sender ctx txRequest skb ++ rest)
      (preparePv1FrameCtrl ctx (a3A4Check txRequest skb.hdr) skb)
      flags.oneWay.frameControl = (prepared, (sentHeader sender ctx txRequest skb).length))
    (long : 12 ≤ (sentHeader sender ctx txRequest skb).length)
    (room : 20 ≤ headroom) :
    (∃ octets, roundTrip sender ctx txRequest skb receiver rest headroom decrypted stray =
        .ok octets ∧ Recovers skb rest octets) ↔
      (flags.isProtected = true → HasNumber ctx skb) ∧ (flags.toDs && flags.fromDs) = false ∧
        prepared.frameControl = skb.hdr.frameControl ∧ prepared.addr1 = skb.hdr.addr1 ∧
        prepared.addr2 = skb.hdr.addr2 ∧ prepared.addr3 = skb.hdr.addr3 ∧
        prepared.seqCtrl = skb.hdr.seqCtrl := by
  have back := preparePv0FrameCtrl_pv1Fc frame ctx (a3A4Check txRequest skb.hdr)
  have oneWay : hasA4 flags.oneWay.frameControl = false := by
    rw [hasA4_frameControl]
    exact Bool.not_and_self _
  rw [← back] at made oneWay
  obtain ⟨body, same, converted⟩ := convertPv1ToPv0_of_prepared
    (numberAt_preparePv1MacHeader _ rest) made oneWay long room decrypted stray
  have fields := @recovers_iff skb prepared rest body _ same
    (convertPv1ToPv0QosCtrl_pv1Fc ctx (a3A4Check txRequest skb.hdr) skb frame.tid) stray
  rw [frame.frameControl, hasA4_frameControl, ← frame.frameControl] at fields
  simp only [roundTrip_eq frame supported]
  constructor
  · rintro ⟨octets, ⟨number, ended⟩, recovers⟩
    cases converted.symm.trans ended
    exact ⟨number, fields.mp recovers⟩
  · rintro ⟨number, recovered⟩
    exact ⟨_, ⟨number, converted⟩, fields.mpr recovered⟩

theorem oneWay_eq (way : (flags.toDs || flags.fromDs) = true)
    (three : (flags.toDs && flags.fromDs) = false) :
    flags.oneWay = flags := by
  obtain ⟨toDs, fromDs, moreFrags, pm, moreData, isProtected⟩ := flags
  revert way three
  cases toDs <;> cases fromDs <;> simp [FrameFlags.oneWay]

theorem frameControl_or_flag_iff (three : (flags.toDs && flags.fromDs) = false) (fourth : Bool) :
    flags.frameControl ||| flag fourth (fctlTods ||| fctlFromds) = flags.frameControl ↔
      fourth = false := by
  obtain ⟨toDs, fromDs, moreFrags, pm, moreData, isProtected⟩ := flags
  revert toDs fromDs moreFrags pm moreData isProtected fourth
  decide +kernel

theorem a1A3Differ_a3A4Check (hdr : Ieee80211Hdr) :
    (a3A4Check txRequest hdr).a1A3Differ =
      (isMulticastEtherAddr hdr.addr3 || decide (hdr.addr1 ≠ hdr.addr3)) := by
  unfold a3A4Check
  cases multicast : isMulticastEtherAddr hdr.addr3 with
  | true => rfl
  | false =>
    simp only [Bool.false_eq_true, if_false, apply_ite HcRequest.a1A3Differ, ite_self]
    by_cases differ : hdr.addr1 = hdr.addr3 <;> simp [differ]

theorem addr1_eq_addr3 (noSid : usesSid ctx (a3A4Check txRequest skb.hdr) = false) :
    skb.hdr.addr1 = skb.hdr.addr3 := by
  unfold usesSid at noSid
  simp only [Bool.or_eq_false_iff, a1A3Differ_a3A4Check] at noSid
  have same := noSid.1.2.2
  simpa using same

theorem recovers_iff_of_noSid (frame : QosData flags skb) (supported : sender.supported = true)
    (way : (flags.toDs || flags.fromDs) = true)
    (noSid : usesSid ctx (a3A4Check txRequest skb.hdr) = false) (room : 20 ≤ headroom) :
    (∃ octets, roundTrip sender ctx txRequest skb receiver rest headroom decrypted stray =
        .ok octets ∧ Recovers skb rest octets) ↔
      (flags.isProtected = true → HasNumber ctx skb) ∧
        (flags.toDs && flags.fromDs) = false := by
  have type := pv1Fc_and_ftype ctx (a3A4Check txRequest skb.hdr) skb
  rw [noSid, if_neg Bool.false_ne_true] at type
  have apart : pv1FrameTypeQosData ≠ pv1FrameTypeQosDataSid := by decide
  have sent : sentHeader sender ctx txRequest skb = preparePv1QosHeader skb.hdr
      (preparePv1FrameCtrl ctx (a3A4Check txRequest skb.hdr) skb) := by
    rw [sentHeader, preparePv1MacHeader, type, if_neg apart, if_pos rfl]
  have long : 12 ≤ (sentHeader sender ctx txRequest skb).length := by
    rw [sent, preparePv1QosHeader]
    simp only [List.length_append, length_leOctets]
    omega
  have made := @preparePv0MacHeader_preparePv1QosHeader receiver skb.hdr _ type
    flags.oneWay.frameControl rest
  rw [← sent] at made
  rw [roundTrip_recovers_iff frame supported made long room, frame.frameControl]
  refine and_congr_right fun _ => and_iff_left_of_imp fun three => ?_
  exact ⟨congrArg FrameFlags.frameControl (oneWay_eq way three), rfl, rfl, addr1_eq_addr3 noSid,
    rfl⟩

theorem recovers_iff_of_sid (frame : QosData flags skb) (supported : sender.supported = true)
    (sid : usesSid ctx (a3A4Check txRequest skb.hdr) = true) (room : 20 ≤ headroom)
    (found : pv1FindSta receiver (sidField sender ctx skb.hdr) = sta) :
    (∃ octets, roundTrip sender ctx txRequest skb receiver rest headroom decrypted stray =
        .ok octets ∧ Recovers skb rest octets) ↔
      (flags.isProtected = true → HasNumber ctx skb) ∧ (flags.toDs && flags.fromDs) = false ∧
        flags.oneWay.frameControl |||
            flag (a4Present ctx skb.hdr || sta.elim false fun sta => sta.rxCtx.a4Stored)
              (fctlTods ||| fctlFromds) = flags.frameControl ∧
        (if flags.fromDs then receiver.addr else skb.hdr.addr1) = skb.hdr.addr1 ∧
        (if flags.fromDs then skb.hdr.addr2 else sta.elim 0 Sta.addr) = skb.hdr.addr2 ∧
        (if a3Present ctx skb.hdr then skb.hdr.addr3
          else sta.elim 0 fun sta => if sta.rxCtx.a3Stored then sta.rxCtx.storedA3 else 0) =
          skb.hdr.addr3 := by
  subst found
  have type := pv1Fc_and_ftype ctx (a3A4Check txRequest skb.hdr) skb
  rw [sid, if_pos rfl] at type
  have sent : sentHeader sender ctx txRequest skb = preparePv1SidHeader sender ctx skb.hdr
      (preparePv1FrameCtrl ctx (a3A4Check txRequest skb.hdr) skb) := by
    rw [sentHeader, preparePv1MacHeader, type, if_pos rfl]
  have long : 12 ≤ (sentHeader sender ctx txRequest skb).length := by
    rw [sent, length_preparePv1SidHeader]
    omega
  have made := @preparePv0SidHeader_preparePv1SidHeader receiver sender ctx skb.hdr
    (preparePv1FrameCtrl ctx (a3A4Check txRequest skb.hdr) skb) flags.oneWay.frameControl rest
  have opened : preparePv0MacHeader receiver (sentHeader sender ctx txRequest skb ++ rest)
      (preparePv1FrameCtrl ctx (a3A4Check txRequest skb.hdr) skb) flags.oneWay.frameControl =
      preparePv0SidHeader receiver (sentHeader sender ctx txRequest skb ++ rest)
        (preparePv1FrameCtrl ctx (a3A4Check txRequest skb.hdr) skb)
        flags.oneWay.frameControl := by
    rw [preparePv0MacHeader, type, if_pos rfl]
  rw [← sent] at made
  rw [roundTrip_recovers_iff frame supported (opened.trans made) long room, hasMask_pv1Fc_fromds,
    frame.frameControl, (hasMask_frameControl flags).1]
  simp only [and_true]

theorem recovers_iff_of_found (frame : QosData flags skb) (supported : sender.supported = true)
    (way : (flags.toDs || flags.fromDs) = true)
    (sid : usesSid ctx (a3A4Check txRequest skb.hdr) = true) (room : 20 ≤ headroom)
    (addr1 : skb.hdr.addr1 = receiver.addr)
    (found : pv1FindSta receiver (sidField sender ctx skb.hdr) = some entry)
    (addr2 : entry.addr = skb.hdr.addr2) (agrees : Agrees ctx entry) :
    (∃ octets, roundTrip sender ctx txRequest skb receiver rest headroom decrypted stray =
        .ok octets ∧ Recovers skb rest octets) ↔
      (flags.isProtected = true → HasNumber ctx skb) ∧ (flags.toDs && flags.fromDs) = false ∧
        ctx.a4Stored = false := by
  rw [recovers_iff_of_sid frame supported sid room found]
  refine and_congr_right fun _ => and_congr_right fun three => ?_
  have noFourth : a4Present ctx skb.hdr = false := by
    rw [a4Present, frame.frameControl, hasA4_frameControl, three]
    rfl
  have third : (if a3Present ctx skb.hdr then skb.hdr.addr3
      else if entry.rxCtx.a3Stored then entry.rxCtx.storedA3 else 0) = skb.hdr.addr3 := by
    rw [agrees.a3Stored, agrees.storedA3]
    unfold a3Present
    cases ctx.a3Stored with
    | false => rfl
    | true =>
      by_cases same : ctx.storedA3 = skb.hdr.addr3
      · simp [same]
      · simp [same]
  have first : (if flags.fromDs then receiver.addr else skb.hdr.addr1) = skb.hdr.addr1 := by
    rw [addr1, ite_self]
  have second : (if flags.fromDs then skb.hdr.addr2 else entry.addr) = skb.hdr.addr2 := by
    rw [addr2, ite_self]
  have same := oneWay_eq way three
  simp only [Option.elim_some, noFourth, Bool.false_or, agrees.a4Stored]
  rw [third, first, second, same, frameControl_or_flag_iff three]
  simp only [and_true]

theorem Uplink.recovers_iff (link : Uplink aid ctx flags skb sender receiver)
    (room : 20 ≤ headroom) :
    (∃ octets, roundTrip sender ctx txRequest skb receiver rest headroom decrypted stray =
        .ok octets ∧ Recovers skb rest octets) ↔
      ComesThrough aid ctx txRequest flags skb := by
  have way : (flags.toDs || flags.fromDs) = true := by
    rw [link.toDs]
    exact Bool.true_or _
  cases sid : usesSid ctx (a3A4Check txRequest skb.hdr) with
  | false =>
    rw [recovers_iff_of_noSid link.frame link.supported way sid room]
    constructor
    · rintro ⟨number, three⟩
      refine ⟨three, number, fun used => ?_⟩
      rw [sid] at used
      cases used
    · intro through
      exact ⟨through.number, through.threeAddresses⟩
  | true =>
    by_cases small : aid.toNat < 256
    · obtain ⟨entry, found, addr2, agrees⟩ := link.find_of_lt small
      rw [recovers_iff_of_found link.frame link.supported way sid room link.addr1 found addr2
        agrees]
      constructor
      · rintro ⟨number, three, unstored⟩
        exact ⟨three, number, fun _ => ⟨unstored, .inr small⟩⟩
      · intro through
        exact ⟨through.number, through.threeAddresses, (through.stored sid).1⟩
    · have other := link.find_of_le (Nat.le_of_not_lt small)
      rw [recovers_iff_of_sid link.frame link.supported sid room rfl]
      constructor
      · rintro ⟨-, three, -, -, addr2, -⟩
        rw [link.toDs, Bool.true_and] at three
        rw [three] at addr2
        exact absurd addr2 other
      · intro through
        have three := through.threeAddresses
        rw [link.toDs, Bool.true_and] at three
        rcases (through.stored sid).2 with fromDs | below
        · rw [three] at fromDs
          cases fromDs
        · exact absurd below small

theorem Downlink.recovers_iff (link : Downlink aid ctx flags skb sender receiver)
    (room : 20 ≤ headroom) :
    (∃ octets, roundTrip sender ctx txRequest skb receiver rest headroom decrypted stray =
        .ok octets ∧ Recovers skb rest octets) ↔
      ComesThrough aid ctx txRequest flags skb := by
  have way : (flags.toDs || flags.fromDs) = true := by
    rw [link.fromDs]
    exact Bool.or_true _
  cases sid : usesSid ctx (a3A4Check txRequest skb.hdr) with
  | false =>
    rw [recovers_iff_of_noSid link.frame link.supported way sid room]
    constructor
    · rintro ⟨number, three⟩
      refine ⟨three, number, fun used => ?_⟩
      rw [sid] at used
      cases used
    · intro through
      exact ⟨through.number, through.threeAddresses⟩
  | true =>
    obtain ⟨entry, found, addr2, agrees⟩ := link.find
    rw [recovers_iff_of_found link.frame link.supported way sid room link.addr1 found addr2
      agrees]
    constructor
    · rintro ⟨number, three, unstored⟩
      exact ⟨three, number, fun _ => ⟨unstored, .inl link.fromDs⟩⟩
    · intro through
      exact ⟨through.number, through.threeAddresses, (through.stored sid).1⟩

end Trip

/-- For every frame between a station and its access point, in either direction, whose
receiver has room for a long header and stored what the sender takes it to have
stored, the header comes through exactly under the condition. -/
theorem roundTrip_recovers_iff_comesThrough
    {aid : BitVec 16} {ctx : StaPv1} {flags : FrameFlags} {skb : TxSkb} {sender : Sender}
    {receiver : Receiver} {headroom : Nat}
    (link : Uplink aid ctx flags skb sender receiver ∨
      Downlink aid ctx flags skb sender receiver)
    (room : 20 ≤ headroom)
    (txRequest : HcRequest)
    (rest : List (BitVec 8))
    (decrypted : Bool)
    (stray : BitVec 8) :
    (∃ octets, roundTrip sender ctx txRequest skb receiver rest headroom decrypted stray =
        .ok octets ∧ Recovers skb rest octets) ↔
      ComesThrough aid ctx txRequest flags skb := by
  rcases link with up | down
  · exact up.recovers_iff room
  · exact down.recovers_iff room

/-- A frame that a station sends, with a third address of its own. -/
def sampleFrame : TxSkb where
  hdr :=
    { frameControl := 0x0188
      durationId := 0
      addr1 := 2
      addr2 := 4
      addr3 := 6
      seqCtrl := 0x10
      addr4 := 0 }
  qosCtl := 5
  priority := 5
  body := [1, 2, 3]
  headroom := 0

/-- The access point of a station with an identifier. -/
def sampleReceiver (aid : BitVec 16) : Receiver where
  type := .ap
  addr := 2
  stations := [⟨true, aid, 4, StaPv1.zeroed⟩]
  bssidSta := none

theorem uplink_sampleFrame (positive : 1 ≤ aid.toNat) (below : aid.toNat ≤ 2007) :
    Uplink aid StaPv1.zeroed ⟨true, false, false, false, false, false⟩ sampleFrame
      ⟨.station, aid, 0, true⟩ (sampleReceiver aid) where
  frame := ⟨by decide, by decide⟩
  supported := rfl
  senderType := rfl
  receiverType := rfl
  toDs := rfl
  aidPositive := positive
  aidBelow := below
  selfAid := rfl
  addr1 := rfl
  entry := ⟨_, List.mem_singleton_self _, rfl, rfl, rfl, ⟨rfl, rfl, rfl, rfl⟩⟩
  distinct := by
    intro first firstMember second secondMember _ _ _
    rw [List.mem_singleton.mp firstMember, List.mem_singleton.mp secondMember]
  addr2 := by decide

theorem comesThrough_sampleFrame :
    Uplink 5 StaPv1.zeroed ⟨true, false, false, false, false, false⟩ sampleFrame
        ⟨.station, 5, 0, true⟩ (sampleReceiver 5) ∧
      ∃ octets, roundTrip ⟨.station, 5, 0, true⟩ StaPv1.zeroed HcRequest.zeroed sampleFrame
        (sampleReceiver 5) sampleFrame.body 32 false 0 = .ok octets ∧
          Recovers sampleFrame sampleFrame.body octets := by
  have link := @uplink_sampleFrame 5 (by decide) (by decide)
  refine ⟨link, ?_⟩
  rw [roundTrip_recovers_iff_comesThrough (.inl link) (by decide)]
  exact ⟨rfl, by rintro ⟨⟩, fun _ => ⟨rfl, .inr (by decide)⟩⟩

/-- A station with an identifier above eight bits sends a frame whose addresses do not
come through. -/
theorem not_recovers_wideAid :
    ¬ ∀ (aid : BitVec 16) (ctx : StaPv1) (flags : FrameFlags) (skb : TxSkb) (sender : Sender)
      (receiver : Receiver), Uplink aid ctx flags skb sender receiver →
        ∃ octets, roundTrip sender ctx HcRequest.zeroed skb receiver skb.body 32 false 0 =
          .ok octets ∧ Recovers skb skb.body octets := by
  intro claim
  have link := @uplink_sampleFrame 300 (by decide) (by decide)
  have through := link.recovers_iff (by decide) |>.mp (claim _ _ _ _ _ _ link)
  have narrow := through.stored (by decide)
  exact absurd narrow.2 (by decide)

end Pv1
end Morse
