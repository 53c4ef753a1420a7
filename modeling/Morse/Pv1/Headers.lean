import Morse.Pv1.Defs

/-!
# The fields of a short header

What the frame control and the length of a header built for a frame say about the
frame.
-/

namespace Morse
namespace Pv1

open Lib

variable (ctx : StaPv1) (txRequest : HcRequest) (skb : TxSkb)

theorem hasMask_preparePv1FrameCtrl (mask : BitVec 16) :
    hasMask (preparePv1FrameCtrl ctx txRequest skb) mask =
      (hasMask (pv1ProtocolVersion &&& pv1FctlVers) mask ||
        hasMask ((skb.qosCtl &&& qosCtlTidMask).setWidth 16 <<< pv1StypeOffset)
          (pv1FctlStype &&& mask) ||
        hasMask (pv1FctlFtype &&&
          (if usesSid ctx txRequest then pv1FrameTypeQosDataSid else pv1FrameTypeQosData)) mask ||
        (hasMask skb.hdr.frameControl fctlFromds && hasMask pv1FctlFromds mask) ||
        (hasMask skb.hdr.frameControl fctlMorefrags && hasMask pv1FctlMorefrags mask) ||
        (hasMask skb.hdr.frameControl fctlPm && hasMask pv1FctlPm mask) ||
        (hasMask skb.hdr.frameControl fctlMoredata && hasMask pv1FctlMoredata mask) ||
        (hasMask skb.hdr.frameControl fctlProtected && hasMask pv1FctlProtected mask) ||
        (hasMask skb.qosCtl qosCtlEosp && hasMask pv1FctlEndSp mask)) := by
  simp only [preparePv1FrameCtrl, hasMask_or, hasMask_flag, hasMask_and]

variable {mask : BitVec 16}

theorem hasMask_pv1Fc (version : hasMask (pv1ProtocolVersion &&& pv1FctlVers) mask = false)
    (stype : pv1FctlStype &&& mask = 0) (ftype : pv1FctlFtype &&& mask = 0) :
    hasMask (preparePv1FrameCtrl ctx txRequest skb) mask =
      ((hasMask skb.hdr.frameControl fctlFromds && hasMask pv1FctlFromds mask) ||
        (hasMask skb.hdr.frameControl fctlMorefrags && hasMask pv1FctlMorefrags mask) ||
        (hasMask skb.hdr.frameControl fctlPm && hasMask pv1FctlPm mask) ||
        (hasMask skb.hdr.frameControl fctlMoredata && hasMask pv1FctlMoredata mask) ||
        (hasMask skb.hdr.frameControl fctlProtected && hasMask pv1FctlProtected mask) ||
        (hasMask skb.qosCtl qosCtlEosp && hasMask pv1FctlEndSp mask)) := by
  have type : hasMask (pv1FctlFtype &&&
      (if usesSid ctx txRequest then pv1FrameTypeQosDataSid else pv1FrameTypeQosData)) mask =
        false := by
    rw [BitVec.and_comm, hasMask_and, ftype, hasMask_zero]
  rw [hasMask_preparePv1FrameCtrl, version, stype, hasMask_zero, type]
  rfl

@[simp] theorem hasMask_pv1Fc_fromds :
    hasMask (preparePv1FrameCtrl ctx txRequest skb) pv1FctlFromds =
      hasMask skb.hdr.frameControl fctlFromds := by
  rw [hasMask_pv1Fc ctx txRequest skb (by decide) (by decide) (by decide)]
  simp [hasMask, pv1FctlFromds, pv1FctlMorefrags, pv1FctlPm, pv1FctlMoredata, pv1FctlProtected,
    pv1FctlEndSp]

@[simp] theorem hasMask_pv1Fc_morefrags :
    hasMask (preparePv1FrameCtrl ctx txRequest skb) pv1FctlMorefrags =
      hasMask skb.hdr.frameControl fctlMorefrags := by
  rw [hasMask_pv1Fc ctx txRequest skb (by decide) (by decide) (by decide)]
  simp [hasMask, pv1FctlFromds, pv1FctlMorefrags, pv1FctlPm, pv1FctlMoredata, pv1FctlProtected,
    pv1FctlEndSp]

@[simp] theorem hasMask_pv1Fc_pm :
    hasMask (preparePv1FrameCtrl ctx txRequest skb) pv1FctlPm =
      hasMask skb.hdr.frameControl fctlPm := by
  rw [hasMask_pv1Fc ctx txRequest skb (by decide) (by decide) (by decide)]
  simp [hasMask, pv1FctlFromds, pv1FctlMorefrags, pv1FctlPm, pv1FctlMoredata, pv1FctlProtected,
    pv1FctlEndSp]

@[simp] theorem hasMask_pv1Fc_moredata :
    hasMask (preparePv1FrameCtrl ctx txRequest skb) pv1FctlMoredata =
      hasMask skb.hdr.frameControl fctlMoredata := by
  rw [hasMask_pv1Fc ctx txRequest skb (by decide) (by decide) (by decide)]
  simp [hasMask, pv1FctlFromds, pv1FctlMorefrags, pv1FctlPm, pv1FctlMoredata, pv1FctlProtected,
    pv1FctlEndSp]

@[simp] theorem hasMask_pv1Fc_protected :
    hasMask (preparePv1FrameCtrl ctx txRequest skb) pv1FctlProtected =
      hasMask skb.hdr.frameControl fctlProtected := by
  rw [hasMask_pv1Fc ctx txRequest skb (by decide) (by decide) (by decide)]
  simp [hasMask, pv1FctlFromds, pv1FctlMorefrags, pv1FctlPm, pv1FctlMoredata, pv1FctlProtected,
    pv1FctlEndSp]

@[simp] theorem hasMask_pv1Fc_endSp :
    hasMask (preparePv1FrameCtrl ctx txRequest skb) pv1FctlEndSp =
      hasMask skb.qosCtl qosCtlEosp := by
  rw [hasMask_pv1Fc ctx txRequest skb (by decide) (by decide) (by decide)]
  simp [hasMask, pv1FctlFromds, pv1FctlMorefrags, pv1FctlPm, pv1FctlMoredata, pv1FctlProtected,
    pv1FctlEndSp]

@[simp] theorem hasMask_pv1Fc_ackPolicy :
    hasMask (preparePv1FrameCtrl ctx txRequest skb) pv1FctlAckPolicy =
      false := by
  rw [hasMask_pv1Fc ctx txRequest skb (by decide) (by decide) (by decide)]
  simp [hasMask, pv1FctlFromds, pv1FctlMorefrags, pv1FctlPm, pv1FctlMoredata, pv1FctlProtected,
    pv1FctlEndSp, pv1FctlAckPolicy]

theorem pv1Fc_and
    (clear : (pv1FctlFromds ||| pv1FctlMorefrags ||| pv1FctlPm ||| pv1FctlMoredata |||
      pv1FctlProtected ||| pv1FctlEndSp ||| pv1ProtocolVersion) &&& mask = 0) :
    preparePv1FrameCtrl ctx txRequest skb &&& mask =
      ((skb.qosCtl &&& qosCtlTidMask).setWidth 16 <<< pv1StypeOffset) &&&
          (pv1FctlStype &&& mask) |||
        pv1FctlFtype &&&
          (if usesSid ctx txRequest then pv1FrameTypeQosDataSid else pv1FrameTypeQosData) &&&
          mask := by
  simp only [or_and_eq_zero_iff] at clear
  obtain ⟨⟨⟨⟨⟨⟨fromds, morefrags⟩, pm⟩, moredata⟩, isProtected⟩, endSp⟩, version⟩ := clear
  have versioned : pv1ProtocolVersion &&& pv1FctlVers = pv1ProtocolVersion := by decide
  have none : ∀ set, flag set (0 : BitVec 16) = 0#16 := by
    intro set
    cases set <;> rfl
  have version : pv1ProtocolVersion &&& mask = 0#16 := version
  simp only [preparePv1FrameCtrl, versioned, BitVec.and_or_distrib_right, flag_and, fromds,
    morefrags, pm, moredata, isProtected, endSp, version, none, BitVec.or_zero, BitVec.zero_or,
    BitVec.and_assoc]

theorem pv1Fc_and_ftype :
    preparePv1FrameCtrl ctx txRequest skb &&& pv1FctlFtype =
      if usesSid ctx txRequest then pv1FrameTypeQosDataSid else pv1FrameTypeQosData := by
  have apart : pv1FctlStype &&& pv1FctlFtype = 0 := by decide
  rw [pv1Fc_and ctx txRequest skb (by decide), apart]
  cases usesSid ctx txRequest <;> simp <;> decide

theorem pv1Fc_and_stype :
    preparePv1FrameCtrl ctx txRequest skb &&& pv1FctlStype =
      ((skb.qosCtl &&& qosCtlTidMask).setWidth 16 <<< pv1StypeOffset) &&& pv1FctlStype := by
  rw [pv1Fc_and ctx txRequest skb (by decide)]
  split
  · exact BitVec.or_zero
  · exact BitVec.or_zero

theorem convertPv1ToPv0QosCtrl_pv1Fc (small : skb.qosCtl &&& qosCtlTidMask < 8) :
    convertPv1ToPv0QosCtrl (preparePv1FrameCtrl ctx txRequest skb) =
      skb.qosCtl &&& (qosCtlTidMask ||| qosCtlEosp) := by
  unfold convertPv1ToPv0QosCtrl
  rw [pv1Fc_and_stype, hasMask_pv1Fc_endSp, hasMask_pv1Fc_ackPolicy]
  generalize skb.qosCtl = control at small
  revert control
  decide +kernel
/-! ## Lengths -/

theorem length_preparePv1SidHeader (sender : Sender) (hdr : Ieee80211Hdr) (fc : BitVec 16) :
    (preparePv1SidHeader sender ctx hdr fc).length =
      12 + (if a3Present ctx hdr then 6 else 0) + (if a4Present ctx hdr then 6 else 0) := by
  unfold preparePv1SidHeader
  dsimp only
  have choice : ∀ present : Bool, ∀ addr : Addr,
      (if present then leOctets 6 addr else []).length = if present then 6 else 0 := by
    intro present addr
    cases present
    · rfl
    · exact length_leOctets 6 addr
  split
  all_goals
    simp only [List.length_append, length_leOctets, choice]
    omega

theorem length_preparePv1MacHeader_add_bpnLen_le (sender : Sender) (hdr : Ieee80211Hdr)
    (fc : BitVec 16) :
    (preparePv1MacHeader sender ctx hdr fc).length + bpnLen ≤
      hdrLen hdr.frameControl + qosCtlLen := by
  have atLeast : 24 ≤ hdrLen hdr.frameControl := by
    unfold hdrLen
    split <;> omega
  unfold preparePv1MacHeader bpnLen qosCtlLen
  split
  · rw [length_preparePv1SidHeader]
    unfold hdrLen a4Present
    cases hasA4 hdr.frameControl
    · simp only [Bool.false_and, Bool.false_eq_true, if_false]
      split <;> omega
    · simp only [Bool.true_and, if_true]
      split <;> split <;> omega
  · split
    · simp only [preparePv1QosHeader, List.length_append, length_leOctets]
      omega
    · rw [length_leOctets]
      omega

theorem convertPv0ToPv1_of_protected {ctx : StaPv1} {txRequest : HcRequest} {skb : TxSkb}
    (sender : Sender) (isProtected : hasMask skb.hdr.frameControl fctlProtected = true) :
    convertPv0ToPv1 sender ctx txRequest skb =
      ((retrieveTxBpn sender.supported ctx skb.seqNum skb.ptid).2,
        if (retrieveTxBpn sender.supported ctx skb.seqNum skb.ptid).1.msb then .error .einval
        else .ok ⟨preparePv1MacHeader sender ctx skb.hdr
            (preparePv1FrameCtrl ctx txRequest skb),
          some (retrieveTxBpn sender.supported ctx skb.seqNum skb.ptid).1, skb.body⟩) := by
  have room := length_preparePv1MacHeader_add_bpnLen_le ctx sender skb.hdr
    (preparePv1FrameCtrl ctx txRequest skb)
  unfold convertPv0ToPv1
  simp only [isProtected, if_true]
  split
  · rfl
  · rw [if_neg (by omega)]

theorem convertPv0ToPv1_of_not_protected {ctx : StaPv1} {txRequest : HcRequest} {skb : TxSkb}
    (sender : Sender) (isProtected : hasMask skb.hdr.frameControl fctlProtected = false) :
    convertPv0ToPv1 sender ctx txRequest skb =
      (ctx, .ok ⟨preparePv1MacHeader sender ctx skb.hdr
        (preparePv1FrameCtrl ctx txRequest skb), none, skb.body⟩) := by
  have room := length_preparePv1MacHeader_add_bpnLen_le ctx sender skb.hdr
    (preparePv1FrameCtrl ctx txRequest skb)
  unfold convertPv0ToPv1
  simp only [isProtected, Bool.false_eq_true, if_false]
  rw [if_neg (by omega)]

end Pv1
end Morse
