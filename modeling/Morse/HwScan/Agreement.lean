import Morse.HwScan.Dump

/-!
# When the reader finds what was encoded

The reader steps by the size of a pointer where it should step by the size of a header, so that it
is right on hosts of 32 bits only; the length in the header of the command must not wrap, and the
powers that are pointed to must be there.
-/

namespace Morse
namespace HwScan

open Lib

/-! ## Reading what was laid out -/

theorem octetsNat_leOctets (count : Nat) (value : BitVec w) (wide : w ≤ 8 * count) :
    octetsNat (leOctets count value) = value.toNat := by
  have holds : value.toNat < 256 ^ count := by
    calc value.toNat < 2 ^ w := value.isLt
      _ ≤ 2 ^ (8 * count) := Nat.pow_le_pow_right Nat.two_pos wide
      _ = 256 ^ count := by rw [Nat.pow_mul]
  rw [leOctets, octetsNat_natOctets, Nat.mod_eq_of_lt holds]

theorem le16_of_segment {memory : Nat → Octet} {value : BitVec 16}
    (stands : segment memory position 2 = leOctets 2 value) :
    le16 memory position = value.toNat := by
  rw [le16, stands]
  exact octetsNat_leOctets 2 value (by decide)

theorem le32_of_segment {memory : Nat → Octet}
    (stands : segment memory position 4 = leOctets 4 value) :
    le32 memory position = value := by
  rw [le32, stands, octetsNat_leOctets 4 value (by decide)]
  exact BitVec.ofNat_toNat 32 value |>.trans (BitVec.setWidth_eq value)

theorem le16_lt (memory : Nat → Octet) (position : Nat) : le16 memory position < 65536 := by
  have small := octetsNat_lt (segment memory position 2)
  rw [length_segment] at small
  exact small

/-- What stands behind the header of a parameter, with the tag and the length that it says. -/
structure StandsAt (memory : Nat → Octet) (place : Nat) (tlv : Tlv) : Prop where
  tag : le16 memory place = tlv.tag.toNat
  len : le16 memory (place + 2) = tlv.payload.length % 65536
  payload : segment memory (place + 4) tlv.payload.length = tlv.payload

theorem standsAt_of_segment (stands : segment memory place tlv.octets.length = tlv.octets) :
    StandsAt memory place tlv := by
  obtain ⟨header, payload⟩ := segment_of_append stands
  obtain ⟨tag, len⟩ := segment_of_append header
  rw [length_leOctets] at tag len
  refine ⟨le16_of_segment tag, ?_, payload⟩
  rw [le16_of_segment len]
  exact BitVec.toNat_ofNat _ _

/-! ## The command in memory -/

section Command

variable {region : Region} {params : HwScanParams} {store : Bool}
  {schedReq : Option SchedScanRequest} {behind : Nat → Octet}

theorem StartsScan.operation (starts : StartsScan params store) :
    params.operation = .start ∨ params.operation = .schedStart :=
  starts.imp And.left id

theorem length_cmdHeader (len : BitVec 16) : (cmdHeader len).length = 12 := by
  unfold cmdHeader
  split
  · exact List.length_replicate
  · simp only [List.length_append, length_leOctets]

/-- The length of a command in its header, in 16 bits. -/
def commandLen (params : HwScanParams) (schedReq : Option SchedScanRequest) : BitVec 16 :=
  BitVec.ofNat 16 (getCommandSize params schedReq)

theorem hwScanCommand_eq (starts : StartsScan params store) :
    hwScanCommand region params store schedReq =
      cmdHeader (commandLen params schedReq) ++ leOctets 4 (commandFlags params store) ++
        leOctets 4 params.dwellTimeMs ++
        (emitted region params schedReq).flatMap Tlv.octets := by
  unfold hwScanCommand commandLen
  dsimp only
  rw [if_pos starts.operation, if_pos starts.operation,
    length_insertTlvs region starts.operation, insertTlvs_eq, List.nil_append]

theorem length_emitted (starts : StartsScan params store) :
    reqHwScanSize + ((emitted region params schedReq).flatMap Tlv.octets).length =
      getCommandSize params schedReq := by
  rw [← length_insertTlvs region starts.operation, insertTlvs_eq, List.nil_append]

theorem commandMemory_parts (starts : StartsScan params store) :
    segment (commandMemory region params store schedReq behind) 0 12 =
        cmdHeader (commandLen params schedReq) ∧
      le32 (commandMemory region params store schedReq behind) 12 = commandFlags params store ∧
      segment (commandMemory region params store schedReq behind) reqHwScanSize
          ((emitted region params schedReq).flatMap Tlv.octets).length =
        (emitted region params schedReq).flatMap Tlv.octets := by
  have whole := segment_overwrite_self behind 0 (hwScanCommand region params store schedReq)
  rw [← commandMemory, hwScanCommand_eq starts] at whole
  obtain ⟨front, tlvs⟩ := segment_of_append whole
  obtain ⟨front, dwell⟩ := segment_of_append front
  obtain ⟨header, flags⟩ := segment_of_append front
  simp only [List.length_append, length_cmdHeader, length_leOctets,
    Nat.zero_add] at header flags tlvs
  exact ⟨header, le32_of_segment flags, tlvs⟩

theorem commandEnd_eq (starts : StartsScan params store) :
    commandEnd (commandMemory region params store schedReq behind) =
      if getCommandSize params schedReq % 65536 < 12 then 12
      else getCommandSize params schedReq % 65536 := by
  have header := (@commandMemory_parts region params store schedReq behind starts).1
  have small : commandLen params schedReq < 12 ↔ getCommandSize params schedReq % 65536 < 12 := by
    exact Iff.rfl
  unfold cmdHeader at header
  by_cases short : getCommandSize params schedReq % 65536 < 12
  · rw [if_pos (small.mpr short)] at header
    rw [if_pos short]
    have blank : segment (commandMemory region params store schedReq behind) 4 2 =
        leOctets 2 (0 : BitVec 16) := by
      have inside := @segment_inside _ (commandMemory region params store schedReq behind) 0 12 4 2
        (by decide)
      rw [header] at inside
      exact inside
    rw [commandEnd, le16_of_segment blank]
    rfl
  · rw [if_neg (fun less => short (small.mp less))] at header
    rw [if_neg short]
    have stands : segment (commandMemory region params store schedReq behind) 4 2 =
        leOctets 2 (commandLen params schedReq - 12) := by
      have inside := @segment_inside _ (commandMemory region params store schedReq behind) 0 12 4 2
        (by decide)
      rw [header] at inside
      exact inside
    have twelve : (12 : BitVec 16) ≤ commandLen params schedReq := by
      exact Nat.not_lt.mp short
    rw [commandEnd, le16_of_segment stands, BitVec.toNat_sub_of_le twelve, commandLen]
    exact Nat.sub_add_cancel (Nat.not_lt.mp short)

theorem standsAt_of_mem_placed (starts : StartsScan params store) {place : Nat} {tlv : Tlv}
    (member : (place, tlv) ∈ placed Tlv.octets reqHwScanSize (emitted region params schedReq)) :
    StandsAt (commandMemory region params store schedReq behind) place tlv := by
  apply standsAt_of_segment
  exact segment_of_mem_placed (commandMemory_parts starts).2.2 member

/-! ## The headers on a host of 32 bits -/

/-- The headers of the parameters. -/
def headersOf
    (region : Region)
    (params : HwScanParams)
    (schedReq : Option SchedScanRequest) :
    List Visit :=
  (placed Tlv.octets reqHwScanSize (emitted region params schedReq)).map fun piece =>
    ⟨piece.1, piece.2.tag.toNat, piece.2.payload.length⟩

theorem octets_pos (tlv : Tlv) : 0 < tlv.octets.length := by
  rw [Tlv.length_octets]
  exact Nat.add_pos_left (by decide) _

theorem inside_command (starts : StartsScan params store)
    (member : (place, tlv) ∈ placed Tlv.octets reqHwScanSize (emitted region params schedReq)) :
    tlv ∈ emitted region params schedReq ∧ reqHwScanSize ≤ place ∧
      place + 4 + tlv.payload.length ≤ getCommandSize params schedReq := by
  obtain ⟨among, above, below⟩ := inside_of_mem_placed member
  rw [length_emitted starts, Tlv.length_octets] at below
  exact ⟨among, above, by omega⟩

theorem le_getCommandSize (starts : StartsScan params store) :
    reqHwScanSize ≤ getCommandSize params schedReq := by
  rw [← @length_emitted .us params store schedReq starts]
  exact Nat.le_add_right _ _

theorem commandEnd_of_lt (starts : StartsScan params store)
    (short : getCommandSize params schedReq < 65536) :
    commandEnd (commandMemory region params store schedReq behind) =
      getCommandSize params schedReq := by
  have least : 20 ≤ getCommandSize params schedReq := le_getCommandSize starts
  rw [commandEnd_eq starts, Nat.mod_eq_of_lt short, if_neg (by omega)]

theorem visited_eq (starts : StartsScan params store) {host : Host} (pointer : host.pointerSize = 4)
    (short : getCommandSize params schedReq < 65536) :
    visited host (commandMemory region params store schedReq behind) =
      headersOf region params schedReq := by
  have whole := @length_emitted region params store schedReq starts
  have reads (piece : Nat × Tlv)
      (member : piece ∈ placed Tlv.octets reqHwScanSize (emitted region params schedReq)) :
      StandsAt (commandMemory region params store schedReq behind) piece.1 piece.2 :=
    standsAt_of_mem_placed starts member
  have places := @visits_eq_placed _ _ Tlv.octets octets_pos
    (nextTlv host (commandMemory region params store schedReq behind))
    (emitted region params schedReq) reqHwScanSize (getCommandSize params schedReq) (by
      intro piece member
      have fits := (inside_command starts member).2.2
      rw [nextTlv, (reads piece member).len, Tlv.length_octets]
      omega) (by rw [← whole]; exact Nat.lt_add_of_pos_left (by decide))
  rw [whole] at places
  rw [visited, commandEnd_of_lt starts short, places, List.map_map]
  apply List.map_congr_left
  intro piece member
  have fits := (inside_command starts member).2.2
  dsimp only [Function.comp]
  rw [(reads piece member).tag, (reads piece member).len, Nat.mod_eq_of_lt (by omega)]

theorem nodup_tags (region : Region) (params : HwScanParams) (schedReq : Option SchedScanRequest) :
    ((emitted region params schedReq).map fun tlv => tlv.tag.toNat).Nodup := by
  unfold emitted schedTlvs
  by_cases dwells : params.dwellOnHomeMs = 0#32 <;> cases params.probeReq <;> cases schedReq with
  | none => simp [dwells, tagChanList, tagPowerList, tagDwellOnHome, tagProbeReq]
  | some schedReq =>
    obtain ⟨delay, minRssiThold, matchSets, scanPlans⟩ := schedReq
    cases matchSets <;> cases scanPlans <;>
      simp [dwells, tagChanList, tagPowerList, tagDwellOnHome, tagProbeReq, tagSchedParams,
        tagFilter, tagSched]

theorem map_snd_placed (octets : Record → List Octet) (start : Nat) (records : List Record) :
    (placed octets start records).map Prod.snd = records := by
  induction records generalizing start with
  | nil => rfl
  | cons first records ih => rw [placed, List.map_cons, ih]

theorem map_tag_headersOf :
    (headersOf region params schedReq).map Visit.tag =
      (emitted region params schedReq).map fun tlv => tlv.tag.toNat := by
  have records := map_snd_placed Tlv.octets reqHwScanSize (emitted region params schedReq)
  conv => rhs; rw [← records]
  rw [headersOf, List.map_map, List.map_map]
  rfl

theorem map_offset_headersOf :
    (headersOf region params schedReq).map Visit.offset =
      (placed Tlv.octets reqHwScanSize (emitted region params schedReq)).map Prod.fst := by
  rw [headersOf, List.map_map]
  rfl

theorem lastWith_of_mem (nodup : (headers.map Visit.tag).Nodup) (member : header ∈ headers)
    (tagged : header.tag = tag.toNat) :
    lastWith tag headers = some header := by
  have present : (lastWith tag headers).isSome := by
    rw [lastWith, List.find?_isSome]
    exact ⟨header, List.mem_reverse.mpr member, decide_eq_true tagged⟩
  obtain ⟨found, is⟩ := Option.isSome_iff_exists.mp present
  rw [is]
  have decided := List.find?_some is
  have sameTag : found.tag = tag.toNat := of_decide_eq_true decided
  have inside := List.mem_reverse.mp (List.mem_of_find?_eq_some is)
  rw [List.inj_on_of_nodup_map nodup inside member (sameTag.trans tagged.symm)]

theorem lastWith_headersOf (among : tlv ∈ emitted region params schedReq) :
    ∃ place, (place, tlv) ∈ placed Tlv.octets reqHwScanSize (emitted region params schedReq) ∧
      lastWith tlv.tag (headersOf region params schedReq) =
        some ⟨place, tlv.tag.toNat, tlv.payload.length⟩ := by
  obtain ⟨place, member⟩ := @exists_mem_placed _ _ Tlv.octets _ _ among reqHwScanSize
  have nodup : ((headersOf region params schedReq).map Visit.tag).Nodup := by
    rw [map_tag_headersOf]
    exact nodup_tags region params schedReq
  have header : ⟨place, tlv.tag.toNat, tlv.payload.length⟩ ∈ headersOf region params schedReq :=
    List.mem_map.mpr ⟨_, member, rfl⟩
  exact ⟨place, member, lastWith_of_mem nodup header rfl⟩

theorem lastWith_eq_none (absent : ∀ tlv ∈ emitted region params schedReq, tlv.tag ≠ tag) :
    lastWith tag (headersOf region params schedReq) = none := by
  apply List.find?_eq_none.mpr
  intro header inside
  obtain ⟨⟨place, tlv⟩, member, rfl⟩ := List.mem_map.mp (List.mem_reverse.mp inside)
  have differs := absent tlv (inside_of_mem_placed member).1
  rw [decide_eq_true_iff]
  exact fun same => differs (BitVec.eq_of_toNat_eq same)

end Command

end HwScan
end Morse
