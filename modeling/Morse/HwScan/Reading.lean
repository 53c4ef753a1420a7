import Morse.HwScan.Agreement

/-!
# What the reader reads of a scan

On a host of 32 bits, with a length that does not wrap, everything that is read stands inside the
parameters, but for the powers, which are read where the channels point.
-/

namespace Morse
namespace HwScan

open Lib

section Reads

variable {region : Region} {params : HwScanParams} {store : Bool}
  {schedReq : Option SchedScanRequest} {behind : Nat → Octet}

/-! ## Parameters by their tags -/

/-- What is known of a parameter by its tag. -/
structure Shaped (schedReq : Option SchedScanRequest) (tlv : Tlv) : Prop where
  dwell : tlv.tag = tagDwellOnHome → tlv.payload.length = 4
  infos : tlv.tag = tagSchedParams → tlv.payload.length = 8
  filter : tlv.tag = tagFilter → ∃ matchSets,
    schedReq.bind SchedScanRequest.matchSets = some matchSets ∧
      tlv.payload = matchSets.flatMap MatchSet.octets
  sched : tlv.tag = tagSched → ∃ scanPlans,
    schedReq.bind SchedScanRequest.scanPlans = some scanPlans ∧
      tlv.payload = scanPlans.flatMap ScanPlan.octets

theorem shaped_of_mem (among : tlv ∈ emitted region params schedReq) :
    Shaped schedReq tlv := by
  unfold emitted schedTlvs at among
  simp only [List.mem_cons, List.mem_append, List.mem_flatMap, List.mem_map, List.mem_ite_nil_right,
    Option.mem_toList, List.cons_append, List.not_mem_nil, or_false] at among
  rcases among with rfl | rfl | (⟨_, rfl⟩ | ⟨_, _, rfl⟩) |
    ⟨req, rfl, rfl | ⟨_, has, rfl⟩ | ⟨_, has, rfl⟩⟩
  all_goals
    constructor <;>
      simp [tagChanList, tagPowerList, tagDwellOnHome, tagProbeReq, tagSchedParams, tagFilter,
        tagSched, *]

theorem mem_emitted_of_scanPlans (has : schedReq.bind SchedScanRequest.scanPlans = some scanPlans) :
    ⟨tagSched, scanPlans.flatMap ScanPlan.octets⟩ ∈ emitted region params schedReq := by
  obtain ⟨req, rfl, plans⟩ := Option.bind_eq_some_iff.mp has
  unfold emitted schedTlvs
  simp [plans]

theorem mem_emitted_of_matchSets (has : schedReq.bind SchedScanRequest.matchSets = some matchSets) :
    ⟨tagFilter, matchSets.flatMap MatchSet.octets⟩ ∈ emitted region params schedReq := by
  obtain ⟨req, rfl, sets⟩ := Option.bind_eq_some_iff.mp has
  unfold emitted schedTlvs
  simp [sets]

/-! ## Numbers of items -/

theorem lastWith_tagChanList :
    lastWith tagChanList (headersOf region params schedReq) =
      some ⟨reqHwScanSize, tagChanList.toNat, 4 * params.channels.length⟩ := by
  have nodup : ((headersOf region params schedReq).map Visit.tag).Nodup := by
    rw [map_tag_headersOf]
    exact nodup_tags region params schedReq
  rw [← length_channelOctets region]
  exact lastWith_of_mem nodup (List.mem_map.mpr ⟨_, List.mem_cons_self, rfl⟩) rfl

@[inherit_doc lastWith_tagChanList]
theorem lastWith_tagPowerList :
    lastWith tagPowerList (headersOf region params schedReq) =
      some ⟨reqHwScanSize + (4 + 4 * params.channels.length), tagPowerList.toNat,
        4 * params.powersQdbm.length⟩ := by
  have nodup : ((headersOf region params schedReq).map Visit.tag).Nodup := by
    rw [map_tag_headersOf]
    exact nodup_tags region params schedReq
  have second : (reqHwScanSize + (4 + 4 * params.channels.length),
      (⟨tagPowerList, params.powersQdbm.flatMap (leOctets 4)⟩ : Tlv)) ∈
      placed Tlv.octets reqHwScanSize (emitted region params schedReq) := by
    rw [← length_channelOctets region, ← Tlv.length_octets ⟨tagChanList, _⟩]
    exact List.mem_cons_of_mem _ List.mem_cons_self
  rw [← length_powerOctets]
  exact lastWith_of_mem nodup (List.mem_map.mpr ⟨_, second, rfl⟩) rfl

theorem itemCount_channels :
    itemCount 4 (lastWith tagChanList (headersOf region params schedReq)) =
      params.channels.length := by
  rw [lastWith_tagChanList]
  exact Nat.mul_div_cancel_left _ (by decide)

theorem itemCount_plans :
    itemCount 8 (lastWith tagSched (headersOf region params schedReq)) = planCount schedReq := by
  unfold planCount
  cases has : schedReq.bind SchedScanRequest.scanPlans with
  | none =>
    rw [lastWith_eq_none]
    · rfl
    · intro tlv among tagged
      obtain ⟨scanPlans, given, _⟩ := (shaped_of_mem among).sched tagged
      rw [has] at given
      cases given
  | some scanPlans =>
    obtain ⟨place, _, found⟩ :=
      lastWith_headersOf (@mem_emitted_of_scanPlans region params _ _ has)
    rw [found, length_planOctets]
    exact Nat.mul_div_cancel_left _ (by decide)

theorem itemCount_matchSets :
    itemCount 43 (lastWith tagFilter (headersOf region params schedReq)) =
      matchSetCount schedReq := by
  unfold matchSetCount
  cases has : schedReq.bind SchedScanRequest.matchSets with
  | none =>
    rw [lastWith_eq_none]
    · rfl
    · intro tlv among tagged
      obtain ⟨matchSets, given, _⟩ := (shaped_of_mem among).filter tagged
      rw [has] at given
      cases given
  | some matchSets =>
    obtain ⟨place, _, found⟩ :=
      lastWith_headersOf (@mem_emitted_of_matchSets region params _ _ has)
    rw [found, length_filterOctets]
    exact Nat.mul_div_cancel_left _ (by decide)

/-! ## Reads inside the command -/

theorem readsBehind_inside (starts : StartsScan params store) {tag : BitVec 16}
    {reads : List (Nat × Nat)}
    (fits : ∀ tlv ∈ emitted region params schedReq, tlv.tag = tag →
      ∀ read ∈ reads, read.1 + read.2 ≤ 4 + tlv.payload.length) :
    ∀ read ∈ readsBehind reads (lastWith tag (headersOf region params schedReq)),
      read.1 + read.2 ≤ getCommandSize params schedReq := by
  intro read done
  by_cases has : ∃ tlv ∈ emitted region params schedReq, tlv.tag = tag
  · obtain ⟨tlv, among, rfl⟩ := has
    obtain ⟨place, member, found⟩ := lastWith_headersOf among
    rw [found] at done
    obtain ⟨inner, among_reads, rfl⟩ := List.mem_map.mp done
    have inside := (inside_command starts member).2.2
    have short := fits tlv among rfl inner among_reads
    dsimp only
    omega
  · rw [lastWith_eq_none fun tlv among tagged => has ⟨tlv, among, tagged⟩] at done
    exact absurd done List.not_mem_nil

theorem filterReads_inside (starts : StartsScan params store) :
    ∀ read ∈ filterReads (commandMemory region params store schedReq behind)
        (matchSetCount schedReq) (lastWith tagFilter (headersOf region params schedReq)),
      read.1 + read.2 ≤ getCommandSize params schedReq := by
  unfold matchSetCount
  intro read done
  cases has : schedReq.bind SchedScanRequest.matchSets with
  | none =>
    rw [lastWith_eq_none] at done
    · exact absurd done List.not_mem_nil
    · intro tlv among tagged
      obtain ⟨matchSets, given, _⟩ := (shaped_of_mem among).filter tagged
      rw [has] at given
      cases given
  | some matchSets =>
    obtain ⟨place, member, found⟩ :=
      lastWith_headersOf (@mem_emitted_of_matchSets region params _ _ has)
    rw [has, found] at done
    obtain ⟨i, below, done⟩ := List.mem_flatMap.mp done
    have small : i < matchSets.length := List.mem_range.mp below
    have inside := (inside_command starts member).2.2
    rw [length_filterOctets] at inside
    -- The length of the SSID is the one of the match set, at most 32.
    have stands := (@standsAt_of_mem_placed region params store schedReq behind starts _ _
      member).payload
    have set := segment_of_width MatchSet.length_octets stands small
    have octet := congrArg (fun octets => octets[10]?) set
    have named : matchSets[i].octets[10]? = some (BitVec.ofNat 8 matchSets[i].ssid.length) := by
      simp [MatchSet.octets, List.getElem?_append, matchSets[i].bssid_length]
    rw [named] at octet
    have short := matchSets[i].ssid_length
    have length : (commandMemory region params store schedReq behind
        (place + 4 + 43 * i + 10)).toNat ≤ 32 := by
      rw [Option.some.inj octet]
      exact (Nat.mod_le _ _).trans short
    simp only [List.mem_cons, List.not_mem_nil, or_false] at done
    rcases done with rfl | rfl | rfl | rfl <;> dsimp only <;> omega

/-! ## The powers that are pointed to -/

theorem bmget_packChannel (region : Region) (chan : Channel) (pwrIdx : Nat) :
    (bmget (packChannel region chan pwrIdx) pwrListIdx 26).toNat = pwrIdx % 64 := by
  have apart (value field : BitVec 32) (ctz : Nat) (disjoint : field &&& pwrListIdx = 0#32) :
      bmset value field ctz &&& pwrListIdx = 0#32 := by
    rw [bmset, BitVec.and_assoc, disjoint]
    exact BitVec.and_zero
  have mask : pwrListIdx = BitVec.allOnes 32 <<< 26 := by decide
  have own : (BitVec.ofNat 32 pwrIdx <<< 26) &&& pwrListIdx = BitVec.ofNat 32 pwrIdx <<< 26 := by
    rw [mask, ← BitVec.shiftLeft_and_distrib, BitVec.and_allOnes]
  unfold bmget packChannel
  rw [BitVec.and_or_distrib_right, BitVec.and_or_distrib_right, BitVec.and_or_distrib_right,
    BitVec.and_or_distrib_right, apart _ 0x000FFFFF 0 (by decide), apart _ 0x00300000
      20 (by decide),
    apart _ 0x00400000 22 (by decide), apart 0 0x03800000 23 (by decide), bmset, own, own]
  simp only [BitVec.zero_or, BitVec.or_zero, BitVec.toNat_ushiftRight, BitVec.toNat_shiftLeft,
    BitVec.toNat_ofNat, Nat.shiftLeft_eq, Nat.shiftRight_eq_div_pow]
  omega

theorem channelReads_inside_iff (starts : StartsScan params store) :
    (∀ read ∈ channelReads (commandMemory region params store schedReq behind)
        params.channels.length (lastWith tagChanList (headersOf region params schedReq))
        (lastWith tagPowerList (headersOf region params schedReq)),
      read.1 + read.2 ≤ getCommandSize params schedReq) ↔ PowersInside params schedReq := by
  have member : (reqHwScanSize, (⟨tagChanList, channelOctets region params.channels⟩ : Tlv)) ∈
      placed Tlv.octets reqHwScanSize (emitted region params schedReq) := List.mem_cons_self
  have inside := (inside_command starts member).2.2
  have stands := (@standsAt_of_mem_placed region params store schedReq behind starts _ _
    member).payload
  rw [length_channelOctets] at inside
  have index (i : Nat) (small : i < params.channels.length) :
      (bmget (le32 (commandMemory region params store schedReq behind)
        (reqHwScanSize + 4 + 4 * i)) pwrListIdx 26).toNat = params.channels[i].powerIdx % 64 := by
    rw [le32_of_segment (segment_of_width (fun _ => length_leOctets _ _) stands small),
      bmget_packChannel]
  rw [lastWith_tagChanList, lastWith_tagPowerList, channelReads]
  dsimp only
  constructor
  · intro done listed among
    obtain ⟨i, small, rfl⟩ := List.getElem_of_mem among
    have power := done _ (List.mem_flatMap.mpr
      ⟨i, List.mem_range.mpr small, List.mem_cons_of_mem _ List.mem_cons_self⟩)
    rw [index i small] at power
    dsimp only at power
    omega
  · intro powers read done
    obtain ⟨i, below, done⟩ := List.mem_flatMap.mp done
    have small := List.mem_range.mp below
    rcases List.mem_cons.mp done with rfl | done
    · omega
    · have power := powers _ (List.getElem_mem small)
      rw [List.mem_singleton.mp done, index i small]
      dsimp only
      omega

end Reads

/-! ## When both agree -/

theorem commandFlags_starts (starts : StartsScan params store) :
    ¬(commandFlags params store &&& flagsStart = 0 ∧
      commandFlags params store &&& flagsSchedStart = 0) := by
  have flags : ∀ survey probes store : Bool,
      flagsFor .start survey probes false &&& flagsStart ≠ 0 ∧
        flagsFor .schedStart survey probes store &&& flagsSchedStart ≠ 0 := by decide
  unfold commandFlags
  rintro ⟨noStart, noSchedStart⟩
  rcases starts with ⟨is, rfl⟩ | is
  · rw [is] at noStart
    exact (flags _ _ false).1 noStart
  · rw [is] at noSchedStart
    exact (flags _ _ store).2 noSchedStart

section Agrees

variable {region : Region} {params : HwScanParams} {store : Bool}
  {schedReq : Option SchedScanRequest} {behind : Nat → Octet} {host : Host}

theorem tiles_iff (starts : StartsScan params store) (length : Nat → Nat) :
    Tiles reqHwScanSize (getCommandSize params schedReq)
        ((placed Tlv.octets reqHwScanSize (emitted region params schedReq)).map fun piece =>
          (piece.1, length piece.1)) ↔
      ∀ piece ∈ placed Tlv.octets reqHwScanSize (emitted region params schedReq),
        length piece.1 = piece.2.octets.length := by
  rw [← @length_emitted region params store schedReq starts]
  exact tiles_placed_iff octets_pos length _ _

theorem agrees_iff_of_fitting (starts : StartsScan params store) (pointer : host.pointerSize = 4)
    (short : getCommandSize params schedReq < 65536) :
    Agrees host region params store schedReq behind ↔ PowersInside params schedReq := by
  have headers := @visited_eq region params store schedReq behind starts host pointer short
  have ends := @commandEnd_of_lt region params store schedReq behind starts short
  have least : 20 ≤ getCommandSize params schedReq := le_getCommandSize starts
  have flags := (@commandMemory_parts region params store schedReq behind starts).2.1
  have dumps : ∃ reads, dumpScanCmd host true (commandMemory region params store schedReq behind) =
      some ⟨headersOf region params schedReq, reads, params.channels.length, planCount schedReq,
        matchSetCount schedReq, planCount schedReq⟩ ∧
      ((∀ read ∈ reads, read.1 + read.2 ≤ getCommandSize params schedReq) ↔
        PowersInside params schedReq) := by
    unfold dumpScanCmd
    dsimp only
    rw [flags, if_neg (commandFlags_starts starts), headers,
      itemCount_channels, itemCount_plans, itemCount_matchSets]
    refine ⟨_, rfl, ?_⟩
    simp only [List.forall_mem_append]
    have fixed : ∀ read ∈ [(4, 2), (12, 4), (16, 4)],
        read.1 + read.2 ≤ getCommandSize params schedReq := by
      simp only [List.forall_mem_cons]
      exact ⟨by omega, by omega, by omega, fun _ inside => absurd inside List.not_mem_nil⟩
    have heads : ∀ read ∈ (headersOf region params schedReq).flatMap
          fun header => [(header.offset, 2), (header.offset + 2, 2)],
        read.1 + read.2 ≤ getCommandSize params schedReq := by
      intro read done
      obtain ⟨header, inside, done⟩ := List.mem_flatMap.mp done
      obtain ⟨piece, member, rfl⟩ := List.mem_map.mp inside
      have fits := (inside_command starts member).2.2
      rcases List.mem_cons.mp done with rfl | done
      · dsimp only
        omega
      · rw [List.mem_singleton.mp done]
        dsimp only
        omega
    have dwell := @readsBehind_inside region params store schedReq starts tagDwellOnHome [(4, 4)]
      (by
        intro tlv among tagged read done
        rw [(shaped_of_mem among).dwell tagged]
        obtain rfl := List.mem_singleton.mp done
        decide)
    have infos := @readsBehind_inside region params store schedReq starts tagSchedParams
      [(4, 4), (8, 4)] (by
        intro tlv among tagged read done
        rw [(shaped_of_mem among).infos tagged]
        rcases List.mem_cons.mp done with rfl | done
        · decide
        · obtain rfl := List.mem_singleton.mp done
          decide)
    have plans : ∀ read ∈ scheduledReads (planCount schedReq)
          (lastWith tagSched (headersOf region params schedReq)),
        read.1 + read.2 ≤ getCommandSize params schedReq := by
      apply readsBehind_inside starts
      intro tlv among tagged read done
      obtain ⟨scanPlans, has, payload⟩ := (shaped_of_mem among).sched tagged
      obtain ⟨i, below, done⟩ := List.mem_flatMap.mp done
      have small := List.mem_range.mp below
      rw [planCount, has, Option.getD_some] at small
      rw [payload, length_planOctets]
      simp only [List.mem_cons, List.not_mem_nil, or_false] at done
      rcases done with rfl | rfl <;> dsimp only <;> omega
    have filters := @filterReads_inside region params store schedReq behind starts
    have channels := @channelReads_inside_iff region params store schedReq behind starts
    by_cases none : params.channels.length = 0
    · rw [if_pos none]
      have empty : params.channels = [] := List.eq_nil_of_length_eq_zero none
      refine iff_of_true ⟨⟨⟨⟨fixed, heads⟩, dwell⟩, infos⟩, ?_⟩ ?_
      · exact fun _ inside => absurd inside List.not_mem_nil
      · rw [PowersInside, empty]
        exact fun _ inside => absurd inside List.not_mem_nil
    · rw [if_neg none, List.forall_mem_append, List.forall_mem_append, channels]
      exact ⟨fun all => all.2.1.1, fun powers =>
        ⟨⟨⟨⟨fixed, heads⟩, dwell⟩, infos⟩, ⟨powers, plans⟩, filters⟩⟩
  obtain ⟨reads, dump, inside⟩ := dumps
  constructor
  · intro agrees
    obtain ⟨found, is, _, _, below, _⟩ := agrees.dumps
    rw [dump] at is
    obtain rfl := Option.some.inj is
    rw [ends] at below
    exact inside.mp below
  · intro powers
    refine ⟨length_insertTlvs region starts.operation schedReq, ?_, _, dump, map_offset_headersOf,
      map_tag_headersOf, ?_, rfl, rfl, rfl⟩
    · rw [tiles_iff starts fun place =>
        4 + le16 (commandMemory region params store schedReq behind) (place + 2)]
      intro piece member
      have fits := (inside_command starts member).2.2
      rw [(@standsAt_of_mem_placed region params store schedReq behind starts _ _ member).len,
        Tlv.length_octets, Nat.mod_eq_of_lt (by omega)]
    · rw [ends]
      exact inside.mpr powers

theorem fitting_of_agrees (starts : StartsScan params store)
    (agrees : Agrees host region params store schedReq behind) :
    host.pointerSize = 4 ∧ getCommandSize params schedReq < 65536 := by
  have lengths := (tiles_iff starts fun place =>
    4 + le16 (commandMemory region params store schedReq behind) (place + 2)).mp agrees.tiles
  obtain ⟨dump, is, places, _, below, _⟩ := agrees.dumps
  have headers : dump.visited =
      visited host (commandMemory region params store schedReq behind) ∧
      ∀ header ∈ dump.visited, (header.offset + 2, 2) ∈ dump.reads := by
    unfold dumpScanCmd at is
    dsimp only at is
    rw [(commandMemory_parts starts).2.1,
      if_neg (commandFlags_starts starts)] at is
    obtain rfl := Option.some.inj is
    refine ⟨rfl, ?_⟩
    intro header inside
    have head : (header.offset + 2, 2) ∈
        (visited host (commandMemory region params store schedReq behind)).flatMap
          fun header => [(header.offset, 2), (header.offset + 2, 2)] := by
      rw [List.mem_flatMap]
      refine ⟨header, inside, ?_⟩
      simp only [List.mem_cons, true_or, or_true]
    apply List.mem_append_left
    apply List.mem_append_left
    apply List.mem_append_left
    apply List.mem_append_right
    exact head
  -- The header of each parameter is read, and so lies before the end.
  have read : ∀ piece ∈ placed Tlv.octets reqHwScanSize (emitted region params schedReq),
      piece.1 + 4 ≤ commandEnd (commandMemory region params store schedReq behind) := by
    intro piece member
    have visit : piece.1 ∈ dump.visited.map Visit.offset := by
      rw [places]
      exact List.mem_map_of_mem member
    obtain ⟨header, inside, at_place⟩ := List.mem_map.mp visit
    have bound := below _ (headers.2 header inside)
    omega
  have ends := @commandEnd_eq region params store schedReq behind starts
  have member : (reqHwScanSize, (⟨tagChanList, channelOctets region params.channels⟩ : Tlv)) ∈
      placed Tlv.octets reqHwScanSize (emitted region params schedReq) := List.mem_cons_self
  have first := read _ member
  constructor
  · have size := lengths _ member
    have second : (visits (nextTlv host (commandMemory region params store schedReq behind))
        (commandEnd (commandMemory region params store schedReq behind))
        (commandEnd (commandMemory region params store schedReq behind)) reqHwScanSize)[1]? =
        some (reqHwScanSize +
          (⟨tagChanList, channelOctets region params.channels⟩ : Tlv).octets.length) := by
      rw [headers.1, visited, List.map_map] at places
      have all := (List.map_id _).symm.trans places
      rw [all]
      rfl
    have step := eq_advance_of_visits second
    rw [nextTlv] at step
    dsimp only at size
    omega
  · have none : emitted region params schedReq ≠ [] := List.cons_ne_nil _ _
    obtain ⟨place, tlv, member, last⟩ := @exists_last_placed _ _ Tlv.octets _ none reqHwScanSize
    have size := lengths _ member
    have small := le16_lt (commandMemory region params store schedReq behind) (place + 2)
    have bound := read _ member
    rw [length_emitted starts] at last
    rw [ends] at first bound
    dsimp only at size bound first
    unfold reqHwScanSize at first
    by_cases tiny : getCommandSize params schedReq % 65536 < 12
    · rw [if_pos tiny] at first
      omega
    · rw [if_neg tiny] at bound
      omega

end Agrees

/-- The encoding and the reader agree exactly on hosts of 32 bits, if the length of the command
does not wrap and the powers that are pointed to stand inside it. -/
theorem commandAgrees_iff {params : HwScanParams} {store : Bool} (starts : StartsScan params store)
    (host : Host) (region : Region) (schedReq : Option SchedScanRequest) (behind : Nat → Octet) :
    Agrees host region params store schedReq behind ↔
      host = .bits32 ∧ getCommandSize params schedReq < 65536 ∧ PowersInside params schedReq := by
  constructor
  · intro agrees
    obtain ⟨pointer, short⟩ := fitting_of_agrees starts agrees
    refine ⟨?_, short, (agrees_iff_of_fitting starts pointer short).mp agrees⟩
    cases host with
    | bits32 => rfl
    | bits64 => exact absurd pointer (by decide)
  · rintro ⟨rfl, short, powers⟩
    exact (agrees_iff_of_fitting starts rfl short).mpr powers

/-- A passive scan of one channel with one power. -/
def oneChannel : HwScanParams where
  dwellTimeMs := 110
  dwellOnHomeMs := 0
  operation := .start
  survey := false
  probeReq := none
  channels := [⟨chans1ghz 5 904 500 ieee80211Chan1mhz 3600 36, 0⟩]
  powersQdbm := [144]
  use1mhzProbes := false

theorem agrees_oneChannel :
    StartsScan oneChannel false ∧ Agrees .bits32 .us oneChannel false none fun _ => 0 :=
  ⟨.inl ⟨rfl, rfl⟩, (commandAgrees_iff (.inl ⟨rfl, rfl⟩) .bits32 .us none _).mpr
    ⟨rfl, by decide, by unfold PowersInside; decide⟩⟩

/-- On a host of 64 bits the header of the powers is missed. -/
theorem not_agrees_oneChannel : ¬Agrees .bits64 .us oneChannel false none fun _ => 0 := by
  intro agrees
  have pointer := (fitting_of_agrees (.inl ⟨rfl, rfl⟩) agrees).1
  exact absurd pointer (by decide)

end HwScan
end Morse
