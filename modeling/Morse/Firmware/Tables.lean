import Morse.Firmware.Claims
import Morse.Lib.Records

/-!
# Tables of the firmware

The firmware describes itself in two tables of entries with a type and a length: one in the
image, which names the memory regions of a core dump, and one in the chip, the extended table for
the host.  The lengths of the first do not count the four octets in front of a value, those of the
second do.  Neither reader looks where its table ends before it reads an entry.
-/

namespace Morse
namespace Firmware

open Lib

/-! ## The extended table for the host -/

/-- The known `MORSE_FW_HOST_TABLE_TAG_*`. -/
inductive HostTag
  | s1gCapabilities
  | pagerBypassTxStatus
  | insertSkbChecksum
  | yapsTable
  | pagerPktMemory
  | pagerBypassCmdResp
  deriving DecidableEq

/-- The tag of a number. -/
def hostTag : Nat → Option HostTag
  | 0 => some .s1gCapabilities
  | 1 => some .pagerBypassTxStatus
  | 2 => some .insertSkbChecksum
  | 3 => some .yapsTable
  | 4 => some .pagerPktMemory
  | 5 => some .pagerBypassCmdResp
  | _ => none

/-- What is read of the value of a tag: how far behind the header, and how many octets. -/
def HostTag.part : HostTag → Nat × Nat
  | .s1gCapabilities => (0, 21)
  | .pagerBypassTxStatus => (0, 4)
  | .insertSkbChecksum => (0, 1)
  | .yapsTable => (4, 30)
  | .pagerPktMemory => (0, 8)
  | .pagerBypassCmdResp => (0, 4)

/-- What the driver learns from the extended table. -/
structure Learnt where
  /-- The address that `set_mac_addr` is given. -/
  devMacAddr : List (BitVec 8)
  /-- `capabilities.flags` and the octets behind them. -/
  flags : List Nat
  capabilities : List (BitVec 8)
  /-- `bypass.tx_sts.location` and `bypass.cmd_resp.location`. -/
  txSts : Nat
  cmdResp : Nat
  validateSkbChecksum : Bool
  /-- The fields of `struct morse_yaps_hw_table` from `ysl_addr` on, once they were copied. -/
  yapsTable : Option (List (BitVec 8))
  /-- `pkt_memory.base_addr` and `pkt_memory.page_len`. -/
  baseAddr : Nat
  pageLen : Nat
  /-- `pkt_memory.page_len_reserved` and `pkt_memory.num`. -/
  pageLenReserved : Nat
  num : Nat
  deriving DecidableEq

/-- The updates from the entry of a tag, with the octets that they read. -/
def HostTag.update (octets : List (BitVec 8)) (learnt : Learnt) : HostTag → Learnt
  | .s1gCapabilities =>
    { learnt with
      flags := (List.range 4).map fun word => octetsNat ((octets.drop (4 * word)).take 4)
      capabilities := octets.drop 16 }
  | .pagerBypassTxStatus => { learnt with txSts := octetsNat octets }
  | .insertSkbChecksum => { learnt with validateSkbChecksum := octetsNat octets != 0 }
  | .yapsTable => { learnt with yapsTable := some octets }
  | .pagerPktMemory =>
    { learnt with
      baseAddr := octetsNat (octets.take 4)
      pageLen := octetsNat ((octets.drop 4).take 2)
      pageLenReserved := octetsNat ((octets.drop 6).take 1)
      num := octetsNat (octets.drop 7) }
  | .pagerBypassCmdResp => { learnt with cmdResp := octetsNat octets }

/-- What is read of a buffer: where, and how many octets. -/
abbrev Read := Nat × Nat

variable (memory : Nat → BitVec 8)

/-- The tag of the entry at some place. -/
def tagAt (head : Nat) : Option HostTag := hostTag (number memory 2 head)

/-- The value of an entry is used as its tag says. -/
def applyTlv (learnt : Learnt) (head : Nat) : Recorded Read Learnt :=
  match tagAt memory head with
  | none => pure learnt
  | some tag => do
      Recorded.record (head + 4 + tag.part.1, tag.part.2)
      pure (tag.update (segment memory (head + 4 + tag.part.1) tag.part.2) learnt)

/-- The loop of `morse_firmware_parse_extended_host_table`. -/
def parseTlvs (stop head : Nat) (learnt : Learnt) : Recorded Read Learnt :=
  if head < stop then do
    Recorded.record (head, 2)
    let learnt ← applyTlv memory learnt head
    Recorded.record (head + 2, 2)
    if number memory 2 (head + 2) = 0 then pure learnt
    else parseTlvs stop (head + number memory 2 (head + 2)) learnt
  else pure learnt
  termination_by stop - head
  decreasing_by omega

/-- `morse_firmware_parse_extended_host_table`, given the status of reading the flags of the
firmware, and what the buffer holds when the table was read into it. -/
def parseExtendedHostTable (fwFlags : Int) (answers : TableAnswers) (learnt : Learnt) :
    Recorded Read (Int × Learnt) :=
  if fwFlags ≠ 0 then pure (fwFlags, learnt)
  else if (readExtHostTable answers).value ≠ 0 then pure ((readExtHostTable answers).value, learnt)
  else do
    Recorded.record (4, 6)
    Recorded.record (0, 4)
    let learnt ← parseTlvs memory (number memory 4 0) 10
      { learnt with devMacAddr := segment memory 4 6 }
    pure (0, learnt)

/-! ## The firmware information -/

/-- `struct morse_coredump_mem_region`. -/
structure MemRegion where
  type : Nat
  start : Nat
  len : Nat
  deriving DecidableEq

/-- What the driver keeps of the firmware information. -/
structure FwInfo where
  bcfAddress : Nat
  regions : List MemRegion
  deriving DecidableEq

/-- The region that the value of an entry describes. -/
def regionAt (entry : Nat) : MemRegion where
  type := number memory 4 (entry + 4)
  start := number memory 4 (entry + 8)
  len := number memory 4 (entry + 12)

variable (image : Image) (answers : Answers)

/-- The region of an entry that has one, if core dumps include the memory of the chip and there is
memory for it: `morse_coredump_add_memory_region`. -/
def addedRegion (entry : Nat) : Option MemRegion :=
  if number image.memory 2 entry = tlvCoredumpMemRegion ∧ answers.region entry = true then
    some (regionAt image.memory entry)
  else none

/-- One turn of the loop of `morse_parse_firmware_info`. -/
def takeEntry (info : FwInfo) (entry : Nat) : FwInfo where
  bcfAddress :=
    if number image.memory 2 entry = tlvBcfAddr then number image.memory 4 (entry + 4)
    else info.bcfAddress
  regions := info.regions ++ (addedRegion image answers entry).toList

/-- What the loop of `morse_parse_firmware_info` leaves. -/
def takeEntries (entry limit : Nat) (info : FwInfo) : FwInfo :=
  if entry < limit then
    takeEntries (nextEntry image entry) limit (takeEntry image answers info entry)
  else info
  termination_by limit - entry
  decreasing_by
    rw [nextEntry]
    omega

/-- What `morse_parse_firmware_info` leaves: the regions of before are removed. -/
def takeFirmwareInfo (offset size : Nat) (info : FwInfo) : FwInfo :=
  takeEntries image answers offset (if size < 2 ^ 31 then offset + size else 0)
    { info with regions := [] }

/-! ## Entries -/

/-- An entry of a table. -/
structure Entry where
  tag : BitVec 16
  value : List (BitVec 8)

/-- The octets of an entry, whose length counts some octets more than the value. -/
def Entry.octets (counted : Nat) (entry : Entry) : List (BitVec 8) :=
  leOctets 2 entry.tag ++ (natOctets 2 (entry.value.length + counted) ++ entry.value)

/-- What the driver learns from an entry of the extended table. -/
def Entry.update (learnt : Learnt) (entry : Entry) : Learnt :=
  match hostTag entry.tag.toNat with
  | none => learnt
  | some tag => tag.update ((entry.value.drop tag.part.1).take tag.part.2) learnt

/-- The memory region of an entry of the firmware information. -/
def Entry.region (entry : Entry) : Option MemRegion :=
  if entry.tag.toNat = tlvCoredumpMemRegion then
    some
      { type := octetsNat (entry.value.take 4)
        start := octetsNat ((entry.value.drop 4).take 4)
        len := octetsNat ((entry.value.drop 8).take 4) }
  else none

/-- The extended table consists of some entries and lies inside the buffer; their values have
what is read of them. -/
structure IsHostTable (size : Nat) (entries : List Entry) : Prop where
  length_eq : number memory 4 0 = 10 + (entries.flatMap (Entry.octets 4)).length
  inside : 10 + (entries.flatMap (Entry.octets 4)).length ≤ size
  stand : segment memory 10 (entries.flatMap (Entry.octets 4)).length =
    entries.flatMap (Entry.octets 4)
  short : ∀ entry ∈ entries, entry.value.length + 4 < 2 ^ 16
  covers : ∀ entry ∈ entries, ∀ tag ∈ hostTag entry.tag.toNat,
    tag.part.1 + tag.part.2 ≤ entry.value.length

/-- A section of firmware information consists of some entries. -/
structure IsFwInfo (offset size : Nat) (entries : List Entry) : Prop where
  size_eq : size = (entries.flatMap (Entry.octets 0)).length
  small : size < 2 ^ 31
  stand : segment memory offset size = entries.flatMap (Entry.octets 0)
  short : ∀ entry ∈ entries, entry.value.length < 2 ^ 16
  covers : ∀ entry ∈ entries,
    (entry.tag.toNat = tlvBcfAddr → 4 ≤ entry.value.length) ∧
      (entry.tag.toNat = tlvCoredumpMemRegion → 12 ≤ entry.value.length)

/-! ## What is reached -/

/-- The entry of the extended table that is read next. -/
def nextTlv (stop head : Nat) : Nat :=
  if number memory 2 (head + 2) = 0 then stop else head + number memory 2 (head + 2)

/-- The entries of the extended table that are read. -/
def reachedTlvs : List Nat :=
  visits (nextTlv memory (number memory 4 0)) (number memory 4 0) (number memory 4 0) 10

/-- The end of what is read of an entry of the extended table. -/
def tlvEnd (head : Nat) : Nat :=
  head + 4 + (tagAt memory head).elim 0 fun tag => tag.part.1 + tag.part.2

/-- What is read of an entry of the extended table. -/
def tlvReads (head : Nat) : List Read :=
  (head, 2) :: (((tagAt memory head).toList.map fun tag => (head + 4 + tag.part.1, tag.part.2)) ++
    [(head + 2, 2)])

/-- The end of a section, as `morse_parse_firmware_info` computes it. -/
def infoLimit (offset size : Nat) : Nat := if size < 2 ^ 31 then offset + size else 0

/-- The entries of the firmware information that are read. -/
def reachedEntries (offset size : Nat) : List Nat :=
  visits (nextEntry image) (infoLimit offset size) (infoLimit offset size + 1) offset

/-- The size of the buffer for the extended table. -/
def TableAnswers.size (answers : TableAnswers) : Nat := roundBytesToWord answers.length

/-- What the two readers do: both come to an end, for they are functions.  They read inside their
table when it has all of each entry that they reach, as a table of entries has; they use each entry
once; and the regions are those of the section, whatever was there before. -/
structure ReadsTables : Prop where
  tlvs : ∀ memory fwFlags answers learnt, 10 ≤ answers.size →
    (∀ head ∈ reachedTlvs memory, tlvEnd memory head ≤ answers.size) →
    ∀ read ∈ (parseExtendedHostTable memory fwFlags answers learnt).log,
      read.1 + read.2 ≤ answers.size
  hostTable : ∀ memory fwFlags answers learnt entries, IsHostTable memory answers.size entries →
    (∀ read ∈ (parseExtendedHostTable memory fwFlags answers learnt).log,
      read.1 + read.2 ≤ answers.size) ∧
    ((parseExtendedHostTable memory fwFlags answers learnt).value.1 = 0 →
      (parseExtendedHostTable memory fwFlags answers learnt).value.2 =
        entries.foldl Entry.update { learnt with devMacAddr := segment memory 4 6 })
  entries : ∀ image answers offset size,
    (∀ entry ∈ reachedEntries image offset size,
      entry + 4 + valueOctets image answers entry ≤ offset + size) →
    ∀ event ∈ (parseFirmwareInfo image answers offset size).log, ∃ place count,
      event = .read place count ∧ offset ≤ place ∧ place + count ≤ offset + size
  fwInfo : ∀ image answers offset size entries, IsFwInfo image.memory offset size entries →
    (∀ event ∈ (parseFirmwareInfo image answers offset size).log, ∃ place count,
      event = .read place count ∧ offset ≤ place ∧ place + count ≤ offset + size) ∧
    ((∀ entry, answers.region entry = true) → ∀ info,
      (takeFirmwareInfo image answers offset size info).regions = entries.filterMap Entry.region)
  regions : ∀ image answers offset size info,
    (takeFirmwareInfo image answers offset size info).regions =
      (reachedEntries image offset size).filterMap (addedRegion image answers)

/-! ## The loops -/

section Loops

variable {memory image answers}

theorem log_applyTlv (learnt : Learnt) (head : Nat) :
    (head, 2) :: ((applyTlv memory learnt head).log ++ [(head + 2, 2)]) =
      tlvReads memory head := by
  rw [applyTlv, tlvReads]
  cases tagAt memory head with
  | none => rfl
  | some tag => rfl

theorem parseTlvs_eq (enough : stop ≤ head + fuel) (learnt : Learnt) :
    (parseTlvs memory stop head learnt).log =
        (visits (nextTlv memory stop) stop fuel head).flatMap (tlvReads memory) ∧
      (parseTlvs memory stop head learnt).value =
        (visits (nextTlv memory stop) stop fuel head).foldl
          (fun learnt head => (applyTlv memory learnt head).value) learnt := by
  induction fuel generalizing head learnt with
  | zero =>
    rw [parseTlvs, if_neg (by omega)]
    exact ⟨rfl, rfl⟩
  | succ fuel ih =>
    rw [parseTlvs]
    unfold visits
    split
    case isFalse => exact ⟨rfl, rfl⟩
    case isTrue =>
      rw [List.flatMap_cons, List.foldl_cons, ← log_applyTlv learnt head]
      by_cases zero : number memory 2 (head + 2) = 0
      · have ended : visits (nextTlv memory stop) stop fuel (nextTlv memory stop head) = [] := by
          rw [nextTlv, if_pos zero]
          cases fuel with
          | zero => rfl
          | succ fuel =>
            exact if_neg (Nat.lt_irrefl _)
        rw [ended]
        simp [zero]
      · obtain ⟨log, value⟩ := @ih (nextTlv memory stop head)
          (by rw [nextTlv, if_neg zero]; omega) (applyTlv memory learnt head).value
        rw [← log, ← value, nextTlv]
        simp [zero]

/-- What is read of the firmware information. -/
def entryReads (image : Image) (answers : Answers) (entry : Nat) : List Event :=
  [.read entry 2, .read (entry + 4) (valueOctets image answers entry), .read (entry + 2) 2]

theorem log_parseEntries (enough : limit ≤ entry + fuel) :
    (parseEntries image answers entry limit).log =
      (visits (nextEntry image) limit fuel entry).flatMap (entryReads image answers) := by
  induction fuel generalizing entry with
  | zero =>
    rw [parseEntries, if_neg (by omega)]
    rfl
  | succ fuel ih =>
    rw [parseEntries]
    unfold visits
    split
    · rw [List.flatMap_cons, ← ih (by rw [nextEntry]; omega)]
      rfl
    · rfl

theorem regions_takeEntries (enough : limit ≤ entry + fuel) (info : FwInfo) :
    (takeEntries image answers entry limit info).regions =
      info.regions ++
        (visits (nextEntry image) limit fuel entry).filterMap (addedRegion image answers) := by
  induction fuel generalizing entry info with
  | zero =>
    rw [takeEntries, if_neg (by omega)]
    exact (List.append_nil _).symm
  | succ fuel ih =>
    rw [takeEntries]
    unfold visits
    split
    · rw [ih (by rw [nextEntry]; omega), takeEntry, List.append_assoc,
        List.filterMap_cons]
      cases addedRegion image answers entry with
      | none => rfl
      | some region => rfl
    · exact (List.append_nil _).symm

theorem regions_takeFirmwareInfo (offset size : Nat) (info : FwInfo) :
    (takeFirmwareInfo image answers offset size info).regions =
      (reachedEntries image offset size).filterMap (addedRegion image answers) :=
  regions_takeEntries (by rw [← infoLimit]; omega) _

theorem parseFirmwareInfo_inside
    (inside : ∀ entry ∈ reachedEntries image offset size,
      entry + 4 + valueOctets image answers entry ≤ offset + size)
    (recorded : event ∈ (parseFirmwareInfo image answers offset size).log) :
    ∃ place count,
      event = .read place count ∧ offset ≤ place ∧ place + count ≤ offset + size := by
  have enough : infoLimit offset size ≤ offset + (infoLimit offset size + 1) := by omega
  rw [parseFirmwareInfo, ← infoLimit, log_parseEntries enough] at recorded
  obtain ⟨entry, reached, among⟩ := List.mem_flatMap.mp recorded
  have below := inside entry reached
  have behind : offset ≤ entry :=
    le_of_mem_visits (fun place _ => by rw [nextEntry]; omega) reached
  simp only [entryReads, List.mem_cons, List.not_mem_nil, or_false] at among
  rcases among with rfl | rfl | rfl
  · exact ⟨entry, 2, rfl, behind, by omega⟩
  · exact ⟨entry + 4, _, rfl, by omega, below⟩
  · exact ⟨entry + 2, 2, rfl, by omega, by omega⟩

theorem parseExtendedHostTable_inside {answers : TableAnswers} (header : 10 ≤ answers.size)
    (inside : ∀ head ∈ reachedTlvs memory, tlvEnd memory head ≤ answers.size) {read : Read}
    (recorded : read ∈ (parseExtendedHostTable memory fwFlags answers learnt).log) :
    read.1 + read.2 ≤ answers.size := by
  rw [parseExtendedHostTable] at recorded
  split at recorded
  · exact absurd recorded List.not_mem_nil
  · split at recorded
    · exact absurd recorded List.not_mem_nil
    · simp only [Recorded.log_bind, Recorded.log_record, Recorded.log_pure, List.append_nil,
        List.cons_append, List.nil_append, List.mem_cons,
        (parseTlvs_eq (Nat.le_add_left _ _) _).1, List.mem_flatMap] at recorded
      rcases recorded with rfl | rfl | ⟨head, reached, among⟩
      · exact header
      · exact (by decide : 0 + 4 ≤ 10).trans header
      · have below := inside head reached
        rw [tlvEnd] at below
        rw [tlvReads] at among
        cases known : tagAt memory head with
        | none =>
          rw [known] at among below
          rcases List.mem_cons.mp among with rfl | later
          · omega
          · rcases List.mem_singleton.mp later
            omega
        | some tag =>
          rw [known] at among below
          dsimp only [Option.elim_some] at below
          simp only [Option.toList_some, List.map_cons, List.map_nil, List.cons_append,
            List.nil_append, List.mem_cons, List.not_mem_nil, or_false] at among
          rcases among with rfl | rfl | rfl <;> dsimp only <;> omega

end Loops

/-! ## Tables of entries -/

section Entries

variable {memory : Nat → BitVec 8} {counted place : Nat} {entry : Entry} {entries : List Entry}

theorem Entry.length_octets (counted : Nat) (entry : Entry) :
    (entry.octets counted).length = entry.value.length + 4 := by
  rw [Entry.octets, List.length_append, List.length_append, length_leOctets, length_natOctets]
  omega

theorem numbers_of_octets
    (stands : segment memory place (entry.octets counted).length = entry.octets counted)
    (short : entry.value.length + counted < 2 ^ 16) :
    number memory 2 place = entry.tag.toNat ∧
      number memory 2 (place + 2) = entry.value.length + counted ∧
      segment memory (place + 4) entry.value.length = entry.value := by
  obtain ⟨tag, rest⟩ := segment_of_append stands
  obtain ⟨length, value⟩ := segment_of_append rest
  rw [length_leOctets] at tag length value
  rw [length_natOctets] at length value
  refine ⟨?_, ?_, value⟩
  · rw [number, tag, leOctets, octetsNat_natOctets]
    exact Nat.mod_eq_of_lt entry.tag.isLt
  · rw [number, length, octetsNat_natOctets]
    exact Nat.mod_eq_of_lt short

theorem segment_value (value : segment memory (place + 4) entry.value.length = entry.value)
    (inside : skipped + count ≤ entry.value.length) :
    segment memory (place + 4 + skipped) count = (entry.value.drop skipped).take count := by
  rw [← value, take_drop_segment, Nat.min_eq_left (by omega)]

theorem IsHostTable.reached (table : IsHostTable memory size entries) :
    reachedTlvs memory = (placed (Entry.octets 4) 10 entries).map Prod.fst := by
  rw [reachedTlvs, table.length_eq]
  refine visits_eq_placed (fun entry => ?_) ?_ (by omega)
  · exact Nat.succ_pos _
  · intro piece among
    have member := (inside_of_mem_placed among).1
    obtain ⟨-, length, -⟩ :=
      numbers_of_octets (segment_of_mem_placed table.stand among) (table.short _ member)
    rw [nextTlv, length, if_neg (Nat.succ_ne_zero _), Entry.length_octets]

theorem IsHostTable.tlvEnd_le (table : IsHostTable memory size entries) :
    ∀ head ∈ reachedTlvs memory, tlvEnd memory head ≤ size := by
  intro head reached
  rw [table.reached] at reached
  obtain ⟨⟨_, entry⟩, among, rfl⟩ := List.mem_map.mp reached
  obtain ⟨member, -, below⟩ := inside_of_mem_placed among
  obtain ⟨tag, -, -⟩ :=
    numbers_of_octets (segment_of_mem_placed table.stand among) (table.short _ member)
  have covered := table.covers _ member
  have inside := table.inside
  rw [Entry.length_octets] at below
  rw [tlvEnd, tagAt, tag]
  cases known : hostTag entry.tag.toNat with
  | none =>
    dsimp only [Option.elim_none]
    omega
  | some tag =>
    have enough := covered tag known
    dsimp only [Option.elim_some]
    omega

theorem IsHostTable.foldl_reached (table : IsHostTable memory size entries) (learnt : Learnt) :
    (reachedTlvs memory).foldl (fun learnt head => (applyTlv memory learnt head).value) learnt =
      entries.foldl Entry.update learnt := by
  have each : ∀ piece ∈ placed (Entry.octets 4) 10 entries, ∀ learnt,
      (applyTlv memory learnt piece.1).value = piece.2.update learnt := by
    intro piece among learnt
    have member := (inside_of_mem_placed among).1
    obtain ⟨tag, -, value⟩ :=
      numbers_of_octets (segment_of_mem_placed table.stand among) (table.short _ member)
    rw [applyTlv, tagAt, tag, Entry.update]
    cases known : hostTag piece.2.tag.toNat with
    | none => rfl
    | some tag =>
      dsimp only
      rw [← segment_value value (table.covers _ member tag known)]
      rfl
  calc (reachedTlvs memory).foldl (fun learnt head => (applyTlv memory learnt head).value) learnt
    _ = (placed (Entry.octets 4) 10 entries).foldl
        (fun learnt piece => piece.2.update learnt) learnt := by
      rw [table.reached, List.foldl_map]
      exact List.foldl_ext _ _ _ fun learnt piece among => each piece among learnt
    _ = entries.foldl Entry.update learnt := by
      rw [← List.foldl_map, map_snd_placed]

variable {image : Image} {answers : Answers} {offset size : Nat}

namespace IsFwInfo

theorem reached (table : IsFwInfo image.memory offset size entries) :
    reachedEntries image offset size = (placed (Entry.octets 0) offset entries).map Prod.fst := by
  have stand := table.stand
  rw [reachedEntries, infoLimit, if_pos table.small]
  rw [table.size_eq] at stand ⊢
  refine visits_eq_placed (fun entry => ?_) ?_ (by omega)
  · exact Nat.succ_pos _
  · intro piece among
    have member := (inside_of_mem_placed among).1
    obtain ⟨-, length, -⟩ :=
      numbers_of_octets (segment_of_mem_placed stand among) (table.short _ member)
    rw [nextEntry, Entry.length_octets]
    omega

theorem entry_le (table : IsFwInfo image.memory offset size entries) :
    ∀ entry ∈ reachedEntries image offset size,
      entry + 4 + valueOctets image answers entry ≤ offset + size := by
  intro place reached
  rw [table.reached] at reached
  obtain ⟨⟨_, entry⟩, among, rfl⟩ := List.mem_map.mp reached
  obtain ⟨member, -, below⟩ := inside_of_mem_placed among
  have stand := table.stand
  rw [table.size_eq] at stand
  obtain ⟨tag, -, -⟩ := numbers_of_octets (segment_of_mem_placed stand among) (table.short _ member)
  obtain ⟨address, region⟩ := table.covers _ member
  rw [Entry.length_octets, ← table.size_eq] at below
  dsimp only at below ⊢
  rw [valueOctets]
  split
  · next known =>
      omega
  · split
    · next known =>
        split <;> omega
    · omega

theorem regions_eq (table : IsFwInfo image.memory offset size entries)
    (every : ∀ entry, answers.region entry = true) :
    (reachedEntries image offset size).filterMap (addedRegion image answers) =
      entries.filterMap Entry.region := by
  have stand := table.stand
  rw [table.size_eq] at stand
  have each : ∀ piece ∈ placed (Entry.octets 0) offset entries,
      addedRegion image answers piece.1 = piece.2.region := by
    intro piece among
    have member := (inside_of_mem_placed among).1
    obtain ⟨tag, -, value⟩ :=
      numbers_of_octets (segment_of_mem_placed stand among) (table.short _ member)
    rw [addedRegion, tag, every, Entry.region]
    by_cases known : piece.2.tag.toNat = tlvCoredumpMemRegion
    · have enough := (table.covers _ member).2 known
      have part (skipped : Nat) (inside : skipped + 4 ≤ piece.2.value.length) :
          number image.memory 4 (piece.1 + 4 + skipped) =
            octetsNat ((piece.2.value.drop skipped).take 4) := by
        rw [number, segment_value value inside]
      rw [if_pos ⟨known, rfl⟩, if_pos known, regionAt]
      exact congrArg some (congr (congrArg₂ MemRegion.mk (part 0 (by omega)) (part 4 (by omega)))
        (part 8 (by omega)))
    · rw [if_neg fun both => known both.1, if_neg known]
  calc (reachedEntries image offset size).filterMap (addedRegion image answers)
    _ = (placed (Entry.octets 0) offset entries).filterMap fun piece => piece.2.region := by
      rw [table.reached, List.filterMap_map]
      exact List.filterMap_congr each
    _ = entries.filterMap Entry.region := by
      rw [← Function.comp_def, ← List.filterMap_map, map_snd_placed]

end IsFwInfo

end Entries

/-! ## The readers -/

/-- Both readers come to an end, read inside a table of entries and inside any table that has what
they reach, and use each entry once. -/
theorem readsTables : ReadsTables where
  tlvs := fun _ _ _ _ header inside _ recorded =>
    parseExtendedHostTable_inside header inside recorded
  hostTable := by
    intro memory fwFlags answers learnt entries table
    have header : 10 ≤ answers.size := (Nat.le_add_right _ _).trans table.inside
    refine ⟨fun _ recorded => parseExtendedHostTable_inside header table.tlvEnd_le recorded, ?_⟩
    rw [parseExtendedHostTable]
    split
    · next failed => exact fun succeeded => absurd succeeded failed
    · split
      · next failed => exact fun succeeded => absurd succeeded failed
      · intro _
        rw [← table.foldl_reached]
        exact (parseTlvs_eq (Nat.le_add_left _ _) _).2
  entries := fun _ _ _ _ inside _ recorded => parseFirmwareInfo_inside inside recorded
  fwInfo := by
    intro image answers offset size entries table
    refine ⟨fun _ recorded => parseFirmwareInfo_inside table.entry_le recorded, ?_⟩
    intro every info
    rw [regions_takeFirmwareInfo, table.regions_eq every]
  regions := fun _ _ offset size info => regions_takeFirmwareInfo offset size info

/-- The answers when a table of 12 octets is read. -/
def shortTable : TableAnswers where
  hostTable := 0
  pointerStatus := 0
  pointer := 0x80001000
  lengthStatus := 0
  length := 12
  buffer := true
  tableStatus := 0
  pointerOffset := 0
  lengthOffset := 0

/-- A section of 16 octets with one memory region. -/
def oneRegion : Image where
  memory := fun index => if index = 0 then 2 else if index = 2 then 12 else 0
  size := 16
  size_lt := by decide

/-- A tag at the end of the extended table is enough to read behind it, and without the memory of
the chip in the core dumps no region is kept. -/
theorem not_readsTables_always :
    (∃ read ∈ (parseExtendedHostTable (fun index => if index = 0 then 12 else 0) 0 shortTable
        ⟨[], [], [], 0, 0, false, none, 0, 0, 0, 0⟩).log, shortTable.size < read.1 + read.2) ∧
      (takeFirmwareInfo oneRegion ⟨true, fun _ => 0, 0, fun _ => false, 0⟩ 0 16 ⟨0, []⟩).regions ≠
        [regionAt oneRegion.memory 0] := by
  constructor
  · rw [parseExtendedHostTable, if_neg (by decide), if_neg (by decide)]
    simp only [Recorded.log_bind, Recorded.log_record, (parseTlvs_eq (Nat.le_add_left _ _) _).1]
    decide
  · rw [regions_takeFirmwareInfo]
    decide

end Firmware
end Morse
