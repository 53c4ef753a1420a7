import Morse.Firmware.Defs

/-!
# The download of the firmware

`morse_firmware_load` goes through the program headers of an image, copies each segment that it
takes into the bounce buffer and writes it to the chip.  Then it looks through the sections for
the firmware information, and sets the boot address.

The download is what its callers rely on exactly when the segments it takes lie inside the file
with their padding, as does what it reads of the sections, and when it either reports a failure
or has taken every segment of the chip's memory and written it.
-/

namespace Morse
namespace Firmware

open Lib

/-- `morse_elf_phdr`, as far as it is read. -/
structure SegmentHeader where
  type : Nat
  offset : Nat
  paddr : Nat
  filesz : Nat
  memsz : Nat
  deriving DecidableEq

/-- Where the header of a segment stands. -/
def FileHeader.segmentAt (header : FileHeader) (index : Nat) : Nat :=
  header.phoff + index * header.phentsize

/-- The fields of a program header. -/
def segmentHeader
    (memory : Nat → BitVec 8)
    (header : FileHeader)
    (index : Nat) : SegmentHeader where
  type := number memory 4 (header.segmentAt index)
  offset := number memory 4 (header.segmentAt index + 4)
  paddr := number memory 4 (header.segmentAt index + 12)
  filesz := number memory 4 (header.segmentAt index + 16)
  memsz := number memory 4 (header.segmentAt index + 20)

/-- `PT_LOAD`. -/
def ptLoad : Nat := 1

/-- `IFLASH_BASE_ADDR`. -/
def iflashBaseAddr : Nat := 0x400000

/-- `DFLASH_BASE_ADDR`. -/
def dflashBaseAddr : Nat := 0xc00000

/-- What the bus, the allocator and the settings answer to one download. -/
structure Answers where
  /-- Whether there is memory for the bounce buffer. -/
  buffer : Bool
  /-- The status of writing each segment. -/
  write : Nat → Int
  /-- The status of writing the boot address. -/
  boot : Int
  /-- Whether a memory region described at some place is included and allocated. -/
  region : Nat → Bool
  /-- `MORSE_REG_BOOT_ADDR`. -/
  bootAddr : Nat

/-- A segment that goes through neither of the first two tests is skipped. -/
def SegmentHeader.loaded (segment : SegmentHeader) : Bool :=
  !(segment.paddr == iflashBaseAddr || segment.paddr == dflashBaseAddr) &&
    !(segment.type != ptLoad || segment.memsz == 0)

/-- The test before a segment is copied, in 32-bit arithmetic. -/
def SegmentHeader.copied (segment : SegmentHeader) (size : Nat) : Bool :=
  segment.filesz != 0 && segment.offset != 0 &&
    decide ((segment.offset + segment.filesz) % 2 ^ 32 < size)

/-- What the bounce buffer holds of a segment: its octets in the file, and `0xff` after them. -/
def bounced (memory : Nat → BitVec 8) (segment : SegmentHeader) : List (BitVec 8) :=
  Lib.segment
    (fun index => if index < segment.filesz then memory (segment.offset + index) else 0xff)
    0 (roundBytesToWord segment.filesz)

/-- One turn of the loop over the program headers: whether it breaks the loop. -/
def loadSegment
    (image : Image)
    (answers : Answers)
    (header : FileHeader)
    (index : Nat) : Recorded Event Bool := do
  Recorded.record (.read (header.segmentAt index) 24)
  let segment := segmentHeader image.memory header index
  if segment.loaded && segment.copied image.size then do
    let padded := roundBytesToWord segment.filesz
    Recorded.record (.read segment.offset padded)
    Recorded.record (.fill 0 padded)
    Recorded.record (.fill segment.filesz ((padded + 2 ^ 32 - segment.filesz) % 2 ^ 32))
    Recorded.record .claimBus
    Recorded.record (.dmWrite index segment.paddr (bounced image.memory segment)
      (answers.write index))
    Recorded.record .releaseBus
    pure (answers.write index != 0)
  else pure false

/-- `.fw_info` with its end, as it is compared. -/
def fwInfoName : List (BitVec 8) := [0x2e, 0x66, 0x77, 0x5f, 0x69, 0x6e, 0x66, 0x6f, 0]

/-- `MORSE_FW_INFO_TLV_BCF_ADDR`. -/
def tlvBcfAddr : Nat := 1

/-- `MORSE_FW_INFO_TLV_COREDUMP_MEM_REGION`. -/
def tlvCoredumpMemRegion : Nat := 2

/-- How many octets are read of the value of an entry. -/
def valueOctets (image : Image) (answers : Answers) (entry : Nat) : Nat :=
  if number image.memory 2 entry = tlvBcfAddr then 4
  else if number image.memory 2 entry = tlvCoredumpMemRegion then
    if answers.region entry then 12 else 0
  else 0

/-- The entry behind an entry. -/
def nextEntry (image : Image) (entry : Nat) : Nat :=
  entry + number image.memory 2 (entry + 2) + 4

/-- The loop of `morse_parse_firmware_info`. -/
def parseEntries (image : Image) (answers : Answers) (entry limit : Nat) :
    Recorded Event Unit :=
  if entry < limit then do
    Recorded.record (.read entry 2)
    Recorded.record (.read (entry + 4) (valueOctets image answers entry))
    Recorded.record (.read (entry + 2) 2)
    parseEntries image answers (nextEntry image entry) limit
  else pure ⟨⟩
  termination_by limit - entry
  decreasing_by
    rw [nextEntry]
    omega

/-- `morse_parse_firmware_info`: the length is taken for a signed number. -/
def parseFirmwareInfo (image : Image) (answers : Answers) (offset size : Nat) :
    Recorded Event Unit :=
  parseEntries image answers offset (if size < 2 ^ 31 then offset + size else 0)

/-- One turn of the loop over the sections. -/
def loadSection
    (image : Image)
    (answers : Answers)
    (header : FileHeader)
    (strings index : Nat) : Recorded Event Unit := do
  let target ← getSectionHeader image.memory header index
  if ← strncmp image.memory (strings + target.name) fwInfoName then
    parseFirmwareInfo image answers target.offset target.size
  else pure ⟨⟩

/-- `morse_set_boot_addr`. -/
def setBootAddr (answers : Answers) (entry : Nat) : Recorded Event Int := do
  Recorded.record .claimBus
  Recorded.record (.reg32Write answers.bootAddr entry answers.boot)
  Recorded.record .releaseBus
  pure answers.boot

/-- `morse_firmware_load` after the headers of the file and of the table of names. -/
def loadImage (image : Image) (answers : Answers) (header : FileHeader) (strings : Nat) :
    Recorded Event Int := do
  let failed ← Recorded.loopUntil (loadSegment image answers header) 0 header.phnum
  Recorded.loop (loadSection image answers header strings) 0 header.shnum
  if header.entry != 0 then setBootAddr answers header.entry
  else pure (if failed then -1 else 0)

/-- `morse_firmware_load`. -/
def firmwareLoad (image : Image) (answers : Answers) : Recorded Event Int :=
  if answers.buffer then do
    match ← getFileHeader image.memory with
    | none => pure (-1)
    | some header => do
        let names ← getSectionHeader image.memory header header.shstrndx
        loadImage image answers header names.offset
  else pure (-12)

/-! ## What is relied on -/

/-- The file header of an image. -/
def Image.header (image : Image) : FileHeader := fileHeader image.memory

/-- A program header of an image. -/
def Image.segment (image : Image) (index : Nat) : SegmentHeader :=
  segmentHeader image.memory image.header index

/-- The header of the table of section names. -/
def Image.names (image : Image) : SectionHeader :=
  sectionHeader image.memory image.header image.header.shstrndx

/-- A segment that has to be written to the chip. -/
def SegmentHeader.required (segment : SegmentHeader) : Bool :=
  segment.loaded && segment.filesz != 0

/-- What has to be written of a segment: its octets in the file, padded to a word. -/
def wanted (memory : Nat → BitVec 8) (segment : SegmentHeader) : List (BitVec 8) :=
  Lib.segment memory segment.offset segment.filesz ++
    List.replicate (roundSizeToWord segment.filesz - segment.filesz) 0xff

/-- What is read of the image lies inside it. -/
def ReadsInside (image : Image) (log : List Event) : Prop :=
  ∀ offset length, .read offset length ∈ log → length = 0 ∨ offset + length ≤ image.size

/-- What is written of the bounce buffer lies inside it. -/
def FillsInside (image : Image) (log : List Event) : Prop :=
  ∀ offset length, .fill offset length ∈ log →
    length = 0 ∨ offset + length ≤ roundSizeToWord image.size

/-- Some write of the log failed. -/
def SomeWriteFailed (log : List Event) : Prop :=
  (∃ turn address data status, .dmWrite turn address data status ∈ log ∧ status ≠ 0) ∨
    ∃ address value status, .reg32Write address value status ∈ log ∧ status ≠ 0

/-- A download stays inside its buffers and reports success only when every required segment
was written completely; a segment that does not fit in the file and a failed write are
reported. -/
structure Downloaded (image : Image) (answers : Answers) : Prop where
  reads : ReadsInside image (firmwareLoad image answers).log
  fills : FillsInside image (firmwareLoad image answers).log
  complete : (firmwareLoad image answers).value = 0 →
    ∀ index, index < image.header.phnum →
      (image.segment index).required = true →
      .dmWrite index (image.segment index).paddr (wanted image.memory (image.segment index)) 0 ∈
        (firmwareLoad image answers).log
  unfit : (∃ index, index < image.header.phnum ∧
      (image.segment index).required = true ∧
      image.size < (image.segment index).offset + (image.segment index).filesz) →
    (firmwareLoad image answers).value ≠ 0
  failed : SomeWriteFailed (firmwareLoad image answers).log →
    (firmwareLoad image answers).value ≠ 0

/-- The segment of a program header is copied and written, if the loop gets there. -/
def Taken (image : Image) (index : Nat) : Prop :=
  ((image.segment index).loaded && (image.segment index).copied image.size) = true

/-- The loop over the program headers gets to one of them. -/
def Reached (image : Image) (answers : Answers) (index : Nat) : Prop :=
  ∀ earlier, earlier < index → Taken image earlier → answers.write earlier = 0

/-- The entries of the firmware information that are visited lie inside the file. -/
def EntriesInside (image : Image) (answers : Answers) (entry limit : Nat) : Prop :=
  if entry < limit then
    entry + 4 + valueOctets image answers entry ≤ image.size ∧
      EntriesInside image answers (nextEntry image entry) limit
  else True
  termination_by limit - entry
  decreasing_by
    rw [nextEntry]
    omega

/-- The name of a section lies inside the file as far as it is compared, and so does the
firmware information that it may be. -/
def SectionInside (image : Image) (answers : Answers) (strings : Nat) (target : SectionHeader) :
    Prop :=
  strings + target.name + comparedOctets image.memory (strings + target.name) fwInfoName ≤
      image.size ∧
    (Lib.segment image.memory (strings + target.name) fwInfoName.length = fwInfoName →
      EntriesInside image answers target.offset
        (if target.size < 2 ^ 31 then target.offset + target.size else 0))

/-- When a download does what is relied on. -/
structure Loads (image : Image) (answers : Answers) : Prop where
  /-- The segments that are copied lie inside the file with their padding. -/
  segments : ∀ index, index < image.header.phnum → Taken image index →
    Reached image answers index →
    (image.segment index).offset + roundSizeToWord (image.segment index).filesz ≤ image.size
  /-- So does what is read of the sections. -/
  sections : ∀ index, index < image.header.shnum →
    SectionInside image answers
      image.names.offset (sectionHeader image.memory image.header index)
  /-- The write that decides the result fails, or all that is required is taken and written. -/
  written : (image.header.entry ≠ 0 ∧ answers.boot ≠ 0) ∨
    (image.header.entry = 0 ∧ ∃ index, index < image.header.phnum ∧
      Taken image index ∧ answers.write index ≠ 0) ∨
    ∀ index, index < image.header.phnum →
      (image.segment index).required = true →
      Taken image index ∧ answers.write index = 0

/-! ## What is recorded -/

theorem roundBytesToWord_eq (small : bytes + 3 < 2 ^ 32) :
    roundBytesToWord bytes = roundSizeToWord bytes := by
  rw [roundBytesToWord, roundSizeToWord, Nat.mod_eq_of_lt small]

theorem loadSegment_eq (image : Image) (answers : Answers) (index : Nat) :
    loadSegment image answers image.header index = (do
      Recorded.record (.read (image.header.segmentAt index) 24)
      if (image.segment index).loaded && (image.segment index).copied image.size then do
        Recorded.record (.read (image.segment index).offset
          (roundBytesToWord (image.segment index).filesz))
        Recorded.record (.fill 0 (roundBytesToWord (image.segment index).filesz))
        Recorded.record (.fill (image.segment index).filesz
          ((roundBytesToWord (image.segment index).filesz + 2 ^ 32 -
            (image.segment index).filesz) % 2 ^ 32))
        Recorded.record .claimBus
        Recorded.record (.dmWrite index (image.segment index).paddr
          (bounced image.memory (image.segment index)) (answers.write index))
        Recorded.record .releaseBus
        pure (answers.write index != 0)
      else pure false) := rfl

theorem value_loadSegment (image : Image) (answers : Answers) (index : Nat) :
    (loadSegment image answers image.header index).value = true ↔
      Taken image index ∧ answers.write index ≠ 0 := by
  rw [loadSegment_eq, Taken]
  split
  · next taken => simp [taken]
  · next passed => simp [passed]

theorem reached_iff (image : Image) (answers : Answers) (index : Nat) :
    (∀ earlier, earlier < index →
      (loadSegment image answers image.header earlier).value = false) ↔
      Reached image answers index := by
  refine forall_congr' fun earlier => ?_
  have broken := value_loadSegment image answers earlier
  constructor
  · intro unbroken below taken
    by_contra wrong
    rw [unbroken below] at broken
    exact Bool.false_ne_true (broken.mpr ⟨taken, wrong⟩)
  · intro succeeded below
    rw [← Bool.not_eq_true, broken]
    rintro ⟨taken, wrong⟩
    exact wrong (succeeded below taken)

theorem mem_log_loadSegment :
    event ∈ (loadSegment image answers image.header index).log ↔
      event = .read (image.header.segmentAt index) 24 ∨
        (Taken image index ∧
          (event = .read (image.segment index).offset
              (roundBytesToWord (image.segment index).filesz) ∨
            event = .fill 0 (roundBytesToWord (image.segment index).filesz) ∨
            event = .fill (image.segment index).filesz
              ((roundBytesToWord (image.segment index).filesz + 2 ^ 32 -
                (image.segment index).filesz) % 2 ^ 32) ∨
            event = .claimBus ∨
            event = .dmWrite index (image.segment index).paddr
              (bounced image.memory (image.segment index)) (answers.write index) ∨
            event = .releaseBus)) := by
  rw [loadSegment_eq, Taken]
  split
  · next taken => simp [taken]
  · next passed => simp [passed]

theorem fill_end (positive : filesz ≠ 0) (bounded : filesz < 2 ^ 32) (small : size < 2 ^ 31) :
    (offset + roundSizeToWord filesz ≤ size) ↔
      (roundBytesToWord filesz = 0 ∨ offset + roundBytesToWord filesz ≤ size) ∧
        (roundBytesToWord filesz = 0 ∨ 0 + roundBytesToWord filesz ≤ roundSizeToWord size) ∧
        ((roundBytesToWord filesz + 2 ^ 32 - filesz) % 2 ^ 32 = 0 ∨
          filesz + (roundBytesToWord filesz + 2 ^ 32 - filesz) % 2 ^ 32 ≤
            roundSizeToWord size) := by
  rw [roundBytesToWord, roundSizeToWord, roundSizeToWord]
  omega

/-- What an event reads or writes of a buffer lies inside it. -/
def Event.Inside (image : Image) : Event → Prop
  | .read offset length => length = 0 ∨ offset + length ≤ image.size
  | .fill offset length => length = 0 ∨ offset + length ≤ roundSizeToWord image.size
  | _ => True

theorem inside_iff (image : Image) (log : List Event) :
    (∀ event ∈ log, event.Inside image) ↔ ReadsInside image log ∧ FillsInside image log := by
  constructor
  · intro inside
    exact ⟨fun offset length recorded => inside _ recorded,
      fun offset length recorded => inside _ recorded⟩
  · rintro ⟨reads, fills⟩ event recorded
    cases event with
    | read offset length => exact reads offset length recorded
    | fill offset length => exact fills offset length recorded
    | _ => trivial

theorem inside_loadSegment (table : image.header.segmentAt index + 32 ≤ image.size) :
    (∀ event ∈ (loadSegment image answers image.header index).log, event.Inside image) ↔
      (Taken image index →
        (image.segment index).offset + roundSizeToWord (image.segment index).filesz ≤
          image.size) := by
  have bounded : (image.segment index).filesz < 2 ^ 32 := number_lt _ 4 _
  constructor
  · intro inside taken
    have positive : (image.segment index).filesz ≠ 0 := by
      simp only [Taken, SegmentHeader.copied, Bool.and_eq_true, bne_iff_ne] at taken
      exact taken.2.1.1
    rw [fill_end positive bounded image.size_lt]
    refine ⟨inside _ (mem_log_loadSegment.mpr (Or.inr ⟨taken, Or.inl rfl⟩)),
      inside _ (mem_log_loadSegment.mpr (Or.inr ⟨taken, Or.inr (Or.inl rfl)⟩)),
      inside _ (mem_log_loadSegment.mpr (Or.inr ⟨taken, Or.inr (Or.inr (Or.inl rfl))⟩))⟩
  · intro fits event recorded
    rcases mem_log_loadSegment.mp recorded with rfl | ⟨taken, recorded⟩
    · refine Or.inr ?_
      omega
    · have positive : (image.segment index).filesz ≠ 0 := by
        simp only [Taken, SegmentHeader.copied, Bool.and_eq_true, bne_iff_ne] at taken
        exact taken.2.1.1
      obtain ⟨read, whole, padding⟩ := (fill_end positive bounded image.size_lt).mp (fits taken)
      rcases recorded with rfl | rfl | rfl | rfl | rfl | rfl
      · exact read
      · exact whole
      · exact padding
      · trivial
      · trivial
      · trivial

theorem inside_parseEntries (image : Image) (answers : Answers) (entry limit : Nat) :
    (∀ event ∈ (parseEntries image answers entry limit).log, event.Inside image) ↔
      EntriesInside image answers entry limit := by
  induction entry using parseEntries.induct image limit with
  | case1 entry more ih =>
    rw [parseEntries, EntriesInside, if_pos more, if_pos more, ← ih]
    simp only [Recorded.log_bind, Recorded.log_record, List.mem_append, List.mem_singleton,
      or_imp, forall_and, forall_eq, Event.Inside]
    constructor
    · rintro ⟨first, value, second, others⟩
      exact ⟨by omega, others⟩
    · rintro ⟨inside, others⟩
      exact ⟨by omega, by omega, by omega, others⟩
  | case2 entry done =>
    rw [parseEntries, EntriesInside, if_neg done, if_neg done]
    simp

theorem reads_parseEntries (recorded : event ∈ (parseEntries image answers entry limit).log) :
    ∃ offset length, event = .read offset length := by
  induction entry using parseEntries.induct image limit with
  | case1 entry more ih =>
    rw [parseEntries, if_pos more] at recorded
    simp only [Recorded.log_bind, Recorded.log_record, List.mem_append,
      List.mem_singleton] at recorded
    rcases recorded with rfl | rfl | rfl | recorded
    · exact ⟨_, _, rfl⟩
    · exact ⟨_, _, rfl⟩
    · exact ⟨_, _, rfl⟩
    · exact ih recorded
  | case2 entry done =>
    rw [parseEntries, if_neg done] at recorded
    cases recorded

theorem comparedOctets_pos (memory : Nat → BitVec 8) (address : Nat) (octet : BitVec 8)
    (text : List (BitVec 8)) :
    0 < comparedOctets memory address (octet :: text) := by
  rw [comparedOctets]
  split
  · omega
  · omega

theorem inside_loadSection (table : image.header.sectionAt index + 40 ≤ image.size) :
    (∀ event ∈ (loadSection image answers image.header strings index).log,
      event.Inside image) ↔
      SectionInside image answers strings (sectionHeader image.memory image.header index) := by
  have some := comparedOctets_pos image.memory
    (strings + (sectionHeader image.memory image.header index).name) 0x2e
    [0x66, 0x77, 0x5f, 0x69, 0x6e, 0x66, 0x6f, 0]
  rw [← fwInfoName] at some
  rw [SectionInside, ← inside_parseEntries]
  simp only [loadSection, getSectionHeader, strncmp, Recorded.log_bind, Recorded.value_bind,
    Recorded.log_record, Recorded.value_pure, Recorded.log_pure, List.mem_append,
    List.mem_singleton, List.append_nil, decide_eq_true_eq, or_imp, forall_and, forall_eq,
    Event.Inside]
  constructor
  · rintro ⟨-, name, entries⟩
    refine ⟨by omega, fun same => ?_⟩
    rw [if_pos same] at entries
    exact entries
  · rintro ⟨name, entries⟩
    refine ⟨Or.inr (by omega), Or.inr name, ?_⟩
    split
    · next same => exact entries same
    · simp

theorem reads_loadSection
    (recorded : event ∈ (loadSection image answers header strings index).log) :
    ∃ offset length, event = .read offset length := by
  simp only [loadSection, getSectionHeader, strncmp, Recorded.log_bind, Recorded.value_bind,
    Recorded.log_record, Recorded.value_pure, Recorded.log_pure, List.mem_append,
    List.mem_singleton, List.append_nil, decide_eq_true_eq] at recorded
  rcases recorded with rfl | rfl | recorded
  · exact ⟨_, _, rfl⟩
  · exact ⟨_, _, rfl⟩
  · split at recorded
    · exact reads_parseEntries recorded
    · cases recorded

section Run

variable {image : Image} {answers : Answers}

theorem firmwareLoad_of_bad (bad : answers.buffer = false ∨ goodMagic image.memory = false) :
    (firmwareLoad image answers).value ≠ 0 ∧
      ∀ event ∈ (firmwareLoad image answers).log, event = .read 0 6 := by
  unfold firmwareLoad
  split
  · next buffer =>
      rcases bad with missing | magic
      · rw [missing] at buffer
        cases buffer
      · simp [getFileHeader, magic]
  · simp

theorem firmwareLoad_of_good (buffer : answers.buffer = true)
    (magic : goodMagic image.memory = true) :
    firmwareLoad image answers = (do
      Recorded.record (.read 0 6)
      Recorded.record (.read 24 28)
      Recorded.record (.read (image.header.sectionAt image.header.shstrndx) 24)
      loadImage image answers image.header image.names.offset) := by
  rw [firmwareLoad, if_pos buffer, getFileHeader, if_pos magic]
  rfl

theorem value_firmwareLoad (buffer : answers.buffer = true)
    (magic : goodMagic image.memory = true) :
    (firmwareLoad image answers).value = 0 ↔
      (image.header.entry ≠ 0 ∧ answers.boot = 0) ∨
        (image.header.entry = 0 ∧ ∀ index, index < image.header.phnum → Taken image index →
          answers.write index = 0) := by
  rw [firmwareLoad_of_good buffer magic]
  simp only [Recorded.value_bind, loadImage]
  by_cases start : image.header.entry = 0
  · rw [if_neg (by simp [start])]
    have broken := @Recorded.value_loopUntil Event (loadSegment image answers image.header) 0
      image.header.phnum
    cases failed : (Recorded.loopUntil (loadSegment image answers image.header) 0
        image.header.phnum).value with
    | true =>
      obtain ⟨index, -, below, breaks⟩ := broken.mp failed
      obtain ⟨taken, wrong⟩ := (value_loadSegment image answers index).mp breaks
      constructor
      · intro zero
        cases zero
      · rintro (⟨other, -⟩ | ⟨-, right⟩)
        · exact absurd start other
        · exact absurd (right index (by omega) taken) wrong
    | false =>
      refine ⟨fun _ => Or.inr ⟨start, fun index below taken => ?_⟩, fun _ => rfl⟩
      by_contra wrong
      have breaks := (value_loadSegment image answers index).mpr ⟨taken, wrong⟩
      rw [broken.mpr ⟨index, Nat.zero_le _, by omega, breaks⟩] at failed
      cases failed
  · simp [setBootAddr, start]

theorem mem_log_firmwareLoad (buffer : answers.buffer = true)
    (magic : goodMagic image.memory = true) :
    event ∈ (firmwareLoad image answers).log ↔
      (event = .read 0 6 ∨ event = .read 24 28 ∨
        event = .read (image.header.sectionAt image.header.shstrndx) 24) ∨
      (∃ index, index < image.header.phnum ∧ Reached image answers index ∧
        event ∈ (loadSegment image answers image.header index).log) ∨
      (∃ index, index < image.header.shnum ∧
        event ∈ (loadSection image answers image.header image.names.offset index).log) ∨
      (image.header.entry ≠ 0 ∧ (event = .claimBus ∨
        event = .reg32Write answers.bootAddr image.header.entry answers.boot ∨
        event = .releaseBus)) := by
  have boot : event ∈ (if image.header.entry != 0 then setBootAddr answers image.header.entry
      else pure (if (Recorded.loopUntil (loadSegment image answers image.header) 0
        image.header.phnum).value then -1 else 0)).log ↔
      (image.header.entry ≠ 0 ∧ (event = .claimBus ∨
        event = .reg32Write answers.bootAddr image.header.entry answers.boot ∨
        event = .releaseBus)) := by
    by_cases start : image.header.entry = 0
    · simp [start]
    · simp [start, setBootAddr]
  rw [firmwareLoad_of_good buffer magic]
  simp only [Recorded.log_bind, Recorded.log_record, loadImage, List.mem_append,
    List.mem_singleton, boot, Recorded.mem_log_loopUntil, Recorded.mem_log_loop, Nat.zero_le,
    true_and, true_implies, Nat.zero_add, reached_iff, or_assoc]

theorem dmWrite_mem_iff (buffer : answers.buffer = true) (magic : goodMagic image.memory = true) :
    .dmWrite turn address data status ∈ (firmwareLoad image answers).log ↔
      turn < image.header.phnum ∧ Reached image answers turn ∧ Taken image turn ∧
        address = (image.segment turn).paddr ∧
        data = bounced image.memory (image.segment turn) ∧ status = answers.write turn := by
  have apart : ¬ ∃ index, index < image.header.shnum ∧ .dmWrite turn address data status ∈
      (loadSection image answers image.header image.names.offset index).log := by
    rintro ⟨index, -, recorded⟩
    obtain ⟨offset, length, other⟩ := reads_loadSection recorded
    cases other
  rw [mem_log_firmwareLoad buffer magic]
  simp only [apart, mem_log_loadSegment, reduceCtorEq, Event.dmWrite.injEq, or_false, false_or,
    and_false]
  constructor
  · rintro ⟨index, below, reached, taken, rfl, rest⟩
    exact ⟨below, reached, taken, rest⟩
  · rintro ⟨below, reached, taken, rest⟩
    exact ⟨turn, below, reached, taken, rfl, rest⟩

theorem reg32Write_mem_iff (buffer : answers.buffer = true)
    (magic : goodMagic image.memory = true) :
    .reg32Write address value status ∈ (firmwareLoad image answers).log ↔
      image.header.entry ≠ 0 ∧ address = answers.bootAddr ∧ value = image.header.entry ∧
        status = answers.boot := by
  have apart : ¬ ∃ index, index < image.header.shnum ∧ .reg32Write address value status ∈
      (loadSection image answers image.header image.names.offset index).log := by
    rintro ⟨index, -, recorded⟩
    obtain ⟨offset, length, other⟩ := reads_loadSection recorded
    cases other
  rw [mem_log_firmwareLoad buffer magic]
  simp only [apart, mem_log_loadSegment, reduceCtorEq, Event.reg32Write.injEq, or_false, false_or,
    and_false, exists_const]

theorem someWriteFailed_iff (buffer : answers.buffer = true)
    (magic : goodMagic image.memory = true) :
    SomeWriteFailed (firmwareLoad image answers).log ↔
      (∃ index, index < image.header.phnum ∧ Reached image answers index ∧
        Taken image index ∧ answers.write index ≠ 0) ∨
      (image.header.entry ≠ 0 ∧ answers.boot ≠ 0) := by
  simp only [SomeWriteFailed, dmWrite_mem_iff buffer magic, reg32Write_mem_iff buffer magic]
  constructor
  · rintro (⟨turn, -, -, -, ⟨below, reached, taken, -, -, rfl⟩, wrong⟩ |
      ⟨-, -, -, ⟨start, -, -, rfl⟩, wrong⟩)
    · exact Or.inl ⟨turn, below, reached, taken, wrong⟩
    · exact Or.inr ⟨start, wrong⟩
  · rintro (⟨turn, below, reached, taken, wrong⟩ | ⟨start, wrong⟩)
    · exact Or.inl ⟨turn, _, _, _, ⟨below, reached, taken, rfl, rfl, rfl⟩, wrong⟩
    · exact Or.inr ⟨_, _, _, ⟨start, rfl, rfl, rfl⟩, wrong⟩

theorem required_of_taken (taken : Taken image index) :
    (image.segment index).required = true := by
  simp only [Taken, SegmentHeader.copied, Bool.and_eq_true] at taken
  rw [SegmentHeader.required, Bool.and_eq_true]
  exact ⟨taken.1, taken.2.1.1⟩

theorem bounced_eq
    (fits : (image.segment index).offset + roundSizeToWord (image.segment index).filesz ≤
      image.size) :
    bounced image.memory (image.segment index) = wanted image.memory (image.segment index) := by
  have small := image.size_lt
  have above : (image.segment index).filesz ≤ roundSizeToWord (image.segment index).filesz := by
    rw [roundSizeToWord]
    omega
  have same : roundBytesToWord (image.segment index).filesz =
      roundSizeToWord (image.segment index).filesz := by
    refine roundBytesToWord_eq ?_
    omega
  obtain ⟨padding, rest⟩ := Nat.exists_eq_add_of_le above
  rw [bounced, wanted, same, rest, Nat.add_sub_cancel_left, segment_filled]

theorem inside_firmwareLoad (buffer : answers.buffer = true) (magic : goodMagic image.memory = true)
    (tables : TablesInside image image.header) :
    (∀ event ∈ (firmwareLoad image answers).log, event.Inside image) ↔
      (∀ index, index < image.header.phnum → Taken image index → Reached image answers index →
        (image.segment index).offset + roundSizeToWord (image.segment index).filesz ≤
          image.size) ∧
      ∀ index, index < image.header.shnum → SectionInside image answers image.names.offset
        (sectionHeader image.memory image.header index) := by
  have file := tables.file
  constructor
  · intro inside
    refine ⟨fun index below taken reached => ?_, fun index below => ?_⟩
    · refine (@inside_loadSegment _ answers _ (tables.segments index below)).mp ?_ taken
      exact fun event recorded => inside event ((mem_log_firmwareLoad buffer magic).mpr
        (Or.inr (Or.inl ⟨index, below, reached, recorded⟩)))
    · refine (@inside_loadSection _ answers _ _ (tables.sections index (Or.inl below))).mp ?_
      exact fun event recorded => inside event ((mem_log_firmwareLoad buffer magic).mpr
        (Or.inr (Or.inr (Or.inl ⟨index, below, recorded⟩))))
  · rintro ⟨segments, sections⟩ event recorded
    rcases (mem_log_firmwareLoad buffer magic).mp recorded with
      (rfl | rfl | rfl) | ⟨index, below, reached, recorded⟩ | ⟨index, below, recorded⟩ |
        ⟨-, rfl | rfl | rfl⟩
    · exact Or.inr (by omega)
    · exact Or.inr (by omega)
    · have names := tables.sections _ (Or.inr rfl)
      exact Or.inr (by omega)
    · exact (inside_loadSegment (tables.segments index below)).mpr
        (fun taken => segments index below taken reached) event recorded
    · exact (inside_loadSection (tables.sections index (Or.inl below))).mpr
        (sections index below) event recorded
    · trivial
    · trivial
    · trivial

theorem reached_of_written
    (written : ∀ index, index < image.header.phnum → (image.segment index).required = true →
      Taken image index ∧ answers.write index = 0)
    (below : index < image.header.phnum) :
    Reached image answers index :=
  fun earlier before taken => (written earlier (by omega) (required_of_taken taken)).2

theorem Loads.written_of_success (loads : Loads image answers) (buffer : answers.buffer = true)
    (magic : goodMagic image.memory = true) (success : (firmwareLoad image answers).value = 0) :
    ∀ index, index < image.header.phnum → (image.segment index).required = true →
      Taken image index ∧ answers.write index = 0 := by
  rcases (value_firmwareLoad buffer magic).mp success with ⟨start, right⟩ | ⟨start, right⟩
  · rcases loads.written with ⟨-, wrong⟩ | ⟨other, -⟩ | written
    · exact absurd right wrong
    · exact absurd other start
    · exact written
  · rcases loads.written with ⟨other, -⟩ | ⟨-, index, below, taken, wrong⟩ | written
    · exact absurd start other
    · exact absurd (right index below taken) wrong
    · exact written

end Run

/-- For an image whose header tables lie inside the file, a download does what is relied on
exactly when there is no buffer, the image is refused, or it loads. -/
theorem downloaded_iff_loads (image : Image) (answers : Answers)
    (tables : TablesInside image image.header) :
    Downloaded image answers ↔
      (answers.buffer = true → goodMagic image.memory = true → Loads image answers) := by
  constructor
  · intro downloaded buffer magic
    have inside := (inside_iff image _).mpr ⟨downloaded.reads, downloaded.fills⟩
    obtain ⟨segments, sections⟩ := (inside_firmwareLoad buffer magic tables).mp inside
    refine ⟨segments, sections, ?_⟩
    by_cases success : (firmwareLoad image answers).value = 0
    · refine Or.inr (Or.inr fun index below required => ?_)
      have recorded := downloaded.complete success index below required
      obtain ⟨-, -, taken, -, -, right⟩ := (dmWrite_mem_iff buffer magic).mp recorded
      exact ⟨taken, right.symm⟩
    · rw [value_firmwareLoad buffer magic, not_or] at success
      obtain ⟨first, second⟩ := success
      by_cases start : image.header.entry = 0
      · refine Or.inr (Or.inl ⟨start, ?_⟩)
        by_contra none
        exact second ⟨start, fun index below taken => by_contra fun wrong =>
          none ⟨index, below, taken, wrong⟩⟩
      · exact Or.inl ⟨start, fun right => first ⟨start, right⟩⟩
  · intro condition
    by_cases good : answers.buffer = true ∧ goodMagic image.memory = true
    · obtain ⟨buffer, magic⟩ := good
      have loads := condition buffer magic
      have written := loads.written_of_success buffer magic
      obtain ⟨reads, fills⟩ := (inside_iff image _).mp
        ((inside_firmwareLoad buffer magic tables).mpr ⟨loads.segments, loads.sections⟩)
      refine ⟨reads, fills, fun success index below required => ?_,
        ?_, fun failed success => ?_⟩
      · obtain ⟨taken, right⟩ := written success index below required
        have reached := reached_of_written (written success) below
        refine (dmWrite_mem_iff buffer magic).mpr ⟨below, reached, taken, rfl, ?_, right.symm⟩
        exact (bounced_eq (loads.segments index below taken reached)).symm
      · rintro ⟨index, below, required, large⟩ success
        obtain ⟨taken, right⟩ := written success index below required
        have fits := loads.segments index below taken
          (reached_of_written (written success) below)
        rw [roundSizeToWord] at fits
        omega
      · rcases (someWriteFailed_iff buffer magic).mp failed with
          ⟨index, below, -, taken, wrong⟩ | ⟨start, wrong⟩
        · exact wrong (written success index below (required_of_taken taken)).2
        · rcases (value_firmwareLoad buffer magic).mp success with ⟨-, right⟩ | ⟨other, -⟩
          · exact wrong right
          · exact start other
    · have bad : answers.buffer = false ∨ goodMagic image.memory = false := by
        rcases Bool.eq_false_or_eq_true answers.buffer with buffer | buffer
        · exact Or.inr (Bool.eq_false_iff.mpr fun magic => good ⟨buffer, magic⟩)
        · exact Or.inl buffer
      obtain ⟨failure, only⟩ := firmwareLoad_of_bad bad
      have file := tables.file
      refine ⟨fun offset length recorded => ?_, fun offset length recorded => ?_,
        fun success => absurd success failure, fun _ => failure, fun _ => failure⟩
      · cases only _ recorded
        exact Or.inr (by omega)
      · cases only _ recorded

/-- A file with one segment of four octets behind the headers, at place 124. -/
def smallFile : List (BitVec 8) :=
  [0x7f, 0x45, 0x4c, 0x46, 1, 1] ++ List.replicate 22 0 ++ [52, 0, 0, 0, 84, 0, 0, 0] ++
    List.replicate 6 0 ++ [32, 0, 1, 0, 40, 0, 0, 0, 0, 0] ++
    [1, 0, 0, 0, 124, 0, 0, 0, 0, 0, 0, 0, 0, 0, 16, 0, 4, 0, 0, 0, 4, 0, 0, 0] ++
    List.replicate 48 0 ++ [1, 2, 3, 4]

/-- The file, and as much of what follows as makes it so long. -/
def smallImage (size : Nat) (size_lt : size < 2 ^ 31) : Image where
  memory index := smallFile.getD index 0
  size := size
  size_lt := size_lt

/-- The bus does what it is told. -/
def allWell : Answers where
  buffer := true
  write _ := 0
  boot := 0
  region _ := true
  bootAddr := 0

theorem tablesInside_smallImage (size_lt : size < 2 ^ 31) (large : 124 ≤ size) :
    TablesInside (smallImage size size_lt) (smallImage size size_lt).header where
  file := by
    change 52 ≤ size
    omega
  segments index below := by
    have only : index < 1 := below
    change 52 + index * 32 + 32 ≤ size
    omega
  sections index which := by
    have first : index = 0 := by
      rcases which with below | same
      · exact absurd below (Nat.not_lt_zero _)
      · exact same
    subst first
    change 84 + 0 * 40 + 40 ≤ size
    omega

theorem downloaded_smallImage : Downloaded (smallImage 132 (by decide)) allWell := by
  refine (downloaded_iff_loads (smallImage 132 (by decide)) allWell
    (tablesInside_smallImage (by decide) (by decide))).mpr fun _ _ => ⟨?_, ?_, ?_⟩
  · intro index below taken reached
    have only : index < 1 := below
    obtain rfl : index = 0 := by omega
    exact Nat.le_of_ble_eq_true rfl
  · intro index below
    exact absurd below (Nat.not_lt_zero _)
  · refine Or.inr (Or.inr fun index below required => ?_)
    have only : index < 1 := below
    obtain rfl : index = 0 := by omega
    exact ⟨rfl, rfl⟩

/-- A segment that ends where the file ends is left out, and the download reports success. -/
theorem not_downloaded_smallImage :
    TablesInside (smallImage 128 (by decide)) (smallImage 128 (by decide)).header ∧
      ¬ Downloaded (smallImage 128 (by decide)) allWell := by
  refine ⟨tablesInside_smallImage (by decide) (by decide), fun downloaded => ?_⟩
  have recorded := downloaded.complete (by decide +kernel) 0 (by decide +kernel)
    (by decide +kernel)
  rw [dmWrite_mem_iff rfl rfl] at recorded
  obtain ⟨-, -, taken, -⟩ := recorded
  exact absurd taken (by unfold Taken; decide +kernel)

end Firmware
end Morse
