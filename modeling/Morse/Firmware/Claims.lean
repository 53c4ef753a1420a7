import Morse.Coredump.Defs
import Morse.Lib.Nesting

/-!
# Claims and releases of the bus

Besides the firmware itself, the driver downloads the board configuration, waits for the table
that the firmware gives to the host, and reads the extended table.  Each of these, the download
of the firmware and the core dump claims the bus and has to release it again, whatever the bus
and the allocator answer.
-/

namespace Morse
namespace Firmware

open Lib

/-! ## The board configuration -/

/-- What is answered to one download of a board configuration, and the state it looks at. -/
structure BoardAnswers where
  /-- Whether there is memory for the bounce buffer. -/
  buffer : Bool
  /-- Whether there is memory for the regulatory domains. -/
  regdoms : Bool
  /-- `MORSE_STATE_FLAG_REGDOM_SET_BY_OTP`. -/
  setByOtp : Bool
  /-- The status of writing the board configuration. -/
  config : Int
  /-- The status of writing the regulatory domain. -/
  regdom : Int
  /-- The two octets of the country that are compared. -/
  country : List (BitVec 8)

/-- `.regdom_`, as it is compared. -/
def regPrefix : List (BitVec 8) := [0x2e, 0x72, 0x65, 0x67, 0x64, 0x6f, 0x6d, 0x5f]

/-- `.board_config` with its end, as it is compared. -/
def boardConfigName : List (BitVec 8) :=
  [0x2e, 0x62, 0x6f, 0x61, 0x72, 0x64, 0x5f, 0x63, 0x6f, 0x6e, 0x66, 0x69, 0x67, 0]

/-- `BCF_DATABASE_SIZE`. -/
def bcfDatabaseSize : Int := 1024

/-- A number of 32 bits taken for a signed one. -/
def signed (number : Nat) : Int :=
  if number < 2 ^ 31 then (number : Int) else (number : Int) - 2 ^ 32

/-- A signed number as a size. -/
def asSize (number : Int) : Nat := (number % 2 ^ 64).toNat

/-- A signed number as an unsigned one of 32 bits. -/
def asWord (number : Int) : Nat := (number % 2 ^ 32).toNat

/-- What `strscpy` reads of a text with room for so many octets. -/
def strscpyOctets (memory : Nat → BitVec 8) : Nat → Nat → Nat
  | _, 0 => 0
  | address, count + 1 =>
    if memory address = 0 then 1 else strscpyOctets memory (address + 1) count + 1

/-- How many of some sections are those of regulatory domains. -/
def countRegdoms (memory : Nat → BitVec 8) (header : FileHeader) (strings : Nat) :
    Nat → Nat → Recorded Event Nat
  | _, 0 => pure 0
  | index, turns + 1 => do
      let target ← getSectionHeader memory header index
      if ← strncmp memory (strings + target.name) regPrefix then do
        let others ← countRegdoms memory header strings (index + 1) turns
        pure (others + 1)
      else countRegdoms memory header strings (index + 1) turns

/-- The names of the regulatory domains are copied. -/
def copyRegdom (memory : Nat → BitVec 8) (header : FileHeader) (strings index : Nat) :
    Recorded Event Unit := do
  let target ← getSectionHeader memory header index
  if ← strncmp memory (strings + target.name) regPrefix then
    Recorded.record (.read (strings + target.name + 8)
      (strscpyOctets memory (strings + target.name + 8) 3))
  else pure ⟨⟩

/-- The bounce buffer is filled with a section, padded, and written between a claim and a
release of the bus. -/
def writeSection
    (memory : Nat → BitVec 8)
    (turn address : Nat)
    (target : SectionHeader)
    (length : Int)
    (status : Int) : Recorded Event Unit := do
  Recorded.record (.read target.offset (asSize length))
  Recorded.record (.fill 0 (asSize length))
  Recorded.record (.fill target.size (asWord (length - target.size)))
  Recorded.record .claimBus
  Recorded.record (.dmWrite turn address
    (segment
      (fun index => if index < target.size then memory (target.offset + index) else 0xff)
      0 length.toNat)
    status)
  Recorded.record .releaseBus

/-- The loop that downloads the board configuration: the section it stops at, the length of the
configuration and what is to be returned. -/
def loadBoardConfig
    (memory : Nat → BitVec 8)
    (header : FileHeader)
    (answers : BoardAnswers)
    (strings address : Nat) : Nat → Nat → Recorded Event (Nat × Int × Int)
  | index, 0 => pure (index, -1, 0)
  | index, turns + 1 => do
      let target ← getSectionHeader memory header index
      if ← strncmp memory (strings + target.name) boardConfigName then do
        let length := signed (roundBytesToWord target.size)
        if bcfDatabaseSize < length then pure (index, length, -1)
        else do
          writeSection memory index address target length answers.config
          pure (index, length, if answers.config = 0 then 0 else -1)
      else loadBoardConfig memory header answers strings address (index + 1) turns

/-- The loop that downloads the regulatory domain, with the section it stops at. -/
def loadRegdom
    (memory : Nat → BitVec 8)
    (header : FileHeader)
    (answers : BoardAnswers)
    (strings address : Nat)
    (configLen ret : Int) : Nat → Nat → Recorded Event (Nat × Int)
  | index, 0 => pure (index, ret)
  | index, turns + 1 => do
      let target ← getSectionHeader memory header index
      if ← strncmp memory (strings + target.name) regPrefix then do
        if ← strncmp memory (strings + target.name + 8) answers.country then do
          let length := signed (roundBytesToWord target.size)
          if bcfDatabaseSize < signed (asWord (configLen + length)) then pure (index, -1)
          else if length < 0 then pure (index, -1)
          else do
            writeSection memory index (asWord (address + configLen)) target length answers.regdom
            pure (index, if answers.regdom = 0 then ret else -1)
        else loadRegdom memory header answers strings address configLen ret (index + 1) turns
      else loadRegdom memory header answers strings address configLen ret (index + 1) turns

/-- How many regulatory domains there are. -/
def numRegdoms
    (memory : Nat → BitVec 8)
    (header : FileHeader)
    (answers : BoardAnswers)
    (strings : Nat) : Recorded Event Nat :=
  if answers.setByOtp then pure 1 else countRegdoms memory header strings 0 header.shnum

/-- The regulatory domains are listed, unless there is none or it is set by the chip. -/
def listRegdoms
    (memory : Nat → BitVec 8)
    (header : FileHeader)
    (answers : BoardAnswers)
    (strings regdoms : Nat) : Recorded Event Unit :=
  if regdoms = 0 ∨ answers.setByOtp = true then pure ⟨⟩
  else Recorded.loop (copyRegdom memory header strings) 0 header.shnum

/-- `morse_bcf_load` behind the headers of the file and of the table of names. -/
def loadBoard
    (memory : Nat → BitVec 8)
    (header : FileHeader)
    (answers : BoardAnswers)
    (strings address : Nat) : Recorded Event Int := do
  let regdoms ← numRegdoms memory header answers strings
  if regdoms ≠ 0 ∧ answers.regdoms = false then pure (-12)
  else do
    listRegdoms memory header answers strings regdoms
    let (index, configLen, ret) ←
      loadBoardConfig memory header answers strings address 0 header.shnum
    let (index, ret) ← loadRegdom memory header answers strings address configLen ret index
      (header.shnum - index)
    pure (if header.shnum ≤ index then -1 else ret)

/-- `morse_bcf_load`. -/
def bcfLoad (image : Image) (answers : BoardAnswers) (address : Nat) : Recorded Event Int :=
  if answers.buffer then do
    match ← getFileHeader image.memory with
    | none => pure (-1)
    | some header => do
        let names ← getSectionHeader image.memory header header.shstrndx
        loadBoard image.memory header answers names.offset address
  else pure (-12)

/-! ## The tables for the host -/

/-- One look at the register that tells where the table for the host is. -/
structure Look where
  /-- The status of the read. -/
  status : Int
  /-- What the register is known to hold then. -/
  pointer : Nat
  /-- Whether the time is over. -/
  late : Bool

/-- The loop of `morse_firmware_get_host_table_ptr`; it returns nothing while it goes on. -/
def pollHostTablePtr (register : Nat) (looks : Nat → Look) :
    Nat → Nat → Recorded Event (Option Int)
  | _, 0 => pure none
  | look, turns + 1 => do
      Recorded.record (.reg32Read register (looks look).status)
      if (looks look).pointer ≠ 0 then pure (some (looks look).status)
      else if (looks look).late then pure (some (-5))
      else pollHostTablePtr register looks (look + 1) turns

/-- `morse_firmware_get_host_table_ptr`, followed for so many looks. -/
def getHostTablePtr (register : Nat) (looks : Nat → Look) (turns : Nat) :
    Recorded Event (Option Int) := do
  Recorded.record .claimBus
  match ← pollHostTablePtr register looks 0 turns with
  | none => pure none
  | some ret => do
      Recorded.record .releaseBus
      pure (some ret)

/-- What the bus and the allocator answer when the extended table is read. -/
structure TableAnswers where
  /-- The pointer to the table for the host. -/
  hostTable : Nat
  /-- The status of reading where the extended table is, and where that is. -/
  pointerStatus : Int
  pointer : Nat
  /-- The status of reading its length, and the length. -/
  lengthStatus : Int
  length : Nat
  /-- Whether there is memory for it. -/
  buffer : Bool
  /-- The status of reading it. -/
  tableStatus : Int
  /-- `offsetof(struct host_table, extended_host_table_addr)`. -/
  pointerOffset : Nat
  /-- `offsetof(struct extended_host_table, extended_host_table_length)`. -/
  lengthOffset : Nat

/-- The end of `morse_firmware_read_ext_host_table` that its failures jump to. -/
def tableExit (ret : Int) : Recorded Event Int := do
  Recorded.record .releaseBus
  pure ret

/-- `morse_firmware_read_ext_host_table`. -/
def readExtHostTable (answers : TableAnswers) : Recorded Event Int := do
  Recorded.record .claimBus
  Recorded.record (.reg32Read ((answers.hostTable + answers.pointerOffset) % 2 ^ 32)
    answers.pointerStatus)
  if answers.pointerStatus ≠ 0 then tableExit answers.pointerStatus
  else if answers.pointer = 0 then tableExit (-6)
  else do
    Recorded.record (.reg32Read ((answers.pointer + answers.lengthOffset) % 2 ^ 32)
      answers.lengthStatus)
    if answers.lengthStatus ≠ 0 then tableExit answers.lengthStatus
    else do
      let length := roundBytesToWord answers.length
      if length = 0 ∨ 2 ^ 31 - 1 < length then tableExit (-22)
      else if answers.buffer = false then tableExit (-12)
      else do
        Recorded.record (.dmRead answers.pointer length answers.tableStatus)
        Recorded.record .releaseBus
        if answers.tableStatus ≠ 0 then tableExit answers.tableStatus
        else pure answers.tableStatus

/-! ## Balance -/

/-- The bus is claimed. -/
def Event.claims : Event → Bool
  | .claimBus => true
  | _ => false

/-- The bus is released. -/
def Event.releases : Event → Bool
  | .releaseBus => true
  | _ => false

/-- The claims and releases of some events are balanced. -/
abbrev Even (log : List Event) : Prop := Paired Event.claims Event.releases log

theorem even_nil : Even [] := Paired.of_quiet fun _ member => absurd member List.not_mem_nil

theorem even_quiet (quiet : event.claims = false ∧ event.releases = false) :
    Even [event] := by
  refine Paired.of_quiet fun other member => ?_
  rw [List.mem_singleton.mp member]
  exact quiet

theorem even_transfer (quiet : event.claims = false ∧ event.releases = false) :
    Even [.claimBus, event, .releaseBus] :=
  Paired.between ⟨rfl, rfl⟩ ⟨rfl, rfl⟩ (even_quiet quiet)

theorem even_getSectionHeader (memory : Nat → BitVec 8) (header : FileHeader) (index : Nat) :
    Even (getSectionHeader memory header index).log := even_quiet ⟨rfl, rfl⟩

theorem even_strncmp (memory : Nat → BitVec 8) (address : Nat) (text : List (BitVec 8)) :
    Even (strncmp memory address text).log := even_quiet ⟨rfl, rfl⟩

theorem even_getFileHeader (memory : Nat → BitVec 8) : Even (getFileHeader memory).log := by
  refine (even_quiet ⟨rfl, rfl⟩).append ?_
  split
  · exact even_quiet ⟨rfl, rfl⟩
  · exact even_nil

/-! ### The firmware -/

theorem even_loadSegment (image : Image) (answers : Answers) (header : FileHeader) (index : Nat) :
    Even (loadSegment image answers header index).log := by
  refine (even_quiet ⟨rfl, rfl⟩).append ?_
  dsimp only
  split
  · refine (even_quiet ⟨rfl, rfl⟩).append ((even_quiet ⟨rfl, rfl⟩).append
      ((even_quiet ⟨rfl, rfl⟩).append ?_))
    exact even_transfer ⟨rfl, rfl⟩
  · exact even_nil

theorem even_loadSection (image : Image) (answers : Answers) (header : FileHeader)
    (strings index : Nat) :
    Even (loadSection image answers header strings index).log := by
  refine Paired.of_quiet fun event recorded => ?_
  obtain ⟨offset, length, rfl⟩ := reads_loadSection recorded
  exact ⟨rfl, rfl⟩

theorem even_firmwareLoad (image : Image) (answers : Answers) :
    Even (firmwareLoad image answers).log := by
  rw [firmwareLoad]
  split
  · rw [Recorded.log_bind]
    refine (even_getFileHeader image.memory).append ?_
    split
    · exact even_nil
    · next header _ =>
        refine (even_getSectionHeader image.memory header _).append ?_
        refine (Recorded.log_loopUntil_of even_nil Paired.append
          (even_loadSegment image answers header) _ _).append ?_
        refine (Recorded.log_loop_of even_nil Paired.append
          (even_loadSection image answers header _) _ _).append ?_
        split
        · exact even_transfer ⟨rfl, rfl⟩
        · exact even_nil
  · exact even_nil

/-! ### The board configuration -/

section Board

variable {memory : Nat → BitVec 8} {header : FileHeader} {answers : BoardAnswers}
  {strings address : Nat}

theorem even_countRegdoms (index turns : Nat) :
    Even (countRegdoms memory header strings index turns).log := by
  induction turns generalizing index with
  | zero => exact even_nil
  | succ turns ih =>
    rw [countRegdoms, Recorded.log_bind, Recorded.log_bind]
    refine (even_getSectionHeader memory header index).append
      ((even_strncmp memory _ regPrefix).append ?_)
    split
    · exact (ih (index + 1)).append even_nil
    · exact ih (index + 1)

theorem even_copyRegdom (index : Nat) : Even (copyRegdom memory header strings index).log := by
  rw [copyRegdom, Recorded.log_bind, Recorded.log_bind]
  refine (even_getSectionHeader memory header index).append
    ((even_strncmp memory _ regPrefix).append ?_)
  split
  · exact even_quiet ⟨rfl, rfl⟩
  · exact even_nil

theorem even_writeSection (turn : Nat) (target : SectionHeader) (length status : Int) :
    Even (writeSection memory turn address target length status).log :=
  (even_quiet ⟨rfl, rfl⟩).append ((even_quiet ⟨rfl, rfl⟩).append
    ((even_quiet ⟨rfl, rfl⟩).append (even_transfer ⟨rfl, rfl⟩)))

theorem even_loadBoardConfig (index turns : Nat) :
    Even (loadBoardConfig memory header answers strings address index turns).log := by
  induction turns generalizing index with
  | zero => exact even_nil
  | succ turns ih =>
    rw [loadBoardConfig, Recorded.log_bind, Recorded.log_bind]
    refine (even_getSectionHeader memory header index).append
      ((even_strncmp memory _ boardConfigName).append ?_)
    split
    · dsimp only
      split
      · exact even_nil
      · exact (even_writeSection index _ _ _).append even_nil
    · exact ih (index + 1)

theorem even_loadRegdom (configLen ret : Int) (index turns : Nat) :
    Even (loadRegdom memory header answers strings address configLen ret index turns).log := by
  induction turns generalizing index with
  | zero => exact even_nil
  | succ turns ih =>
    rw [loadRegdom, Recorded.log_bind, Recorded.log_bind]
    refine (even_getSectionHeader memory header index).append
      ((even_strncmp memory _ regPrefix).append ?_)
    split
    · rw [Recorded.log_bind]
      refine (even_strncmp memory _ answers.country).append ?_
      split
      · dsimp only
        split
        · exact even_nil
        · split
          · exact even_nil
          · exact (even_writeSection index _ _ _).append even_nil
      · exact ih (index + 1)
    · exact ih (index + 1)

theorem even_numRegdoms : Even (numRegdoms memory header answers strings).log := by
  rw [numRegdoms]
  split
  · exact even_nil
  · exact even_countRegdoms 0 _

theorem even_listRegdoms (regdoms : Nat) :
    Even (listRegdoms memory header answers strings regdoms).log := by
  rw [listRegdoms]
  split
  · exact even_nil
  · exact Recorded.log_loop_of even_nil Paired.append even_copyRegdom _ _

theorem even_loadBoard : Even (loadBoard memory header answers strings address).log := by
  rw [loadBoard, Recorded.log_bind]
  refine even_numRegdoms.append ?_
  split
  · exact even_nil
  · refine (even_listRegdoms _).append ((even_loadBoardConfig 0 _).append ?_)
    exact (even_loadRegdom _ _ _ _).append even_nil

end Board

theorem even_bcfLoad (image : Image) (answers : BoardAnswers) (address : Nat) :
    Even (bcfLoad image answers address).log := by
  rw [bcfLoad]
  split
  · rw [Recorded.log_bind]
    refine (even_getFileHeader image.memory).append ?_
    split
    · exact even_nil
    · next header _ =>
        exact (even_getSectionHeader image.memory header _).append even_loadBoard
  · exact even_nil

/-! ### The tables for the host -/

theorem even_pollHostTablePtr (register : Nat) (looks : Nat → Look) (look turns : Nat) :
    Even (pollHostTablePtr register looks look turns).log := by
  induction turns generalizing look with
  | zero => exact even_nil
  | succ turns ih =>
    refine (even_quiet ⟨rfl, rfl⟩).append ?_
    split
    · exact even_nil
    · split
      · exact even_nil
      · exact ih (look + 1)

theorem even_getHostTablePtr (returns : (getHostTablePtr register looks turns).value ≠ none) :
    Even (getHostTablePtr register looks turns).log := by
  rw [getHostTablePtr] at *
  simp only [Recorded.value_bind, Recorded.log_bind, Recorded.log_record] at *
  cases result : (pollHostTablePtr register looks 0 turns).value with
  | none =>
    rw [result] at returns
    exact absurd rfl returns
  | some ret =>
    exact Paired.between ⟨rfl, rfl⟩ ⟨rfl, rfl⟩ (even_pollHostTablePtr register looks 0 turns)

/-- The extended table itself cannot be read, after all that is before it succeeded. -/
def TableAnswers.TableFails (answers : TableAnswers) : Prop :=
  answers.pointerStatus = 0 ∧ answers.pointer ≠ 0 ∧ answers.lengthStatus = 0 ∧
    roundBytesToWord answers.length ≠ 0 ∧ roundBytesToWord answers.length ≤ 2 ^ 31 - 1 ∧
    answers.buffer = true ∧ answers.tableStatus ≠ 0

theorem even_readExtHostTable (answers : TableAnswers) :
    Even (readExtHostTable answers).log ↔ ¬ answers.TableFails := by
  have one : ∀ event : Event, event.claims = false ∧ event.releases = false →
      Even [.claimBus, event, .releaseBus] := fun event quiet => even_transfer quiet
  have two : ∀ event other : Event, event.claims = false ∧ event.releases = false →
      other.claims = false ∧ other.releases = false →
      Even [.claimBus, event, other, .releaseBus] := fun event other quiet calm =>
    @Paired.between _ _ _ _ _ [event, other] ⟨rfl, rfl⟩ ⟨rfl, rfl⟩
      ((even_quiet quiet).append (even_quiet calm))
  simp only [readExtHostTable, Recorded.log_bind, Recorded.log_record, TableAnswers.TableFails]
  split
  · next failed =>
      refine iff_of_true (one _ ⟨rfl, rfl⟩) fun fails => failed fails.1
  · split
    · next none =>
        refine iff_of_true (one _ ⟨rfl, rfl⟩) fun fails => fails.2.1 none
    · split
      · next failed =>
          refine iff_of_true (two _ _ ⟨rfl, rfl⟩ ⟨rfl, rfl⟩) fun fails => failed fails.2.2.1
      · split
        · next unfit =>
            refine iff_of_true (two _ _ ⟨rfl, rfl⟩ ⟨rfl, rfl⟩) fun fails => ?_
            rcases unfit with empty | large
            · exact fails.2.2.2.1 empty
            · exact absurd fails.2.2.2.2.1 (Nat.not_le.mpr large)
        · split
          · next missing =>
              refine iff_of_true (two _ _ ⟨rfl, rfl⟩ ⟨rfl, rfl⟩) fun fails => ?_
              rw [fails.2.2.2.2.2.1] at missing
              cases missing
          · next right none worked fits present =>
              split
              · next failed =>
                  refine iff_of_false (fun even => ?_) (not_not.mpr ?_)
                  · have settled : 1 = 2 := even.settled
                    cases settled
                  · exact ⟨not_not.mp right, none, not_not.mp worked, (not_or.mp fits).1,
                      Nat.not_lt.mp (not_or.mp fits).2, Bool.eq_true_of_not_eq_false present,
                      failed⟩
              · next succeeded =>
                  refine iff_of_true ?_ fun fails => succeeded fails.2.2.2.2.2.2
                  exact @Paired.between _ _ _ _ _ [_, _, _] ⟨rfl, rfl⟩ ⟨rfl, rfl⟩
                    ((even_quiet ⟨rfl, rfl⟩).append ((even_quiet ⟨rfl, rfl⟩).append
                      (even_quiet ⟨rfl, rfl⟩)))

end Firmware

namespace Coredump

open Lib
open Firmware (roundBytesToWord)

/-- The bus is claimed. -/
def Event.claims : Event → Bool
  | .claimBus => true
  | _ => false

/-- The bus is released. -/
def Event.releases : Event → Bool
  | .releaseBus => true
  | _ => false

/-- The claims and releases of some events are balanced. -/
abbrev Even (log : List Event) : Prop := Paired Event.claims Event.releases log

theorem quiet_readRegion (recorded : event ∈ (readRegion region answer).log) :
    event.claims = false ∧ event.releases = false := by
  rw [readRegion] at recorded
  split at recorded
  · cases recorded
  · split at recorded
    · cases recorded
    · split at recorded
      · rw [List.mem_singleton.mp recorded]
        exact ⟨rfl, rfl⟩
      · rw [List.mem_singleton.mp recorded]
        exact ⟨rfl, rfl⟩

theorem quiet_getStopInfo (recorded : event ∈ (getStopInfo regions).log) :
    event.claims = false ∧ event.releases = false := by
  induction regions with
  | nil => cases recorded
  | cons entry rest ih =>
    rw [getStopInfo] at recorded
    split at recorded
    · exact ih recorded
    · split at recorded
      · exact ih recorded
      · split at recorded
        · exact ih recorded
        · rw [Recorded.log_bind, List.mem_append] at recorded
          rcases recorded with read | later
          · exact quiet_readRegion read
          · split at later
            · cases later
            · exact ih later

variable {phdr offset : Nat} {event : Event}

theorem quiet_copyMemoryRegions
    (recorded : event ∈ (copyMemoryRegions chip stray regions phdr offset).log) :
    event.claims = false ∧ event.releases = false := by
  induction regions generalizing phdr offset with
  | nil => cases recorded
  | cons entry rest ih =>
    rw [copyMemoryRegions] at recorded
    split at recorded
    · exact ih recorded
    · simp only [Recorded.log_bind, Recorded.log_record, List.mem_append,
        List.mem_singleton] at recorded
      rcases recorded with rfl | rfl | rfl | read | later
      · exact ⟨rfl, rfl⟩
      · exact ⟨rfl, rfl⟩
      · exact ⟨rfl, rfl⟩
      · exact quiet_readRegion read
      · split at later
        · rcases List.mem_cons.mp later with rfl | others
          · exact ⟨rfl, rfl⟩
          · exact ih others
        · rcases List.mem_cons.mp later with rfl | others
          · exact ⟨rfl, rfl⟩
          · exact ih others

theorem quiet_copyNotes (recorded : event ∈ (copyNotes notes phdr offset).log) :
    event.claims = false ∧ event.releases = false := by
  induction notes generalizing phdr offset with
  | nil => cases recorded
  | cons note rest ih =>
    simp only [copyNotes, Recorded.log_bind, Recorded.log_record, List.mem_append,
      List.mem_singleton] at recorded
    rcases recorded with rfl | rfl | rfl | rfl | later
    · exact ⟨rfl, rfl⟩
    · exact ⟨rfl, rfl⟩
    · exact ⟨rfl, rfl⟩
    · exact ⟨rfl, rfl⟩
    · exact ih later

theorem even_coredumpBuild (chip stray : Nat → BitVec 8) (regions : Regions) (notes : List Note)
    (enough : Bool) :
    Even (coredumpBuild chip stray regions notes enough).log ↔ enough = true := by
  have quiet : Even (getStopInfo regions).log :=
    Paired.of_quiet fun _ recorded => quiet_getStopInfo recorded
  cases enough with
  | true =>
    have copied : ∀ phdr offset,
        Even (copyMemoryRegions chip stray regions phdr offset).log := fun phdr offset =>
      Paired.of_quiet fun _ recorded => quiet_copyMemoryRegions recorded
    have noted : ∀ phdr offset, Even (copyNotes notes phdr offset).log := fun phdr offset =>
      Paired.of_quiet fun _ recorded => quiet_copyNotes recorded
    have stored : ∀ place octets, Even [.store place octets] := fun place octets =>
      Paired.of_quiet fun _ member => by
        rw [List.mem_singleton.mp member]
        exact ⟨rfl, rfl⟩
    have held := @Paired.between _ _ _ .claimBus .releaseBus _ ⟨rfl, rfl⟩ ⟨rfl, rfl⟩
      (quiet.append ((stored 0 (elfHeader (phnum regions notes))).append
        (copied 52 (52 + 32 * (phnum regions notes % 2 ^ 16)))))
    rw [coredumpBuild]
    simpa using held.append (noted _ _)
  | false =>
    refine iff_of_false (fun even => ?_) Bool.false_ne_true
    have log : (coredumpBuild chip stray regions notes false).log =
        .claimBus :: (getStopInfo regions).log := by
      simp [coredumpBuild]
    have settled := even.settled
    rw [log, List.countP_cons_of_pos rfl, List.countP_cons_of_neg Bool.false_ne_true,
      quiet.settled] at settled
    omega

end Coredump

namespace Firmware

open Lib

/-- The claims and releases of the bus are balanced in everything that transfers firmware,
tables or core dumps, when it returns. -/
structure ClaimsBalanced
    (image board : Image)
    (answers : Answers)
    (boardAnswers : BoardAnswers)
    (address register : Nat)
    (looks : Nat → Look)
    (tableAnswers : TableAnswers)
    (chip stray : Nat → BitVec 8)
    (regions : Coredump.Regions)
    (notes : List Coredump.Note)
    (enough : Bool) : Prop where
  firmware : Even (firmwareLoad image answers).log
  boardConfig : Even (bcfLoad board boardAnswers address).log
  hostTable : ∀ turns, (getHostTablePtr register looks turns).value ≠ none →
    Even (getHostTablePtr register looks turns).log
  extHostTable : Even (readExtHostTable tableAnswers).log
  coredump : Coredump.Even (Coredump.coredumpBuild chip stray regions notes enough).log

/-- The bus is claimed and released in balance exactly when no extended table fails to be read
and there is memory for the core dump. -/
theorem claimsBalanced_iff (image board : Image) (answers : Answers) (boardAnswers : BoardAnswers)
    (address register : Nat) (looks : Nat → Look) (tableAnswers : TableAnswers)
    (chip stray : Nat → BitVec 8) (regions : Coredump.Regions) (notes : List Coredump.Note)
    (enough : Bool) :
    ClaimsBalanced image board answers boardAnswers address register looks tableAnswers chip stray
        regions notes enough ↔
      ¬ tableAnswers.TableFails ∧ enough = true := by
  constructor
  · intro balanced
    exact ⟨(even_readExtHostTable tableAnswers).mp balanced.extHostTable,
      (Coredump.even_coredumpBuild chip stray regions notes enough).mp balanced.coredump⟩
  · rintro ⟨readable, present⟩
    exact ⟨even_firmwareLoad image answers, even_bcfLoad board boardAnswers address,
      fun _ returns => even_getHostTablePtr returns,
      (even_readExtHostTable tableAnswers).mpr readable,
      (Coredump.even_coredumpBuild chip stray regions notes enough).mpr present⟩

/-- An extended table that cannot be read. -/
def unreadableTable : TableAnswers where
  hostTable := 0x80000000
  pointerStatus := 0
  pointer := 0x80001000
  lengthStatus := 0
  length := 64
  buffer := true
  tableStatus := -5
  pointerOffset := 32
  lengthOffset := 0

/-- When the table cannot be read the bus is released twice, and without memory for a core dump
it stays claimed. -/
theorem not_even_unreadable :
    ¬ Even (readExtHostTable unreadableTable).log ∧
      ¬ Coredump.Even (Coredump.coredumpBuild (fun _ => 0) (fun _ => 0) [] [] false).log := by
  constructor
  · rw [even_readExtHostTable, not_not]
    exact ⟨rfl, by decide, rfl, by decide, by decide, rfl, by decide⟩
  · rw [Coredump.even_coredumpBuild]
    decide

end Firmware
end Morse
