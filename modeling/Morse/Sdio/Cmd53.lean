import Morse.Lib.Recorded
import Morse.Lib.Segment
import Mathlib.Algebra.GroupWithZero.Nat

/-!
# Transfers of the host tool over SPI

The host tool gets the data of a command from the octets that the chip sent while the command was
transferred.  The transaction has room for some octets in front of each block, and the search for
the start of a block may pass fewer or more of them.
-/

namespace Morse
namespace Sdio

open Lib

/-- What is accessed: the transaction that is sent, the one that is received, and the data. -/
inductive Buffer where
  | fullTrans
  | resp
  | data
  deriving DecidableEq

/-- Octets of a buffer that are read or written. -/
structure Access where
  buffer : Buffer
  start : Nat
  length : Nat
  deriving DecidableEq

/-- The arguments of `sdio_over_spi_cmd53`, with a count of blocks that the command has bits for. -/
structure Cmd53 where
  write : Bool
  blockMode : Bool
  count : Nat
  count_lt : blockMode = true → count < 2 ^ 9

namespace Cmd53

variable (cmd : Cmd53)

/-- The length of a block: that of `SDIO_FUNC_MEM_BLOCK`, or all octets. -/
def blockSize : Nat := if cmd.blockMode then 512 else cmd.count

/-- How many blocks there are. -/
def loopCount : Nat := if cmd.blockMode then cmd.count else 1

/-- `post_block_delay_bytes` -/
def postBlockDelayBytes : Nat := if cmd.write = cmd.blockMode then 250 else 30

/-- `total_block_size` -/
def totalBlockSize : Nat :=
  if cmd.write then 1 + cmd.blockSize + 2 + cmd.postBlockDelayBytes
  else if cmd.blockMode then 2 + cmd.blockSize + cmd.postBlockDelayBytes
  else 4 + cmd.blockSize + 4 + cmd.postBlockDelayBytes

/-- `full_trans_size`, for which both transactions are allocated. -/
def fullTransSize : Nat :=
  if cmd.blockMode then 7 + 4 + 4 + cmd.count * cmd.totalBlockSize
  else if cmd.write then 7 + 4 + 4 + cmd.totalBlockSize
  else 7 + 4 + cmd.totalBlockSize

/-- The length of a buffer; the caller's is for all blocks. -/
def size : Buffer → Nat
  | .data => cmd.loopCount * cmd.blockSize
  | _ => cmd.fullTransSize

end Cmd53

/-- One bit of `crc16_gen`. -/
def crc16Bit (octet : BitVec 8) (crc : BitVec 32) (jj : Nat) : BitVec 32 :=
  let val := (octet.setWidth 32 >>> jj ^^^ crc >>> 15) &&& 1#32
  (crc ^^^ (val <<< 4 ||| val <<< 11)) <<< 1 ||| val

/-- `crc16_gen` -/
def crc16Gen (octets : List (BitVec 8)) : Nat :=
  (octets.foldl (fun crc octet => [7, 6, 5, 4, 3, 2, 1, 0].foldl (crc16Bit octet) crc)
    0#32).toNat % 2 ^ 16

/-- A search through some octets of the response for one that is accepted.  Octets `0xFF` are
passed; where another octet stops the search, or none is found, there is no result. -/
def find (accepts : BitVec 8 → Bool) (resp : Nat → BitVec 8) :
    Nat → Nat → Recorded Access (Option Nat)
  | 0, _ => pure none
  | turns + 1, place => do
      Recorded.record ⟨.resp, place, 1⟩
      if resp place = 0xFF then find accepts resp turns (place + 1)
      else if accepts (resp place) then pure (some (place + 1))
      else pure none

/-- `SDIO_MULTI_BLOCK_START_TOKEN` or `SDIO_SINGLE_START_TOKEN` -/
def isStartToken (octet : BitVec 8) : Bool := octet == 0xFC || octet == 0xFE

/-- A data response that says that a block was accepted. -/
def isAccepted (octet : BitVec 8) : Bool :=
  octet &&& 0x11 == 0x01 && octet &&& 0x1F == 0x05

/-- `sdio_over_spi_cmd53_find_token` -/
def findToken (resp : Nat → BitVec 8) (place size : Nat) : Recorded Access (Option Nat) :=
  find isStartToken resp (size - 1) place

/-- `sdio_over_spi_cmd53_find_ack` -/
def findAck (resp : Nat → BitVec 8) (place size : Nat) : Recorded Access (Option Nat) :=
  find isAccepted resp (size - 1) place

/-- The loop of `sdio_over_spi_cmd_find_resp`, from some octet of the data on. -/
def findRespFrom (resp : Nat → BitVec 8) (data size : Nat) :
    Nat → Nat → Recorded Access (Option Nat)
  | 0, _ => pure none
  | turns + 1, ii => do
      Recorded.record ⟨.resp, data + ii, 1⟩
      if resp (data + ii) = 0xFF ∨ resp (data + ii) = 0xFE then
        findRespFrom resp data size turns (ii + 1)
      else if resp (data + ii) &&& 0xFE = 0 then
        if ii < size - 2 then do
          Recorded.record ⟨.resp, data + (ii + 1), 1⟩
          pure (some (if resp (data + (ii + 1)) &&& 0xFE = 0 then data + (ii + 2)
            else data + (ii + 1)))
        else pure (some (data + (ii + 1)))
      else pure none

/-- `sdio_over_spi_cmd_find_resp` -/
def cmdFindResp (resp : Nat → BitVec 8) (data size : Nat) : Recorded Access (Option Nat) :=
  findRespFrom resp data size (size - 1) 0

/-- The check of a block against the two octets behind it. -/
def crc16Check (resp : Nat → BitVec 8) (place size : Nat) : Bool :=
  crc16Gen (segment resp place size) ==
    (resp (place + size)).toNat * 2 ^ 8 + (resp (place + size + 1)).toNat

section Cmd53

variable (cmd : Cmd53) (resp : Nat → BitVec 8)

/-- The header of the transaction. -/
def prepCmd : Recorded Access PUnit := do
  Recorded.record ⟨.fullTrans, 0, 2⟩
  Recorded.record ⟨.fullTrans, 6, 1⟩
  Recorded.record ⟨.fullTrans, 7, 13⟩
  Recorded.record ⟨.fullTrans, 2, 5⟩

/-- The blocks of the transaction for a write, from one on. -/
def writeBlocks : Nat → Nat → Recorded Access PUnit
  | 0, _ => pure ⟨⟩
  | turns + 1, ii => do
      let tokenOffset := 15 + ii * cmd.totalBlockSize
      Recorded.record ⟨.fullTrans, tokenOffset, 1⟩
      Recorded.record ⟨.data, ii * cmd.blockSize, cmd.blockSize⟩
      Recorded.record ⟨.fullTrans, tokenOffset + 1, cmd.blockSize⟩
      Recorded.record ⟨.fullTrans, tokenOffset + 1 + cmd.blockSize, 2⟩
      Recorded.record ⟨.fullTrans, tokenOffset + 1 + cmd.blockSize + 2, cmd.postBlockDelayBytes⟩
      writeBlocks turns (ii + 1)

/-- The acknowledgements of the blocks, from one on. -/
def readAcks : Nat → Nat → Recorded Access Int
  | 0, _ => pure 0
  | turns + 1, ii => do
      match ← findAck resp (15 + ii * cmd.totalBlockSize) cmd.totalBlockSize with
      | none => pure (-2)
      | some _ => readAcks turns (ii + 1)

/-- The blocks that are read, from one on: the status, and where they stood in the response. -/
def readBlocks : Nat → Nat → Nat → Recorded Access (Int × List Nat)
  | 0, _, _ => pure (0, [])
  | turns + 1, ii, ptr => do
      match ← findToken resp ptr cmd.postBlockDelayBytes with
      | none => pure (-2, [])
      | some ptr => do
          Recorded.record ⟨.resp, ptr + cmd.blockSize, 2⟩
          Recorded.record ⟨.resp, ptr, cmd.blockSize⟩
          if crc16Check resp ptr cmd.blockSize then do
            Recorded.record ⟨.data, ii * cmd.blockSize, cmd.blockSize⟩
            let rest ← readBlocks turns (ii + 1) (ptr + cmd.blockSize + 4)
            pure (rest.1, ptr :: rest.2)
          else pure (-2, [])

/-- What is filled in behind the header. -/
def fillTrans : Recorded Access PUnit :=
  if cmd.write then do
    Recorded.record ⟨.fullTrans, 7, 8⟩
    writeBlocks cmd cmd.loopCount 0
  else Recorded.record ⟨.fullTrans, 7, cmd.fullTransSize - 7⟩

/-- What is done with a response that says that the command succeeded. -/
def processResp : Recorded Access (Int × List Nat) :=
  if cmd.write then do
    let ret ← readAcks cmd resp cmd.loopCount 0
    pure (ret, [])
  else readBlocks cmd resp cmd.loopCount 0 11

/-- `sdio_over_spi_cmd53`, for buffers that may be missing, the status of the transfer, and what the
response and the memory behind it hold: the status, and where the blocks stood that were copied. -/
def cmd53 (allocated : Bool) (status : Int) : Recorded Access (Int × List Nat) :=
  if allocated then do
    prepCmd
    fillTrans cmd
    if status ≠ 0 then pure (status, [])
    else
      match ← cmdFindResp resp 7 4 with
      | none => pure (-2, [])
      | some _ => processResp cmd resp
  else pure (-2, [])

/-! ## What is relied on -/

/-- All accesses are inside the buffers. -/
def Inside (log : List Access) : Prop :=
  ∀ access ∈ log, access.start + access.length ≤ cmd.size access.buffer

/-- A block stands behind a start token and in front of its checksum. -/
def Verified (place : Nat) : Prop :=
  isStartToken (resp (place - 1)) = true ∧ crc16Check resp place cmd.blockSize = true

/-- The buffers are not left, and a read that succeeds copied every block behind a start token and
with its checksum. -/
structure Contained (allocated : Bool) (status : Int) : Prop where
  inside : Inside cmd (cmd53 cmd resp allocated status).log
  verified : cmd.write = false → (cmd53 cmd resp allocated status).value.1 = 0 →
    (cmd53 cmd resp allocated status).value.2.length = cmd.loopCount ∧
      ∀ place ∈ (cmd53 cmd resp allocated status).value.2, Verified cmd resp place

/-- Blocks with so many octets `0xFF` in front of each, of which the search passes as many, and all
but the last with their checksums. -/
def Laid : Nat → List Nat → Prop
  | _, [] => True
  | place, wait :: waits =>
      wait ≤ 28 ∧ (∀ index, index < wait → resp (place + index) = 0xFF) ∧
        isStartToken (resp (place + wait)) = true ∧
          (waits ≠ [] → crc16Check resp (place + wait + 1) 512 = true) ∧
            Laid (place + wait + 1 + 516) waits

/-- There is a block, and if the blocks of a read are behind so many octets then these are not too
many. -/
def Roomy (status : Int) : Prop :=
  cmd.blockMode = true → 1 ≤ cmd.count ∧
    (cmd.write = false → status = 0 → (cmdFindResp resp 7 4).value.isSome = true →
      ∀ waits, waits.length = cmd.count → Laid resp 11 waits → waits.sum ≤ 27 * cmd.count + 6)

variable {cmd resp}

/-! ## Searches -/

theorem inside_append {first second : List Access} :
    Inside cmd (first ++ second) ↔ Inside cmd first ∧ Inside cmd second :=
  List.forall_mem_append

theorem inside_cons {access : Access} {log : List Access} :
    Inside cmd (access :: log) ↔
      access.start + access.length ≤ cmd.size access.buffer ∧ Inside cmd log :=
  List.forall_mem_cons

theorem inside_nil : Inside cmd [] := fun _ mem => absurd mem List.not_mem_nil

theorem inside_find (accepts : BitVec 8 → Bool) (room : place + turns ≤ cmd.fullTransSize) :
    Inside cmd (find accepts resp turns place).log := by
  induction turns generalizing place with
  | zero => exact inside_nil
  | succ turns ih =>
    rw [find, Recorded.log_bind, Recorded.log_record, inside_append, inside_cons]
    refine ⟨⟨show place + 1 ≤ cmd.fullTransSize by omega, inside_nil⟩, ?_⟩
    split
    · exact ih (by omega)
    · split <;> exact inside_nil

theorem find_eq_some_iff :
    (find accepts resp turns place).value = some next ↔
      ∃ wait, wait < turns ∧ (∀ index, index < wait → resp (place + index) = 0xFF) ∧
        resp (place + wait) ≠ 0xFF ∧ accepts (resp (place + wait)) = true ∧
          next = place + wait + 1 := by
  induction turns generalizing place with
  | zero => simp [find]
  | succ turns ih =>
    simp only [find, Recorded.value_bind, Nat.exists_lt_succ_left, Nat.forall_lt_succ_left]
    by_cases idle : resp place = 0xFF#8
    · simp [idle, ih, Nat.add_assoc, Nat.add_comm 1]
    · by_cases accepted : accepts (resp place) = true <;>
        simp [idle, accepted, @eq_comm _ next]

theorem ne_of_isStartToken (token : isStartToken octet = true) : octet ≠ 0xFF := by
  rintro rfl
  exact absurd token (by decide)

theorem inside_cmdFindResp (room : 11 ≤ cmd.fullTransSize) :
    Inside cmd (cmdFindResp resp 7 4).log := by
  have from' : ∀ turns ii, ii + turns = 3 → Inside cmd (findRespFrom resp 7 4 turns ii).log := by
    intro turns
    induction turns with
    | zero => exact fun _ _ => inside_nil
    | succ turns ih =>
      intro ii total
      rw [findRespFrom, Recorded.log_bind, Recorded.log_record, inside_append, inside_cons]
      refine ⟨⟨show 7 + ii + 1 ≤ cmd.fullTransSize by omega, inside_nil⟩, ?_⟩
      split
      · exact ih (ii + 1) (by omega)
      · split
        · split
          · exact inside_cons.mpr ⟨show 7 + (ii + 1) + 1 ≤ cmd.fullTransSize by omega, inside_nil⟩
          · exact inside_nil
        · exact inside_nil
  exact from' 3 0 rfl

/-! ## Blocks -/

theorem fullTransSize_of_write (write : cmd.write = true) :
    cmd.fullTransSize = 15 + cmd.loopCount * cmd.totalBlockSize := by
  rw [Cmd53.fullTransSize, Cmd53.loopCount]
  split
  · rfl
  · rw [Nat.one_mul]

theorem block_le (write : cmd.write = true) (below : ii < cmd.loopCount) :
    15 + ii * cmd.totalBlockSize + cmd.totalBlockSize ≤ cmd.fullTransSize ∧
      ii * cmd.blockSize + cmd.blockSize ≤ cmd.loopCount * cmd.blockSize := by
  have place := Nat.mul_le_mul_right cmd.totalBlockSize (Nat.succ_le_of_lt below)
  have data := Nat.mul_le_mul_right cmd.blockSize (Nat.succ_le_of_lt below)
  rw [Nat.succ_mul] at place data
  rw [fullTransSize_of_write write]
  omega

theorem inside_writeBlocks (write : cmd.write = true) (total : ii + turns = cmd.loopCount) :
    Inside cmd (writeBlocks cmd turns ii).log := by
  induction turns generalizing ii with
  | zero => exact inside_nil
  | succ turns ih =>
    obtain ⟨place, data⟩ := block_le write (show ii < cmd.loopCount by omega)
    have size : cmd.totalBlockSize = 1 + cmd.blockSize + 2 + cmd.postBlockDelayBytes := if_pos write
    simp only [writeBlocks, Recorded.log_bind, Recorded.log_record, List.singleton_append,
      inside_cons, Cmd53.size]
    exact ⟨by omega, data, by omega, by omega, by omega, ih (by omega)⟩

theorem inside_readAcks (write : cmd.write = true) (total : ii + turns = cmd.loopCount) :
    Inside cmd (readAcks cmd resp turns ii).log := by
  induction turns generalizing ii with
  | zero => exact inside_nil
  | succ turns ih =>
    have place := (block_le write (show ii < cmd.loopCount by omega)).1
    rw [readAcks, Recorded.log_bind, inside_append]
    refine ⟨inside_find _ (by omega), ?_⟩
    split
    · exact inside_nil
    · exact ih (by omega)

theorem verified_readBlocks (succeeds : (readBlocks cmd resp turns ii ptr).value.1 = 0) :
    (readBlocks cmd resp turns ii ptr).value.2.length = turns ∧
      ∀ place ∈ (readBlocks cmd resp turns ii ptr).value.2, Verified cmd resp place := by
  induction turns generalizing ii ptr with
  | zero => exact ⟨rfl, fun _ mem => absurd mem List.not_mem_nil⟩
  | succ turns ih =>
    rw [readBlocks] at succeeds ⊢
    rcases found : (findToken resp ptr cmd.postBlockDelayBytes).value with _ | place
    · simp [found] at succeeds
    · obtain ⟨wait, -, -, -, token, rfl⟩ := find_eq_some_iff.mp found
      simp only [found, Recorded.value_bind] at succeeds ⊢
      by_cases checked : crc16Check resp (ptr + wait + 1) cmd.blockSize = true
      · rw [if_pos checked] at succeeds ⊢
        obtain ⟨length, verified⟩ := ih succeeds
        exact ⟨congrArg (· + 1) length, List.forall_mem_cons.mpr ⟨⟨token, checked⟩, verified⟩⟩
      · rw [if_neg checked] at succeeds
        cases succeeds

theorem laid_cons_iff (found : (findToken resp ptr 30).value = some place) :
    Laid resp ptr (wait :: waits) ↔
      place = ptr + wait + 1 ∧ (waits ≠ [] → crc16Check resp place 512 = true) ∧
        Laid resp (place + 516) waits := by
  constructor
  · rintro ⟨few, passed, token, checked, rest⟩
    have again : (findToken resp ptr 30).value = some (ptr + wait + 1) :=
      find_eq_some_iff.mpr ⟨wait, by omega, passed, ne_of_isStartToken token, token, rfl⟩
    obtain rfl := Option.some.inj (found.symm.trans again)
    exact ⟨rfl, checked, rest⟩
  · rintro ⟨rfl, checked, rest⟩
    obtain ⟨wait', few, passed, -, token, same⟩ := find_eq_some_iff.mp found
    obtain rfl : wait = wait' := by omega
    exact ⟨by omega, passed, token, checked, rest⟩

/-- A read of blocks. -/
structure ReadsBlocks (cmd : Cmd53) : Prop where
  write : cmd.write = false
  blockMode : cmd.blockMode = true

namespace ReadsBlocks

theorem blockSize_eq (reads : ReadsBlocks cmd) : cmd.blockSize = 512 := if_pos reads.blockMode

theorem loopCount_eq (reads : ReadsBlocks cmd) : cmd.loopCount = cmd.count :=
  if_pos reads.blockMode

theorem delay_eq (reads : ReadsBlocks cmd) : cmd.postBlockDelayBytes = 30 := by
  rw [Cmd53.postBlockDelayBytes, reads.write, reads.blockMode]
  rfl

theorem fullTransSize_eq (reads : ReadsBlocks cmd) :
    cmd.fullTransSize = 15 + 544 * cmd.count := by
  simp only [Cmd53.fullTransSize, if_pos reads.blockMode, Cmd53.totalBlockSize, reads.write,
    reads.blockSize_eq, reads.delay_eq, Bool.false_eq_true, if_false, Nat.mul_comm]

theorem search_le (reads : ReadsBlocks cmd) (place_le : ptr ≤ 11 + 545 * ii)
    (below : ii < cmd.count) : ptr + 29 ≤ cmd.fullTransSize := by
  have count_lt := cmd.count_lt reads.blockMode
  rw [reads.fullTransSize_eq]
  omega

theorem inside_succ_iff (reads : ReadsBlocks cmd) (room : ptr + 29 ≤ cmd.fullTransSize)
    (below : ii < cmd.count) (found : (findToken resp ptr 30).value = some place) :
    Inside cmd (readBlocks cmd resp (turns + 1) ii ptr).log ↔
      place + 514 ≤ cmd.fullTransSize ∧ (crc16Check resp place 512 = true →
        Inside cmd (readBlocks cmd resp turns (ii + 1) (place + 516)).log) := by
  have search : Inside cmd (findToken resp ptr 30).log := inside_find _ room
  have data : ii * 512 + 512 ≤ cmd.count * 512 := by
    have := Nat.mul_le_mul_right 512 (Nat.succ_le_of_lt below)
    omega
  simp only [readBlocks, reads.delay_eq, reads.blockSize_eq, Recorded.log_bind, found, inside_append,
    search, true_and, Recorded.log_record, inside_cons, inside_nil, Cmd53.size]
  by_cases checked : crc16Check resp place 512 = true
  · simp only [checked, if_true, Recorded.log_bind, Recorded.log_record, inside_append, inside_cons,
      inside_nil, Cmd53.size, reads.blockSize_eq, reads.loopCount_eq, data, Recorded.log_pure,
      true_and, and_true, true_imp_iff, Nat.add_assoc, Nat.reduceAdd]
    refine ⟨fun ⟨checksum, _, rest⟩ => ⟨checksum, rest⟩, fun ⟨checksum, rest⟩ =>
      ⟨checksum, by omega, rest⟩⟩
  · simp only [checked, Bool.false_eq_true, if_false, Recorded.log_pure, inside_nil, and_true,
      false_imp_iff, Nat.add_assoc, Nat.reduceAdd]
    refine ⟨fun ⟨checksum, _⟩ => checksum, fun checksum => ⟨checksum, by omega⟩⟩

theorem inside_of_none (reads : ReadsBlocks cmd) (room : ptr + 29 ≤ cmd.fullTransSize)
    (found : (findToken resp ptr 30).value = none) :
    Inside cmd (readBlocks cmd resp (turns + 1) ii ptr).log ∧
      ∀ waits, waits.length = turns + 1 → ¬ Laid resp ptr waits := by
  have search : Inside cmd (findToken resp ptr 30).log := inside_find _ room
  constructor
  · simp only [readBlocks, reads.delay_eq, Recorded.log_bind, found, inside_append, search,
      Recorded.log_pure, inside_nil, and_self]
  · intro waits length laid
    obtain ⟨wait, waits, rfl⟩ := List.exists_cons_of_length_eq_add_one length
    obtain ⟨few, passed, token, -⟩ := laid
    have again : (findToken resp ptr 30).value = some (ptr + wait + 1) :=
      find_eq_some_iff.mpr ⟨wait, by omega, passed, ne_of_isStartToken token, token, rfl⟩
    cases found.symm.trans again

theorem sum_step (ptr wait sum turns : Nat) : ptr + (wait + sum) + 517 * (turns + 1 + 1) =
    ptr + wait + 1 + 516 + sum + 517 * (turns + 1) := by
  omega

theorem inside_iff (reads : ReadsBlocks cmd) (place_le : ptr ≤ 11 + 545 * ii)
    (total : ii + (turns + 1) = cmd.count) :
    Inside cmd (readBlocks cmd resp (turns + 1) ii ptr).log ↔
      ∀ waits, waits.length = turns + 1 → Laid resp ptr waits →
        ptr + waits.sum + 517 * (turns + 1) ≤ 17 + 544 * cmd.count := by
  induction turns generalizing ii ptr with
  | zero =>
    rcases found : (findToken resp ptr 30).value with _ | place
    · obtain ⟨inside, missing⟩ := reads.inside_of_none (reads.search_le place_le (by omega)) found
      exact iff_of_true inside fun waits length laid => absurd laid (missing waits length)
    · obtain ⟨wait, few, -, -, -, place_eq⟩ := find_eq_some_iff.mp found
      rw [reads.inside_succ_iff (reads.search_le place_le (by omega)) (by omega) found,
        reads.fullTransSize_eq]
      constructor
      · rintro ⟨inside, -⟩ waits length laid
        obtain ⟨other, rest, rfl⟩ := List.exists_cons_of_length_eq_add_one length
        obtain rfl : rest = [] := by simpa using length
        have same := ((laid_cons_iff found).mp laid).1
        rw [List.sum_singleton]
        omega
      · intro bounds
        have bound := bounds [wait] rfl ((laid_cons_iff found).mpr
          ⟨place_eq, fun more => absurd rfl more, trivial⟩)
        rw [List.sum_singleton] at bound
        exact ⟨by omega, fun _ => inside_nil⟩
  | succ turns ih =>
    rcases found : (findToken resp ptr 30).value with _ | place
    · obtain ⟨inside, missing⟩ := reads.inside_of_none (reads.search_le place_le (by omega)) found
      exact iff_of_true inside fun waits length laid => absurd laid (missing waits length)
    · obtain ⟨wait, few, -, -, -, place_eq⟩ := find_eq_some_iff.mp found
      rw [reads.inside_succ_iff (reads.search_le place_le (by omega)) (by omega) found,
        reads.fullTransSize_eq]
      constructor
      · rintro ⟨-, rest⟩ waits length laid
        obtain ⟨other, waits, rfl⟩ := List.exists_cons_of_length_eq_add_one length
        rw [List.length_cons, Nat.add_right_cancel_iff] at length
        obtain ⟨same, checked, laid⟩ := (laid_cons_iff found).mp laid
        have more : waits ≠ [] := List.ne_nil_of_length_eq_add_one length
        have bound := (ih (by omega) (by omega)).mp (rest (checked more)) waits length laid
        rw [List.sum_cons, sum_step, ← same]
        exact bound
      · intro bounds
        have place_le : place + 516 ≤ 11 + 545 * (ii + 1) := by omega
        have next := reads.search_le place_le (by omega)
        rw [reads.fullTransSize_eq] at next
        refine ⟨by omega, fun checked => (ih place_le (by omega)).mpr fun waits length laid => ?_⟩
        have bound := bounds (wait :: waits) (congrArg (· + 1) length)
          ((laid_cons_iff found).mpr ⟨place_eq, fun _ => checked, laid⟩)
        rw [List.sum_cons, sum_step, ← place_eq] at bound
        exact bound

end ReadsBlocks

/-! ## The whole command -/

theorem header_le_iff : 20 ≤ cmd.fullTransSize ↔ (cmd.blockMode = true → 1 ≤ cmd.count) := by
  rw [Cmd53.fullTransSize, Cmd53.totalBlockSize, Cmd53.postBlockDelayBytes, Cmd53.blockSize]
  cases cmd.blockMode <;> cases cmd.write <;>
    simp only [Bool.false_eq_true, reduceCtorEq, if_true, if_false, false_imp_iff, true_imp_iff,
      iff_true] <;>
    omega

theorem inside_prepCmd_iff :
    Inside cmd prepCmd.log ↔ (cmd.blockMode = true → 1 ≤ cmd.count) := by
  rw [← header_le_iff]
  simp only [prepCmd, Recorded.log_bind, Recorded.log_record, List.singleton_append, inside_cons,
    Cmd53.size]
  constructor
  · rintro ⟨-, -, long, -⟩
    exact long
  · exact fun long => ⟨by omega, by omega, long, by omega, inside_nil⟩

theorem inside_readBytes (write : cmd.write = false) (blockMode : cmd.blockMode = false) :
    Inside cmd (readBlocks cmd resp 1 0 11).log := by
  have delay : cmd.postBlockDelayBytes = 250 := by
    rw [Cmd53.postBlockDelayBytes, write, blockMode]
    rfl
  have block : cmd.blockSize = cmd.count := by simp [Cmd53.blockSize, blockMode]
  have size : cmd.fullTransSize = 269 + cmd.count := by
    simp [Cmd53.fullTransSize, Cmd53.totalBlockSize, blockMode, write, delay, block]
    omega
  have loop : cmd.loopCount = 1 := by simp [Cmd53.loopCount, blockMode]
  have search : Inside cmd (findToken resp 11 250).log := inside_find _ (by omega)
  rcases found : (findToken resp 11 250).value with _ | place
  · simp only [readBlocks, delay, Recorded.log_bind, found, inside_append, search,
      Recorded.log_pure, inside_nil, and_self]
  · obtain ⟨wait, few, -, -, -, place_eq⟩ := find_eq_some_iff.mp found
    simp only [readBlocks, delay, block, Recorded.log_bind, found, inside_append, search, true_and,
      Recorded.log_record, inside_cons, inside_nil, Cmd53.size, size]
    refine ⟨⟨by omega, trivial⟩, ⟨by omega, trivial⟩, ?_⟩
    split
    · simp [inside_cons, inside_nil, Cmd53.size, block, loop]
    · exact inside_nil

theorem ReadsBlocks.inside_readBlocks_iff (reads : ReadsBlocks cmd) (any : 1 ≤ cmd.count) :
    Inside cmd (readBlocks cmd resp cmd.loopCount 0 11).log ↔
      ∀ waits, waits.length = cmd.count → Laid resp 11 waits →
        waits.sum ≤ 27 * cmd.count + 6 := by
  obtain ⟨turns, count⟩ := Nat.exists_eq_add_of_le' any
  rw [reads.loopCount_eq, count, reads.inside_iff (Nat.le_refl 11) (by omega), count]
  have bound (sum : Nat) :
      11 + sum + 517 * (turns + 1) ≤ 17 + 544 * (turns + 1) ↔ sum ≤ 27 * (turns + 1) + 6 := by
    omega
  simp only [bound]

theorem verified_cmd53 (write : cmd.write = false)
    (succeeds : (cmd53 cmd resp allocated status).value.1 = 0) :
    (cmd53 cmd resp allocated status).value.2.length = cmd.loopCount ∧
      ∀ place ∈ (cmd53 cmd resp allocated status).value.2, Verified cmd resp place := by
  rw [cmd53] at succeeds ⊢
  cases allocated with
  | false => cases succeeds
  | true =>
    simp only [if_true, Recorded.value_bind] at succeeds ⊢
    split at succeeds
    · next failed => exact absurd succeeds failed
    · next sent =>
      rw [if_neg sent]
      rw [Recorded.value_bind] at succeeds ⊢
      cases found : (cmdFindResp resp 7 4).value with
      | none =>
        rw [found] at succeeds
        cases succeeds
      | some place =>
        rw [found] at succeeds
        simp only [processResp, write, Bool.false_eq_true, if_false] at succeeds ⊢
        exact verified_readBlocks succeeds

theorem inside_processResp_iff (any : cmd.blockMode = true → 1 ≤ cmd.count) :
    Inside cmd (processResp cmd resp).log ↔
      (cmd.blockMode = true → cmd.write = false → ∀ waits, waits.length = cmd.count →
        Laid resp 11 waits → waits.sum ≤ 27 * cmd.count + 6) := by
  rw [processResp]
  cases write : cmd.write with
  | true =>
    refine iff_of_true ?_ fun _ wrong => Bool.noConfusion wrong
    rw [if_pos rfl, Recorded.log_bind, inside_append]
    exact ⟨inside_readAcks write (Nat.zero_add _), inside_nil⟩
  | false =>
    rw [if_neg Bool.false_ne_true]
    cases blockMode : cmd.blockMode with
    | true =>
      simp only [ReadsBlocks.inside_readBlocks_iff ⟨write, blockMode⟩ (any blockMode),
        true_imp_iff]
    | false =>
      have loop : cmd.loopCount = 1 := by simp [Cmd53.loopCount, blockMode]
      rw [loop]
      exact iff_of_true (inside_readBytes write blockMode) fun wrong => Bool.noConfusion wrong

theorem inside_fillTrans (long : 20 ≤ cmd.fullTransSize) : Inside cmd (fillTrans cmd).log := by
  rw [fillTrans]
  split
  · next write =>
      rw [Recorded.log_bind, Recorded.log_record, inside_append, inside_cons]
      exact ⟨⟨show 7 + 8 ≤ cmd.fullTransSize by omega, inside_nil⟩,
        inside_writeBlocks write (Nat.zero_add _)⟩
  · exact inside_cons.mpr ⟨show 7 + (cmd.fullTransSize - 7) ≤ cmd.fullTransSize by omega, inside_nil⟩

theorem inside_cmd53_iff :
    Inside cmd (cmd53 cmd resp true status).log ↔ Roomy cmd resp status := by
  rw [cmd53, if_pos rfl, Recorded.log_bind, inside_append, inside_prepCmd_iff]
  by_cases any : cmd.blockMode = true → 1 ≤ cmd.count
  case neg =>
    refine iff_of_false (fun inside => any inside.1) fun roomy => any fun blockMode => ?_
    exact (roomy blockMode).1
  rw [Recorded.log_bind, inside_append, and_iff_right any,
    and_iff_right (inside_fillTrans (header_le_iff.mpr any))]
  by_cases sent : status = 0
  case neg =>
    rw [if_pos sent]
    exact iff_of_true inside_nil fun blockMode => ⟨any blockMode, fun _ wrong => absurd wrong sent⟩
  have room : 11 ≤ cmd.fullTransSize := Nat.le_trans (by decide) (header_le_iff.mpr any)
  rw [if_neg (not_not_intro sent), Recorded.log_bind, inside_append,
    and_iff_right (inside_cmdFindResp room)]
  cases found : (cmdFindResp resp 7 4).value with
  | none =>
    refine iff_of_true inside_nil fun blockMode => ⟨any blockMode, fun _ _ wrong => ?_⟩
    rw [found] at wrong
    cases wrong
  | some place =>
    refine (inside_processResp_iff any).trans ?_
    rw [Roomy, found]
    exact forall_congr' fun blockMode => ⟨fun bounds => ⟨any blockMode, fun write _ _ => bounds write⟩,
      fun bounds write => bounds.2 write sent rfl⟩

variable (cmd resp)

/-- The buffers are not left, and what is read is verified, exactly when the transaction has room. -/
theorem cmd53_contained_iff (allocated : Bool) (status : Int) :
    Contained cmd resp allocated status ↔ (allocated = true → Roomy cmd resp status) := by
  cases allocated with
  | false =>
    exact iff_of_true ⟨inside_nil, verified_cmd53⟩ fun wrong => Bool.noConfusion wrong
  | true =>
    rw [← inside_cmd53_iff]
    exact ⟨fun contained _ => contained.inside, fun inside => ⟨inside rfl, verified_cmd53⟩⟩

end Cmd53

end Sdio
end Morse
