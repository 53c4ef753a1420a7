import Morse.Cmd.Defs

/-!
# Response frames of any length

A response is taken from a frame whose length nothing compares with what is read of it: the
header, the length that this gives, and the status.  What is copied to the caller follows
the length of the header and that of the buffer of the caller, who then reads the status
there.  This module says for which frames and buffers nothing beyond the frame is read and
the status is that of the frame.
-/

namespace Morse
namespace Cmd

open Lib

/-! ## Memory -/

/-- The octets from an address on. -/
abbrev Memory := Nat → BitVec 8

/-- The number of so many octets at an offset. -/
def Memory.number (w count offset : Nat) (memory : Memory) : BitVec w :=
  BitVec.ofNat w (octetsNat ((List.range' offset count).map memory))

/-- A received frame, whose length is one of 32 bits. -/
structure RespFrame where
  octets : List (BitVec 8)
  fits : octets.length < 4294967296

/-- The octets of a frame and those behind it. -/
def RespFrame.memory (frame : RespFrame) (behind : Memory) : Memory :=
  fun i => (frame.octets[i]?).getD (behind i)

/-- A number of type `int` as one of type `size_t`. -/
def sizeT (value : Int) : Nat := (value % 18446744073709551616).toNat

/-! ## The code -/

/-- What is compared of the command that is pending. -/
structure PendingReq where
  messageId : BitVec 16
  hostId : BitVec 16
  deriving DecidableEq, Repr

/-- The arguments of `morse_cmd_tx` about the response: the length of the buffer, and whether
there is one. -/
structure Recipient where
  length : BitVec 32
  hasResp : Bool
  deriving DecidableEq, Repr

/-- `MORSE_CMD_IS_RESP`. -/
def isResp (frame : Memory) : Bool := decide (frame.number 16 2 0 &&& cmdTypeResp ≠ 0)

/-- The frame is not a late response to another command. -/
def PendingReq.isAnsweredBy (pending : PendingReq) (frame : Memory) : Bool :=
  decide (pending.messageId = frame.number 16 2 2) &&
    decide (pending.hostId &&& hostIdSeqMask = frame.number 16 2 6 &&& hostIdSeqMask)

/-- The length is at least that of `struct morse_cmd_resp`, as an unsigned number, and there
is a buffer. -/
def Recipient.copies (recipient : Recipient) : Bool :=
  decide (cmdRespSize ≤ sizeT recipient.length.toInt) && recipient.hasResp

/-- The count that is passed to `memcpy`. -/
def Recipient.copyLength (recipient : Recipient) (frame : Memory) : Nat :=
  sizeT (min recipient.length.toInt (((frame.number 16 2 4).toNat + cmdHeaderSize : Nat) : Int))

/-- What becomes of a frame: it is no response, or one to another command, or the pending
command has its response, with the octets of the buffer and the result in the control block. -/
inductive RespOutcome
  | event
  | late
  | answered (resp : Memory) (ret : BitVec 32)

/-- `morse_cmd_resp_process`, with a command pending. -/
def respProcess (pending : PendingReq) (recipient : Recipient) (frame resp : Memory) :
    RespOutcome :=
  if !isResp frame then .event
  else if !pending.isAnsweredBy frame then .late
  else if recipient.copies then
    .answered (fun i => if i < recipient.copyLength frame then frame i else resp i) 0
  else .answered resp (frame.number 32 4 cmdHeaderSize)

/-- How many octets of the frame `morse_cmd_resp_process` reads: those of the header up to
the number of the command, and those copied or up to the status. -/
def respReach (pending : PendingReq) (recipient : Recipient) (frame : Memory) : Nat :=
  if !isResp frame then 8
  else if !pending.isAnsweredBy frame then 8
  else if recipient.copies then max 8 (recipient.copyLength frame)
  else cmdRespSize

/-- The status that `morse_cmd_tx` returns when its wait is completed by a response. -/
def txStatus (recipient : Recipient) : RespOutcome → Option (BitVec 32)
  | .event => none
  | .late => none
  | .answered resp ret =>
    if recipient.length ≠ 0 ∧ recipient.hasResp = true then
      some (resp.number 32 4 cmdHeaderSize)
    else some ret

/-! ## What is expected -/

/-- Nothing beyond the frame is read, and the status neither depends on what is there nor on
what was in the buffer before. -/
structure WellDefined (pending : PendingReq) (recipient : Recipient) (frame : RespFrame) :
    Prop where
  within : ∀ behind, respReach pending recipient (frame.memory behind) ≤ frame.octets.length
  determined : ∀ behind other resp resp',
    txStatus recipient (respProcess pending recipient (frame.memory behind) resp) =
      txStatus recipient (respProcess pending recipient (frame.memory other) resp')

/-- The octets of a frame alone, for what is read within it. -/
def RespFrame.own (frame : RespFrame) : Memory := frame.memory fun _ => 0

/-- The header is within the frame.  If the frame is the response to the pending command, then
with a buffer, the buffer and the response hold a status and what is copied is within the
frame; and without one the status is within the frame. -/
def Sized (pending : PendingReq) (recipient : Recipient) (frame : RespFrame) : Prop :=
  8 ≤ frame.octets.length ∧
    (isResp frame.own = true → pending.isAnsweredBy frame.own = true →
      if recipient.length ≠ 0 ∧ recipient.hasResp = true then
        (cmdRespSize ≤ recipient.length.toNat ∧ recipient.length.toNat < 2147483648) ∧
          4 ≤ (frame.own.number 16 2 4).toNat ∧
          min recipient.length.toNat ((frame.own.number 16 2 4).toNat + cmdHeaderSize) ≤
            frame.octets.length
      else cmdRespSize ≤ frame.octets.length)

/-! ## Reading memory -/

variable {pending : PendingReq} {recipient : Recipient} {frame : RespFrame}

variable {w count offset : Nat}

theorem number_congr {memory other : Memory}
    (same : ∀ i, offset ≤ i → i < offset + count → memory i = other i) :
    memory.number w count offset = other.number w count offset := by
  have octets : (List.range' offset count).map memory = (List.range' offset count).map other := by
    apply List.map_congr_left
    intro i listed
    obtain ⟨lower, upper⟩ := List.mem_range'_1.mp listed
    exact same i lower upper
  rw [Memory.number, Memory.number, octets]

theorem last_of_number_eq {memory other : Memory}
    (same : memory.number 32 4 offset = other.number 32 4 offset) :
    memory (offset + 3) = other (offset + 3) := by
  have value (octets : Memory) : (octets.number 32 4 offset).toNat =
      ((octets offset).toNat + 256 * ((octets (offset + 1)).toNat +
        256 * ((octets (offset + 2)).toNat + 256 * ((octets (offset + 3)).toNat + 256 * 0)))) %
        4294967296 := BitVec.toNat_ofNat _ 32
  have equal := congrArg BitVec.toNat same
  rw [value, value] at equal
  apply BitVec.eq_of_toNat_eq
  omega

theorem memory_of_lt (within : i < frame.octets.length) (behind other : Memory) :
    frame.memory behind i = frame.memory other i := by
  rw [RespFrame.memory, RespFrame.memory, List.getElem?_eq_getElem within, Option.getD_some,
    Option.getD_some]

theorem number_memory (within : offset + count ≤ frame.octets.length) (behind : Memory) :
    (frame.memory behind).number w count offset = frame.own.number w count offset := by
  apply number_congr
  intro i _ upper
  exact memory_of_lt (Nat.lt_of_lt_of_le upper within) behind _

theorem isResp_memory (header : 8 ≤ frame.octets.length) (behind : Memory) :
    isResp (frame.memory behind) = isResp frame.own := by
  rw [isResp, isResp, number_memory (by omega)]

theorem isAnsweredBy_memory (header : 8 ≤ frame.octets.length) (behind : Memory) :
    pending.isAnsweredBy (frame.memory behind) = pending.isAnsweredBy frame.own := by
  rw [PendingReq.isAnsweredBy, PendingReq.isAnsweredBy, number_memory (by omega),
    number_memory (by omega)]

/-! ## Lengths -/

theorem toInt_of_small (small : recipient.length.toNat < 2147483648) :
    recipient.length.toInt = recipient.length.toNat := by
  apply BitVec.toInt_eq_toNat_of_lt
  omega

theorem toInt_of_large (large : ¬ recipient.length.toNat < 2147483648) :
    recipient.length.toInt = recipient.length.toNat - 4294967296 := by
  rw [BitVec.toInt_eq_toNat_cond, if_neg (by omega)]
  rfl

theorem copies_iff :
    recipient.copies = true ↔
      cmdRespSize ≤ recipient.length.toNat ∧ recipient.hasResp = true := by
  have size : cmdRespSize = 16 := rfl
  rw [Recipient.copies, Bool.and_eq_true, decide_eq_true_eq, sizeT]
  apply and_congr_left
  by_cases small : recipient.length.toNat < 2147483648
  · rw [toInt_of_small small]
    omega
  · rw [toInt_of_large small]
    omega

theorem copyLength_of_small (small : recipient.length.toNat < 2147483648) (memory : Memory) :
    recipient.copyLength memory =
      min recipient.length.toNat ((memory.number 16 2 4).toNat + cmdHeaderSize) := by
  rw [Recipient.copyLength, sizeT, toInt_of_small small]
  omega

theorem copyLength_of_large (large : ¬ recipient.length.toNat < 2147483648) (memory : Memory) :
    4294967296 ≤ recipient.copyLength memory := by
  rw [Recipient.copyLength, sizeT, toInt_of_large large]
  omega

/-! ## Responses to the pending command -/

theorem le_respReach (memory : Memory) : 8 ≤ respReach pending recipient memory := by
  rw [respReach]
  split
  · exact Nat.le_refl 8
  · split
    · exact Nat.le_refl 8
    · split
      · exact Nat.le_max_left _ _
      · decide

variable {memory : Memory}

theorem respReach_of_answer (response : isResp memory = true)
    (answer : pending.isAnsweredBy memory = true) :
    respReach pending recipient memory =
      if recipient.copies then max 8 (recipient.copyLength memory) else cmdRespSize := by
  rw [respReach, response, answer]
  rfl

theorem respProcess_of_answer (response : isResp memory = true)
    (answer : pending.isAnsweredBy memory = true) (resp : Memory) :
    respProcess pending recipient memory resp =
      if recipient.copies then
        .answered (fun i => if i < recipient.copyLength memory then memory i else resp i) 0
      else .answered resp (memory.number 32 4 cmdHeaderSize) := by
  rw [respProcess, response, answer]
  rfl

theorem txStatus_of_buffer (buffer : recipient.length ≠ 0 ∧ recipient.hasResp = true)
    (resp : Memory) (ret : BitVec 32) :
    txStatus recipient (.answered resp ret) = some (resp.number 32 4 cmdHeaderSize) := by
  rw [txStatus, if_pos buffer]

theorem txStatus_of_no_buffer (noBuffer : ¬ (recipient.length ≠ 0 ∧ recipient.hasResp = true))
    (resp : Memory) (ret : BitVec 32) :
    txStatus recipient (.answered resp ret) = some ret := by
  rw [txStatus, if_neg noBuffer]

theorem not_copies_of_no_buffer (noBuffer : ¬ (recipient.length ≠ 0 ∧ recipient.hasResp = true)) :
    ¬ recipient.copies = true := by
  intro copies
  obtain ⟨long, hasResp⟩ := copies_iff.mp copies
  apply noBuffer
  refine ⟨?_, hasResp⟩
  intro zero
  rw [zero] at long
  exact absurd long (by decide)

/-! ## Necessity -/

theorem status_copied (buffer : recipient.length ≠ 0 ∧ recipient.hasResp = true)
    (response : isResp memory = true) (answer : pending.isAnsweredBy memory = true)
    (determined : ∀ resp resp',
      txStatus recipient (respProcess pending recipient memory resp) =
        txStatus recipient (respProcess pending recipient memory resp')) :
    recipient.copies = true ∧ cmdRespSize ≤ recipient.copyLength memory := by
  have equal := determined (fun _ => 0) (fun _ => 1)
  rw [respProcess_of_answer response answer, respProcess_of_answer response answer] at equal
  by_cases copies : recipient.copies = true
  · rw [if_pos copies, if_pos copies, txStatus_of_buffer buffer,
      txStatus_of_buffer buffer] at equal
    have last := last_of_number_eq (Option.some.inj equal)
    refine ⟨copies, ?_⟩
    by_contra short
    have behind : ¬ cmdHeaderSize + 3 < recipient.copyLength memory := by
      rw [cmdRespSize] at short
      rw [cmdHeaderSize]
      omega
    rw [if_neg behind, if_neg behind] at last
    exact absurd last (by decide)
  · rw [if_neg copies, if_neg copies, txStatus_of_buffer buffer,
      txStatus_of_buffer buffer] at equal
    exact absurd (last_of_number_eq (Option.some.inj equal)) (by decide)

theorem sized_of_wellDefined (defined : WellDefined pending recipient frame) :
    Sized pending recipient frame := by
  have reached := defined.within fun _ => 0
  refine ⟨Nat.le_trans (le_respReach _) reached, ?_⟩
  intro response answer
  change respReach pending recipient frame.own ≤ frame.octets.length at reached
  rw [respReach_of_answer response answer] at reached
  split
  · next buffer =>
      obtain ⟨copies, whole⟩ := status_copied buffer response answer
        fun resp resp' => defined.determined (fun _ => 0) (fun _ => 0) resp resp'
      rw [if_pos copies] at reached
      have copied := Nat.le_trans (Nat.le_max_right 8 _) reached
      have small : recipient.length.toNat < 2147483648 := by
        by_contra large
        have huge := copyLength_of_large large frame.own
        have fits := frame.fits
        omega
      rw [copyLength_of_small small] at copied whole
      rw [cmdRespSize, cmdHeaderSize] at whole
      exact ⟨⟨(copies_iff.mp copies).1, small⟩, by omega, copied⟩
  · next noBuffer =>
      rw [if_neg (not_copies_of_no_buffer noBuffer)] at reached
      exact reached

/-! ## Sufficiency -/

theorem within_of_sized (sized : Sized pending recipient frame) (behind : Memory) :
    respReach pending recipient (frame.memory behind) ≤ frame.octets.length := by
  obtain ⟨header, sizes⟩ := sized
  have response := isResp_memory header behind
  have answer : pending.isAnsweredBy (frame.memory behind) = pending.isAnsweredBy frame.own :=
    isAnsweredBy_memory header behind
  rw [respReach, response, answer]
  cases ofResp : isResp frame.own with
  | false => exact header
  | true =>
    cases ofAnswer : pending.isAnsweredBy frame.own with
    | false => exact header
    | true =>
      have own := sizes ofResp ofAnswer
      have len : (frame.memory behind).number 16 2 4 = frame.own.number 16 2 4 :=
        number_memory (by omega) behind
      simp only [Bool.not_true, Bool.false_eq_true, if_false]
      split
      · next copies =>
          obtain ⟨long, hasResp⟩ := copies_iff.mp copies
          have nonzero : recipient.length ≠ 0 := by
            intro zero
            rw [zero] at long
            exact absurd long (by decide)
          rw [if_pos ⟨nonzero, hasResp⟩] at own
          rw [copyLength_of_small own.1.2, len]
          exact Nat.max_le.mpr ⟨header, own.2.2⟩
      · next keeps =>
          split at own
          · next buffer => exact absurd (copies_iff.mpr ⟨own.1.1, buffer.2⟩) keeps
          · exact own

theorem txStatus_of_sized (sized : Sized pending recipient frame) (behind resp : Memory) :
    txStatus recipient (respProcess pending recipient (frame.memory behind) resp) =
      if isResp frame.own = true ∧ pending.isAnsweredBy frame.own = true then
        some (frame.own.number 32 4 cmdHeaderSize)
      else none := by
  obtain ⟨header, sizes⟩ := sized
  have response := isResp_memory header behind
  have answer : pending.isAnsweredBy (frame.memory behind) = pending.isAnsweredBy frame.own :=
    isAnsweredBy_memory header behind
  by_cases answers : isResp frame.own = true ∧ pending.isAnsweredBy frame.own = true
  · have own := sizes answers.1 answers.2
    have len : (frame.memory behind).number 16 2 4 = frame.own.number 16 2 4 :=
      number_memory (by omega) behind
    rw [if_pos answers, respProcess_of_answer (response.trans answers.1) (answer.trans answers.2)]
    by_cases buffer : recipient.length ≠ 0 ∧ recipient.hasResp = true
    · rw [if_pos buffer] at own
      rw [if_pos (copies_iff.mpr ⟨own.1.1, buffer.2⟩), txStatus_of_buffer buffer]
      congr 1
      apply number_congr
      intro i _ upper
      have whole : i < recipient.copyLength (frame.memory behind) := by
        rw [copyLength_of_small own.1.2, len]
        have long := own.1.1
        rw [cmdRespSize] at long
        rw [cmdHeaderSize] at upper ⊢
        omega
      have inside : i < frame.octets.length := by
        rw [copyLength_of_small own.1.2, len] at whole
        exact Nat.lt_of_lt_of_le whole own.2.2
      rw [if_pos whole]
      exact memory_of_lt inside behind _
    · rw [if_neg buffer] at own
      rw [if_neg (not_copies_of_no_buffer buffer), txStatus_of_no_buffer buffer]
      congr 1
      exact number_memory own behind
  · rw [respProcess, response, answer]
    cases ofResp : isResp frame.own with
    | false => rfl
    | true =>
      cases ofAnswer : pending.isAnsweredBy frame.own with
      | false => rfl
      | true => exact absurd ⟨ofResp, ofAnswer⟩ answers

/-- Nothing beyond a frame is read and the status is determined by it if and only if the
buffer, the length in the header and the frame have the sizes for it. -/
theorem wellDefined_iff (pending : PendingReq) (recipient : Recipient) (frame : RespFrame) :
    WellDefined pending recipient frame ↔ Sized pending recipient frame := by
  constructor
  · exact sized_of_wellDefined
  · intro sized
    refine ⟨within_of_sized sized, ?_⟩
    intro behind other resp resp'
    rw [txStatus_of_sized sized, txStatus_of_sized sized]

/-- A response to command 1 with number 0x10, the length zero in its header, and a status. -/
def emptyResponse : RespFrame where
  octets := [2, 0, 1, 0, 0, 0, 0x10, 0, 0, 0, 0, 0, 0xFF, 0xFF, 0xFF, 0xFF]
  fits := by decide

/-- The status of a response whose header has the length zero is that of the buffer before. -/
theorem not_wellDefined_emptyResponse :
    ¬ WellDefined ⟨1, 0x10⟩ ⟨16, true⟩ emptyResponse := by
  intro defined
  have equal := defined.determined (fun _ => 0) (fun _ => 0) (fun _ => 0) (fun _ => 1)
  exact absurd equal (by decide)

end Cmd
end Morse
