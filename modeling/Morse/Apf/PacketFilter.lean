import Mathlib.Algebra.Group.Nat.Defs
import Mathlib.Data.Nat.Basic
import Mathlib.Tactic.Common

/-!
# The memory of the packet filter

User space sets the program of the packet filter of the chip, or reads its memory, with a vendor
command whose attributes say how long the program is and where it starts.
-/

namespace Morse
namespace Apf

/-- An attribute: its length, and the octets of the memory in which it lies, from its payload on. -/
structure Attr where
  len : Nat
  memory : Nat → UInt8

/-- `nla_get_u32`, which reads four octets whatever the length is. -/
def nlaGetU32 (attr : Attr) : Nat :=
  (attr.memory 0).toNat + 2 ^ 8 * (attr.memory 1).toNat + 2 ^ 16 * (attr.memory 2).toNat +
    2 ^ 24 * (attr.memory 3).toNat

/-- A vendor command: its data, and the attributes of them that `nla_parse` left in its table. -/
structure Request where
  data : Bool
  dataLen : Nat
  programOffset : Option Attr
  program : Option Attr
  programLen : Option Attr

/-- What an interface knows of the packet filter. -/
structure Vif where
  enabled : Bool
  maxLength : Nat
  maxLength_lt : maxLength < 2 ^ 32

/-- `struct morse_cmd_req_read_write_apf`, with the lengths that the request and the response are
allocated with. -/
structure ReadWriteApf where
  offset : Nat
  programLength : Nat
  write : Bool
  program : List UInt8
  reqLen : Nat
  respLen : Nat
  deriving DecidableEq

/-- What a vendor command does: it reads an attribute that is missing, returns an error, or gives a
command to the firmware. -/
inductive Outcome where
  | nullPointer
  | error (code : Int)
  | command (req : ReadWriteApf)
  deriving DecidableEq

/-- `ROUND_BYTES_TO_WORD` of a `u16`. -/
def roundBytesToWord (bytes : Nat) : Nat := (bytes + 3) / 4 * 4 % 2 ^ 16

/-- `morse_cmd_read_write_apf`, up to the transmission of its command, where `req` and `resp` say
whether there is memory for the two. -/
def morseCmdReadWriteApf
    (req resp : Bool)
    (write : Bool)
    (programLen : Nat)
    (program : Nat → UInt8)
    (offset : Nat) : Outcome :=
  let reqLen := if write then (19 + programLen) % 2 ^ 16 else 19
  let respLen := if write then 18 else (18 + programLen) % 2 ^ 16
  if !req then .error (-12)
  else if !resp then .error (-12)
  else
    .command {
      offset := if write then 0 else offset
      programLength := programLen
      write := write
      program := if write then (List.range programLen).map program else []
      reqLen := roundBytesToWord reqLen
      respLen := roundBytesToWord respLen }

/-- `morse_vendor_cmd_apf_set_packet_filter` -/
def setPacketFilter (req resp : Bool) (vif : Vif) (request : Request) : Outcome :=
  if !request.data || !vif.enabled then .error (-22)
  else
    match request.programLen with
    | none => .nullPointer
    | some attr =>
      let programLen := nlaGetU32 attr % 2 ^ 16
      if programLen = 0 ∨ programLen > vif.maxLength then .error (-22)
      else
        match request.program with
        | none => .error (-22)
        | some program => morseCmdReadWriteApf req resp true programLen program.memory 0

/-- Every error of the command is returned as one code. -/
def Outcome.failed : Outcome → Outcome
  | .error _ => .error (-22)
  | outcome => outcome

/-- `morse_vendor_cmd_apf_read_packet_filter_data`, where `buffer` says whether there is memory for
what is read. -/
def readPacketFilterData (buffer req resp : Bool) (vif : Vif) (request : Request) : Outcome :=
  if request.dataLen = 0 || !vif.enabled then .error (-22)
  else
    match request.programLen, request.programOffset with
    | some lengthAttr, some offsetAttr =>
      let readLen := nlaGetU32 lengthAttr % 2 ^ 16
      let offset := nlaGetU32 offsetAttr
      if readLen = 0 ∨ readLen > vif.maxLength ∨ (offset + readLen) % 2 ^ 32 > vif.maxLength then
        .error (-22)
      else if !buffer then .error (-22)
      else
        (morseCmdReadWriteApf req resp false readLen (fun _ => 0) offset).failed
    | _, _ => .nullPointer

/-- A command stays in the memory of the filter, has the length that was asked for, and takes the
program from the attribute. -/
structure Bounded (vif : Vif) (request : Request) (req : ReadWriteApf) : Prop where
  inside : req.offset + req.programLength ≤ vif.maxLength
  whole : ∃ attr, request.programLen = some attr ∧ req.programLength = nlaGetU32 attr
  program : req.write = true → ∃ attr, request.program = some attr ∧ req.programLength ≤ attr.len

/-- No attribute that is missing is read, and a command for the firmware is bounded. -/
def Contained (vif : Vif) (request : Request) : Outcome → Prop
  | .nullPointer => False
  | .error _ => True
  | .command req => Bounded vif request req

/-! ## What is accepted -/

/-- The length of the program in the low half of the word is one that the filter has room for. -/
def LengthAccepted (vif : Vif) (length : Nat) : Prop :=
  length % 2 ^ 16 ≠ 0 ∧ length % 2 ^ 16 ≤ vif.maxLength

/-- A request that sets the program has a length; where that is accepted and there is a program, it
has two octets, and not more than the program. -/
def SetBounds (vif : Vif) (request : Request) : Prop :=
  ∃ length, request.programLen = some length ∧
    ∀ program, request.program = some program → LengthAccepted vif (nlaGetU32 length) →
      nlaGetU32 length < 2 ^ 16 ∧ nlaGetU32 length ≤ program.len

/-- A request that reads has a length and an offset; where these are accepted, the length has two
octets, and the sum with the offset does not wrap. -/
def ReadBounds (vif : Vif) (request : Request) : Prop :=
  ∃ length offset, request.programLen = some length ∧ request.programOffset = some offset ∧
    (LengthAccepted vif (nlaGetU32 length) →
      (nlaGetU32 offset + nlaGetU32 length % 2 ^ 16) % 2 ^ 32 ≤ vif.maxLength →
      nlaGetU32 length < 2 ^ 16 ∧ nlaGetU32 offset + nlaGetU32 length < 2 ^ 32)

theorem morseCmdReadWriteApf_contained_iff :
    (∀ req resp,
      Contained vif request (morseCmdReadWriteApf req resp write length program offset)) ↔
      (if write then 0 else offset) + length ≤ vif.maxLength ∧
        (∃ attr, request.programLen = some attr ∧ length = nlaGetU32 attr) ∧
          (write = true → ∃ attr, request.program = some attr ∧ length ≤ attr.len) := by
  constructor
  · intro contained
    obtain ⟨inside, whole, taken⟩ := contained true true
    exact ⟨inside, whole, taken⟩
  · rintro ⟨inside, whole, taken⟩ req resp
    cases req <;> cases resp <;> try exact trivial
    exact ⟨inside, whole, taken⟩

theorem contained_failed :
    Contained vif request outcome.failed ↔ Contained vif request outcome := by
  cases outcome <;> rfl

theorem contained_memory {outcome : Bool → Bool → Outcome} :
    (∀ buffer req resp,
      Contained vif request (if !buffer then .error code else outcome req resp)) ↔
      ∀ req resp, Contained vif request (outcome req resp) := by
  refine ⟨fun contained => contained true, fun contained buffer req resp => ?_⟩
  cases buffer with
  | false => exact trivial
  | true => exact contained req resp

theorem lengthAccepted_iff :
    LengthAccepted vif length ↔ ¬ (length % 2 ^ 16 = 0 ∨ length % 2 ^ 16 > vif.maxLength) := by
  rw [LengthAccepted]
  omega

theorem setPacketFilter_contained_iff (vif : Vif) (request : Request) :
    (∀ req resp, Contained vif request (setPacketFilter req resp vif request)) ↔
      (request.data = true → vif.enabled = true → SetBounds vif request) := by
  obtain ⟨data, dataLen, programOffset, program, programLen⟩ := request
  rcases data
  case false => simp [setPacketFilter, Contained]
  rcases enabled : vif.enabled
  case false => simp [setPacketFilter, Contained, enabled]
  simp only [setPacketFilter, enabled, Bool.not_true, Bool.or_self, Bool.false_eq_true, if_false,
    true_imp_iff, SetBounds]
  cases programLen with
  | none => simp [Contained]
  | some length =>
    by_cases accepted : LengthAccepted vif (nlaGetU32 length)
    case neg =>
      have refused := lengthAccepted_iff.not_left.mp accepted
      simp only [if_pos refused, Contained, accepted, Option.some.injEq, exists_eq_left',
        false_implies, implies_true]
    simp only [if_neg (lengthAccepted_iff.mp accepted)]
    cases program with
    | none => simp [Contained]
    | some program =>
      simp only [morseCmdReadWriteApf_contained_iff, if_true, Nat.zero_add, Option.some.injEq,
        exists_eq_left', true_imp_iff, forall_eq', accepted]
      have short := Nat.mod_eq_iff_lt (m := nlaGetU32 length) (show 2 ^ 16 ≠ 0 by decide)
      rw [and_iff_right accepted.2, short]
      exact and_congr_right fun small => by rw [Nat.mod_eq_of_lt small]

theorem readPacketFilterData_contained_iff (vif : Vif) (request : Request) :
    (∀ buffer req resp,
      Contained vif request (readPacketFilterData buffer req resp vif request)) ↔
      (request.dataLen ≠ 0 → vif.enabled = true → ReadBounds vif request) := by
  obtain ⟨data, dataLen, programOffset, program, programLen⟩ := request
  by_cases filled : dataLen = 0
  case pos => simp [readPacketFilterData, Contained, filled]
  rcases enabled : vif.enabled
  case false => simp [readPacketFilterData, Contained, enabled]
  simp only [readPacketFilterData, enabled, filled, decide_false, Bool.not_true, Bool.or_self,
    Bool.false_eq_true, if_false, true_imp_iff, ne_eq, not_false_eq_true, ReadBounds]
  cases programLen with
  | none => simp [Contained]
  | some length =>
    cases programOffset with
    | none => simp [Contained]
    | some offset =>
      simp only [Option.some.injEq, exists_and_left, exists_eq_left']
      by_cases accepted : LengthAccepted vif (nlaGetU32 length) ∧
        (nlaGetU32 offset + nlaGetU32 length % 2 ^ 16) % 2 ^ 32 ≤ vif.maxLength
      case neg =>
        have refused : nlaGetU32 length % 2 ^ 16 = 0 ∨
            nlaGetU32 length % 2 ^ 16 > vif.maxLength ∨
              (nlaGetU32 offset + nlaGetU32 length % 2 ^ 16) % 2 ^ 32 > vif.maxLength := by
          rw [lengthAccepted_iff] at accepted
          omega
        simp only [if_pos refused, Contained, implies_true, true_iff]
        exact fun accepted₁ accepted₂ => absurd ⟨accepted₁, accepted₂⟩ accepted
      obtain ⟨length_ok, sum_ok⟩ := accepted
      have taken : ¬ (nlaGetU32 length % 2 ^ 16 = 0 ∨
          nlaGetU32 length % 2 ^ 16 > vif.maxLength ∨
            (nlaGetU32 offset + nlaGetU32 length % 2 ^ 16) % 2 ^ 32 > vif.maxLength) := by
        rw [lengthAccepted_iff] at length_ok
        omega
      simp only [if_neg taken, contained_memory, contained_failed,
        morseCmdReadWriteApf_contained_iff, length_ok, sum_ok, true_imp_iff]
      have := vif.maxLength_lt
      simp
      omega

end Apf
end Morse
