import Morse.Pv1.RoundTrip

/-!
# Short headers of received frames

A frame is converted where it stands in its buffer: the short header is taken off and the
long one put in front.  Nothing compares the length of the frame with that of the header
that its frame control announces, and the second octet of the quality of service control
is not set.  This module says what is reached of the memory around a frame and when the
outcome depends on it.
-/

namespace Morse
namespace Pv1

open Lib

/-! ## The conversion of any frame -/

/-- What a frame does not determine: the octets behind it in memory, and the one on the
stack that becomes the second octet of the quality of service control. -/
structure Surroundings where
  behind : Nat → BitVec 8
  stray : BitVec 8

/-- A frame in its buffer, with the octets in front of it that may be used, and whether
the firmware has decrypted it. -/
structure RxFrame where
  octets : List (BitVec 8)
  headroom : Nat
  decrypted : Bool

/-- The results of the conversion. -/
inductive RxResult
  /-- An error, and the frame as it was. -/
  | refused (failure : Failure)
  /-- `skb_under_panic` -/
  | panicked
  | converted (octets : List (BitVec 8))
  deriving DecidableEq

/-- The length of the longest short header. -/
def pv1HdrMax : Nat := 24

/-- What is seen from the beginning of a frame on, as far as headers go. -/
def RxFrame.seen (frame : RxFrame) (behind : Nat → BitVec 8) : List (BitVec 8) :=
  frame.octets ++ (List.range pv1HdrMax).map behind

/-- The frame control. -/
def RxFrame.pv1Fc (frame : RxFrame) (behind : Nat → BitVec 8) : BitVec 16 :=
  numberAt 16 2 0 (frame.seen behind)

/-- The long header, and the length of the short one. -/
def RxFrame.prepared (receiver : Receiver) (frame : RxFrame) (behind : Nat → BitVec 8) :
    Ieee80211Hdr × Nat :=
  preparePv0MacHeader receiver (frame.seen behind) (frame.pv1Fc behind)
    (preparePv0FrameCtrl (frame.pv1Fc behind))

/-- `skb_pull`, which does nothing where there are not so many octets. -/
def skbPull (count : Nat) (octets : List (BitVec 8)) : List (BitVec 8) :=
  if octets.length < count then octets else octets.drop count

/-- How many octets `skb_pull` takes off. -/
def skbPulled (count : Nat) (octets : List (BitVec 8)) : Nat :=
  if octets.length < count then 0 else count

/-- A packet number is rewritten in a protected frame that was decrypted. -/
def RxFrame.rewritesCcmp (frame : RxFrame) (behind : Nat → BitVec 8) : Bool :=
  hasMask (frame.pv1Fc behind) pv1FctlProtected && frame.decrypted

/-- `morse_prepare_ccmp_header`, which exchanges octets with those behind a frame that is
shorter. -/
def RxFrame.prepareCcmp (frame : RxFrame) (behind : Nat → BitVec 8) (body : List (BitVec 8)) :
    List (BitVec 8) :=
  if frame.rewritesCcmp behind then
    (prepareCcmpHeader (body ++ (List.range 8).map behind)).take body.length
  else body

/-- How far from its beginning a frame is reached. -/
def RxFrame.reach (receiver : Receiver) (frame : RxFrame) (behind : Nat → BitVec 8) : Nat :=
  let pv1HdrSize := (frame.prepared receiver behind).2
  if frame.rewritesCcmp behind then max pv1HdrSize (skbPulled pv1HdrSize frame.octets + 8)
  else pv1HdrSize

/-- The result of `morse_mac_convert_pv1_to_pv0`. -/
def RxFrame.convert
    (enablePv1 : Bool)
    (receiver : Receiver)
    (frame : RxFrame)
    (around : Surroundings) : RxResult :=
  let pv1Fc := frame.pv1Fc around.behind
  let prepared := frame.prepared receiver around.behind
  let headroomRequired := frame.octets.length + 30 + qosCtlLen - prepared.2
  if !enablePv1 then .refused .einval
  else if frame.octets.length + frame.headroom < headroomRequired then .refused .efault
  else
    let body := frame.prepareCcmp around.behind (skbPull prepared.2 frame.octets)
    let pv0HdrSize := if hasA4 (preparePv0FrameCtrl pv1Fc) then 30 else 30 - 6
    if frame.headroom + skbPulled prepared.2 frame.octets < qosCtlLen + pv0HdrSize then .panicked
    else
      .converted (prepared.1.octets.take pv0HdrSize ++
        (convertPv1ToPv0QosCtrl pv1Fc :: around.stray :: body))

/-! ## What is expected -/

/-- A header as long as its frame control says. -/
def WholeHeader (header : List (BitVec 8)) : Prop :=
  header.length = hdrLen (numberAt 16 2 0 header)

/-- Zeros, for what is not looked at. -/
def noOctets : Nat → BitVec 8 := fun _ => 0

/-- What remains of a frame behind its short header. -/
def RxFrame.payload (receiver : Receiver) (frame : RxFrame) : List (BitVec 8) :=
  let rest := frame.octets.drop (frame.prepared receiver noOctets).2
  if frame.rewritesCcmp noOctets then prepareCcmpHeader rest else rest

/-- Whatever is around it, a frame is refused, or it is converted to a whole header, a
quality of service control and what remains, without a look beyond it. -/
def RxFrame.PassesSafely
    (enablePv1 : Bool)
    (receiver : Receiver)
    (frame : RxFrame)
    (possible : Surroundings → Prop) : Prop :=
  (∃ failure, ∀ around, possible around →
      frame.convert enablePv1 receiver around = .refused failure) ∨
    ∃ header qosCtl : List (BitVec 8), WholeHeader header ∧ qosCtl.length = qosCtlLen ∧
      ∀ around, possible around →
        frame.convert enablePv1 receiver around =
            .converted (header ++ (qosCtl ++ frame.payload receiver)) ∧
          frame.reach receiver around.behind ≤ frame.octets.length

/-- A frame is refused, whatever is behind it. -/
def RxFrame.Refused (enablePv1 : Bool) (receiver : Receiver) (frame : RxFrame) : Prop :=
  enablePv1 = false ∨
    ∀ behind, frame.headroom + (frame.prepared receiver behind).2 < 30 + qosCtlLen

/-! ## Headers -/

theorem hasA4_preparePv0FrameCtrl (fc : BitVec 16) : hasA4 (preparePv0FrameCtrl fc) = false := by
  have made : preparePv0FrameCtrl fc = FrameFlags.frameControl
      ⟨!hasMask fc pv1FctlFromds, hasMask fc pv1FctlFromds, hasMask fc pv1FctlMorefrags,
        hasMask fc pv1FctlPm, hasMask fc pv1FctlMoredata, hasMask fc pv1FctlProtected⟩ := by
    unfold preparePv0FrameCtrl FrameFlags.frameControl
    cases hasMask fc pv1FctlFromds with
    | false => simp
    | true => simp
  rw [made, hasA4_frameControl]
  exact Bool.not_and_self _

section Results

variable {receiver : Receiver} {frame : RxFrame} {behind : Nat → BitVec 8}

theorem convert_of_room
    (room : 30 + qosCtlLen ≤ frame.headroom + (frame.prepared receiver behind).2)
    (stray : BitVec 8) :
    frame.convert true receiver ⟨behind, stray⟩ =
      if frame.headroom + skbPulled (frame.prepared receiver behind).2 frame.octets <
          qosCtlLen + 24 then .panicked
      else
        .converted ((frame.prepared receiver behind).1.octets.take 24 ++
          (convertPv1ToPv0QosCtrl (frame.pv1Fc behind) :: stray ::
            frame.prepareCcmp behind
              (skbPull (frame.prepared receiver behind).2 frame.octets))) := by
  have enough : ¬ frame.octets.length + frame.headroom <
      frame.octets.length + 30 + qosCtlLen - (frame.prepared receiver behind).2 := by
    omega
  simp only [RxFrame.convert, Bool.not_true, Bool.false_eq_true, if_false, if_neg enough,
    hasA4_preparePv0FrameCtrl]

theorem convert_of_no_room
    (room : frame.headroom + (frame.prepared receiver behind).2 < 30 + qosCtlLen)
    (stray : BitVec 8) :
    frame.convert true receiver ⟨behind, stray⟩ = .refused .efault := by
  have lacking : frame.octets.length + frame.headroom <
      frame.octets.length + 30 + qosCtlLen - (frame.prepared receiver behind).2 := by
    omega
  simp only [RxFrame.convert, Bool.not_true, Bool.false_eq_true, if_false, if_pos lacking]

theorem convert_ne_refused
    (room : 30 + qosCtlLen ≤ frame.headroom + (frame.prepared receiver behind).2) (stray : BitVec 8)
    (failure : Failure) :
    frame.convert true receiver ⟨behind, stray⟩ ≠ .refused failure := by
  rw [convert_of_room room]
  split
  · exact RxResult.noConfusion
  · exact RxResult.noConfusion

variable {enablePv1 : Bool}

theorem RxFrame.Refused.passesSafely (refused : frame.Refused enablePv1 receiver)
    (possible : Surroundings → Prop) :
    frame.PassesSafely enablePv1 receiver possible := by
  left
  rcases refused with rfl | room
  · exact ⟨.einval, fun around _ => rfl⟩
  · cases enablePv1 with
    | false => exact ⟨.einval, fun around _ => rfl⟩
    | true =>
      exact ⟨.efault, fun around _ => convert_of_no_room (room around.behind) around.stray⟩

theorem exists_room_of_not_refused (accepted : ¬ frame.Refused enablePv1 receiver) :
    enablePv1 = true ∧ ∃ behind, 30 + qosCtlLen ≤
      frame.headroom + (frame.prepared receiver behind).2 := by
  simp only [RxFrame.Refused, not_or, Bool.not_eq_false, not_forall, not_lt] at accepted
  exact accepted

end Results

/-- A frame passes safely if and only if it is refused: otherwise the second octet of the
quality of service control is what the stack held. -/
theorem passesSafely_iff (enablePv1 : Bool) (receiver : Receiver) (frame : RxFrame) :
    frame.PassesSafely enablePv1 receiver (fun _ => True) ↔ frame.Refused enablePv1 receiver := by
  constructor
  · intro safe
    by_contra accepted
    obtain ⟨rfl, behind, room⟩ := exists_room_of_not_refused accepted
    rcases safe with ⟨failure, refused⟩ | ⟨header, qosCtl, -, -, converted⟩
    · exact convert_ne_refused room 0 failure (refused ⟨behind, 0⟩ trivial)
    · have zero := (converted ⟨behind, 0⟩ trivial).1
      have one := (converted ⟨behind, 1⟩ trivial).1
      rw [← one, convert_of_room room 0, convert_of_room room 1] at zero
      split at zero
      · rw [convert_of_room room 1, if_pos ‹_›] at one
        cases one
      · have same := List.append_cancel_left (RxResult.converted.inj zero)
        obtain ⟨-, rest⟩ := List.cons.inj same
        exact absurd (List.cons.inj rest).1 (by decide)
  · intro refused
    exact refused.passesSafely _

/-! ## All but the second octet -/

/-- A frame is as long as its header announces, its packet number is in it if that is
rewritten, and the long header needs no fourth address. -/
structure RxFrame.Whole (receiver : Receiver) (frame : RxFrame) : Prop where
  header : (frame.prepared receiver noOctets).2 ≤ frame.octets.length
  ccmp : frame.rewritesCcmp noOctets = true →
    (frame.prepared receiver noOctets).2 + 8 ≤ frame.octets.length
  threeAddresses : hasA4 (frame.prepared receiver noOctets).1.frameControl = false

section Whole

variable {receiver : Receiver} {frame : RxFrame}

end Whole

/-! ## A frame of an associated station -/

/-- An access point without stations. -/
def loneReceiver : Receiver := ⟨.ap, 0x060504030201, [], none⟩

/-- A frame with a header of twelve octets and two octets of data. -/
def dataFrame : RxFrame where
  octets := [0x01, 0x00, 0x01, 0x02, 0x03, 0x04, 0x05, 0x06, 0x01, 0x00, 0x10, 0x00, 0xaa, 0xbb]
  headroom := 32
  decrypted := false

/-- The frame is whole and accepted, and the second octet of its quality of service control
is the one on the stack. -/
theorem not_passesSafely_dataFrame :
    dataFrame.Whole loneReceiver ∧
      ¬ dataFrame.PassesSafely true loneReceiver (fun _ => True) := by
  refine ⟨⟨by decide +kernel, by decide +kernel, by decide +kernel⟩, ?_⟩
  rintro (⟨failure, refused⟩ | ⟨header, qosCtl, -, -, converted⟩)
  · have accepted : ∀ failure,
        dataFrame.convert true loneReceiver ⟨noOctets, 0⟩ ≠ .refused failure := by
      intro failure
      cases failure <;> decide +kernel
    exact accepted failure (refused _ trivial)
  · have zero := (converted ⟨noOctets, 0⟩ trivial).1
    have one := (converted ⟨noOctets, 1⟩ trivial).1
    rw [← one] at zero
    revert zero
    decide +kernel

end Pv1
end Morse
