import Morse.Ies.Elements
import Morse.Lib.Memory
import Mathlib.Algebra.Order.Ring.Int

/-!
# Frames of mesh peering

An open or confirm frame ends in an encrypted block whose length is not in the frame: it is told
from the privacy bit and, for an open frame, from the capabilities in the RSN element.  Elements
and frames are memories that fault outside of their octets.
-/

namespace Morse
namespace Mesh

open Ies Lib

/-! ## The RSN element -/

/-- Two octets, the low one first. -/
def le16 (memory : Lib.Memory (BitVec 8)) (position : Nat) : Option (BitVec 16) :=
  (memory position).bind fun low => (memory (position + 1)).map fun high => high ++ low

/-- A count of suites and the suites behind it are skipped, with the octets that are left after
them in one octet.  Nothing stands for leaving the function. -/
def skipSuites (memory : Lib.Memory (BitVec 8)) (position : Nat) (left : BitVec 8) :
    Option (Option (Nat × BitVec 8)) :=
  (le16 memory position).map fun count =>
    if left.toNat < count.toNat * 4 then none
    else some (position + (2 + count.toNat * 4), left - BitVec.ofNat 8 (2 + count.toNat * 4))

/-- The capabilities behind both lists of suites. -/
def lastCaps (memory : Lib.Memory (BitVec 8)) : Option (Nat × BitVec 8) → Option (BitVec 16)
  | none => some 0
  | some (position, left) => if left.toNat < 2 then some 0 else le16 memory position

/-- The capabilities behind the first list of suites. -/
def nextCaps (memory : Lib.Memory (BitVec 8)) : Option (Nat × BitVec 8) → Option (BitVec 16)
  | none => some 0
  | some (position, left) => (skipSuites memory position left).bind (lastCaps memory)

/-- `morse_dot11_get_rsn_caps` on the octets of an element: the capabilities, which are 0 when
they are not reached, or nothing for an element that is too short. -/
def getRsnCaps (memory : Lib.Memory (BitVec 8)) : Option (Option (BitVec 16)) :=
  (memory 1).bind fun length =>
    if length.toNat < 2 then some none
    else if (length - 2).toNat < 4 then some (some 0)
    else ((skipSuites memory 8 (length - 2 - 4)).bind (nextCaps memory)).map some

/-! ## Frames -/

/-- A peering frame that is not protected, open or confirm. -/
structure MpmFrame where
  octets : List (BitVec 8)
  reaches : 26 ≤ octets.length
  unprotected : ∃ control, octets[1]? = some control ∧ control &&& 0x40 = 0
  category : octets[24]? = some 15
  action : octets[25]? = some 1 ∨ octets[25]? = some 2

namespace MpmFrame

variable (frame : MpmFrame)

/-- `morse_dot11_is_mpm_open_frame`. -/
def isMpmOpenFrame : Bool := frame.octets[25]? = some 1

/-- `morse_dot11_is_mpm_confirm_frame`. -/
def isMpmConfirmFrame : Bool := frame.octets[25]? = some 2

/-- `morse_dot11_mpm_frame_ies`, from the start of the frame. -/
def headerLength : Nat := 26 + 2 + if frame.isMpmConfirmFrame then 2 else 0

/-- The capabilities protect management frames and require it. -/
def bothMfp (caps : BitVec 16) : Bool := caps &&& 0x40 ≠ 0 ∧ caps &&& 0x80 ≠ 0

/-- The RSN element, looked for from the first element to the end of the frame. -/
def rsnIe : Option Element := findIe 48 (frame.octets.drop frame.headerLength)

/-- The length of the block of an open frame. -/
def openAmpeLen : Option Nat :=
  match frame.rsnIe with
  | none => some 98
  | some element =>
    (getRsnCaps (Lib.Memory.ofList element.octets)).map fun caps =>
      if bothMfp (caps.getD 0) then 98 + 24 else 98

/-- `morse_dot11_get_mpm_ampe_len`. -/
def getMpmAmpeLen : Option Nat :=
  (le16 (Lib.Memory.ofList frame.octets) 26).bind fun capInfo =>
    if capInfo &&& 0x10 = 0 then some 0
    else if frame.isMpmOpenFrame then frame.openAmpeLen
    else if frame.isMpmConfirmFrame then some 70
    else some 0

/-- `memcpy` of so many octets of the frame. -/
def copy (start : Int) (count : Nat) : Option (List (BitVec 8)) :=
  if 0 ≤ start ∧ start + count ≤ frame.octets.length then
    some ((frame.octets.drop start.toNat).take count)
  else none

/-- `morse_dot11ah_s1g_to_mpm_frame`: the header, what is inserted for the elements in front of
the block, and the block.  What is inserted is given. -/
def s1gToMpmFrame (inserted : List Element → List (BitVec 8)) : Option (List (BitVec 8)) :=
  frame.getMpmAmpeLen.bind fun ampeLen =>
    (frame.copy 0 frame.headerLength).bind fun header =>
      let iesLen : Int := frame.octets.length - frame.headerLength - ampeLen
      let ies := (parse ((frame.octets.drop frame.headerLength).take iesLen.toNat)).1
      if ampeLen = 0 then some (header ++ inserted ies)
      else
        (frame.copy (frame.headerLength + iesLen) ampeLen).map fun ampe =>
          header ++ inserted ies ++ ampe

end MpmFrame

/-! ## What is asked of frames -/

/-- The capabilities of an element with two whole lists of suites and both octets of the field
behind them. -/
def IsCapsOf (data : List (BitVec 8)) (caps : BitVec 16) : Prop :=
  ∃ pairwise akm : BitVec 16,
    le16 (Lib.Memory.ofList data) 6 = some pairwise ∧
    le16 (Lib.Memory.ofList data) (8 + pairwise.toNat * 4) = some akm ∧
    le16 (Lib.Memory.ofList data) (10 + pairwise.toNat * 4 + akm.toNat * 4) = some caps

/-- Nothing is read outside of the frame and of its RSN element, the block is not longer than what
stands behind the header, and capabilities that are read are those of the element or 0. -/
structure Inside (inserted : List Element → List (BitVec 8)) (frame : MpmFrame) : Prop where
  computed : ∃ ampeLen, frame.getMpmAmpeLen = some ampeLen ∧
    frame.headerLength + ampeLen ≤ frame.octets.length
  translated : ∃ octets, frame.s1gToMpmFrame inserted = some octets
  capabilities : ∀ element caps, frame.rsnIe = some element →
    getRsnCaps (Lib.Memory.ofList element.octets) = some (some caps) →
    caps = 0 ∨ IsCapsOf element.data.val caps

/-- An element has the octets of each count of suites that is come to, and no count asks for just
as many octets as there are with those of the count itself. -/
def RsnFits (data : List (BitVec 8)) : Prop :=
  data.length < 6 ∨
    ∃ pairwise : BitVec 16, le16 (Lib.Memory.ofList data) 6 = some pairwise ∧
      (data.length - 6 < pairwise.toNat * 4 ∨
        8 + pairwise.toNat * 4 ≤ data.length ∧
          ∃ akm : BitVec 16,
            le16 (Lib.Memory.ofList data) (8 + pairwise.toNat * 4) = some akm ∧
            (data.length - (8 + pairwise.toNat * 4) < akm.toNat * 4 ∨
              10 + pairwise.toNat * 4 + akm.toNat * 4 ≤ data.length))

/-- The element says that management frames are protected, and have to be. -/
def Protects (data : List (BitVec 8)) : Prop :=
  ∃ caps, IsCapsOf data caps ∧ MpmFrame.bothMfp caps = true

/-- The privacy bit of the frame is set. -/
def Private (frame : MpmFrame) : Prop :=
  ∃ capInfo, le16 (Lib.Memory.ofList frame.octets) 26 = some capInfo ∧ capInfo &&& 0x10 ≠ 0

/-- A frame has its header, the block that its kind has with privacy, and an RSN element that
fits. -/
structure FrameFits (frame : MpmFrame) : Prop where
  header : frame.headerLength ≤ frame.octets.length
  confirm : frame.isMpmConfirmFrame = true → Private frame → 30 + 70 ≤ frame.octets.length
  plain : frame.isMpmOpenFrame = true → Private frame → 28 + 98 ≤ frame.octets.length
  element : frame.isMpmOpenFrame = true → Private frame →
    ∀ element, frame.rsnIe = some element → RsnFits element.data.val ∧
      (Protects element.data.val → 28 + 122 ≤ frame.octets.length)

end Mesh
end Morse
