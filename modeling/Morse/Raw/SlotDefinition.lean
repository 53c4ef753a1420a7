import Morse.Raw.Defs
import Morse.Lib.Bits

/-!
# The slots of a window

An assignment says in two octets how many slots its window has and how long each
of them is.  A long slot takes three bits of the octets from the number of the
slots.  The numbers of these bits are what the slots are capped to, in place of
the largest numbers that go into them.
-/

namespace Morse
namespace Raw

open Lib

/-! ## The encoding -/

/-- `enum ieee80211_s1g_rps_raw_type`. -/
inductive RawType
  | generic
  | sounding
  | simplex
  | triggering
  deriving DecidableEq, Repr

/-- `MORSE_RAW_MIN_SLOT_DURATION_US`. -/
def minSlotDurationUs : BitVec 32 := 500

/-- `US_TO_CSLOT`. -/
def usToCslot (us : BitVec 32) : BitVec 32 := (us - minSlotDurationUs) / 120

/-- `CSLOT_TO_US`. -/
def cslotToUs (cslot : BitVec 32) : BitVec 32 := minSlotDurationUs + cslot * 120

/-- `IEEE80211_S1G_RPS_RAW_SLOT_NUM_3BITS`. -/
def slotNum3Bits : BitVec 16 := 3

/-- `IEEE80211_S1G_RPS_RAW_SLOT_NUM_6BITS`. -/
def slotNum6Bits : BitVec 16 := 6

/-- `IEEE80211_S1G_RPS_RAW_SLOT_DUR_8BITS`. -/
def slotDur8Bits : Nat := 8

/-- `IEEE80211_S1G_RPS_RAW_SLOT_DUR_11BITS`. -/
def slotDur11Bits : Nat := 11

/-- `IEEE80211_S1G_RPS_RAW_SLOT_DEF_FORMAT`. -/
def slotDefFormat : BitVec 16 := 1

/-- `IEEE80211_S1G_RPS_RAW_SLOT_CROSS_BOUNDARY`. -/
def slotCrossBoundary : BitVec 16 := 2

/-- `IEEE80211_S1G_RPS_RAW_SLOT_DCOUNT_SHIFT`. -/
def slotDcountShift : Nat := 2

/-- `IEEE80211_S1G_RPS_RAW_SLOT_NUM_6_SHIFT`. -/
def slotNum6Shift : Nat := 10

/-- `IEEE80211_S1G_RPS_RAW_SLOT_NUM_3_SHIFT`. -/
def slotNum3Shift : Nat := 13

/-- `GENMASK`. -/
def genmask (high low : Nat) : BitVec 32 := BitVec.ofNat 32 ((2 ^ (high - low + 1) - 1) <<< low)

/-- The count of 120 us that the length of a slot stands for, of 500 us at least. -/
def SlotDefinition.cslot (slot : SlotDefinition) : BitVec 32 :=
  if slot.slotDurationUs < minSlotDurationUs then usToCslot minSlotDurationUs
  else usToCslot slot.slotDurationUs

/-- The format that the duration decides: its bit, the largest count and the most
slots. -/
def slotFormat (type : RawType) (cslot : BitVec 32) : BitVec 16 × BitVec 32 × BitVec 16 :=
  match type with
  | .sounding => (0, (1 <<< slotDur8Bits) - 1, slotNum6Bits)
  | .generic | .simplex | .triggering =>
    if 0xFF < cslot then (slotDefFormat, (1 <<< slotDur11Bits) - 1, slotNum3Bits)
    else (0, (1 <<< slotDur8Bits) - 1, slotNum6Bits)

/-- The fields of the two octets behind their flags. -/
def slotFields (flags : BitVec 16) (cslot : BitVec 32) (numSlots : BitVec 16) : BitVec 16 :=
  if flags &&& slotDefFormat ≠ 0 then
    flags ||| ((cslot <<< slotDcountShift) &&& genmask 12 2).setWidth 16 |||
      ((numSlots.setWidth 32 <<< slotNum3Shift) &&& genmask 15 13).setWidth 16
  else
    flags ||| ((cslot <<< slotDcountShift) &&& genmask 9 2).setWidth 16 |||
      ((numSlots.setWidth 32 <<< slotNum6Shift) &&& genmask 16 10).setWidth 16

/-- `morse_raw_generate_slot_definition`: the two octets, and the configuration
with the slots it is capped to. -/
def generateSlotDefinition (type : RawType) (slot : SlotDefinition) :
    BitVec 16 × SlotDefinition :=
  let crossing := flag slot.crossSlotBoundary slotCrossBoundary
  let (format, cslotMax, maxSlots) := slotFormat type slot.cslot
  let numSlots := if maxSlots < slot.numSlots then maxSlots else slot.numSlots
  let cslot := if cslotMax < slot.cslot then cslotMax else slot.cslot
  (slotFields (crossing ||| format) cslot numSlots, { slot with numSlots := numSlots })

/-! ## The decoding -/

/-- What a station reads from the two octets. -/
def decodeSlotDefinition (slotDef : BitVec 16) : SlotDefinition :=
  if slotDef.getLsbD 0 then
    { crossSlotBoundary := slotDef.getLsbD 1
      numSlots := (slotDef.extractLsb' 13 3).setWidth 16
      slotDurationUs := cslotToUs ((slotDef.extractLsb' 2 11).setWidth 32) }
  else
    { crossSlotBoundary := slotDef.getLsbD 1
      numSlots := (slotDef.extractLsb' 10 6).setWidth 16
      slotDurationUs := cslotToUs ((slotDef.extractLsb' 2 8).setWidth 32) }

/-! ## What the octets hold -/

theorem shiftLeft_and_genmask_mod {value : BitVec 32} {high low : Nat} (order : low ≤ high)
    (room : high < 32) (wide : value.toNat * 2 ^ low < 2 ^ 32) :
    ((value <<< low) &&& genmask high low).toNat =
      value.toNat % 2 ^ (high - low + 1) * 2 ^ low := by
  have top : 2 ^ (high - low + 1) * 2 ^ low = 2 ^ (high + 1) := by
    rw [← Nat.pow_add]
    congr 1
    omega
  have limit : 2 ^ (high + 1) ≤ 2 ^ 32 := Nat.pow_le_pow_right (by omega) (by omega)
  have positive : 0 < 2 ^ low := Nat.two_pow_pos low
  have maskBound : (2 ^ (high - low + 1) - 1) * 2 ^ low < 2 ^ 32 := by
    rw [Nat.sub_mul]
    omega
  rw [BitVec.toNat_and, BitVec.toNat_shiftLeft, genmask, BitVec.toNat_ofNat,
    Nat.mod_eq_of_lt (by rwa [Nat.shiftLeft_eq]), Nat.mod_eq_of_lt (by rwa [Nat.shiftLeft_eq]),
    shiftLeft_and_mask]

theorem shiftLeft_and_genmask {value : BitVec 32} {high low : Nat} (order : low ≤ high)
    (room : high < 32) (fits : value.toNat < 2 ^ (high - low + 1)) :
    ((value <<< low) &&& genmask high low).toNat = value.toNat * 2 ^ low := by
  have wide : value.toNat * 2 ^ low < 2 ^ 32 := by
    calc value.toNat * 2 ^ low < 2 ^ (high - low + 1) * 2 ^ low :=
          Nat.mul_lt_mul_of_pos_right fits (Nat.two_pow_pos low)
      _ = 2 ^ (high - low + 1 + low) := (Nat.pow_add 2 _ _).symm
      _ ≤ 2 ^ 32 := Nat.pow_le_pow_right (by omega) (by omega)
  rw [shiftLeft_and_genmask_mod order room wide, Nat.mod_eq_of_lt fits]

theorem slotFields_toNat {crossing long : Bool} {cslot : BitVec 32} {numSlots : BitVec 16}
    (duration : cslot.toNat < if long then 2048 else 256)
    (slots : numSlots.toNat < if long then 8 else 64) :
    (slotFields (flag crossing slotCrossBoundary ||| flag long slotDefFormat) cslot
      numSlots).toNat =
        numSlots.toNat * (if long then 2 ^ 13 else 2 ^ 10) +
          (cslot.toNat * 2 ^ 2 + (crossing.toNat * 2 + long.toNat)) := by
  have widened : (numSlots.setWidth 32).toNat = numSlots.toNat := by
    rw [BitVec.toNat_setWidth]
    omega
  have flags : (flag crossing slotCrossBoundary ||| flag long slotDefFormat).toNat =
      crossing.toNat * 2 + long.toNat := by
    cases crossing <;> cases long <;> rfl
  have format :
      (flag crossing slotCrossBoundary ||| flag long slotDefFormat) &&& slotDefFormat ≠ 0 ↔
        long = true := by
    cases crossing <;> cases long <;> decide
  have low : crossing.toNat * 2 + long.toNat < 2 ^ 2 := by
    cases crossing <;> cases long <;> decide
  have field (value : BitVec 32) (small : value.toNat < 2 ^ 16) :
      (value.setWidth 16).toNat = value.toNat := by
    rw [BitVec.toNat_setWidth, Nat.mod_eq_of_lt small]
  cases long with
  | true =>
    simp only [if_true] at duration slots ⊢
    have durationField := @shiftLeft_and_genmask cslot 12 2 (by omega) (by omega) duration
    have slotsField := @shiftLeft_and_genmask (numSlots.setWidth 32) 15 13 (by omega) (by omega)
      (widened ▸ slots)
    rw [widened] at slotsField
    rw [slotFields, if_pos (format.mpr rfl), BitVec.toNat_or, BitVec.toNat_or, flags,
      field _ (by rw [slotDcountShift]; omega),
      field _ (by rw [slotNum3Shift]; omega), slotDcountShift, slotNum3Shift,
      durationField, slotsField, or_mul_two_pow low, or_mul_two_pow (by omega)]
  | false =>
    simp only [Bool.false_eq_true, if_false] at duration slots ⊢
    have durationField := @shiftLeft_and_genmask cslot 9 2 (by omega) (by omega) duration
    have slotsField := @shiftLeft_and_genmask (numSlots.setWidth 32) 16 10 (by omega) (by omega)
      (by omega)
    rw [widened] at slotsField
    rw [slotFields, if_neg (fun long => by cases format.mp long), BitVec.toNat_or,
      BitVec.toNat_or, flags, field _ (by rw [slotDcountShift]; omega),
      field _ (by rw [slotNum6Shift]; omega), slotDcountShift, slotNum6Shift,
      durationField, slotsField, or_mul_two_pow low, or_mul_two_pow (by omega)]

theorem decodeSlotDefinition_slotFields {crossing long : Bool}
    (duration : cslot.toNat < if long then 2048 else 256)
    (slots : numSlots.toNat < if long then 8 else 64) :
    decodeSlotDefinition (slotFields (flag crossing slotCrossBoundary ||| flag long slotDefFormat)
      cslot numSlots) = ⟨crossing, numSlots, cslotToUs cslot⟩ := by
  have total := @slotFields_toNat crossing long cslot numSlots duration slots
  generalize slotFields _ cslot numSlots = slotDef at total ⊢
  have format : slotDef.getLsbD 0 = long := by
    rw [BitVec.getLsbD, total]
    cases long <;> cases crossing <;> simp <;> omega
  have cross : slotDef.getLsbD 1 = crossing := by
    rw [BitVec.getLsbD, Nat.testBit_eq_decide_div_mod_eq, total]
    cases long <;> cases crossing <;> simp <;> omega
  have below : crossing.toNat * 2 + long.toNat < 4 := by
    cases crossing <;> cases long <;> decide
  rw [decodeSlotDefinition, format, cross]
  cases long with
  | true =>
    simp only [if_true] at duration slots total ⊢
    have count : (slotDef.extractLsb' 2 11).setWidth 32 = cslot := by
      apply BitVec.eq_of_toNat_eq
      rw [BitVec.toNat_setWidth, BitVec.extractLsb'_toNat, Nat.shiftRight_eq_div_pow]
      omega
    have number : (slotDef.extractLsb' 13 3).setWidth 16 = numSlots := by
      apply BitVec.eq_of_toNat_eq
      rw [BitVec.toNat_setWidth, BitVec.extractLsb'_toNat, Nat.shiftRight_eq_div_pow]
      omega
    rw [count, number]
  | false =>
    simp only [Bool.false_eq_true, if_false] at duration slots total ⊢
    have count : (slotDef.extractLsb' 2 8).setWidth 32 = cslot := by
      apply BitVec.eq_of_toNat_eq
      rw [BitVec.toNat_setWidth, BitVec.extractLsb'_toNat, Nat.shiftRight_eq_div_pow]
      omega
    have number : (slotDef.extractLsb' 10 6).setWidth 16 = numSlots := by
      apply BitVec.eq_of_toNat_eq
      rw [BitVec.toNat_setWidth, BitVec.extractLsb'_toNat, Nat.shiftRight_eq_div_pow]
      omega
    rw [count, number]

/-! ## Capping -/

/-- The duration takes the longer format. -/
def SlotDefinition.isLong (type : RawType) (slot : SlotDefinition) : Bool :=
  decide (type ≠ .sounding ∧ 0xFF < slot.cslot)

/-- The most slots that the code leaves to a configuration. -/
def SlotDefinition.maxSlots (type : RawType) (slot : SlotDefinition) : BitVec 16 :=
  if slot.isLong type then slotNum3Bits else slotNum6Bits

/-- The largest count of a configuration's format. -/
def SlotDefinition.cslotMax (type : RawType) (slot : SlotDefinition) : BitVec 32 :=
  if slot.isLong type then 2047 else 255

theorem slotFormat_eq (type : RawType) (slot : SlotDefinition) :
    slotFormat type slot.cslot =
      (flag (slot.isLong type) slotDefFormat, slot.cslotMax type, slot.maxSlots type) := by
  rw [SlotDefinition.cslotMax, SlotDefinition.maxSlots, SlotDefinition.isLong]
  cases type with
  | sounding => rfl
  | generic | simplex | triggering =>
    rw [slotFormat]
    split
    · next long =>
        rw [decide_eq_true ⟨RawType.noConfusion, long⟩]
        rfl
    · next short =>
        rw [decide_eq_false fun both => short both.2]
        rfl

theorem toNat_capped_le (cap value : BitVec w) :
    (if cap < value then cap else value).toNat ≤ cap.toNat := by
  split
  · exact Nat.le_refl _
  · next below => exact Nat.not_lt.mp below

theorem decodeSlotDefinition_generate (type : RawType) (slot : SlotDefinition) :
    decodeSlotDefinition (generateSlotDefinition type slot).1 =
      { crossSlotBoundary := slot.crossSlotBoundary
        numSlots := if slot.maxSlots type < slot.numSlots then slot.maxSlots type else slot.numSlots
        slotDurationUs := cslotToUs
          (if slot.cslotMax type < slot.cslot then slot.cslotMax type else slot.cslot) } := by
  rw [generateSlotDefinition, slotFormat_eq]
  have duration := toNat_capped_le (slot.cslotMax type) slot.cslot
  have slots := toNat_capped_le (slot.maxSlots type) slot.numSlots
  apply decodeSlotDefinition_slotFields
  · refine Nat.lt_of_le_of_lt duration ?_
    rw [SlotDefinition.cslotMax]
    cases slot.isLong type <;> decide
  · refine Nat.lt_of_le_of_lt slots ?_
    rw [SlotDefinition.maxSlots]
    cases slot.isLong type <;> decide

/-! ## Representable configurations -/

/-- The length of a slot as a count of 120 us above the shortest one. -/
def SlotDefinition.count (slot : SlotDefinition) : Nat := (slot.slotDurationUs.toNat - 500) / 120

/-- A format has room for the slots of a configuration and for their length.  A
sounding window has the shorter format only. -/
def Representable (type : RawType) (slot : SlotDefinition) : Prop :=
  500 ≤ slot.slotDurationUs.toNat ∧
    ((slot.count < 2 ^ 8 ∧ slot.numSlots.toNat < 2 ^ 6) ∨
      (type ≠ .sounding ∧ slot.count < 2 ^ 11 ∧ slot.numSlots.toNat < 2 ^ 3))

instance (type : RawType) (slot : SlotDefinition) : Decidable (Representable type slot) :=
  inferInstanceAs (Decidable (_ ∧ _))

/-- A slot definition is read as it was configured, with the length of a slot
rounded down to its unit. -/
structure SlotDefinition.ReadAs (slot read : SlotDefinition) : Prop where
  numSlots : read.numSlots = slot.numSlots
  shorter : read.slotDurationUs ≤ slot.slotDurationUs
  within : slot.slotDurationUs.toNat < read.slotDurationUs.toNat + 120
  crossSlotBoundary : read.crossSlotBoundary = slot.crossSlotBoundary

/-- The octets say what was configured, and the configuration stays as it was. -/
structure SlotsKept (type : RawType) (slot : SlotDefinition) : Prop where
  read : slot.ReadAs (decodeSlotDefinition (generateSlotDefinition type slot).1)
  unchanged : (generateSlotDefinition type slot).2 = slot

theorem cslot_toNat {slot : SlotDefinition} (long : 500 ≤ slot.slotDurationUs.toNat) :
    slot.cslot.toNat = slot.count := by
  have enough : ¬ slot.slotDurationUs < minSlotDurationUs := fun short => by
    exact absurd short (Nat.not_lt.mpr long)
  have order : minSlotDurationUs ≤ slot.slotDurationUs := BitVec.not_lt.mp enough
  rw [SlotDefinition.cslot, if_neg enough, usToCslot, BitVec.toNat_udiv,
    BitVec.toNat_sub_of_le order]
  rfl

theorem Representable.cslot_le (representable : Representable type slot) :
    ¬ slot.cslotMax type < slot.cslot := by
  obtain ⟨long, room⟩ := representable
  have count := cslot_toNat long
  rw [SlotDefinition.cslotMax, BitVec.lt_def]
  cases chosen : slot.isLong type with
  | true =>
    simp only [if_true]
    have limit : (2047 : BitVec 32).toNat = 2047 := rfl
    omega
  | false =>
    simp only [Bool.false_eq_true, if_false]
    have limit : (255 : BitVec 32).toNat = 255 := rfl
    have shorter : ¬ (type ≠ .sounding ∧ 255 < slot.count) := by
      have short := of_decide_eq_false chosen
      rw [BitVec.lt_def, count] at short
      exact short
    rcases room with ⟨small, _⟩ | ⟨other, _, _⟩
    · omega
    · have small : ¬ 255 < slot.count := fun large => shorter ⟨other, large⟩
      omega

theorem Representable.cslotToUs_toNat (representable : Representable type slot) :
    (cslotToUs slot.cslot).toNat = 500 + slot.count * 120 := by
  have count := cslot_toNat representable.1
  have bound : slot.count < 2 ^ 11 := by
    rcases representable.2 with ⟨small, _⟩ | ⟨_, small, _⟩ <;> omega
  have shortest : minSlotDurationUs.toNat = 500 := rfl
  have unit : (120 : BitVec 32).toNat = 120 := rfl
  rw [cslotToUs, BitVec.toNat_add, BitVec.toNat_mul, unit]
  omega

theorem Representable.readAs_iff (representable : Representable type slot) :
    slot.ReadAs (decodeSlotDefinition (generateSlotDefinition type slot).1) ↔
      slot.numSlots ≤ slot.maxSlots type := by
  have length := representable.cslotToUs_toNat
  rw [decodeSlotDefinition_generate, if_neg representable.cslot_le]
  constructor
  · intro kept
    have number := kept.numSlots
    refine BitVec.not_lt.mp fun more => ?_
    rw [if_pos more] at number
    exact absurd (number ▸ more) (BitVec.lt_irrefl _)
  · intro few
    have rounded : slot.count = (slot.slotDurationUs.toNat - 500) / 120 := rfl
    have shortest := representable.1
    refine ⟨if_neg (BitVec.not_lt.mpr few), ?_, ?_, rfl⟩
    · rw [BitVec.le_def, length]
      omega
    · rw [length]
      omega

/-- The slots of a representable configuration are encoded as they were
configured exactly if they are no more than the bits that their number has. -/
theorem slotsKept_iff (type : RawType) (slot : SlotDefinition)
    (representable : Representable type slot) :
    SlotsKept type slot ↔ slot.numSlots ≤ slot.maxSlots type := by
  constructor
  · exact fun kept => representable.readAs_iff.mp kept.read
  · intro few
    refine ⟨representable.readAs_iff.mpr few, ?_⟩
    rw [generateSlotDefinition, slotFormat_eq]
    dsimp only
    rw [if_neg (BitVec.not_lt.mpr few)]

theorem slotsKept_iff_six :
    Representable .generic ⟨true, 6, 31099⟩ ∧
      (SlotsKept .generic ⟨true, 6, 31099⟩ ↔
        (6 : BitVec 16) ≤ SlotDefinition.maxSlots .generic ⟨true, 6, 31099⟩) :=
  have representable : Representable .generic ⟨true, 6, 31099⟩ := by decide
  ⟨representable, slotsKept_iff _ _ representable⟩

/-- Seven slots of the shortest length are announced as six. -/
theorem not_slotsKept :
    ¬ ∀ (type : RawType) (slot : SlotDefinition), Representable type slot →
      SlotsKept type slot := fun kept =>
  have representable : Representable .generic ⟨false, 7, 500⟩ := by decide
  have number := (kept .generic ⟨false, 7, 500⟩ representable).read.numSlots
  absurd number (by decide)

end Raw
end Morse
