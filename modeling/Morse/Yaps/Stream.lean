import Mathlib.Data.List.GetD
import Morse.Lib.Bits
import Morse.Lib.Framing
import Morse.Yaps.Defs

/-!
# Delimiters and the packet stream

The fields of a delimiter that was built from a size, a pool and a flag are
read back from it, and a packet that was written is split off the stream again.
-/

namespace Morse
namespace Yaps

open Lib

variable {crc7BeByte : BitVec 8 → Octet → BitVec 8}

/-! ## Fields of a delimiter -/

variable {width : Nat}

theorem toNat_and_mask (value mask : BitVec 32) (low : mask.toNat = 2 ^ width - 1) :
    (value &&& mask).toNat = value.toNat % 2 ^ width := by
  rw [BitVec.toNat_and, low, Nat.and_two_pow_sub_one_eq_mod]

theorem toNat_field (value mask : BitVec 32) (low : mask.toNat = 2 ^ width - 1)
    (fits : width + shift ≤ 32) :
    ((value &&& mask) <<< shift).toNat = (value.toNat % 2 ^ width) * 2 ^ shift := by
  have below : value.toNat % 2 ^ width * 2 ^ shift < 2 ^ 32 := by
    calc value.toNat % 2 ^ width * 2 ^ shift
        < 2 ^ width * 2 ^ shift :=
          Nat.mul_lt_mul_of_pos_right (Nat.mod_lt _ (Nat.two_pow_pos _)) (Nat.two_pow_pos _)
      _ = 2 ^ (width + shift) := (Nat.pow_add ..).symm
      _ ≤ 2 ^ 32 := Nat.pow_le_pow_right (by omega) fits
  rw [BitVec.toNat_shiftLeft, toNat_and_mask value mask low, Nat.shiftLeft_eq,
    Nat.mod_eq_of_lt below]

theorem toNat_extract (value mask : BitVec 32) (low : mask.toNat = 2 ^ width - 1) (shift : Nat) :
    ((value >>> shift) &&& mask).toNat = value.toNat / 2 ^ shift % 2 ^ width := by
  rw [toNat_and_mask _ mask low, BitVec.toNat_ushiftRight, Nat.shiftRight_eq_div_pow]

theorem toNat_sizeMask : (0x3FFF#32).toNat = 2 ^ 14 - 1 := rfl

theorem toNat_paddingMask : (0x3#32).toNat = 2 ^ 2 - 1 := rfl

theorem toNat_poolMask : (0x7#32).toNat = 2 ^ 3 - 1 := rfl

theorem toNat_irqMask : (0x1#32).toNat = 2 ^ 1 - 1 := rfl

theorem toNat_crcMask : (0x7F#32).toNat = 2 ^ 7 - 1 := rfl

theorem toNat_bodyMask : (0x1ffffff#32).toNat = 2 ^ 25 - 1 := rfl

/-- A delimiter before its CRC is filled in. -/
def delimBody (aux : AuxData) (size poolId : Nat) (irq : Bool) : BitVec 32 :=
  ((BitVec.ofNat 32 size &&& 0x3FFF#32) + aux.reservedYapsPageSize.setWidth 32) |||
    (BitVec.ofNat 32 (yapsCalcPadding size) &&& 0x3#32) <<< 17 |||
    (BitVec.ofNat 32 poolId &&& 0x7#32) <<< 14 |||
    ((BitVec.ofBool irq).setWidth 32 &&& 0x1#32) <<< 19

/-- The CRC field of a delimiter. -/
def delimCrc (crc7BeByte : BitVec 8 → Octet → BitVec 8) (body : BitVec 32) : BitVec 32 :=
  (morseYapsCrc crc7BeByte body).setWidth 32 &&& 0x7F#32

theorem morseYapsDelimiter_eq (aux : AuxData) (size poolId : Nat) (irq : Bool) :
    morseYapsDelimiter crc7BeByte aux size poolId irq =
      delimBody aux size poolId irq |||
        delimCrc crc7BeByte (delimBody aux size poolId irq) <<< 25 := rfl

/-- Sizes whose sum with the reserved size fits the size field. -/
def SizeFits (aux : AuxData) (size : Nat) : Prop :=
  size + aux.reservedYapsPageSize.toNat < 2 ^ 14

variable {low : Nat}

theorem poolField_lt (poolId : Nat) (below : low < 2 ^ 14) :
    poolId % 8 * 2 ^ 14 + low < 2 ^ 17 := by
  omega

theorem paddingField_lt (padding : Nat) (below : low < 2 ^ 17) :
    padding % 4 * 2 ^ 17 + low < 2 ^ 19 := by
  omega

theorem toNat_delimBody (fits : SizeFits aux size) (poolId : Nat) (irq : Bool) :
    (delimBody aux size poolId irq).toNat =
      irq.toNat * 2 ^ 19 + (yapsCalcPadding size % 4 * 2 ^ 17 + (poolId % 8 * 2 ^ 14 +
        (size + aux.reservedYapsPageSize.toNat))) := by
  unfold SizeFits at fits
  have sizeField : ((BitVec.ofNat 32 size &&& 0x3FFF#32) +
      aux.reservedYapsPageSize.setWidth 32).toNat = size + aux.reservedYapsPageSize.toNat := by
    have masked : (BitVec.ofNat 32 size &&& 0x3FFF#32).toNat = size := by
      rw [toNat_and_mask _ _ toNat_sizeMask, BitVec.toNat_ofNat]
      omega
    have widened : (aux.reservedYapsPageSize.setWidth 32).toNat = aux.reservedYapsPageSize.toNat :=
      BitVec.toNat_setWidth_of_le (by omega)
    rw [BitVec.toNat_add, masked]
    omega
  have paddingField := toNat_field (BitVec.ofNat 32 (yapsCalcPadding size)) _ toNat_paddingMask
    (show 2 + 17 ≤ 32 by omega)
  have poolField := toNat_field (BitVec.ofNat 32 poolId) _ toNat_poolMask
    (show 3 + 14 ≤ 32 by omega)
  have irqField := toNat_field ((BitVec.ofBool irq).setWidth 32) _ toNat_irqMask
    (show 1 + 19 ≤ 32 by omega)
  have irqBit : ((BitVec.ofBool irq).setWidth 32).toNat % 2 ^ 1 = irq.toNat := by
    cases irq <;> rfl
  have paddingBits : (BitVec.ofNat 32 (yapsCalcPadding size)).toNat % 2 ^ 2 =
      yapsCalcPadding size % 4 := by
    rw [BitVec.toNat_ofNat]
    omega
  have poolBits : (BitVec.ofNat 32 poolId).toNat % 2 ^ 3 = poolId % 8 := by
    rw [BitVec.toNat_ofNat]
    omega
  unfold delimBody
  rw [BitVec.toNat_or, BitVec.toNat_or, BitVec.toNat_or, sizeField, paddingField, poolField,
    irqField, irqBit, paddingBits, poolBits, Nat.or_assoc _ (_ * 2 ^ 17),
    Nat.or_comm (_ * 2 ^ 17), ← Nat.or_assoc, or_mul_two_pow fits,
    or_mul_two_pow (poolField_lt poolId fits),
    or_mul_two_pow (paddingField_lt (yapsCalcPadding size) (poolField_lt poolId fits))]

theorem morseYapsCrc_or (body crc : BitVec 32) :
    morseYapsCrc crc7BeByte (body ||| crc <<< 25) = morseYapsCrc crc7BeByte body := by
  have masked : (body ||| crc <<< 25) &&& 0x1ffffff#32 = body &&& 0x1ffffff#32 := by
    have shifted : crc.toNat * 2 ^ 25 % 2 ^ 32 % 2 ^ 25 = 0 := by omega
    apply BitVec.eq_of_toNat_eq
    rw [toNat_and_mask _ _ toNat_bodyMask, toNat_and_mask _ _ toNat_bodyMask, BitVec.toNat_or,
      BitVec.toNat_shiftLeft, Nat.or_mod_two_pow, Nat.shiftLeft_eq, shifted, Nat.or_zero]
  unfold morseYapsCrc
  rw [masked]

theorem delimCrc_toNat (body : BitVec 32) :
    (delimCrc crc7BeByte body).toNat =
      ((morseYapsCrc crc7BeByte body).setWidth 32).toNat % 2 ^ 7 :=
  toNat_and_mask _ _ toNat_crcMask

theorem toNat_morseYapsDelimiter (crc7BeByte : BitVec 8 → Octet → BitVec 8)
    (fits : SizeFits aux size) (poolId : Nat) (irq : Bool) :
    (morseYapsDelimiter crc7BeByte aux size poolId irq).toNat =
      (delimCrc crc7BeByte (delimBody aux size poolId irq)).toNat * 2 ^ 25 +
        (delimBody aux size poolId irq).toNat := by
  have body := toNat_delimBody fits poolId irq
  unfold SizeFits at fits
  have irq_le := Bool.toNat_le irq
  have crcField := toNat_field
    ((morseYapsCrc crc7BeByte (delimBody aux size poolId irq)).setWidth 32) _ toNat_crcMask
    (show 7 + 25 ≤ 32 by omega)
  rw [morseYapsDelimiter_eq, BitVec.toNat_or, delimCrc_toNat]
  unfold delimCrc
  rw [crcField, or_mul_two_pow (by omega)]

theorem fields_morseYapsDelimiter (crc7BeByte : BitVec 8 → Octet → BitVec 8)
    (fits : SizeFits aux size) (pool : poolId < 8) (irq : Bool) :
    yapsDelimGetPhandleSize (morseYapsDelimiter crc7BeByte aux size poolId irq) =
        size + aux.reservedYapsPageSize.toNat ∧
      yapsDelimGetPadding (morseYapsDelimiter crc7BeByte aux size poolId irq) =
        yapsCalcPadding size ∧
      yapsDelimGetPoolId (morseYapsDelimiter crc7BeByte aux size poolId irq) = poolId ∧
      yapsDelimGetCrc (morseYapsDelimiter crc7BeByte aux size poolId irq) =
        delimCrc crc7BeByte (delimBody aux size poolId irq) := by
  have whole := toNat_morseYapsDelimiter crc7BeByte fits poolId irq
  have body := toNat_delimBody fits poolId irq
  have irq_le := Bool.toNat_le irq
  have padding_lt : yapsCalcPadding size < 4 := by
    unfold yapsCalcPadding
    split <;> omega
  unfold SizeFits at fits
  refine ⟨?_, ?_, ?_, ?_⟩
  · rw [yapsDelimGetPhandleSize, toNat_and_mask _ _ toNat_sizeMask]
    omega
  · rw [yapsDelimGetPadding, toNat_extract _ _ toNat_paddingMask]
    omega
  · rw [yapsDelimGetPoolId, toNat_extract _ _ toNat_poolMask]
    omega
  · apply BitVec.eq_of_toNat_eq
    rw [yapsDelimGetCrc, toNat_extract _ _ toNat_crcMask]
    omega

theorem isValidDelimiter_morseYapsDelimiter (crc7BeByte : BitVec 8 → Octet → BitVec 8)
    (pool : poolId < 8) (irq : Bool) (nonempty : size + aux.reservedYapsPageSize.toNat ≠ 0)
    (small : size + aux.reservedYapsPageSize.toNat ≤ yapsMaxPktSizeBytes)
    (padded : yapsCalcPadding size = 0)
    (aligned : yapsCalcPadding (size + aux.reservedYapsPageSize.toNat) = 0) :
    morseYapsIsValidDelimiter crc7BeByte
      (morseYapsDelimiter crc7BeByte aux size poolId irq) = true := by
  have fits : SizeFits aux size := Nat.lt_of_le_of_lt small (by decide)
  obtain ⟨phandle, padding, -, crc⟩ :=
    fields_morseYapsDelimiter crc7BeByte fits pool irq
  have covered : morseYapsCrc crc7BeByte (morseYapsDelimiter crc7BeByte aux size poolId irq) =
      morseYapsCrc crc7BeByte (delimBody aux size poolId irq) := by
    rw [morseYapsDelimiter_eq, morseYapsCrc_or]
  have sevenBits : (morseYapsCrc crc7BeByte (delimBody aux size poolId irq)).setWidth 32 =
      delimCrc crc7BeByte (delimBody aux size poolId irq) := by
    apply BitVec.eq_of_toNat_eq
    rw [delimCrc_toNat]
    rw [BitVec.toNat_setWidth_of_le (by omega), morseYapsCrc, BitVec.toNat_ushiftRight]
    omega
  unfold morseYapsIsValidDelimiter
  rw [phandle, padding, crc, covered, sevenBits, padded, aligned, if_neg (by simp),
    if_neg nonempty, if_neg (by omega), if_neg (by simp)]

/-! ## Words in memory -/

theorem le32ToCpu_cpuToLe32 (word : BitVec 32) (rest : List Octet) :
    le32ToCpu (cpuToLe32 word ++ rest) = word := by
  simp only [le32ToCpu, cpuToLe32, List.cons_append, List.nil_append, List.getD_cons_succ,
    List.getD_cons_zero, BitVec.getLsbD_append, BitVec.getLsbD_setWidth,
    BitVec.getLsbD_ushiftRight]
  grind

theorem le32ToCpu_append (whole : sizeofDelim ≤ octets.length) (rest : List Octet) :
    le32ToCpu (octets ++ rest) = le32ToCpu octets := by
  unfold sizeofDelim at whole
  unfold le32ToCpu
  rw [List.getD_append _ _ _ _ (by omega), List.getD_append _ _ _ _ (by omega),
    List.getD_append _ _ _ _ (by omega), List.getD_append _ _ _ _ (by omega)]

/-! ## Whole packets -/

/-- The packet at the front of a part of the stream, if it is there to its last
octet, and what follows it. -/
def wholePacket (crc7BeByte : BitVec 8 → Octet → BitVec 8) (aux : AuxData)
    (octets : List Octet) : Option (RxPkt × List Octet) :=
  if octets.length < sizeofDelim then none
  else
    let delim := le32ToCpu octets
    let body := octets.drop sizeofDelim
    let pktSize := yapsDelimGetPktSize aux delim
    let totalLen := pktSize + yapsDelimGetPadding delim
    if delim = 0 ∨ morseYapsIsValidDelimiter crc7BeByte delim = false ∨ pktSize < 0 ∨
        (body.length : Int) < totalLen then none
    else
      some (⟨body.take pktSize.toNat, yapsDelimGetPoolId delim⟩, body.drop totalLen.toNat)

theorem wholePacket_eq_some (found : wholePacket crc7BeByte aux octets = some (pkt, rest)) :
    sizeofDelim ≤ octets.length ∧ le32ToCpu octets ≠ 0 ∧
      morseYapsIsValidDelimiter crc7BeByte (le32ToCpu octets) = true ∧
      ∃ size padding : Nat,
        yapsDelimGetPktSize aux (le32ToCpu octets) = size ∧
        yapsDelimGetPadding (le32ToCpu octets) = padding ∧
        sizeofDelim + (size + padding) ≤ octets.length ∧
        pkt = ⟨(octets.drop sizeofDelim).take size, yapsDelimGetPoolId (le32ToCpu octets)⟩ ∧
        rest = (octets.drop sizeofDelim).drop (size + padding) := by
  unfold wholePacket at found
  split at found
  · cases found
  · next whole =>
      simp only at found
      split at found
      · cases found
      · next present =>
          simp only [not_or, Bool.not_eq_false, Int.not_lt] at present
          obtain ⟨nonzero, valid, nonneg, fits⟩ := present
          obtain ⟨size, exact⟩ := Int.eq_ofNat_of_zero_le nonneg
          rw [List.length_drop] at fits
          rw [exact] at found fits
          cases found
          refine ⟨by omega, nonzero, valid, size, _, exact, rfl, by omega, rfl, ?_⟩
          rw [← Int.natCast_add, Int.toNat_natCast]

theorem splitter_wholePacket (aux : AuxData) : Splitter (wholePacket crc7BeByte aux) where
  shorter {octets pkt rest} found := by
    obtain ⟨whole, -, -, size, padding, -, -, fits, -, rfl⟩ := wholePacket_eq_some found
    unfold sizeofDelim at fits whole ⊢
    rw [List.length_drop, List.length_drop]
    omega
  stable {octets pkt rest} found more := by
    obtain ⟨whole, nonzero, valid, size, padding, sizeEq, paddingEq, fits, rfl, rfl⟩ :=
      wholePacket_eq_some found
    have dropped : (octets ++ more).drop sizeofDelim = octets.drop sizeofDelim ++ more :=
      List.drop_append_of_le_length whole
    have bodyFits : size + padding ≤ (octets.drop sizeofDelim).length := by
      rw [List.length_drop]
      omega
    unfold wholePacket
    rw [if_neg (by rw [List.length_append]; omega)]
    simp only [le32ToCpu_append whole, dropped, sizeEq, paddingEq, valid]
    rw [if_neg]
    · rw [← Int.natCast_add, Int.toNat_natCast, Int.toNat_natCast,
        List.take_append_of_le_length (by omega), List.drop_append_of_le_length bodyFits]
    · rw [List.length_append]
      simp only [nonzero, false_or, not_or, Int.not_lt, reduceCtorEq]
      omega

end Yaps
end Morse
