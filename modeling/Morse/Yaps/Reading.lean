import Morse.Yaps.Stream

/-!
# The parsing loop

What one turn of the parsing loop does with the window that is left, and how
its turns follow the splitting of the window into whole packets.
-/

namespace Morse
namespace Yaps

open Lib

variable {crc7BeByte : BitVec 8 → Octet → BitVec 8} {aux : AuxData} {env : ReadEnv}
  {window slots index : Nat} {octets rest stale : List Octet} {pkt : RxPkt}

@[simp] theorem readLoop_no_octets :
    readLoop crc7BeByte aux env window slots index stale 0 = .stop .left := by
  cases slots with
  | zero => rfl
  | succ slots => rw [readLoop, if_pos (Int.le_refl 0)]

theorem total_of_valid {size : Nat} (aligned : 4 ∣ aux.reservedYapsPageSize.toNat)
    (valid : morseYapsIsValidDelimiter crc7BeByte delim = true)
    (sizeEq : yapsDelimGetPktSize aux delim = size) :
    4 ∣ size + yapsDelimGetPadding delim ∧ yapsDelimGetPadding delim < 4 := by
  unfold morseYapsIsValidDelimiter at valid
  split at valid
  · cases valid
  split at valid
  · cases valid
  split at valid
  · cases valid
  split at valid
  · cases valid
  · next padded =>
      have padding := not_not.mp padded
      unfold yapsDelimGetPktSize at sizeEq
      unfold yapsCalcPadding at padding
      split at padding <;> omega

theorem readLoop_of_wholePacket (found : wholePacket crc7BeByte aux octets = some (pkt, rest))
    (allocated : env.allocates index = true) :
    readLoop crc7BeByte aux env window (slots + 1) index (octets ++ stale) octets.length =
      (readLoop crc7BeByte aux env window slots (index + 1) (rest ++ stale) rest.length).cons
        pkt := by
  obtain ⟨whole, nonzero, valid, size, padding, sizeEq, paddingEq, fits, rfl, rfl⟩ :=
    wholePacket_eq_some found
  have dropped : (octets ++ stale).drop sizeofDelim = octets.drop sizeofDelim ++ stale :=
    List.drop_append_of_le_length whole
  have bodyLength : (octets.drop sizeofDelim).length = octets.length - sizeofDelim :=
    List.length_drop
  have restLength : ((octets.drop sizeofDelim).drop (size + padding)).length =
      octets.length - sizeofDelim - (size + padding) := by
    rw [List.length_drop, List.length_drop]
  have positive : ¬ ((octets.length : Int) ≤ 0) := by
    unfold sizeofDelim at whole
    omega
  have granted : env.devAllocSkb index size = true := by
    rw [ReadEnv.devAllocSkb, allocated, decide_eq_true (Int.natCast_nonneg size), Bool.true_and]
  rw [readLoop, if_neg positive]
  simp only [le32ToCpu_append whole, dropped, valid, sizeEq, paddingEq, granted, nonzero,
    if_false, Bool.not_true, Bool.false_eq_true]
  rw [if_pos (by omega), List.take_append_of_le_length (by omega),
    List.drop_append_of_le_length (by omega)]
  congr 2
  omega

theorem readLoop_of_frames (split : frames (wholePacket crc7BeByte aux) octets = (pkts, []))
    (enough : pkts.length ≤ slots) (allocated : ∀ index, env.allocates index = true) :
    readLoop crc7BeByte aux env window slots index (octets ++ stale) octets.length =
      ⟨.left, pkts, []⟩ := by
  induction pkts generalizing slots index octets with
  | nil =>
    cases found : wholePacket crc7BeByte aux octets with
    | none =>
      rw [frames_of_none found] at split
      obtain ⟨-, rfl⟩ := split
      exact readLoop_no_octets
    | some first =>
      rw [frames_of_some (splitter_wholePacket aux) found, Prod.mk.injEq] at split
      cases split.1
  | cons pkt pkts ih =>
    cases found : wholePacket crc7BeByte aux octets with
    | none =>
      rw [frames_of_none found, Prod.mk.injEq] at split
      cases split.1
    | some first =>
      rw [frames_of_some (splitter_wholePacket aux) found, Prod.mk.injEq,
        List.cons.injEq] at split
      obtain ⟨⟨rfl, others⟩, left⟩ := split
      rw [List.length_cons] at enough
      cases slots with
      | zero => omega
      | succ slots =>
        rw [readLoop_of_wholePacket found (allocated index),
          ih (Prod.ext others left) (by omega)]
        rfl

/-! ## Partial runs -/

/-- Some packets before the others. -/
def LoopResult.prepend (pkts : List RxPkt) (result : LoopResult) : LoopResult :=
  { result with received := pkts ++ result.received }

theorem LoopResult.prepend_cons (pkt : RxPkt) (pkts : List RxPkt) (result : LoopResult) :
    (result.prepend pkts).cons pkt = result.prepend (pkt :: pkts) := rfl

theorem readLoop_of_refused (found : wholePacket crc7BeByte aux octets = some (pkt, rest))
    (refused : env.allocates index = false) :
    readLoop crc7BeByte aux env window (slots + 1) index (octets ++ stale) octets.length =
      .stop (.error .enomem) := by
  obtain ⟨whole, nonzero, valid, size, padding, sizeEq, paddingEq, fits, rfl, rfl⟩ :=
    wholePacket_eq_some found
  have positive : ¬ ((octets.length : Int) ≤ 0) := by
    unfold sizeofDelim at whole
    omega
  have denied : env.devAllocSkb index size = false := by
    rw [ReadEnv.devAllocSkb, refused, Bool.false_and]
  rw [readLoop, if_neg positive]
  simp only [le32ToCpu_append whole, valid, sizeEq, denied, nonzero, if_false, Bool.not_true,
    Bool.not_false, Bool.false_eq_true, if_true]

theorem words_of_wholePacket (found : wholePacket crc7BeByte aux octets = some (pkt, rest))
    (aligned : 4 ∣ aux.reservedYapsPageSize.toNat) (words : 4 ∣ octets.length) :
    4 ∣ rest.length := by
  obtain ⟨whole, nonzero, valid, size, padding, sizeEq, paddingEq, fits, rfl, rfl⟩ :=
    wholePacket_eq_some found
  have total := total_of_valid aligned valid sizeEq
  rw [List.length_drop, List.length_drop]
  unfold sizeofDelim at fits ⊢
  omega

theorem readLoop_advance (count : Nat)
    (split : frames (wholePacket crc7BeByte aux) octets = (pkts, left))
    (present : count ≤ pkts.length) (enough : count ≤ slots)
    (allocated : ∀ offset, offset < count → env.allocates (index + offset) = true)
    (aligned : 4 ∣ aux.reservedYapsPageSize.toNat) (words : 4 ∣ octets.length) :
    ∃ later, frames (wholePacket crc7BeByte aux) later = (pkts.drop count, left) ∧
      4 ∣ later.length ∧
      readLoop crc7BeByte aux env window slots index (octets ++ stale) octets.length =
        (readLoop crc7BeByte aux env window (slots - count) (index + count) (later ++ stale)
          later.length).prepend (pkts.take count) := by
  induction count generalizing slots index octets pkts with
  | zero => exact ⟨octets, split, words, rfl⟩
  | succ count ih =>
    cases found : wholePacket crc7BeByte aux octets with
    | none =>
      rw [frames_of_none found, Prod.mk.injEq] at split
      rw [← split.1] at present
      exact absurd present (Nat.not_succ_le_zero count)
    | some first =>
      rw [frames_of_some (splitter_wholePacket aux) found, Prod.mk.injEq] at split
      obtain ⟨rfl, left⟩ := split
      obtain ⟨slots, rfl⟩ : ∃ fewer, slots = fewer + 1 := ⟨slots - 1, by omega⟩
      obtain ⟨later, laterSplit, laterWords, advanced⟩ :=
        @ih slots (index + 1) first.2 _ (Prod.ext rfl left)
          (Nat.le_of_succ_le_succ present) (Nat.le_of_succ_le_succ enough)
          (fun offset below => by
            rw [Nat.add_assoc, Nat.add_comm 1]
            exact allocated (offset + 1) (by omega))
          (words_of_wholePacket found aligned words)
      refine ⟨later, laterSplit, laterWords, ?_⟩
      have granted : env.allocates index = true := allocated 0 (Nat.succ_pos count)
      rw [readLoop_of_wholePacket found granted, advanced,
        LoopResult.prepend_cons, List.take_succ_cons, Nat.add_sub_add_right,
        Nat.add_assoc, Nat.add_comm 1]

/-! ## The end of the window -/

/-- A packet begins at the end of a window and runs off it. -/
def Straddles (crc7BeByte : BitVec 8 → Octet → BitVec 8) (left : List Octet) : Prop :=
  left ≠ [] ∧ le32ToCpu left ≠ 0 ∧
    morseYapsIsValidDelimiter crc7BeByte (le32ToCpu left) = true

instance (left : List Octet) : Decidable (Straddles crc7BeByte left) :=
  inferInstanceAs (Decidable (_ ∧ _ ∧ _))

theorem sizeofDelim_le_of_words (words : 4 ∣ octets.length) (nonempty : octets ≠ []) :
    sizeofDelim ≤ octets.length := by
  have positive := List.length_pos_iff.mpr nonempty
  unfold sizeofDelim
  omega

theorem readLoop_of_not_straddles (words : 4 ∣ octets.length)
    (ended : ¬ Straddles crc7BeByte octets) :
    readLoop crc7BeByte aux env window slots index (octets ++ stale) octets.length =
      .stop .left := by
  cases slots with
  | zero => rfl
  | succ slots =>
    by_cases nonempty : octets = []
    · subst nonempty
      exact readLoop_no_octets
    · have whole := sizeofDelim_le_of_words words nonempty
      have positive : ¬ ((octets.length : Int) ≤ 0) := by
        unfold sizeofDelim at whole
        omega
      rw [readLoop, if_neg positive]
      simp only [le32ToCpu_append whole]
      by_cases zero : le32ToCpu octets = 0
      · rw [if_pos zero]
      · have damaged : morseYapsIsValidDelimiter crc7BeByte (le32ToCpu octets) = false :=
          Bool.eq_false_iff.mpr fun valid => ended ⟨nonempty, zero, valid⟩
        simp only [damaged, if_neg zero, Bool.not_false, if_true]

theorem readLoop_of_straddles_refused (words : 4 ∣ octets.length)
    (straddles : Straddles crc7BeByte octets)
    (refused : env.devAllocSkb index (yapsDelimGetPktSize aux (le32ToCpu octets)) = false) :
    readLoop crc7BeByte aux env window (slots + 1) index (octets ++ stale) octets.length =
      .stop (.error .enomem) := by
  obtain ⟨nonempty, nonzero, valid⟩ := straddles
  have whole := sizeofDelim_le_of_words words nonempty
  have positive : ¬ ((octets.length : Int) ≤ 0) := by
    unfold sizeofDelim at whole
    omega
  rw [readLoop, if_neg positive]
  simp only [le32ToCpu_append whole, valid, refused, nonzero, if_false, Bool.not_true,
    Bool.not_false, Bool.false_eq_true, if_true]

theorem readLoop_of_straddles_granted (absent : wholePacket crc7BeByte aux octets = none)
    (aligned : 4 ∣ aux.reservedYapsPageSize.toNat) (words : 4 ∣ octets.length)
    (straddles : Straddles crc7BeByte octets)
    (granted : env.devAllocSkb index (yapsDelimGetPktSize aux (le32ToCpu octets)) = true) :
    (∀ error, env.overhangError = some error →
      readLoop crc7BeByte aux env window (slots + 1) index (octets ++ stale) octets.length =
        .stop (.error error)) ∧
    (env.overhangError = none → ∃ pkt overhang,
      readLoop crc7BeByte aux env window (slots + 1) index (octets ++ stale) octets.length =
        ⟨.left, [pkt], overhang⟩ ∧
      wholePacket crc7BeByte aux (octets ++ overhang) = some (pkt, [])) := by
  obtain ⟨nonempty, nonzero, valid⟩ := straddles
  have whole := sizeofDelim_le_of_words words nonempty
  have nonneg : 0 ≤ yapsDelimGetPktSize aux (le32ToCpu octets) := by
    rw [ReadEnv.devAllocSkb, Bool.and_eq_true] at granted
    exact of_decide_eq_true granted.2
  obtain ⟨size, sizeEq⟩ := Int.eq_ofNat_of_zero_le nonneg
  obtain ⟨total, padding_lt⟩ := total_of_valid aligned valid sizeEq
  rw [sizeEq] at granted
  generalize paddingEq : yapsDelimGetPadding (le32ToCpu octets) = padding at total padding_lt
  have longer : octets.length < sizeofDelim + (size + padding) := by
    by_contra fits
    have found : wholePacket crc7BeByte aux octets =
        some (⟨(octets.drop sizeofDelim).take size, yapsDelimGetPoolId (le32ToCpu octets)⟩,
          (octets.drop sizeofDelim).drop (size + padding)) := by
      unfold wholePacket
      rw [if_neg (Nat.not_lt.mpr whole)]
      simp only [sizeEq, paddingEq, valid, nonzero, List.length_drop]
      rw [if_neg (by simp only [false_or, reduceCtorEq]; omega), Int.toNat_natCast,
        ← Int.natCast_add, Int.toNat_natCast]
    rw [absent] at found
    cases found
  obtain ⟨remaining, length⟩ : ∃ remaining, octets.length = sizeofDelim + remaining :=
    ⟨octets.length - sizeofDelim, by omega⟩
  have beyond : remaining < size := by
    unfold sizeofDelim at length longer
    omega
  have bodyLength : (octets.drop sizeofDelim).length = remaining := by
    rw [List.length_drop, length, Nat.add_sub_cancel_left]
  have dropped : (octets ++ stale).drop sizeofDelim = octets.drop sizeofDelim ++ stale :=
    List.drop_append_of_le_length whole
  have bytesRemaining : (octets.length : Int) - sizeofDelim = remaining := by omega
  have positive : ¬ ((octets.length : Int) ≤ 0) := by
    unfold sizeofDelim at whole
    omega
  have short : ¬ ((size : Int) + padding ≤ remaining) := by omega
  have notNegative : ¬ ((remaining : Int) < 0) := by omega
  constructor
  · intro error failed
    rw [readLoop, if_neg positive]
    simp only [le32ToCpu_append whole, valid, sizeEq, granted, nonzero, paddingEq, bytesRemaining,
      if_neg short, if_neg notNegative, failed, if_false, Bool.not_true, Bool.false_eq_true]
  · intro read
    have unpadded : ¬ ((size : Int) < remaining) := by omega
    have missing : ((size : Int) - remaining).toNat = size - remaining := by omega
    have overhangLen : ((size : Int) + padding - remaining).toNat = size + padding - remaining := by
      omega
    have overhangLength : (segment env.stream window (size + padding - remaining)).length =
        size + padding - remaining := length_segment _ _ _
    generalize overhangEq : segment env.stream window (size + padding - remaining) = overhang at *
    refine ⟨⟨octets.drop sizeofDelim ++ overhang.take (size - remaining),
      yapsDelimGetPoolId (le32ToCpu octets)⟩, overhang, ?_, ?_⟩
    · rw [readLoop, if_neg positive]
      simp only [le32ToCpu_append whole, valid, sizeEq, granted, nonzero, paddingEq,
        bytesRemaining, if_neg short, if_neg notNegative, if_neg unpadded, read, if_false,
        Bool.not_true, Bool.false_eq_true, dropped, missing, overhangLen, Int.toNat_natCast,
        overhangEq]
      rw [List.take_append_of_le_length (by omega), ← bodyLength, List.take_length]
    · have body : (octets ++ overhang).drop sizeofDelim = octets.drop sizeofDelim ++ overhang :=
        List.drop_append_of_le_length whole
      have complete : (octets.drop sizeofDelim ++ overhang).length = size + padding := by
        rw [List.length_append, bodyLength]
        omega
      unfold wholePacket
      rw [if_neg (by rw [List.length_append]; omega)]
      simp only [le32ToCpu_append whole, sizeEq, paddingEq, valid, nonzero, body, complete]
      rw [if_neg (by simp only [false_or, reduceCtorEq]; omega), Int.toNat_natCast,
        ← Int.natCast_add, Int.toNat_natCast, ← complete, List.drop_length, List.take_append,
        bodyLength, List.take_of_length_le (by omega)]

end Yaps
end Morse
