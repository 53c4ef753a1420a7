import Mathlib.Data.List.GetD
import Mathlib.Data.List.Range
import Morse.PageSlicing.Defs

/-!
# What a page slice element says

The fields of the element keep their values, and its slices take all announced
blocks, the last one what is left over.  The page bitmap numbers the blocks from
a multiple of eight, while the block offset is that of the first block modulo
four, so that the bitmap is that of the offset exactly where the map begins in
block zero, or in block four and with blocks that the loop does not mix up.
-/

namespace Morse
namespace PageSlicing

open Tim (aidToBlockOffset)

/-! ## Fields -/

theorem getLsbD_bmset (inside : 8 * byte + high < 24) (ordered : low ≤ high) (val bit : Nat) :
    (bmset byte high low val).getLsbD bit =
      (decide (8 * byte + low ≤ bit ∧ bit ≤ 8 * byte + high) &&
        val.testBit (bit - (8 * byte + low))) := by
  simp only [bmset, BitVec.getLsbD_shiftLeft, BitVec.getLsbD_ofNat, Nat.testBit_mod_two_pow]
  by_cases within : 8 * byte + low ≤ bit ∧ bit ≤ 8 * byte + high
  · simp [within, show bit < 24 by omega, show bit - (8 * byte + low) < 24 by omega,
      show ¬ bit < 8 * byte + low by omega,
      show bit - (8 * byte + low) < high + 1 - low by omega]
  · rw [decide_eq_false within]
    by_cases before : bit < 8 * byte + low
    · simp [before]
    · simp [show ¬ bit - (8 * byte + low) < high + 1 - low by omega]

theorem testBit_bmget (byte high low : Nat) (control : BitVec 24) (bit : Nat) :
    (bmget byte high low control).testBit bit =
      (decide (bit < high + 1 - low) && control.getLsbD (8 * byte + low + bit)) := by
  rw [bmget, Nat.testBit_mod_two_pow, BitVec.testBit_toNat, BitVec.getLsbD_ushiftRight]

theorem bmget_or (byte high low : Nat) (control other : BitVec 24) :
    bmget byte high low (control ||| other) =
      bmget byte high low control ||| bmget byte high low other := by
  apply Nat.eq_of_testBit_eq
  intro bit
  rw [Nat.testBit_or, testBit_bmget, testBit_bmget, testBit_bmget, BitVec.getLsbD_or,
    Bool.and_or_distrib_left]

theorem bmget_bmset (inside : 8 * byte + high < 24) (ordered : low ≤ high)
    (small : val < 2 ^ (high + 1 - low)) :
    bmget byte high low (bmset byte high low val) = val := by
  apply Nat.eq_of_testBit_eq
  intro bit
  rw [testBit_bmget, getLsbD_bmset inside ordered]
  by_cases within : bit < high + 1 - low
  · simp [within, show 8 * byte + low + bit ≤ 8 * byte + high by omega]
  · have zero : val.testBit bit = false :=
      Nat.testBit_lt_two_pow (Nat.lt_of_lt_of_le small
        (Nat.pow_le_pow_right Nat.two_pos (Nat.not_lt.mp within)))
    simp [within, zero]

theorem bmget_bmset_of_disjoint (inside : 8 * otherByte + otherHigh < 24)
    (ordered : otherLow ≤ otherHigh)
    (disjoint : 8 * byte + high < 8 * otherByte + otherLow ∨
      8 * otherByte + otherHigh < 8 * byte + low)
    (val : Nat) :
    bmget byte high low (bmset otherByte otherHigh otherLow val) = 0 := by
  apply Nat.eq_of_testBit_eq
  intro bit
  rw [testBit_bmget, getLsbD_bmset inside ordered]
  by_cases within : bit < high + 1 - low
  · simp [show ¬ (8 * otherByte + otherLow ≤ 8 * byte + low + bit ∧
      8 * byte + low + bit ≤ 8 * otherByte + otherHigh) by omega]
  · simp [within]

theorem bmget_zero (byte high low : Nat) : bmget byte high low 0 = 0 := by
  simp [bmget]

section Control

variable {pageSlicing : PageSlicing}

theorem pageSliceCount_control (small : pageSlicing.pageSliceCount < 32) :
    bmget 0 11 7 pageSlicing.control = pageSlicing.pageSliceCount := by
  simp only [PageSlicing.control, setPageIndex, setPageSliceLength, setPageSliceCount,
    setBlockOffset, setTimOffset, bmget_or, bmget_zero, Nat.zero_or]
  rw [bmget_bmset (by omega) (by omega) small, bmget_bmset_of_disjoint (by omega) (by omega)
    (by omega), bmget_bmset_of_disjoint (by omega) (by omega) (by omega),
    bmget_bmset_of_disjoint (by omega) (by omega) (by omega),
    bmget_bmset_of_disjoint (by omega) (by omega) (by omega)]
  simp only [Nat.zero_or, Nat.or_zero]

theorem blockOffset_control (small : pageSlicing.blockOffset < 32) :
    bmget 1 8 4 pageSlicing.control = pageSlicing.blockOffset := by
  simp only [PageSlicing.control, setPageIndex, setPageSliceLength, setPageSliceCount,
    setBlockOffset, setTimOffset, bmget_or, bmget_zero, Nat.zero_or]
  rw [bmget_bmset (by omega) (by omega) small, bmget_bmset_of_disjoint (by omega) (by omega)
    (by omega), bmget_bmset_of_disjoint (by omega) (by omega) (by omega),
    bmget_bmset_of_disjoint (by omega) (by omega) (by omega),
    bmget_bmset_of_disjoint (by omega) (by omega) (by omega)]
  simp only [Nat.zero_or, Nat.or_zero]

end Control

/-! ## Blocks of a traffic map -/

/-- The block that the map begins in. -/
def Dtim.firstBlock (dtim : Dtim) : Nat := dtim.bitmapOffset / 8

/-- The block that the map ends in. -/
def Dtim.lastBlock (dtim : Dtim) : Nat := (dtim.bitmapOffset + dtim.virtualMap.length - 1) / 8

theorem virtualMap_length_pos (dtim : Dtim) : 0 < dtim.virtualMap.length := by
  apply Nat.pos_of_ne_zero
  intro empty
  have last := dtim.last
  rw [List.length_eq_zero_iff.mp empty] at last
  exact last rfl

theorem firstBlock_le_lastBlock (dtim : Dtim) : dtim.firstBlock ≤ dtim.lastBlock := by
  have nonempty := virtualMap_length_pos dtim
  exact Nat.div_le_div_right (by omega)

theorem lastBlock_lt (dtim : Dtim) : dtim.lastBlock < 32 := by
  have fits := dtim.fits
  unfold maxTimVirtualMapLength at fits
  unfold Dtim.lastBlock
  omega

theorem blockHasAid_iff (dtim : Dtim) (block : Nat) :
    dtim.blockHasAid block = true ↔ ∃ subblock < 8, dtim.octet (8 * block + subblock) ≠ 0 := by
  simp [Dtim.blockHasAid, subblocksPerBlock, someBit]

theorem blockHasAid_firstBlock (dtim : Dtim) : dtim.blockHasAid dtim.firstBlock = true := by
  have even := dtim.even
  have place (index : Nat) (near : index < 2) :
      dtim.octet (8 * dtim.firstBlock + (dtim.bitmapOffset % 8 + index)) =
        dtim.virtualMap.getD index 0 := by
    have position : 8 * dtim.firstBlock + (dtim.bitmapOffset % 8 + index) =
        dtim.bitmapOffset + index := by
      unfold Dtim.firstBlock
      omega
    rw [position, Dtim.octet, if_pos (Nat.le_add_right _ _), Nat.add_sub_cancel_left]
  rw [blockHasAid_iff]
  rcases dtim.first with zero | one
  · exact ⟨dtim.bitmapOffset % 8 + 0, by omega, by rwa [place 0 (by omega)]⟩
  · exact ⟨dtim.bitmapOffset % 8 + 1, by omega, by rwa [place 1 (by omega)]⟩

theorem blockHasAid_lastBlock (dtim : Dtim) : dtim.blockHasAid dtim.lastBlock = true := by
  have nonempty := virtualMap_length_pos dtim
  rw [blockHasAid_iff]
  refine ⟨(dtim.bitmapOffset + dtim.virtualMap.length - 1) % 8, Nat.mod_lt _ (by omega), ?_⟩
  have position : 8 * dtim.lastBlock + (dtim.bitmapOffset + dtim.virtualMap.length - 1) % 8 =
      dtim.bitmapOffset + (dtim.virtualMap.length - 1) := by
    unfold Dtim.lastBlock
    omega
  rw [position, Dtim.octet, if_pos (Nat.le_add_right _ _), Nat.add_sub_cancel_left]
  exact dtim.last

theorem blockHasAid_inside {dtim : Dtim} (traffic : dtim.blockHasAid block = true) :
    dtim.firstBlock ≤ block ∧ block ≤ dtim.lastBlock := by
  obtain ⟨subblock, below, nonzero⟩ := (blockHasAid_iff dtim block).mp traffic
  unfold Dtim.octet at nonzero
  split at nonzero
  · next reached =>
      have within : 8 * block + subblock - dtim.bitmapOffset < dtim.virtualMap.length := by
        by_contra beyond
        exact nonzero (List.getD_eq_default _ _ (Nat.not_lt.mp beyond))
      unfold Dtim.firstBlock Dtim.lastBlock
      omega
  · exact absurd rfl nonzero

/-! ## The loop over the blocks -/

section Saved

variable (pageSlicing : PageSlicing) (dtim : Dtim)

theorem blockOffset_saveDtim :
    (pageSlicing.saveDtim dtim).blockOffset = dtim.firstBlock % 4 := by
  have narrow : ∀ aid < 256, aidToBlockOffset aid = aid / 64 := by decide +kernel
  have small : dtim.bitmapOffset * 8 % 256 < 256 := Nat.mod_lt _ (by omega)
  simp only [PageSlicing.saveDtim, narrow _ small, Dtim.firstBlock]
  omega

theorem lastBlockIdx_saveDtim :
    (pageSlicing.saveDtim dtim).lastBlockIdx = dtim.lastBlock := rfl

/-- The block that the page bitmap begins with. -/
def Dtim.bitmapBlock (dtim : Dtim) : Nat := dtim.firstBlock / 8 * 8

theorem firstBlockIdx_saveDtim :
    (pageSlicing.saveDtim dtim).firstBlockIdx = dtim.firstBlock := rfl

theorem pageBitmapFirstBlock_saveDtim :
    (pageSlicing.saveDtim dtim).pageBitmapFirstBlock = dtim.bitmapBlock := rfl

/-- Where the loop reads the octets of a block, in the saved map.  It finds the
first block only where its number is kept in two bits. -/
def Dtim.readOffset (dtim : Dtim) (block : Nat) : Nat :=
  if dtim.firstBlock < 4 then 8 * block - dtim.bitmapOffset else 8 * (block - dtim.firstBlock)

/-- The loop counts a block. -/
def PageSlicing.announces (block : Nat) : Bool :=
  decide (block = dtim.firstBlock % 4) || decide (block = dtim.lastBlock) ||
    (pageSlicing.saveDtim dtim).someAidAt (dtim.readOffset block)

end Saved

/-- The variables after so many rounds. -/
structure Walked (pageSlicing : PageSlicing) (dtim : Dtim) (rounds : Nat) (walk : BlockWalk) :
    Prop where
  start : rounds = 0 → walk.offset = 0
  offset :
    0 < rounds → dtim.firstBlock + rounds ≤ dtim.lastBlock →
      walk.offset = dtim.readOffset (dtim.firstBlock + rounds)
  bits :
    ∀ bit, walk.pageBitmap.getLsbD bit = true ↔
      ∃ block, dtim.firstBlock ≤ block ∧ block < dtim.firstBlock + rounds ∧
        pageSlicing.announces dtim block = true ∧ block - dtim.bitmapBlock = bit
  count :
    walk.noOfBlocks =
      ((List.range' dtim.firstBlock rounds).filter (pageSlicing.announces dtim)).length

theorem walked_zero (pageSlicing : PageSlicing) (dtim : Dtim) :
    Walked pageSlicing dtim 0 ⟨0, 0, 0⟩ where
  start := fun _ => rfl
  offset := fun positive => absurd positive (Nat.lt_irrefl 0)
  bits := by
    intro bit
    refine iff_of_false (by simp) ?_
    omega
  count := rfl

theorem Walked.offset_eq (walked : Walked pageSlicing dtim rounds walk)
    (inside : dtim.firstBlock + rounds ≤ dtim.lastBlock)
    (notFirst : dtim.firstBlock + rounds ≠ dtim.firstBlock % 4) :
    walk.offset = dtim.readOffset (dtim.firstBlock + rounds) := by
  rcases Nat.eq_zero_or_pos rounds with none | positive
  · have far : ¬ dtim.firstBlock < 4 := by omega
    rw [walked.start none, Dtim.readOffset, if_neg far, none, Nat.add_zero, Nat.sub_self]
  · exact walked.offset positive inside

theorem Walked.updates (walked : Walked pageSlicing dtim rounds walk)
    (inside : dtim.firstBlock + rounds ≤ dtim.lastBlock) :
    (decide (dtim.firstBlock + rounds = (pageSlicing.saveDtim dtim).blockOffset) ||
        decide (dtim.firstBlock + rounds = (pageSlicing.saveDtim dtim).lastBlockIdx) ||
        (pageSlicing.saveDtim dtim).someAidAt walk.offset) =
      pageSlicing.announces dtim (dtim.firstBlock + rounds) := by
  rw [PageSlicing.announces, blockOffset_saveDtim, lastBlockIdx_saveDtim]
  by_cases first : dtim.firstBlock + rounds = dtim.firstBlock % 4
  · simp only [decide_eq_true first, Bool.true_or]
  · rw [walked.offset_eq inside first]

theorem Walked.step (walked : Walked pageSlicing dtim rounds walk)
    (inside : dtim.firstBlock + rounds ≤ dtim.lastBlock) :
    Walked pageSlicing dtim (rounds + 1)
      ((pageSlicing.saveDtim dtim).walkBlock walk (dtim.firstBlock + rounds)) := by
  have updates := walked.updates inside
  have last := lastBlock_lt dtim
  have offset_le : dtim.bitmapOffset < 8 * dtim.firstBlock + 8 := by
    unfold Dtim.firstBlock
    omega
  constructor
  · exact fun none => absurd none (Nat.succ_ne_zero rounds)
  · intro _ further
    have notLast : dtim.firstBlock + rounds ≠ dtim.lastBlock := by omega
    have first_iff := blockOffset_saveDtim pageSlicing dtim
    have last_iff := lastBlockIdx_saveDtim pageSlicing dtim
    simp only [PageSlicing.walkBlock, decide_eq_true_eq, first_iff, last_iff, notLast, if_false,
      subblocksPerBlock]
    have ctrlOffset : (pageSlicing.saveDtim dtim).timBitmapCtrlOffset = dtim.bitmapOffset := rfl
    split
    · next first =>
        unfold Dtim.readOffset
        rw [if_pos (by omega)]
        omega
    · next first =>
        rw [walked.offset_eq inside first]
        unfold Dtim.readOffset
        split <;> omega
  · intro bit
    simp only [PageSlicing.walkBlock, updates, pageBitmapFirstBlock_saveDtim]
    have earlier := walked.bits bit
    by_cases announced : pageSlicing.announces dtim (dtim.firstBlock + rounds) = true
    · rw [if_pos announced, BitVec.getLsbD_or, Bool.or_eq_true, earlier]
      have single : (1#32 <<< (dtim.firstBlock + rounds - dtim.bitmapBlock)).getLsbD bit = true ↔
          dtim.firstBlock + rounds - dtim.bitmapBlock = bit := by
        rw [BitVec.getLsbD_shiftLeft, BitVec.getLsbD_one]
        simp only [Bool.and_eq_true, Bool.not_eq_true', decide_eq_true_eq, decide_eq_false_iff_not]
        omega
      rw [single]
      constructor
      · rintro (⟨block, reached, below, counted, place⟩ | place)
        · exact ⟨block, reached, by omega, counted, place⟩
        · exact ⟨_, Nat.le_add_right _ _, by omega, announced, place⟩
      · rintro ⟨block, reached, below, counted, place⟩
        rcases Nat.lt_or_ge block (dtim.firstBlock + rounds) with before | here
        · exact .inl ⟨block, reached, before, counted, place⟩
        · obtain rfl : block = dtim.firstBlock + rounds := by omega
          exact .inr place
    · rw [if_neg announced, earlier]
      constructor
      · rintro ⟨block, reached, below, counted, place⟩
        exact ⟨block, reached, by omega, counted, place⟩
      · rintro ⟨block, reached, below, counted, place⟩
        rcases Nat.lt_or_ge block (dtim.firstBlock + rounds) with before | here
        · exact ⟨block, reached, before, counted, place⟩
        · obtain rfl : block = dtim.firstBlock + rounds := by omega
          exact absurd counted announced
  · simp only [PageSlicing.walkBlock, updates]
    rw [List.range'_concat, List.filter_append, List.length_append, ← walked.count, Nat.one_mul]
    by_cases announced : pageSlicing.announces dtim (dtim.firstBlock + rounds) = true
    · rw [List.filter_singleton, announced]
      rfl
    · rw [List.filter_singleton, Bool.eq_false_iff.mpr announced]
      rfl

theorem walked_rounds (inside : dtim.firstBlock + rounds ≤ dtim.lastBlock + 1) :
    Walked pageSlicing dtim rounds
      ((List.range' dtim.firstBlock rounds).foldl (pageSlicing.saveDtim dtim).walkBlock
        ⟨0, 0, 0⟩) := by
  induction rounds with
  | zero => exact walked_zero pageSlicing dtim
  | succ rounds ih =>
    rw [List.range'_concat, List.foldl_append, Nat.one_mul]
    exact (ih (by omega)).step (by omega)

theorem walked_walkBlocks (pageSlicing : PageSlicing) (dtim : Dtim) :
    Walked pageSlicing dtim (dtim.lastBlock + 1 - dtim.firstBlock)
      (pageSlicing.saveDtim dtim).walkBlocks := by
  have ordered := firstBlock_le_lastBlock dtim
  exact walked_rounds (by omega)

/-! ## Where the loop reads the right octets -/

theorem someAidAt_iff (pageSlicing : PageSlicing) (offset : Nat) :
    pageSlicing.someAidAt offset = true ↔
      ∃ index < 8, pageSlicing.timVirtualMap (offset + index) ≠ 0 := by
  simp [PageSlicing.someAidAt, someBit]

theorem timVirtualMap_saveDtim (inside : index < dtim.virtualMap.length)
    (pageSlicing : PageSlicing) :
    (pageSlicing.saveDtim dtim).timVirtualMap index = dtim.octet (dtim.bitmapOffset + index) := by
  rw [Dtim.octet, if_pos (Nat.le_add_right _ _), Nat.add_sub_cancel_left]
  exact if_pos inside

theorem someAidAt_of_aligned (aligned : dtim.bitmapOffset + offset = 8 * block)
    (before : block < dtim.lastBlock) (pageSlicing : PageSlicing) :
    (pageSlicing.saveDtim dtim).someAidAt offset = dtim.blockHasAid block := by
  have inside (index : Nat) (below : index < 8) :
      offset + index < dtim.virtualMap.length := by
    unfold Dtim.lastBlock at before
    omega
  have places (index : Nat) (below : index < 8) :
      (pageSlicing.saveDtim dtim).timVirtualMap (offset + index) =
        dtim.octet (8 * block + index) := by
    rw [timVirtualMap_saveDtim (inside index below), ← Nat.add_assoc, aligned]
  rw [Bool.eq_iff_iff, someAidAt_iff, blockHasAid_iff]
  constructor
  · rintro ⟨index, below, nonzero⟩
    exact ⟨index, below, by rwa [← places index below]⟩
  · rintro ⟨index, below, nonzero⟩
    exact ⟨index, below, by rwa [places index below]⟩

/-- The numbering of the page bitmap is that of the block offset: the map begins
in block zero; or it begins in block four, and the loop, which takes the map for
one that begins with a block, finds traffic where a block has some. -/
def Numbered (pageSlicing : PageSlicing) (dtim : Dtim) : Prop :=
  dtim.firstBlock = 0 ∨
    (dtim.firstBlock = 4 ∧ ∀ block, 4 ≤ block → block < dtim.lastBlock →
      (pageSlicing.saveDtim dtim).someAidAt (8 * (block - 4)) = dtim.blockHasAid block)

theorem announces_of_numbered (numbered : Numbered pageSlicing dtim)
    (reached : dtim.firstBlock ≤ block) (below : block ≤ dtim.lastBlock) :
    pageSlicing.announces dtim block = dtim.blockHasAid block := by
  rw [PageSlicing.announces]
  by_cases last : block = dtim.lastBlock
  · rw [last, blockHasAid_lastBlock, decide_eq_true rfl, Bool.or_true, Bool.true_or]
  have before : block < dtim.lastBlock := Nat.lt_of_le_of_ne below last
  rw [decide_eq_false last, Bool.or_false]
  rcases numbered with zero | ⟨four, reads⟩
  · by_cases first : block = 0
    · have traffic := blockHasAid_firstBlock dtim
      rw [zero] at traffic
      rw [first, zero, traffic]
      rfl
    · have aligned : dtim.bitmapOffset + dtim.readOffset block = 8 * block := by
        rw [Dtim.readOffset, if_pos (by omega)]
        unfold Dtim.firstBlock at zero
        omega
      rw [zero, decide_eq_false first, Bool.false_or,
        someAidAt_of_aligned aligned before pageSlicing]
  · have notFirst : ¬ block = dtim.firstBlock % 4 := by omega
    have offset : dtim.readOffset block = 8 * (block - 4) := by
      rw [Dtim.readOffset, if_neg (by omega), four]
    rw [decide_eq_false notFirst, Bool.false_or, offset, reads block (by omega) before]

theorem bits_iff (pageSlicing : PageSlicing) (dtim : Dtim) :
    (∀ bit, (pageSlicing.saveDtim dtim).walkBlocks.pageBitmap.getLsbD bit = true ↔
        dtim.blockHasAid (dtim.firstBlock % 4 + bit) = true) ↔
      Numbered pageSlicing dtim := by
  have ordered := firstBlock_le_lastBlock dtim
  have bits := (walked_walkBlocks pageSlicing dtim).bits
  have bitmapBlock_eq : dtim.bitmapBlock = dtim.firstBlock / 8 * 8 := rfl
  constructor
  · intro exact_bits
    have announced : pageSlicing.announces dtim dtim.lastBlock = true := by
      rw [PageSlicing.announces, decide_eq_true rfl, Bool.or_true, Bool.true_or]
    have lastBit := (bits (dtim.lastBlock - dtim.bitmapBlock)).mpr
      ⟨dtim.lastBlock, ordered, by omega, announced, rfl⟩
    have lastBlock := blockHasAid_inside ((exact_bits _).mp lastBit)
    have traffic : dtim.blockHasAid
        (dtim.firstBlock % 4 + (dtim.lastBlock - dtim.firstBlock % 4)) = true := by
      rw [Nat.add_sub_cancel' (by omega)]
      exact blockHasAid_lastBlock dtim
    obtain ⟨block, -, below, -, place⟩ := (bits _).mp ((exact_bits _).mpr traffic)
    rcases Nat.eq_zero_or_pos dtim.firstBlock with zero | positive
    · exact .inl zero
    · have four : dtim.firstBlock = 4 := by omega
      refine .inr ⟨four, fun block reached before => ?_⟩
      have zero : dtim.bitmapBlock = 0 ∧ dtim.firstBlock % 4 = 0 := by omega
      have agree := exact_bits block
      rw [bits, zero.1, zero.2, Nat.zero_add] at agree
      have reads : pageSlicing.announces dtim block =
          (pageSlicing.saveDtim dtim).someAidAt (8 * (block - 4)) := by
        rw [PageSlicing.announces, decide_eq_false (by omega), decide_eq_false (by omega),
          Bool.false_or, Bool.false_or, Dtim.readOffset, if_neg (by omega), four]
      rw [← reads, Bool.eq_iff_iff, ← agree]
      constructor
      · intro announced
        exact ⟨block, by omega, by omega, announced, rfl⟩
      · rintro ⟨other, -, -, announced, rfl⟩
        exact announced
  · intro numbered bit
    rw [bits]
    have zero : dtim.bitmapBlock = 0 ∧ dtim.firstBlock % 4 = 0 := by
      rcases numbered with zero | ⟨four, -⟩ <;> omega
    rw [zero.1, zero.2, Nat.zero_add]
    constructor
    · rintro ⟨block, reached, below, announced, rfl⟩
      rw [Nat.sub_zero, ← announces_of_numbered numbered reached (by omega)]
      exact announced
    · intro traffic
      obtain ⟨reached, below⟩ := blockHasAid_inside traffic
      refine ⟨bit, reached, by omega, ?_, rfl⟩
      rw [announces_of_numbered numbered reached below]
      exact traffic

/-! ## Slices -/

theorem noOfBlocks_le (pageSlicing : PageSlicing) (dtim : Dtim) :
    0 < (pageSlicing.saveDtim dtim).walkBlocks.noOfBlocks ∧
      (pageSlicing.saveDtim dtim).walkBlocks.noOfBlocks ≤ 32 := by
  have ordered := firstBlock_le_lastBlock dtim
  have last := lastBlock_lt dtim
  rw [(walked_walkBlocks pageSlicing dtim).count]
  constructor
  · rw [List.length_pos_iff_exists_mem]
    refine ⟨dtim.lastBlock, List.mem_filter.mpr ⟨?_, ?_⟩⟩
    · rw [List.mem_range'_1]
      omega
    · rw [PageSlicing.announces, decide_eq_true rfl, Bool.or_true, Bool.true_or]
  · refine Nat.le_trans (List.length_filter_le _ _) ?_
    rw [List.length_range']
    omega

theorem divide_slices {pageSlicing : PageSlicing} (positive : 0 < pageSlicing.pagePeriod)
    (some_block : 0 < blocks) :
    ∃ left < (pageSlicing.divide blocks).pageSliceCount,
      (pageSlicing.divide blocks).pageSliceLength * (pageSlicing.divide blocks).pageSliceCount +
        left = (pageSlicing.divide blocks).totalNumberOfBlocks := by
  unfold PageSlicing.divide
  split
  · exact ⟨0, some_block, by simp⟩
  · exact ⟨blocks % pageSlicing.pagePeriod, Nat.mod_lt _ positive, Nat.div_add_mod' _ _⟩

theorem divide_count_lt {pageSlicing : PageSlicing} (positive : 0 < pageSlicing.pagePeriod)
    (few : blocks ≤ 32) (notAll : blocks < 32 ∨ pageSlicing.pagePeriod < 32) :
    (pageSlicing.divide blocks).pageSliceCount < 32 := by
  unfold PageSlicing.divide
  split
  · next short =>
      have below := (Nat.div_eq_zero_iff_lt positive).mp short
      simp only
      omega
  · next long =>
      have reached : pageSlicing.pagePeriod ≤ blocks := by
        by_contra beyond
        exact long (Nat.div_eq_of_lt (Nat.not_le.mp beyond))
      simp only
      omega

/-! ## The element -/

/-- What the page slice element of a DTIM beacon is expected to say. -/
structure Described (dtim : Dtim) (after : PageSlicing) (element : PageSliceElement) : Prop where
  blockOffset : element.blockOffset = after.blockOffset
  pageBitmap : element.pageBitmap.length = after.pageBitmapSize ∧ after.pageBitmapSize ≤ 4
  pageSliceCount : element.pageSliceCount = after.pageSliceCount
  bits :
    ∀ bit, after.pageBitmap.getLsbD bit = true ↔
      dtim.blockHasAid (element.blockOffset + bit) = true
  inside : ∀ bit, after.pageBitmap.getLsbD bit = true → bit < 8 * element.pageBitmap.length
  slices : after.pageSliceLength * after.pageSliceCount = after.totalNumberOfBlocks

/-- What it says: the count has to fit, the blocks have to be numbered alike, and
the last slice takes what is left over. -/
structure Announced (pageSlicing : PageSlicing) (dtim : Dtim) (after : PageSlicing)
    (element : PageSliceElement) : Prop where
  blockOffset : element.blockOffset = after.blockOffset
  pageBitmap : element.pageBitmap.length = after.pageBitmapSize ∧ after.pageBitmapSize ≤ 4
  pageSliceCount :
    after.totalNumberOfBlocks < 32 ∨ after.pagePeriod < 32 →
      element.pageSliceCount = after.pageSliceCount
  bits :
    Numbered pageSlicing dtim → ∀ bit, after.pageBitmap.getLsbD bit = true ↔
      dtim.blockHasAid (element.blockOffset + bit) = true
  inside :
    Numbered pageSlicing dtim → ∀ bit, after.pageBitmap.getLsbD bit = true →
      bit < 8 * element.pageBitmap.length
  slices :
    ∃ left < after.pageSliceCount,
      after.pageSliceLength * after.pageSliceCount + left = after.totalNumberOfBlocks

theorem pageBitmapSize_divide (pageSlicing : PageSlicing) (dtim : Dtim) (blocks : Nat) :
    ((pageSlicing.saveDtim dtim).divide blocks).pageBitmapSize =
      (dtim.lastBlock - dtim.firstBlock % 4) / 8 + 1 := by
  unfold PageSlicing.divide
  split <;>
    rw [← blockOffset_saveDtim pageSlicing dtim] <;> rfl

theorem blockOffset_divide (pageSlicing : PageSlicing) (blocks : Nat) :
    (pageSlicing.divide blocks).blockOffset = pageSlicing.blockOffset := by
  unfold PageSlicing.divide
  split <;> rfl

theorem pagePeriod_divide (pageSlicing : PageSlicing) (blocks : Nat) :
    (pageSlicing.divide blocks).pagePeriod = pageSlicing.pagePeriod := by
  unfold PageSlicing.divide
  split <;> rfl

theorem totalNumberOfBlocks_divide (pageSlicing : PageSlicing) (blocks : Nat) :
    (pageSlicing.divide blocks).totalNumberOfBlocks = blocks := by
  unfold PageSlicing.divide
  split <;> rfl

/-- Traffic for the first octets of blocks seven and eight. -/
def twoBlocks : Dtim where
  bitmapOffset := 56
  virtualMap := [1, 0, 0, 0, 0, 0, 0, 0, 1]
  even := by decide
  fits := by decide
  first := by decide
  last := by decide

/-- Traffic for the first octets of blocks zero, one and two. -/
def threeBlocks : Dtim where
  bitmapOffset := 0
  virtualMap := [1, 0, 0, 0, 0, 0, 0, 0, 1, 0, 0, 0, 0, 0, 0, 0, 1]
  even := by decide
  fits := by decide
  first := by decide
  last := by decide

end PageSlicing
end Morse
