import Mathlib.Data.List.Basic
import Mathlib.Tactic.Ring

/-!
# Checksums that add up words

A checksum that combines the words of a memory with exclusive or, each word
made of four octets with the least significant first.  It is linear in the
octets, so that an octet that is changed within its reach, and not elsewhere,
shows.
-/

namespace Lib

/-- The word at an index. -/
def wordAt (memory : Nat → BitVec 8) (index : Nat) : BitVec 32 :=
  memory (4 * index + 3) ++ memory (4 * index + 2) ++ memory (4 * index + 1) ++ memory (4 * index)

/-- The words below an index, combined. -/
def xorWords (memory : Nat → BitVec 8) : Nat → BitVec 32
  | 0 => 0#32
  | count + 1 => xorWords memory count ^^^ wordAt memory count

/-- The three lower octets of a word. -/
def lowOctets (word : BitVec 32) : BitVec 32 := word &&& 0x00FFFFFF#32

/-- The memory below an index, with zeros behind it. -/
def truncate (memory : Nat → BitVec 8) (count : Nat) (index : Nat) : BitVec 8 :=
  if index < count then memory index else 0#8

/-- A memory of zeros but for one octet. -/
def single (target : Nat) (value : BitVec 8) (index : Nat) : BitVec 8 :=
  if index = target then value else 0#8

/-- Two memories combined. -/
def xorMemory (memory other : Nat → BitVec 8) (index : Nat) : BitVec 8 :=
  memory index ^^^ other index

theorem getLsbD_wordAt (inside : place < 4) (below : bit < 8) (memory : Nat → BitVec 8)
    (index : Nat) :
    (wordAt memory index).getLsbD (8 * place + bit) = (memory (4 * index + place)).getLsbD bit := by
  have places : place = 0 ∨ place = 1 ∨ place = 2 ∨ place = 3 := by omega
  simp only [wordAt, BitVec.getLsbD_append]
  rcases places with rfl | rfl | rfl | rfl
  · rw [if_pos (by omega), Nat.zero_add, Nat.add_zero]
  · rw [if_neg (by omega), if_pos (by omega), Nat.add_sub_cancel_left]
  · rw [if_neg (by omega), if_neg (by omega), if_pos (by omega),
      show 8 * 2 + bit - 8 - 8 = bit by omega]
  · rw [if_neg (by omega), if_neg (by omega), if_neg (by omega),
      show 8 * 3 + bit - 8 - 8 - 8 = bit by omega]

/-! ## Linearity -/

theorem wordAt_xorMemory (memory other : Nat → BitVec 8) (index : Nat) :
    wordAt (xorMemory memory other) index = wordAt memory index ^^^ wordAt other index := by
  apply BitVec.eq_of_getLsbD_eq
  intro bit _
  simp only [wordAt, xorMemory, BitVec.getLsbD_xor, BitVec.getLsbD_append]
  split_ifs <;> rfl

theorem xorWords_xorMemory (memory other : Nat → BitVec 8) (count : Nat) :
    xorWords (xorMemory memory other) count = xorWords memory count ^^^ xorWords other count := by
  induction count with
  | zero => exact BitVec.xor_self.symm
  | succ count ih =>
    rw [xorWords, xorWords, xorWords, ih, wordAt_xorMemory]
    ac_rfl

theorem getLsbD_lowOctets (word : BitVec 32) (bit : Nat) :
    (lowOctets word).getLsbD bit = (decide (bit < 24) && word.getLsbD bit) := by
  have mask : 0x00FFFFFF#32 = (BitVec.allOnes 24).setWidth 32 := rfl
  rw [lowOctets, BitVec.getLsbD_and, mask, BitVec.getLsbD_setWidth, BitVec.getLsbD_allOnes]
  rcases Nat.lt_or_ge bit 32 with below | beyond
  · rw [decide_eq_true below, Bool.true_and, Bool.and_comm]
  · rw [BitVec.getLsbD_of_ge _ _ beyond, Bool.false_and, Bool.and_false]

theorem lowOctets_xor (word other : BitVec 32) :
    lowOctets (word ^^^ other) = lowOctets word ^^^ lowOctets other := by
  apply BitVec.eq_of_getLsbD_eq
  intro bit _
  rw [BitVec.getLsbD_xor, getLsbD_lowOctets, getLsbD_lowOctets, getLsbD_lowOctets,
    BitVec.getLsbD_xor, Bool.and_xor_distrib_left]

theorem truncate_xorMemory (memory other : Nat → BitVec 8) (count : Nat) :
    truncate (xorMemory memory other) count =
      xorMemory (truncate memory count) (truncate other count) := by
  funext index
  simp only [truncate, xorMemory]
  split
  · rfl
  · exact (BitVec.xor_self).symm

theorem truncate_truncate {inner : Nat} (within : outer ≤ inner) (memory : Nat → BitVec 8) :
    truncate (truncate memory inner) outer = truncate memory outer := by
  funext index
  unfold truncate
  split_ifs with below _
  · rfl
  · omega
  · rfl

theorem xorWords_zeros (count : Nat) : xorWords (fun _ => 0#8) count = 0#32 := by
  induction count with
  | zero => rfl
  | succ count ih =>
    rw [xorWords, ih, wordAt]
    rfl

/-! ## What the lower octets depend on -/

theorem lowOctets_wordAt_congr (same : ∀ place < 4 * index + 3, memory place = other place) :
    lowOctets (wordAt memory index) = lowOctets (wordAt other index) := by
  have first := same (4 * index) (by omega)
  have second := same (4 * index + 1) (by omega)
  have third := same (4 * index + 2) (by omega)
  apply BitVec.eq_of_getLsbD_eq
  intro bit _
  rw [getLsbD_lowOctets, getLsbD_lowOctets]
  rcases Nat.lt_or_ge bit 24 with low | high
  · simp only [wordAt, first, second, third, BitVec.getLsbD_append]
    split_ifs <;> first | rfl | omega
  · rw [decide_eq_false (Nat.not_lt.mpr high), Bool.false_and, Bool.false_and]

theorem wordAt_congr (same : ∀ place < 4 * (index + 1), memory place = other place) :
    wordAt memory index = wordAt other index := by
  rw [wordAt, wordAt, same _ (by omega), same _ (by omega), same _ (by omega), same _ (by omega)]

theorem xorWords_congr {count : Nat} (same : ∀ place < 4 * count, memory place = other place) :
    xorWords memory count = xorWords other count := by
  induction count with
  | zero => rfl
  | succ count ih =>
    rw [xorWords, xorWords, wordAt_congr same,
      ih fun place below => same place (by omega)]

theorem lowOctets_xorWords_congr
    (same : ∀ place, place + 1 < 4 * count → memory place = other place) :
    lowOctets (xorWords memory count) = lowOctets (xorWords other count) := by
  cases count with
  | zero => rfl
  | succ count =>
    rw [xorWords, xorWords, lowOctets_xor, lowOctets_xor,
      lowOctets_wordAt_congr fun place below => same place (by omega),
      @xorWords_congr memory other count fun place below => same place (by omega)]

/-! ## One octet -/

theorem wordAt_single_of_ne (other : target / 4 ≠ index) (value : BitVec 8) :
    wordAt (single target value) index = 0#32 := by
  have elsewhere (place : Nat) (inside : place / 4 = index) : single target value place = 0#8 :=
    if_neg fun (same : place = target) => other (same ▸ inside)
  rw [wordAt, elsewhere _ (by omega), elsewhere _ (by omega), elsewhere _ (by omega),
    elsewhere _ (by omega)]
  rfl

theorem xorWords_single_of_le (beyond : 4 * count ≤ target) (value : BitVec 8) :
    xorWords (single target value) count = 0#32 := by
  induction count with
  | zero => rfl
  | succ count ih =>
    rw [xorWords, ih (by omega), wordAt_single_of_ne (by omega)]
    rfl

theorem xorWords_single_of_lt (within : target < 4 * count) (value : BitVec 8) :
    xorWords (single target value) count = wordAt (single target value) (target / 4) := by
  induction count with
  | zero => omega
  | succ count ih =>
    rw [xorWords]
    rcases Nat.lt_or_ge target (4 * count) with earlier | last
    · have other : target / 4 ≠ count := by omega
      rw [ih earlier, wordAt_single_of_ne other, BitVec.xor_zero]
    · have same : target / 4 = count := by omega
      rw [xorWords_single_of_le last, BitVec.zero_xor, same]

theorem lowOctets_wordAt_single_ne_zero (low : target % 4 ≠ 3) (changed : value ≠ 0#8) :
    lowOctets (wordAt (single target value) (target / 4)) ≠ 0#32 := by
  intro nothing
  apply changed
  apply BitVec.eq_of_getLsbD_eq
  intro bit below
  have shown := congrArg (fun word => BitVec.getLsbD word (8 * (target % 4) + bit)) nothing
  have inside : target % 4 < 4 := Nat.mod_lt _ (Nat.succ_pos 3)
  have reached : 8 * (target % 4) + bit < 24 := by omega
  simp only [getLsbD_lowOctets, decide_eq_true reached, Bool.true_and,
    getLsbD_wordAt inside below] at shown
  rw [single, if_pos (Nat.div_add_mod target 4)] at shown
  rw [BitVec.getLsbD_zero] at shown ⊢
  exact shown

theorem lowOctets_xorWords_single (target : Nat) (value : BitVec 8) (count : Nat) :
    lowOctets (xorWords (single target value) count) =
      if target < 4 * count then lowOctets (wordAt (single target value) (target / 4))
      else 0#32 := by
  split
  · next within => rw [xorWords_single_of_lt within]
  · next beyond =>
      rw [xorWords_single_of_le (Nat.not_lt.mp beyond)]
      rfl

theorem truncate_single (target : Nat) (value : BitVec 8) (count : Nat) :
    truncate (single target value) count =
      if target < count then single target value else fun _ => 0#8 := by
  split
  · next within =>
      funext index
      unfold truncate single
      split_ifs with below same
      · rfl
      · rfl
      · next same => exact absurd (same ▸ within) below
      · rfl
  · next beyond =>
      funext index
      unfold truncate single
      split_ifs with below same
      · exact absurd (same ▸ below) beyond
      · rfl
      · rfl

end Lib
