import Mathlib.Data.Nat.Basic
import Mathlib.Tactic.Common
import Mathlib.Tactic.IntervalCases

/-!
# Batches of blocks on the SPI bus

The driver chooses how many blocks a transaction has from the delay that the chip needs between
two of them.  A transaction is built in a buffer, and consists of the command, the room for its
response, the blocks with their tokens and checksums, and the delays.
-/

namespace Morse
namespace Spi

/-- What `struct morse_spi` holds about batches. -/
structure MorseSpi where
  interBlockDelayBytes : Nat
  maxBlockCount : Nat
  deriving DecidableEq, Repr

/-- `MMC_SPI_BLOCKSIZE` -/
def blocksize : Nat := 512

/-- `MM610X_BUF_SIZE` -/
def bufSize : Nat := 8 * 1024

/-- `SPI_MAX_TRANSACTION_SIZE` -/
def maxTransactionSize : Nat := 8192

/-- `XTAL_TRANSFER_DELAY_BYTES` -/
def xtalTransferDelayBytes : Nat := 2 * 1024

/-- `SPI_CLK_PERIOD_NANO_S` -/
def clkPeriodNanoS (clock : Nat) : Nat := 1000000000 / clock

/-- The blocks of a transaction, a `u8`. -/
def maxBlocks (delayBytes : Nat) : Nat := maxTransactionSize / (blocksize + delayBytes) % 2 ^ 8

/-- The values that `morse_spi_probe` starts with. -/
def morseSpiProbe : MorseSpi := ⟨250, maxBlocks 250⟩

/-- `morse_spi_config_burst_mode`, with what `enable_sdio_burst_mode` of the chip returns if there
is one.  There is no result where the processor traps on a division by zero. -/
def morseSpiConfigBurstMode
    (clock : Nat)
    (enableSdioBurstMode : Option Int)
    (spi : MorseSpi) : Option MorseSpi :=
  match enableSdioBurstMode with
  | none => some spi
  | some delay =>
    if 0 < delay then
      let divisor := clkPeriodNanoS clock * 8 % 2 ^ 32
      if divisor = 0 then none
      else
        let delayBytes := delay.toNat / divisor % 2 ^ 16
        some ⟨delayBytes, maxBlocks delayBytes⟩
    else some spi

/-- The octets that `morse_spi_cmd53_read` allows for the data, before it truncates them. -/
def readDataSize (rk3288 : Bool) (spi : MorseSpi) (count : Nat) (block : Bool) : Nat :=
  let delay := spi.interBlockDelayBytes
  if block then
    if rk3288 then count * (blocksize + 2 * delay + 2) % 2 ^ 32
    else count * (blocksize + delay + 2) % 2 ^ 32
  else if rk3288 then count + 4 + 4 + delay + 100
  else count + 4 + 4 + delay

/-- The length of the transaction of `morse_spi_cmd53_read`, behind the seven octets of the command
and the four of its response. -/
def readTransaction (rk3288 : Bool) (spi : MorseSpi) (count : Nat) (block : Bool) : Nat :=
  7 + 4 + min (readDataSize rk3288 spi count block) (bufSize - (7 + 4))

/-- The loop of `morse_spi_cmd53_write` over its blocks: where the data end in the buffer, or
nothing for `-ENOMEM`. -/
def writeBlocks (delayBytes dataSize : Nat) : Nat → Nat → Option Nat
  | 0, cp => some cp
  | blocks + 1, cp =>
    let cp := cp + 1
    if cp + dataSize > bufSize then none
    else writeBlocks delayBytes dataSize blocks (cp + dataSize + 2 + delayBytes)

/-- The length of the transaction of `morse_spi_cmd53_write`, behind the command, its response and
the four octets until the chip is ready. -/
def writeTransaction (xtal : Bool) (spi : MorseSpi) (count : Nat) (block : Bool) : Option Nat :=
  let dataSize := if block then blocksize else count
  (writeBlocks spi.interBlockDelayBytes dataSize (if block then count else 1) (7 + 4 + 4)).map
    fun cp => if xtal then cp + xtalTransferDelayBytes else cp

/-- `morse_spi_xfer` takes a transaction of this length. -/
def Transferable (length : Nat) : Prop := length ≤ maxTransactionSize

/-- Transactions of some blocks or of some octets are not truncated, not rejected for their size,
and inside the buffer. -/
structure Fits (rk3288 xtal : Bool) (spi : MorseSpi) (count : Nat) (block : Bool) : Prop where
  read : readTransaction rk3288 spi count block = 7 + 4 + readDataSize rk3288 spi count block
  readLength : Transferable (readTransaction rk3288 spi count block)
  write : ∃ length, writeTransaction xtal spi count block = some length ∧
    Transferable length ∧ length ≤ bufSize

/-- Every batch that the driver may build fits. -/
structure BatchesFit (rk3288 xtal : Bool) (spi : MorseSpi) : Prop where
  positive : 1 ≤ spi.maxBlockCount
  blocks : ∀ count, 1 ≤ count → count ≤ spi.maxBlockCount → Fits rk3288 xtal spi count true
  bytes : ∀ count, count < blocksize → Fits rk3288 xtal spi count false

/-- The batches fit for the values at the start, and for those that are chosen for the delay of the
chip. -/
def ChosenBatchesFit (rk3288 xtal : Bool) (clock : Nat) (delay : Int) : Prop :=
  BatchesFit rk3288 xtal morseSpiProbe ∧
    ∃ spi, morseSpiConfigBurstMode clock (some delay) morseSpiProbe = some spi ∧
      BatchesFit rk3288 xtal spi

/-- Some number of blocks fits with what a write adds to each of them and the delays, and one more
would not fit without it. -/
def LeavesRoom (octets : Nat) : Prop :=
  ∃ blocks, 1 ≤ blocks ∧ 15 + blocks * (515 + octets) ≤ 8192 ∧ 8192 < (blocks + 1) * (512 + octets)

/-! ## Transactions -/

theorem writeBlocks_eq (ended : writeBlocks delayBytes dataSize blocks cp = some length) :
    length = cp + blocks * (dataSize + 3 + delayBytes) := by
  induction blocks generalizing cp with
  | zero =>
    cases ended
    omega
  | succ blocks ih =>
    simp only [writeBlocks] at ended
    split at ended
    · cases ended
    · rw [ih ended, Nat.succ_mul]
      omega

theorem writeBlocks_of_le (room : cp + blocks * (dataSize + 3 + delayBytes) ≤ bufSize) :
    writeBlocks delayBytes dataSize blocks cp =
      some (cp + blocks * (dataSize + 3 + delayBytes)) := by
  induction blocks generalizing cp with
  | zero => simp [writeBlocks]
  | succ blocks ih =>
    rw [Nat.succ_mul] at room ⊢
    rw [writeBlocks, if_neg (by omega), ih (by omega)]
    congr 1
    omega

theorem writeTransaction_fits_iff (xtal : Bool) (spi : MorseSpi) (count : Nat) (block : Bool) :
    (∃ length, writeTransaction xtal spi count block = some length ∧
      Transferable length ∧ length ≤ bufSize) ↔
      15 + (if block then count else 1) *
        ((if block then blocksize else count) + 3 + spi.interBlockDelayBytes) +
        (if xtal then 2048 else 0) ≤ 8192 := by
  constructor
  · rintro ⟨length, built, transferable, inside⟩
    obtain ⟨cp, ended, rfl⟩ := Option.map_eq_some_iff.mp built
    have := writeBlocks_eq ended
    simp only [bufSize, xtalTransferDelayBytes] at inside
    split at inside <;> simp_all
  · intro room
    refine ⟨_, congrArg (Option.map _) (writeBlocks_of_le ?_), ?_⟩
    · rw [bufSize]
      omega
    · simp only [Transferable, maxTransactionSize, bufSize, xtalTransferDelayBytes]
      cases xtal <;> simp_all

theorem fits_blocks_iff (spi : MorseSpi) (count : Nat) :
    Fits false false spi count true ↔ 15 + count * (515 + spi.interBlockDelayBytes) ≤ 8192 := by
  have write := writeTransaction_fits_iff false spi count true
  have expand : ∀ more, count * (more + spi.interBlockDelayBytes) =
      count * more + count * spi.interBlockDelayBytes := fun more => Nat.mul_add ..
  have sizes : 512 + spi.interBlockDelayBytes + 2 = 514 + spi.interBlockDelayBytes := by omega
  simp only [if_true, blocksize, Nat.reduceAdd, Bool.false_eq_true, if_false, Nat.add_zero] at write
  refine ⟨fun fits => write.mp fits.write, fun room => ?_⟩
  have read : readDataSize false spi count true = count * (514 + spi.interBlockDelayBytes) := by
    simp only [readDataSize, if_true, Bool.false_eq_true, if_false, blocksize, sizes]
    rw [expand] at room ⊢
    omega
  rw [expand] at room
  refine ⟨?_, ?_, write.mpr (by rw [expand]; omega)⟩ <;>
    simp only [readTransaction, read, Transferable, bufSize, maxTransactionSize, expand] <;> omega

theorem fits_bytes (room : 15 + (515 + spi.interBlockDelayBytes) ≤ 8192)
    (count_lt : count < blocksize) :
    Fits false false spi count false := by
  rw [blocksize] at count_lt
  refine ⟨?_, ?_, (writeTransaction_fits_iff false spi count false).mpr (by simp; omega)⟩ <;>
    simp [readTransaction, readDataSize, Transferable, bufSize, maxTransactionSize] <;> omega

theorem batchesFit_iff (spi : MorseSpi) :
    BatchesFit false false spi ↔ 1 ≤ spi.maxBlockCount ∧
      15 + spi.maxBlockCount * (515 + spi.interBlockDelayBytes) ≤ 8192 := by
  constructor
  · intro fit
    exact ⟨fit.positive, (fits_blocks_iff ..).mp (fit.blocks _ fit.positive le_rfl)⟩
  · rintro ⟨positive, room⟩
    have smaller : ∀ count, count ≤ spi.maxBlockCount →
        15 + count * (515 + spi.interBlockDelayBytes) ≤ 8192 := fun count count_le =>
      (Nat.add_le_add_left (Nat.mul_le_mul_right _ count_le) _).trans room
    refine ⟨positive, fun count _ count_le => (fits_blocks_iff ..).mpr (smaller count count_le), ?_⟩
    intro count count_lt
    have one := smaller 1 positive
    exact fits_bytes (by omega) count_lt

theorem not_batchesFit_probe (longer : rk3288 = true ∨ xtal = true) :
    ¬ BatchesFit rk3288 xtal morseSpiProbe := by
  intro fit
  have fits := fit.blocks 10 (by decide) (by decide)
  rcases longer with rfl | rfl
  · exact absurd fits.read (by decide)
  · exact absurd ((writeTransaction_fits_iff true morseSpiProbe 10 true).mp fits.write) (by decide)

/-! ## The choice -/

theorem batchesFit_maxBlocks_iff (octets : Nat) :
    BatchesFit false false ⟨octets, maxBlocks octets⟩ ↔ LeavesRoom octets := by
  have small : maxBlocks octets = 8192 / (512 + octets) := by
    refine Nat.mod_eq_of_lt ((Nat.div_le_div_left (Nat.le_add_right 512 octets) ?_).trans_lt ?_) <;>
      decide
  rw [batchesFit_iff]
  simp only [small]
  constructor
  · rintro ⟨positive, room⟩
    refine ⟨_, positive, room, ?_⟩
    rw [Nat.mul_comm]
    exact Nat.lt_mul_div_succ _ (by omega)
  · rintro ⟨blocks, positive, room, last⟩
    have chosen : 8192 / (512 + octets) = blocks := by
      refine Nat.div_eq_of_lt_le ?_ last
      have := Nat.mul_le_mul_left blocks (show 512 + octets ≤ 515 + octets by omega)
      omega
    rw [chosen]
    exact ⟨positive, room⟩

theorem divisor_eq_zero_iff (clock : Nat) :
    clkPeriodNanoS clock * 8 % 2 ^ 32 = 0 ↔ ¬ (1 ≤ clock ∧ clock ≤ 1000000000) := by
  rw [clkPeriodNanoS]
  rcases Nat.lt_trichotomy clock 1 with zero | one | more
  · obtain rfl : clock = 0 := by omega
    decide
  · subst one
    decide
  · have half : 1000000000 / clock ≤ 1000000000 / 2 := Nat.div_le_div_left more (by decide)
    have positive : 0 < 1000000000 / clock ↔ clock ≤ 1000000000 := by
      rw [Nat.div_pos_iff]
      omega
    omega

/-- The batches fit exactly where transactions have their usual length, the clock is not too fast,
and the delay leaves room. -/
theorem chosenBatchesFit_iff (rk3288 xtal : Bool) (clock : Nat) (delay : Int)
    (positive : 0 < delay) :
    ChosenBatchesFit rk3288 xtal clock delay ↔
      rk3288 = false ∧ xtal = false ∧ 1 ≤ clock ∧ clock ≤ 1000000000 ∧
        LeavesRoom (delay.toNat / (1000000000 / clock * 8 % 2 ^ 32) % 2 ^ 16) := by
  have divisor := divisor_eq_zero_iff clock
  constructor
  · rintro ⟨probe, spi, chosen, fit⟩
    have usual : ¬ (rk3288 = true ∨ xtal = true) := fun longer => not_batchesFit_probe longer probe
    obtain ⟨rfl, rfl⟩ : rk3288 = false ∧ xtal = false := by simpa using usual
    simp only [morseSpiConfigBurstMode, if_pos positive] at chosen
    split at chosen
    · cases chosen
    case isFalse nonzero =>
      cases chosen
      rw [divisor, not_not] at nonzero
      exact ⟨rfl, rfl, nonzero.1, nonzero.2, (batchesFit_maxBlocks_iff _).mp fit⟩
  · rintro ⟨rfl, rfl, first, last, room⟩
    have nonzero : ¬ clkPeriodNanoS clock * 8 % 2 ^ 32 = 0 := by
      rw [divisor, not_not]
      exact ⟨first, last⟩
    refine ⟨(batchesFit_maxBlocks_iff 250).mpr ⟨10, by decide⟩, _, ?_,
      (batchesFit_maxBlocks_iff _).mpr room⟩
    simp only [morseSpiConfigBurstMode, if_pos positive, if_neg nonzero]
    rfl

theorem chosenBatchesFit_burst16 :
    (0 : Int) < 4800 ∧ ChosenBatchesFit false false 50000000 4800 :=
  ⟨by decide, (chosenBatchesFit_iff false false 50000000 4800 (by decide)).mpr
    ⟨rfl, rfl, by decide, by decide, 15, by decide⟩⟩

/-- At 1 MHz that delay counts as none: sixteen blocks are chosen, and a write of them is longer
than
a transaction may be. -/
theorem not_chosenBatchesFit_slow : ¬ ChosenBatchesFit false false 1000000 4800 := by
  rintro ⟨_, spi, chosen, fit⟩
  obtain rfl : (⟨0, 16⟩ : MorseSpi) = spi := Option.some.inj chosen
  exact absurd ((fits_blocks_iff _ 16).mp (fit.blocks 16 (by decide) (by decide))) (by decide)

end Spi
end Morse
