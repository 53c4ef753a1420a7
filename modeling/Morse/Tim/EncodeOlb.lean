import Morse.Tim.Encode

/-!
# The offset-length bitmap encoder

The OLB encoder consumes the whole virtual map in one round and emits at most
one block.  In inverse mode it trims empty subblocks, whole blocks of them at
the front and any number at the tail; an empty subblock is one all of whose
AIDs are set.
-/

namespace Morse
namespace Tim

open Lib

/-! ## The range of subblocks -/

theorem foldl_stopIdx (small : octetOffset + i < 255) (octet : Octet) {positions : List Nat}
    (inside : ∀ j ∈ positions, j < 8) (stopIdx : Nat) :
    positions.foldl
        (fun stopIdx j =>
          if octet.getLsbD j then
            let posM := (((octetOffset * 8 + i * s1gTimNumAidPerSubblock + j) % 65536) >>> 3) % 256
            if stopIdx ≤ posM then (posM + 1) % 256 else stopIdx
          else stopIdx) stopIdx =
      if ∃ j ∈ positions, octet.getLsbD j = true then max stopIdx (octetOffset + i + 1)
      else stopIdx := by
  induction positions generalizing stopIdx with
  | nil => simp
  | cons j positions inductionHypothesis =>
    have below := inside j List.mem_cons_self
    have rest (stopIdx : Nat) := inductionHypothesis
      (fun other listed => inside other (List.mem_cons_of_mem j listed)) stopIdx
    have posM : (((octetOffset * 8 + i * s1gTimNumAidPerSubblock + j) % 65536) >>> 3) % 256 =
        octetOffset + i := by
      unfold s1gTimNumAidPerSubblock
      omega
    have next : (octetOffset + i + 1) % 256 = octetOffset + i + 1 :=
      Nat.mod_eq_of_lt (by omega)
    rw [List.foldl_cons, rest]
    simp only [posM, next]
    cases set : octet.getLsbD j with
    | false => simp [set]
    | true =>
      have raised : (if stopIdx ≤ octetOffset + i then octetOffset + i + 1 else stopIdx) =
          max stopIdx (octetOffset + i + 1) := by
        split <;> omega
      simp only [if_true, raised, List.mem_cons, exists_eq_or_imp, set, true_or, max_assoc,
        max_self, ite_self]

theorem olbStopIdx_spec (unconsumed : Unconsumed octetAt (octetOffset + i) octets) (stopIdx : Nat) :
    stopIdx ≤ olbStopIdx (octetOffset * 8) i octets stopIdx ∧
      (∀ n, octetOffset + i ≤ n → octetAt n ≠ 0 →
        n < olbStopIdx (octetOffset * 8) i octets stopIdx) ∧
      olbStopIdx (octetOffset * 8) i octets stopIdx ≤
        max stopIdx (octetOffset + i + octets.length) := by
  induction octets generalizing i stopIdx with
  | nil =>
    refine ⟨le_rfl, ?_, Nat.le_max_left _ _⟩
    intro n above nonzero
    exact absurd (unconsumed.ended n (by simpa using above)) nonzero
  | cons octet octets inductionHypothesis =>
    have within := unconsumed.within
    rw [List.length_cons] at within
    obtain ⟨head, tail⟩ := unconsumed.cons
    have walked := foldl_stopIdx (show octetOffset + i < 255 by omega) octet
      (fun j (listed : j ∈ List.range 8) => List.mem_range.mp listed) stopIdx
    obtain ⟨raised, past, bound⟩ := @inductionHypothesis (i + 1) tail
      (if ∃ j ∈ List.range 8, octet.getLsbD j = true then max stopIdx (octetOffset + i + 1)
        else stopIdx)
    rw [olbStopIdx, walked, List.length_cons]
    refine ⟨le_trans (by split <;> omega) raised, ?_, le_trans bound (by split <;> omega)⟩
    intro n above nonzero
    by_cases first : n = octetOffset + i
    · have some : ∃ j ∈ List.range 8, octet.getLsbD j = true := by
        rw [first, ← head] at nonzero
        obtain ⟨bit, inside, set⟩ := exists_getLsbD_of_ne_zero nonzero
        exact ⟨bit, List.mem_range.mpr inside, set⟩
      rw [if_pos some] at raised ⊢
      omega
    · exact past n (by omega) nonzero

theorem countEmptyFront_spec (subblocks : Nat → Octet) (count startIdx : Nat) :
    countEmptyFront subblocks count startIdx ≤ count ∧
      (∀ distance, distance < countEmptyFront subblocks count startIdx →
        subblocks (startIdx + distance) = 0) ∧
      (countEmptyFront subblocks count startIdx < count →
        subblocks (startIdx + countEmptyFront subblocks count startIdx) ≠ 0) := by
  induction count generalizing startIdx with
  | zero => simp [countEmptyFront]
  | succ count inductionHypothesis =>
    obtain ⟨bound, empty, full⟩ := inductionHypothesis (startIdx + 1)
    by_cases first : subblocks startIdx = 0
    · rw [countEmptyFront, if_neg (not_not_intro first)]
      refine ⟨by omega, ?_, ?_⟩
      · intro distance below
        cases distance with
        | zero => exact first
        | succ distance =>
          rw [Nat.add_comm distance, ← Nat.add_assoc]
          exact empty distance (by omega)
      · intro below
        rw [Nat.add_comm (countEmptyFront _ _ _), ← Nat.add_assoc]
        exact full (by omega)
    · rw [countEmptyFront, if_pos first]
      exact ⟨by omega, fun _ below => absurd below (Nat.not_lt_zero _), fun _ => first⟩

theorem trimTail_spec (subblocks : Nat → Octet) {startIdx stopIdx : Nat}
    (ordered : startIdx ≤ stopIdx) :
    startIdx ≤ trimTail subblocks startIdx stopIdx ∧
      trimTail subblocks startIdx stopIdx ≤ stopIdx ∧
      (∀ n, trimTail subblocks startIdx stopIdx ≤ n → n < stopIdx → subblocks n = 0) ∧
      (startIdx < trimTail subblocks startIdx stopIdx →
        subblocks (trimTail subblocks startIdx stopIdx - 1) ≠ 0) := by
  induction stopIdx with
  | zero =>
    refine ⟨ordered, le_rfl, fun n _ below => absurd below (Nat.not_lt_zero n), ?_⟩
    intro before
    exact absurd before (Nat.not_lt_zero startIdx)
  | succ stopIdx inductionHypothesis =>
    by_cases trimmed : startIdx < stopIdx + 1 ∧ subblocks stopIdx = 0
    · obtain ⟨above, below, empty, last⟩ := inductionHypothesis (by omega)
      rw [trimTail, if_pos trimmed]
      refine ⟨above, by omega, ?_, last⟩
      intro n past inside
      by_cases here : n = stopIdx
      · rw [here, trimmed.2]
      · exact empty n past (by omega)
    · rw [trimTail, if_neg trimmed]
      refine ⟨ordered, le_rfl, by omega, ?_⟩
      intro before empty
      exact trimmed ⟨before, empty⟩

/-! ## The round -/

private theorem placed_mod_256 : Placed (fun aid => (aid >>> 3) % 256) (· % 256) := by
  intro octetNumber bit _ inside
  change ((8 * octetNumber + bit) >>> 3) % 256 = octetNumber % 256
  omega

/-- The subblocks that the OLB encoder fills. -/
def olbSubblocks (inverseBitmap : Bool) (octetOffset : Nat) (octets : List Octet) :
    Nat → Octet :=
  markOctets inverseBitmap (fun aid => (aid >>> 3) % 256) (octetOffset * 8) 0 octets
    (fun _ => emptySubblock inverseBitmap)

theorem olbSubblocks_eq (remaining : Remaining octetAt octetOffset octets)
    (before : ∀ n, n < octetOffset → octetAt n = 0) (inverseBitmap : Bool)
    (small : octetNumber < 256) :
    olbSubblocks inverseBitmap octetOffset octets octetNumber =
      decodeSubblock inverseBitmap (octetAt octetNumber) := by
  have within := remaining.within
  have result := markOctets_eq placed_mod_256 remaining.toUnconsumed inverseBitmap
    octetNumber (256 - octetOffset)
    (by omega) (by omega) (by omega)
  rw [List.take_of_length_le (by omega), Nat.mod_eq_of_lt small] at result
  rw [olbSubblocks, result, octetsFrom]
  split
  · rfl
  · rw [before octetNumber (by omega)]

theorem olbRange_plain (remaining : Remaining octetAt octetOffset octets) (nonempty : octets ≠ [])
    (maxAid : Nat) (subblocks : Nat → Octet) :
    ∃ stopIdx, olbRange false maxAid octetOffset octets subblocks =
        (octetOffset / 8, 8 * (octetOffset / 8), stopIdx) ∧
      octetOffset < stopIdx ∧ stopIdx ≤ 255 ∧
      ∀ n, octetOffset ≤ n → octetAt n ≠ 0 → n < stopIdx := by
  have within := remaining.within
  obtain ⟨_, past, bound⟩ := olbStopIdx_spec (i := 0) remaining.toUnconsumed 0
  refine ⟨olbStopIdx (octetOffset * 8) 0 octets 0, ?_, ?_, by omega, past⟩
  · simp only [olbRange, Bool.false_eq_true, if_false,
      aidToBlockOffset_eq (show octetOffset < 256 by omega), s1gTimNumSubblocksPerBlock,
      Nat.mul_comm]
  · exact past octetOffset le_rfl (remaining.trimmed nonempty)

/-- The range of subblocks written in inverse mode: only octets all of whose
AIDs are set are trimmed. -/
structure InverseRange (octetAt : Nat → Octet) (maxAid octetOffset startIdx stopIdx : Nat) :
    Prop where
  aligned : startIdx % 8 = 0
  from_block : 8 * (octetOffset / 8) ≤ startIdx
  ordered : startIdx ≤ stopIdx
  to_max : stopIdx ≤ maxAid / 8 + 1
  front : ∀ n, 8 * (octetOffset / 8) ≤ n → n < startIdx → octetAt n = 0xFF
  front_stops : (∀ m, m < 8 → octetAt (startIdx + m) = 0xFF) →
    maxAid / 8 + 1 < startIdx + 8
  tail : ∀ n, stopIdx ≤ n → n ≤ maxAid / 8 → octetAt n = 0xFF
  tail_stops : startIdx < stopIdx → octetAt (stopIdx - 1) ≠ 0xFF

theorem decode_inverse_eq_zero : ∀ octet : Octet,
    decodeSubblock true octet = 0 ↔ octet = 0xFF := by
  decide

theorem olbRange_inverse (limit : maxAid ≤ aidLimit) (reached : octetOffset ≤ maxAid / 8)
    (octets : List Octet) (filled : ∀ n, n < 256 → subblocks n = decodeSubblock true (octetAt n)) :
    ∃ startIdx stopIdx, olbRange true maxAid octetOffset octets subblocks =
        (startIdx / 8, startIdx, stopIdx) ∧
      InverseRange octetAt maxAid octetOffset startIdx stopIdx := by
  unfold aidLimit at limit
  have zero_iff (n : Nat) (small : n < 256) : subblocks n = 0 ↔ octetAt n = 0xFF := by
    rw [filled n small, decode_inverse_eq_zero]
  have stop : ((maxAid >>> 3) + 1) % 256 = maxAid / 8 + 1 := by
    omega
  obtain ⟨bound, empty, full⟩ :=
    countEmptyFront_spec subblocks (maxAid / 8 + 1 - 8 * (octetOffset / 8)) (8 * (octetOffset / 8))
  generalize count : countEmptyFront subblocks (maxAid / 8 + 1 - 8 * (octetOffset / 8))
    (8 * (octetOffset / 8)) = front at bound empty full
  obtain ⟨above, below, tail, last⟩ :=
    trimTail_spec subblocks
      (show 8 * (octetOffset / 8) + 8 * (front / 8) ≤ maxAid / 8 + 1 by omega)
  refine ⟨8 * (octetOffset / 8) + 8 * (front / 8), _, ?_, by omega, by omega, above, below, ?_,
    ?_, ?_, ?_⟩
  · have quotient : (8 * (octetOffset / 8) + 8 * (front / 8)) / 8 =
        octetOffset / 8 + front / 8 := by omega
    simp only [olbRange, if_true, aidToBlockOffset_eq (show octetOffset < 256 by omega),
      s1gTimNumSubblocksPerBlock, stop, Nat.mul_comm (octetOffset / 8), count, quotient]
  · intro n from_block before
    obtain ⟨distance, rfl⟩ := Nat.exists_eq_add_of_le from_block
    exact (zero_iff _ (by omega)).mp (empty distance (by omega))
  · intro allFull
    by_contra more
    have shown := full (by omega)
    have place : 8 * (octetOffset / 8) + front =
        8 * (octetOffset / 8) + 8 * (front / 8) + front % 8 := by omega
    rw [place] at shown
    exact shown ((zero_iff _ (by omega)).mpr (allFull (front % 8) (by omega)))
  · intro n past inside
    exact (zero_iff n (by omega)).mp (tail n past (by omega))
  · intro some ones
    exact last some ((zero_iff _ (by omega)).mpr ones)

theorem timToS1gParseOlbMode_eq (short : octets.length ≤ 256)
    (range : olbRange inverseBitmap maxAid octetOffset octets
      (olbSubblocks inverseBitmap octetOffset octets) = (blockOffset, startIdx, stopIdx))
    (ordered : startIdx ≤ stopIdx)
    (small : stopIdx < 256)
    (consumes : ∀ encodedBlockInfo,
      consume11nTimOctets ⟨encodedBlockInfo, octets, octetOffset⟩ octets.length =
        ⟨encodedBlockInfo, octets', octetOffset'⟩)
    (capacity : Nat)
    (written : List Octet) :
    timToS1gParseOlbMode capacity ⟨written.take capacity, octets, octetOffset⟩
        inverseBitmap maxAid =
      ⟨(written ++ if startIdx = stopIdx then [] else
          blockControl .olb inverseBitmap blockOffset :: BitVec.ofNat 8 (stopIdx - startIdx) ::
            (List.range (stopIdx - startIdx)).map fun i =>
              olbSubblocks inverseBitmap octetOffset octets (startIdx + i)).take capacity,
        octets', octetOffset'⟩ := by
  have marks : markOctets inverseBitmap (fun aid => (aid >>> 3) % 256) (octetOffset * 8) 0
      octets (fun _ => if inverseBitmap then 0xFF else 0x00) =
        olbSubblocks inverseBitmap octetOffset octets := rfl
  have whole : octets.take s1gTimMaxBlockSize = octets := List.take_of_length_le short
  have number : (stopIdx + 256 - startIdx) % 256 = stopIdx - startIdx := by omega
  simp only [timToS1gParseOlbMode, whole, consumes, marks, range, number]
  by_cases none : startIdx = stopIdx
  · rw [if_pos (by omega), if_pos none, List.append_nil]
  · rw [if_neg (by omega), if_neg none, s1gTimAppendOctets_take]

theorem exists_olb_blocks {octetAt subblocks : Nat → Octet}
    (filled : ∀ n, n < 256 → subblocks n = decodeSubblock inverseBitmap (octetAt n))
    {startIdx stopIdx : Nat} (aligned : startIdx % 8 = 0) (ordered : startIdx ≤ stopIdx)
    (small : stopIdx < 256) :
    ∃ blocks : List Block,
      (blocks.flatMap Block.octets = if startIdx = stopIdx then [] else
        blockControl .olb inverseBitmap (startIdx / 8) :: BitVec.ofNat 8 (stopIdx - startIdx) ::
          (List.range (stopIdx - startIdx)).map fun i => subblocks (startIdx + i)) ∧
      blocks.flatMap Block.aids = listing octetAt startIdx (stopIdx - startIdx) := by
  by_cases none : startIdx = stopIdx
  · refine ⟨[], by rw [if_pos none]; rfl, ?_⟩
    rw [none, Nat.sub_self]
    rfl
  · let octets := (List.range (stopIdx - startIdx)).map fun i => subblocks (startIdx + i)
    have length : octets.length = stopIdx - startIdx := by
      rw [List.length_map, List.length_range]
    have start : 8 * (startIdx / 8) = startIdx := by omega
    refine ⟨[Block.olb inverseBitmap (startIdx / 8) octets
      (List.ne_nil_of_length_pos (by omega)) (by omega) (by omega)], ?_, ?_⟩
    · rw [if_neg none, List.flatMap_singleton, Block.octets, Block.control, Block.info, length]
    · rw [List.flatMap_singleton, Block.aids, length, start]
      apply listing_congr
      intro n above below
      have found : octets.getD (n - startIdx) 0 = subblocks n := by
        rw [List.getD_eq_getElem?_getD, List.getElem?_map, List.getElem?_range (by omega)]
        simp only [Option.map_some, Option.getD_some]
        congr 1
        omega
      rw [found, filled n (by omega), decodeSubblock_decodeSubblock]

end Tim
end Morse
