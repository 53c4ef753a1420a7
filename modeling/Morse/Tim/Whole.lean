import Morse.Tim.Sizes

/-!
# Which encodings are whole

An OLB block from the first block on to an AID of the last octets is too long for an element; in
the other modes it is the sum over all blocks that can be.
-/

namespace Morse
namespace Tim

open Lib

/-! ## The length of an OLB block -/

theorem olbStopIdx_reached (unconsumed : Unconsumed octetAt (octetOffset + i) octets)
    (stopIdx : Nat) :
    olbStopIdx (octetOffset * 8) i octets stopIdx = stopIdx ∨
      octetAt (olbStopIdx (octetOffset * 8) i octets stopIdx - 1) ≠ 0 := by
  induction octets generalizing i stopIdx with
  | nil => exact Or.inl rfl
  | cons octet octets ih =>
    have within := unconsumed.within
    rw [List.length_cons] at within
    obtain ⟨head, tail⟩ := unconsumed.cons
    have walked := foldl_stopIdx (show octetOffset + i < 255 by omega) octet
      (fun j (listed : j ∈ List.range 8) => List.mem_range.mp listed) stopIdx
    rw [olbStopIdx, walked]
    rcases @ih (i + 1) tail
      (if ∃ j ∈ List.range 8, octet.getLsbD j = true then max stopIdx (octetOffset + i + 1)
        else stopIdx) with same | reached
    · rw [same]
      split
      · next set =>
          have nonzero : octetAt (octetOffset + i) ≠ 0 := by
            intro zero
            rw [head, zero] at set
            simp at set
          rcases Nat.lt_or_ge stopIdx (octetOffset + i + 1) with raised | kept
          · right
            rw [Nat.max_eq_right (Nat.le_of_lt raised)]
            exact nonzero
          · exact Or.inl (Nat.max_eq_left kept)
      · exact Or.inl rfl
    · exact Or.inr reached

theorem trimTail_le (subblocks : Nat → Octet) (startIdx stopIdx : Nat) :
    trimTail subblocks startIdx stopIdx ≤ stopIdx := by
  induction stopIdx with
  | zero => exact Nat.le_refl 0
  | succ stopIdx ih =>
    rw [trimTail]
    split
    · exact Nat.le_succ_of_le ih
    · exact Nat.le_refl _

/-- The OLB block would start with the first octet and reach behind octet 250: without
inversion octet 250 has an AID, with it two octets within the largest AID, one of the first eight
and one from octet 250 on, have an AID that is not set. -/
def OlbLong (octetAt : Nat → Octet) (inverseBitmap : Bool) (maxAid : Nat) : Prop :=
  (∃ n < 8, octetAt n ≠ 0) ∧
    if inverseBitmap then
      (∃ n < 8, n < ((maxAid >>> 3) + 1) % 256 ∧ octetAt n ≠ 0xFF) ∧
        ∃ n < 256, 250 ≤ n ∧ n < ((maxAid >>> 3) + 1) % 256 ∧ octetAt n ≠ 0xFF
    else octetAt 250 ≠ 0

instance (octetAt : Nat → Octet) (inverseBitmap : Bool) (maxAid : Nat) :
    Decidable (OlbLong octetAt inverseBitmap maxAid) := by
  unfold OlbLong
  infer_instance

section Olb

variable {octetAt : Nat → Octet} {octetOffset : Nat} {octets : List Octet}
variable (remaining : Remaining octetAt octetOffset octets)
variable (before : ∀ n, n < octetOffset → octetAt n = 0)
variable (nonempty : octets ≠ [])

include remaining before nonempty

theorem first_block_iff : (∃ n < 8, octetAt n ≠ 0) ↔ octetOffset / 8 = 0 := by
  constructor
  · rintro ⟨n, small, nonzero⟩
    by_contra later
    exact nonzero (before n (by omega))
  · intro first
    exact ⟨octetOffset, by omega, remaining.trimmed nonempty⟩

theorem olbRange_plain_long (ended : ∀ n, 251 ≤ n → octetAt n = 0) (maxAid : Nat)
    (subblocks : Nat → Octet) :
    let range := olbRange false maxAid octetOffset octets subblocks
    range.2.2 ≤ 255 ∧ (250 < range.2.2 - range.2.1 ↔ OlbLong octetAt false maxAid) := by
  have within := remaining.within
  obtain ⟨-, past, bound⟩ := @olbStopIdx_spec octetAt octetOffset 0 octets
    remaining.toUnconsumed 0
  have reached := @olbStopIdx_reached octetAt octetOffset 0 octets remaining.toUnconsumed 0
  have range : olbRange false maxAid octetOffset octets subblocks =
      (octetOffset / 8, 8 * (octetOffset / 8), olbStopIdx (octetOffset * 8) 0 octets 0) := by
    simp only [olbRange, Bool.false_eq_true, if_false,
      aidToBlockOffset_eq (show octetOffset < 256 by omega), s1gTimNumSubblocksPerBlock,
      Nat.mul_comm]
  rw [range, OlbLong, first_block_iff remaining before nonempty]
  generalize olbStopIdx (octetOffset * 8) 0 octets 0 = stopIdx at *
  dsimp only
  refine ⟨by omega, ?_⟩
  constructor
  · intro long
    have nonzero : octetAt (stopIdx - 1) ≠ 0 := by
      rcases reached with none | nonzero
      · omega
      · exact nonzero
    have last : stopIdx ≤ 251 := by
      by_contra beyond
      exact nonzero (ended _ (by omega))
    have same : stopIdx - 1 = 250 := by omega
    rw [same] at nonzero
    exact ⟨by omega, nonzero⟩
  · rintro ⟨first, nonzero⟩
    have inside := past 250 (by omega) nonzero
    omega

theorem olbRange_inverse_long (maxAid : Nat) :
    let range := olbRange true maxAid octetOffset octets (olbSubblocks true octetOffset octets)
    range.2.2 ≤ 255 ∧ (250 < range.2.2 - range.2.1 ↔ OlbLong octetAt true maxAid) := by
  have within := remaining.within
  have full (n : Nat) (small : n < 256) :
      olbSubblocks true octetOffset octets n = 0 ↔ octetAt n = 0xFF := by
    rw [olbSubblocks_eq remaining before true small, decode_inverse_eq_zero]
  rw [OlbLong, first_block_iff remaining before nonempty]
  generalize olbSubblocks true octetOffset octets = subblocks at *
  have range : olbRange true maxAid octetOffset octets subblocks =
      (octetOffset / 8 + countEmptyFront subblocks
          (((maxAid >>> 3) + 1) % 256 - octetOffset / 8 * 8) (octetOffset / 8 * 8) / 8,
        octetOffset / 8 * 8 + 8 * (countEmptyFront subblocks
          (((maxAid >>> 3) + 1) % 256 - octetOffset / 8 * 8) (octetOffset / 8 * 8) / 8),
        trimTail subblocks (octetOffset / 8 * 8 + 8 * (countEmptyFront subblocks
          (((maxAid >>> 3) + 1) % 256 - octetOffset / 8 * 8) (octetOffset / 8 * 8) / 8))
          (((maxAid >>> 3) + 1) % 256)) := by
    simp only [olbRange, if_true, aidToBlockOffset_eq (show octetOffset < 256 by omega),
      s1gTimNumSubblocksPerBlock]
  rw [range]
  have top : ((maxAid >>> 3) + 1) % 256 < 256 := Nat.mod_lt _ (by decide)
  generalize ((maxAid >>> 3) + 1) % 256 = stop at *
  obtain ⟨bound, empty, shown⟩ :=
    countEmptyFront_spec subblocks (stop - octetOffset / 8 * 8) (octetOffset / 8 * 8)
  generalize countEmptyFront subblocks (stop - octetOffset / 8 * 8) (octetOffset / 8 * 8) = front
    at *
  have least := trimTail_le subblocks (octetOffset / 8 * 8 + 8 * (front / 8)) stop
  dsimp only
  refine ⟨by omega, ?_⟩
  constructor
  · intro long
    obtain ⟨-, -, -, last⟩ := @trimTail_spec subblocks
      (octetOffset / 8 * 8 + 8 * (front / 8)) stop (by omega)
    have first : octetOffset / 8 = 0 := by omega
    have some := shown (by omega)
    rw [first, Nat.zero_add] at some
    refine ⟨first, ⟨front, by omega, by omega, fun ones => some ((full _ (by omega)).mpr ones)⟩,
      trimTail subblocks (octetOffset / 8 * 8 + 8 * (front / 8)) stop - 1, by omega, by omega,
      by omega, fun ones => last (by omega) ((full _ (by omega)).mpr ones)⟩
  · rintro ⟨first, ⟨n, small, inside, shownFirst⟩, m, -, late, within', shownLast⟩
    rw [first] at empty
    have early : front ≤ n := by
      by_contra beyond
      have zero := empty n (by omega)
      rw [Nat.zero_add] at zero
      exact shownFirst ((full n (by omega)).mp zero)
    have start : octetOffset / 8 * 8 + 8 * (front / 8) = 0 := by omega
    rw [start]
    obtain ⟨-, -, tail, -⟩ := @trimTail_spec subblocks 0 stop (Nat.zero_le _)
    have beyond : m < trimTail subblocks 0 stop := by
      by_contra short
      exact shownLast ((full m (by omega)).mp (tail m (by omega) within'))
    omega

end Olb

theorem olb_round (remaining : Remaining octetAt octetOffset octets) (inverseBitmap : Bool)
    (maxAid : Nat) :
    let range := olbRange inverseBitmap maxAid octetOffset octets
      (olbSubblocks inverseBitmap octetOffset octets)
    ∃ (chunk : List Octet) (octetOffset' : Nat),
      (∀ capacity, encodeRound capacity .olb inverseBitmap maxAid ⟨[], octets, octetOffset⟩ =
        some ⟨chunk.take capacity, [], octetOffset'⟩) ∧
      chunk.length = if (range.2.2 + 256 - range.2.1) % 256 = 0 then 0
        else 2 + (range.2.2 - range.2.1) := by
  have within := remaining.within
  obtain ⟨octetOffset', octets', consumes, -, -, consumed, -⟩ :=
    remaining.toUnconsumed.consume (Nat.le_refl octets.length)
  obtain rfl : octets' = [] := List.length_eq_zero_iff.mp (by omega)
  have marks : markOctets inverseBitmap (fun aid => (aid >>> 3) % 256) (octetOffset * 8) 0
      octets (fun _ => if inverseBitmap then 0xFF else 0x00) =
        olbSubblocks inverseBitmap octetOffset octets := rfl
  have whole : octets.take s1gTimMaxBlockSize = octets := List.take_of_length_le (by
    unfold s1gTimMaxBlockSize
    omega)
  generalize found : olbRange inverseBitmap maxAid octetOffset octets
    (olbSubblocks inverseBitmap octetOffset octets) = range
  obtain ⟨blockOffset, startIdx, stopIdx⟩ := range
  by_cases none : (stopIdx + 256 - startIdx) % 256 = 0
  · refine ⟨[], octetOffset', fun capacity => ?_, by rw [if_pos none]; rfl⟩
    rw [encodeRound]
    simp only [timToS1gParseOlbMode, whole, consumes, marks, found, if_pos none, List.take_nil]
  · refine ⟨blockControl .olb inverseBitmap blockOffset ::
        BitVec.ofNat 8 ((stopIdx + 256 - startIdx) % 256) ::
          (List.range (stopIdx - startIdx)).map fun i =>
            olbSubblocks inverseBitmap octetOffset octets (startIdx + i),
      octetOffset', fun capacity => ?_, ?_⟩
    · have written := s1gTimAppendOctets_take capacity []
      simp only [List.take_nil, List.nil_append] at written
      rw [encodeRound]
      simp only [timToS1gParseOlbMode, whole, consumes, marks, found, if_neg none, written]
    · rw [if_neg none]
      simp only [List.length_cons, List.length_map, List.length_range]
      omega

/-! ## The whole encoding -/

/-- What the encoder wants to write fits in an element. -/
def WholeWhen (octetAt : Nat → Octet) (encMode : EncMode) (inverseBitmap : Bool)
    (maxAid : Nat) : Prop :=
  match encMode with
  | .block => wantedFrom octetAt 8 32
      (fun block => 2 + subblocksWritten octetAt inverseBitmap maxAid block) 0 ≤ elementRoom
  | .aid => wantedFrom octetAt 1 256
      (fun n => if inverseBitmap then 0 else 2 * aidCount (octetAt n)) 0 ≤ elementRoom
  | .olb => ¬OlbLong octetAt inverseBitmap maxAid
  | .ade => wantedFrom octetAt 1 256 (fun n => 2 + aidCount (octetAt n)) 0 ≤ elementRoom
  | .unknown => True

instance (octetAt : Nat → Octet) (encMode : EncMode) (inverseBitmap : Bool) (maxAid : Nat) :
    Decidable (WholeWhen octetAt encMode inverseBitmap maxAid) :=
  match encMode with
  | .block => inferInstanceAs (Decidable (_ ≤ _))
  | .aid => inferInstanceAs (Decidable (_ ≤ _))
  | .olb => inferInstanceAs (Decidable (¬_))
  | .ade => inferInstanceAs (Decidable (_ ≤ _))
  | .unknown => inferInstanceAs (Decidable True)

theorem wantedFrom_start (before : ∀ n, n < octetOffset → octetAt n = 0) (width count : Nat)
    (size : Nat → Nat) :
    wantedFrom octetAt width count size octetOffset = wantedFrom octetAt width count size 0 := by
  refine Finset.sum_congr rfl fun index _ => if_congr ?_ rfl rfl
  constructor
  · rintro ⟨place, small, -, nonzero⟩
    exact ⟨place, small, Nat.zero_le _, nonzero⟩
  · rintro ⟨place, small, -, nonzero⟩
    refine ⟨place, small, ?_, nonzero⟩
    by_contra early
    exact nonzero (before _ (Nat.not_le.mp early))

theorem Remaining.blank (remaining : Remaining octetAt octetOffset []) (octetNumber : Nat)
    (above : octetOffset ≤ octetNumber) :
    octetAt octetNumber = 0 :=
  remaining.ended octetNumber (by simpa using above)

theorem encodeBlocks_unknown (capacity : Nat) (inverseBitmap : Bool) (maxAid : Nat) (tim : TimIe)
    (length : Nat) :
    (encodeBlocks capacity .unknown inverseBitmap maxAid tim length).getD [] = [] := by
  rw [encodeBlocks]
  cases length with
  | zero => rfl
  | succ fuel =>
    rw [encodeRounds]
    split
    · rfl
    · rfl

section Encoding

variable {tim : TimIe} {length : Nat}
variable (within : tim.bitmapOffset + length ≤ 251)

include within

theorem exists_full
    (rounds : ∀ octetOffset octets, Ready octetOffset octets → octets ≠ [] →
      Writes encMode inverseBitmap maxAid Ready wanted octetOffset octets)
    (ended : ∀ octetOffset, Ready octetOffset [] → wanted octetOffset = 0)
    (start : ∀ octetOffset octets, Remaining (tim.octetAt length) octetOffset octets →
      (∀ n, n < octetOffset → tim.octetAt length n = 0) →
        Ready octetOffset octets ∧ wanted octetOffset = wanted 0) :
    ∃ full : List Octet,
      (∀ capacity, encodeBlocks capacity encMode inverseBitmap maxAid tim length =
        some (full.take capacity)) ∧ full.length = wanted 0 := by
  obtain ⟨octetOffset, octets, initial, remaining, shorter, before⟩ :=
    initialParseState_eq (show tim.bitmapOffset + length ≤ 255 by omega)
  obtain ⟨ready, same⟩ := start octetOffset octets remaining before
  obtain ⟨full, runs, count⟩ :=
    encodeRounds_length rounds ended length octetOffset octets ready shorter
  refine ⟨full, fun capacity => ?_, by rw [count, same]⟩
  have run := runs capacity []
  rw [List.take_nil, List.nil_append] at run
  rw [encodeBlocks, initial, run]

theorem exists_full_olb (inverseBitmap : Bool) (maxAid : Nat) :
    ∃ full : List Octet,
      (∀ capacity, encodeBlocks capacity .olb inverseBitmap maxAid tim length =
        some (full.take capacity)) ∧
      (full.length ≤ elementRoom ↔ ¬OlbLong (tim.octetAt length) inverseBitmap maxAid) := by
  obtain ⟨octetOffset, octets, initial, remaining, shorter, before⟩ :=
    initialParseState_eq (show tim.bitmapOffset + length ≤ 255 by omega)
  by_cases nonempty : octets = []
  · subst nonempty
    refine ⟨[], fun capacity => ?_, iff_of_true (Nat.zero_le _) ?_⟩
    · rw [encodeBlocks, initial]
      cases length with
      | zero => simp [encodeRounds]
      | succ count => simp [encodeRounds]
    · rintro ⟨⟨n, -, nonzero⟩, -⟩
      exact nonzero (octetAt_eq_zero_of_empty remaining before n)
  · have ended : ∀ n, 251 ≤ n → tim.octetAt length n = 0 := by
      intro n late
      rw [TimIe.octetAt, if_neg (by omega)]
    obtain ⟨chunk, octetOffset', round, count⟩ := olb_round remaining inverseBitmap maxAid
    generalize found : olbRange inverseBitmap maxAid octetOffset octets
      (olbSubblocks inverseBitmap octetOffset octets) = range at count
    have long : range.2.2 ≤ 255 ∧
        (250 < range.2.2 - range.2.1 ↔
          OlbLong (tim.octetAt length) inverseBitmap maxAid) := by
      rw [← found]
      cases inverseBitmap with
      | false => exact olbRange_plain_long remaining before nonempty ended maxAid _
      | true => exact olbRange_inverse_long remaining before nonempty maxAid
    refine ⟨chunk, fun capacity => ?_, ?_⟩
    · rw [encodeBlocks, initial]
      exact encodeRounds_once nonempty octetOffset' round shorter capacity
    · rw [count, ← long.2]
      unfold elementRoom
      split
      · omega
      · omega

theorem encodesWhole_single_iff (inverseBitmap : Bool) (maxAid pageSliceNo pageIndex : Nat) :
    EncodesWhole tim length .aid inverseBitmap maxAid pageSliceNo pageIndex ↔
      WholeWhen (tim.octetAt length) .aid inverseBitmap maxAid := by
  obtain ⟨full, takes, count⟩ := exists_full within
    (fun _ _ ready nonempty => writes_single ready nonempty inverseBitmap maxAid)
    (fun octetOffset ready => wantedFrom_eq_zero ready.blank _ _ _)
    (fun octetOffset octets remaining before =>
      ⟨remaining, wantedFrom_start before _ _ _⟩)
  rw [encodesWhole_iff_of_takes takes, count, WholeWhen]

/--
The length of the element fits in its length octet, and no octet of its blocks is dropped,
exactly when the blocks fit in the 252 octets that an element has for them.
-/
theorem encodesWhole_iff (encMode : EncMode) (inverseBitmap : Bool)
    (maxAid pageSliceNo pageIndex : Nat) :
    EncodesWhole tim length encMode inverseBitmap maxAid pageSliceNo pageIndex ↔
      WholeWhen (tim.octetAt length) encMode inverseBitmap maxAid := by
  cases encMode with
  | block =>
    obtain ⟨full, takes, count⟩ := exists_full within
      (fun _ _ ready nonempty => writes_block ready nonempty inverseBitmap maxAid)
      (fun octetOffset ready => wantedFrom_eq_zero ready.toRemaining.blank _ _ _)
      (fun octetOffset octets remaining before =>
        ⟨⟨remaining, fun _ n _ below => before n below⟩, wantedFrom_start before _ _ _⟩)
    rw [encodesWhole_iff_of_takes takes, count, WholeWhen]
  | aid => exact encodesWhole_single_iff within inverseBitmap maxAid pageSliceNo pageIndex
  | olb =>
    obtain ⟨full, takes, count⟩ := exists_full_olb within inverseBitmap maxAid
    rw [encodesWhole_iff_of_takes takes, count, WholeWhen]
  | ade =>
    obtain ⟨full, takes, count⟩ := exists_full within
      (fun _ _ ready nonempty => writes_ade ready nonempty inverseBitmap maxAid)
      (fun octetOffset ready => wantedFrom_eq_zero ready.blank _ _ _)
      (fun octetOffset octets remaining before =>
        ⟨remaining, wantedFrom_start before _ _ _⟩)
    rw [encodesWhole_iff_of_takes takes, count, WholeWhen]
  | unknown =>
    have emitted : (timToS1g tim length .unknown inverseBitmap maxAid pageSliceNo
        pageIndex).1.encodedBlockInfo = [] ∧
      (timToS1g tim length .unknown inverseBitmap maxAid pageSliceNo pageIndex).2 ≤ 255 := by
      have nothing := encodeBlocks_unknown s1gTimMaxBlockSize inverseBitmap maxAid tim length
      rw [timToS1g]
      cases written :
          encodeBlocks s1gTimMaxBlockSize .unknown inverseBitmap maxAid tim length with
      | none => exact ⟨rfl, show 2 ≤ 255 by omega⟩
      | some info =>
        rw [written] at nothing
        subst nothing
        dsimp only
        split
        · exact ⟨rfl, show 2 + 0 + 1 ≤ 255 by omega⟩
        · exact ⟨rfl, show 2 ≤ 255 by omega⟩
    refine iff_of_true ⟨emitted.2, fun capacity _ => ?_⟩ trivial
    rw [emitted.1, encodeBlocks_unknown]

end Encoding

/-- A TIM in which every AID of the octets that it has is set. -/
def denseTim : TimIe where
  dtimCount := 0
  dtimPeriod := 1
  bitmapCtrl := 0
  virtualMap := fun _ => 0xFF

/-- The 136 AIDs of 17 octets ask for 272 octets one by one. -/
theorem not_encodesWhole_denseTim :
    ¬EncodesWhole denseTim 17 .aid false 135 s1gTimPageSliceEntirePage 0 := by
  rw [encodesWhole_single_iff (show denseTim.bitmapOffset + 17 ≤ 251 by decide)]
  decide +kernel

theorem encodesWhole_denseTim :
    EncodesWhole denseTim 200 .block false 1599 s1gTimPageSliceEntirePage 0 :=
  (@encodesWhole_iff denseTim 200 (by decide) .block false 1599 s1gTimPageSliceEntirePage
    0).mpr (by decide +kernel)

end Tim
end Morse
