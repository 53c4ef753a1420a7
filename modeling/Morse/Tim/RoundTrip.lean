import Morse.Tim.EncodeOlb
import Morse.Tim.Padding

/-!
# Round trips of the traffic indication map

An element that `timToS1g` produces is decoded by `s1gToTim` into a TIM that
has exactly the AIDs listed by the encoded blocks.  Without inversion these are
the AIDs of the input.  In inverse mode the blocks list the AIDs of the octets
that the encoder keeps, which decides when the round trip succeeds.
-/

namespace Morse
namespace Tim

open Lib

/-! ## The blocks of a whole encoding -/

/-- Whatever the capacity, the encoder writes the octets of one list of blocks,
as far as they fit, and the blocks list the given AIDs. -/
def EncodesAids (tim : TimIe) (length : Nat) (encMode : EncMode) (inverseBitmap : Bool)
    (maxAid : Nat) (aids : List Nat) : Prop :=
  ∃ blocks : List Block,
    (∀ capacity, encodeBlocks capacity encMode inverseBitmap maxAid tim length =
      some ((blocks.flatMap Block.octets).take capacity)) ∧
    blocks.flatMap Block.aids = aids

theorem encodeRounds_emits {encMode : EncMode} {inverseBitmap : Bool} {maxAid : Nat}
    {octetAt family : Nat → Octet}
    (rounds : ∀ octetOffset octets, Remaining octetAt octetOffset octets → octets ≠ [] →
      Emits (fun capacity state => encodeRound capacity encMode inverseBitmap maxAid state)
        octetAt family octetOffset octets)
    (vanishes : ∀ n, octetAt n = 0 → family n = 0)
    (fuel : Nat) :
    ∀ octetOffset octets, Remaining octetAt octetOffset octets → octets.length ≤ fuel →
      ∃ blocks : List Block,
        (∀ capacity written,
          (encodeRounds capacity encMode inverseBitmap maxAid fuel
              ⟨written.take capacity, octets, octetOffset⟩).map (·.encodedBlockInfo) =
            some ((written ++ blocks.flatMap Block.octets).take capacity)) ∧
        blocks.flatMap Block.aids = listing family octetOffset (256 - octetOffset) := by
  have finished (octetOffset : Nat) (remaining : Remaining octetAt octetOffset []) :
      listing family octetOffset (256 - octetOffset) = [] :=
    listing_eq_nil fun n above _ => vanishes n (remaining.ended n (by simpa using above))
  induction fuel with
  | zero =>
    intro octetOffset octets remaining none
    obtain rfl := List.length_eq_zero_iff.mp (Nat.le_zero.mp none)
    exact ⟨[], fun capacity written => by simp [encodeRounds],
      (finished octetOffset remaining).symm⟩
  | succ fuel inductionHypothesis =>
    intro octetOffset octets remaining enough
    by_cases nonempty : octets = []
    · subst nonempty
      exact ⟨[], fun capacity written => by simp [encodeRounds],
        (finished octetOffset remaining).symm⟩
    · obtain ⟨first, octetOffset', octets', remaining', shorter, round, listed⟩ :=
        rounds octetOffset octets remaining nonempty
      beta_reduce at round
      obtain ⟨rest, runs, restListed⟩ :=
        inductionHypothesis octetOffset' octets' remaining' (by omega)
      refine ⟨first ++ rest, ?_, ?_⟩
      · intro capacity written
        by_cases room : written.length < capacity
        · have entered : (written.take capacity).length < capacity := by
            rw [List.length_take]
            omega
          have next := runs capacity (written ++ first.flatMap Block.octets)
          rw [List.append_assoc, ← List.flatMap_append] at next
          rw [encodeRounds, if_pos ⟨nonempty, entered⟩, round]
          exact next
        · have full : ¬ (written.take capacity).length < capacity := by
            rw [List.length_take]
            omega
          rw [encodeRounds, if_neg (fun entered => full entered.2), Option.map_some,
            List.take_append_of_le_length (Nat.not_lt.mp room)]
      · rw [List.flatMap_append, restListed, listed]

theorem octetAt_eq_zero_of_bounded {tim : TimIe}
    (bounded : ∀ aid, tim.HasAid length aid → aid ≤ maxAid) (past : maxAid / 8 < octetNumber) :
    tim.octetAt length octetNumber = 0 := by
  rw [eq_zero_iff_getLsbD]
  intro bit inside
  by_contra set
  rw [Bool.not_eq_false] at set
  have has : tim.HasAid length (8 * octetNumber + bit) := by
    rw [TimIe.hasAid_iff_octetAt]
    have number : (8 * octetNumber + bit) / 8 = octetNumber := by omega
    have position : (8 * octetNumber + bit) % 8 = bit := by omega
    rwa [number, position]
  have below := bounded _ has
  omega

section Encoding

variable {tim : TimIe} {length maxAid : Nat}
variable (within : tim.bitmapOffset + length ≤ 255)
variable (bounded : ∀ aid, tim.HasAid length aid → aid ≤ maxAid)
variable (limit : maxAid ≤ aidLimit)

include within in
theorem encodesAids_of_rounds {encMode : EncMode} {inverseBitmap : Bool} {family : Nat → Octet}
    (rounds : ∀ octetOffset octets, Remaining (tim.octetAt length) octetOffset octets →
      octets ≠ [] →
      Emits (fun capacity state => encodeRound capacity encMode inverseBitmap maxAid state)
        (tim.octetAt length) family octetOffset octets)
    (vanishes : ∀ n, tim.octetAt length n = 0 → family n = 0) :
    EncodesAids tim length encMode inverseBitmap maxAid (listing family 0 256) := by
  obtain ⟨octetOffset, octets, initial, remaining, shorter, before⟩ := initialParseState_eq within
  obtain ⟨blocks, runs, listed⟩ :=
    encodeRounds_emits rounds vanishes length octetOffset octets remaining shorter
  have bound := remaining.within
  refine ⟨blocks, ?_, ?_⟩
  · intro capacity
    have run := runs capacity []
    rw [List.take_nil, List.nil_append] at run
    rw [encodeBlocks, initial, run]
  · rw [listed]
    exact (@listing_skip _ _ 0 _ 256 (Nat.zero_le _) (by omega)
      fun n _ below => vanishes n (before n below)).symm

include within bounded limit in
theorem encodesAids_block (inverseBitmap : Bool) :
    EncodesAids tim length .block inverseBitmap maxAid
      (listing (fun n => keptOctet inverseBitmap (tim.octetAt length n)) 0 256) :=
  encodesAids_of_rounds within
    (fun _ _ remaining nonempty => timToS1gParseBlockMode_emits remaining nonempty inverseBitmap
      limit fun _ past => octetAt_eq_zero_of_bounded bounded past)
    (fun _ zero => by rw [zero, keptOctet_zero])

include within in
theorem encodesAids_single :
    EncodesAids tim length .aid false maxAid (listing (tim.octetAt length) 0 256) :=
  encodesAids_of_rounds within
    (fun _ _ remaining nonempty => timToS1gParseSingleMode_emits remaining nonempty)
    (fun _ zero => zero)

theorem encodeRounds_once (nonempty : octets ≠ []) (octetOffset' : Nat) {written : List Octet}
    (round : ∀ capacity, encodeRound capacity encMode inverseBitmap maxAid
      ⟨[], octets, octetOffset⟩ = some ⟨written.take capacity, [], octetOffset'⟩)
    (enough : octets.length ≤ fuel)
    (capacity : Nat) :
    (encodeRounds capacity encMode inverseBitmap maxAid fuel ⟨[], octets, octetOffset⟩).map
      (·.encodedBlockInfo) = some (written.take capacity) := by
  have positive := List.length_pos_of_ne_nil nonempty
  obtain ⟨fuel, rfl⟩ : ∃ rest, fuel = rest + 1 := ⟨fuel - 1, by omega⟩
  by_cases room : 0 < capacity
  · rw [encodeRounds, if_pos ⟨nonempty, room⟩, round]
    cases fuel <;> simp [encodeRounds]
  · have none : capacity = 0 := by omega
    rw [encodeRounds, if_neg (fun entered => room entered.2), none]
    rfl

theorem encodesAids_of_olbRange (initial : initialParseState tim length = ⟨[], octets, octetOffset⟩)
    (remaining : Remaining (tim.octetAt length) octetOffset octets)
    (shorter : octets.length ≤ length) (before : ∀ n, n < octetOffset → tim.octetAt length n = 0)
    (nonempty : octets ≠ [])
    (range : olbRange inverseBitmap maxAid octetOffset octets
      (olbSubblocks inverseBitmap octetOffset octets) = (startIdx / 8, startIdx, stopIdx))
    (aligned : startIdx % 8 = 0)
    (ordered : startIdx ≤ stopIdx)
    (small : stopIdx < 256) :
    EncodesAids tim length .olb inverseBitmap maxAid
      (listing (tim.octetAt length) startIdx (stopIdx - startIdx)) := by
  have bound := remaining.within
  obtain ⟨blocks, written, listed⟩ := @exists_olb_blocks _ _
    (olbSubblocks inverseBitmap octetOffset octets)
    (fun _ below => olbSubblocks_eq remaining before inverseBitmap below) _ _ aligned ordered small
  obtain ⟨octetOffset', octets', consumes, remaining', _, consumed, _⟩ :=
    remaining.toUnconsumed.consume (le_refl octets.length)
  obtain rfl : octets' = [] := List.length_eq_zero_iff.mp (by omega)
  refine ⟨blocks, ?_, listed⟩
  intro capacity
  rw [encodeBlocks, initial]
  refine encodeRounds_once nonempty octetOffset' ?_ shorter capacity
  intro capacity
  have state := timToS1gParseOlbMode_eq (by omega) range ordered small consumes capacity []
  rw [List.take_nil, List.nil_append] at state
  rw [encodeRound, state, written]

theorem encodesAids_of_empty (initial : initialParseState tim length = ⟨[], [], octetOffset⟩) :
    EncodesAids tim length encMode inverseBitmap maxAid [] := by
  refine ⟨[], ?_, rfl⟩
  intro capacity
  rw [encodeBlocks, initial]
  cases length <;> simp [encodeRounds]

theorem octetAt_eq_zero_of_empty (remaining : Remaining octetAt octetOffset [])
    (before : ∀ n, n < octetOffset → octetAt n = 0) (n : Nat) :
    octetAt n = 0 := by
  by_cases below : n < octetOffset
  · exact before n below
  · exact remaining.ended n (by simpa using Nat.not_lt.mp below)

include within in
theorem encodesAids_olb :
    EncodesAids tim length .olb false maxAid (listing (tim.octetAt length) 0 256) := by
  obtain ⟨octetOffset, octets, initial, remaining, shorter, before⟩ := initialParseState_eq within
  by_cases nonempty : octets = []
  · subst nonempty
    rw [listing_eq_nil fun n _ _ => octetAt_eq_zero_of_empty remaining before n]
    exact encodesAids_of_empty initial
  · obtain ⟨stopIdx, range, past, small, holds⟩ := olbRange_plain remaining nonempty maxAid
      (olbSubblocks false octetOffset octets)
    have start : 8 * (octetOffset / 8) / 8 = octetOffset / 8 := by omega
    have encodes := encodesAids_of_olbRange initial remaining shorter before nonempty
      (show _ = (8 * (octetOffset / 8) / 8, 8 * (octetOffset / 8), stopIdx) by
        rw [start]; exact range)
      (by omega) (by omega) (by omega)
    have front := @listing_skip _ (tim.octetAt length) 0 (8 * (octetOffset / 8)) 256
      (Nat.zero_le _) (by omega)
      fun n _ below => before n (by omega)
    have split : 256 - 8 * (octetOffset / 8) =
        (stopIdx - 8 * (octetOffset / 8)) + (256 - stopIdx) := by omega
    have tail : listing (tim.octetAt length)
        (8 * (octetOffset / 8) + (stopIdx - 8 * (octetOffset / 8))) (256 - stopIdx) = [] := by
      apply listing_eq_nil
      intro n above _
      by_contra nonzero
      have below := holds n (by omega) nonzero
      omega
    rw [Nat.sub_zero] at front
    rw [front, split, listing_add, tail, List.append_nil]
    exact encodes

include within bounded limit in
theorem encodesAids_olb_inverse :
    (∀ n, tim.octetAt length n = 0) ∧
        EncodesAids tim length .olb true maxAid [] ∨
      ∃ octetOffset startIdx stopIdx, (∀ n, n < octetOffset → tim.octetAt length n = 0) ∧
        tim.octetAt length octetOffset ≠ 0 ∧
        InverseRange (tim.octetAt length) maxAid octetOffset startIdx stopIdx ∧
        EncodesAids tim length .olb true maxAid
          (listing (tim.octetAt length) startIdx (stopIdx - startIdx)) := by
  obtain ⟨octetOffset, octets, initial, remaining, shorter, before⟩ := initialParseState_eq within
  by_cases nonempty : octets = []
  · subst nonempty
    exact Or.inl ⟨octetAt_eq_zero_of_empty remaining before, encodesAids_of_empty initial⟩
  · have first := remaining.trimmed nonempty
    have reached : octetOffset ≤ maxAid / 8 := by
      by_contra beyond
      exact first (octetAt_eq_zero_of_bounded bounded (by omega))
    obtain ⟨startIdx, stopIdx, range, inverseRange⟩ := olbRange_inverse limit reached octets
      fun n below => olbSubblocks_eq remaining before true below
    have below := inverseRange.to_max
    unfold aidLimit at limit
    exact Or.inr ⟨octetOffset, startIdx, stopIdx, before, first, inverseRange,
      encodesAids_of_olbRange initial remaining shorter before nonempty range
        inverseRange.aligned inverseRange.ordered (by omega)⟩

end Encoding

/-! ## The round trip -/

/-- The encoded blocks fit in the element: whatever the room, no more than
`encoded_block_info` is written. -/
def EncodingFits (tim : TimIe) (length : Nat) (encMode : EncMode) (inverseBitmap : Bool)
    (maxAid : Nat) : Prop :=
  ∀ capacity encoded, encodeBlocks capacity encMode inverseBitmap maxAid tim length =
    some encoded → encoded.length ≤ s1gTimMaxBlockSize

/-- Decoding the element that `timToS1g` produces, into a zeroed TIM and with
the length that it returns, yields exactly the AIDs of the input.  The virtual
map of the output has `ret - 3` octets. -/
def RoundTrips (tim : TimIe) (length : Nat) (encMode : EncMode) (inverseBitmap : Bool)
    (maxAid pageSliceNo pageIndex : Nat) : Prop :=
  ∃ out ret,
    s1gToTim .zeroed
        (Memory.ofList
          (timToS1g tim length encMode inverseBitmap maxAid pageSliceNo pageIndex).1.octets)
        (timToS1g tim length encMode inverseBitmap maxAid pageSliceNo pageIndex).2 =
      some (out, ret) ∧
    ∀ aid, out.HasAid (ret - 3) aid ↔ tim.HasAid length aid

theorem pageIndex_eq_zero :
    ∀ trafficIndication ∈ [0#8, 1#8], ∀ pageSliceNo < 32,
      (((trafficIndication ||| (BitVec.ofNat 8 pageSliceNo <<< 1) |||
        (BitVec.ofNat 8 0 <<< 6)) &&& 0xC0#8) >>> 6).toNat = 0 := by
  decide

theorem trafficIndication_cases : ∀ bitmapCtrl : Octet,
    bitmapCtrl &&& 0x01#8 ∈ [0#8, 1#8] := by
  decide

private theorem trafficIndication_offset : ∀ bitmapCtrl : Octet,
    ((bitmapCtrl &&& 0x01#8) &&& 0xFE#8).toNat = 0 := by
  decide

theorem s1gToTim_blocks {dtimCount dtimPeriod bitmapControl : Octet}
    (page : ((bitmapControl &&& 0xC0#8) >>> 6).toNat = 0) {blocks : List Block}
    (ascending : (blocks.flatMap Block.aids).Pairwise (· < ·))
    (limit : ∀ aid ∈ blocks.flatMap Block.aids, aid ≤ aidLimit) (padding : List Octet) :
    ∃ out ret,
      s1gToTim .zeroed
          (Memory.ofList (dtimCount :: dtimPeriod :: bitmapControl ::
            (blocks.flatMap Block.octets ++ padding)))
          (2 + (blocks.flatMap Block.octets).length + 1) = some (out, ret) ∧
      ∀ aid, out.HasAid (ret - 3) aid ↔ aid ∈ blocks.flatMap Block.aids := by
  generalize elementEq : dtimCount :: dtimPeriod :: bitmapControl ::
    (blocks.flatMap Block.octets ++ padding) = element
  have read_zero : Memory.ofList element 0 = some dtimCount := by
    rw [← elementEq]
    rfl
  have read_one : Memory.ofList element 1 = some dtimPeriod := by
    rw [← elementEq]
    rfl
  have read_two : Memory.ofList element 2 = some bitmapControl := by
    rw [← elementEq]
    rfl
  have covers : ((Memory.ofList element).shift 3).Covers (blocks.flatMap Block.octets) := by
    have whole := Memory.covers_ofList element
    rw [← elementEq, Memory.covers_cons, Memory.covers_cons, Memory.covers_cons,
      Memory.covers_append] at whole
    rw [← elementEq]
    simpa using whole.2.2.2.1
  have long : ¬ 2 + (blocks.flatMap Block.octets).length + 1 < 2 := by omega
  have present : ¬ 2 + (blocks.flatMap Block.octets).length + 1 < 3 := by omega
  have size : 2 + (blocks.flatMap Block.octets).length + 1 - 3 =
      (blocks.flatMap Block.octets).length := by omega
  have blank (bitmapCtrl : Octet) (offset : (bitmapCtrl &&& 0xFE#8).toNat = 0) :
      TimIe.Lists ⟨dtimCount, dtimPeriod, bitmapCtrl, Function.update TimIe.zeroed.virtualMap 0 0⟩
        0 [] := by
    refine @TimIe.lists_nil ⟨_, _, _, _⟩ offset ?_ 0
    intro index
    change Function.update TimIe.zeroed.virtualMap 0 0 index = 0
    rw [Function.update_apply]
    split <;> rfl
  have start := blank _ (trafficIndication_offset bitmapControl)
  simp only [s1gToTim, long, present, size, read_zero, read_one, read_two, if_false,
    Option.bind_eq_bind, Option.bind_some, page]
  by_cases empty : (blocks.flatMap Block.octets).length = 0
  · have none : blocks = [] := by
      cases blocks with
      | nil => rfl
      | cons block blocks => simp [Block.octets] at empty
    subst none
    rw [if_pos empty]
    split
    · exact ⟨_, _, rfl, fun aid => (blank 0#8 rfl).hasAid_iff aid⟩
    · exact ⟨_, _, rfl, fun aid => start.hasAid_iff aid⟩
  · obtain ⟨out, timLen, stores, lists⟩ := start.storeAids
      (show ([] ++ blocks.flatMap Block.aids).Pairwise (· < ·) by simpa using ascending) limit
    have parsed := parseEncodedBlocks_eq
      (show (((Memory.ofList element).shift 3).shift 0).Covers _ by rwa [Memory.shift_shift])
      (Nat.zero_add _).symm le_rfl stores
    refine ⟨out, sizeofTimIe + timLen, ?_, ?_⟩
    · rw [if_neg empty]
      rw [parsed]
      rfl
    · intro aid
      have length : sizeofTimIe + timLen - 3 = timLen + 1 := by
        unfold sizeofTimIe
        omega
      rw [length]
      exact lists.hasAid_iff aid

theorem s1gToTim_timToS1g_of_encodes
    (encodes : EncodesAids tim length encMode inverseBitmap maxAid aids)
    (fits : EncodingFits tim length encMode inverseBitmap maxAid)
    (ascending : aids.Pairwise (· < ·)) (limit : ∀ aid ∈ aids, aid ≤ aidLimit)
    (slice : pageSliceNo ≤ s1gTimPageSliceEntirePage) :
    ∃ out ret,
      s1gToTim .zeroed
          (Memory.ofList (timToS1g tim length encMode inverseBitmap maxAid pageSliceNo 0).1.octets)
          (timToS1g tim length encMode inverseBitmap maxAid pageSliceNo 0).2 =
        some (out, ret) ∧
      ∀ aid, out.HasAid (ret - 3) aid ↔ aid ∈ aids := by
  obtain ⟨blocks, encoded, rfl⟩ := encodes
  have fitting := fits (s1gTimMaxBlockSize + 1) _ (encoded _)
  have whole : (blocks.flatMap Block.octets).length ≤ s1gTimMaxBlockSize := by
    rw [List.length_take] at fitting
    omega
  have written := encoded s1gTimMaxBlockSize
  rw [List.take_of_length_le whole] at written
  simp only [timToS1g, written]
  split
  · have page := pageIndex_eq_zero _ (trafficIndication_cases tim.bitmapCtrl) pageSliceNo
      (Nat.lt_succ_of_le slice)
    exact s1gToTim_blocks page ascending limit _
  · rename_i absent
    have none : blocks = [] := by
      cases blocks with
      | nil => rfl
      | cons block blocks => exact absurd (Or.inr (by simp [Block.octets])) absent
    subst none
    have offset : TimIe.bitmapOffset ⟨tim.dtimCount, tim.dtimPeriod, TimIe.zeroed.bitmapCtrl,
        TimIe.zeroed.virtualMap⟩ = 0 := by
      change (0#8 &&& 0xFE#8).toNat = 0
      decide
    have empty := TimIe.lists_nil offset (fun _ => rfl) 0
    exact ⟨_, _, rfl, fun aid => empty.hasAid_iff aid⟩

theorem roundTrips_iff_of_encodes
    (encodes : EncodesAids tim length encMode inverseBitmap maxAid aids)
    (fits : EncodingFits tim length encMode inverseBitmap maxAid)
    (ascending : aids.Pairwise (· < ·)) (limit : ∀ aid ∈ aids, aid ≤ aidLimit)
    (slice : pageSliceNo ≤ s1gTimPageSliceEntirePage) :
    RoundTrips tim length encMode inverseBitmap maxAid pageSliceNo 0 ↔
      ∀ aid, aid ∈ aids ↔ tim.HasAid length aid := by
  obtain ⟨out, ret, decodes, listed⟩ :=
    s1gToTim_timToS1g_of_encodes encodes fits ascending limit slice
  constructor
  · rintro ⟨out', ret', decodes', same⟩ aid
    rw [decodes, Option.some.injEq] at decodes'
    obtain ⟨rfl, rfl⟩ := decodes'
    rw [← listed, same]
  · intro every
    exact ⟨out, ret, decodes, fun aid => (listed aid).trans (every aid)⟩

theorem encodingFits_of_encodes (encodes : EncodesAids tim length encMode inverseBitmap maxAid aids)
    (short : (encodeBlocks (s1gTimMaxBlockSize + 1) encMode inverseBitmap maxAid tim length).all
      (fun encoded => decide (encoded.length ≤ s1gTimMaxBlockSize)) = true) :
    EncodingFits tim length encMode inverseBitmap maxAid := by
  obtain ⟨blocks, encoded, _⟩ := encodes
  rw [encoded, Option.all_some, decide_eq_true_eq, List.length_take] at short
  intro capacity result written
  rw [encoded, Option.some.injEq] at written
  rw [← written, List.length_take]
  omega

/-! ## Virtual maps of any length -/

theorem exists_within (small : length < s1gTimMaxBlockSize)
    (bounded : ∀ aid, tim.HasAid length aid → aid ≤ maxAid) (limit : maxAid ≤ aidLimit) :
    ∃ shorter, tim.bitmapOffset + shorter ≤ 255 ∧
      tim.octetAt length = tim.octetAt shorter ∧
      ∀ encMode inverseBitmap aids, EncodesAids tim shorter encMode inverseBitmap maxAid aids →
        EncodesAids tim length encMode inverseBitmap maxAid aids := by
  unfold aidLimit at limit
  have offset : tim.bitmapOffset ≤ 254 := by
    rw [TimIe.bitmapOffset, and_even_toNat]
    have even := evenOctet_le tim.bitmapCtrl.toNat
    unfold evenOctet at even ⊢
    omega
  have zeros : ∀ index, min length (255 - tim.bitmapOffset) ≤ index → index < length →
      tim.virtualMap index = 0 := by
    intro index past inside
    have zero : tim.octetAt length (tim.bitmapOffset + index) = 0 :=
      octetAt_eq_zero_of_bounded bounded (by omega)
    rwa [TimIe.octetAt, Nat.add_sub_cancel_left,
      if_pos ⟨Nat.le_add_right _ _, inside⟩] at zero
  refine ⟨min length (255 - tim.bitmapOffset), by omega, ?_, ?_⟩
  · funext octetNumber
    rw [TimIe.octetAt, TimIe.octetAt]
    by_cases inside : tim.bitmapOffset ≤ octetNumber ∧
        octetNumber - tim.bitmapOffset < min length (255 - tim.bitmapOffset)
    · rw [if_pos inside, if_pos ⟨inside.1, by omega⟩]
    · split
      · rename_i longer
        exact zeros _ (by omega) longer.2
      · rfl
  · rintro encMode inverseBitmap aids ⟨blocks, encoded, listed⟩
    refine ⟨blocks, fun capacity => ?_, listed⟩
    rw [encodeBlocks_of_zeros (Nat.min_le_left _ _) small zeros, encoded]

theorem bounded_of_octetAt_eq {tim : TimIe} (same : tim.octetAt length = tim.octetAt shorter)
    (bounded : ∀ aid, tim.HasAid length aid → aid ≤ maxAid) :
    ∀ aid, tim.HasAid shorter aid → aid ≤ maxAid := by
  intro aid has
  rw [TimIe.hasAid_iff_octetAt, ← same, ← TimIe.hasAid_iff_octetAt] at has
  exact bounded aid has

section Statements

variable {tim : TimIe} {length maxAid pageSliceNo : Nat}

theorem mem_listing_octetAt (bounded : ∀ aid, tim.HasAid length aid → aid ≤ maxAid)
    (limit : maxAid ≤ aidLimit) (aid : Nat) :
    aid ∈ listing (tim.octetAt length) 0 256 ↔ tim.HasAid length aid := by
  rw [mem_listing, ← TimIe.hasAid_iff_octetAt]
  constructor
  · rintro ⟨_, _, _, has⟩
    exact has
  · intro has
    have below := le_trans (bounded aid has) limit
    unfold aidLimit at below
    exact ⟨by decide, by omega, by omega, has⟩

theorem encodesAids_plain (plain : encMode = .block ∨ encMode = .aid ∨ encMode = .olb)
    (small : length < s1gTimMaxBlockSize) (bounded : ∀ aid, tim.HasAid length aid → aid ≤ maxAid)
    (limit : maxAid ≤ aidLimit) :
    EncodesAids tim length encMode false maxAid (listing (tim.octetAt length) 0 256) := by
  obtain ⟨shorter, within, same, extended⟩ := exists_within small bounded limit
  have bounded' := bounded_of_octetAt_eq same bounded
  apply extended
  rw [same]
  rcases plain with rfl | rfl | rfl
  · have kept := encodesAids_block within bounded' limit false
    have whole : (fun n => keptOctet false (tim.octetAt shorter n)) = tim.octetAt shorter := by
      funext n
      exact if_neg (fun inverse => Bool.false_ne_true inverse.1)
    rwa [whole] at kept
  · exact encodesAids_single within
  · exact encodesAids_olb within

/-- Round trip without inversion: in each of the three modes the decoded TIM has
exactly the AIDs of the encoded one. -/
theorem roundTrips_plain {encMode : EncMode}
    (plain : encMode = .block ∨ encMode = .aid ∨ encMode = .olb)
    (within : tim.bitmapOffset + length ≤ dot11MaxTimVirtualMapLength)
    (bounded : ∀ aid, tim.HasAid length aid → aid ≤ maxAid) (limit : maxAid ≤ aidLimit)
    (slice : pageSliceNo ≤ s1gTimPageSliceEntirePage)
    (fits : EncodingFits tim length encMode false maxAid) :
    RoundTrips tim length encMode false maxAid pageSliceNo 0 := by
  have small : length < s1gTimMaxBlockSize := by
    unfold dot11MaxTimVirtualMapLength at within
    unfold s1gTimMaxBlockSize
    omega
  have encodes := encodesAids_plain plain small bounded limit
  have mem := mem_listing_octetAt bounded limit
  refine (roundTrips_iff_of_encodes encodes fits (pairwise_listing _ _ _) ?_ slice).mpr mem
  intro aid listed
  exact le_trans (bounded aid ((mem aid).mp listed)) limit

end Statements

/-- A TIM with the AIDs 37, 40 and 47. -/
def sparseTim : TimIe where
  dtimCount := 1
  dtimPeriod := 3
  bitmapCtrl := 0x05
  virtualMap := fun index => if index = 0 then 0x20 else if index = 1 then 0x81 else 0

theorem aid_lt_of_hasAid {tim : TimIe} (has : tim.HasAid length aid) :
    aid < 8 * (tim.bitmapOffset + length) := by
  obtain ⟨behind, within, _⟩ := has
  omega

theorem roundTrips_plain_sparseTim : RoundTrips sparseTim 2 .olb false 47 31 0 := by
  have bounded : ∀ aid, sparseTim.HasAid 2 aid → aid ≤ 47 := fun _ has =>
    Nat.le_of_lt_succ (aid_lt_of_hasAid has)
  have limit : 47 ≤ aidLimit := by decide
  exact roundTrips_plain (Or.inr (Or.inr rfl)) (by decide) bounded limit (by decide)
    (encodingFits_of_encodes
      (encodesAids_plain (Or.inr (Or.inr rfl)) (by decide) bounded limit) (by decide))

end Tim
end Morse
