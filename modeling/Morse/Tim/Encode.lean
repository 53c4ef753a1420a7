import Morse.Tim.Consume

/-!
# The block encoders

Each round of the encoding loop appends the octets of some blocks, as far as
the capacity goes, and the blocks list the AIDs of the octets that the round
consumes.  In inverse mode the block bitmap encoder leaves out the octets all
of whose AIDs are set.
-/

namespace Morse
namespace Tim

open Lib

/-! ## Writing within a capacity -/

theorem s1gTimAppendOctet_take (capacity : Nat) (written : List Octet) (octet : Octet) :
    s1gTimAppendOctet capacity (written.take capacity) octet =
      (written ++ [octet]).take capacity := by
  unfold s1gTimAppendOctet
  by_cases room : written.length < capacity
  · rw [List.take_of_length_le (le_of_lt room), if_pos room, List.take_of_length_le]
    rw [List.length_append]
    exact room
  · rw [if_neg (by rw [List.length_take]; omega), List.take_append_of_le_length (by omega)]

theorem s1gTimAppendOctets_take (capacity : Nat) (written octets : List Octet) :
    s1gTimAppendOctets capacity (written.take capacity) octets =
      (written ++ octets).take capacity := by
  induction octets generalizing written with
  | nil => simp [s1gTimAppendOctets]
  | cons octet octets inductionHypothesis =>
    have rest := inductionHypothesis (written ++ [octet])
    rw [List.append_assoc] at rest
    rw [s1gTimAppendOctets, List.foldl_cons, s1gTimAppendOctet_take]
    exact rest

theorem s1gTimReserveOctet_take (capacity : Nat) (written : List Octet) :
    s1gTimReserveOctet capacity (written.take capacity) =
      if written.length < capacity then
        some ((written ++ [0]).take capacity, written.length)
      else none := by
  unfold s1gTimReserveOctet
  by_cases room : written.length < capacity
  · rw [List.take_of_length_le (le_of_lt room), if_pos room, if_pos room,
      List.take_of_length_le (by rw [List.length_append]; exact room)]
  · rw [if_neg (by rw [List.length_take]; omega), if_neg room]

private theorem modify_append_cons (first : List Octet) (octet : Octet) (second : List Octet)
    (change : Octet → Octet) :
    (first ++ octet :: second).modify first.length change = first ++ change octet :: second := by
  induction first with
  | nil => rfl
  | cons head first inductionHypothesis =>
    rw [List.cons_append, List.length_cons, List.modify_succ_cons, inductionHypothesis,
      List.cons_append]

theorem copySubblocks_take (capacity : Nat) (subblocks : Nat → Octet) (positions : List Nat)
    (written : List Octet) (blockBitmap : Octet) (copied : List Octet) :
    copySubblocks capacity subblocks written.length positions
        ((written ++ blockBitmap :: copied).take capacity) =
      (written ++ setBits blockBitmap (positions.filter (subblocks · != 0)) ::
        (copied ++ (positions.filter (subblocks · != 0)).map subblocks)).take capacity := by
  induction positions generalizing blockBitmap copied with
  | nil => simp [copySubblocks]
  | cons position positions inductionHypothesis =>
    by_cases empty : subblocks position = 0
    · rw [copySubblocks, inductionHypothesis]
      simp [empty]
    · rw [copySubblocks, if_neg empty, s1gTimAppendOctet_take, ← List.take_modify,
        List.append_assoc, List.cons_append, modify_append_cons, inductionHypothesis]
      have present : (subblocks position != 0) = true := bne_iff_ne.mpr empty
      simp only [List.filter_cons, present, if_true, setBits_cons, List.map_cons,
        List.append_assoc, List.singleton_append]

/-! ## What a round does -/

/-- A round appends the octets of some blocks, whatever the capacity; the
octets are consumed whose listing the blocks' AIDs are. -/
def Emits (round : Nat → TimToS1gParseState → Option TimToS1gParseState)
    (octetAt family : Nat → Octet) (octetOffset : Nat) (octets : List Octet) : Prop :=
  ∃ (blocks : List Block) (octetOffset' : Nat) (octets' : List Octet),
    Remaining octetAt octetOffset' octets' ∧ octets'.length < octets.length ∧
      (∀ capacity written, round capacity ⟨written.take capacity, octets, octetOffset⟩ =
        some ⟨(written ++ blocks.flatMap Block.octets).take capacity, octets', octetOffset'⟩) ∧
      blocks.flatMap Block.aids ++ listing family octetOffset' (256 - octetOffset') =
        listing family octetOffset (256 - octetOffset)

theorem aidToBlockOffset_eq (small : octetOffset < 256) :
    aidToBlockOffset (octetOffset * 8) = octetOffset / 8 := by
  have mask : 0x7C0 = 31 <<< 6 := rfl
  rw [aidToBlockOffset, mask, Nat.shiftRight_and_distrib, Nat.shiftLeft_shiftRight,
    Nat.and_two_pow_sub_one_eq_mod _ 5]
  omega

/-- The listing of octets consumed and trimmed, up to a block boundary. -/
private theorem listing_consumed {family : Nat → Octet}
    {octetOffset boundary count octetOffset' : Nat} (forward : octetOffset + count ≤ octetOffset')
    (within : octetOffset' ≤ 256)
    (zero : ∀ n, octetOffset + count ≤ n → n < octetOffset' → family n = 0)
    (start : octetOffset + count ≤ boundary)
    (ended : octetOffset + count = boundary ∨ ∀ n, octetOffset + count ≤ n → family n = 0) :
    listing family octetOffset (boundary - octetOffset) ++
        listing family octetOffset' (256 - octetOffset') =
      listing family octetOffset (256 - octetOffset) := by
  have whole : 256 - octetOffset = count + (256 - (octetOffset + count)) := by omega
  have block : boundary - octetOffset = count + (boundary - (octetOffset + count)) := by omega
  have skipped := listing_skip forward within zero
  have nothing : listing family (octetOffset + count) (boundary - (octetOffset + count)) = [] := by
    obtain equal | beyond := ended
    · rw [equal, Nat.sub_self, listing_zero_count]
    · exact listing_eq_nil fun n above _ => beyond n above
  rw [whole, block, listing_add, listing_add, nothing, List.append_nil, skipped]

/-! ## Block bitmap mode -/

/-- What the block bitmap encoder keeps of an octet of AIDs: in inverse mode an
octet all of whose AIDs are set becomes an empty subblock and is left out. -/
def keptOctet (inverseBitmap : Bool) (octet : Octet) : Octet :=
  if inverseBitmap ∧ octet = 0xFF then 0 else octet

theorem keptOctet_zero (inverseBitmap : Bool) : keptOctet inverseBitmap 0 = 0 := by
  unfold keptOctet
  split <;> rfl

private theorem eq_ones_of_not_eq_zero : ∀ octet : Octet, ~~~octet = 0 → octet = 0xFF := by
  decide

theorem keptOctet_of_empty (empty : decodeSubblock inverseBitmap octet = 0) :
    keptOctet inverseBitmap octet = 0 := by
  cases inverseBitmap with
  | false =>
    have zero : octet = 0 := empty
    rw [zero, keptOctet_zero]
  | true =>
    have ones := eq_ones_of_not_eq_zero octet empty
    exact if_pos ⟨rfl, ones⟩

theorem keptOctet_of_nonempty (nonempty : decodeSubblock inverseBitmap octet ≠ 0) :
    keptOctet inverseBitmap octet = octet := by
  apply if_neg
  rintro ⟨rfl, rfl⟩
  exact nonempty rfl

theorem clampNumSubblocks_eq (limit : maxAid ≤ aidLimit) (reached : 8 * blockOffset ≤ maxAid / 8) :
    clampNumSubblocks maxAid blockOffset = min (maxAid / 8 - 8 * blockOffset + 1) 8 := by
  unfold aidLimit at limit
  simp only [clampNumSubblocks, s1gTimNumAidPerBlock, s1gTimNumAidPerSubblock,
    s1gTimNumSubblocksPerBlock]
  omega

theorem bitmap_aids {octetAt : Nat → Octet} {inverseBitmap : Bool} {blockOffset : Nat}
    (within : blockOffset < 32) {present : Nat → Bool} {subblocks : Nat → Octet}
    (marked : ∀ m, m < 8 →
      subblocks m = decodeSubblock inverseBitmap (octetAt (8 * blockOffset + m)))
    (shown : ∀ m, m < 8 → present m = true → subblocks m ≠ 0)
    (hidden : ∀ m, m < 8 → present m = false →
      subblocks m = 0 ∨ octetAt (8 * blockOffset + m) = 0) :
    (Block.bitmap inverseBitmap blockOffset within present subblocks).aids =
      listing (fun n => keptOctet inverseBitmap (octetAt n)) (8 * blockOffset) 8 := by
  rw [listing_eq_flatMap_range, ← @flatMap_filter_of_nil _
    (fun m => keptOctet inverseBitmap (octetAt (8 * blockOffset + m)))
    (fun m => 8 * blockOffset + m) present]
  · apply List.flatMap_congr
    intro m listed
    obtain ⟨inRange, isPresent⟩ := List.mem_filter.mp listed
    have inside := List.mem_range.mp inRange
    have nonempty := shown m inside isPresent
    rw [marked m inside] at nonempty
    rw [marked m inside, decodeSubblock_decodeSubblock, keptOctet_of_nonempty nonempty]
  · intro m inRange absent
    have inside := List.mem_range.mp inRange
    have dropped : keptOctet inverseBitmap (octetAt (8 * blockOffset + m)) = 0 := by
      obtain empty | zero := hidden m inside absent
      · rw [marked m inside] at empty
        exact keptOctet_of_empty empty
      · rw [zero, keptOctet_zero]
    rw [dropped, entryListing_zero]

theorem placed_mod_eight : Placed (fun aid => (aid >>> 3) &&& 0x7) (· % 8) := by
  intro octetNumber bit _ inside
  change ((8 * octetNumber + bit) >>> 3) &&& 0x7 = octetNumber % 8
  rw [Nat.and_two_pow_sub_one_eq_mod _ 3]
  omega

/-- The subblocks that the block bitmap encoder fills. -/
def blockSubblocks (inverseBitmap : Bool) (octetOffset : Nat) (octets : List Octet) :
    Nat → Octet :=
  markOctets inverseBitmap (fun aid => (aid >>> 3) &&& 0x7) (octetOffset * 8) 0
    (octets.take (8 - octetOffset % 8)) (fun _ => emptySubblock inverseBitmap)

theorem timToS1gParseBlockMode_eq
    (filled : blockSubblocks inverseBitmap octetOffset octets = subblocks)
    (clamped : clampNumSubblocks maxAid (aidToBlockOffset (octetOffset * 8)) = count)
    (consumes : ∀ encodedBlockInfo,
      consume11nTimOctets ⟨encodedBlockInfo, octets, octetOffset⟩
          (octets.take (8 - octetOffset % 8)).length =
        ⟨encodedBlockInfo, octets', octetOffset'⟩)
    (capacity : Nat)
    (written : List Octet) :
    timToS1gParseBlockMode capacity ⟨written.take capacity, octets, octetOffset⟩
        inverseBitmap maxAid =
      ⟨(written ++ blockControl .block inverseBitmap (aidToBlockOffset (octetOffset * 8)) ::
          setBits 0 ((List.range count).filter (subblocks · != 0)) ::
            ((List.range count).filter (subblocks · != 0)).map subblocks).take capacity,
        octets', octetOffset'⟩ := by
  have marks : markOctets inverseBitmap (fun aid => (aid >>> 3) &&& 0x7) (octetOffset * 8) 0
      (octets.take (8 - octetOffset % 8)) (fun _ => if inverseBitmap then 0xFF else 0x00) =
        subblocks := filled
  simp only [timToS1gParseBlockMode, s1gTimNumSubblocksPerBlock, consumes,
    s1gTimAppendOctet_take, s1gTimReserveOctet_take, marks, clamped]
  by_cases room :
      (written ++ [blockControl .block inverseBitmap
        (aidToBlockOffset (octetOffset * 8))]).length < capacity
  · simp only [room, if_true]
    rw [copySubblocks_take, List.append_assoc, List.singleton_append, List.nil_append]
  · simp only [room, if_false]
    rw [List.append_cons written _ (setBits _ _ :: _), List.take_append_of_le_length
      (Nat.not_lt.mp room)]

theorem timToS1gParseBlockMode_emits (remaining : Remaining octetAt octetOffset octets)
    (nonempty : octets ≠ []) (inverseBitmap : Bool) (limit : maxAid ≤ aidLimit)
    (bounded : ∀ n, maxAid / 8 < n → octetAt n = 0) :
    Emits (fun capacity state =>
        some (timToS1gParseBlockMode capacity state inverseBitmap maxAid))
      octetAt (fun n => keptOctet inverseBitmap (octetAt n)) octetOffset octets := by
  have within := remaining.within
  have positive := List.length_pos_of_ne_nil nonempty
  have reached : octetOffset ≤ maxAid / 8 := by
    by_contra beyond
    exact remaining.trimmed nonempty (bounded octetOffset (by omega))
  have taken : (octets.take (8 - octetOffset % 8)).length =
      min (8 - octetOffset % 8) octets.length := List.length_take
  obtain ⟨octetOffset', octets', consumes, remaining', forward, shorter, zero⟩ :=
    remaining.toUnconsumed.consume
      (show (octets.take (8 - octetOffset % 8)).length ≤ octets.length by omega)
  have blockWithin : octetOffset / 8 < 32 := by omega
  have offset := aidToBlockOffset_eq (show octetOffset < 256 by omega)
  have clamped := clampNumSubblocks_eq limit (show 8 * (octetOffset / 8) ≤ maxAid / 8 by omega)
  have clampLe : clampNumSubblocks maxAid (octetOffset / 8) ≤ 8 := by omega
  let subblocks := blockSubblocks inverseBitmap octetOffset octets
  have marked (m : Nat) (inside : m < 8) : subblocks m = decodeSubblock inverseBitmap
      (octetsFrom octetAt octetOffset (8 * (octetOffset / 8) + m)) := by
    have result := markOctets_eq placed_mod_eight remaining.toUnconsumed inverseBitmap
      (8 * (octetOffset / 8) + m) (8 - octetOffset % 8)
      (by omega) (by omega)
      (by omega)
    rwa [show (8 * (octetOffset / 8) + m) % 8 = m by omega] at result
  let present := fun m => decide (m < clampNumSubblocks maxAid (octetOffset / 8)) &&
    (subblocks m != 0)
  let block := Block.bitmap inverseBitmap (octetOffset / 8) blockWithin present subblocks
  have ended : octetOffset + (octets.take (8 - octetOffset % 8)).length =
        8 * (octetOffset / 8) + 8 ∨
      ∀ n, octetOffset + (octets.take (8 - octetOffset % 8)).length ≤ n →
        keptOctet inverseBitmap (octetAt n) = 0 := by
    by_cases full : 8 - octetOffset % 8 ≤ octets.length
    · omega
    · right
      intro n past
      rw [remaining.ended n (by omega), keptOctet_zero]
  have aids : block.aids = listing (fun n => keptOctet inverseBitmap (octetAt n)) octetOffset
      (8 * (octetOffset / 8) + 8 - octetOffset) := by
    have whole := @bitmap_aids (octetsFrom octetAt octetOffset) _ _ blockWithin present _ marked
      (by
        simpa [present] using (Bool.and_eq_true_iff.mp isPresent).2)
      (by
        intro m inside absent
        obtain past | empty := Bool.and_eq_false_iff.mp absent
        · right
          rw [octetsFrom]
          split
          · rw [decide_eq_false_iff_not] at past
            exact bounded _ (by omega)
          · rfl
        · left
          simpa using empty)
    have skipped := @listing_skip _
      (fun n => keptOctet inverseBitmap (octetsFrom octetAt octetOffset n))
      (8 * (octetOffset / 8)) octetOffset (8 * (octetOffset / 8) + 8) (by omega) (by omega)
      (by
        intro n _ before
        rw [octetsFrom, if_neg (Nat.not_le.mpr before), keptOctet_zero])
    rw [Nat.add_sub_cancel_left] at skipped
    rw [whole, skipped]
    apply listing_congr
    intro n above _
    rw [octetsFrom, if_pos above]
  refine ⟨[block], octetOffset', octets', remaining', by omega, ?_, ?_⟩
  · intro capacity written
    have positions := filter_range_of_le clampLe (subblocks · != 0)
    have state := timToS1gParseBlockMode_eq
      (show blockSubblocks inverseBitmap octetOffset octets = subblocks from rfl)
      (show clampNumSubblocks maxAid (aidToBlockOffset (octetOffset * 8)) = _ from rfl)
      consumes capacity written
    rw [offset, positions] at state
    rw [List.flatMap_singleton]
    exact congrArg some state
  · rw [List.flatMap_singleton, aids]
    have bound := remaining'.within
    exact listing_consumed forward (by omega)
      (by intro n above below; rw [zero n above below, keptOctet_zero]) (by omega) ended

/-! ## Single AID mode -/

theorem appendSingleAids_take (capacity aidBase : Nat) (control bitmap : Octet)
    (positions : List Nat) (written : List Octet) :
    appendSingleAids capacity aidBase control bitmap positions (written.take capacity) =
      (written ++ (positions.filter (bitmap.getLsbD ·)).flatMap fun remainder =>
        [control, BitVec.ofNat 8 ((aidBase ||| remainder) &&& 0x003F)]).take capacity := by
  induction positions generalizing written with
  | nil => simp [appendSingleAids]
  | cons position positions inductionHypothesis =>
    cases set : bitmap.getLsbD position with
    | false => simp [appendSingleAids, set, inductionHypothesis]
    | true =>
      rw [appendSingleAids, s1gTimAppendOctet_take, s1gTimAppendOctet_take,
        inductionHypothesis]
      simp [set]

/-- The blocks of single AIDs for one octet. -/
def singleBlocks (octetOffset : Nat) (octet : Octet) : List Block :=
  ((List.range 8).filter (octet.getLsbD ·)).map fun remainder =>
    Block.single ((8 * octetOffset + remainder) % 2048) (Nat.mod_lt _ (by decide))

theorem singleBlocks_octets (small : octetOffset < 256) (octet : Octet) :
    (singleBlocks octetOffset octet).flatMap Block.octets =
      ((List.range 8).filter (octet.getLsbD ·)).flatMap fun remainder =>
        [blockControl .aid false (octetOffset / 8),
          BitVec.ofNat 8 ((octetOffset * 8 ||| remainder) &&& 0x003F)] := by
  rw [singleBlocks, List.flatMap_map]
  apply List.flatMap_congr
  intro remainder listed
  have inside := List.mem_range.mp (List.mem_of_mem_filter listed)
  have joined : remainder ||| octetOffset * 8 = octetOffset * 8 + remainder :=
    or_mul_two_pow (show remainder < 2 ^ 3 from inside) octetOffset
  have position : (octetOffset * 8 ||| remainder) &&& 0x003F =
      (8 * octetOffset + remainder) % 2048 % 64 := by
    rw [Nat.or_comm, Nat.and_two_pow_sub_one_eq_mod _ 6]
    omega
  have block : (8 * octetOffset + remainder) % 2048 / 64 = octetOffset / 8 := by omega
  rw [position, Block.octets, Block.control, Block.info, block]

theorem singleBlocks_aids (small : octetOffset < 256) (octet : Octet) :
    (singleBlocks octetOffset octet).flatMap Block.aids = entryListing octetOffset octet := by
  rw [singleBlocks, List.flatMap_map, entryListing, ← List.flatMap_singleton' (List.map _ _),
    List.flatMap_map]
  apply List.flatMap_congr
  intro remainder listed
  have inside := List.mem_range.mp (List.mem_of_mem_filter listed)
  rw [Block.aids, Nat.mod_eq_of_lt (by omega)]

theorem timToS1gParseSingleMode_emits (remaining : Remaining octetAt octetOffset octets)
    (nonempty : octets ≠ []) :
    Emits (fun capacity state => some (timToS1gParseSingleMode capacity state false))
      octetAt octetAt octetOffset octets := by
  have within := remaining.within
  have positive := List.length_pos_of_ne_nil nonempty
  obtain ⟨octetOffset', octets', consumes, remaining', forward, shorter, zero⟩ :=
    remaining.toUnconsumed.consume (show 1 ≤ octets.length from positive)
  have head : octets.headD 0 = octetAt octetOffset := by
    have found := remaining.toUnconsumed.getElem?_eq positive
    rw [List.headD_eq_head?_getD, List.head?_eq_getElem?, found]
    rfl
  refine ⟨singleBlocks octetOffset (octetAt octetOffset), octetOffset', octets', remaining',
    by omega, ?_, ?_⟩
  · intro capacity written
    have offset := aidToBlockOffset_eq (show octetOffset < 256 by omega)
    simp only [timToS1gParseSingleMode, consumes, Bool.false_eq_true, if_false, head, offset,
      appendSingleAids_take, singleBlocks_octets (show octetOffset < 256 by omega)]
  · have bound := remaining'.within
    rw [singleBlocks_aids (by omega), ← listing_one]
    have consumed := listing_consumed forward (by omega) zero
      (show octetOffset + 1 ≤ octetOffset + 1 from le_rfl) (Or.inl rfl)
    rwa [Nat.add_sub_cancel_left] at consumed

end Tim
end Morse
