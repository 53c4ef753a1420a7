import Mathlib.Algebra.BigOperators.Group.Finset.Piecewise
import Morse.Tim.AdeRounds

/-!
# How long an encoding is

What a round appends does not depend on the room that is left.  The length of an encoding is thus
a sum over the octets, or the blocks of octets, in which an AID is set; what does not fit in
`encoded_block_info` is dropped, and what does not fit in an element is written all the same.
-/

namespace Morse
namespace Tim

open Lib

/-! ## Nothing is dropped -/

/-- The length of the element fits in its length octet, and its blocks are all that the encoder
wants to write, whatever room it has. -/
def EncodesWhole (tim : TimIe) (length : Nat) (encMode : EncMode) (inverseBitmap : Bool)
    (maxAid pageSliceNo pageIndex : Nat) : Prop :=
  (timToS1g tim length encMode inverseBitmap maxAid pageSliceNo pageIndex).2 ≤ 255 ∧
    ∀ capacity, s1gTimMaxBlockSize ≤ capacity →
      (encodeBlocks capacity encMode inverseBitmap maxAid tim length).getD [] =
        (timToS1g tim length encMode inverseBitmap maxAid pageSliceNo
          pageIndex).1.encodedBlockInfo

/-- The octets of an element that are left for blocks. -/
def elementRoom : Nat := 252

theorem encodesWhole_iff_of_takes {full : List Octet}
    (takes : ∀ capacity, encodeBlocks capacity encMode inverseBitmap maxAid tim length =
      some (full.take capacity))
    (pageSliceNo pageIndex : Nat) :
    EncodesWhole tim length encMode inverseBitmap maxAid pageSliceNo pageIndex ↔
      full.length ≤ elementRoom := by
  have info : (timToS1g tim length encMode inverseBitmap maxAid pageSliceNo
      pageIndex).1.encodedBlockInfo = full.take s1gTimMaxBlockSize := by
    rw [timToS1g, takes]
    dsimp only
    split
    · rfl
    · next absent =>
        have none : (full.take s1gTimMaxBlockSize).length = 0 := by omega
        exact (List.length_eq_zero_iff.mp none).symm
  have ret : (timToS1g tim length encMode inverseBitmap maxAid pageSliceNo pageIndex).2 ≤ 255 ↔
      (full.take s1gTimMaxBlockSize).length ≤ elementRoom := by
    rw [timToS1g, takes]
    unfold elementRoom
    dsimp only
    split
    · omega
    · omega
  rw [EncodesWhole, info, ret, List.length_take]
  unfold elementRoom s1gTimMaxBlockSize
  constructor
  · omega
  · intro short
    refine ⟨by omega, fun capacity room => ?_⟩
    rw [takes, Option.getD_some, List.take_of_length_le (by omega),
      List.take_of_length_le (by omega)]

/-! ## Rounds -/

section Rounds

variable {encMode : EncMode} {inverseBitmap : Bool} {maxAid : Nat}
variable {Ready : Nat → List Octet → Prop} {wanted : Nat → Nat}

/-- A round appends some octets, whatever the room, and what is wanted from there on gets less
by as many. -/
def Writes (encMode : EncMode) (inverseBitmap : Bool) (maxAid : Nat)
    (Ready : Nat → List Octet → Prop) (wanted : Nat → Nat) (octetOffset : Nat)
    (octets : List Octet) : Prop :=
  ∃ (chunk : List Octet) (octetOffset' : Nat) (octets' : List Octet),
    Ready octetOffset' octets' ∧ octets'.length < octets.length ∧
      (∀ capacity written, encodeRound capacity encMode inverseBitmap maxAid
          ⟨written.take capacity, octets, octetOffset⟩ =
        some ⟨(written ++ chunk).take capacity, octets', octetOffset'⟩) ∧
      chunk.length + wanted octetOffset' = wanted octetOffset

theorem encodeRounds_length
    (rounds : ∀ octetOffset octets, Ready octetOffset octets → octets ≠ [] →
      Writes encMode inverseBitmap maxAid Ready wanted octetOffset octets)
    (ended : ∀ octetOffset, Ready octetOffset [] → wanted octetOffset = 0)
    (fuel : Nat) :
    ∀ octetOffset octets, Ready octetOffset octets → octets.length ≤ fuel →
      ∃ full : List Octet,
        (∀ capacity written,
          (encodeRounds capacity encMode inverseBitmap maxAid fuel
              ⟨written.take capacity, octets, octetOffset⟩).map (·.encodedBlockInfo) =
            some ((written ++ full).take capacity)) ∧
        full.length = wanted octetOffset := by
  induction fuel with
  | zero =>
    intro octetOffset octets ready none
    obtain rfl := List.length_eq_zero_iff.mp (Nat.le_zero.mp none)
    exact ⟨[], fun capacity written => by simp [encodeRounds], (ended octetOffset ready).symm⟩
  | succ fuel ih =>
    intro octetOffset octets ready enough
    by_cases nonempty : octets = []
    · subst nonempty
      exact ⟨[], fun capacity written => by simp [encodeRounds],
        (ended octetOffset ready).symm⟩
    · obtain ⟨first, octetOffset', octets', ready', shorter, round, count⟩ :=
        rounds octetOffset octets ready nonempty
      obtain ⟨rest, runs, total⟩ := ih octetOffset' octets' ready' (by omega)
      refine ⟨first ++ rest, fun capacity written => ?_, ?_⟩
      · by_cases room : written.length < capacity
        · have entered : (written.take capacity).length < capacity := by
            rw [List.length_take]
            omega
          have next := runs capacity (written ++ first)
          rw [List.append_assoc] at next
          rw [encodeRounds, if_pos ⟨nonempty, entered⟩, round]
          exact next
        · have full : ¬ (written.take capacity).length < capacity := by
            rw [List.length_take]
            omega
          rw [encodeRounds, if_neg (fun entered => full entered.2), Option.map_some,
            List.take_append_of_le_length (Nat.not_lt.mp room)]
      · rw [List.length_append]
        omega

end Rounds

/-! ## Sums over the octets in use -/

/-- From an octet on, an AID is set in the given unit of octets. -/
def UsedFrom (octetAt : Nat → Octet) (width octetOffset index : Nat) : Prop :=
  ∃ place < width, octetOffset ≤ width * index + place ∧ octetAt (width * index + place) ≠ 0

instance (octetAt : Nat → Octet) (width octetOffset index : Nat) :
    Decidable (UsedFrom octetAt width octetOffset index) := by
  unfold UsedFrom
  infer_instance

/-- What is wanted for the units in use from an octet on. -/
def wantedFrom (octetAt : Nat → Octet) (width count : Nat) (size : Nat → Nat)
    (octetOffset : Nat) : Nat :=
  ∑ index ∈ Finset.range count,
    if UsedFrom octetAt width octetOffset index then size index else 0

theorem wantedFrom_eq_zero (blank : ∀ n, octetOffset ≤ n → octetAt n = 0) (width count : Nat)
    (size : Nat → Nat) :
    wantedFrom octetAt width count size octetOffset = 0 := by
  refine Finset.sum_eq_zero fun index _ => if_neg ?_
  rintro ⟨place, -, above, nonzero⟩
  exact nonzero (blank _ above)

theorem size_add_wantedFrom {width count octetOffset octetOffset' : Nat} (size : Nat → Nat)
    (within : octetOffset < width * count) (nonzero : octetAt octetOffset ≠ 0)
    (forward : octetOffset ≤ octetOffset')
    (skipped : ∀ n, width * (octetOffset / width + 1) ≤ n → n < octetOffset' → octetAt n = 0)
    (passed : ∀ n, octetOffset' ≤ n → n < width * (octetOffset / width + 1) → octetAt n = 0) :
    size (octetOffset / width) + wantedFrom octetAt width count size octetOffset' =
      wantedFrom octetAt width count size octetOffset := by
  have positive : 0 < width := by
    rcases Nat.eq_zero_or_pos width with rfl | positive
    · omega
    · exact positive
  have inside : octetOffset / width < count := Nat.div_lt_of_lt_mul within
  have place := Nat.div_add_mod octetOffset width
  have below := Nat.mod_lt octetOffset positive
  have here : UsedFrom octetAt width octetOffset (octetOffset / width) :=
    ⟨octetOffset % width, below, by omega, by rwa [place]⟩
  have gone : ¬UsedFrom octetAt width octetOffset' (octetOffset / width) := by
    rintro ⟨other, small, above, set⟩
    refine set (passed _ above ?_)
    rw [Nat.mul_succ]
    omega
  have elsewhere (index : Nat) (different : index ≠ octetOffset / width) :
      UsedFrom octetAt width octetOffset index ↔ UsedFrom octetAt width octetOffset' index := by
    constructor
    · rintro ⟨other, small, above, set⟩
      refine ⟨other, small, ?_, set⟩
      have later : octetOffset / width + 1 ≤ index := by
        by_contra early
        have before : width * (index + 1) ≤ width * (octetOffset / width) :=
          Nat.mul_le_mul_left width (by omega)
        rw [Nat.mul_succ] at before
        omega
      have boundary := Nat.mul_le_mul_left width later
      by_contra short
      exact set (skipped _ (by omega) (by omega))
    · rintro ⟨other, small, above, set⟩
      exact ⟨other, small, by omega, set⟩
  have split (index : Nat) :
      (if UsedFrom octetAt width octetOffset index then size index else 0) =
        (if octetOffset / width = index then size index else 0) +
          if UsedFrom octetAt width octetOffset' index then size index else 0 := by
    by_cases same : octetOffset / width = index
    · subst same
      rw [if_pos here, if_pos rfl, if_neg gone, Nat.add_zero]
    · rw [if_neg same, Nat.zero_add]
      exact if_congr (elsewhere index (Ne.symm same)) rfl rfl
  simp only [wantedFrom, split, Finset.sum_add_distrib, Finset.sum_ite_eq, Finset.mem_range,
    if_pos inside]

/-! ## Single AIDs and ADE blocks -/

/-- How many AIDs of an octet are set. -/
def aidCount (octet : Octet) : Nat := ((List.range 8).filter (octet.getLsbD ·)).length

section Octets

variable {octetAt : Nat → Octet} {octetOffset : Nat} {octets : List Octet}

theorem consume_one (remaining : Remaining octetAt octetOffset octets) (nonempty : octets ≠ [])
    (size : Nat → Nat) :
    ∃ octetOffset' octets',
      (∀ encodedBlockInfo, consume11nTimOctets ⟨encodedBlockInfo, octets, octetOffset⟩ 1 =
        ⟨encodedBlockInfo, octets', octetOffset'⟩) ∧
      Remaining octetAt octetOffset' octets' ∧ octets'.length < octets.length ∧
      octets.headD 0 = octetAt octetOffset ∧ octetOffset < 256 ∧
      size octetOffset + wantedFrom octetAt 1 256 size octetOffset' =
        wantedFrom octetAt 1 256 size octetOffset := by
  have within := remaining.within
  have positive := List.length_pos_of_ne_nil nonempty
  obtain ⟨octetOffset', octets', consumes, remaining', forward, shorter, zero⟩ :=
    remaining.toUnconsumed.consume (show 1 ≤ octets.length from positive)
  have head : octets.headD 0 = octetAt octetOffset := by
    have found := remaining.toUnconsumed.getElem?_eq positive
    rw [List.headD_eq_head?_getD, List.head?_eq_getElem?, found]
    rfl
  have sum := @size_add_wantedFrom octetAt 1 256 octetOffset octetOffset' size (by omega)
    (remaining.trimmed nonempty) (by omega)
    (fun n above below => zero n (by omega) below) (fun n above below => by omega)
  rw [Nat.div_one] at sum
  exact ⟨octetOffset', octets', consumes, remaining', by omega, head, by omega, sum⟩

theorem writes_single (remaining : Remaining octetAt octetOffset octets) (nonempty : octets ≠ [])
    (inverseBitmap : Bool) (maxAid : Nat) :
    Writes .aid inverseBitmap maxAid (Remaining octetAt)
      (wantedFrom octetAt 1 256 fun n => if inverseBitmap then 0 else 2 * aidCount (octetAt n))
      octetOffset octets := by
  obtain ⟨octetOffset', octets', consumes, remaining', shorter, head, small, sum⟩ :=
    consume_one remaining nonempty
      fun n => if inverseBitmap then 0 else 2 * aidCount (octetAt n)
  cases inverseBitmap with
  | true =>
    refine ⟨[], octetOffset', octets', remaining', shorter, fun capacity written => ?_, sum⟩
    simp only [encodeRound, timToS1gParseSingleMode, consumes, if_true, List.append_nil]
  | false =>
    refine ⟨((List.range 8).filter ((octetAt octetOffset).getLsbD ·)).flatMap fun remainder =>
        [blockControl .aid false (aidToBlockOffset (octetOffset * 8)),
          BitVec.ofNat 8 ((octetOffset * 8 ||| remainder) &&& 0x003F)],
      octetOffset', octets', remaining', shorter, fun capacity written => ?_, ?_⟩
    · simp only [encodeRound, timToS1gParseSingleMode, consumes, Bool.false_eq_true, if_false,
        head, appendSingleAids_take]
    · rw [← sum]
      simp [aidCount, List.length_flatMap, Nat.mul_comm]

theorem writes_ade (remaining : Remaining octetAt octetOffset octets) (nonempty : octets ≠ [])
    (inverseBitmap : Bool) (maxAid : Nat) :
    Writes .ade inverseBitmap maxAid (Remaining octetAt)
      (wantedFrom octetAt 1 256 fun n => 2 + aidCount (octetAt n)) octetOffset octets := by
  obtain ⟨octetOffset', octets', consumes, remaining', shorter, head, small, sum⟩ :=
    consume_one remaining nonempty fun n => 2 + aidCount (octetAt n)
  cases octets with
  | nil => exact absurd rfl nonempty
  | cons octet rest =>
    have nonzero := remaining.trimmed nonempty
    subst head
    refine ⟨adeBlock octetOffset (octetAt octetOffset), octetOffset', octets', remaining',
      shorter, fun capacity written => ?_, ?_⟩
    · rw [encodeRound, timToS1gParseAdeMode_eq capacity written nonzero rest small, consumes]
    · rw [← sum, length_adeBlock, aidsInBlock, List.length_map, ← aidCount]

/-! ## Block bitmaps -/

/-- The subblocks of a block that are written. -/
def subblocksWritten (octetAt : Nat → Octet) (inverseBitmap : Bool) (maxAid block : Nat) : Nat :=
  ((List.range (clampNumSubblocks maxAid block)).filter fun m =>
    decodeSubblock inverseBitmap (octetAt (8 * block + m)) != 0).length

/-- In addition, the block of the first octet has no AID before it. -/
structure AtBlock (octetAt : Nat → Octet) (octetOffset : Nat) (octets : List Octet) : Prop
    extends Remaining octetAt octetOffset octets where
  before : octets ≠ [] → ∀ n, 8 * (octetOffset / 8) ≤ n → n < octetOffset → octetAt n = 0

theorem writes_block (ready : AtBlock octetAt octetOffset octets) (nonempty : octets ≠ [])
    (inverseBitmap : Bool) (maxAid : Nat) :
    Writes .block inverseBitmap maxAid (AtBlock octetAt)
      (wantedFrom octetAt 8 32 fun block => 2 + subblocksWritten octetAt inverseBitmap maxAid block)
      octetOffset octets := by
  have remaining := ready.toRemaining
  have within := remaining.within
  have positive := List.length_pos_of_ne_nil nonempty
  have taken : (octets.take (8 - octetOffset % 8)).length =
      min (8 - octetOffset % 8) octets.length := List.length_take
  obtain ⟨octetOffset', octets', consumes, remaining', forward, shorter, zero⟩ :=
    remaining.toUnconsumed.consume
      (show (octets.take (8 - octetOffset % 8)).length ≤ octets.length by omega)
  have offset := aidToBlockOffset_eq (show octetOffset < 256 by omega)
  have clampLe : clampNumSubblocks maxAid (octetOffset / 8) ≤ 8 := Nat.min_le_right _ _
  have marked (m : Nat) (inside : m < 8) :
      blockSubblocks inverseBitmap octetOffset octets m =
        decodeSubblock inverseBitmap (octetAt (8 * (octetOffset / 8) + m)) := by
    have result := markOctets_eq placed_mod_eight remaining.toUnconsumed inverseBitmap
      (8 * (octetOffset / 8) + m) (8 - octetOffset % 8)
      (by omega) (by omega)
      (by omega)
    rw [show (8 * (octetOffset / 8) + m) % 8 = m by omega] at result
    rw [blockSubblocks, result, octetsFrom]
    split
    · rfl
    · rw [ready.before nonempty _ (by omega) (by omega)]
  have same : (List.range (clampNumSubblocks maxAid (octetOffset / 8))).filter
      (blockSubblocks inverseBitmap octetOffset octets · != 0) =
        (List.range (clampNumSubblocks maxAid (octetOffset / 8))).filter fun m =>
          decodeSubblock inverseBitmap (octetAt (8 * (octetOffset / 8) + m)) != 0 := by
    apply List.filter_congr
    intro m listed
    rw [marked m (Nat.lt_of_lt_of_le (List.mem_range.mp listed) clampLe)]
  have sum := @size_add_wantedFrom octetAt 8 32 octetOffset octetOffset'
    (fun block => 2 + subblocksWritten octetAt inverseBitmap maxAid block) (by omega)
    (remaining.trimmed nonempty) (by omega)
    (fun n above below => zero n (by omega) below)
    (fun n above below => remaining.ended n (by omega))
  have ready' : AtBlock octetAt octetOffset' octets' := by
    refine ⟨remaining', fun more n above below => ?_⟩
    have rest := List.length_pos_of_ne_nil more
    exact zero n (by omega) below
  refine ⟨blockControl .block inverseBitmap (aidToBlockOffset (octetOffset * 8)) ::
      setBits 0 ((List.range (clampNumSubblocks maxAid (aidToBlockOffset (octetOffset * 8)))).filter
        (blockSubblocks inverseBitmap octetOffset octets · != 0)) ::
      ((List.range (clampNumSubblocks maxAid (aidToBlockOffset (octetOffset * 8)))).filter
        (blockSubblocks inverseBitmap octetOffset octets · != 0)).map
          (blockSubblocks inverseBitmap octetOffset octets),
    octetOffset', octets', ready', by omega, fun capacity written => ?_, ?_⟩
  · have state := timToS1gParseBlockMode_eq
      (show blockSubblocks inverseBitmap octetOffset octets = _ from rfl)
      (show clampNumSubblocks maxAid (aidToBlockOffset (octetOffset * 8)) = _ from rfl)
      consumes capacity written
    exact congrArg some state
  · rw [← sum, offset, same]
    simp only [List.length_cons, List.length_map, subblocksWritten]
    omega

end Octets

end Tim
end Morse
