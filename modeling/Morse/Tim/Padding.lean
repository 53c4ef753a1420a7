import Morse.Tim.Consume

/-!
# Trailing zeros of the virtual map

Octets of zeros at the end of the virtual map do not change what the encoder
writes: a run over the padded map simulates the run over the map without them.
-/

namespace Morse
namespace Tim

open Lib

/-- The first state has the octets of the second and then zeros; once the
octets are consumed, neither has any. -/
structure Padded (first second : TimToS1gParseState) : Prop where
  encodedBlockInfo_eq : first.encodedBlockInfo = second.encodedBlockInfo
  short : first.virtualMap11n.length < s1gTimMaxBlockSize
  octets : first.virtualMap11n = [] ∧ second.virtualMap11n = [] ∨
    second.virtualMap11n ≠ [] ∧ first.octetOffset11n = second.octetOffset11n ∧
      ∃ count, first.virtualMap11n = second.virtualMap11n ++ List.replicate count 0

private theorem trimHoles_replicate (count octetOffset : Nat) :
    (trimHoles (List.replicate count 0) octetOffset).1 = [] := by
  induction count generalizing octetOffset with
  | zero => rfl
  | succ count inductionHypothesis =>
    rw [List.replicate_succ, trimHoles, if_pos rfl, inductionHypothesis]

/-- Trimming holes with and without the padding. -/
private theorem trimHoles_append (octets : List Octet) (count octetOffset : Nat) :
    (trimHoles (octets ++ List.replicate count 0) octetOffset).1 = [] ∧
        (trimHoles octets octetOffset).1 = [] ∨
      (trimHoles octets octetOffset).1 ≠ [] ∧
        trimHoles (octets ++ List.replicate count 0) octetOffset =
          ((trimHoles octets octetOffset).1 ++ List.replicate count 0,
            (trimHoles octets octetOffset).2) := by
  induction octets generalizing octetOffset with
  | nil => exact Or.inl ⟨trimHoles_replicate count octetOffset, rfl⟩
  | cons octet octets inductionHypothesis =>
    by_cases hole : octet = 0
    · rw [List.cons_append, trimHoles, trimHoles, if_pos hole, if_pos hole]
      exact inductionHypothesis _
    · rw [List.cons_append, trimHoles, trimHoles, if_neg hole, if_neg hole]
      exact Or.inr ⟨List.cons_ne_nil _ _, rfl⟩

private theorem trimHoles_length (octets : List Octet) (octetOffset : Nat) :
    (trimHoles octets octetOffset).1.length ≤ octets.length := by
  induction octets generalizing octetOffset with
  | nil => exact le_rfl
  | cons octet octets inductionHypothesis =>
    rw [trimHoles]
    split
    · exact le_trans (inductionHypothesis _) (Nat.le_succ _)
    · exact le_rfl

theorem consume11nTimOctets_length (state : TimToS1gParseState) (numOctets : Nat) :
    (consume11nTimOctets state numOctets).virtualMap11n.length ≤
      state.virtualMap11n.length - numOctets := by
  refine le_trans (trimHoles_length _ _) ?_
  rw [List.length_drop]

theorem padded_consume (written : List Octet) (octetOffset : Nat)
    (short : octets.length + count < s1gTimMaxBlockSize)
    (consumed : numOctets = numOctets' ∧ numOctets ≤ octets.length ∨
      octets.length ≤ numOctets ∧ octets.length ≤ numOctets') :
    Padded
      (consume11nTimOctets ⟨written, octets ++ List.replicate count 0, octetOffset⟩ numOctets)
      (consume11nTimOctets ⟨written, octets, octetOffset⟩ numOctets') := by
  have shorter := consume11nTimOctets_length
    ⟨written, octets ++ List.replicate count 0, octetOffset⟩ numOctets
  have size : (octets ++ List.replicate count (0 : Octet)).length = octets.length + count := by
    simp
  refine ⟨rfl, lt_of_le_of_lt shorter (by simp only [size]; omega), ?_⟩
  obtain ⟨rfl, inside⟩ | ⟨past, past'⟩ := consumed
  · simp only [consume11nTimOctets, List.drop_append_of_le_length inside]
    obtain ⟨empty, empty'⟩ | ⟨nonempty, trims⟩ :=
      trimHoles_append (octets.drop numOctets) count ((octetOffset + numOctets) % 256)
    · exact Or.inl ⟨empty, empty'⟩
    · rw [trims]
      exact Or.inr ⟨nonempty, rfl, count, rfl⟩
  · left
    have rest : (octets ++ List.replicate count (0 : Octet)).drop numOctets =
        List.replicate (count - (numOctets - octets.length)) 0 := by
      rw [List.drop_append, List.drop_of_length_le past, List.nil_append, List.drop_replicate]
    simp only [consume11nTimOctets, rest, List.drop_of_length_le past', trimHoles,
      trimHoles_replicate, and_self]

/-- Marking octets of zeros changes nothing. -/
private theorem markOctets_replicate (inverseBitmap : Bool) (posOf : Nat → Nat)
    (aidBase i count : Nat) (subblocks : Nat → Octet) :
    markOctets inverseBitmap posOf aidBase i (List.replicate count 0) subblocks = subblocks := by
  induction count generalizing i with
  | zero => rfl
  | succ count inductionHypothesis =>
    have unmarked : markOctet inverseBitmap posOf aidBase i 0 subblocks = subblocks :=
      List.foldl_fixed' (fun _ => if_neg (by simp)) _
    rw [List.replicate_succ, markOctets, unmarked, inductionHypothesis]

private theorem markOctets_append_zeros (inverseBitmap : Bool) (posOf : Nat → Nat) (aidBase i : Nat)
    (octets : List Octet) (count : Nat) (subblocks : Nat → Octet) :
    markOctets inverseBitmap posOf aidBase i (octets ++ List.replicate count 0) subblocks =
      markOctets inverseBitmap posOf aidBase i octets subblocks := by
  induction octets generalizing i subblocks with
  | nil => exact markOctets_replicate inverseBitmap posOf aidBase i count subblocks
  | cons octet octets inductionHypothesis =>
    rw [List.cons_append, markOctets, markOctets, inductionHypothesis]

/-- Octets of zeros do not raise the stop index. -/
private theorem olbStopIdx_replicate (aidBase i count stopIdx : Nat) :
    olbStopIdx aidBase i (List.replicate count 0) stopIdx = stopIdx := by
  induction count generalizing i with
  | zero => rfl
  | succ count inductionHypothesis =>
    rw [List.replicate_succ, olbStopIdx, List.foldl_fixed' (fun _ => if_neg (by simp)),
      inductionHypothesis]

private theorem olbStopIdx_append_zeros (aidBase i : Nat) (octets : List Octet)
    (count stopIdx : Nat) :
    olbStopIdx aidBase i (octets ++ List.replicate count 0) stopIdx =
      olbStopIdx aidBase i octets stopIdx := by
  induction octets generalizing i stopIdx with
  | nil => exact olbStopIdx_replicate aidBase i count stopIdx
  | cons octet octets inductionHypothesis =>
    rw [List.cons_append, olbStopIdx, olbStopIdx, inductionHypothesis]

section Rounds

variable {octets written : List Octet} {count octetOffset maxAid : Nat} {inverseBitmap : Bool}

/-- The states before a round that has octets to consume. -/
private theorem padded_append (nonempty : octets ≠ [])
    (short : octets.length + count < s1gTimMaxBlockSize) :
    Padded ⟨written, octets ++ List.replicate count 0, octetOffset⟩
      ⟨written, octets, octetOffset⟩ :=
  ⟨rfl, by simpa using short, Or.inr ⟨nonempty, rfl, count, rfl⟩⟩

private theorem Padded.write (padded : Padded first second) (encodedBlockInfo : List Octet) :
    Padded { first with encodedBlockInfo := encodedBlockInfo }
      { second with encodedBlockInfo := encodedBlockInfo } :=
  ⟨rfl, padded.short, padded.octets⟩

theorem padded_block (capacity : Nat) (short : octets.length + count < s1gTimMaxBlockSize) :
    Padded
      (timToS1gParseBlockMode capacity ⟨written, octets ++ List.replicate count 0, octetOffset⟩
        inverseBitmap maxAid)
      (timToS1gParseBlockMode capacity ⟨written, octets, octetOffset⟩ inverseBitmap maxAid) := by
  let boundary := s1gTimNumSubblocksPerBlock - octetOffset % s1gTimNumSubblocksPerBlock
  have taken : (octets ++ List.replicate count (0 : Octet)).take boundary =
      octets.take boundary ++ List.replicate (min (boundary - octets.length) count) 0 := by
    rw [List.take_append, List.take_replicate]
  have counts :
      ((octets ++ List.replicate count (0 : Octet)).take boundary).length =
          (octets.take boundary).length ∧
        ((octets ++ List.replicate count (0 : Octet)).take boundary).length ≤ octets.length ∨
      octets.length ≤ ((octets ++ List.replicate count (0 : Octet)).take boundary).length ∧
        octets.length ≤ (octets.take boundary).length := by
    simp only [List.length_take, List.length_append, List.length_replicate]
    omega
  have consumed := padded_consume written octetOffset short counts
  have marks (posOf : Nat → Nat) (subblocks : Nat → Octet) :
      markOctets inverseBitmap posOf (octetOffset * 8) 0
          ((octets ++ List.replicate count 0).take boundary) subblocks =
        markOctets inverseBitmap posOf (octetOffset * 8) 0 (octets.take boundary) subblocks := by
    rw [taken, markOctets_append_zeros]
  simp only [boundary] at marks consumed
  simp only [timToS1gParseBlockMode, marks]
  cases s1gTimReserveOctet capacity (s1gTimAppendOctet capacity written _) with
  | none => exact consumed.write _
  | some reserved => exact consumed.write _

theorem padded_single (capacity : Nat) (nonempty : octets ≠ [])
    (short : octets.length + count < s1gTimMaxBlockSize) :
    Padded
      (timToS1gParseSingleMode capacity ⟨written, octets ++ List.replicate count 0, octetOffset⟩
        inverseBitmap)
      (timToS1gParseSingleMode capacity ⟨written, octets, octetOffset⟩ inverseBitmap) := by
  have consumed := padded_consume written octetOffset short
    (Or.inl ⟨rfl, show 1 ≤ octets.length from List.length_pos_of_ne_nil nonempty⟩)
  have head : (octets ++ List.replicate count (0 : Octet)).headD 0 = octets.headD 0 := by
    cases octets with
    | nil => exact absurd rfl nonempty
    | cons octet octets => rfl
  cases inverseBitmap with
  | true => exact consumed
  | false =>
    simp only [timToS1gParseSingleMode, head, Bool.false_eq_true, if_false]
    exact consumed.write _

theorem padded_olb (capacity : Nat) (short : octets.length + count < s1gTimMaxBlockSize) :
    Padded
      (timToS1gParseOlbMode capacity ⟨written, octets ++ List.replicate count 0, octetOffset⟩
        inverseBitmap maxAid)
      (timToS1gParseOlbMode capacity ⟨written, octets, octetOffset⟩ inverseBitmap maxAid) := by
  have size : (octets ++ List.replicate count (0 : Octet)).length = octets.length + count := by
    simp
  have whole : (octets ++ List.replicate count (0 : Octet)).take s1gTimMaxBlockSize =
      octets ++ List.replicate count 0 := List.take_of_length_le (by omega)
  have whole' : octets.take s1gTimMaxBlockSize = octets := List.take_of_length_le (by omega)
  have consumed := padded_consume written octetOffset short
    (Or.inr ⟨show octets.length ≤ (octets ++ List.replicate count (0 : Octet)).length by omega,
      le_refl octets.length⟩)
  have range (subblocks : Nat → Octet) :
      olbRange inverseBitmap maxAid octetOffset (octets ++ List.replicate count 0) subblocks =
        olbRange inverseBitmap maxAid octetOffset octets subblocks := by
    simp only [olbRange, olbStopIdx_append_zeros]
  simp only [timToS1gParseOlbMode, whole, whole', markOctets_append_zeros, range]
  generalize markOctets inverseBitmap _ _ 0 octets _ = subblocks
  split
  · exact consumed
  · exact consumed.write _

theorem padded_ade (capacity : Nat) (nonempty : octets ≠ [])
    (short : octets.length + count < s1gTimMaxBlockSize) :
    Padded
      (timToS1gParseAdeMode capacity ⟨written, octets ++ List.replicate count 0, octetOffset⟩)
      (timToS1gParseAdeMode capacity ⟨written, octets, octetOffset⟩) := by
  have consumed := padded_consume written octetOffset short
    (Or.inl ⟨rfl, show 1 ≤ octets.length from List.length_pos_of_ne_nil nonempty⟩)
  have head : (octets ++ List.replicate count (0 : Octet)).headD 0 = octets.headD 0 := by
    cases octets with
    | nil => exact absurd rfl nonempty
    | cons octet octets => rfl
  simp only [timToS1gParseAdeMode, head]
  split
  · exact consumed.write _
  · exact consumed.write _

end Rounds

/-- The octets that a round consumes; at least one where there are any. -/
def roundConsumes (encMode : EncMode) (state : TimToS1gParseState) : Nat :=
  match encMode with
  | .block => (state.virtualMap11n.take
      (s1gTimNumSubblocksPerBlock - state.octetOffset11n % s1gTimNumSubblocksPerBlock)).length
  | .olb => (state.virtualMap11n.take s1gTimMaxBlockSize).length
  | .aid | .ade | .unknown => 1

theorem roundConsumes_pos (encMode : EncMode) (nonempty : state.virtualMap11n ≠ []) :
    0 < roundConsumes encMode state := by
  have positive := List.length_pos_of_ne_nil nonempty
  cases encMode with
  | block =>
    simp only [roundConsumes, s1gTimNumSubblocksPerBlock, List.length_take]
    omega
  | olb =>
    simp only [roundConsumes, s1gTimMaxBlockSize, List.length_take]
    omega
  | _ => exact Nat.one_pos

theorem encodeRound_virtualMap
    (round : encodeRound capacity encMode inverseBitmap maxAid state = some state') :
    state'.virtualMap11n =
      (consume11nTimOctets state (roundConsumes encMode state)).virtualMap11n := by
  cases encMode with
  | block =>
    cases round
    unfold timToS1gParseBlockMode
    dsimp only
    split <;> rfl
  | aid =>
    cases round
    cases inverseBitmap <;> rfl
  | olb =>
    cases round
    unfold timToS1gParseOlbMode
    dsimp only
    generalize markOctets inverseBitmap _ _ 0 _ _ = subblocks
    split <;> rfl
  | ade =>
    cases round
    unfold timToS1gParseAdeMode
    dsimp only
    split <;> rfl
  | unknown => cases round

theorem encodeRound_length (nonempty : state.virtualMap11n ≠ [])
    (round : encodeRound capacity encMode inverseBitmap maxAid state = some state') :
    state'.virtualMap11n.length < state.virtualMap11n.length := by
  have positive := List.length_pos_of_ne_nil nonempty
  have consumes := roundConsumes_pos encMode nonempty
  have shorter := consume11nTimOctets_length state (roundConsumes encMode state)
  rw [encodeRound_virtualMap round]
  omega

theorem padded_encodeRound (padded : Padded first second) (nonempty : second.virtualMap11n ≠ [])
    (capacity maxAid : Nat) (encMode : EncMode) (inverseBitmap : Bool) :
    encodeRound capacity encMode inverseBitmap maxAid first = none ∧
        encodeRound capacity encMode inverseBitmap maxAid second = none ∨
      ∃ first' second', encodeRound capacity encMode inverseBitmap maxAid first = some first' ∧
        encodeRound capacity encMode inverseBitmap maxAid second = some second' ∧
        Padded first' second' := by
  obtain ⟨firstWritten, firstOctets, firstOffset⟩ := first
  obtain ⟨written, octets, octetOffset⟩ := second
  obtain ⟨sameWritten, short, ⟨_, empty⟩ | ⟨_, sameOffset, count, extended⟩⟩ := padded
  · exact absurd empty nonempty
  · dsimp only at sameWritten sameOffset extended short nonempty
    subst sameWritten sameOffset extended
    have small : octets.length + count < s1gTimMaxBlockSize := by simpa using short
    cases encMode with
    | block => exact Or.inr ⟨_, _, rfl, rfl, padded_block capacity small⟩
    | aid => exact Or.inr ⟨_, _, rfl, rfl, padded_single capacity nonempty small⟩
    | olb => exact Or.inr ⟨_, _, rfl, rfl, padded_olb capacity small⟩
    | ade => exact Or.inr ⟨_, _, rfl, rfl, padded_ade capacity nonempty small⟩
    | unknown => exact Or.inl ⟨rfl, rfl⟩

theorem padded_encodeRounds {capacity maxAid : Nat} {encMode : EncMode} {inverseBitmap : Bool}
    (fuel : Nat) :
    ∀ (more : Nat) (first second : TimToS1gParseState), Padded first second →
      second.virtualMap11n.length ≤ fuel → fuel ≤ more →
      (encodeRounds capacity encMode inverseBitmap maxAid more first).map
          (·.encodedBlockInfo) =
        (encodeRounds capacity encMode inverseBitmap maxAid fuel second).map
          (·.encodedBlockInfo) := by
  induction fuel with
  | zero =>
    intro more first second padded enough _
    have empty := List.length_eq_zero_iff.mp (Nat.le_zero.mp enough)
    obtain ⟨firstEmpty, _⟩ | ⟨nonempty, _⟩ := padded.octets
    · have same := padded.encodedBlockInfo_eq
      cases more <;> simp [encodeRounds, firstEmpty, same]
    · exact absurd empty nonempty
  | succ fuel inductionHypothesis =>
    intro more first second padded enough larger
    obtain ⟨more, rfl⟩ : ∃ rest, more = rest + 1 := ⟨more - 1, by omega⟩
    have same := padded.encodedBlockInfo_eq
    have together : (first.virtualMap11n ≠ [] ∧ first.encodedBlockInfo.length < capacity) ↔
        second.virtualMap11n ≠ [] ∧ second.encodedBlockInfo.length < capacity := by
      rw [same]
      obtain ⟨firstEmpty, empty⟩ | ⟨nonempty, _, count, extended⟩ := padded.octets
      · simp [firstEmpty, empty]
      · simp [extended, nonempty]
    rw [encodeRounds, encodeRounds]
    by_cases entered : second.virtualMap11n ≠ [] ∧ second.encodedBlockInfo.length < capacity
    · rw [if_pos (together.mpr entered), if_pos entered]
      obtain ⟨fails, fails'⟩ | ⟨first', second', rounds, rounds', padded'⟩ :=
        padded_encodeRound padded entered.1 capacity maxAid encMode inverseBitmap
      · rw [fails, fails']
      · have shorter := encodeRound_length entered.1 rounds'
        rw [rounds, rounds']
        exact inductionHypothesis more first' second' padded' (by omega) (by omega)
    · rw [if_neg (fun firstEntered => entered (together.mp firstEntered)), if_neg entered,
        Option.map_some, Option.map_some, same]

theorem encodeBlocks_of_zeros (within : shorter ≤ length) (small : length < s1gTimMaxBlockSize)
    (zeros : ∀ index, shorter ≤ index → index < length → tim.virtualMap index = 0) (capacity : Nat)
    (encMode : EncMode) (inverseBitmap : Bool) (maxAid : Nat) :
    encodeBlocks capacity encMode inverseBitmap maxAid tim length =
      encodeBlocks capacity encMode inverseBitmap maxAid tim shorter := by
  obtain ⟨count, rfl⟩ := Nat.exists_eq_add_of_le within
  have split : (List.range (shorter + count)).map tim.virtualMap =
      (List.range shorter).map tim.virtualMap ++ List.replicate count 0 := by
    rw [List.range_add, List.map_append, List.map_map]
    congr 1
    rw [List.eq_replicate_iff]
    refine ⟨by simp, ?_⟩
    intro octet listed
    obtain ⟨distance, inside, rfl⟩ := List.mem_map.mp listed
    rw [List.mem_range] at inside
    exact zeros _ (Nat.le_add_right _ _) (Nat.add_lt_add_left inside _)
  have start : Padded (initialParseState tim (shorter + count))
    (initialParseState tim shorter) := by
    rw [initialParseState, split]
    exact padded_consume _ _ (by simpa using small) (Or.inl ⟨rfl, Nat.zero_le _⟩)
  have enough : (initialParseState tim shorter).virtualMap11n.length ≤ shorter := by
    refine le_trans (consume11nTimOctets_length _ _) ?_
    simp
  exact padded_encodeRounds shorter _ _ _ start enough (Nat.le_add_right _ _)

end Tim
end Morse
