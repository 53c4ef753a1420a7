import Morse.Tim.Blocks

/-!
# Consuming the virtual map

The encoder walks the octets of the virtual map.  `Remaining` says which octets
of the whole bitmap are still to be consumed; consuming octets and trimming
holes keeps it and skips zero octets only.  The marking loops copy the octets
consumed into the subblocks of a block, inverted in inverse mode.
-/

namespace Morse
namespace Tim

open Lib

/-! ## The whole bitmap -/

/-- The octets of the bitmap of a TIM, numbered from AID zero on. -/
def TimIe.octetAt (tim : TimIe) (length octetNumber : Nat) : Octet :=
  if tim.bitmapOffset ≤ octetNumber ∧ octetNumber - tim.bitmapOffset < length then
    tim.virtualMap (octetNumber - tim.bitmapOffset)
  else 0

theorem TimIe.hasAid_iff_octetAt (tim : TimIe) (length aid : Nat) :
    tim.HasAid length aid ↔ (tim.octetAt length (aid / 8)).getLsbD (aid % 8) = true := by
  unfold TimIe.HasAid TimIe.octetAt
  split
  · rename_i within
    simp [within.1, within.2]
  · rename_i outside
    simp only [BitVec.ofNat_eq_ofNat, BitVec.getLsbD_zero, Bool.false_eq_true, iff_false]
    rintro ⟨behind, within, _⟩
    exact outside ⟨behind, within⟩

/-- The octets from `octetOffset` on are still to be consumed, and the bitmap
has no AID past them. -/
structure Unconsumed (octetAt : Nat → Octet) (octetOffset : Nat) (octets : List Octet) :
    Prop where
  octets_eq : octets = (List.range' octetOffset octets.length).map octetAt
  ended : ∀ octetNumber, octetOffset + octets.length ≤ octetNumber → octetAt octetNumber = 0
  within : octetOffset + octets.length ≤ 255

/-- In addition, the octets do not start with a hole. -/
structure Remaining (octetAt : Nat → Octet) (octetOffset : Nat) (octets : List Octet) : Prop
    extends Unconsumed octetAt octetOffset octets where
  trimmed : octets ≠ [] → octetAt octetOffset ≠ 0

theorem Unconsumed.getElem?_eq (unconsumed : Unconsumed octetAt octetOffset octets)
    (inside : index < octets.length) :
    octets[index]? = some (octetAt (octetOffset + index)) := by
  rw [unconsumed.octets_eq, List.getElem?_map, List.getElem?_range' inside, Nat.one_mul]
  rfl

theorem Unconsumed.cons (unconsumed : Unconsumed octetAt octetOffset (octet :: octets)) :
    octet = octetAt octetOffset ∧ Unconsumed octetAt (octetOffset + 1) octets := by
  have split := unconsumed.octets_eq
  rw [List.length_cons, List.range'_succ, List.map_cons, List.cons.injEq] at split
  have within := unconsumed.within
  rw [List.length_cons] at within
  refine ⟨split.1, split.2, ?_, by omega⟩
  intro octetNumber past
  exact unconsumed.ended octetNumber (by rw [List.length_cons]; omega)

theorem Unconsumed.drop (unconsumed : Unconsumed octetAt octetOffset octets) (count : Nat) :
    count ≤ octets.length → Unconsumed octetAt (octetOffset + count) (octets.drop count) := by
  induction count generalizing octetOffset octets with
  | zero => exact fun _ => unconsumed
  | succ count inductionHypothesis =>
    intro inside
    cases octets with
    | nil => simp at inside
    | cons octet octets =>
      rw [List.drop_succ_cons, Nat.add_comm count, ← Nat.add_assoc]
      exact inductionHypothesis unconsumed.cons.2 (by simpa using inside)

theorem Unconsumed.trimHoles (unconsumed : Unconsumed octetAt octetOffset octets) :
    ∃ octetOffset' octets', Tim.trimHoles octets octetOffset = (octets', octetOffset') ∧
      Remaining octetAt octetOffset' octets' ∧ octetOffset ≤ octetOffset' ∧
      octets'.length ≤ octets.length ∧
      ∀ octetNumber, octetOffset ≤ octetNumber → octetNumber < octetOffset' →
        octetAt octetNumber = 0 := by
  induction octets generalizing octetOffset with
  | nil =>
    refine ⟨octetOffset, [], rfl, ⟨unconsumed, fun some => absurd rfl some⟩, le_rfl, le_rfl, ?_⟩
    omega
  | cons octet octets inductionHypothesis =>
    obtain ⟨head, tail⟩ := unconsumed.cons
    by_cases hole : octet = 0
    · have within := unconsumed.within
      rw [List.length_cons] at within
      obtain ⟨octetOffset', octets', trims, remaining, forward, shorter, zero⟩ :=
        inductionHypothesis tail
      refine ⟨octetOffset', octets', ?_, remaining, by omega, ?_, ?_⟩
      · rw [Tim.trimHoles, if_pos hole, Nat.mod_eq_of_lt (by omega), trims]
      · rw [List.length_cons]
        omega
      · intro octetNumber above below
        by_cases first : octetNumber = octetOffset
        · rw [first, ← head, hole]
        · exact zero octetNumber (by omega) below
    · refine ⟨octetOffset, octet :: octets, ?_, ⟨unconsumed, fun _ => head ▸ hole⟩, le_rfl,
        le_rfl, ?_⟩
      · rw [Tim.trimHoles, if_neg hole]
      · omega

theorem Unconsumed.consume (unconsumed : Unconsumed octetAt octetOffset octets)
    (inside : count ≤ octets.length) :
    ∃ octetOffset' octets',
      (∀ encodedBlockInfo, consume11nTimOctets ⟨encodedBlockInfo, octets, octetOffset⟩ count =
        ⟨encodedBlockInfo, octets', octetOffset'⟩) ∧
      Remaining octetAt octetOffset' octets' ∧ octetOffset + count ≤ octetOffset' ∧
      octets'.length + count ≤ octets.length ∧
      ∀ octetNumber, octetOffset + count ≤ octetNumber → octetNumber < octetOffset' →
        octetAt octetNumber = 0 := by
  have within := unconsumed.within
  obtain ⟨octetOffset', octets', trims, remaining, forward, shorter, zero⟩ :=
    (unconsumed.drop count inside).trimHoles
  rw [List.length_drop] at shorter
  refine ⟨octetOffset', octets', ?_, remaining, forward, by omega, zero⟩
  intro encodedBlockInfo
  have small : (octetOffset + count) % 256 = octetOffset + count := Nat.mod_eq_of_lt (by omega)
  simp only [consume11nTimOctets, small, trims]

theorem initialParseState_eq (within : tim.bitmapOffset + length ≤ 255) :
    ∃ octetOffset octets, initialParseState tim length = ⟨[], octets, octetOffset⟩ ∧
      Remaining (tim.octetAt length) octetOffset octets ∧ octets.length ≤ length ∧
      ∀ octetNumber, octetNumber < octetOffset → tim.octetAt length octetNumber = 0 := by
  have unconsumed : Unconsumed (tim.octetAt length) tim.bitmapOffset
      ((List.range length).map tim.virtualMap) := by
    refine ⟨?_, ?_, ?_⟩
    · rw [List.length_map, List.length_range, List.range'_eq_map_range, List.map_map]
      apply List.map_congr_left
      intro index inside
      rw [List.mem_range] at inside
      rw [Function.comp_apply, TimIe.octetAt, Nat.add_sub_cancel_left,
        if_pos ⟨Nat.le_add_right _ _, inside⟩]
    · intro octetNumber past
      rw [List.length_map, List.length_range] at past
      rw [TimIe.octetAt, if_neg (by omega)]
    · rwa [List.length_map, List.length_range]
  obtain ⟨octetOffset, octets, consumes, remaining, forward, shorter, zero⟩ :=
    unconsumed.consume (Nat.zero_le _)
  rw [List.length_map, List.length_range] at shorter
  refine ⟨octetOffset, octets, consumes [], remaining, shorter, ?_⟩
  intro octetNumber below
  by_cases behind : tim.bitmapOffset ≤ octetNumber
  · exact zero octetNumber behind below
  · rw [TimIe.octetAt, if_neg (fun inside => behind inside.1)]

/-! ## Marking subblocks -/

/-- What marking an octet does to the subblock it stands for. -/
def markedSubblock (inverseBitmap : Bool) (subblock octet : Octet) : Octet :=
  if inverseBitmap then subblock &&& ~~~octet else subblock ||| octet

/-- The subblock before any octet is marked. -/
def emptySubblock (inverseBitmap : Bool) : Octet := if inverseBitmap then 0xFF else 0x00

theorem markedSubblock_empty (inverseBitmap : Bool) (octet : Octet) :
    markedSubblock inverseBitmap (emptySubblock inverseBitmap) octet =
      decodeSubblock inverseBitmap octet := by
  cases inverseBitmap with
  | false => simp [markedSubblock, emptySubblock, decodeSubblock]
  | true =>
    have ones : (0xFF : Octet) = BitVec.allOnes 8 := rfl
    simp only [markedSubblock, emptySubblock, decodeSubblock, if_true, ones,
      BitVec.allOnes_and]

theorem decodeSubblock_zero (inverseBitmap : Bool) :
    decodeSubblock inverseBitmap 0 = emptySubblock inverseBitmap := by
  cases inverseBitmap <;> rfl

@[simp] theorem decodeSubblock_decodeSubblock (inverseBitmap : Bool) (octet : Octet) :
    decodeSubblock inverseBitmap (decodeSubblock inverseBitmap octet) = octet := by
  cases inverseBitmap <;> simp [decodeSubblock]

/-- The bits of the subblocks after some bits of one octet are marked. -/
private theorem getLsbD_markBits (inverseBitmap : Bool) (posOf : Nat → Nat) (octet : Octet)
    {aidBase i : Nat} (posM : Nat) {positions : List Nat}
    (placed : ∀ j ∈ positions, j < 8 ∧
      posOf ((aidBase + i * s1gTimNumAidPerSubblock + j) % 65536) = posM ∧
      ((aidBase + i * s1gTimNumAidPerSubblock + j) % 65536) &&& 0x7 = j)
    (subblocks : Nat → Octet)
    (m : Nat)
    {bit : Nat}
    (inside : bit < 8) :
    ((positions.foldl
        (fun subblocks j =>
          if octet.getLsbD j then
            let aid := (aidBase + i * s1gTimNumAidPerSubblock + j) % 65536
            markSubblock inverseBitmap subblocks (posOf aid) (aid &&& 0x7)
          else subblocks) subblocks) m).getLsbD bit =
      if inverseBitmap then
        (subblocks m).getLsbD bit &&
          !(decide (m = posM) && decide (bit ∈ positions) && octet.getLsbD bit)
      else
        (subblocks m).getLsbD bit ||
          (decide (m = posM) && decide (bit ∈ positions) && octet.getLsbD bit) := by
  induction positions generalizing subblocks with
  | nil => cases inverseBitmap <;> simp
  | cons j positions inductionHypothesis =>
    obtain ⟨_, place, position⟩ := placed j List.mem_cons_self
    rw [List.foldl_cons,
      inductionHypothesis (fun other listed => placed other (List.mem_cons_of_mem j listed))]
    cases set : octet.getLsbD j with
    | false =>
      have skipped : (decide (bit ∈ j :: positions) && octet.getLsbD bit) =
          (decide (bit ∈ positions) && octet.getLsbD bit) := by
        by_cases same : bit = j
        · simp [same, set]
        · simp [same]
      simp only [Bool.false_eq_true, if_false, Bool.and_assoc, skipped]
    | true =>
      simp only [if_true, place, position, markSubblock]
      cases inverseBitmap with
      | false =>
        simp only [Bool.false_eq_true, if_false, getLsbD_update_or _ _ _ _ inside]
        by_cases same : bit = j <;> by_cases here : m = posM <;> simp [same, here, set]
      | true =>
        simp only [if_true, getLsbD_update_and_not _ _ _ _ inside]
        by_cases same : bit = j <;> by_cases here : m = posM <;> simp [same, here, set]

/-- The subblock of an AID depends on its octet only. -/
def Placed (posOf place : Nat → Nat) : Prop :=
  ∀ octetNumber bit, octetNumber < 256 → bit < 8 →
    posOf (8 * octetNumber + bit) = place octetNumber

theorem markOctet_eq (placed : Placed posOf place) (small : octetOffset + i < 256)
    (inverseBitmap : Bool) (octet : Octet) (subblocks : Nat → Octet) :
    markOctet inverseBitmap posOf (octetOffset * 8) i octet subblocks =
      Function.update subblocks (place (octetOffset + i))
        (markedSubblock inverseBitmap (subblocks (place (octetOffset + i))) octet) := by
  have spelled (j : Nat) (inside : j < 8) :
      (octetOffset * 8 + i * s1gTimNumAidPerSubblock + j) % 65536 =
        8 * (octetOffset + i) + j := by
    unfold s1gTimNumAidPerSubblock
    omega
  funext m
  apply BitVec.eq_of_getLsbD_eq
  intro bit inside
  rw [markOctet, getLsbD_markBits inverseBitmap posOf octet (place (octetOffset + i))
    (by
      intro j listed
      have below := List.mem_range.mp listed
      refine ⟨below, ?_, ?_⟩
      · rw [spelled j below, placed _ _ small below]
      · rw [spelled j below, Nat.and_two_pow_sub_one_eq_mod _ 3]
        omega) subblocks m inside]
  by_cases here : m = place (octetOffset + i)
  · subst here
    cases inverseBitmap <;> simp [markedSubblock, inside]
  · cases inverseBitmap <;> simp [here]

theorem markOctets_untouched (placed : Placed posOf place)
    (small : octetOffset + i + octets.length ≤ 256) (inverseBitmap : Bool)
    (untouched : ∀ index, index < octets.length → place (octetOffset + i + index) ≠ m)
    (subblocks : Nat → Octet) :
    markOctets inverseBitmap posOf (octetOffset * 8) i octets subblocks m = subblocks m := by
  induction octets generalizing i subblocks with
  | nil => rfl
  | cons octet octets inductionHypothesis =>
    rw [List.length_cons] at small untouched
    have first := untouched 0 (by omega)
    rw [Nat.add_zero] at first
    rw [markOctets, @inductionHypothesis (i + 1) (by omega),
      markOctet_eq placed (by omega), Function.update_of_ne (Ne.symm first)]
    intro index inside
    have later := untouched (index + 1) (by omega)
    rwa [show octetOffset + (i + 1) + index = octetOffset + i + (index + 1) by omega]

theorem markOctets_touched {posOf place : Nat → Nat} (placed : Placed posOf place)
    {octetOffset i : Nat} {octets : List Octet} (small : octetOffset + i + octets.length ≤ 256)
    (inverseBitmap : Bool) {index : Nat} {octet : Octet} (found : octets[index]? = some octet)
    (alone : ∀ other, other < octets.length → other ≠ index →
      place (octetOffset + i + other) ≠ place (octetOffset + i + index))
    (subblocks : Nat → Octet) :
    markOctets inverseBitmap posOf (octetOffset * 8) i octets subblocks
        (place (octetOffset + i + index)) =
      markedSubblock inverseBitmap (subblocks (place (octetOffset + i + index))) octet := by
  induction octets generalizing i index subblocks with
  | nil => cases found
  | cons head octets inductionHypothesis =>
    rw [List.length_cons] at small alone
    cases index with
    | zero =>
      rw [List.getElem?_cons_zero, Option.some.injEq] at found
      subst found
      rw [Nat.add_zero] at alone ⊢
      rw [markOctets, markOctets_untouched placed (i := i + 1) (by omega),
        markOctet_eq placed (by omega), Function.update_self]
      intro other inside
      have apart := alone (other + 1) (by omega) (by omega)
      rwa [show octetOffset + (i + 1) + other = octetOffset + i + (other + 1) by omega]
    | succ index =>
      have apart := alone 0 (by omega) (by omega)
      rw [Nat.add_zero] at apart
      have shifted : octetOffset + i + (index + 1) = octetOffset + (i + 1) + index := by omega
      rw [shifted] at apart alone ⊢
      rw [markOctets, @inductionHypothesis (i + 1) (by omega) _ found,
        markOctet_eq placed (by omega), Function.update_of_ne (Ne.symm apart)]
      intro other inside different
      have separate := alone (other + 1) (by omega) (by omega)
      rwa [show octetOffset + i + (other + 1) = octetOffset + (i + 1) + other by omega]
        at separate

/-- The octets from `octetOffset` on, and zeros before. -/
def octetsFrom (octetAt : Nat → Octet) (octetOffset octetNumber : Nat) : Octet :=
  if octetOffset ≤ octetNumber then octetAt octetNumber else 0

theorem markOctets_eq (placed : Placed posOf place)
    (unconsumed : Unconsumed octetAt octetOffset octets) (inverseBitmap : Bool)
    (octetNumber count : Nat)
    (injective : ∀ first second, octetOffset ≤ first → first < octetOffset + count →
      octetOffset ≤ second → second < octetOffset + count → place first = place second →
        first = second)
    (apart : octetNumber < octetOffset → ∀ other, octetOffset ≤ other →
      other < octetOffset + count → place other ≠ place octetNumber)
    (below : octetNumber < octetOffset + count) :
    markOctets inverseBitmap posOf (octetOffset * 8) 0 (octets.take count)
        (fun _ => emptySubblock inverseBitmap) (place octetNumber) =
      decodeSubblock inverseBitmap (octetsFrom octetAt octetOffset octetNumber) := by
  have within := unconsumed.within
  have taken : (octets.take count).length ≤ octets.length ∧
      (octets.take count).length ≤ count := by
    rw [List.length_take]
    omega
  have small : octetOffset + 0 + (octets.take count).length ≤ 256 := by omega
  unfold octetsFrom
  by_cases behind : octetOffset ≤ octetNumber
  · rw [if_pos behind]
    obtain ⟨index, rfl⟩ := Nat.exists_eq_add_of_le behind
    by_cases inside : index < octets.length
    · have found : (octets.take count)[index]? = some (octetAt (octetOffset + index)) := by
        rw [List.getElem?_take_of_lt (by omega), unconsumed.getElem?_eq inside]
      have marked := markOctets_touched placed small inverseBitmap found
        (fun other otherInside different same =>
          different (by
            have equal := injective (octetOffset + 0 + other) (octetOffset + 0 + index)
              (by omega) (by omega) (by omega) (by omega) same
            omega))
        (fun _ => emptySubblock inverseBitmap)
      rw [Nat.add_zero] at marked
      rw [marked, markedSubblock_empty]
    · have hole := unconsumed.ended (octetOffset + index) (by omega)
      rw [hole, decodeSubblock_zero, markOctets_untouched placed small]
      intro other otherInside same
      have equal := injective (octetOffset + 0 + other) (octetOffset + index)
        (by omega) (by omega) (by omega) (by omega) same
      omega
  · rw [if_neg behind, decodeSubblock_zero, markOctets_untouched placed small]
    intro other otherInside
    exact apart (by omega) _ (by omega) (by omega)

end Tim
end Morse
