import Morse.Tim.RoundTrip

/-!
# Round trips in inverse mode

In inverse mode an octet all of whose AIDs are set becomes an empty subblock.
The encoder leaves empty subblocks out, and the decoder takes subblocks that
are left out for octets without AIDs.  The round trip therefore succeeds
exactly when no such octet is left out.
-/

namespace Morse
namespace Tim

open Lib

/-- No octet with all its AIDs set is left out of the inverse encoding.  The
block bitmap encoder leaves out every such octet; the OLB encoder leaves out
those that fill the first block that has an AID, and those at the tail, the
last of which is the octet of the largest AID in use. -/
def InverseKeepsAll (tim : TimIe) (length : Nat) (encMode : EncMode) (maxAid : Nat) : Prop :=
  match encMode with
  | .block => ∀ octetNumber, tim.octetAt length octetNumber ≠ 0xFF
  | .olb =>
    (¬ ∃ block, (∀ octetNumber, octetNumber < 8 * block → tim.octetAt length octetNumber = 0) ∧
      ∀ m, m < 8 → tim.octetAt length (8 * block + m) = 0xFF) ∧
    tim.octetAt length (maxAid / 8) ≠ 0xFF
  | _ => True

section Inverse

variable {tim : TimIe} {length maxAid pageSliceNo : Nat}

theorem hasAid_of_full (full : tim.octetAt length octetNumber = 0xFF) :
    tim.HasAid length (8 * octetNumber) := by
  rw [TimIe.hasAid_iff_octetAt, Nat.mul_div_cancel_left octetNumber (by decide), full,
    Nat.mul_mod_right]
  decide

theorem getLsbD_of_keptOctet (kept : (keptOctet inverseBitmap octet).getLsbD bit = true) :
    octet.getLsbD bit = true := by
  unfold keptOctet at kept
  split at kept
  · rw [BitVec.ofNat_eq_ofNat, BitVec.getLsbD_zero] at kept
    cases kept
  · exact kept

variable (small : length < s1gTimMaxBlockSize)
variable (bounded : ∀ aid, tim.HasAid length aid → aid ≤ maxAid)
variable (limit : maxAid ≤ aidLimit)
variable (slice : pageSliceNo ≤ s1gTimPageSliceEntirePage)

include small bounded limit in
theorem encodesAids_block_inverse :
    EncodesAids tim length .block true maxAid
      (listing (fun n => keptOctet true (tim.octetAt length n)) 0 256) := by
  obtain ⟨shorter, within, same, extended⟩ := exists_within small bounded limit
  apply extended
  rw [same]
  exact encodesAids_block within (bounded_of_octetAt_eq same bounded) limit true

include small bounded limit slice in
theorem roundTrips_block_inverse_iff (fits : EncodingFits tim length .block true maxAid) :
    RoundTrips tim length .block true maxAid pageSliceNo 0 ↔
      InverseKeepsAll tim length .block maxAid := by
  have mem := mem_listing_octetAt bounded limit
  have kept_le : ∀ aid, aid ∈ listing (fun n => keptOctet true (tim.octetAt length n)) 0 256 →
      aid ≤ aidLimit := by
    intro aid listed
    obtain ⟨_, _, _, kept⟩ := mem_listing.mp listed
    have has := (tim.hasAid_iff_octetAt length aid).mpr (getLsbD_of_keptOctet kept)
    exact le_trans (bounded aid has) limit
  rw [roundTrips_iff_of_encodes (encodesAids_block_inverse small bounded limit) fits
    (pairwise_listing _ _ _) kept_le slice]
  constructor
  · intro every octetNumber full
    have listed := (every (8 * octetNumber)).mpr (hasAid_of_full full)
    rw [mem_listing, Nat.mul_div_cancel_left octetNumber (by decide), full] at listed
    simp [keptOctet] at listed
  · intro keeps aid
    have whole : listing (fun n => keptOctet true (tim.octetAt length n)) 0 256 =
        listing (tim.octetAt length) 0 256 := by
      apply listing_congr
      intro n _ _
      exact if_neg fun full => keeps n full.2
    rw [whole]
    exact mem aid

theorem InverseRange.holds_iff (range : InverseRange octetAt maxAid octetOffset startIdx stopIdx)
    (beyond : ∀ n, maxAid / 8 < n → octetAt n = 0) (before : ∀ n, n < octetOffset → octetAt n = 0)
    (first : octetAt octetOffset ≠ 0) :
    (∀ n, octetAt n ≠ 0 → startIdx ≤ n ∧ n < stopIdx) ↔
      (¬ ∃ block, (∀ n, n < 8 * block → octetAt n = 0) ∧
        ∀ m, m < 8 → octetAt (8 * block + m) = 0xFF) ∧
      octetAt (maxAid / 8) ≠ 0xFF := by
  have ones : (0xFF : Octet) ≠ 0 := by decide
  constructor
  · intro holds
    constructor
    · rintro ⟨block, empty, full⟩
      have firstFull : octetAt (8 * block) ≠ 0 := by
        rw [← Nat.add_zero (8 * block), full 0 (by decide)]
        exact ones
      have lastFull : octetAt (8 * block + 7) ≠ 0 := by
        rw [full 7 (by decide)]
        exact ones
      have same : octetOffset = 8 * block := by
        have above : ¬ 8 * block < octetOffset := fun below => firstFull (before _ below)
        have below : ¬ octetOffset < 8 * block := fun above => first (empty _ above)
        omega
      have start : startIdx = 8 * block := by
        have from_block := range.from_block
        have starts := (holds _ firstFull).1
        omega
      have stops := range.front_stops (by rw [start]; exact full)
      have inside : ¬ maxAid / 8 < 8 * block + 7 := fun past => lastFull (beyond _ past)
      omega
    · intro full
      obtain ⟨_, below⟩ := holds (maxAid / 8) (by rw [full]; exact ones)
      have last : stopIdx - 1 = maxAid / 8 := by
        have bound := range.to_max
        omega
      exact range.tail_stops (by omega) (by rw [last]; exact full)
  · rintro ⟨block, last⟩ n nonzero
    have above : ¬ n < octetOffset := fun below => nonzero (before n below)
    have below : ¬ maxAid / 8 < n := fun past => nonzero (beyond n past)
    have start : startIdx = 8 * (octetOffset / 8) := by
      by_contra trimmed
      have aligned := range.aligned
      have from_block := range.from_block
      refine block ⟨octetOffset / 8, fun m under => before m (by omega), fun m inside => ?_⟩
      exact range.front _ (by omega) (by omega)
    by_contra past
    exact last (range.tail (maxAid / 8) (by omega) le_rfl)

include small bounded limit slice in
theorem roundTrips_olb_inverse_iff (fits : EncodingFits tim length .olb true maxAid) :
    RoundTrips tim length .olb true maxAid pageSliceNo 0 ↔
      InverseKeepsAll tim length .olb maxAid := by
  obtain ⟨shorter, within, same, extended⟩ := exists_within small bounded limit
  have beyond : ∀ n, maxAid / 8 < n → tim.octetAt length n = 0 :=
    fun n past => octetAt_eq_zero_of_bounded bounded past
  have encodings := encodesAids_olb_inverse within (bounded_of_octetAt_eq same bounded) limit
  rw [← same] at encodings
  obtain ⟨zero, encodes⟩ | ⟨octetOffset, startIdx, stopIdx, before, first, range, encodes⟩ :=
    encodings
  · rw [roundTrips_iff_of_encodes (extended _ _ _ encodes) fits List.Pairwise.nil (by simp) slice]
    have ones : (0 : Octet) ≠ 0xFF := by decide
    constructor
    · intro _
      refine ⟨?_, by rw [zero]; exact ones⟩
      rintro ⟨block, _, full⟩
      exact ones ((zero _).symm.trans (full 0 (by decide)))
    · intro _ aid
      rw [TimIe.hasAid_iff_octetAt, zero]
      simp
  · have listed_iff (aid : Nat) :
        aid ∈ listing (tim.octetAt length) startIdx (stopIdx - startIdx) ↔
          tim.HasAid length aid ∧ startIdx ≤ aid / 8 ∧ aid / 8 < stopIdx := by
      have ordered := range.ordered
      rw [mem_listing, TimIe.hasAid_iff_octetAt, Nat.add_sub_cancel' ordered]
      constructor
      · rintro ⟨_, above, below, has⟩
        exact ⟨has, above, below⟩
      · rintro ⟨has, above, below⟩
        exact ⟨by decide, above, below, has⟩
    rw [roundTrips_iff_of_encodes (extended _ _ _ encodes) fits (pairwise_listing _ _ _)
      (fun aid listed => le_trans (bounded aid ((listed_iff aid).mp listed).1) limit) slice,
      InverseKeepsAll, ← range.holds_iff beyond before first]
    constructor
    · intro every n nonzero
      obtain ⟨bit, inside, set⟩ := exists_getLsbD_of_ne_zero nonzero
      have number : (8 * n + bit) / 8 = n := by omega
      have position : (8 * n + bit) % 8 = bit := by omega
      have has : tim.HasAid length (8 * n + bit) := by
        rwa [TimIe.hasAid_iff_octetAt, number, position]
      have kept := (listed_iff _).mp ((every _).mpr has)
      rw [number] at kept
      exact kept.2
    · intro holds aid
      rw [listed_iff]
      refine ⟨fun listed => listed.1, fun has => ⟨has, holds (aid / 8) ?_⟩⟩
      intro zero
      rw [TimIe.hasAid_iff_octetAt, zero] at has
      simp at has

include small bounded limit slice in
/-- In both inverse modes the round trip succeeds exactly when no octet with
all its AIDs set is left out. -/
theorem roundTrips_inverse_iff {encMode : EncMode} (inverse : encMode = .block ∨ encMode = .olb)
    (fits : EncodingFits tim length encMode true maxAid) :
    RoundTrips tim length encMode true maxAid pageSliceNo 0 ↔
      InverseKeepsAll tim length encMode maxAid := by
  obtain rfl | rfl := inverse
  · exact roundTrips_block_inverse_iff small bounded limit slice fits
  · exact roundTrips_olb_inverse_iff small bounded limit slice fits

end Inverse

/-- A TIM with the AIDs of the first octet, all of them. -/
def fullOctetTim : TimIe where
  dtimCount := 1
  dtimPeriod := 3
  bitmapCtrl := 0
  virtualMap := fun index => if index = 0 then 0xFF else 0

private theorem fullOctetTim_bounded : ∀ aid, fullOctetTim.HasAid 1 aid → aid ≤ 7 :=
  fun _ has => Nat.le_of_lt_succ (aid_lt_of_hasAid has)

private theorem fullOctetTim_fits : EncodingFits fullOctetTim 1 .block true 7 :=
  encodingFits_of_encodes
    (encodesAids_block_inverse (by decide) fullOctetTim_bounded (by decide)) (by decide)

theorem roundTrips_inverse_iff_fullOctetTim :
    RoundTrips fullOctetTim 1 .block true 7 31 0 ↔ InverseKeepsAll fullOctetTim 1 .block 7 :=
  roundTrips_inverse_iff (by decide) fullOctetTim_bounded (by decide) (by decide) (Or.inl rfl)
    fullOctetTim_fits

/-- Eight stations of one octet all have traffic, and the inverse block bitmap
tells none of them. -/
theorem not_roundTrips_inverse_fullOctetTim :
    (∀ aid, fullOctetTim.HasAid 1 aid → aid ≤ 7) ∧ EncodingFits fullOctetTim 1 .block true 7 ∧
      ¬ RoundTrips fullOctetTim 1 .block true 7 31 0 := by
  refine ⟨fullOctetTim_bounded, fullOctetTim_fits, ?_⟩
  rw [roundTrips_block_inverse_iff (by decide) fullOctetTim_bounded (by decide) (by decide)
    fullOctetTim_fits]
  intro keeps
  exact keeps 0 (by decide)

end Tim
end Morse
