import Mathlib.Data.List.GetD
import Morse.Tim.AdeRounds

/-!
# The first octet in ADE mode and back

An octet that does not come back as it was makes the decoder leave its block an octet early, or
store AIDs that are not set.  In the first octet there are no others that could make up for it.
-/

namespace Morse
namespace Tim

open Lib

/-! ## The block of the first octet -/

/-- What becomes of what the block of the first octet asks for. -/
def adeAccount (octet : Octet) : Account :=
  account
    (elementRequests (fun index => (adeBlock 0 octet).getD index 0) (adeBlock 0 octet).length 0
      (adeBlock 0 octet).length 0) .blank

/-- The same AIDs, in whatever order. -/
def SameAids (first second : List Nat) : Prop :=
  (∀ aid ∈ first, aid ∈ second) ∧ ∀ aid ∈ second, aid ∈ first

instance (first second : List Nat) : Decidable (SameAids first second) := by
  unfold SameAids
  infer_instance

theorem adeAccount_spec :
    ∀ octet : Octet, octet ≠ 0 →
      (adeAccount octet).stopped = false ∧ (adeAccount octet).refusedSingle = false ∧
        (SameAids (adeAccount octet).stored (entryListing 0 octet) ↔ AdeExact 0 octet) ∧
        (AdeExact 0 octet →
          walkBlocks 0 (adeBlock 0 octet).length none (adeBlock 0 octet) = true) := by
  decide +kernel

/-! ## Decoding an element in memory -/

/-- The octets of an element, and zeros behind it. -/
def itemsOf (element : List Octet) : Nat → Octet := fun index => element.getD index 0

theorem ofList_eq_below (element : List Octet) :
    Memory.ofList element = Memory.below (itemsOf element) element.length := by
  funext index
  rw [Memory.ofList, Memory.below]
  split
  · next inside => rw [itemsOf, List.getD_eq_getElem?_getD, List.getElem?_eq_getElem inside]; rfl
  · next outside => exact List.getElem?_eq_none (Nat.not_lt.mp outside)

section Memories

variable {element : List Octet} {totalLen : Nat}

theorem parse_ofList_defers (tim : TimIe) (pageIndex : Nat) :
    Defers
      (parseEncodedBlocks ((Memory.ofList element).shift 3) (totalLen - 3) pageIndex
        (totalLen - 3) 0 tim 0)
      (parseEncodedBlocks ((Memory.ofFun (itemsOf element)).shift 3) (totalLen - 3) pageIndex
        (totalLen - 3) 0 tim 0) := by
  rw [ofList_eq_below]
  exact parseEncodedBlocks_defers ((Memory.below_extends fun _ _ => rfl).shift 3) _ _ _ _ _ _

theorem s1gToTim_ofFun_of_ofList (long : 3 < totalLen) (present : totalLen ≤ element.length)
    (decoded : s1gToTim tim (Memory.ofList element) totalLen = some result) :
    s1gToTim tim (Memory.ofFun (itemsOf element)) totalLen = some result := by
  have mapped : ∀ index, index < 3 →
      Memory.ofList element index = some (itemsOf element index) := by
    intro index below
    rw [ofList_eq_below, Memory.below, if_pos (by omega)]
  rw [s1gToTim_eq_finish long mapped] at decoded
  rw [@s1gToTim_eq_finish tim (itemsOf element) totalLen long (Memory.ofFun (itemsOf element))
    fun _ _ => rfl, ← decoded]
  rcases @parse_ofList_defers element totalLen (preparedTim tim (itemsOf element))
    ((itemsOf element 2 &&& 0xC0#8) >>> 6).toNat with faults | same
  · rw [faults] at decoded
    cases decoded
  · rw [same]

theorem isSome_s1gToTim_ofList (long : 3 < totalLen) (present : totalLen ≤ element.length)
    (whole : BlocksWhole tim (itemsOf element) totalLen) :
    (s1gToTim tim (Memory.ofList element) totalLen).isSome = true := by
  have mapped : ∀ index, index < 3 →
      Memory.ofList element index = some (itemsOf element index) := by
    intro index below
    rw [ofList_eq_below, Memory.below, if_pos (by omega)]
  have mapped' : ∀ index, index < 3 →
      Memory.below (itemsOf element) totalLen index = some (itemsOf element index) :=
    fun index below => if_pos (by omega)
  have extends' : (Memory.below (itemsOf element) totalLen).Extends (Memory.ofList element) := by
    intro index item found
    rw [Memory.below] at found
    split at found
    · rw [ofList_eq_below, Memory.below, if_pos (by omega)]
      exact found
    · cases found
  have inside := (isSome_s1gToTim_below_iff tim (itemsOf element) totalLen).mpr whole
  rw [s1gToTim_eq_finish long mapped', ← Option.ne_none_iff_isSome, ne_eq,
    finishS1gToTim_eq_none] at inside
  rw [s1gToTim_eq_finish long mapped, ← Option.ne_none_iff_isSome, ne_eq,
    finishS1gToTim_eq_none]
  rcases parseEncodedBlocks_defers (extends'.shift 3) (totalLen - 3)
    ((itemsOf element 2 &&& 0xC0#8) >>> 6).toNat (totalLen - 3) 0
    (preparedTim tim (itemsOf element)) 0 with faults | same
  · exact absurd faults inside
  · rwa [← same]

end Memories

/-! ## Encoding the first octet -/

theorem trimHoles_zeros (zeros : ∀ octet ∈ octets, octet = 0) (octetOffset : Nat) :
    (trimHoles octets octetOffset).1 = [] := by
  induction octets generalizing octetOffset with
  | nil => rfl
  | cons octet rest ih =>
    rw [trimHoles, if_pos (zeros octet List.mem_cons_self)]
    exact ih (fun other found => zeros other (List.mem_cons_of_mem _ found)) _

section Encoding

variable {tim : TimIe} {length : Nat}
variable (small : ∀ aid, tim.HasAid length aid → aid ≤ adeAidLimit)

include small

theorem virtualMap_eq_zero (inside : index < length) (past : 0 < tim.bitmapOffset + index) :
    tim.virtualMap index = 0 := by
  have zero := octetAt_eq_zero_of_bounded small
    (show adeAidLimit / 8 < tim.bitmapOffset + index from past)
  rwa [TimIe.octetAt, Nat.add_sub_cancel_left, if_pos ⟨Nat.le_add_right _ _, inside⟩] at zero

theorem initialParseState_blank (blank : tim.octetAt length 0 = 0) :
    ∃ octetOffset, initialParseState tim length = ⟨[], [], octetOffset⟩ := by
  have zeros : ∀ octet ∈ (List.range length).map tim.virtualMap, octet = 0 := by
    intro octet found
    obtain ⟨index, listed, rfl⟩ := List.mem_map.mp found
    have inside := List.mem_range.mp listed
    by_cases past : 0 < tim.bitmapOffset + index
    · exact virtualMap_eq_zero small inside past
    · obtain rfl : index = 0 := by omega
      rwa [TimIe.octetAt, if_pos (by omega), Nat.zero_sub] at blank
  refine ⟨(trimHoles ((List.range length).map tim.virtualMap)
    ((tim.bitmapOffset + 0) % 256)).2, ?_⟩
  rw [initialParseState, consume11nTimOctets]
  simp only [List.drop_zero, trimHoles_zeros zeros]

theorem encodeBlocks_ade (nonzero : tim.octetAt length 0 ≠ 0) (inverseBitmap : Bool)
    (maxAid : Nat) :
    encodeBlocks s1gTimMaxBlockSize .ade inverseBitmap maxAid tim length =
      some (adeBlock 0 (tim.octetAt length 0)) := by
  have present : tim.bitmapOffset ≤ 0 ∧ 0 - tim.bitmapOffset < length := by
    by_contra absent
    rw [TimIe.octetAt, if_neg absent] at nonzero
    exact nonzero rfl
  have offset : tim.bitmapOffset = 0 := by omega
  have first : tim.octetAt length 0 = tim.virtualMap 0 := by
    rw [TimIe.octetAt, if_pos present, Nat.zero_sub]
  rw [first] at nonzero ⊢
  obtain ⟨count, rfl⟩ := Nat.exists_eq_add_of_lt present.2
  rw [Nat.zero_sub, Nat.zero_add] at *
  have zeros : ∀ octet ∈ ((List.range count).map fun index => tim.virtualMap (index + 1)),
      octet = 0 := by
    intro octet found
    obtain ⟨index, listed, rfl⟩ := List.mem_map.mp found
    have inside := List.mem_range.mp listed
    exact virtualMap_eq_zero small (by omega) (by omega)
  have start : initialParseState tim (count + 1) =
      ⟨[], tim.virtualMap 0 ::
        ((List.range count).map fun index => tim.virtualMap (index + 1)), 0⟩ := by
    rw [initialParseState, consume11nTimOctets, List.range_succ_eq_map, List.map_cons,
      List.map_map]
    simp only [List.drop_zero, offset, trimHoles, if_neg nonzero]
    rfl
  have fits : (adeBlock 0 (tim.virtualMap 0)).length ≤ s1gTimMaxBlockSize := by
    have bound := length_aidsInBlock_le 0 (tim.virtualMap 0)
    rw [length_adeBlock]
    unfold s1gTimMaxBlockSize
    omega
  have round (capacity : Nat) : encodeRound capacity .ade inverseBitmap maxAid
      ⟨[], tim.virtualMap 0 ::
        ((List.range count).map fun index => tim.virtualMap (index + 1)), 0⟩ =
      some ⟨(adeBlock 0 (tim.virtualMap 0)).take capacity, [],
        (trimHoles ((List.range count).map fun index => tim.virtualMap (index + 1)) 1).2⟩ := by
    have written := timToS1gParseAdeMode_eq capacity [] nonzero
      ((List.range count).map fun index => tim.virtualMap (index + 1)) (show 0 < 256 by decide)
    rw [List.take_nil, List.nil_append] at written
    rw [encodeRound, written, consume11nTimOctets]
    simp only [List.drop_one, List.tail_cons, trimHoles_zeros zeros]
  rw [encodeBlocks, start, encodeRounds_once (List.cons_ne_nil _ _) _ round (by simp),
    List.take_of_length_le fits]

end Encoding

/-! ## The round trip -/

section RoundTrip

variable {tim : TimIe} {length : Nat}

theorem timToS1g_ade (small : ∀ aid, tim.HasAid length aid → aid ≤ adeAidLimit)
    (nonzero : tim.octetAt length 0 ≠ 0) (inverseBitmap : Bool) (maxAid : Nat)
    (slice : pageSliceNo ≤ s1gTimPageSliceEntirePage) :
    ∃ (bitmapControl : Octet) (padding : Nat), ((bitmapControl &&& 0xC0#8) >>> 6).toNat = 0 ∧
      (timToS1g tim length .ade inverseBitmap maxAid pageSliceNo 0).1.octets =
        tim.dtimCount :: tim.dtimPeriod :: bitmapControl ::
          (adeBlock 0 (tim.octetAt length 0) ++ List.replicate padding 0) ∧
      (timToS1g tim length .ade inverseBitmap maxAid pageSliceNo 0).2 =
        3 + (adeBlock 0 (tim.octetAt length 0)).length := by
  have written := encodeBlocks_ade small nonzero inverseBitmap maxAid
  have some : 0 < (adeBlock 0 (tim.octetAt length 0)).length := by
    rw [length_adeBlock]
    omega
  have page := pageIndex_eq_zero _ (trafficIndication_cases tim.bitmapCtrl) pageSliceNo
    (Nat.lt_succ_of_le slice)
  refine ⟨_, s1gTimMaxBlockSize - (adeBlock 0 (tim.octetAt length 0)).length, page, ?_, ?_⟩
  · simp only [timToS1g, written, if_pos (Or.inr some), S1gTimIe.octets]
  · simp only [timToS1g, written, if_pos (Or.inr some)]
    omega

section Element

variable {dtimCount dtimPeriod bitmapControl : Octet}
variable (page : ((bitmapControl &&& 0xC0#8) >>> 6).toNat = 0)

theorem itemsOf_ade (octet : Octet) (padding index : Nat) :
    itemsOf (dtimCount :: dtimPeriod :: bitmapControl ::
        (adeBlock 0 octet ++ List.replicate padding 0)) (3 + index) =
      (adeBlock 0 octet).getD index 0 := by
  rw [Nat.add_comm 3]
  change (adeBlock 0 octet ++ List.replicate padding 0).getD index 0 = _
  by_cases inside : index < (adeBlock 0 octet).length
  · rw [List.getD_append _ _ _ _ inside]
  · rw [List.getD_append_right _ _ _ _ (Nat.not_lt.mp inside),
      List.getD_eq_default _ _ (Nat.not_lt.mp inside)]
    by_cases within : index - (adeBlock 0 octet).length < padding
    · rw [List.getD_replicate _ within]
    · rw [List.getD_eq_default _ _ (by simpa using Nat.not_lt.mp within)]

include page

theorem elementAccount_ade (octet : Octet) (padding : Nat) :
    elementAccount (itemsOf (dtimCount :: dtimPeriod :: bitmapControl ::
        (adeBlock 0 octet ++ List.replicate padding 0))) (3 + (adeBlock 0 octet).length) =
      adeAccount octet := by
  have control : itemsOf (dtimCount :: dtimPeriod :: bitmapControl ::
      (adeBlock 0 octet ++ List.replicate padding 0)) 2 = bitmapControl := rfl
  rw [elementAccount, control, page, funext (itemsOf_ade octet padding),
    Nat.add_sub_cancel_left, adeAccount]

theorem blocksWhole_ade (octet : Octet) (padding : Nat)
    (walked : walkBlocks 0 (adeBlock 0 octet).length none (adeBlock 0 octet) = true) :
    BlocksWhole .zeroed (itemsOf (dtimCount :: dtimPeriod :: bitmapControl ::
      (adeBlock 0 octet ++ List.replicate padding 0))) (3 + (adeBlock 0 octet).length) := by
  have control : itemsOf (dtimCount :: dtimPeriod :: bitmapControl ::
      (adeBlock 0 octet ++ List.replicate padding 0)) 2 = bitmapControl := rfl
  have whole : (List.range (adeBlock 0 octet).length).map
      (fun index => (adeBlock 0 octet).getD index 0) = adeBlock 0 octet := by
    apply List.ext_getElem
    · simp
    · intro index _ inside
      simp [inside]
  rw [BlocksWhole, control, page, Nat.add_sub_cancel_left,
    funext (itemsOf_ade octet padding), whole]
  exact walked

end Element

theorem roundTrips_ade_iff (small : ∀ aid, tim.HasAid length aid → aid ≤ adeAidLimit)
    (inverseBitmap : Bool) (maxAid : Nat) (slice : pageSliceNo ≤ s1gTimPageSliceEntirePage) :
    RoundTrips tim length .ade inverseBitmap maxAid pageSliceNo 0 ↔
      AdeExact 0 (tim.octetAt length 0) := by
  have has (aid : Nat) : tim.HasAid length aid ↔
      aid ∈ entryListing 0 (tim.octetAt length 0) := by
    rw [mem_entryListing, tim.hasAid_iff_octetAt]
    constructor
    · intro set
      have first : aid / 8 = 0 := by
        have low := small aid ((tim.hasAid_iff_octetAt length aid).mpr set)
        unfold adeAidLimit at low
        omega
      rw [first] at set
      exact ⟨by decide, first, set⟩
    · rintro ⟨-, first, set⟩
      rwa [first]
  by_cases blank : tim.octetAt length 0 = 0
  · obtain ⟨octetOffset, initial⟩ := initialParseState_blank small blank
    have written (capacity : Nat) :
        encodeBlocks capacity .ade inverseBitmap maxAid tim length = some [] := by
      rw [encodeBlocks, initial]
      cases length with
      | zero => rfl
      | succ count => simp [encodeRounds]
    have encodes : EncodesAids tim length .ade inverseBitmap maxAid [] :=
      ⟨[], fun capacity => by rw [written, List.flatMap_nil, List.take_nil], rfl⟩
    have fits : EncodingFits tim length .ade inverseBitmap maxAid := by
      intro capacity encoded same
      rw [written] at same
      rw [← Option.some.inj same]
      exact Nat.zero_le _
    rw [roundTrips_iff_of_encodes encodes fits List.Pairwise.nil (fun _ none => by cases none)
      slice, blank]
    refine iff_of_true (fun aid => ?_) (by decide)
    rw [has, blank, entryListing_zero]
  · obtain ⟨bitmapControl, padding, page, octets, ret⟩ :=
      timToS1g_ade small blank inverseBitmap maxAid slice
    have accounted := @elementAccount_ade tim.dtimCount tim.dtimPeriod bitmapControl page
      (tim.octetAt length 0) padding
    have whole := @blocksWhole_ade tim.dtimCount tim.dtimPeriod bitmapControl page
      (tim.octetAt length 0) padding
    rw [RoundTrips, octets, ret]
    generalize tim.octetAt length 0 = octet at *
    have some : 2 ≤ (adeBlock 0 octet).length := by
      rw [length_adeBlock]
      omega
    have long : 3 < 3 + (adeBlock 0 octet).length := by omega
    have present : 3 + (adeBlock 0 octet).length ≤ (tim.dtimCount :: tim.dtimPeriod ::
        bitmapControl :: (adeBlock 0 octet ++ List.replicate padding 0)).length := by
      simp only [List.length_cons, List.length_append]
      omega
    obtain ⟨going, plain, same, walked⟩ := adeAccount_spec octet blank
    obtain ⟨out, lists, decoded⟩ := s1gToTim_account _ (Nat.le_of_lt long)
    rw [accounted] at lists decoded
    have reach : (adeAccount octet).timLen = highest (adeAccount octet).stored := by
      rw [Account.timLen, plain, if_neg Bool.false_ne_true, Nat.max_zero]
    rw [going, if_neg Bool.false_ne_true, reach] at decoded
    have shown : sizeofTimIe + highest (adeAccount octet).stored - 3 =
        highest (adeAccount octet).stored + 1 := by
      unfold sizeofTimIe
      omega
    rw [← same]
    constructor
    · rintro ⟨out', ret', decoded', every⟩
      have again := s1gToTim_ofFun_of_ofList long present decoded'
      rw [decoded] at again
      obtain ⟨rfl, rfl⟩ := Prod.mk.inj (Option.some.inj again)
      rw [shown] at every
      have listed (aid : Nat) : aid ∈ (adeAccount octet).stored ↔ aid ∈ entryListing 0 octet := by
        rw [← lists.hasAid_iff, every, has]
      exact ⟨fun aid => (listed aid).mp, fun aid => (listed aid).mpr⟩
    · intro listed
      obtain ⟨result, found⟩ := Option.isSome_iff_exists.mp
        (isSome_s1gToTim_ofList long present (whole (walked (same.mp listed))))
      have again := s1gToTim_ofFun_of_ofList long present found
      rw [decoded] at again
      obtain rfl := Option.some.inj again
      refine ⟨_, _, found, fun aid => ?_⟩
      rw [shown, lists.hasAid_iff, has]
      exact ⟨listed.1 aid, listed.2 aid⟩

end RoundTrip

/--
Each block that the loop appends denotes the AIDs of its octet exactly when it fits and the
octet has at most two AIDs, or three from the first of its block on.  A TIM with AIDs in its
first octet only is decoded as it was exactly when that octet is such a one.
-/
theorem ade_faithful_iff (tim : TimIe) (length : Nat) :
    (∀ state, AdeLoop tim length state → ∀ octet rest, state.virtualMap11n = octet :: rest →
      state.encodedBlockInfo.length < s1gTimMaxBlockSize →
      (AdeDenotes (adeAppended state) (entryListing state.octetOffset11n octet) ↔
        state.encodedBlockInfo.length + 2 + (aidsInBlock state.octetOffset11n octet).length ≤
            s1gTimMaxBlockSize ∧
          AdeExact state.octetOffset11n octet)) ∧
      ((∀ aid, tim.HasAid length aid → aid ≤ adeAidLimit) →
        ∀ inverseBitmap maxAid pageSliceNo, pageSliceNo ≤ s1gTimPageSliceEntirePage →
          (RoundTrips tim length .ade inverseBitmap maxAid pageSliceNo 0 ↔
            AdeExact 0 (tim.octetAt length 0))) :=
  ⟨fun _ loop _ _ consumes room => adeAppended_denotes_iff loop.trimmed consumes room,
    fun small inverseBitmap maxAid _ slice => roundTrips_ade_iff small inverseBitmap maxAid slice⟩

/-- A TIM of one octet. -/
def firstOctetTim (octet : Octet) : TimIe where
  dtimCount := 0
  dtimPeriod := 1
  bitmapCtrl := 0
  virtualMap := fun index => if index = 0 then octet else 0

theorem aid_le_of_firstOctetTim (aid : Nat) (has : (firstOctetTim octet).HasAid 1 aid) :
    aid ≤ adeAidLimit := by
  have within := has.2.1
  have zero : ((0 : Octet) &&& 0xFE#8).toNat = 0 := by decide
  have offset : (firstOctetTim octet).bitmapOffset = 0 := zero
  unfold adeAidLimit
  omega

/-- The AIDs 1, 2 and 3 come back as 1, 2 and 4. -/
theorem not_roundTrips_ade_threeAids :
    ¬RoundTrips (firstOctetTim 0x0E) 1 .ade false 7 31 0 := by
  rw [roundTrips_ade_iff aid_le_of_firstOctetTim false 7 (by decide)]
  decide

theorem ade_faithful_iff_fromZero :
    RoundTrips (firstOctetTim 0xA1) 1 .ade false 7 31 0 :=
  ((ade_faithful_iff (firstOctetTim 0xA1) 1).2 aid_le_of_firstOctetTim false 7 31
    (by decide)).mpr (by decide)

end Tim
end Morse
