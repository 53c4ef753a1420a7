import Morse.Tim.Whole

/-!
# The header of a TIM

The traffic indication of a group shares an octet with the page, and the element is cut short
where nothing is encoded.  Storing AIDs leaves the header alone; what can lose it is an element
without blocks for an entire page.
-/

namespace Morse
namespace Tim

open Lib

/-! ## Storing leaves the header alone -/

/-- `tim->bitmap_ctrl & IEEE80211_TIM_BITMAP_TRAFFIC_INDICATION`. -/
def TimIe.trafficIndication (tim : TimIe) : Octet := tim.bitmapCtrl &&& 0x01#8

/-- Two TIMs with the same indication of group traffic, the same count and the same period. -/
structure TimIe.SameHeader (tim after : TimIe) : Prop where
  dtimCount : after.dtimCount = tim.dtimCount
  dtimPeriod : after.dtimPeriod = tim.dtimPeriod
  trafficIndication : after.trafficIndication = tim.trafficIndication

theorem TimIe.SameHeader.refl (tim : TimIe) : tim.SameHeader tim := ⟨rfl, rfl, rfl⟩

theorem TimIe.SameHeader.trans {first second third : TimIe} (before : first.SameHeader second)
    (behind : second.SameHeader third) :
    first.SameHeader third where
  dtimCount := behind.dtimCount.trans before.dtimCount
  dtimPeriod := behind.dtimPeriod.trans before.dtimPeriod
  trafficIndication := behind.trafficIndication.trans before.trafficIndication

theorem trafficIndication_or_offset (bitmapCtrl offset : Octet) :
    (bitmapCtrl ||| (offset &&& 0xFE#8)) &&& 0x01#8 = bitmapCtrl &&& 0x01#8 := by
  have apart : (offset &&& 0xFE#8) &&& 0x01#8 = 0#8 := by
    rw [BitVec.and_assoc]
    exact BitVec.and_zero
  rw [BitVec.and_or_distrib_right, apart, BitVec.or_zero]

theorem storeAidIntoTim_sameHeader (stored : storeAidIntoTim tim aid = some (after, octetNumber)) :
    tim.SameHeader after := by
  have placed {tim after : TimIe} {octet offset : Nat}
      (stored : storeAtOffset tim octet offset aid = some (after, octetNumber)) :
      tim.SameHeader after := by
    unfold storeAtOffset at stored
    dsimp only at stored
    split at stored
    · cases stored
    · cases stored
      exact ⟨rfl, rfl, rfl⟩
  unfold storeAidIntoTim at stored
  dsimp only at stored
  split at stored
  · cases stored
  · split at stored
    · apply TimIe.SameHeader.trans ?_ (placed stored)
      exact ⟨rfl, rfl, trafficIndication_or_offset _ _⟩
    · split at stored
      · cases stored
      · exact placed stored

theorem serve_sameHeader (requests : List Request) (tim : TimIe) (timLen : Nat) :
    ∃ after ret, finishS1gToTim (serve requests tim timLen) = some (after, ret) ∧
      tim.SameHeader after := by
  induction requests generalizing tim timLen with
  | nil => exact ⟨tim, _, rfl, .refl tim⟩
  | cons request rest ih =>
    obtain ⟨asking, aid⟩ := request
    unfold serve
    cases stored : storeAidIntoTim tim aid with
    | some result =>
      obtain ⟨next, octetNumber⟩ := result
      obtain ⟨after, ret, finishes, same⟩ := ih next (asking.reach timLen octetNumber)
      exact ⟨after, ret, finishes, (storeAidIntoTim_sameHeader stored).trans same⟩
    | none =>
      cases asking with
      | bitmap => exact ⟨tim, _, rfl, .refl tim⟩
      | single => exact ih tim _
      | ade => exact ih tim _

theorem s1gToTim_header (tim : TimIe) (octets : Nat → Octet) (long : 3 < totalLen) :
    ∃ out ret, s1gToTim tim (Memory.ofFun octets) totalLen = some (out, ret) ∧
      out.dtimCount = octets 0 ∧ out.dtimPeriod = octets 1 ∧
      out.trafficIndication = octets 2 &&& 0x01#8 := by
  obtain ⟨out, ret, finishes, same⟩ := serve_sameHeader
    (elementRequests (fun index => octets (3 + index)) (totalLen - 3)
      ((octets 2 &&& 0xC0#8) >>> 6).toNat (totalLen - 3) 0) (preparedTim tim octets) 0
  refine ⟨out, ret, ?_, same.dtimCount, same.dtimPeriod, ?_⟩
  · have mapped (index : Nat) (_ : index < 3) :
        Memory.ofFun octets index = some (octets index) := rfl
    rw [s1gToTim_eq_finish long mapped, shift_ofFun, parseEncodedBlocks_serve]
    exact finishes
  · rw [same.trafficIndication]
    change (octets 2 &&& 0x01#8) &&& 0x01#8 = octets 2 &&& 0x01#8
    rw [BitVec.and_assoc, BitVec.and_self]

/-! ## When nothing is encoded -/

/-- In inverse mode the OLB block is left out if it has no subblock: from the first block with an
AID on, all AIDs up to the largest are set. -/
def OlbAllSet (octetAt : Nat → Octet) (maxAid : Nat) : Prop :=
  ∃ first < 256, (∀ n, n < first → octetAt n = 0) ∧ octetAt first ≠ 0 ∧
    8 * (first / 8) ≤ (maxAid / 8 + 1) % 256 ∧
    ∀ n, 8 * (first / 8) ≤ n → n < (maxAid / 8 + 1) % 256 → octetAt n = 0xFF

/-- Nothing is encoded of the AIDs of a map: there are none, they are left out one by one in
inverse mode, or the inverse OLB block has none to exclude. -/
def EncodesNothing (octetAt : Nat → Octet) (encMode : EncMode) (inverseBitmap : Bool)
    (maxAid : Nat) : Prop :=
  (∀ n, octetAt n = 0) ∨
    inverseBitmap = true ∧ (encMode = .aid ∨ encMode = .olb ∧ OlbAllSet octetAt maxAid)

theorem wantedFrom_zero_iff (size : Nat → Nat)
    (positive : ∀ index, index < count → UsedFrom octetAt width 0 index → 0 < size index) :
    wantedFrom octetAt width count size 0 = 0 ↔
      ∀ index, index < count → ¬UsedFrom octetAt width 0 index := by
  rw [wantedFrom, Finset.sum_eq_zero_iff]
  constructor
  · intro zero index inside used
    have none := zero index (Finset.mem_range.mpr inside)
    rw [if_pos used] at none
    have some := positive index inside used
    omega
  · intro unused index inside
    exact if_neg (unused index (Finset.mem_range.mp inside))

theorem unused_iff {width count : Nat} (wide : 0 < width)
    (ended : ∀ n, width * count ≤ n → octetAt n = 0) :
    (∀ index, index < count → ¬UsedFrom octetAt width 0 index) ↔ ∀ n, octetAt n = 0 := by
  constructor
  · intro unused n
    by_contra nonzero
    have inside : n < width * count := by
      by_contra beyond
      exact nonzero (ended n (Nat.not_lt.mp beyond))
    have place := Nat.div_add_mod n width
    refine unused (n / width) (Nat.div_lt_of_lt_mul inside) ⟨n % width, Nat.mod_lt n wide,
      Nat.zero_le _, ?_⟩
    rwa [place]
  · rintro zero index - ⟨place, -, -, nonzero⟩
    exact nonzero (zero _)

theorem aidCount_pos (nonzero : octet ≠ 0) : 0 < aidCount octet := by
  obtain ⟨bit, inside, set⟩ := exists_getLsbD_of_ne_zero nonzero
  apply List.length_pos_of_mem (a := bit)
  exact List.mem_filter.mpr ⟨List.mem_range.mpr inside, set⟩

section Olb

variable {octetAt : Nat → Octet} {octetOffset : Nat} {octets : List Octet}
variable (remaining : Remaining octetAt octetOffset octets)
variable (before : ∀ n, n < octetOffset → octetAt n = 0)
variable (nonempty : octets ≠ [])

include remaining before nonempty

theorem olbAllSet_iff (maxAid : Nat) :
    OlbAllSet octetAt maxAid ↔
      8 * (octetOffset / 8) ≤ (maxAid / 8 + 1) % 256 ∧
        ∀ n, 8 * (octetOffset / 8) ≤ n → n < (maxAid / 8 + 1) % 256 → octetAt n = 0xFF := by
  have trimmed := remaining.trimmed nonempty
  constructor
  · rintro ⟨first, -, empty, nonzero, ordered, full⟩
    obtain rfl : first = octetOffset := by
      apply Nat.le_antisymm
      · by_contra later
        exact trimmed (empty octetOffset (Nat.not_le.mp later))
      · by_contra earlier
        exact nonzero (before first (Nat.not_le.mp earlier))
    exact ⟨ordered, full⟩
  · rintro ⟨ordered, full⟩
    exact ⟨octetOffset, by omega, before, trimmed, ordered, full⟩

omit before in
theorem olbRange_plain_some (maxAid : Nat) (subblocks : Nat → Octet) :
    let range := olbRange false maxAid octetOffset octets subblocks
    (range.2.2 + 256 - range.2.1) % 256 ≠ 0 := by
  have within := remaining.within
  have positive := List.length_pos_of_ne_nil nonempty
  obtain ⟨-, past, bound⟩ := @olbStopIdx_spec octetAt octetOffset 0 octets
    remaining.toUnconsumed 0
  have range : olbRange false maxAid octetOffset octets subblocks =
      (octetOffset / 8, 8 * (octetOffset / 8), olbStopIdx (octetOffset * 8) 0 octets 0) := by
    simp only [olbRange, Bool.false_eq_true, if_false,
      aidToBlockOffset_eq (show octetOffset < 256 by omega), s1gTimNumSubblocksPerBlock,
      Nat.mul_comm]
  rw [range]
  have inside := past octetOffset (by omega) (remaining.trimmed nonempty)
  dsimp only
  omega

theorem olbRange_inverse_none_iff (maxAid : Nat) :
    let range := olbRange true maxAid octetOffset octets (olbSubblocks true octetOffset octets)
    (range.2.2 + 256 - range.2.1) % 256 = 0 ↔ OlbAllSet octetAt maxAid := by
  have within := remaining.within
  have full (n : Nat) (small : n < 256) :
      olbSubblocks true octetOffset octets n = 0 ↔ octetAt n = 0xFF := by
    rw [olbSubblocks_eq remaining before true small, decode_inverse_eq_zero]
  rw [olbAllSet_iff remaining before nonempty]
  generalize olbSubblocks true octetOffset octets = subblocks at *
  have range : olbRange true maxAid octetOffset octets subblocks =
      (octetOffset / 8 + countEmptyFront subblocks
          ((maxAid / 8 + 1) % 256 - 8 * (octetOffset / 8)) (8 * (octetOffset / 8)) / 8,
        8 * (octetOffset / 8) + 8 * (countEmptyFront subblocks
          ((maxAid / 8 + 1) % 256 - 8 * (octetOffset / 8)) (8 * (octetOffset / 8)) / 8),
        trimTail subblocks (8 * (octetOffset / 8) + 8 * (countEmptyFront subblocks
          ((maxAid / 8 + 1) % 256 - 8 * (octetOffset / 8)) (8 * (octetOffset / 8)) / 8))
          ((maxAid / 8 + 1) % 256)) := by
    simp only [olbRange, if_true, aidToBlockOffset_eq (show octetOffset < 256 by omega),
      s1gTimNumSubblocksPerBlock, Nat.shiftRight_eq_div_pow, Nat.mul_comm (octetOffset / 8) 8]
  rw [range]
  have top : (maxAid / 8 + 1) % 256 < 256 := Nat.mod_lt _ (by decide)
  generalize (maxAid / 8 + 1) % 256 = stop at *
  obtain ⟨bound, empty, -⟩ :=
    countEmptyFront_spec subblocks (stop - 8 * (octetOffset / 8)) (8 * (octetOffset / 8))
  generalize countEmptyFront subblocks (stop - 8 * (octetOffset / 8)) (8 * (octetOffset / 8)) =
    front at *
  have least := trimTail_le subblocks (8 * (octetOffset / 8) + 8 * (front / 8)) stop
  dsimp only
  by_cases ordered : 8 * (octetOffset / 8) ≤ stop
  · obtain ⟨above, -, tail, last⟩ := @trimTail_spec subblocks
      (8 * (octetOffset / 8) + 8 * (front / 8)) stop (by omega)
    constructor
    · intro none
      refine ⟨ordered, fun n behind inside => (full n (by omega)).mp ?_⟩
      by_cases early : n < 8 * (octetOffset / 8) + 8 * (front / 8)
      · have zero := empty (n - 8 * (octetOffset / 8)) (by omega)
        rwa [Nat.add_sub_cancel' behind] at zero
      · exact tail n (by omega) inside
    · rintro ⟨-, ones⟩
      by_cases some : 8 * (octetOffset / 8) + 8 * (front / 8) <
          trimTail subblocks (8 * (octetOffset / 8) + 8 * (front / 8)) stop
      · exact absurd ((full _ (by omega)).mpr (ones _ (by omega) (by omega))) (last some)
      · omega
  · exact iff_of_false (by omega) (fun both => ordered both.1)

end Olb

theorem encodesNothing_iff (within : tim.bitmapOffset + length ≤ 251) (known : encMode ≠ .unknown)
    (inverseBitmap : Bool) (maxAid : Nat) :
    ∃ encoded, encodeBlocks s1gTimMaxBlockSize encMode inverseBitmap maxAid tim length =
        some encoded ∧
      (encoded = [] ↔ EncodesNothing (tim.octetAt length) encMode inverseBitmap maxAid) := by
  have ended (n : Nat) (late : 251 ≤ n) : tim.octetAt length n = 0 := by
    rw [TimIe.octetAt, if_neg (by omega)]
  have taken (full : List Octet) : full.take s1gTimMaxBlockSize = [] ↔ full.length = 0 := by
    rw [List.take_eq_nil_iff, List.length_eq_zero_iff]
    exact or_iff_right (by decide)
  have blank {width count : Nat} (wide : 0 < width) (whole : width * count = 256) :=
    @unused_iff (tim.octetAt length) width count wide fun n late => ended n (by omega)
  cases encMode with
  | block =>
    obtain ⟨full, takes, count⟩ := exists_full within
      (fun _ _ ready nonempty => writes_block ready nonempty inverseBitmap maxAid)
      (fun octetOffset ready => wantedFrom_eq_zero ready.toRemaining.blank _ _ _)
      (fun octetOffset octets remaining before =>
        ⟨⟨remaining, fun _ n _ below => before n below⟩, wantedFrom_start before _ _ _⟩)
    refine ⟨_, takes _, ?_⟩
    rw [taken, count, wantedFrom_zero_iff _ fun index _ _ => Nat.lt_add_right _ (by decide),
      blank (by decide) (by decide), EncodesNothing]
    simp
  | aid =>
    obtain ⟨full, takes, count⟩ := exists_full within
      (fun _ _ ready nonempty => writes_single ready nonempty inverseBitmap maxAid)
      (fun octetOffset ready => wantedFrom_eq_zero ready.blank _ _ _)
      (fun octetOffset octets remaining before =>
        ⟨remaining, wantedFrom_start before _ _ _⟩)
    refine ⟨_, takes _, ?_⟩
    rw [taken, count, EncodesNothing]
    cases inverseBitmap with
    | true =>
      refine iff_of_true ?_ (.inr ⟨rfl, .inl rfl⟩)
      exact Finset.sum_eq_zero fun index _ => ite_self 0
    | false =>
      rw [wantedFrom_zero_iff, blank (by decide) (by decide)]
      · simp
      · rintro index - ⟨place, small, -, nonzero⟩
        obtain rfl : place = 0 := by omega
        rw [Nat.one_mul] at nonzero
        exact Nat.mul_pos (by decide) (aidCount_pos nonzero)
  | olb =>
    obtain ⟨octetOffset, octets, initial, remaining, shorter, before⟩ :=
      initialParseState_eq (show tim.bitmapOffset + length ≤ 255 by omega)
    by_cases nonempty : octets = []
    · subst nonempty
      refine ⟨[], ?_, iff_of_true rfl (.inl (octetAt_eq_zero_of_empty remaining before))⟩
      rw [encodeBlocks, initial]
      cases length with
      | zero => simp [encodeRounds]
      | succ count => simp [encodeRounds]
    · obtain ⟨chunk, octetOffset', round, count⟩ := olb_round remaining inverseBitmap maxAid
      refine ⟨chunk.take s1gTimMaxBlockSize, ?_, ?_⟩
      · rw [encodeBlocks, initial]
        exact encodeRounds_once nonempty octetOffset' round shorter s1gTimMaxBlockSize
      · have used : ¬∀ n, tim.octetAt length n = 0 := fun zero =>
          remaining.trimmed nonempty (zero octetOffset)
        rw [taken, count, EncodesNothing, or_iff_right used]
        cases inverseBitmap with
        | false =>
          have some := olbRange_plain_some remaining nonempty maxAid
            (olbSubblocks false octetOffset octets)
          rw [if_neg some]
          simp
        | true =>
          have none := olbRange_inverse_none_iff remaining before nonempty maxAid
          dsimp only at none
          rw [← none]
          simp
  | ade =>
    obtain ⟨full, takes, count⟩ := exists_full within
      (fun _ _ ready nonempty => writes_ade ready nonempty inverseBitmap maxAid)
      (fun octetOffset ready => wantedFrom_eq_zero ready.blank _ _ _)
      (fun octetOffset octets remaining before =>
        ⟨remaining, wantedFrom_start before _ _ _⟩)
    refine ⟨_, takes _, ?_⟩
    rw [taken, count, wantedFrom_zero_iff _ fun index _ _ => Nat.lt_add_right _ (by decide),
      blank (by decide) (by decide), EncodesNothing]
    simp
  | unknown => exact absurd rfl known

/-! ## The header across the air -/

/-- The memory of an element, with whatever lies behind it. -/
def elementMemory (s1gTim : S1gTimIe) (behind : Nat → Octet) : Memory Octet :=
  Memory.ofFun fun index => s1gTim.octets.getD index (behind index)

/-- Decoding the element that `timToS1g` builds, into a zeroed TIM and with the length that it
returns, yields the header of the input. -/
def KeepsHeader (tim : TimIe) (length : Nat) (encMode : EncMode) (inverseBitmap : Bool)
    (maxAid pageSliceNo pageIndex : Nat) : Prop :=
  ∀ behind, ∃ out ret,
    s1gToTim .zeroed
        (elementMemory (timToS1g tim length encMode inverseBitmap maxAid pageSliceNo pageIndex).1
          behind)
        (timToS1g tim length encMode inverseBitmap maxAid pageSliceNo pageIndex).2 =
      some (out, ret) ∧ tim.SameHeader out

theorem trafficIndication_or_page (bitmapCtrl : Octet) (pageSliceNo pageIndex : Nat) :
    ((bitmapCtrl &&& 0x01#8) ||| (BitVec.ofNat 8 pageSliceNo <<< 1) |||
        (BitVec.ofNat 8 pageIndex <<< 6)) &&& 0x01#8 = bitmapCtrl &&& 0x01#8 := by
  have apart (octet : Octet) (count : Nat) (shifted : count ≠ 0) :
      (octet <<< count) &&& 0x01#8 = 0#8 := by
    apply BitVec.eq_of_getLsbD_eq
    intro bit inside
    by_cases zero : bit = 0
    · have early : bit < count := by omega
      simp [early]
    · simp [zero]
  rw [BitVec.and_or_distrib_right, BitVec.and_or_distrib_right, apart _ 1 (by decide),
    apart _ 6 (by decide), BitVec.or_zero, BitVec.or_zero, BitVec.and_assoc, BitVec.and_self]

theorem pageSlice_eq (bitmapCtrl : Octet) (slice : pageSliceNo ≤ s1gTimPageSliceEntirePage)
    (pageIndex : Nat) :
    ((((bitmapCtrl &&& 0x01#8) ||| (BitVec.ofNat 8 pageSliceNo <<< 1) |||
        (BitVec.ofNat 8 pageIndex <<< 6)) &&& 0x3E#8) >>> 1).toNat = pageSliceNo := by
  have index : (BitVec.ofNat 8 pageIndex <<< 6) &&& 0x3E#8 = 0#8 := by
    have all : ∀ octet : Octet, (octet <<< 6) &&& 0x3E#8 = 0#8 := by decide
    exact all _
  have indication : (bitmapCtrl &&& 0x01#8) &&& 0x3E#8 = 0#8 := by
    rw [BitVec.and_assoc]
    exact BitVec.and_zero
  have number : ∀ number ≤ 31,
      (((BitVec.ofNat 8 number <<< 1) &&& 0x3E#8) >>> 1).toNat = number := by
    decide
  rw [BitVec.and_or_distrib_right, BitVec.and_or_distrib_right, index, indication,
    BitVec.or_zero, BitVec.zero_or]
  exact number pageSliceNo slice

theorem s1gToTim_without_blocks (dtimCount dtimPeriod bitmapControl : Octet)
    (behind : Nat → Octet) :
    s1gToTim .zeroed (elementMemory ⟨dtimCount, dtimPeriod, bitmapControl, []⟩ behind) 3 =
      if ((bitmapControl &&& 0x3E#8) >>> 1).toNat = s1gTimPageSliceEntirePage then
        some (⟨dtimCount, dtimPeriod, 0, Function.update (fun _ => 0) 0 0⟩, sizeofTimIe)
      else
        some (⟨dtimCount, dtimPeriod, bitmapControl &&& 0x01#8,
          Function.update (fun _ => 0) 0 0⟩, sizeofTimIe) := rfl

/-- For every TIM and whatever page slice, the header comes through unless there is group
traffic, nothing is encoded, and the slice stands for the entire page. -/
theorem keepsHeader_iff {tim : TimIe} {length : Nat} (within : tim.bitmapOffset + length ≤ 251)
    {encMode : EncMode} (known : encMode ≠ .unknown) (inverseBitmap : Bool) (maxAid : Nat)
    {pageSliceNo : Nat} (slice : pageSliceNo ≤ s1gTimPageSliceEntirePage) (pageIndex : Nat) :
    KeepsHeader tim length encMode inverseBitmap maxAid pageSliceNo pageIndex ↔
      ¬(tim.trafficIndication ≠ 0 ∧ pageSliceNo = s1gTimPageSliceEntirePage ∧
        EncodesNothing (tim.octetAt length) encMode inverseBitmap maxAid) := by
  obtain ⟨encoded, blocks, nothing⟩ := encodesNothing_iff within known inverseBitmap maxAid
  rw [← nothing, KeepsHeader, timToS1g, blocks]
  dsimp only
  by_cases present : tim.bitmapCtrl &&& 0x01#8 ≠ 0 ∨ 0 < encoded.length
  · rw [if_pos present]
    by_cases empty : encoded = []
    · subst empty
      have traffic : tim.trafficIndication ≠ 0 := present.resolve_right (Nat.lt_irrefl 0)
      by_cases whole : pageSliceNo = s1gTimPageSliceEntirePage
      · refine iff_of_false (fun keeps => ?_) (not_not.mpr ⟨traffic, whole, rfl⟩)
        obtain ⟨out, ret, decodes, same⟩ := keeps fun _ => 0
        rw [List.length_nil, s1gToTim_without_blocks, pageSlice_eq _ slice, if_pos whole] at decodes
        cases decodes
        exact traffic (same.trafficIndication.symm.trans BitVec.zero_and)
      · refine iff_of_true (fun behind => ?_) fun all => whole all.2.1
        rw [List.length_nil, s1gToTim_without_blocks, pageSlice_eq _ slice, if_neg whole]
        refine ⟨_, _, rfl, rfl, rfl, ?_⟩
        change ((_ ||| _ ||| _) &&& 0x01#8) &&& 0x01#8 = _
        rw [BitVec.and_assoc]
        exact trafficIndication_or_page _ _ _
    · refine iff_of_true (fun behind => ?_) fun all => empty all.2.2
      have long := List.length_pos_iff.mpr empty
      obtain ⟨out, ret, decodes, count, period, indication⟩ := s1gToTim_header .zeroed
        (fun index => (S1gTimIe.octets ⟨tim.dtimCount, tim.dtimPeriod,
          (tim.bitmapCtrl &&& 0x01#8) ||| (BitVec.ofNat 8 pageSliceNo <<< 1) |||
            (BitVec.ofNat 8 pageIndex <<< 6), encoded⟩).getD index (behind index))
        (show 3 < 2 + encoded.length + 1 by omega)
      exact ⟨out, ret, decodes, count, period,
        indication.trans (trafficIndication_or_page _ _ _)⟩
  · rw [if_neg present]
    have indication : tim.trafficIndication = 0 := by
      by_contra traffic
      exact present (.inl traffic)
    refine iff_of_true (fun behind => ⟨_, _, rfl, rfl, rfl, ?_⟩) fun all => all.1 indication
    exact BitVec.zero_and.trans indication.symm

/-- A TIM with group traffic and no AIDs. -/
def groupTrafficTim : TimIe where
  dtimCount := 0
  dtimPeriod := 1
  bitmapCtrl := 1
  virtualMap := fun _ => 0

theorem keepsHeader_groupTrafficTim :
    KeepsHeader groupTrafficTim 1 .block false 0 0 0 := by
  refine (@keepsHeader_iff groupTrafficTim 1 (by decide) .block (by decide) false 0 0
    (by decide) 0).mpr fun all => ?_
  exact absurd all.2.1 (by decide)

/-- For an entire page it is lost. -/
theorem not_keepsHeader_groupTrafficTim :
    ¬KeepsHeader groupTrafficTim 1 .block false 0 s1gTimPageSliceEntirePage 0 := by
  intro keeps
  obtain ⟨out, ret, decodes, same⟩ := keeps fun _ => 0
  have cleared : s1gToTim .zeroed
      (elementMemory (timToS1g groupTrafficTim 1 .block false 0 s1gTimPageSliceEntirePage 0).1
        fun _ => 0)
      (timToS1g groupTrafficTim 1 .block false 0 s1gTimPageSliceEntirePage 0).2 =
    some (⟨0, 1, 0, Function.update TimIe.zeroed.virtualMap 0 0⟩, sizeofTimIe) := rfl
  cases cleared.symm.trans decodes
  exact absurd same.trafficIndication (by decide)

end Tim
end Morse
