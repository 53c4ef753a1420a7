import Morse.Tim.Walk

/-!
# Reading within the element

`s1gToTim` checks its index before each encoded block only.  It stays inside
the element exactly when every block that it comes to is whole, and then no
octet past the element has an influence on its result.  Whatever it reads, it writes
within the virtual map.
-/

namespace Morse
namespace Tim

open Lib

/-! ## Larger memories -/

/-- The second run has the result of the first, unless the first one faults. -/
def Defers (first second : Except Stop α) : Prop :=
  first = .error .fault ∨ first = second

theorem Defers.refl (run : Except Stop α) : Defers run run := Or.inr rfl

theorem Defers.bind {next next' : α → Except Stop β} (defers : Defers first second)
    (later : ∀ result, Defers (next result) (next' result)) :
    Defers (first >>= next) (second >>= next') := by
  obtain rfl | rfl := defers
  · exact Or.inl rfl
  · cases first with
    | error stop => exact Or.inr rfl
    | ok result => exact later result

section Extension

variable {memory larger : Memory Octet} (extended : memory.Extends larger)

include extended

theorem readOctet_defers (index : Nat) :
    Defers (readOctet memory index) (readOctet larger index) := by
  cases mapped : memory index with
  | none => exact Or.inl (by rw [readOctet, mapped])
  | some octet => exact Or.inr (by rw [readOctet, readOctet, mapped, extended index octet mapped])

theorem parseBlockSubblocks_defers (blockBitmap : Octet) (blockOffset pageIndex : Nat)
    (inverseBitmap : Bool) (positions : List Nat) (index : Nat) (tim : TimIe) (timLen : Nat) :
    Defers
      (parseBlockSubblocks memory blockBitmap blockOffset pageIndex inverseBitmap positions index
        tim timLen)
      (parseBlockSubblocks larger blockBitmap blockOffset pageIndex inverseBitmap positions index
        tim timLen) := by
  induction positions generalizing index tim timLen with
  | nil => exact Defers.refl _
  | cons posM positions inductionHypothesis =>
    rw [parseBlockSubblocks, parseBlockSubblocks]
    split
    · exact (readOctet_defers extended index).bind fun _ =>
        (Defers.refl _).bind fun _ => inductionHypothesis _ _ _
    · exact inductionHypothesis _ _ _

theorem parseOlbSubblocks_defers (blockOffset pageIndex : Nat) (inverseBitmap : Bool)
    (positions : List Nat) (index : Nat) (tim : TimIe) (timLen : Nat) :
    Defers
      (parseOlbSubblocks memory blockOffset pageIndex inverseBitmap positions index tim timLen)
      (parseOlbSubblocks larger blockOffset pageIndex inverseBitmap positions index
        tim timLen) := by
  induction positions generalizing index tim timLen with
  | nil => exact Defers.refl _
  | cons subblockM positions inductionHypothesis =>
    exact (readOctet_defers extended index).bind fun _ =>
      (Defers.refl _).bind fun _ => inductionHypothesis _ _ _

theorem readOctets_defers (indices : List Nat) :
    Defers (readOctets memory indices) (readOctets larger indices) := by
  induction indices with
  | nil => exact Defers.refl _
  | cons index indices inductionHypothesis =>
    exact (readOctet_defers extended index).bind fun _ =>
      inductionHypothesis.bind fun _ => Defers.refl _

theorem parseAdeMode_defers (blockOffset pageIndex : Nat) (inverseBitmap : Bool) (tim : TimIe) :
    Defers (s1gToTimParseAdeMode memory blockOffset pageIndex inverseBitmap tim)
      (s1gToTimParseAdeMode larger blockOffset pageIndex inverseBitmap tim) := by
  refine (readOctet_defers extended 0).bind fun first => ?_
  dsimp only
  split
  · exact Defers.refl _
  · split
    · exact (readOctet_defers extended 1).bind fun _ => Defers.refl _
    · exact (readOctets_defers extended _).bind fun _ => Defers.refl _

theorem parseEncodedBlock_defers (control : Octet) (pageIndex : Nat) (tim : TimIe) (timLen : Nat) :
    Defers (parseEncodedBlock memory control pageIndex tim timLen)
      (parseEncodedBlock larger control pageIndex tim timLen) := by
  simp only [parseEncodedBlock]
  cases EncMode.ofBits (control &&& 0x03#8) with
  | block =>
    exact (readOctet_defers extended 0).bind fun _ =>
      parseBlockSubblocks_defers extended _ _ _ _ _ _ _ _
  | aid => exact (readOctet_defers extended 0).bind fun _ => Defers.refl _
  | olb =>
    exact (readOctet_defers extended 0).bind fun _ =>
      parseOlbSubblocks_defers extended _ _ _ _ _ _ _
  | ade => exact (parseAdeMode_defers extended _ _ _ _).bind fun _ => Defers.refl _
  | unknown => exact Defers.refl _

theorem parseEncodedBlocks_defers (blockInfoLen pageIndex fuel index : Nat) (tim : TimIe)
    (timLen : Nat) :
    Defers (parseEncodedBlocks memory blockInfoLen pageIndex fuel index tim timLen)
      (parseEncodedBlocks larger blockInfoLen pageIndex fuel index tim timLen) := by
  induction fuel generalizing index tim timLen with
  | zero => exact Defers.refl _
  | succ fuel inductionHypothesis =>
    rw [parseEncodedBlocks, parseEncodedBlocks]
    split
    · exact (readOctet_defers extended index).bind fun _ =>
        (parseEncodedBlock_defers (extended.shift _) _ _ _ _).bind fun _ =>
          inductionHypothesis _ _ _
    · exact Defers.refl _

end Extension

/-! ## The element -/

/-- No octet past the element is read, and none has an influence: the run on
the memory of the element alone reads no unmapped octet, and two buffers that
agree on the element have the same TIM and the same length. -/
def LooksOnlyAtElement (tim : TimIe) (octets : Nat → Octet) (totalLen : Nat) : Prop :=
  (s1gToTim tim (Memory.below octets totalLen) totalLen).isSome = true ∧
    ∀ others : Nat → Octet, (∀ index, index < totalLen → octets index = others index) →
      s1gToTim tim (Memory.ofFun others) totalLen = s1gToTim tim (Memory.ofFun octets) totalLen

/-- Every encoded block of the element that the decoder comes to is whole.  The
decoder gives up at the first AID that the TIM refuses in a block bitmap or an
OLB block; a TIM whose second octet is not zero starts at octet zero. -/
def BlocksWhole (tim : TimIe) (octets : Nat → Octet) (totalLen : Nat) : Prop :=
  walkBlocks ((octets 2 &&& 0xC0#8) >>> 6).toNat (totalLen - 3)
    (if tim.virtualMap 1 = 0 then none else some 0)
    ((List.range (totalLen - 3)).map fun index => octets (3 + index)) = true

/-- The state in which the decoder enters the loop over the blocks. -/
def preparedTim (tim : TimIe) (octets : Nat → Octet) : TimIe where
  dtimCount := octets 0
  dtimPeriod := octets 1
  bitmapCtrl := octets 2 &&& 0x01#8
  virtualMap := Function.update tim.virtualMap 0 0

theorem preparedTim_hasOrigin (tim : TimIe) (octets : Nat → Octet) :
    (preparedTim tim octets).HasOrigin (if tim.virtualMap 1 = 0 then none else some 0) := by
  have offset : (preparedTim tim octets).bitmapOffset = 0 := by
    have bits : ∀ octet : Octet, ((octet &&& 0x01#8) &&& 0xFE#8).toNat = 0 := by decide
    exact bits (octets 2)
  have fresh : (preparedTim tim octets).Fresh ↔ tim.virtualMap 1 = 0 := by
    simp [TimIe.Fresh, preparedTim]
  split
  · rename_i zero
    exact ⟨fresh.mpr zero, offset⟩
  · rename_i nonzero
    exact ⟨fun isFresh => nonzero (fresh.mp isFresh), offset⟩

theorem s1gToTim_eq_finish {octets : Nat → Octet} {totalLen : Nat} (long : 3 < totalLen)
    {memory : Memory Octet} (mapped : ∀ index, index < 3 → memory index = some (octets index)) :
    s1gToTim tim memory totalLen =
      finishS1gToTim (parseEncodedBlocks (memory.shift 3) (totalLen - 3)
        ((octets 2 &&& 0xC0#8) >>> 6).toNat (totalLen - 3) 0 (preparedTim tim octets) 0) := by
  have two : ¬ totalLen < 2 := by omega
  have three : ¬ totalLen < 3 := by omega
  have some : ¬ totalLen - 3 = 0 := by omega
  simp only [s1gToTim, two, three, some, if_false, mapped 0 (by decide), mapped 1 (by decide),
    mapped 2 (by decide), Option.bind_eq_bind, Option.bind_some]
  rfl

theorem finishS1gToTim_eq_none {run : Except Stop (TimIe × Nat)} :
    finishS1gToTim run = none ↔ run = .error .fault := by
  cases run with
  | ok result => simp [finishS1gToTim]
  | error stop => cases stop <;> simp [finishS1gToTim]

theorem isSome_s1gToTim_below_iff (tim : TimIe) (octets : Nat → Octet) (totalLen : Nat) :
    (s1gToTim tim (Memory.below octets totalLen) totalLen).isSome = true ↔
      BlocksWhole tim octets totalLen := by
  have mapped : ∀ index, index < totalLen →
      Memory.below octets totalLen index = some (octets index) := fun _ inside => if_pos inside
  by_cases long : 3 < totalLen
  · have rest : ((Memory.below octets totalLen).shift 3).shift 0 =
        Memory.ofList ((List.range (totalLen - 3)).map fun index => octets (3 + index)) := by
      funext index
      rw [Memory.shift_shift, Memory.shift_apply, Memory.ofList, List.getElem?_map]
      by_cases inside : index < totalLen - 3
      · rw [List.getElem?_range inside, mapped _ (by omega)]
        rfl
      · rw [List.getElem?_eq_none (by simpa using inside), Memory.below, if_neg (by omega)]
        rfl
    have faults := parseEncodedBlocks_fault_iff ((octets 2 &&& 0xC0#8) >>> 6).toNat
      (totalLen - 3) rest (show totalLen - 3 = 0 + _ by simp)
      (preparedTim_hasOrigin tim octets) 0
    rw [s1gToTim_eq_finish long fun index below => mapped index (by omega), BlocksWhole,
      ← Option.ne_none_iff_isSome, ne_eq, finishS1gToTim_eq_none, faults, Bool.not_eq_false]
  · have none : totalLen - 3 = 0 := by omega
    have whole : BlocksWhole tim octets totalLen := by
      rw [BlocksWhole, none]
      rfl
    refine iff_of_true ?_ whole
    rw [s1gToTim]
    split
    · rfl
    · simp only [mapped 0 (by omega), mapped 1 (by omega), Option.bind_eq_bind, Option.bind_some]
      split
      · rfl
      · simp only [mapped 2 (by omega), Option.bind_some]
        split <;> rfl

theorem s1gToTim_ofFun_of_below
    (inside : (s1gToTim tim (Memory.below octets totalLen) totalLen).isSome = true)
    (agree : ∀ index, index < totalLen → octets index = others index) :
    s1gToTim tim (Memory.ofFun others) totalLen =
      s1gToTim tim (Memory.below octets totalLen) totalLen := by
  have mapped : ∀ index, index < totalLen →
      Memory.below octets totalLen index = some (octets index) := fun _ below => if_pos below
  have mapped' : ∀ index, index < totalLen →
      Memory.ofFun others index = some (octets index) := by
    intro index below
    rw [Memory.ofFun, agree index below]
  by_cases long : 3 < totalLen
  · rw [s1gToTim_eq_finish long fun index below => mapped index (by omega),
      s1gToTim_eq_finish long fun index below => mapped' index (by omega)]
    rw [s1gToTim_eq_finish long fun index below => mapped index (by omega),
      ← Option.ne_none_iff_isSome, ne_eq, finishS1gToTim_eq_none] at inside
    obtain faults | same := parseEncodedBlocks_defers
      ((Memory.below_extends agree).shift 3) (totalLen - 3)
      ((octets 2 &&& 0xC0#8) >>> 6).toNat (totalLen - 3) 0 (preparedTim tim octets) 0
    · exact absurd faults inside
    · rw [same]
  · have none : totalLen - 3 = 0 := by omega
    rw [s1gToTim, s1gToTim]
    split
    · rfl
    · simp only [mapped 0 (by omega), mapped 1 (by omega), mapped' 0 (by omega),
        mapped' 1 (by omega), Option.bind_eq_bind, Option.bind_some]
      split
      · rfl
      · simp only [mapped 2 (by omega), mapped' 2 (by omega), Option.bind_some]

/-- The decoder looks only at its element exactly when the blocks that it comes
to are whole. -/
theorem looksOnlyAtElement_iff (tim : TimIe) (octets : Nat → Octet) (totalLen : Nat) :
    LooksOnlyAtElement tim octets totalLen ↔ BlocksWhole tim octets totalLen := by
  rw [LooksOnlyAtElement, isSome_s1gToTim_below_iff]
  refine ⟨fun looks => looks.1, fun whole => ⟨whole, fun others agree => ?_⟩⟩
  have inside := (isSome_s1gToTim_below_iff tim octets totalLen).mpr whole
  rw [s1gToTim_ofFun_of_below inside agree, s1gToTim_ofFun_of_below inside fun _ _ => rfl]

/-- An element of one block control: the block bitmap and the subblock that the
decoder takes come from whatever follows it in memory. -/
theorem s1gToTim_reads_past_element :
    ∃ octets others : Nat → Octet, (∀ index, index < 4 → octets index = others index) ∧
      s1gToTim .zeroed (Memory.below octets 4) 4 = none ∧
      (s1gToTim .zeroed (Memory.ofFun octets) 4).map (fun result => result.1.virtualMap 0) ≠
        (s1gToTim .zeroed (Memory.ofFun others) 4).map (fun result => result.1.virtualMap 0) := by
  refine ⟨fun _ => 0, fun index => if index < 4 then 0 else 1, ?_, ?_, ?_⟩
  · intro index inside
    exact (if_pos inside).symm
  · rfl
  · decide

/-! ## Writing within the virtual map -/

/-- Of the virtual map, bits are set only, and only within its length. -/
structure Grown (before after : TimIe) : Prop where
  outside : ∀ place, dot11MaxTimVirtualMapLength ≤ place →
    after.virtualMap place = before.virtualMap place
  kept : ∀ place bit, (before.virtualMap place).getLsbD bit = true →
    (after.virtualMap place).getLsbD bit = true

theorem Grown.refl (tim : TimIe) : Grown tim tim := ⟨fun _ _ => rfl, fun _ _ set => set⟩

theorem Grown.trans (first : Grown before middle) (second : Grown middle after) :
    Grown before after :=
  ⟨fun place behind => (second.outside place behind).trans (first.outside place behind),
    fun place bit set => second.kept place bit (first.kept place bit set)⟩

theorem grown_setBit (tim : TimIe) (bit : Nat) (inside : octetNumber < dot11MaxTimVirtualMapLength) :
    Grown tim (tim.setBit octetNumber bit) := by
  refine ⟨fun place behind => ?_, fun place other set => ?_⟩
  · exact Function.update_of_ne (Nat.ne_of_gt (Nat.lt_of_lt_of_le inside behind)) _ _
  · by_cases same : place = octetNumber
    · subst same
      simp only [TimIe.setBit, Function.update_self, BitVec.getLsbD_or, set, Bool.true_or]
    · simp only [TimIe.setBit, Function.update_of_ne same, set]

/-- A run that started with a TIM leaves it grown, with a largest octet within the map. -/
def Stays (before : TimIe) (out : α → TimIe × Nat) : Except Stop α → Prop
  | .ok result => Grown before (out result).1 ∧ (out result).2 < dot11MaxTimVirtualMapLength
  | .error (.refused tim) => Grown before tim
  | .error .fault => True

theorem Stays.bind {out : α → TimIe × Nat} {out' : β → TimIe × Nat} {next : α → Except Stop β}
    {run : Except Stop α} (stays : Stays before out run)
    (later : ∀ result, Grown before (out result).1 →
      (out result).2 < dot11MaxTimVirtualMapLength → Stays before out' (next result)) :
    Stays before out' (run >>= next) := by
  cases run with
  | ok result => exact later result stays.1 stays.2
  | error stop => cases stop <;> exact stays

theorem Stays.trans {out : α → TimIe × Nat} {run : Except Stop α} (grown : Grown before middle)
    (stays : Stays middle out run) : Stays before out run := by
  cases run with
  | ok result => exact ⟨grown.trans stays.1, stays.2⟩
  | error stop =>
    cases stop with
    | fault => trivial
    | refused tim => exact grown.trans stays

theorem stays_readOctet_bind {out : β → TimIe × Nat} {next : Octet → Except Stop β}
    (later : ∀ octet, Stays before out (next octet)) (memory : Memory Octet) (index : Nat) :
    Stays before out (readOctet memory index >>= next) := by
  rw [readOctet]
  split
  · exact later _
  · trivial

theorem stays_storeAidIntoTim (stored : storeAidIntoTim tim aid = some (tim', octetNumber)) :
    Grown tim tim' ∧ octetNumber < dot11MaxTimVirtualMapLength := by
  have storeAtOffset_grown {first : TimIe} {place offset : Nat}
      (stored : storeAtOffset first place offset aid = some (tim', octetNumber)) :
      Grown first tim' ∧ octetNumber < dot11MaxTimVirtualMapLength := by
    simp only [storeAtOffset, Option.ite_none_left_eq_some, Option.some.injEq, Prod.mk.injEq,
      Nat.not_le] at stored
    obtain ⟨inside, rfl, rfl⟩ := stored
    exact ⟨grown_setBit _ _ inside, inside⟩
  rw [storeAidIntoTim] at stored
  dsimp only at stored
  split_ifs at stored
  · obtain ⟨grown, inside⟩ := storeAtOffset_grown stored
    exact ⟨⟨grown.outside, grown.kept⟩, inside⟩
  · exact storeAtOffset_grown stored

variable {blockInfo : Memory Octet}

theorem stays_storeSubblock (subblock : Octet) (aidOf : Nat → Nat) (positions : List Nat)
    (tim : TimIe) (inside : timLen < dot11MaxTimVirtualMapLength) :
    Stays tim id (storeSubblock subblock aidOf positions tim timLen) := by
  induction positions generalizing tim timLen with
  | nil => exact ⟨.refl tim, inside⟩
  | cons posQ positions ih =>
    rw [storeSubblock]
    split
    · split
      · next stored =>
          obtain ⟨grown, within⟩ := stays_storeAidIntoTim stored
          refine (ih _ ?_).trans grown
          split <;> assumption
      · exact .refl tim
    · exact ih tim inside

theorem stays_parseBlockSubblocks (blockBitmap : Octet) (blockOffset pageIndex : Nat)
    (inverseBitmap : Bool) (positions : List Nat) (index : Nat) (tim : TimIe)
    (inside : timLen < dot11MaxTimVirtualMapLength) :
    Stays tim (fun result => (result.1, result.2.1))
      (parseBlockSubblocks blockInfo blockBitmap blockOffset pageIndex inverseBitmap positions index
        tim timLen) := by
  induction positions generalizing index tim timLen with
  | nil => exact ⟨.refl tim, inside⟩
  | cons posM positions ih =>
    rw [parseBlockSubblocks]
    split
    · refine stays_readOctet_bind (fun octet => ?_) blockInfo index
      exact (stays_storeSubblock _ _ _ tim inside).bind fun result grown within =>
        (ih (index + 1) result.1 within).trans grown
    · exact ih index tim inside

theorem stays_parseOlbSubblocks (blockOffset pageIndex : Nat) (inverseBitmap : Bool)
    (positions : List Nat) (index : Nat) (tim : TimIe)
    (inside : timLen < dot11MaxTimVirtualMapLength) :
    Stays tim (fun result => (result.1, result.2.1))
      (parseOlbSubblocks blockInfo blockOffset pageIndex inverseBitmap positions index tim
        timLen) := by
  induction positions generalizing index tim timLen with
  | nil => exact ⟨.refl tim, inside⟩
  | cons subblockM positions ih =>
    refine stays_readOctet_bind (fun octet => ?_) blockInfo index
    exact (stays_storeSubblock _ _ _ tim inside).bind fun result grown within =>
      (ih (index + 1) result.1 within).trans grown

theorem grown_storeAidOrKeep (tim : TimIe) (aid : Nat) : Grown tim (storeAidOrKeep tim aid) := by
  rw [storeAidOrKeep]
  split
  · next stored => exact (stays_storeAidIntoTim stored).1
  · exact .refl tim

theorem grown_storeAdeAids (base : Nat) (wanted : Nat → Bool) (positions : List Nat)
    (tim : TimIe) : Grown tim (storeAdeAids base wanted positions tim).1 := by
  induction positions generalizing tim with
  | nil => exact .refl tim
  | cons i positions ih =>
    rw [storeAdeAids]
    split
    · exact .refl tim
    · refine Grown.trans ?_ (ih _)
      split
      · exact grown_storeAidOrKeep tim _
      · exact .refl tim

theorem grown_storeAdeWords (bytes : List Octet) (base ewl : Nat) (words : List Nat) (aid : Nat)
    (tim : TimIe) : Grown tim (storeAdeWords bytes base ewl words aid tim).1 := by
  induction words generalizing aid tim with
  | nil => exact .refl tim
  | cons i words ih =>
    rw [storeAdeWords]
    generalize (if i = 0 then adeWord bytes ewl i + base else adeWord bytes ewl i + aid) = aid
    split
    · exact .refl tim
    · exact (grown_storeAidOrKeep tim aid).trans (ih aid _)

theorem stays_readOctets_bind {out : β → TimIe × Nat} {next : List Octet → Except Stop β}
    (later : ∀ octets, Stays before out (next octets)) (memory : Memory Octet)
    (indices : List Nat) : Stays before out (readOctets memory indices >>= next) := by
  induction indices generalizing next with
  | nil => exact later []
  | cons index indices ih =>
    rw [readOctets, bind_assoc]
    refine stays_readOctet_bind (fun octet => ?_) memory index
    rw [bind_assoc]
    exact ih fun octets => later (octet :: octets)

theorem stays_parseAdeMode (blockOffset pageIndex : Nat) (inverseBitmap : Bool) (tim : TimIe) :
    Stays tim (fun result => (result.1, 0))
      (s1gToTimParseAdeMode blockInfo blockOffset pageIndex inverseBitmap tim) := by
  have empty : 0 < dot11MaxTimVirtualMapLength := by decide
  refine stays_readOctet_bind (fun first => ?_) blockInfo 0
  dsimp only
  split
  · exact ⟨grown_storeAdeAids _ _ _ tim, empty⟩
  · split
    · refine stays_readOctet_bind (fun diffAid => ?_) blockInfo 1
      exact ⟨grown_storeAdeAids _ _ _ tim, empty⟩
    · refine stays_readOctets_bind (fun bytes => ?_) blockInfo _
      exact ⟨grown_storeAdeWords _ _ _ _ _ tim, empty⟩

theorem stays_parseEncodedBlock (control : Octet) (pageIndex : Nat) (tim : TimIe)
    (inside : timLen < dot11MaxTimVirtualMapLength) :
    Stays tim (fun result => (result.1, result.2.1))
      (parseEncodedBlock blockInfo control pageIndex tim timLen) := by
  rw [parseEncodedBlock]
  dsimp only
  split
  · exact stays_readOctet_bind (fun blockBitmap =>
      stays_parseBlockSubblocks blockBitmap _ pageIndex _ _ 1 tim inside) blockInfo 0
  · refine stays_readOctet_bind (fun singleAid => ?_) blockInfo 0
    split
    · exact ⟨.refl tim, inside⟩
    · dsimp only
      split
      · next stored =>
          obtain ⟨grown, within⟩ := stays_storeAidIntoTim stored
          refine ⟨grown, ?_⟩
          dsimp only
          split <;> assumption
      · refine ⟨.refl tim, ?_⟩
        dsimp only
        split
        · decide
        · exact inside
  · exact stays_readOctet_bind (fun length =>
      stays_parseOlbSubblocks _ pageIndex _ _ 1 tim inside) blockInfo 0
  · exact (stays_parseAdeMode _ pageIndex _ tim).bind fun _ grown _ => ⟨grown, inside⟩
  · exact .refl tim

theorem stays_parseEncodedBlocks (blockInfoLen pageIndex fuel index : Nat) (tim : TimIe)
    (inside : timLen < dot11MaxTimVirtualMapLength) :
    Stays tim id (parseEncodedBlocks blockInfo blockInfoLen pageIndex fuel index tim timLen) := by
  induction fuel generalizing index tim timLen with
  | zero => exact ⟨.refl tim, inside⟩
  | succ fuel ih =>
    rw [parseEncodedBlocks]
    split
    · refine stays_readOctet_bind (fun control => ?_) blockInfo index
      exact (stays_parseEncodedBlock control pageIndex tim inside).bind fun result grown within =>
        (ih (index + 1 + result.2.2) result.1 within).trans grown
    · exact ⟨.refl tim, inside⟩

/-- Of the virtual map, bits are set only, but for its first octet, and only within its length; and
the length that is returned is one that an element can have. -/
structure DecodedWithin (before after : TimIe) (length : Nat) : Prop where
  outside : ∀ place, dot11MaxTimVirtualMapLength ≤ place →
    after.virtualMap place = before.virtualMap place
  kept : ∀ place bit, 0 < place → (before.virtualMap place).getLsbD bit = true →
    (after.virtualMap place).getLsbD bit = true
  short : length < 255

theorem decodedWithin_self {tim first : TimIe} (same : first.virtualMap = tim.virtualMap) :
    DecodedWithin tim first sizeofTimIe :=
  ⟨fun place _ => congrFun same place, fun place bit _ set => by rwa [same], by decide⟩

theorem Grown.decodedWithin {tim first : TimIe} (grown : Grown first after)
    (cleared : first.virtualMap = Function.update tim.virtualMap 0 0) (short : length < 255) :
    DecodedWithin tim after length := by
  have other (place : Nat) (behind : 0 < place) :
      first.virtualMap place = tim.virtualMap place := by
    rw [cleared, Function.update_of_ne (Nat.ne_of_gt behind)]
  refine ⟨fun place behind => ?_, fun place bit behind set => ?_, short⟩
  · rw [grown.outside place behind, other place (Nat.lt_of_lt_of_le (by decide) behind)]
  · apply grown.kept
    rwa [other place behind]

theorem decodedWithin_finish {tim first : TimIe} {run : Except Stop (TimIe × Nat)}
    (stays : Stays first id run) (cleared : first.virtualMap = Function.update tim.virtualMap 0 0)
    (done : finishS1gToTim run = some (decoded, length)) : DecodedWithin tim decoded length := by
  cases run with
  | ok result =>
    cases done
    have inside : result.2 < 251 := stays.2
    exact stays.1.decodedWithin cleared (show 4 + result.2 < 255 by omega)
  | error stop =>
    cases stop with
    | fault => cases done
    | refused refusedTim =>
      cases done
      exact Grown.decodedWithin stays cleared (by decide)

/-- Whatever the memory holds that is decoded, the decoder stays within the virtual map. -/
theorem decodedWithin_s1gToTim (tim : TimIe) (s1gTim : Memory Octet) (totalLen : Nat)
    (decoded : TimIe) (length : Nat)
    (done : s1gToTim tim s1gTim totalLen = some (decoded, length)) :
    DecodedWithin tim decoded length := by
  rw [s1gToTim] at done
  split at done
  · cases done
    exact decodedWithin_self rfl
  obtain ⟨dtimCount, -, done⟩ := Option.bind_eq_some_iff.mp done
  obtain ⟨dtimPeriod, -, done⟩ := Option.bind_eq_some_iff.mp done
  dsimp only at done
  split at done
  · cases done
    exact decodedWithin_self rfl
  obtain ⟨bitmapControl, -, done⟩ := Option.bind_eq_some_iff.mp done
  split at done
  · split at done <;>
    · cases done
      exact (Grown.refl _).decodedWithin rfl (by decide)
  · exact decodedWithin_finish (stays_parseEncodedBlocks _ _ _ 0 _ (by decide)) rfl done

/-- A single AID of the last page is refused, and counts as one far back. -/
theorem decodedWithin_s1gToTim_refused :
    ∃ decoded, s1gToTim .zeroed (Memory.ofList [0, 1, 0xC0, 0x01, 0x05]) 5 = some (decoded, 238) ∧
      DecodedWithin .zeroed decoded 238 :=
  ⟨_, rfl, decodedWithin_s1gToTim .zeroed (Memory.ofList [0, 1, 0xC0, 0x01, 0x05]) 5 _ _ rfl⟩

end Tim
end Morse
