import Morse.Lib.Bitmap
import Morse.Tim.Store

/-!
# Encoded blocks

The three formats of an encoded block that carry AIDs of the whole page: the
block bitmap, the single AID and the offset-length bitmap.  A block has the
octets it takes in the element and the AIDs it stands for.  The parsers of
`s1gToTim` store the AIDs of a block in their order and consume its octets.
-/

namespace Morse
namespace Tim

open Lib

/-! ## AIDs and octet numbers -/

/-- The octet number of an AID with these page index, block offset and subblock. -/
def octetNumberAt (pageIndex blockOffset posM : Nat) : Nat :=
  256 * (pageIndex % 4) + 8 * (blockOffset % 32) + posM % 8

theorem or_fields (below : low < 64) (blockOffset pageIndex : Nat) :
    low ||| ((blockOffset <<< 6) &&& 0x07C0) ||| ((pageIndex <<< 11) &&& 0x1800) =
      2048 * (pageIndex % 4) + 64 * (blockOffset % 32) + low := by
  have block : (blockOffset <<< 6) &&& 0x07C0 = (blockOffset % 32) * 2 ^ 6 :=
    shiftLeft_and_mask blockOffset 6 5
  have page : (pageIndex <<< 11) &&& 0x1800 = (pageIndex % 4) * 2 ^ 11 :=
    shiftLeft_and_mask pageIndex 11 2
  have lower : blockOffset % 32 * 2 ^ 6 + low < 2 ^ 11 := by omega
  rw [block, page, or_mul_two_pow (show low < 2 ^ 6 from below), or_mul_two_pow lower]
  omega

theorem concatAid_eq (inside : posQ < 8) (posM blockOffset pageIndex : Nat) :
    concatAid posQ posM blockOffset pageIndex =
      8 * octetNumberAt pageIndex blockOffset posM + posQ := by
  have position : posQ &&& 0x0007 = posQ := by
    rw [Nat.and_two_pow_sub_one_eq_mod posQ 3, Nat.mod_eq_of_lt inside]
  have subblock : (posM <<< 3) &&& 0x0038 = (posM % 8) * 2 ^ 3 := shiftLeft_and_mask posM 3 3
  unfold concatAid octetNumberAt
  rw [position, subblock, or_mul_two_pow (show posQ < 2 ^ 3 from inside), or_fields (by omega)]
  omega

theorem octetNumberAt_zero (within : blockOffset < 32) (inside : posM < 8) :
    octetNumberAt 0 blockOffset posM = 8 * blockOffset + posM := by
  unfold octetNumberAt
  omega

/-! ## The parsers on octets that are present -/

theorem storeSubblock_eq (subblock : Octet) (aidOf : Nat → Nat) (positions : List Nat) (tim : TimIe)
    (timLen : Nat) :
    storeSubblock subblock aidOf positions tim timLen =
      storeAids ((positions.filter (subblock.getLsbD ·)).map aidOf) tim timLen := by
  induction positions generalizing tim timLen with
  | nil => rfl
  | cons position positions inductionHypothesis =>
    cases set : subblock.getLsbD position with
    | false => simp [storeSubblock, set, inductionHypothesis]
    | true =>
      simp only [storeSubblock, set, if_true, List.filter_cons, List.map_cons, storeAids]
      cases storeAidIntoTim tim (aidOf position) with
      | none => rfl
      | some stored => exact inductionHypothesis _ _

theorem storeSubblock_concatAid (subblock : Octet) (posM blockOffset pageIndex : Nat) (tim : TimIe)
    (timLen : Nat) :
    storeSubblock subblock (fun posQ => concatAid posQ posM blockOffset pageIndex)
        (List.range 8) tim timLen =
      storeAids (entryListing (octetNumberAt pageIndex blockOffset posM) subblock)
        tim timLen := by
  rw [storeSubblock_eq]
  congr 1
  apply List.map_congr_left
  intro posQ listed
  exact concatAid_eq (List.mem_range.mp (List.mem_of_mem_filter listed)) _ _ _

theorem readOctet_of_covers (covers : (memory.shift index).Covers (octet :: octets)) :
    readOctet memory index = .ok octet ∧ (memory.shift (index + 1)).Covers octets := by
  rw [Memory.covers_cons, Memory.shift_shift] at covers
  obtain ⟨mapped, rest⟩ := covers
  rw [Memory.shift_apply, Nat.add_zero] at mapped
  exact ⟨by rw [readOctet, mapped], rest⟩

/-- The AIDs of the subblocks that a block bitmap announces. -/
def blockAids (pageIndex blockOffset : Nat) (inverseBitmap : Bool) (subblocks : Nat → Octet)
    (positions : List Nat) : List Nat :=
  positions.flatMap fun posM =>
    entryListing (octetNumberAt pageIndex blockOffset posM)
      (decodeSubblock inverseBitmap (subblocks posM))

theorem parseBlockSubblocks_eq
    (covers : (blockInfo.shift index).Covers
      ((positions.filter (blockBitmap.getLsbD ·)).map subblocks))
    (blockOffset pageIndex : Nat)
    (inverseBitmap : Bool)
    (tim : TimIe)
    (timLen : Nat) :
    parseBlockSubblocks blockInfo blockBitmap blockOffset pageIndex inverseBitmap
        positions index tim timLen =
      (storeAids (blockAids pageIndex blockOffset inverseBitmap subblocks
        (positions.filter (blockBitmap.getLsbD ·))) tim timLen).map fun stored =>
          (stored.1, stored.2, index + (positions.filter (blockBitmap.getLsbD ·)).length) := by
  induction positions generalizing index tim timLen with
  | nil => rfl
  | cons posM positions inductionHypothesis =>
    cases set : blockBitmap.getLsbD posM with
    | false =>
      simp only [List.filter_cons, set, Bool.false_eq_true, if_false] at covers
      simp [parseBlockSubblocks, set, inductionHypothesis covers]
    | true =>
      simp only [List.filter_cons, set, if_true, List.map_cons] at covers
      obtain ⟨reads, rest⟩ := readOctet_of_covers covers
      simp only [parseBlockSubblocks, set, if_true, reads, storeSubblock_concatAid,
        List.filter_cons, blockAids, List.flatMap_cons, storeAids_append, List.length_cons]
      simp only [bind, Except.bind]
      cases storeAids (entryListing (octetNumberAt pageIndex blockOffset posM)
          (decodeSubblock inverseBitmap (subblocks posM))) tim timLen with
      | error stop => rfl
      | ok stored =>
        simp only [inductionHypothesis rest, blockAids, Nat.add_assoc, Nat.add_comm 1]

/-- The AIDs of contiguous subblocks, the first of which has number `subblockM`. -/
def olbAids (pageIndex blockOffset : Nat) (inverseBitmap : Bool) :
    Nat → List Octet → List Nat
  | _, [] => []
  | subblockM, octet :: octets =>
    entryListing (octetNumberAt pageIndex (blockOffset + subblockM / 8) (subblockM % 8))
        (decodeSubblock inverseBitmap octet) ++
      olbAids pageIndex blockOffset inverseBitmap (subblockM + 1) octets

theorem parseOlbSubblocks_eq (covers : (blockInfo.shift index).Covers octets)
    (blockOffset pageIndex : Nat) (inverseBitmap : Bool) (subblockM : Nat) (tim : TimIe)
    (timLen : Nat) :
    parseOlbSubblocks blockInfo blockOffset pageIndex inverseBitmap
        (List.range' subblockM octets.length) index tim timLen =
      (storeAids (olbAids pageIndex blockOffset inverseBitmap subblockM octets)
        tim timLen).map fun stored => (stored.1, stored.2, index + octets.length) := by
  induction octets generalizing subblockM index tim timLen with
  | nil => rfl
  | cons octet octets inductionHypothesis =>
    obtain ⟨reads, rest⟩ := readOctet_of_covers covers
    simp only [List.length_cons, List.range'_succ, parseOlbSubblocks, reads,
      storeSubblock_concatAid, olbAids, storeAids_append]
    simp only [bind, Except.bind]
    cases storeAids (entryListing (octetNumberAt pageIndex (blockOffset + subblockM / 8)
        (subblockM % 8)) (decodeSubblock inverseBitmap octet)) tim timLen with
    | error stop => rfl
    | ok stored =>
      simp only [inductionHypothesis rest, Nat.add_assoc, Nat.add_comm 1]

theorem olbAids_eq_listing (within : 8 * blockOffset + subblockM + octets.length ≤ 256)
    (inverseBitmap : Bool) (family : Nat → Octet)
    (agree : ∀ index, index < octets.length →
      family (8 * blockOffset + subblockM + index) =
        decodeSubblock inverseBitmap (octets.getD index 0)) :
    olbAids 0 blockOffset inverseBitmap subblockM octets =
      listing family (8 * blockOffset + subblockM) octets.length := by
  induction octets generalizing subblockM with
  | nil => rfl
  | cons octet octets inductionHypothesis =>
    rw [List.length_cons] at within agree
    have number : octetNumberAt 0 (blockOffset + subblockM / 8) (subblockM % 8) =
        8 * blockOffset + subblockM := by
      unfold octetNumberAt
      omega
    have head := agree 0 (by omega)
    rw [Nat.add_zero, List.getD_cons_zero] at head
    have rest := @inductionHypothesis (subblockM + 1) (by omega) (by
      intro index inside
      have shifted := agree (index + 1) (by omega)
      rw [List.getD_cons_succ] at shifted
      rw [← shifted]
      congr 1
      omega)
    rw [olbAids, rest, List.length_cons, Nat.add_comm octets.length, listing_add, listing_one,
      number, head, Nat.add_assoc]

/-! ## Blocks and their octets -/

/-- An encoded block of page zero. -/
inductive Block
  /-- A block bitmap, with the subblocks that are present. -/
  | bitmap (inverseBitmap : Bool) (blockOffset : Nat) (within : blockOffset < 32)
      (present : Nat → Bool) (subblocks : Nat → Octet)
  /-- A single AID. -/
  | single (aid : Nat) (within : aid < 2048)
  /-- Contiguous subblocks from a block on. -/
  | olb (inverseBitmap : Bool) (blockOffset : Nat) (octets : List Octet)
      (nonempty : octets ≠ []) (within : 8 * blockOffset + octets.length ≤ 256)
      (short : octets.length < 256)

namespace Block

/-- The block control octet. -/
def control : Block → Octet
  | bitmap inverseBitmap blockOffset _ _ _ => blockControl .block inverseBitmap blockOffset
  | single aid _ => blockControl .aid false (aid / 64)
  | olb inverseBitmap blockOffset _ _ _ _ => blockControl .olb inverseBitmap blockOffset

/-- The octets that follow the block control. -/
def info : Block → List Octet
  | bitmap _ _ _ present subblocks =>
    setBits 0 ((List.range 8).filter present) ::
      ((List.range 8).filter present).map subblocks
  | single aid _ => [BitVec.ofNat 8 (aid % 64)]
  | olb _ _ octets _ _ _ => BitVec.ofNat 8 octets.length :: octets

/-- The octets that a block takes in the element. -/
def octets (block : Block) : List Octet := block.control :: block.info

/-- The AIDs that a block stands for, in the order in which it lists them. -/
def aids : Block → List Nat
  | bitmap inverseBitmap blockOffset _ present subblocks =>
    ((List.range 8).filter present).flatMap fun posM =>
      entryListing (8 * blockOffset + posM) (decodeSubblock inverseBitmap (subblocks posM))
  | single aid _ => [aid]
  | olb inverseBitmap blockOffset octets _ _ _ =>
    listing (fun index => decodeSubblock inverseBitmap (octets.getD (index - 8 * blockOffset) 0))
      (8 * blockOffset) octets.length

end Block

private theorem control_fields :
    ∀ inverseBitmap : Bool, ∀ blockOffset < 32, ∀ bits ∈ [0#8, 1#8, 2#8, 3#8],
      let control := (bits ||| (BitVec.ofNat 8 inverseBitmap.toNat <<< 2)) |||
        (BitVec.ofNat 8 blockOffset <<< 3)
      control &&& 0x03#8 = bits ∧ (((control &&& 0x04#8) >>> 2) != 0) = inverseBitmap ∧
        ((control &&& 0xF8#8) >>> 3).toNat = blockOffset := by
  decide +kernel

theorem blockControl_fields (known : encMode ≠ .unknown) (inverseBitmap : Bool) {blockOffset : Nat}
    (within : blockOffset < 32) :
    EncMode.ofBits (blockControl encMode inverseBitmap blockOffset &&& 0x03#8) = encMode ∧
      (((blockControl encMode inverseBitmap blockOffset &&& 0x04#8) >>> 2) != 0) =
        inverseBitmap ∧
      ((blockControl encMode inverseBitmap blockOffset &&& 0xF8#8) >>> 3).toNat =
        blockOffset := by
  have bits : encMode.bits ∈ [0#8, 1#8, 2#8, 3#8] := by
    cases encMode with
    | unknown => exact absurd rfl known
    | _ => decide
  have back : EncMode.ofBits encMode.bits = encMode := by
    cases encMode with
    | unknown => exact absurd rfl known
    | _ => rfl
  obtain ⟨low, rest⟩ := control_fields inverseBitmap blockOffset within encMode.bits bits
  exact ⟨by rw [blockControl, low, back], rest⟩

private theorem singleAid_eq {aid : Nat} (within : aid < 2048) :
    ((BitVec.ofNat 8 (aid % 64)).toNat &&& 0x003F) ||| (((aid / 64) <<< 6) &&& 0x07C0) |||
      ((0 <<< 11) &&& 0x1800) = aid := by
  have position : (BitVec.ofNat 8 (aid % 64)).toNat &&& 0x003F = aid % 64 := by
    rw [BitVec.toNat_ofNat, Nat.and_two_pow_sub_one_eq_mod _ 6]
    omega
  rw [position, or_fields (Nat.mod_lt aid (by decide))]
  omega

theorem parseEncodedBlock_eq {block : Block} (covers : blockInfo.Covers block.info)
    (stores : storeAids block.aids tim timLen = .ok (tim', timLen')) :
    parseEncodedBlock blockInfo block.control 0 tim timLen =
      .ok (tim', timLen', block.info.length) := by
  cases block with
  | bitmap inverseBitmap blockOffset within present subblocks =>
    obtain ⟨mode, inverse, offset⟩ :=
      blockControl_fields (show EncMode.block ≠ .unknown by decide) inverseBitmap within
    obtain ⟨first, rest⟩ := Memory.covers_cons.mp covers
    have same : blockAids 0 blockOffset inverseBitmap subblocks
        ((List.range 8).filter present) =
          (Block.bitmap inverseBitmap blockOffset within present subblocks).aids := by
      apply List.flatMap_congr
      intro posM listed
      rw [octetNumberAt_zero within (List.mem_range.mp (List.mem_of_mem_filter listed))]
    have announced := filter_getLsbD_setBits (w := 8) present
    rw [← announced] at rest
    have parsed := parseBlockSubblocks_eq rest blockOffset 0 inverseBitmap tim timLen
    rw [announced, same, stores] at parsed
    simp only [parseEncodedBlock, Block.control, mode, inverse, offset,
      s1gToTimParseBlockMode, readOctet, first, bind, Except.bind, parsed, Except.map,
      Block.info, List.length_cons, List.length_map, Nat.add_comm 1]
  | single aid within =>
    obtain ⟨mode, inverse, offset⟩ :=
      blockControl_fields (show EncMode.aid ≠ .unknown by decide) false
        (show aid / 64 < 32 by omega)
    obtain ⟨first, _⟩ := Memory.covers_cons.mp covers
    simp only [Block.aids, storeAids] at stores
    simp only [parseEncodedBlock, Block.control, mode, inverse, offset,
      s1gToTimParseSingleMode, readOctet, first, bind, Except.bind, Bool.false_eq_true,
      if_false, singleAid_eq within]
    cases stored : storeAidIntoTim tim aid with
    | none => rw [stored] at stores; cases stores
    | some result =>
      rw [stored] at stores
      cases stores
      rfl
  | olb inverseBitmap blockOffset octets nonempty within short =>
    have positive : 0 < octets.length := List.length_pos_of_ne_nil nonempty
    obtain ⟨mode, inverse, offset⟩ :=
      blockControl_fields (show EncMode.olb ≠ .unknown by decide) inverseBitmap
        (show blockOffset < 32 by omega)
    obtain ⟨first, rest⟩ := Memory.covers_cons.mp covers
    have length : (BitVec.ofNat 8 octets.length).toNat = octets.length := by
      rw [BitVec.toNat_ofNat, Nat.mod_eq_of_lt short]
    have same : olbAids 0 blockOffset inverseBitmap 0 octets =
        (Block.olb inverseBitmap blockOffset octets nonempty within short).aids := by
      refine olbAids_eq_listing (by omega) inverseBitmap _ ?_
      intro index inside
      rw [Nat.add_zero, Nat.add_sub_cancel_left]
    have parsed := parseOlbSubblocks_eq rest blockOffset 0 inverseBitmap 0 tim timLen
    rw [same, stores] at parsed
    simp only [parseEncodedBlock, Block.control, mode, inverse, offset,
      s1gToTimParseOlbMode, readOctet, first, bind, Except.bind, length,
      List.range_eq_range', parsed, Except.map, Block.info, List.length_cons, Nat.add_comm 1]

theorem parseEncodedBlocks_eq {blocks : List Block}
    (covers : (encodedBlockInfo.shift index).Covers (blocks.flatMap Block.octets))
    (ends : blockInfoLen = index + (blocks.flatMap Block.octets).length)
    (fueled : (blocks.flatMap Block.octets).length ≤ fuel)
    (stores : storeAids (blocks.flatMap Block.aids) tim timLen = .ok (tim', timLen')) :
    parseEncodedBlocks encodedBlockInfo blockInfoLen 0 fuel index tim timLen =
      .ok (tim', timLen') := by
  induction blocks generalizing fuel index tim timLen with
  | nil =>
    cases stores
    cases fuel with
    | zero => rfl
    | succ fuel => simp [parseEncodedBlocks, ends]
  | cons block blocks inductionHypothesis =>
    rw [List.flatMap_cons] at covers ends fueled stores
    rw [Memory.covers_append, Memory.shift_shift] at covers
    obtain ⟨here, later⟩ := covers
    rw [List.length_append] at ends fueled
    have size : block.octets.length = block.info.length + 1 := rfl
    obtain ⟨reads, info⟩ := readOctet_of_covers here
    rw [storeAids_append] at stores
    cases stored : storeAids block.aids tim timLen with
    | error stop => rw [stored] at stores; cases stores
    | ok result =>
      rw [stored] at stores
      obtain ⟨fuel, rfl⟩ : ∃ rest, fuel = rest + 1 := ⟨fuel - 1, by omega⟩
      have inside : index < blockInfoLen := by omega
      have next : index + 1 + block.info.length = index + block.octets.length := by omega
      simp only [parseEncodedBlocks, inside, if_true, reads, bind, Except.bind,
        parseEncodedBlock_eq info stored, next]
      exact inductionHypothesis later (by omega) (by omega) stores

end Tim
end Morse
