import Mathlib.Logic.Function.Basic
import Morse.Lib.Memory

/-!
# The traffic indication map codec

The 802.11n TIM that Linux hands to an access point is a bitmap of AIDs with
an even octet offset.  On the air an S1G beacon carries the same set as a
sequence of encoded blocks.  This module transcribes both directions of the
conversion: `timToS1g` with its four block encoders and `s1gToTim` with its
four block parsers.

Octets are eight-bit vectors.  A received element is a partial memory, so that
a parser which runs past the octets it was given is visible in its result.
-/

namespace Morse
namespace Tim

open Lib

/-- One octet, `u8`. -/
abbrev Octet := BitVec 8

/-! ## Constants -/

/-- `AID_LIMIT`. -/
def aidLimit : Nat := 2007

/-- `ADE_AID_LIMIT`. -/
def adeAidLimit : Nat := 7

/-- `DOT11_MAX_TIM_VIRTUAL_MAP_LENGTH`. -/
def dot11MaxTimVirtualMapLength : Nat := 251

/-- `S1G_TIM_MAX_BLOCK_SIZE`, the size of `encoded_block_info`. -/
def s1gTimMaxBlockSize : Nat := 256

/-- `S1G_TIM_PAGE_SLICE_ENTIRE_PAGE`. -/
def s1gTimPageSliceEntirePage : Nat := 31

/-- `S1G_TIM_NUM_SUBBLOCKS_PER_BLOCK`. -/
def s1gTimNumSubblocksPerBlock : Nat := 8

/-- `S1G_TIM_NUM_AID_PER_SUBBLOCK`. -/
def s1gTimNumAidPerSubblock : Nat := 8

/-- `S1G_TIM_NUM_AID_PER_BLOCK`. -/
def s1gTimNumAidPerBlock : Nat := s1gTimNumAidPerSubblock * s1gTimNumSubblocksPerBlock

/-- `sizeof(struct ieee80211_tim_ie)`: three fields and one octet of map. -/
def sizeofTimIe : Nat := 4

/-! ## Elements -/

/-- `struct ieee80211_tim_ie`, with the memory its virtual map extends over. -/
structure TimIe where
  dtimCount : Octet
  dtimPeriod : Octet
  bitmapCtrl : Octet
  virtualMap : Nat → Octet

/-- A TIM in freshly zeroed memory. -/
def TimIe.zeroed : TimIe where
  dtimCount := 0
  dtimPeriod := 0
  bitmapCtrl := 0
  virtualMap := fun _ => 0

/-- `tim->bitmap_ctrl & IEEE80211_TIM_BITMAP_OFFSET`: the octet that
`virtual_map[0]` stands for, always even. -/
def TimIe.bitmapOffset (tim : TimIe) : Nat := (tim.bitmapCtrl &&& 0xFE#8).toNat

/-- The AID is set in the first `length` octets of the virtual map. -/
def TimIe.HasAid (tim : TimIe) (length aid : Nat) : Prop :=
  tim.bitmapOffset ≤ aid / 8 ∧ aid / 8 - tim.bitmapOffset < length ∧
    (tim.virtualMap (aid / 8 - tim.bitmapOffset)).getLsbD (aid % 8) = true

instance (tim : TimIe) (length aid : Nat) : Decidable (tim.HasAid length aid) := by
  unfold TimIe.HasAid
  infer_instance

/-- `enum dot11ah_tim_encoding_mode`. -/
inductive EncMode
  | block
  | aid
  | olb
  | ade
  | unknown
  deriving DecidableEq, Repr

/-- The two-bit encoding mode field of a block control. -/
def EncMode.bits : EncMode → Octet
  | .block => 0
  | .aid => 1
  | .olb => 2
  | .ade => 3
  | .unknown => 0xFF

/-- Read back the two-bit encoding mode field. -/
def EncMode.ofBits (bits : Octet) : EncMode :=
  if bits = 0 then .block
  else if bits = 1 then .aid
  else if bits = 2 then .olb
  else if bits = 3 then .ade
  else .unknown

/-- `struct dot11ah_s1g_tim_ie`.  The octets of `encoded_block_info` past
those listed are zero. -/
structure S1gTimIe where
  dtimCount : Octet
  dtimPeriod : Octet
  bitmapControl : Octet
  encodedBlockInfo : List Octet
  deriving DecidableEq

/-- The packed octets of an S1G TIM. -/
def S1gTimIe.octets (s1gTim : S1gTimIe) : List Octet :=
  s1gTim.dtimCount :: s1gTim.dtimPeriod :: s1gTim.bitmapControl ::
    (s1gTim.encodedBlockInfo ++
      List.replicate (s1gTimMaxBlockSize - s1gTim.encodedBlockInfo.length) 0)

/-- `S1G_TIM_AID_TO_BLOCK_OFFSET`. -/
def aidToBlockOffset (aid : Nat) : Nat := (aid &&& 0x7C0) >>> 6

/-- The block control octet: encoding mode, inverse bitmap and block offset. -/
def blockControl (encMode : EncMode) (inverseBitmap : Bool) (blockOffset : Nat) : Octet :=
  (encMode.bits ||| (BitVec.ofNat 8 inverseBitmap.toNat <<< 2)) |||
    (BitVec.ofNat 8 blockOffset <<< 3)

/-! ## Decoding an S1G TIM -/

/-- How a parser stops early: an octet was read that the memory does not map,
or an AID was refused and the TIM is left as it stands. -/
inductive Stop
  | fault
  | refused (tim : TimIe)

/-- Read one octet. -/
def readOctet (memory : Memory Octet) (index : Nat) : Except Stop Octet :=
  match memory index with
  | some octet => .ok octet
  | none => .error .fault

/-- Set the bit of an AID in the virtual map at an octet number. -/
def TimIe.setBit (tim : TimIe) (octetNumber bit : Nat) : TimIe :=
  { tim with
    virtualMap := Function.update tim.virtualMap octetNumber
      (tim.virtualMap octetNumber ||| (1#8 <<< bit)) }

/-- Set the bit of an AID in a virtual map that starts at `bitmapOffset`. -/
def storeAtOffset (tim : TimIe) (octetNumber bitmapOffset aid : Nat) : Option (TimIe × Nat) :=
  let octetNumber := octetNumber - bitmapOffset
  if dot11MaxTimVirtualMapLength ≤ octetNumber then none
  else some (tim.setBit octetNumber (aid &&& 0x07), octetNumber)

/-- The next AID of the TIM is taken for its first one: `virtual_map[0]` and
`virtual_map[1]` are zero. -/
def TimIe.Fresh (tim : TimIe) : Prop := tim.virtualMap 0 = 0 ∧ tim.virtualMap 1 = 0

instance (tim : TimIe) : Decidable tim.Fresh := by
  unfold TimIe.Fresh
  infer_instance

/-- `morse_dot11_store_aid_into_tim`.  The octet number of the stored AID, or
`none` where the source returns `-EINVAL` and leaves the TIM unchanged. -/
def storeAidIntoTim (tim : TimIe) (aid : Nat) : Option (TimIe × Nat) :=
  if aidLimit < aid then none
  else
    let octetNumber := aid >>> 3
    if tim.Fresh then
      let bitmapOffset := BitVec.ofNat 8 octetNumber &&& 0xFE#8
      storeAtOffset { tim with bitmapCtrl := tim.bitmapCtrl ||| bitmapOffset }
        octetNumber bitmapOffset.toNat aid
    else if octetNumber < tim.bitmapOffset then none
    else storeAtOffset tim octetNumber tim.bitmapOffset aid

/-- The AID whose fields are the bit position, the subblock, the block offset
and the page index, from the least significant bit up. -/
def concatAid (posQ posM blockOffset pageIndex : Nat) : Nat :=
  ((posQ &&& 0x0007) ||| ((posM <<< 3) &&& 0x0038)) |||
    ((blockOffset <<< 6) &&& 0x07C0) ||| ((pageIndex <<< 11) &&& 0x1800)

/-- The loop over the bits of one subblock, shared by the block bitmap and OLB
parsers: store each AID whose bit is set, and stop at the first refusal. -/
def storeSubblock (subblock : Octet) (aidOf : Nat → Nat) :
    List Nat → TimIe → Nat → Except Stop (TimIe × Nat)
  | [], tim, timLen => .ok (tim, timLen)
  | posQ :: positions, tim, timLen =>
    if subblock.getLsbD posQ then
      match storeAidIntoTim tim (aidOf posQ) with
      | some (tim, octetNumber) =>
        storeSubblock subblock aidOf positions tim
          (if timLen < octetNumber then octetNumber else timLen)
      | none => .error (.refused tim)
    else storeSubblock subblock aidOf positions tim timLen

/-- The subblock that an encoded octet stands for. -/
def decodeSubblock (inverseBitmap : Bool) (octet : Octet) : Octet :=
  if inverseBitmap then ~~~octet else octet

/-- The loop over the subblocks that a block bitmap announces. -/
def parseBlockSubblocks (blockInfo : Memory Octet) (blockBitmap : Octet)
    (blockOffset pageIndex : Nat) (inverseBitmap : Bool) :
    List Nat → Nat → TimIe → Nat → Except Stop (TimIe × Nat × Nat)
  | [], index, tim, timLen => .ok (tim, timLen, index)
  | posM :: positions, index, tim, timLen =>
    if blockBitmap.getLsbD posM then do
      let octet ← readOctet blockInfo index
      let (tim, timLen) ← storeSubblock (decodeSubblock inverseBitmap octet)
        (fun posQ => concatAid posQ posM blockOffset pageIndex) (List.range 8) tim timLen
      parseBlockSubblocks blockInfo blockBitmap blockOffset pageIndex inverseBitmap
        positions (index + 1) tim timLen
    else
      parseBlockSubblocks blockInfo blockBitmap blockOffset pageIndex inverseBitmap
        positions index tim timLen

/-- `morse_dot11_s1g_to_tim_parse_block_mode`: the new TIM, its largest octet
number and the octets consumed. -/
def s1gToTimParseBlockMode (blockInfo : Memory Octet) (blockOffset pageIndex : Nat)
    (inverseBitmap : Bool) (tim : TimIe) (timLen : Nat) : Except Stop (TimIe × Nat × Nat) := do
  let blockBitmap ← readOctet blockInfo 0
  parseBlockSubblocks blockInfo blockBitmap blockOffset pageIndex inverseBitmap
    (List.range 8) 1 tim timLen

/-- `morse_dot11_s1g_to_tim_parse_single_mode`.  A refused AID is not an error
here: `-EINVAL` is cut to an octet, 234, and taken for an octet number. -/
def s1gToTimParseSingleMode (blockInfo : Memory Octet) (blockOffset pageIndex : Nat)
    (inverseBitmap : Bool) (tim : TimIe) (timLen : Nat) : Except Stop (TimIe × Nat × Nat) := do
  let singleAid ← readOctet blockInfo 0
  if inverseBitmap then return (tim, timLen, 1)
  let aid := (singleAid.toNat &&& 0x003F) ||| ((blockOffset <<< 6) &&& 0x07C0) |||
    ((pageIndex <<< 11) &&& 0x1800)
  match storeAidIntoTim tim aid with
  | some (tim, octetNumber) =>
    return (tim, if timLen < octetNumber then octetNumber else timLen, 1)
  | none => return (tim, if timLen < 234 then 234 else timLen, 1)

/-- The loop over the contiguous subblocks of an OLB block. -/
def parseOlbSubblocks (blockInfo : Memory Octet) (blockOffset pageIndex : Nat)
    (inverseBitmap : Bool) :
    List Nat → Nat → TimIe → Nat → Except Stop (TimIe × Nat × Nat)
  | [], index, tim, timLen => .ok (tim, timLen, index)
  | subblockM :: positions, index, tim, timLen => do
      let octet ← readOctet blockInfo index
      let (tim, timLen) ← storeSubblock (decodeSubblock inverseBitmap octet)
        (fun posQ => concatAid posQ (subblockM % 8) (blockOffset + subblockM / 8) pageIndex)
        (List.range 8) tim timLen
      parseOlbSubblocks blockInfo blockOffset pageIndex inverseBitmap
        positions (index + 1) tim timLen

/-- `morse_dot11_s1g_to_tim_parse_olb_mode`. -/
def s1gToTimParseOlbMode (blockInfo : Memory Octet) (blockOffset pageIndex : Nat)
    (inverseBitmap : Bool) (tim : TimIe) (timLen : Nat) : Except Stop (TimIe × Nat × Nat) := do
  let length ← readOctet blockInfo 0
  parseOlbSubblocks blockInfo blockOffset pageIndex inverseBitmap
    (List.range length.toNat) 1 tim timLen

/-- Store an AID and ignore a refusal, as the ADE parser does. -/
def storeAidOrKeep (tim : TimIe) (aid : Nat) : TimIe :=
  match storeAidIntoTim tim aid with
  | some (tim, _) => tim
  | none => tim

/-- The ADE loops over eight AIDs from a base, with a test for each; `none`
where an AID past `ADE_AID_LIMIT` makes the source leave by `error`. -/
def storeAdeAids (base : Nat) (wanted : Nat → Bool) : List Nat → TimIe → TimIe × Bool
  | [], tim => (tim, true)
  | i :: positions, tim =>
    if adeAidLimit < base + i then (tim, false)
    else
      storeAdeAids base wanted positions
        (if wanted (base + i) then storeAidOrKeep tim (base + i) else tim)

/-- Read a run of octets. -/
def readOctets (memory : Memory Octet) : List Nat → Except Stop (List Octet)
  | [] => .ok []
  | index :: indices => do
      let octet ← readOctet memory index
      let octets ← readOctets memory indices
      return octet :: octets

/-- Bit `position` of the bit array the ADE parser unpacks. -/
def adeBit (bytes : List Octet) (position : Nat) : Bool :=
  (bytes.getD (position / 8) 0).getLsbD (position % 8)

/-- The differential AID in one word of `ewl` bits. -/
def adeWord (bytes : List Octet) (ewl word : Nat) : Nat :=
  (List.range ewl).foldl
    (fun diffAid j => diffAid ||| ((adeBit bytes (word * ewl + j)).toNat <<< j)) 0

/-- The loop over the encoded words of an ADE block. -/
def storeAdeWords (bytes : List Octet) (base ewl : Nat) : List Nat → Nat → TimIe → TimIe × Bool
  | [], _, tim => (tim, true)
  | i :: words, aid, tim =>
    let aid := if i = 0 then adeWord bytes ewl i + base else adeWord bytes ewl i + aid
    if adeAidLimit < aid then (tim, false)
    else storeAdeWords bytes base ewl words aid (storeAidOrKeep tim aid)

/-- `morse_dot11_s1g_to_tim_parse_ade_mode`. -/
def s1gToTimParseAdeMode (blockInfo : Memory Octet) (blockOffset pageIndex : Nat)
    (inverseBitmap : Bool) (tim : TimIe) : Except Stop (TimIe × Nat) := do
  let first ← readOctet blockInfo 0
  let ewl := (first &&& 0x07#8).toNat
  let length := ((first &&& 0xF8#8) >>> 3).toNat
  let base := pageIndex * 2048 + blockOffset * 64
  if inverseBitmap ∧ ewl = 0 ∧ length = 0 then
    let (tim, stored) := storeAdeAids base (fun _ => true) (List.range 8) tim
    return (tim, if stored then 1 else length)
  if inverseBitmap ∧ ewl = 7 ∧ length = 1 then
    let diffAid ← readOctet blockInfo 1
    let excludedAid := diffAid.toNat + base
    let (tim, stored) := storeAdeAids base (fun aid => aid != excludedAid) (List.range 8) tim
    return (tim, if stored then 2 else length)
  let ewl := ewl + 1
  let bytes ← readOctets blockInfo ((List.range length).map (1 + ·))
  let (tim, stored) := storeAdeWords bytes base ewl (List.range (length * 8 / ewl)) 0 tim
  return (tim, if stored then length + 1 else length)

/-- Parse one encoded block, whose control octet has been read. -/
def parseEncodedBlock (blockInfo : Memory Octet) (control : Octet) (pageIndex : Nat)
    (tim : TimIe) (timLen : Nat) : Except Stop (TimIe × Nat × Nat) :=
  let encMode := EncMode.ofBits (control &&& 0x03#8)
  let inverseBitmap := ((control &&& 0x04#8) >>> 2) != 0
  let blockOffset := ((control &&& 0xF8#8) >>> 3).toNat
  match encMode with
  | .block => s1gToTimParseBlockMode blockInfo blockOffset pageIndex inverseBitmap tim timLen
  | .aid => s1gToTimParseSingleMode blockInfo blockOffset pageIndex inverseBitmap tim timLen
  | .olb => s1gToTimParseOlbMode blockInfo blockOffset pageIndex inverseBitmap tim timLen
  | .ade => do
      let (tim, consumed) ←
        s1gToTimParseAdeMode blockInfo blockOffset pageIndex inverseBitmap tim
      return (tim, timLen, consumed)
  | .unknown => .error (.refused tim)

/-- The loop of `morse_dot11_s1g_to_tim` over the encoded blocks.  Each round
consumes the control octet at least, so the length of the block information is
enough fuel. -/
def parseEncodedBlocks (encodedBlockInfo : Memory Octet) (blockInfoLen pageIndex : Nat) :
    Nat → Nat → TimIe → Nat → Except Stop (TimIe × Nat)
  | 0, _, tim, timLen => .ok (tim, timLen)
  | fuel + 1, index, tim, timLen =>
    if index < blockInfoLen then do
      let control ← readOctet encodedBlockInfo index
      let (tim, timLen, consumed) ← parseEncodedBlock
        (encodedBlockInfo.shift (index + 1)) control pageIndex tim timLen
      parseEncodedBlocks encodedBlockInfo blockInfoLen pageIndex fuel
        (index + 1 + consumed) tim timLen
    else .ok (tim, timLen)

/-- The result of the block loop: the length covers the largest octet stored,
or, after `goto error`, only the octet that the structure declares. -/
def finishS1gToTim : Except Stop (TimIe × Nat) → Option (TimIe × Nat)
  | .ok (tim, timLen) => some (tim, sizeofTimIe + timLen)
  | .error (.refused tim) => some (tim, sizeofTimIe)
  | .error .fault => none

/-- `morse_dot11_s1g_to_tim`: the filled TIM and the length of the element,
`none` if an unmapped octet of the S1G TIM is read. -/
def s1gToTim (tim : TimIe) (s1gTim : Memory Octet) (totalLen : Nat) : Option (TimIe × Nat) :=
  if totalLen < 2 then some (tim, sizeofTimIe)
  else do
    let dtimCount ← s1gTim 0
    let dtimPeriod ← s1gTim 1
    let tim := { tim with dtimCount := dtimCount, dtimPeriod := dtimPeriod }
    if totalLen < 3 then some (tim, sizeofTimIe)
    else do
      let bitmapControl ← s1gTim 2
      let tim :=
        { tim with
          bitmapCtrl := bitmapControl &&& 0x01#8
          virtualMap := Function.update tim.virtualMap 0 0 }
      let blockInfoLen := totalLen - 3
      let pageIndex := ((bitmapControl &&& 0xC0#8) >>> 6).toNat
      let pageSlice := ((bitmapControl &&& 0x3E#8) >>> 1).toNat
      if blockInfoLen = 0 then
        if pageSlice = s1gTimPageSliceEntirePage then
          some ({ tim with bitmapCtrl := 0 }, sizeofTimIe)
        else some (tim, sizeofTimIe)
      else
        finishS1gToTim
          (parseEncodedBlocks (s1gTim.shift 3) blockInfoLen pageIndex blockInfoLen 0 tim 0)

/-! ## Encoding an 802.11n TIM -/

/-- `struct tim_to_s1g_parse_state`: the octets written so far, whose number is
`index_s1g`, the octets of the virtual map still to be consumed, whose number
is `length_11n`, and the octet the first of them stands for. -/
structure TimToS1gParseState where
  encodedBlockInfo : List Octet
  virtualMap11n : List Octet
  octetOffset11n : Nat

/-! The capacity of the output is a parameter of the encoder.  The source's is
`sizeof(encoded_block_info)`. -/

section Encoder

variable (capacity : Nat)

/-- `s1g_tim_append_octet`: an octet past the capacity is dropped. -/
def s1gTimAppendOctet (encodedBlockInfo : List Octet) (octet : Octet) : List Octet :=
  if encodedBlockInfo.length < capacity then encodedBlockInfo ++ [octet] else encodedBlockInfo

/-- `s1g_tim_reserve_octet`: the index of the reserved octet, which is zero. -/
def s1gTimReserveOctet (encodedBlockInfo : List Octet) : Option (List Octet × Nat) :=
  if encodedBlockInfo.length < capacity then
    some (encodedBlockInfo ++ [0], encodedBlockInfo.length)
  else none

/-- The loop of `consume_11n_tim_octets` that trims holes at the front. -/
def trimHoles : List Octet → Nat → List Octet × Nat
  | [], octetOffset => ([], octetOffset)
  | octet :: octets, octetOffset =>
    if octet = 0 then trimHoles octets ((octetOffset + 1) % 256)
    else (octet :: octets, octetOffset)

/-- `consume_11n_tim_octets`. -/
def consume11nTimOctets (state : TimToS1gParseState) (numOctets : Nat) : TimToS1gParseState :=
  let (virtualMap11n, octetOffset11n) :=
    trimHoles (state.virtualMap11n.drop numOctets) ((state.octetOffset11n + numOctets) % 256)
  { state with virtualMap11n := virtualMap11n, octetOffset11n := octetOffset11n }

/-- Set or, in inverse mode, clear one bit of one subblock. -/
def markSubblock (inverseBitmap : Bool) (subblocks : Nat → Octet) (posM posQ : Nat) :
    Nat → Octet :=
  Function.update subblocks posM
    (if inverseBitmap then subblocks posM &&& ~~~(1#8 <<< posQ)
      else subblocks posM ||| (1#8 <<< posQ))

/-- The loop over the bits of octet `i` of the virtual map; `posOf` turns an
AID into a subblock position. -/
def markOctet (inverseBitmap : Bool) (posOf : Nat → Nat) (aidBase i : Nat) (octet : Octet)
    (subblocks : Nat → Octet) : Nat → Octet :=
  (List.range 8).foldl
    (fun subblocks j =>
      if octet.getLsbD j then
        let aid := (aidBase + i * s1gTimNumAidPerSubblock + j) % 65536
        markSubblock inverseBitmap subblocks (posOf aid) (aid &&& 0x7)
      else subblocks) subblocks

/-- The loop over the octets of the virtual map, from octet `i` on. -/
def markOctets (inverseBitmap : Bool) (posOf : Nat → Nat) (aidBase : Nat) :
    Nat → List Octet → (Nat → Octet) → Nat → Octet
  | _, [], subblocks => subblocks
  | i, octet :: octets, subblocks =>
    markOctets inverseBitmap posOf aidBase (i + 1) octets
      (markOctet inverseBitmap posOf aidBase i octet subblocks)

/-- Copy in the subblocks that have information, and set their bits in the
block bitmap at index `blockBitmap`. -/
def copySubblocks (subblocks : Nat → Octet) (blockBitmap : Nat) :
    List Nat → List Octet → List Octet
  | [], encodedBlockInfo => encodedBlockInfo
  | i :: positions, encodedBlockInfo =>
    if subblocks i = 0 then copySubblocks subblocks blockBitmap positions encodedBlockInfo
    else
      copySubblocks subblocks blockBitmap positions
        ((s1gTimAppendOctet capacity encodedBlockInfo (subblocks i)).modify blockBitmap
          (· ||| (1#8 <<< i)))

/-- The number of subblocks of a block up to the largest AID in use. -/
def clampNumSubblocks (maxAid blockOffset : Nat) : Nat :=
  min ((((maxAid : Int) - (blockOffset * s1gTimNumAidPerBlock : Nat)) / 8 + 1) % 256).toNat
    s1gTimNumSubblocksPerBlock

/-- `morse_dot11_tim_to_s1g_parse_block_mode`. -/
def timToS1gParseBlockMode (state : TimToS1gParseState) (inverseBitmap : Bool) (maxAid : Nat) :
    TimToS1gParseState :=
  let aidBase := state.octetOffset11n * 8
  let subblocksToBlockBoundary :=
    s1gTimNumSubblocksPerBlock - state.octetOffset11n % s1gTimNumSubblocksPerBlock
  let blockOffset := aidToBlockOffset aidBase
  let octets := state.virtualMap11n.take subblocksToBlockBoundary
  let subblocks := markOctets inverseBitmap (fun aid => (aid >>> 3) &&& 0x7) aidBase 0 octets
    (fun _ => if inverseBitmap then 0xFF else 0x00)
  let encodedBlockInfo := s1gTimAppendOctet capacity state.encodedBlockInfo
    (blockControl .block inverseBitmap blockOffset)
  let state := consume11nTimOctets state octets.length
  match s1gTimReserveOctet capacity encodedBlockInfo with
  | none => { state with encodedBlockInfo := encodedBlockInfo }
  | some (encodedBlockInfo, blockBitmap) =>
    { state with
      encodedBlockInfo := copySubblocks capacity subblocks blockBitmap
        (List.range (clampNumSubblocks maxAid blockOffset)) encodedBlockInfo }

/-- One encoded block for each bit of the consumed octet. -/
def appendSingleAids (aidBase : Nat) (control bitmap : Octet) :
    List Nat → List Octet → List Octet
  | [], encodedBlockInfo => encodedBlockInfo
  | remainder :: positions, encodedBlockInfo =>
    if bitmap.getLsbD remainder then
      appendSingleAids aidBase control bitmap positions
        (s1gTimAppendOctet capacity (s1gTimAppendOctet capacity encodedBlockInfo control)
          (BitVec.ofNat 8 ((aidBase ||| remainder) &&& 0x003F)))
    else appendSingleAids aidBase control bitmap positions encodedBlockInfo

/-- `morse_dot11_tim_to_s1g_parse_single_mode`. -/
def timToS1gParseSingleMode (state : TimToS1gParseState) (inverseBitmap : Bool) :
    TimToS1gParseState :=
  let aidBase := state.octetOffset11n * 8
  let bitmap := state.virtualMap11n.headD 0
  let state := consume11nTimOctets state 1
  if inverseBitmap then state
  else
    let control := blockControl .aid inverseBitmap (aidToBlockOffset aidBase)
    { state with
      encodedBlockInfo := appendSingleAids capacity aidBase control bitmap
        (List.range 8) state.encodedBlockInfo }

/-- Append a list of octets, one at a time. -/
def s1gTimAppendOctets (encodedBlockInfo octets : List Octet) : List Octet :=
  octets.foldl (s1gTimAppendOctet capacity) encodedBlockInfo

/-- One past the largest subblock the OLB walk marks, starting from `stopIdx`. -/
def olbStopIdx (aidBase : Nat) : Nat → List Octet → Nat → Nat
  | _, [], stopIdx => stopIdx
  | i, octet :: octets, stopIdx =>
    olbStopIdx aidBase (i + 1) octets
      ((List.range 8).foldl
        (fun stopIdx j =>
          if octet.getLsbD j then
            let posM := (((aidBase + i * s1gTimNumAidPerSubblock + j) % 65536) >>> 3) % 256
            if stopIdx ≤ posM then (posM + 1) % 256 else stopIdx
          else stopIdx) stopIdx)

/-- The empty subblocks from `startIdx` on, before `startIdx + count`. -/
def countEmptyFront (subblocks : Nat → Octet) : Nat → Nat → Nat
  | 0, _ => 0
  | count + 1, startIdx =>
    if subblocks startIdx ≠ 0 then 0 else countEmptyFront subblocks count (startIdx + 1) + 1

/-- Trim empty subblocks off the tail, down to `startIdx`. -/
def trimTail (subblocks : Nat → Octet) (startIdx : Nat) : Nat → Nat
  | 0 => 0
  | stopIdx + 1 =>
    if startIdx < stopIdx + 1 ∧ subblocks stopIdx = 0 then trimTail subblocks startIdx stopIdx
    else stopIdx + 1

/-- The block offset and the range of subblocks that the OLB encoder writes:
in inverse mode the empty blocks at the front and the empty subblocks at the
tail are trimmed. -/
def olbRange (inverseBitmap : Bool) (maxAid octetOffset : Nat) (octets : List Octet)
    (subblocks : Nat → Octet) : Nat × Nat × Nat :=
  let blockOffset := aidToBlockOffset (octetOffset * 8)
  let startIdx := blockOffset * s1gTimNumSubblocksPerBlock
  if inverseBitmap then
    let stopIdx := ((maxAid >>> 3) + 1) % 256
    let emptyFrontSubblocks := countEmptyFront subblocks (stopIdx - startIdx) startIdx
    let emptyFrontBlocks := emptyFrontSubblocks / s1gTimNumSubblocksPerBlock
    let blockOffset := blockOffset + emptyFrontBlocks
    let startIdx := startIdx + s1gTimNumSubblocksPerBlock * emptyFrontBlocks
    (blockOffset, startIdx, trimTail subblocks startIdx stopIdx)
  else (blockOffset, startIdx, olbStopIdx (octetOffset * 8) 0 octets 0)

/-- `morse_dot11_tim_to_s1g_parse_olb_mode`. -/
def timToS1gParseOlbMode (state : TimToS1gParseState) (inverseBitmap : Bool) (maxAid : Nat) :
    TimToS1gParseState :=
  let octetOffset := state.octetOffset11n
  let octets := state.virtualMap11n.take s1gTimMaxBlockSize
  let subblocks := markOctets inverseBitmap (fun aid => (aid >>> 3) % 256) (octetOffset * 8) 0
    octets (fun _ => if inverseBitmap then 0xFF else 0x00)
  let state := consume11nTimOctets state octets.length
  let (blockOffset, startIdx, stopIdx) :=
    olbRange inverseBitmap maxAid octetOffset octets subblocks
  let numSubblocks := (stopIdx + 256 - startIdx) % 256
  if numSubblocks = 0 then state
  else
    { state with
      encodedBlockInfo := s1gTimAppendOctets capacity state.encodedBlockInfo
        (blockControl .olb inverseBitmap blockOffset :: BitVec.ofNat 8 numSubblocks ::
          (List.range (stopIdx - startIdx)).map fun i => subblocks (startIdx + i)) }

/-- The differential AIDs of one octet: each is taken from the entry before
it in the list, which is itself a difference from the third AID on. -/
def adeDiffAids (aidBase : Nat) (octet : Octet) : List Nat → List Nat → List Nat
  | [], diffAidList => diffAidList
  | remainder :: positions, diffAidList =>
    if octet.getLsbD remainder then
      let diffAid := (aidBase ||| remainder) % 64
      adeDiffAids aidBase octet positions
        (diffAidList ++
          [match diffAidList.getLast? with
            | none => diffAid
            | some previous => (diffAid + 65536 - previous) % 65536])
    else adeDiffAids aidBase octet positions diffAidList

/-- `morse_dot11_tim_to_s1g_parse_ade_mode`. -/
def timToS1gParseAdeMode (state : TimToS1gParseState) : TimToS1gParseState :=
  let aidBase := state.octetOffset11n * 8
  let blockOffset := aidToBlockOffset aidBase
  let encodedBlockInfo := s1gTimAppendOctet capacity state.encodedBlockInfo
    (blockControl .ade false blockOffset)
  let diffAidList := adeDiffAids aidBase (state.virtualMap11n.headD 0) (List.range 8) []
  let state := consume11nTimOctets state 1
  if diffAidList = [] then { state with encodedBlockInfo := encodedBlockInfo }
  else
    { state with
      encodedBlockInfo := s1gTimAppendOctets capacity encodedBlockInfo
        (BitVec.ofNat 8 (0x07 ||| (diffAidList.length <<< 3)) ::
          diffAidList.map (BitVec.ofNat 8)) }

/-- One round of the encoding loop; `none` for `goto error`. -/
def encodeRound (encMode : EncMode) (inverseBitmap : Bool) (maxAid : Nat)
    (state : TimToS1gParseState) : Option TimToS1gParseState :=
  match encMode with
  | .block => some (timToS1gParseBlockMode capacity state inverseBitmap maxAid)
  | .aid => some (timToS1gParseSingleMode capacity state inverseBitmap)
  | .olb => some (timToS1gParseOlbMode capacity state inverseBitmap maxAid)
  | .ade => some (timToS1gParseAdeMode capacity state)
  | .unknown => none

/-- The loop of `morse_dot11_tim_to_s1g`.  Each round consumes an octet of the
virtual map at least, so its length is enough fuel. -/
def encodeRounds (encMode : EncMode) (inverseBitmap : Bool) (maxAid : Nat) :
    Nat → TimToS1gParseState → Option TimToS1gParseState
  | 0, state => some state
  | fuel + 1, state =>
    if state.virtualMap11n ≠ [] ∧ state.encodedBlockInfo.length < capacity then
      match encodeRound capacity encMode inverseBitmap maxAid state with
      | some state => encodeRounds encMode inverseBitmap maxAid fuel state
      | none => none
    else some state

/-- The parse state with which `morse_dot11_tim_to_s1g` enters its loop. -/
def initialParseState (tim : TimIe) (timVirtualMapLength : Nat) : TimToS1gParseState :=
  consume11nTimOctets
    { encodedBlockInfo := []
      virtualMap11n := (List.range timVirtualMapLength).map tim.virtualMap
      octetOffset11n := tim.bitmapOffset } 0

/-- The encoded blocks of a TIM in a buffer of the given capacity. -/
def encodeBlocks (encMode : EncMode) (inverseBitmap : Bool) (maxAid : Nat)
    (tim : TimIe) (timVirtualMapLength : Nat) : Option (List Octet) :=
  (encodeRounds capacity encMode inverseBitmap maxAid timVirtualMapLength
    (initialParseState tim timVirtualMapLength)).map (·.encodedBlockInfo)

end Encoder

/-- `morse_dot11_tim_to_s1g`: the S1G TIM and its length. -/
def timToS1g (tim : TimIe) (timVirtualMapLength : Nat) (encMode : EncMode)
    (inverseBitmap : Bool) (maxAid pageSliceNo pageIndex : Nat) : S1gTimIe × Nat :=
  let trafficIndication := tim.bitmapCtrl &&& 0x01#8
  match encodeBlocks s1gTimMaxBlockSize encMode inverseBitmap maxAid tim
      timVirtualMapLength with
  | none =>
    ({ dtimCount := tim.dtimCount
       dtimPeriod := tim.dtimPeriod
       bitmapControl := trafficIndication
       encodedBlockInfo := [] }, 2)
  | some encodedBlockInfo =>
    if trafficIndication ≠ 0 ∨ 0 < encodedBlockInfo.length then
      ({ dtimCount := tim.dtimCount
         dtimPeriod := tim.dtimPeriod
         bitmapControl := trafficIndication ||| (BitVec.ofNat 8 pageSliceNo <<< 1) |||
           (BitVec.ofNat 8 pageIndex <<< 6)
         encodedBlockInfo := encodedBlockInfo }, 2 + encodedBlockInfo.length + 1)
    else
      ({ dtimCount := tim.dtimCount
         dtimPeriod := tim.dtimPeriod
         bitmapControl := trafficIndication
         encodedBlockInfo := [] }, 2)

end Tim
end Morse
