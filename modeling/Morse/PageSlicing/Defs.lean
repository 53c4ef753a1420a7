import Mathlib.Algebra.Group.Nat.Defs
import Morse.Tim.Defs

/-!
# Page slicing

An access point with many stations spreads the traffic indication of one DTIM
over the beacons up to the next.  The DTIM beacon announces the spreading in a
page slice element: which blocks of 64 stations have traffic, from which block
on, and how many blocks a beacon carries.  `morse_insert_page_slice_element`
builds the element from the traffic map that mac80211 delivers.
-/

namespace Morse
namespace PageSlicing

open Tim (aidToBlockOffset)

/-- One octet, `u8`. -/
abbrev Octet := BitVec 8

/-- `S1G_TIM_NUM_SUBBLOCKS_PER_BLOCK`, the octets of a block. -/
def subblocksPerBlock : Nat := 8

/-- `PAGE_BITMAP_NUMBER_OF_BLOCKS_PER_BYTE`. -/
def blocksPerByte : Nat := 8

/-- `DOT11_MAX_TIM_VIRTUAL_MAP_LENGTH`. -/
def maxTimVirtualMapLength : Nat := 251

/-! ## Traffic maps -/

/-- A traffic map in a DTIM beacon as mac80211 builds it: the octets from the
first pair that is not zero to the last octet that is not zero, and the number
of octets left out before them. -/
structure Dtim where
  bitmapOffset : Nat
  virtualMap : List Octet
  even : bitmapOffset % 2 = 0
  fits : bitmapOffset + virtualMap.length ≤ maxTimVirtualMapLength
  first : virtualMap.getD 0 0 ≠ 0 ∨ virtualMap.getD 1 0 ≠ 0
  last : virtualMap.getD (virtualMap.length - 1) 0 ≠ 0

/-- An octet of the whole traffic map. -/
def Dtim.octet (dtim : Dtim) (index : Nat) : Octet :=
  if dtim.bitmapOffset ≤ index then dtim.virtualMap.getD (index - dtim.bitmapOffset) 0 else 0

/-- The octet says that some station has traffic. -/
def someBit (octet : Octet) : Bool := octet != 0

/-- Some of the 64 stations of a block have traffic. -/
def Dtim.blockHasAid (dtim : Dtim) (block : Nat) : Bool :=
  (List.range subblocksPerBlock).any fun subblock =>
    someBit (dtim.octet (subblocksPerBlock * block + subblock))

/-! ## The state of page slicing -/

/-- `struct page_slicing`, what the page slice element is made from and what it
leaves. -/
structure PageSlicing where
  timVirtualMap : Nat → Octet
  timVirtualMapLen : Nat
  timBitmapCtrlOffset : Nat
  pagePeriod : Nat
  pageSliceLength : Nat
  pageSliceCount : Nat
  pageIndex : Nat
  blockOffset : Nat
  timOffset : Nat
  totalNumberOfBlocks : Nat
  pageBitmap : BitVec 32

/-- The part of `morse_page_slicing_process_tim_element` that saves the traffic
map of a DTIM beacon.  The first AID of the map is kept in eight bits. -/
def PageSlicing.saveDtim (pageSlicing : PageSlicing) (dtim : Dtim) : PageSlicing :=
  let firstAidInBlock := dtim.bitmapOffset * 8 % 256
  { pageSlicing with
    timVirtualMap := fun index =>
      if index < dtim.virtualMap.length then dtim.virtualMap.getD index 0
      else pageSlicing.timVirtualMap index
    timVirtualMapLen := dtim.virtualMap.length
    timBitmapCtrlOffset := dtim.bitmapOffset
    blockOffset := aidToBlockOffset firstAidInBlock
    timOffset := 0 }

/-! ## The control field -/

/-- `BMSET` with the mask `GENMASK(high, low)`, in a field that begins at an
octet of the page slice control. -/
def bmset (byte high low val : Nat) : BitVec 24 :=
  BitVec.ofNat 24 (val % 2 ^ (high + 1 - low)) <<< (8 * byte + low)

/-- `BMGET` with that mask. -/
def bmget (byte high low : Nat) (control : BitVec 24) : Nat :=
  (control >>> (8 * byte + low)).toNat % 2 ^ (high + 1 - low)

/-- `morse_page_slice_control_set_page_index`.  The octets are or-ed with
themselves, outside of the mask, and the value. -/
def setPageIndex (control : BitVec 24) (val : Nat) : BitVec 24 := control ||| bmset 0 1 0 val

/-- `morse_page_slice_control_set_page_slice_length`. -/
def setPageSliceLength (control : BitVec 24) (val : Nat) : BitVec 24 := control ||| bmset 0 6 2 val

/-- `morse_page_slice_control_set_page_slice_count`. -/
def setPageSliceCount (control : BitVec 24) (val : Nat) : BitVec 24 := control ||| bmset 0 11 7 val

/-- `morse_page_slice_control_set_block_offset`. -/
def setBlockOffset (control : BitVec 24) (val : Nat) : BitVec 24 := control ||| bmset 1 8 4 val

/-- `morse_page_slice_control_set_tim_offset`. -/
def setTimOffset (control : BitVec 24) (val : Nat) : BitVec 24 := control ||| bmset 2 4 1 val

/-- `struct page_slice_element`. -/
structure PageSliceElement where
  pagePeriod : Nat
  pageSliceControl : BitVec 24
  pageBitmap : List Octet

/-- The page slice length in an element. -/
def PageSliceElement.pageSliceLength (element : PageSliceElement) : Nat :=
  bmget 0 6 2 element.pageSliceControl

/-- The page slice count in an element. -/
def PageSliceElement.pageSliceCount (element : PageSliceElement) : Nat :=
  bmget 0 11 7 element.pageSliceControl

/-- The block offset in an element. -/
def PageSliceElement.blockOffset (element : PageSliceElement) : Nat :=
  bmget 1 8 4 element.pageSliceControl

/-! ## Building the element -/

/-- The variables of the loop over the blocks. -/
structure BlockWalk where
  offset : Nat
  pageBitmap : BitVec 32
  noOfBlocks : Nat

/-- The 64 bits at an offset of the saved map. -/
def PageSlicing.someAidAt (pageSlicing : PageSlicing) (offset : Nat) : Bool :=
  (List.range 8).any fun index => someBit (pageSlicing.timVirtualMap (offset + index))

/-- `block_idx` at the start of the loop. -/
def PageSlicing.firstBlockIdx (pageSlicing : PageSlicing) : Nat :=
  pageSlicing.timBitmapCtrlOffset / subblocksPerBlock

/-- `last_block_idx`. -/
def PageSlicing.lastBlockIdx (pageSlicing : PageSlicing) : Nat :=
  (pageSlicing.timBitmapCtrlOffset + pageSlicing.timVirtualMapLen - 1) / subblocksPerBlock

/-- `page_bitmap_first_block`. -/
def PageSlicing.pageBitmapFirstBlock (pageSlicing : PageSlicing) : Nat :=
  pageSlicing.firstBlockIdx / blocksPerByte * blocksPerByte

/-- A round of the loop: `update_bitmap`, the new offset, and the bit. -/
def PageSlicing.walkBlock (pageSlicing : PageSlicing) (walk : BlockWalk) (blockIdx : Nat) :
    BlockWalk :=
  let isFirst := decide (blockIdx = pageSlicing.blockOffset)
  let isLast := decide (blockIdx = pageSlicing.lastBlockIdx)
  let updateBitmap := isFirst || isLast || pageSlicing.someAidAt walk.offset
  let offset :=
    if isFirst then
      ((blockIdx + 1) * subblocksPerBlock + 256 - pageSlicing.timBitmapCtrlOffset) % 256
    else if isLast then walk.offset
    else (walk.offset + subblocksPerBlock) % 256
  { offset := offset
    pageBitmap :=
      if updateBitmap then
        walk.pageBitmap ||| 1#32 <<< (blockIdx - pageSlicing.pageBitmapFirstBlock)
      else walk.pageBitmap
    noOfBlocks := if updateBitmap then walk.noOfBlocks + 1 else walk.noOfBlocks }

/-- The loop over the blocks. -/
def PageSlicing.walkBlocks (pageSlicing : PageSlicing) : BlockWalk :=
  (List.range' pageSlicing.firstBlockIdx
    (pageSlicing.lastBlockIdx + 1 - pageSlicing.firstBlockIdx)).foldl pageSlicing.walkBlock
      ⟨0, 0, 0⟩

/-- `page_slice_length` and `page_slice_count` for so many blocks. -/
def PageSlicing.divide (pageSlicing : PageSlicing) (noOfBlocks : Nat) : PageSlicing :=
  if noOfBlocks / pageSlicing.pagePeriod = 0 then
    { pageSlicing with
      totalNumberOfBlocks := noOfBlocks
      pageSliceLength := 1
      pageSliceCount := noOfBlocks }
  else
    { pageSlicing with
      totalNumberOfBlocks := noOfBlocks
      pageSliceLength := noOfBlocks / pageSlicing.pagePeriod
      pageSliceCount := pageSlicing.pagePeriod }

/-- `page_bitmap_size`. -/
def PageSlicing.pageBitmapSize (pageSlicing : PageSlicing) : Nat :=
  (pageSlicing.lastBlockIdx - pageSlicing.blockOffset) / blocksPerByte + 1

/-- `page_slice_control`, from an allocated, that is zeroed, element. -/
def PageSlicing.control (pageSlicing : PageSlicing) : BitVec 24 :=
  let control := setPageIndex 0 pageSlicing.pageIndex
  let control := setPageSliceLength control pageSlicing.pageSliceLength
  let control := setPageSliceCount control pageSlicing.pageSliceCount
  let control := setBlockOffset control pageSlicing.blockOffset
  setTimOffset control pageSlicing.timOffset

/-- The octets of a number of 32 bits. -/
def octets32 (word : BitVec 32) : List Octet :=
  [word.setWidth 8, (word >>> 8).setWidth 8, (word >>> 16).setWidth 8, (word >>> 24).setWidth 8]

/-- `morse_insert_page_slice_element`; `allocates` says whether there is memory
for the element. -/
def insertPageSliceElement (pageSlicing : PageSlicing) (allocates : Bool) :
    Option PageSliceElement × PageSlicing :=
  let walk := pageSlicing.walkBlocks
  let pageSlicing := pageSlicing.divide walk.noOfBlocks
  if allocates then
    (some
      { pagePeriod := pageSlicing.pagePeriod
        pageSliceControl := pageSlicing.control
        pageBitmap := (octets32 walk.pageBitmap).take pageSlicing.pageBitmapSize },
      { pageSlicing with pageBitmap := walk.pageBitmap })
  else (none, { pageSlicing with timVirtualMapLen := 0 })

/-- The element of a DTIM beacon, and what it leaves. -/
def dtimElement (pageSlicing : PageSlicing) (dtim : Dtim) (allocates : Bool) :
    Option PageSliceElement × PageSlicing :=
  insertPageSliceElement (pageSlicing.saveDtim dtim) allocates

/-- `morse_page_slicing_init`: the page period is that between DTIM beacons. -/
def morsePageSlicingInit (dtimPeriod : Nat) : PageSlicing where
  timVirtualMap := fun _ => 0
  timVirtualMapLen := 0
  timBitmapCtrlOffset := 0
  pagePeriod := dtimPeriod
  pageSliceLength := if dtimPeriod ≠ 0 then 32 / dtimPeriod else 0
  pageSliceCount := 0
  pageIndex := 0
  blockOffset := 0
  timOffset := 0
  totalNumberOfBlocks := 0
  pageBitmap := 0

end PageSlicing
end Morse
