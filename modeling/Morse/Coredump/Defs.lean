import Morse.Firmware.Download
import Morse.Lib.Layout

/-!
# The core dump of the chip

`coredump_build` makes an ELF core file of the memory regions that the firmware describes and of
notes about the driver.  A first pass over the regions and the notes counts the program headers
and the octets of the file; a second one writes a header and the contents for each region of the
general kind and for each note.

What the builder does is recorded: the claims and releases of the bus, the reads on it, and the
octets it stores in the file, which is all zero when it is allocated.
-/

namespace Morse
namespace Coredump

open Lib
open Firmware (roundBytesToWord roundSizeToWord)

/-- What is recorded. -/
inductive Event
  /-- `morse_claim_bus`. -/
  | claimBus
  /-- `morse_release_bus`. -/
  | releaseBus
  /-- `morse_reg32_read`. -/
  | reg32Read (address : Nat) (status : Int)
  /-- `morse_dm_read`. -/
  | dmRead (address length : Nat) (status : Int)
  /-- Octets are stored in the file. -/
  | store (offset : Nat) (octets : List (BitVec 8))

/-- `struct morse_coredump_mem_region`. -/
structure Region where
  type : BitVec 32
  start : BitVec 32
  len : BitVec 32

/-- `MORSE_MEM_REGION_TYPE_GENERAL`. -/
def memRegionTypeGeneral : BitVec 32 := 1

/-- `MORSE_MEM_REGION_TYPE_ASSERT_INFO`. -/
def memRegionTypeAssertInfo : BitVec 32 := 2

/-- What the allocator and the bus answer for one region. -/
structure Answer where
  /-- Whether there is memory for the information about a stop. -/
  information : Bool
  /-- Whether there is memory to read into. -/
  buffer : Bool
  /-- The status of the read. -/
  status : Int
  /-- Whether it is known why the chip stopped once the region was looked at. -/
  found : Bool

/-- `struct morse_elf_note`: its contents are allocated by `kzalloc`, which gives far less than
`INT_MAX` octets, and its name is a string. -/
structure Note where
  type : BitVec 32
  name : List (BitVec 8)
  data : List (BitVec 8)
  ended : 0 ∉ name
  small : roundSizeToWord (name.length + 1) + data.length < 2 ^ 31

namespace Note

/-- `namesz`, rounded up so that the data are aligned. -/
def namesz (note : Note) : Nat := roundSizeToWord (note.name.length + 1)

/-- `datasz`. -/
def datasz (note : Note) : Nat := note.data.length

/-- The name and the data, as `meta_append` keeps them. -/
def content (note : Note) : List (BitVec 8) :=
  note.name ++ List.replicate (note.namesz - note.name.length) 0 ++ note.data

/-- The octets of a note in the file. -/
def filesz (note : Note) : Nat := roundSizeToWord (12 + note.namesz + note.datasz)

end Note

/-- The regions with what is answered for each of them. -/
abbrev Regions := List (Region × Answer)

/-- `elf_size_of_all_memory_regions`.  The sums of sizes stay far below `2 ^ 64`, as a firmware
file of less than `2 ^ 31` octets describes its regions by 16 octets each. -/
def sizeOfAllMemoryRegions (regions : Regions) : Nat :=
  (regions.map fun entry => 32 + entry.1.len.toNat).sum

/-- `elf_size_of_all_notes`. -/
def sizeOfAllNotes (notes : List Note) : Nat := (notes.map fun note => 32 + note.filesz).sum

/-- The size of the file. -/
def fileSize (regions : Regions) (notes : List Note) : Nat :=
  52 + sizeOfAllMemoryRegions regions + sizeOfAllNotes notes

/-- How many program headers are counted. -/
def phnum (regions : Regions) (notes : List Note) : Nat := regions.length + notes.length

/-- Some numbers of four octets. -/
def words (numbers : List Nat) : List (BitVec 8) := numbers.flatMap (natOctets 4)

/-- What `elf_init_header` makes of the header: the count is kept in two octets. -/
def elfHeader (phnum : Nat) : List (BitVec 8) :=
  [0x7f, 0x45, 0x4c, 0x46, 1, 1, 1, 0] ++ List.replicate 8 0 ++
    natOctets 2 4 ++ natOctets 2 243 ++ words [1, 0, 52, 0, 0] ++
    natOctets 2 52 ++ natOctets 2 32 ++ natOctets 2 phnum ++ List.replicate 6 0

/-- Whether `read_memory_region` succeeds. -/
def readable (region : Region) (answer : Answer) : Bool :=
  !decide (2 ^ 31 - 1 < roundBytesToWord region.len.toNat) && answer.buffer &&
    decide (answer.status = 0)

/-- What `read_memory_region` copies: the buffer that was read, and what is behind it in the
memory of the host where the region is longer. -/
def copied (chip stray : Nat → BitVec 8) (region : Region) : List (BitVec 8) :=
  segment
    (fun index => if index < roundBytesToWord region.len.toNat
      then chip (region.start.toNat + index) else stray index)
    0 region.len.toNat

/-- The reads of `read_memory_region`. -/
def readRegion (region : Region) (answer : Answer) : Recorded Event Unit :=
  if 2 ^ 31 - 1 < roundBytesToWord region.len.toNat then pure ⟨⟩
  else if !answer.buffer then pure ⟨⟩
  else if region.len = 4 then
    Recorded.record (.reg32Read region.start.toNat answer.status)
  else
    Recorded.record (.dmRead region.start.toNat (roundBytesToWord region.len.toNat)
      answer.status)

/-- `get_stop_info`. -/
def getStopInfo : Regions → Recorded Event Unit
  | [] => pure ⟨⟩
  | (region, answer) :: rest =>
    if region.type ≠ memRegionTypeAssertInfo then getStopInfo rest
    else if region.len.toNat < 9 then getStopInfo rest
    else if !answer.information then getStopInfo rest
    else do
      readRegion region answer
      if answer.found then pure ⟨⟩
      else getStopInfo rest

/-- `elf_copy_memory_regions`, with the place of the next program header and of the next
contents. -/
def copyMemoryRegions (chip stray : Nat → BitVec 8) :
    Regions → Nat → Nat → Recorded Event (Nat × Nat)
  | [], phdr, offset => pure (phdr, offset)
  | (region, answer) :: rest, phdr, offset =>
    if region.type ≠ memRegionTypeGeneral then copyMemoryRegions chip stray rest phdr offset
    else do
      Recorded.record (.store phdr
        (words [1, offset, region.start.toNat, region.start.toNat]))
      Recorded.record (.store (phdr + 16) (words [region.len.toNat, region.len.toNat]))
      Recorded.record (.store (phdr + 24) (words [7, 0]))
      readRegion region answer
      if readable region answer then do
        Recorded.record (.store offset (copied chip stray region))
        copyMemoryRegions chip stray rest (phdr + 32) (offset + region.len.toNat)
      else do
        Recorded.record (.store (phdr + 16) (words [0, 0]))
        copyMemoryRegions chip stray rest (phdr + 32) offset

/-- `elf_copy_notes`. -/
def copyNotes : List Note → Nat → Nat → Recorded Event Unit
  | [], _, _ => pure ⟨⟩
  | note :: rest, phdr, offset => do
      Recorded.record (.store phdr (words [4, offset]))
      Recorded.record (.store (phdr + 16) (words [note.filesz, note.filesz]))
      Recorded.record (.store offset (words [note.namesz, note.datasz, note.type.toNat]))
      Recorded.record (.store (offset + 12) note.content)
      copyNotes rest (phdr + 32) (offset + note.filesz)

/-- `coredump_build`, given the notes and whether there is memory for the file.  The place of
the contents is computed from the count as the header keeps it. -/
def coredumpBuild
    (chip stray : Nat → BitVec 8)
    (regions : Regions)
    (notes : List Note)
    (enough : Bool) : Recorded Event Int := do
  Recorded.record .claimBus
  getStopInfo regions
  if enough then do
    Recorded.record (.store 0 (elfHeader (phnum regions notes)))
    let (phdr, offset) ← copyMemoryRegions chip stray regions 52
      (52 + 32 * (phnum regions notes % 2 ^ 16))
    Recorded.record .releaseBus
    copyNotes notes phdr offset
    pure 0
  else pure (-12)

/-- What is stored in the file by an event. -/
def Event.apply (file : Nat → BitVec 8) : Event → Nat → BitVec 8
  | .store offset octets => overwrite file offset octets
  | _ => file

/-- The file after some events. -/
def stored (file : Nat → BitVec 8) (log : List Event) : Nat → BitVec 8 :=
  log.foldl Event.apply file

/-- The file that is built. -/
def coredump
    (chip stray : Nat → BitVec 8)
    (regions : Regions)
    (notes : List Note) : Nat → BitVec 8 :=
  stored (fun _ => 0) (coredumpBuild chip stray regions notes true).log

end Coredump
end Morse
