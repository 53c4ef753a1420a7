import Morse.Lib.Octets
import Morse.Lib.Recorded
import Morse.Lib.Segment

/-!
# Firmware images and the bus

The driver downloads the firmware from a 32-bit little-endian ELF image through the bus of the
chip.  What happens meanwhile is recorded: the octets of the image that are read, the octets of
the bounce buffer that are written, the claims and releases of the bus, and its transfers with
the status each returns.
-/

namespace Morse
namespace Firmware

open Lib

/-- What is recorded.  Places in the image and in the bounce buffer count from their start. -/
inductive Event
  /-- Octets of the image are read. -/
  | read (offset length : Nat)
  /-- Octets of the bounce buffer are written. -/
  | fill (offset length : Nat)
  /-- `morse_claim_bus`. -/
  | claimBus
  /-- `morse_release_bus`. -/
  | releaseBus
  /-- `morse_dm_write` of the given turn of a loop. -/
  | dmWrite (turn address : Nat) (data : List (BitVec 8)) (status : Int)
  /-- `morse_dm_read`. -/
  | dmRead (address length : Nat) (status : Int)
  /-- `morse_reg32_write`. -/
  | reg32Write (address value : Nat) (status : Int)
  /-- `morse_reg32_read`. -/
  | reg32Read (address : Nat) (status : Int)
  deriving DecidableEq

/-- `struct firmware`: a file in memory, in front of whatever else is there.  The firmware
loader of the kernel refuses files of more than `INT_MAX` octets. -/
structure Image where
  /-- The memory from the first octet of the file on. -/
  memory : Nat → BitVec 8
  /-- The length of the file. -/
  size : Nat
  size_lt : size < 2 ^ 31

/-- A little-endian number in memory. -/
def number (memory : Nat → BitVec 8) (count offset : Nat) : Nat :=
  octetsNat (segment memory offset count)

theorem number_lt (memory : Nat → BitVec 8) (count offset : Nat) :
    number memory count offset < 256 ^ count := by
  have bound := octetsNat_lt (segment memory offset count)
  rwa [length_segment] at bound

/-- `ROUND_BYTES_TO_WORD` of a 32-bit number. -/
def roundBytesToWord (bytes : Nat) : Nat := (bytes + 3) % 2 ^ 32 / 4 * 4

/-- `ROUND_BYTES_TO_WORD` of a size, as it allocates a bounce buffer. -/
def roundSizeToWord (bytes : Nat) : Nat := (bytes + 3) / 4 * 4

/-- `morse_elf_ehdr`, as far as it is read. -/
structure FileHeader where
  entry : Nat
  phoff : Nat
  phentsize : Nat
  phnum : Nat
  shoff : Nat
  shentsize : Nat
  shnum : Nat
  shstrndx : Nat
  deriving DecidableEq

/-- The magic number, the class and the byte order that an image has to have. -/
def goodMagic (memory : Nat → BitVec 8) : Bool :=
  memory 0 == 0x7f && memory 1 == 0x45 && memory 2 == 0x4c && memory 3 == 0x46 &&
    memory 5 == 1 && memory 4 == 1

/-- The fields of the file header. -/
def fileHeader (memory : Nat → BitVec 8) : FileHeader where
  entry := number memory 4 24
  phoff := number memory 4 28
  phentsize := number memory 2 42
  phnum := number memory 2 44
  shoff := number memory 4 32
  shentsize := number memory 2 46
  shnum := number memory 2 48
  shstrndx := number memory 2 50

/-- `get_file_header`. -/
def getFileHeader (memory : Nat → BitVec 8) : Recorded Event (Option FileHeader) := do
  Recorded.record (.read 0 6)
  if goodMagic memory then do
    Recorded.record (.read 24 28)
    pure (some (fileHeader memory))
  else pure none

/-- `morse_elf_shdr`, as far as it is used. -/
structure SectionHeader where
  name : Nat
  offset : Nat
  size : Nat
  deriving DecidableEq

/-- Where the header of a section stands. -/
def FileHeader.sectionAt (header : FileHeader) (index : Nat) : Nat :=
  header.shoff + index * header.shentsize

/-- The fields of the header of a section. -/
def sectionHeader
    (memory : Nat → BitVec 8)
    (header : FileHeader)
    (index : Nat) : SectionHeader where
  name := number memory 4 (header.sectionAt index)
  offset := number memory 4 (header.sectionAt index + 16)
  size := number memory 4 (header.sectionAt index + 20)

/-- `get_section_header`. -/
def getSectionHeader
    (memory : Nat → BitVec 8)
    (header : FileHeader)
    (index : Nat) : Recorded Event SectionHeader := do
  Recorded.record (.read (header.sectionAt index) 24)
  pure (sectionHeader memory header index)

/-- How many octets of memory `strncmp` reads to compare them with a text that ends them. -/
def comparedOctets (memory : Nat → BitVec 8) : Nat → List (BitVec 8) → Nat
  | _, [] => 0
  | address, octet :: text =>
    if memory address = octet then comparedOctets memory (address + 1) text + 1 else 1

/-- `strncmp` of what is in memory with a text: whether they agree. -/
def strncmp
    (memory : Nat → BitVec 8)
    (address : Nat)
    (text : List (BitVec 8)) : Recorded Event Bool := do
  Recorded.record (.read address (comparedOctets memory address text))
  pure (decide (segment memory address text.length = text))

/-- The header tables lie inside the file, the header of the table of section names among
them. -/
structure TablesInside (image : Image) (header : FileHeader) : Prop where
  /-- The file header. -/
  file : 52 ≤ image.size
  /-- The program headers. -/
  segments : ∀ index, index < header.phnum →
    header.phoff + index * header.phentsize + 32 ≤ image.size
  /-- The section headers. -/
  sections : ∀ index, index < header.shnum ∨ index = header.shstrndx →
    header.sectionAt index + 40 ≤ image.size

end Firmware
end Morse
