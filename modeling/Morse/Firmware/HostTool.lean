import Morse.Firmware.Claims

/-!
# The board configuration in the host tool

The host tool loads a board configuration by itself, from the file that the driver takes it from.
It goes once through all sections, keeps what it finds of the board configuration and of the
regulatory domain, and writes the two one behind the other.
-/

namespace Morse
namespace Firmware

open Lib

/-- Whether a text stands at some place in memory. -/
def reads (memory : Nat → BitVec 8) (address : Nat) (text : List (BitVec 8)) : Bool :=
  decide (segment memory address text.length = text)

/-- The address of a section. -/
def sectionAddr (memory : Nat → BitVec 8) (header : FileHeader) (index : Nat) : Nat :=
  number memory 4 (header.sectionAt index + 12)

/-- A section has the name `.board_config`. -/
def isBoardConfig
    (memory : Nat → BitVec 8)
    (header : FileHeader)
    (strings index : Nat) : Bool :=
  reads memory (strings + (sectionHeader memory header index).name) boardConfigName

/-- The name of a section is `.regdom_` followed by some text. -/
def isRegdom
    (memory : Nat → BitVec 8)
    (header : FileHeader)
    (strings : Nat)
    (text : List (BitVec 8))
    (index : Nat) : Bool :=
  reads memory (strings + (sectionHeader memory header index).name) regPrefix &&
    reads memory (strings + (sectionHeader memory header index).name + 8) text

/-- What the host tool does to the chip. -/
inductive ToolEvent
  /-- `morsectrl_transport_mem_write` of one of the two blobs. -/
  | memWrite (blob address : Nat) (data : List (BitVec 8)) (status : Int)
  deriving DecidableEq

/-- What is answered to the host tool, and the country of its command line. -/
structure ToolAnswers where
  /-- Whether the file can be loaded into memory. -/
  file : Bool
  /-- Whether there is a transport buffer for each blob. -/
  buffer : Nat → Bool
  /-- Whether each blob can be read without an error. -/
  readable : Nat → Bool
  /-- The status of writing each blob. -/
  write : Nat → Int
  /-- What a transport buffer holds before it is filled. -/
  stray : Nat → BitVec 8
  /-- The country, without the end of the text. -/
  country : List (BitVec 8)

/-- What `load_bcf_sections` keeps of the sections it goes through. -/
@[ext]
structure Found where
  addr : Nat
  configOffset : Nat
  configSize : Nat
  regdomOffset : Nat
  regdomSize : Nat
  deriving DecidableEq

/-- One turn of the loop over the sections. -/
def lookAt
    (memory : Nat → BitVec 8)
    (header : FileHeader)
    (strings : Nat)
    (country : List (BitVec 8))
    (found : Found)
    (index : Nat) : Found :=
  if isBoardConfig memory header strings index then
    { found with
      addr := sectionAddr memory header index
      configOffset := (sectionHeader memory header index).offset
      configSize := (sectionHeader memory header index).size }
  else if isRegdom memory header strings (country ++ [0]) index then
    { found with
      regdomOffset := (sectionHeader memory header index).offset
      regdomSize := (sectionHeader memory header index).size }
  else found

/-- The loop over the sections. -/
def findSections
    (memory : Nat → BitVec 8)
    (header : FileHeader)
    (strings : Nat)
    (country : List (BitVec 8)) : Found :=
  (List.range header.shnum).foldl (lookAt memory header strings country) ⟨0, 0, 0, 0, 0⟩

/-- `load_elf_blob`.  It does not return when the blob begins behind the end of the file: what is
left of the file is then taken for a huge number and waited for. -/
def loadElfBlob
    (image : Image)
    (answers : ToolAnswers)
    (blob offset size addr : Nat) : Recorded ToolEvent (Option Int) :=
  if answers.buffer blob = false then pure (some (-12))
  else if answers.readable blob = false then pure (some (-2))
  else if image.size < offset then pure none
  else do
    Recorded.record (.memWrite blob addr
      (segment
        (fun index =>
          if offset + index < image.size then image.memory (offset + index)
          else answers.stray index)
        0 size)
      (answers.write blob))
    pure (some (if answers.write blob = 0 then 0 else -6))

/-- `HOST_FLASH_BASE_MASK`. -/
def hostFlashBaseMask : Nat := 0xffff0000

/-- `MAX_NUM_SECTION_HEADERS`. -/
def maxNumSectionHeaders : Nat := 100

/-- The loop that loads the two blobs.  The status of a blob is kept in a variable of the loop:
a failure leaves the loop and is not returned. -/
def loadFound
    (image : Image)
    (answers : ToolAnswers)
    (found : Found) : Recorded ToolEvent (Option Int) := do
  match ← loadElfBlob image answers 0 found.configOffset found.configSize found.addr with
  | none => pure none
  | some status =>
    if status < 0 then pure (some 0)
    else do
      match ← loadElfBlob image answers 1 found.regdomOffset found.regdomSize
        ((found.addr + found.configSize) % 2 ^ 32) with
      | none => pure none
      | some _ => pure (some 0)

/-- `load_bcf_sections`: what it returns, if it does. -/
def loadBcfSections
    (image : Image)
    (answers : ToolAnswers)
    (header : FileHeader) : Recorded ToolEvent (Option Int) :=
  if answers.file = false then pure (some (-2))
  else if maxNumSectionHeaders < header.shnum then pure (some (-1))
  else
    let strings := (sectionHeader image.memory header header.shstrndx).offset
    let found := findSections image.memory header strings answers.country
    if found.configOffset = 0 ∨ found.configSize = 0 then pure (some (-6))
    else if found.addr &&& hostFlashBaseMask = 0 then pure (some (-6))
    else if found.regdomOffset = 0 ∨ found.regdomSize = 0 then pure (some (-6))
    else loadFound image answers found

/-- `load_elf` for a board configuration. -/
def loadElf (image : Image) (answers : ToolAnswers) : Recorded ToolEvent (Option Int) :=
  if goodMagic image.memory then loadBcfSections image answers (fileHeader image.memory)
  else pure (some (-6))

end Firmware
end Morse
