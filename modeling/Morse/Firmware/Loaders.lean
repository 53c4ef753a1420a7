import Mathlib.Data.List.Induction
import Morse.Firmware.HostTool

/-!
# The two loaders of a board configuration

The driver and the host tool take the board configuration and the regulatory domain of a country
from the same file.  The driver takes the first section `.board_config` and the first section
behind it whose name goes on with the country, and it writes whole words.  The host tool takes the
last sections that have exactly these names, wherever they stand, and writes their octets.
-/

namespace Morse
namespace Firmware

open Lib

/-! ## What is written -/

/-- Octets filled up to a whole word, as the driver writes them. -/
def padded (octets : List (BitVec 8)) : List (BitVec 8) :=
  octets ++ List.replicate (roundSizeToWord octets.length - octets.length) 0xff

/-- What the driver writes, with the address. -/
def Event.written : Event → Option (Nat × List (BitVec 8))
  | .dmWrite _ address data _ => some (address, data)
  | _ => none

/-- What the host tool writes, with the address. -/
def ToolEvent.written : ToolEvent → Option (Nat × List (BitVec 8))
  | .memWrite _ address data _ => some (address, data)

/-- Where an address lies behind a base, in 32-bit arithmetic. -/
def behind (base address : Nat) : Nat := (address + 2 ^ 32 - base) % 2 ^ 32

/-- Two loaders write the same, one of them in whole words: section by section the same octets,
at the same place behind the address they start at. -/
def SameImage
    (base : Nat)
    (writes : List (Nat × List (BitVec 8)))
    (toolBase : Nat)
    (toolWrites : List (Nat × List (BitVec 8))) : Prop :=
  List.Forall₂
    (fun write toolWrite =>
      behind base write.1 = behind toolBase toolWrite.1 ∧ write.2 = padded toolWrite.2)
    writes toolWrites

/-! ## The file -/

section File

variable (image : Image) (country : List (BitVec 8))

/-- The place of the section names. -/
def Image.strings : Nat :=
  (sectionHeader image.memory (fileHeader image.memory)
    (fileHeader image.memory).shstrndx).offset

/-- The header of a section. -/
def Image.target (index : Nat) : SectionHeader :=
  sectionHeader image.memory (fileHeader image.memory) index

/-- The octets of a section. -/
def Image.content (index : Nat) : List (BitVec 8) :=
  Lib.segment image.memory (image.target index).offset (image.target index).size

/-- A section has the name `.board_config`. -/
def Image.config (index : Nat) : Bool :=
  isBoardConfig image.memory (fileHeader image.memory) image.strings index

/-- The name of a section is that of a regulatory domain and goes on with the country. -/
def Image.regdomLike (index : Nat) : Bool :=
  isRegdom image.memory (fileHeader image.memory) image.strings country index

/-- The name of a section is that of the regulatory domain of the country. -/
def Image.regdomOf (index : Nat) : Bool :=
  isRegdom image.memory (fileHeader image.memory) image.strings (country ++ [0]) index

/-- A board configuration in an ELF file: its tables, the names of its sections and the contents
of those that matter lie inside the file, and there is a section `.board_config`. -/
structure WellFormed : Prop where
  magic : goodMagic image.memory = true
  tables : TablesInside image (fileHeader image.memory)
  /-- The name of each section ends inside the file. -/
  names : ∀ index, index < (fileHeader image.memory).shnum →
    ∃ length, image.strings + (image.target index).name + length < image.size ∧
      image.memory (image.strings + (image.target index).name + length) = 0
  /-- The board configuration and the regulatory domains lie inside the file. -/
  inside : ∀ index, index < (fileHeader image.memory).shnum →
    image.config index = true ∨ image.regdomLike [] index = true →
      (image.target index).offset + (image.target index).size ≤ image.size
  configured : ∃ index, index < (fileHeader image.memory).shnum ∧ image.config index = true

/-- A country of two letters that the file has a regulatory domain for. -/
structure Present : Prop where
  letters : country.length = 2 ∧ 0 ∉ country
  listed : ∃ index, index < (fileHeader image.memory).shnum ∧
    image.regdomOf country index = true

/-! ## The sections that are taken -/

/-- The sections of the file. -/
def Image.sections : List Nat := List.range (fileHeader image.memory).shnum

/-- The first section `.board_config`. -/
def Image.firstConfig : Option Nat := image.sections.find? image.config

/-- The first section from a given one on that goes on with the country. -/
def Image.regdomFrom (start : Nat) : Option Nat :=
  (List.range' start ((fileHeader image.memory).shnum - start)).find? (image.regdomLike country)

/-- The last section `.board_config`. -/
def Image.lastConfig : Option Nat := image.sections.reverse.find? image.config

/-- The last section of the regulatory domain of the country. -/
def Image.lastRegdom : Option Nat := image.sections.reverse.find? (image.regdomOf country)

/-- The driver finds what it looks for: the board configuration, and the regulatory domain behind
it. -/
def Image.Ordered (config regdom : Nat) : Prop :=
  image.firstConfig = some config ∧ image.regdomFrom country config = some regdom

/-- The host tool finds what it looks for among not too many sections, neither of them at the
beginning of the file or empty. -/
structure Image.Filled (config regdom : Nat) : Prop where
  few : (fileHeader image.memory).shnum ≤ maxNumSectionHeaders
  config_eq : image.lastConfig = some config
  regdom_eq : image.lastRegdom country = some regdom
  config_filled : (image.target config).offset ≠ 0 ∧ (image.target config).size ≠ 0
  regdom_filled : (image.target regdom).offset ≠ 0 ∧ (image.target regdom).size ≠ 0

end File

/-! ## The agreement -/

section Agreement

/-- The bus and the allocator do what the driver asks for. -/
def willing (setByOtp : Bool) (country : List (BitVec 8)) : BoardAnswers where
  buffer := true
  regdoms := true
  setByOtp := setByOtp
  config := 0
  regdom := 0
  country := country

/-- The transport and the file do what the host tool asks for. -/
def willingTool (stray : Nat → BitVec 8) (country : List (BitVec 8)) : ToolAnswers where
  file := true
  buffer := fun _ => true
  readable := fun _ => true
  write := fun _ => 0
  stray := stray
  country := country

/-- The file is within the limits of the database in the chip, and the board configuration has an
address that the host tool lets pass. -/
structure WithinLimits (image : Image) (country : List (BitVec 8)) : Prop where
  database : ∀ config regdom, image.Ordered country config regdom →
    roundSizeToWord (image.target config).size + roundSizeToWord (image.target regdom).size ≤ 1024
  flash : (findSections image.memory (fileHeader image.memory) image.strings country).addr &&&
    hostFlashBaseMask ≠ 0

/-- The two loaders agree on a file: one accepts it when the other does, and then they write the
same. -/
structure LoadersAgree
    (image : Image)
    (country : List (BitVec 8))
    (setByOtp : Bool)
    (stray : Nat → BitVec 8)
    (address : Nat) : Prop where
  accept : (bcfLoad image (willing setByOtp country) address).value = 0 ↔
    (loadElf image (willingTool stray country)).value = some 0
  sameImage : (bcfLoad image (willing setByOtp country) address).value = 0 →
    (loadElf image (willingTool stray country)).value = some 0 →
    SameImage address
      ((bcfLoad image (willing setByOtp country) address).log.filterMap Event.written)
      (findSections image.memory (fileHeader image.memory) image.strings country).addr
      ((loadElf image (willingTool stray country)).log.filterMap ToolEvent.written)

/-- What a file has to be like for the loaders to agree: both find what they look for or neither
does, and if they do then the board configuration that the host tool takes is a whole number of
words, and the sections that the driver takes hold the same. -/
structure Alike (image : Image) (country : List (BitVec 8)) : Prop where
  found : (∃ config regdom, image.Ordered country config regdom) ↔
    ∃ config regdom, image.Filled country config regdom
  same : ∀ config regdom toolConfig toolRegdom,
    image.Ordered country config regdom → image.Filled country toolConfig toolRegdom →
    (image.target toolConfig).size % 4 = 0 ∧
      padded (image.content config) = padded (image.content toolConfig) ∧
      padded (image.content regdom) = padded (image.content toolRegdom)

end Agreement

/-! ## The driver -/

section Driver

variable (memory : Nat → BitVec 8) (header : FileHeader) (answers : BoardAnswers)
variable (strings address : Nat)

/-- Two computations have the same value and write the same. -/
def Equal {Value : Type} (first second : Recorded Event Value) : Prop :=
  first.value = second.value ∧
    first.log.filterMap Event.written = second.log.filterMap Event.written

/-- What is recorded, but for what is read. -/
def Event.stored : Event → Option Event
  | .read _ _ => none
  | event => some event

/-- Two computations have the same value and record the same, but for what they read. -/
def SameButReads {Value : Type} (first second : Recorded Event Value) : Prop :=
  first.value = second.value ∧
    first.log.filterMap Event.stored = second.log.filterMap Event.stored

/-- What the driver does with the board configuration that it finds. -/
def takeConfig : Option Nat → Recorded Event (Nat × Int × Int)
  | none => pure (header.shnum, -1, 0)
  | some index =>
    let target := sectionHeader memory header index
    let length := signed (roundBytesToWord target.size)
    if bcfDatabaseSize < length then pure (index, length, -1)
    else do
      writeSection memory index address target length answers.config
      pure (index, length, if answers.config = 0 then 0 else -1)

/-- What the driver does with the regulatory domain that it finds. -/
def takeRegdom (configLen ret : Int) : Option Nat → Recorded Event (Nat × Int)
  | none => pure (header.shnum, ret)
  | some index =>
    let target := sectionHeader memory header index
    let length := signed (roundBytesToWord target.size)
    if bcfDatabaseSize < signed (asWord (configLen + length)) then pure (index, -1)
    else if length < 0 then pure (index, -1)
    else do
      writeSection memory index (asWord (address + configLen)) target length answers.regdom
      pure (index, if answers.regdom = 0 then ret else -1)

variable {memory header answers strings address}

theorem Equal.trans {first second third : Recorded Event Value}
    (left : Equal first second) (right : Equal second third) : Equal first third :=
  ⟨left.1.trans right.1, left.2.trans right.2⟩

theorem SameButReads.trans {first second third : Recorded Event Value}
    (left : SameButReads first second) (right : SameButReads second third) :
    SameButReads first third :=
  ⟨left.1.trans right.1, left.2.trans right.2⟩

theorem SameButReads.equal {first second : Recorded Event Value}
    (same : SameButReads first second) : Equal first second := by
  have written (log : List Event) : log.filterMap Event.written =
      (log.filterMap Event.stored).filterMap Event.written := by
    rw [List.filterMap_filterMap]
    refine List.filterMap_congr fun event _ => ?_
    cases event <;> rfl
  exact ⟨same.1, by rw [written, same.2, ← written]⟩

theorem same_getSectionHeader {rest : SectionHeader → Recorded Event Value} :
    SameButReads (getSectionHeader memory header index >>= rest)
      (rest (sectionHeader memory header index)) := ⟨rfl, rfl⟩

theorem same_strncmp {rest : Bool → Recorded Event Value} :
    SameButReads (strncmp memory place text >>= rest) (rest (reads memory place text)) :=
  ⟨rfl, rfl⟩

theorem same_loadBoardConfig (total : index + turns = header.shnum) :
    SameButReads (loadBoardConfig memory header answers strings address index turns)
      (takeConfig memory header answers address
        ((List.range' index turns).find? (isBoardConfig memory header strings))) := by
  induction turns generalizing index with
  | zero =>
    subst total
    exact ⟨rfl, rfl⟩
  | succ turns ih =>
    rw [List.range'_succ, List.find?_cons, isBoardConfig]
    refine same_getSectionHeader.trans (same_strncmp.trans ?_)
    cases reads memory (strings + (sectionHeader memory header index).name) boardConfigName with
    | true =>
      exact ⟨rfl, rfl⟩
    | false =>
      exact ih (by omega)

theorem same_loadRegdom (total : index + turns = header.shnum) :
    SameButReads (loadRegdom memory header answers strings address configLen ret index turns)
      (takeRegdom memory header answers address configLen ret
        ((List.range' index turns).find? (isRegdom memory header strings answers.country))) := by
  induction turns generalizing index with
  | zero =>
    subst total
    exact ⟨rfl, rfl⟩
  | succ turns ih =>
    rw [List.range'_succ, List.find?_cons, isRegdom]
    refine same_getSectionHeader.trans (same_strncmp.trans ?_)
    cases reads memory (strings + (sectionHeader memory header index).name) regPrefix with
    | false =>
      exact ih (by omega)
    | true =>
      refine same_strncmp.trans ?_
      cases reads memory (strings + (sectionHeader memory header index).name + 8)
        answers.country with
      | true =>
        exact ⟨rfl, rfl⟩
      | false =>
        exact ih (by omega)

theorem Equal.bind {rest other : Value → Recorded Event Result} (equal : Equal first second)
    (later : Equal (rest second.value) (other second.value)) :
    Equal (first >>= rest) (second >>= other) := by
  constructor
  · rw [Recorded.value_bind, equal.1]
    exact later.1
  · rw [Recorded.log_bind, Recorded.log_bind, List.filterMap_append, List.filterMap_append,
      equal.1, equal.2, later.2]

theorem Equal.followed {first second : Recorded Event Value}
    (equal : Equal first second) (rest : Value → Recorded Event Result) :
    Equal (first >>= rest) (second >>= rest) := equal.bind ⟨rfl, rfl⟩

theorem SameButReads.bind {rest other : Value → Recorded Event Result}
    (same : SameButReads first second)
    (later : SameButReads (rest second.value) (other second.value)) :
    SameButReads (first >>= rest) (second >>= other) := by
  constructor
  · rw [Recorded.value_bind, same.1]
    exact later.1
  · rw [Recorded.log_bind, Recorded.log_bind, List.filterMap_append, List.filterMap_append,
      same.1, same.2, later.2]

theorem SameButReads.of_quiet {rest : Value → Recorded Event Result}
    (quiet : first.log.filterMap Event.stored = []) :
    SameButReads (first >>= rest) (rest first.value) := by
  refine ⟨rfl, ?_⟩
  rw [Recorded.log_bind, List.filterMap_append, quiet, List.nil_append]

theorem stored_countRegdoms (index turns : Nat) :
    (countRegdoms memory header strings index turns).log.filterMap Event.stored = [] := by
  induction turns generalizing index with
  | zero => rfl
  | succ turns ih =>
    rw [countRegdoms, same_getSectionHeader.2, same_strncmp.2]
    split
    · rw [Recorded.log_bind, List.filterMap_append, ih]
      rfl
    · exact ih (index + 1)

theorem stored_numRegdoms :
    (numRegdoms memory header answers strings).log.filterMap Event.stored = [] := by
  rw [numRegdoms]
  split
  · rfl
  · exact stored_countRegdoms 0 _

theorem stored_copyRegdom (index : Nat) :
    (copyRegdom memory header strings index).log.filterMap Event.stored = [] := by
  rw [copyRegdom, same_getSectionHeader.2, same_strncmp.2]
  split
  · rfl
  · rfl

theorem stored_listRegdoms (regdoms : Nat) :
    (listRegdoms memory header answers strings regdoms).log.filterMap Event.stored = [] := by
  rw [listRegdoms]
  split
  · rfl
  · refine @Recorded.log_loop_of _ _ (fun log => log.filterMap Event.stored = []) rfl ?_
      stored_copyRegdom 0 _
    intro first second quiet later
    rw [List.filterMap_append, quiet, later, List.append_nil]

end Driver

section Accepts

variable {image : Image} {country : List (BitVec 8)} {setByOtp : Bool} {address : Nat}

/-- What the driver does with the sections that it finds. -/
def takeSections (image : Image) (answers : BoardAnswers) (address : Nat) :
    Recorded Event Int := do
  let (index, configLen, ret) ←
    takeConfig image.memory (fileHeader image.memory) answers address image.firstConfig
  let (index, ret) ← takeRegdom image.memory (fileHeader image.memory) answers address configLen ret
    (image.regdomFrom answers.country index)
  pure (if (fileHeader image.memory).shnum ≤ index then -1 else ret)

theorem takeConfig_le (answers : BoardAnswers) :
    (takeConfig image.memory (fileHeader image.memory) answers address
      image.firstConfig).value.1 ≤ (fileHeader image.memory).shnum := by
  cases found : image.firstConfig with
  | none => exact Nat.le_refl _
  | some index =>
    have inside := List.mem_range.mp (List.mem_of_find?_eq_some found)
    rw [takeConfig]
    split
    · exact Nat.le_of_lt inside
    · exact Nat.le_of_lt inside

theorem same_bcfLoad (magic : goodMagic image.memory = true) (buffer : answers.buffer = true)
    (regdoms : (numRegdoms image.memory (fileHeader image.memory) answers image.strings).value ≠ 0 →
      answers.regdoms = true) :
    SameButReads (bcfLoad image answers address) (takeSections image answers address) := by
  have header : (getFileHeader image.memory).value = some (fileHeader image.memory) := by
    simp [getFileHeader, magic]
  have quiet : (getFileHeader image.memory).log.filterMap Event.stored = [] := by
    simp [getFileHeader, magic, Event.stored]
  rw [bcfLoad, if_pos buffer]
  refine (SameButReads.of_quiet quiet).trans ?_
  rw [header]
  refine same_getSectionHeader.trans ?_
  refine (SameButReads.of_quiet stored_numRegdoms).trans ?_
  rw [if_neg fun missing => Bool.false_ne_true (missing.2.symm.trans (regdoms missing.1))]
  refine (SameButReads.of_quiet (stored_listRegdoms _)).trans ?_
  have first := @same_loadBoardConfig image.memory (fileHeader image.memory)
    answers image.strings address 0 (fileHeader image.memory).shnum (Nat.zero_add _)
  rw [← List.range_eq_range'] at first
  refine first.bind ?_
  exact (same_loadRegdom (Nat.add_sub_cancel' (takeConfig_le answers))).bind ⟨rfl, rfl⟩

theorem equal_bcfLoad (magic : goodMagic image.memory = true) :
    Equal (bcfLoad image (willing setByOtp country) address)
      (takeSections image (willing setByOtp country) address) :=
  (same_bcfLoad magic rfl fun _ => rfl).equal

theorem le_roundSizeToWord (size : Nat) : size ≤ roundSizeToWord size := by
  rw [roundSizeToWord]
  omega

theorem data_writeSection (memory : Nat → BitVec 8) (offset size : Nat) :
    segment (fun index => if index < size then memory (offset + index) else 0xff) 0
      (roundSizeToWord size : Int).toNat = padded (segment memory offset size) := by
  obtain ⟨padding, total⟩ := Nat.le.dest (le_roundSizeToWord size)
  rw [Int.toNat_natCast, padded, length_segment, ← total, segment_filled,
    Nat.add_sub_cancel_left]

theorem WellFormed.small (wellFormed : WellFormed image)
    (inside : index < (fileHeader image.memory).shnum)
    (matters : image.config index = true ∨ image.regdomLike [] index = true) :
    (image.target index).size < 2 ^ 31 := by
  have fits := wellFormed.inside index inside matters
  have limit := image.size_lt
  omega

theorem takeSections_missing
    (missing : ¬ ∃ config regdom, image.Ordered answers.country config regdom) :
    (takeSections image answers address).value = -1 := by
  rw [takeSections]
  cases first : image.firstConfig with
  | none =>
    have none : image.regdomFrom answers.country (fileHeader image.memory).shnum = none := by
      rw [Image.regdomFrom, Nat.sub_self]
      rfl
    simp only [takeConfig, takeRegdom, none, Recorded.value_bind, Recorded.value_pure,
      Nat.le_refl, if_true]
  | some config =>
    have none : image.regdomFrom answers.country config = none := by
      cases found : image.regdomFrom answers.country config with
      | none => rfl
      | some regdom => exact absurd ⟨config, regdom, first, found⟩ missing
    have index : (takeConfig image.memory (fileHeader image.memory) answers
        address (some config)).value.1 = config := by
      rw [takeConfig]
      split
      · rfl
      · rfl
    simp only [Recorded.value_bind, index, none, takeRegdom, Recorded.value_pure, Nat.le_refl,
      if_true]

theorem bcfLoad_refuses (magic : goodMagic image.memory = true)
    (missing : ¬ ∃ config regdom, image.Ordered country config regdom) :
    (bcfLoad image (willing setByOtp country) address).value = -1 :=
  (equal_bcfLoad magic).1.trans (takeSections_missing missing)

theorem regdomLike_nil (like : image.regdomLike country index = true) :
    image.regdomLike [] index = true := by
  rw [Image.regdomLike, isRegdom, Bool.and_eq_true] at *
  exact ⟨like.1, rfl⟩

theorem Image.Ordered.inside {config regdom : Nat} (ordered : image.Ordered country config regdom) :
    (config < (fileHeader image.memory).shnum ∧ image.config config = true) ∧
      regdom < (fileHeader image.memory).shnum ∧ image.regdomLike country regdom = true := by
  obtain ⟨first, next⟩ := ordered
  have below := List.mem_range.mp (List.mem_of_find?_eq_some first)
  obtain ⟨above, within⟩ := List.mem_range'_1.mp (List.mem_of_find?_eq_some next)
  exact ⟨⟨below, List.find?_some first⟩, by omega, List.find?_some next⟩

theorem signed_roundBytesToWord (small : size < 2 ^ 31) (fits : roundSizeToWord size ≤ 1024) :
    signed (roundBytesToWord size) = (roundSizeToWord size : Int) := by
  rw [roundBytesToWord_eq (by omega), signed, if_pos (by omega)]

theorem takeConfig_fits (small : (image.target config).size < 2 ^ 31)
    (fits : roundSizeToWord (image.target config).size ≤ 1024) :
    Equal (takeConfig image.memory (fileHeader image.memory) (willing setByOtp country) address
        (some config))
      ⟨(config, (roundSizeToWord (image.target config).size : Int), 0),
        [.dmWrite config address (padded (image.content config)) 0]⟩ := by
  have length := signed_roundBytesToWord small fits
  have within : ¬ bcfDatabaseSize < (roundSizeToWord (image.target config).size : Int) := by
    rw [bcfDatabaseSize]
    omega
  have data := data_writeSection image.memory (image.target config).offset
    (image.target config).size
  rw [Image.target] at length within data
  rw [takeConfig, length, if_neg within]
  refine ⟨rfl, ?_⟩
  rw [Image.content, Image.target, ← data]
  rfl

theorem takeRegdom_fits (small : (image.target regdom).size < 2 ^ 31)
    (fits : configLen + roundSizeToWord (image.target regdom).size ≤ 1024) :
    Equal (takeRegdom image.memory (fileHeader image.memory) (willing setByOtp country) address
        configLen 0 (some regdom))
      ⟨(regdom, 0),
        [.dmWrite regdom ((address + configLen) % 2 ^ 32) (padded (image.content regdom)) 0]⟩ := by
  have length := signed_roundBytesToWord small (by omega)
  have within : ¬ bcfDatabaseSize <
      signed (asWord (configLen + (roundSizeToWord (image.target regdom).size : Int))) := by
    rw [bcfDatabaseSize, asWord, signed]
    split
    · omega
    · omega
  have positive : ¬ (roundSizeToWord (image.target regdom).size : Int) < 0 := by omega
  have data := data_writeSection image.memory (image.target regdom).offset
    (image.target regdom).size
  rw [Image.target] at length within positive data
  rw [takeRegdom, length, if_neg within]
  refine ⟨rfl, ?_⟩
  rw [Image.content, Image.target, ← data]
  rfl

theorem bcfLoad_accepts (wellFormed : WellFormed image) {config regdom : Nat}
    (ordered : image.Ordered country config regdom)
    (fits : roundSizeToWord (image.target config).size +
      roundSizeToWord (image.target regdom).size ≤ 1024) :
    (bcfLoad image (willing setByOtp country) address).value = 0 ∧
      (bcfLoad image (willing setByOtp country) address).log.filterMap Event.written =
        [(address, padded (image.content config)),
          ((address + roundSizeToWord (image.target config).size) % 2 ^ 32,
            padded (image.content regdom))] := by
  obtain ⟨⟨configBelow, configNamed⟩, regdomBelow, regdomNamed⟩ := ordered.inside
  have configSmall := wellFormed.small configBelow (Or.inl configNamed)
  have regdomSmall := wellFormed.small regdomBelow (Or.inr (regdomLike_nil regdomNamed))
  have first := @takeConfig_fits image country setByOtp address config configSmall (by omega)
  have next := @takeRegdom_fits image country setByOtp address regdom _ regdomSmall fits
  obtain ⟨firstConfig, behindConfig⟩ := ordered
  have written := @equal_bcfLoad image country setByOtp address wellFormed.magic
  have present : ¬ (fileHeader image.memory).shnum ≤ regdom := Nat.not_le.mpr regdomBelow
  have last := next.followed fun result =>
    (pure (if (fileHeader image.memory).shnum ≤ result.1 then -1 else result.2) :
      Recorded Event Int)
  rw [← behindConfig] at last
  rw [takeSections, firstConfig] at written
  have whole := written.trans (@Equal.bind _ _ _ _ _ (fun _ => _) first last)
  refine ⟨whole.1.trans ?_, whole.2⟩
  simp only [Recorded.value_bind, Recorded.value_pure, if_neg present]

end Accepts

/-! ## The host tool -/

section Tool

variable {memory : Nat → BitVec 8} {header : FileHeader} {strings : Nat}
variable {country : List (BitVec 8)}

theorem isRegdom_of_isBoardConfig (config : isBoardConfig memory header strings index = true) :
    isRegdom memory header strings text index = false := by
  rw [isBoardConfig, reads, decide_eq_true_eq] at config
  have length : boardConfigName.length = regPrefix.length + 6 := rfl
  rw [length, segment_add] at config
  have start := congrArg (List.take regPrefix.length) config
  rw [List.take_left' (length_segment _ _ _)] at start
  have different : reads memory (strings + (sectionHeader memory header index).name) regPrefix =
      false := by
    rw [reads, start]
    decide
  rw [isRegdom, different, Bool.false_and]

theorem foldl_lookAt_config (sections : List Nat) (found : Found) {config : Nat}
    (last : sections.reverse.find? (isBoardConfig memory header strings) = some config) :
    (sections.foldl (lookAt memory header strings country) found).addr =
        sectionAddr memory header config ∧
      (sections.foldl (lookAt memory header strings country) found).configOffset =
        (sectionHeader memory header config).offset ∧
      (sections.foldl (lookAt memory header strings country) found).configSize =
        (sectionHeader memory header config).size := by
  induction sections using List.reverseRecOn with
  | nil => cases last
  | append_singleton sections index ih =>
    rw [List.reverse_append, List.reverse_singleton, List.singleton_append,
      List.find?_cons] at last
    rw [List.foldl_append, List.foldl_cons, lookAt]
    cases here : isBoardConfig memory header strings index with
    | true =>
      rw [here] at last
      rw [Option.some.inj last]
      exact ⟨rfl, rfl, rfl⟩
    | false =>
      rw [here] at last
      rw [if_neg Bool.false_ne_true]
      split
      · exact ih last
      · exact ih last

theorem foldl_lookAt_regdom (sections : List Nat) (found : Found) {regdom : Nat}
    (last : sections.reverse.find? (isRegdom memory header strings (country ++ [0])) =
      some regdom) :
    (sections.foldl (lookAt memory header strings country) found).regdomOffset =
        (sectionHeader memory header regdom).offset ∧
      (sections.foldl (lookAt memory header strings country) found).regdomSize =
        (sectionHeader memory header regdom).size := by
  induction sections using List.reverseRecOn with
  | nil => cases last
  | append_singleton sections index ih =>
    rw [List.reverse_append, List.reverse_singleton, List.singleton_append,
      List.find?_cons] at last
    rw [List.foldl_append, List.foldl_cons, lookAt]
    cases config : isBoardConfig memory header strings index with
    | true =>
      rw [isRegdom_of_isBoardConfig config] at last
      exact ih last
    | false =>
      cases here : isRegdom memory header strings (country ++ [0]) index with
      | true =>
        rw [here] at last
        rw [Option.some.inj last]
        exact ⟨rfl, rfl⟩
      | false =>
        rw [here] at last
        exact ih last

end Tool

section ToolAccepts

variable {image : Image} {country : List (BitVec 8)} {stray : Nat → BitVec 8}

theorem regdomLike_of_regdomOf (named : image.regdomOf country index = true) :
    image.regdomLike [] index = true := by
  rw [Image.regdomOf, isRegdom, Bool.and_eq_true] at named
  rw [Image.regdomLike, isRegdom, Bool.and_eq_true]
  exact ⟨named.1, rfl⟩

theorem exists_last
    (listed : ∃ index, index < (fileHeader image.memory).shnum ∧ named index = true) :
    ∃ last, image.sections.reverse.find? named = some last ∧
      last < (fileHeader image.memory).shnum ∧ named last = true := by
  obtain ⟨index, below, here⟩ := listed
  cases found : image.sections.reverse.find? named with
  | none =>
    have absent := List.find?_eq_none.mp found index
      (List.mem_reverse.mpr (List.mem_range.mpr below))
    exact absurd here absent
  | some last =>
    have member := List.mem_reverse.mp (List.mem_of_find?_eq_some found)
    exact ⟨last, rfl, List.mem_range.mp member, List.find?_some found⟩

theorem findSections_eq (config_eq : image.lastConfig = some config)
    (regdom_eq : image.lastRegdom country = some regdom) :
    findSections image.memory (fileHeader image.memory) image.strings country =
      ⟨sectionAddr image.memory (fileHeader image.memory) config, (image.target config).offset,
        (image.target config).size, (image.target regdom).offset,
        (image.target regdom).size⟩ := by
  obtain ⟨addr, configOffset, configSize⟩ := @foldl_lookAt_config image.memory
    (fileHeader image.memory) image.strings country image.sections ⟨0, 0, 0, 0, 0⟩ config config_eq
  obtain ⟨regdomOffset, regdomSize⟩ := @foldl_lookAt_regdom image.memory
    (fileHeader image.memory) image.strings country image.sections ⟨0, 0, 0, 0, 0⟩ regdom regdom_eq
  exact Found.ext addr configOffset configSize regdomOffset regdomSize

theorem loadElfBlob_inside (fits : offset + size ≤ image.size) :
    loadElfBlob image (willingTool stray country) blob offset size addr =
      ⟨some 0, [.memWrite blob addr (segment image.memory offset size) 0]⟩ := by
  have reached : ¬ image.size < offset := by omega
  have data : segment
      (fun index => if offset + index < image.size then image.memory (offset + index)
        else stray index) 0 size = segment image.memory offset size := by
    apply List.ext_getElem (by simp)
    intro index below inside
    rw [length_segment] at below
    have within : offset + index < image.size := by omega
    simp [Lib.segment, within]
  rw [loadElfBlob, if_neg reached]
  simp only [willingTool, data]
  rfl

/-- The two sections that the host tool keeps. -/
structure Kept (image : Image) (country : List (BitVec 8)) (config regdom : Nat) : Prop where
  config_eq : image.lastConfig = some config
  regdom_eq : image.lastRegdom country = some regdom
  config_inside : (image.target config).offset + (image.target config).size ≤ image.size
  regdom_inside : (image.target regdom).offset + (image.target regdom).size ≤ image.size

theorem exists_kept (wellFormed : WellFormed image) (present : Present image country) :
    ∃ config regdom, Kept image country config regdom := by
  obtain ⟨config, lastConfig, configBelow, configNamed⟩ := exists_last wellFormed.configured
  obtain ⟨regdom, lastRegdom, regdomBelow, regdomNamed⟩ := exists_last present.listed
  exact ⟨config, regdom, lastConfig, lastRegdom,
    wellFormed.inside config configBelow (Or.inl configNamed),
    wellFormed.inside regdom regdomBelow (Or.inr (regdomLike_of_regdomOf regdomNamed))⟩

theorem Image.Filled.kept {config regdom toolConfig toolRegdom : Nat}
    (filled : image.Filled country toolConfig toolRegdom)
    (kept : Kept image country config regdom) :
    config = toolConfig ∧ regdom = toolRegdom :=
  ⟨Option.some.inj (kept.config_eq.symm.trans filled.config_eq),
    Option.some.inj (kept.regdom_eq.symm.trans filled.regdom_eq)⟩

theorem loadElf_accepts (magic : goodMagic image.memory = true) {config regdom : Nat}
    (kept : Kept image country config regdom) (filled : image.Filled country config regdom)
    (flash : (findSections image.memory (fileHeader image.memory) image.strings country).addr &&&
      hostFlashBaseMask ≠ 0) :
    loadElf image (willingTool stray country) =
      ⟨some 0,
        [.memWrite 0 (sectionAddr image.memory (fileHeader image.memory) config)
          (image.content config) 0,
        .memWrite 1 ((sectionAddr image.memory (fileHeader image.memory) config +
          (image.target config).size) % 2 ^ 32) (image.content regdom) 0]⟩ := by
  have found := findSections_eq filled.config_eq filled.regdom_eq
  rw [loadElf, if_pos magic, loadBcfSections, if_neg (Nat.not_lt.mpr filled.few)]
  rw [found] at flash
  have strings : (sectionHeader image.memory (fileHeader image.memory)
    (fileHeader image.memory).shstrndx).offset = image.strings := rfl
  have same : (willingTool stray country).country = country := rfl
  simp only [strings, same, found]
  rw [if_neg (not_or.mpr filled.config_filled), if_neg flash,
    if_neg (not_or.mpr filled.regdom_filled), loadFound]
  simp only [loadElfBlob_inside kept.config_inside, loadElfBlob_inside kept.regdom_inside]
  rfl

theorem loadElf_refuses (wellFormed : WellFormed image) {config regdom : Nat}
    (kept : Kept image country config regdom) (missing : ¬ image.Filled country config regdom) :
    (loadElf image (willingTool stray country)).value ≠ some 0 := by
  have found := findSections_eq kept.config_eq kept.regdom_eq
  have strings : (sectionHeader image.memory (fileHeader image.memory)
    (fileHeader image.memory).shstrndx).offset = image.strings := rfl
  have same : (willingTool stray country).country = country := rfl
  rw [loadElf, if_pos wellFormed.magic, loadBcfSections, if_neg Bool.noConfusion]
  simp only [strings, same, found]
  split
  · exact Option.some.inj.mt (by decide)
  · next few =>
      split
      · exact Option.some.inj.mt (by decide)
      · next configFilled =>
          split
          · exact Option.some.inj.mt (by decide)
          · split
            · exact Option.some.inj.mt (by decide)
            · next regdomFilled =>
                exact absurd ⟨Nat.not_lt.mp few, kept.config_eq, kept.regdom_eq,
                  not_or.mp configFilled, not_or.mp regdomFilled⟩ missing

end ToolAccepts

end Firmware
end Morse
