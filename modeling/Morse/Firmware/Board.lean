import Morse.Firmware.LoadersAgree

/-!
# The download of a board configuration

The board configuration and the regulatory domain of a country go to the chip in whole words, one
behind the other.  The driver looks for the regulatory domain only from the board configuration on,
and it does not look whether a section lies inside the file.
-/

namespace Morse
namespace Firmware

open Lib

/-! ## The list of regulatory domains -/

/-- `strscpy` with room for so many octets. -/
def strscpy (memory : Nat → BitVec 8) : Nat → Nat → List (BitVec 8)
  | _, 0 => []
  | address, count + 1 =>
    if count = 0 ∨ memory address = 0 then []
    else memory address :: strscpy memory (address + 1) count

/-- The loop that copies the codes of the regulatory domains, one behind the other. -/
def copyCodes (memory : Nat → BitVec 8) (header : FileHeader) (strings : Nat) :
    Nat → Nat → List (List (BitVec 8))
  | _, 0 => []
  | index, turns + 1 =>
    let name := strings + (sectionHeader memory header index).name
    if segment memory name regPrefix.length = regPrefix then
      strscpy memory (name + 8) 3 :: copyCodes memory header strings (index + 1) turns
    else copyCodes memory header strings (index + 1) turns

/-- `regdoms` and `num_regdoms` of `struct morse`. -/
structure RegdomList where
  regdoms : Option (List (List (BitVec 8)))
  numRegdoms : Nat
  deriving DecidableEq

variable (image : Image) (answers : BoardAnswers) (address : Nat) (before : RegdomList)

/-- How many regulatory domains `morse_bcf_load` counts. -/
def Image.numRegdoms : Nat :=
  (Firmware.numRegdoms image.memory (fileHeader image.memory) answers image.strings).value

/-- What `morse_bcf_load` leaves of the list of regulatory domains. -/
def boardRegdoms : RegdomList :=
  if answers.buffer = false ∨ goodMagic image.memory = false then before
  else if image.numRegdoms answers = 0 then ⟨none, 0⟩
  else if answers.regdoms = false then ⟨none, image.numRegdoms answers⟩
  else if answers.setByOtp = true then
    ⟨some [(answers.country.take 2).takeWhile (· ≠ 0)], image.numRegdoms answers⟩
  else
    ⟨some (copyCodes image.memory (fileHeader image.memory) image.strings 0
      (fileHeader image.memory).shnum), image.numRegdoms answers⟩

/-! ## What is relied on -/

/-- The country of a section: what stands behind `.regdom_`, as far as two letters. -/
def Image.countryOf (index : Nat) : List (BitVec 8) :=
  (Lib.segment image.memory (image.strings + (image.target index).name + 8) 2).takeWhile (· ≠ 0)

/-- The countries that are to be listed. -/
def Image.countries : List (List (BitVec 8)) :=
  if answers.setByOtp = true then [(answers.country.take 2).takeWhile (· ≠ 0)]
  else (image.sections.filter (image.regdomLike [])).map image.countryOf

/-- A board configuration and a regulatory domain of the country fit into the database. -/
structure Image.Fitting (config regdom : Nat) : Prop where
  board : config < (fileHeader image.memory).shnum ∧ image.config config = true
  domain : regdom < (fileHeader image.memory).shnum ∧
    image.regdomLike answers.country regdom = true
  fits : roundSizeToWord (image.target config).size +
    roundSizeToWord (image.target regdom).size ≤ 1024

/-- There are two sections that fit, and both writes succeed. -/
def Image.Loadable : Prop :=
  (∃ config regdom, image.Fitting answers config regdom) ∧ answers.config = 0 ∧ answers.regdom = 0

/-- The length of a section, as the driver computes it. -/
def Image.length (index : Nat) : Int := signed (roundBytesToWord (image.target index).size)

/-- A section with its padding lies inside the file. -/
def Image.Inside (index : Nat) : Prop :=
  (image.target index).offset + roundSizeToWord (image.target index).size ≤ image.size

/-- The bounce buffer is not left when it is filled, nor the image when a section is copied that is
written then. -/
def Image.Keeps : Event → Prop
  | .fill offset length => offset + length ≤ roundSizeToWord image.size
  | .dmWrite index _ _ _ =>
    (image.target index).offset + asSize (image.length index) ≤ image.size
  | _ => True

/-- What is relied on: the image is accepted when it should be, and then the chip holds its
sections; nothing is copied from behind the image or to behind the bounce buffer; and the
regulatory domains are listed. -/
structure BoardLoaded : Prop where
  accepts : (bcfLoad image answers address).value = 0 ↔ image.Loadable answers
  chip : (bcfLoad image answers address).value = 0 → ∃ config regdom,
    image.Fitting answers config regdom ∧
      (bcfLoad image answers address).log.filterMap Event.written =
        [(address, padded (image.content config)),
          ((address + roundSizeToWord (image.target config).size) % 2 ^ 32,
            padded (image.content regdom))]
  inside : ∀ event ∈ (bcfLoad image answers address).log, image.Keeps event
  regdoms : (boardRegdoms image answers before).regdoms.getD [] = image.countries answers ∧
    (boardRegdoms image answers before).numRegdoms = (image.countries answers).length

/-- The test that lets a board configuration be written. -/
abbrev Image.TakesConfig (config : Nat) : Prop := image.length config ≤ bcfDatabaseSize

/-- The tests that let a regulatory domain be written behind a board configuration. -/
abbrev Image.TakesRegdom (config regdom : Nat) : Prop :=
  signed (asWord (image.length config + image.length regdom)) ≤ bcfDatabaseSize ∧
    0 ≤ image.length regdom

/-- When a download does what is relied on. -/
structure BoardLoads : Prop where
  /-- Without a bounce buffer the list is that of before. -/
  buffer : answers.buffer = false → ¬ image.Loadable answers ∧
    before.regdoms.getD [] = image.countries answers ∧
      before.numRegdoms = (image.countries answers).length
  regdoms : answers.buffer = true → image.numRegdoms answers ≠ 0 → answers.regdoms = true
  /-- The sections that are taken lie inside the image. -/
  config : answers.buffer = true → ∀ config, image.firstConfig = some config →
    image.TakesConfig config → image.Inside config
  regdom : answers.buffer = true → ∀ config regdom, image.Ordered answers.country config regdom →
    image.TakesRegdom config regdom → image.Inside regdom
  /-- If two sections fit, or those that are found are taken, then those that are found fit. -/
  ordered : answers.buffer = true → answers.config = 0 → answers.regdom = 0 →
    (∃ config regdom, image.Fitting answers config regdom ∨
      image.Ordered answers.country config regdom ∧ image.TakesConfig config ∧
        image.TakesRegdom config regdom) →
    ∃ config regdom, image.Ordered answers.country config regdom ∧
      image.Fitting answers config regdom

/-! ## Sections -/

variable {image answers address}

/-- What is recorded when a section is written, but for what is read. -/
def Image.block (image : Image) (index place : Nat) (status : Int) : List Event :=
  [.fill 0 (asSize (image.length index)),
    .fill (image.target index).size (asWord (image.length index - (image.target index).size)),
    .claimBus,
    .dmWrite index place
      (Lib.segment
        (fun octet =>
          if octet < (image.target index).size then image.memory
            ((image.target index).offset + octet)
          else 0xff)
        0 (image.length index).toNat)
      status,
    .releaseBus]

theorem Image.Inside.length_eq {index : Nat} (inside : image.Inside index) :
    image.length index = (roundSizeToWord (image.target index).size : Int) := by
  have bound := image.size_lt
  have above := le_roundSizeToWord (image.target index).size
  rw [Image.Inside] at inside
  rw [Image.length, roundBytesToWord_eq (by omega), signed, if_pos (by omega)]

theorem Image.inside_iff {index place : Nat} {status : Int} :
    image.Inside index ↔ ∀ event ∈ image.block index place status, image.Keeps event := by
  have bound := image.size_lt
  have buffer := le_roundSizeToWord image.size
  have above := le_roundSizeToWord (image.target index).size
  have small : (image.target index).size < 2 ^ 32 := number_lt _ _ _
  have room : roundSizeToWord image.size < 2 ^ 31 + 4 := by
    rw [roundSizeToWord]
    omega
  simp only [Image.block, List.forall_mem_cons, Image.Keeps, true_and, List.not_mem_nil,
    false_implies, implies_true, and_true]
  constructor
  · intro inside
    rw [inside.length_eq, asSize, asWord]
    rw [Image.Inside] at inside
    omega
  · rintro ⟨-, padding, copied⟩
    have length : image.length index = signed (roundBytesToWord (image.target index).size) := rfl
    rw [length, signed, roundBytesToWord, asSize] at copied
    rw [length, signed, roundBytesToWord, asWord] at padding
    rw [Image.Inside, roundSizeToWord]
    split at copied
    · next low =>
        rw [if_pos low] at padding
        omega
    · next high =>
        rw [if_neg high] at padding
        omega

/-! ## What is recorded -/

theorem takeConfig_some (config : Nat) :
    let taken := takeConfig image.memory (fileHeader image.memory) answers address (some config)
    taken.value = (config, image.length config,
        if image.TakesConfig config ∧ answers.config = 0 then 0 else -1) ∧
      taken.log.filterMap Event.stored =
        if image.TakesConfig config then image.block config address answers.config else [] := by
  dsimp only
  rw [takeConfig]
  split
  case isTrue above =>
    have refused : ¬ image.TakesConfig config := Int.not_le.mpr above
    rw [if_neg refused, if_neg fun both => refused both.1]
    exact ⟨rfl, rfl⟩
  case isFalse fits =>
    have takes : image.TakesConfig config := Int.not_lt.mp fits
    simp only [takes, true_and, if_true]
    exact ⟨rfl, rfl⟩

theorem takeRegdom_some (config regdom : Nat) (ret : Int) :
    let taken := takeRegdom image.memory (fileHeader image.memory) answers address
      (image.length config) ret (some regdom)
    taken.value =
        (regdom, if image.TakesRegdom config regdom ∧ answers.regdom = 0 then ret else -1) ∧
      taken.log.filterMap Event.stored =
        if image.TakesRegdom config regdom then
          image.block regdom (asWord (address + image.length config)) answers.regdom
        else [] := by
  dsimp only
  rw [takeRegdom]
  split
  case isTrue above =>
    have refused : ¬ image.TakesRegdom config regdom :=
      fun takes => absurd takes.1 (Int.not_le.mpr above)
    rw [if_neg refused, if_neg fun both => refused both.1]
    exact ⟨rfl, rfl⟩
  case isFalse fits =>
    split
    case isTrue negative =>
      have refused : ¬ image.TakesRegdom config regdom :=
        fun takes => absurd takes.2 (Int.not_le.mpr negative)
      rw [if_neg refused, if_neg fun both => refused both.1]
      exact ⟨rfl, rfl⟩
    case isFalse positive =>
      have takes : image.TakesRegdom config regdom := ⟨Int.not_lt.mp fits, Int.not_lt.mp positive⟩
      rw [if_pos takes]
      simp only [and_iff_right takes]
      exact ⟨rfl, rfl⟩

/-- What is stored of the sections that are found. -/
def Image.stored (image : Image) (answers : BoardAnswers) (address : Nat) : List Event :=
  image.firstConfig.elim [] fun config =>
    (if image.TakesConfig config then image.block config address answers.config else []) ++
      (image.regdomFrom answers.country config).elim [] fun regdom =>
        if image.TakesRegdom config regdom then
          image.block regdom (asWord (address + image.length config)) answers.regdom
        else []

theorem stored_takeSections :
    (takeSections image answers address).log.filterMap Event.stored =
      image.stored answers address := by
  rw [takeSections, Image.stored]
  cases image.firstConfig with
  | none =>
    have none : image.regdomFrom answers.country (fileHeader image.memory).shnum = none := by
      rw [Image.regdomFrom, Nat.sub_self]
      rfl
    simp [takeConfig, takeRegdom, none]
  | some config =>
    have first := @takeConfig_some image answers address config
    simp only [Recorded.log_bind, List.filterMap_append, first.1, first.2, Option.elim_some]
    cases image.regdomFrom answers.country config with
    | none => simp [takeRegdom]
    | some regdom =>
      simp [(@takeRegdom_some image answers address config regdom _).2]

theorem takeSections_eq_zero :
    (takeSections image answers address).value = 0 ↔
      answers.config = 0 ∧ answers.regdom = 0 ∧ ∃ config regdom,
        image.Ordered answers.country config regdom ∧ image.TakesConfig config ∧
          image.TakesRegdom config regdom := by
  by_cases found : ∃ config regdom, image.Ordered answers.country config regdom
  · obtain ⟨config, regdom, ordered⟩ := found
    have inside := Nat.not_le.mpr ordered.inside.2.1
    have first := (@takeConfig_some image answers address config).1
    have value : (takeSections image answers address).value =
        if image.TakesRegdom config regdom ∧ answers.regdom = 0 then
          if image.TakesConfig config ∧ answers.config = 0 then 0 else -1
        else -1 := by
      rw [takeSections, ordered.1]
      simp only [Recorded.value_bind, first, ordered.2,
        (@takeRegdom_some image answers address config regdom _).1, Recorded.value_pure,
        if_neg inside]
    rw [value]
    constructor
    · intro zero
      split at zero
      · next domain =>
          split at zero
          · next board =>
              exact ⟨board.2, domain.2, config, regdom, ordered, board.1, domain.1⟩
          · cases zero
      · cases zero
    · rintro ⟨board, domain, other, second, found, takes⟩
      obtain rfl := Option.some.inj (ordered.1.symm.trans found.1)
      obtain rfl := Option.some.inj (ordered.2.symm.trans found.2)
      rw [if_pos ⟨takes.2, domain⟩, if_pos ⟨takes.1, board⟩]
  · rw [takeSections_missing found]
    refine iff_of_false (by decide) ?_
    rintro ⟨-, -, config, regdom, ordered, -⟩
    exact found ⟨config, regdom, ordered⟩

/-! ## The list of regulatory domains -/

theorem strscpy_eq (memory : Nat → BitVec 8) (place count : Nat) :
    strscpy memory place (count + 1) = (segment memory place count).takeWhile (· ≠ 0) := by
  induction count generalizing place with
  | zero => exact if_pos (Or.inl rfl)
  | succ count ih =>
    have next : segment memory place (count + 1) =
        memory place :: segment memory (place + 1) count := by
      rw [Nat.add_comm, segment_add]
      rfl
    rw [strscpy, next, List.takeWhile_cons, ih]
    by_cases ended : memory place = 0
    · rw [if_pos (Or.inr ended), ended]
      rfl
    · rw [if_neg fun either => either.elim (Nat.succ_ne_zero _) ended, if_pos
        (by simpa using ended)]

theorem copyCodes_eq (index turns : Nat) :
    copyCodes image.memory (fileHeader image.memory) image.strings index turns =
      ((List.range' index turns).filter (image.regdomLike [])).map image.countryOf := by
  induction turns generalizing index with
  | zero => rfl
  | succ turns ih =>
    have like : image.regdomLike [] index = true ↔
        Lib.segment image.memory (image.strings + (image.target index).name) regPrefix.length =
          regPrefix := by
      rw [Image.regdomLike, isRegdom, Bool.and_eq_true, reads, decide_eq_true_eq]
      exact and_iff_left rfl
    rw [copyCodes, List.range'_succ, ih]
    by_cases named : image.regdomLike [] index = true
    · rw [List.filter_cons_of_pos named, List.map_cons]
      exact (if_pos (like.mp named)).trans (congrArg (· :: _) (strscpy_eq _ _ 2))
    · rw [List.filter_cons_of_neg named]
      exact if_neg fun stands => named (like.mpr stands)

theorem value_countRegdoms (index turns : Nat) :
    (countRegdoms image.memory (fileHeader image.memory) image.strings index turns).value =
      (copyCodes image.memory (fileHeader image.memory) image.strings index turns).length := by
  induction turns generalizing index with
  | zero => rfl
  | succ turns ih =>
    rw [countRegdoms, copyCodes, same_getSectionHeader.1, same_strncmp.1, reads]
    split
    · next stands =>
        rw [if_pos (of_decide_eq_true stands), Recorded.value_bind, ih]
        rfl
    · next differs =>
        rw [if_neg fun stands => differs (decide_eq_true stands), ih]

theorem numRegdoms_eq : image.numRegdoms answers = (image.countries answers).length := by
  rw [Image.numRegdoms, numRegdoms, Image.countries]
  split
  · rfl
  · rw [value_countRegdoms, copyCodes_eq, Image.sections, List.range_eq_range']

theorem boardRegdoms_eq {before : RegdomList} (magic : goodMagic image.memory = true)
    (buffer : answers.buffer = true) :
    ((boardRegdoms image answers before).regdoms.getD [] = image.countries answers ∧
        (boardRegdoms image answers before).numRegdoms = (image.countries answers).length) ↔
      (image.numRegdoms answers ≠ 0 → answers.regdoms = true) := by
  have codes : answers.setByOtp ≠ true → image.countries answers =
      copyCodes image.memory (fileHeader image.memory) image.strings 0
        (fileHeader image.memory).shnum := by
    intro free
    rw [Image.countries, if_neg free, copyCodes_eq, Image.sections, List.range_eq_range']
  have count := @numRegdoms_eq image answers
  rw [boardRegdoms, if_neg (by rw [magic, buffer]; decide)]
  split
  · next none =>
      rw [none] at count
      refine iff_of_true ?_ fun some => absurd none some
      exact ⟨(List.eq_nil_of_length_eq_zero count.symm).symm, count⟩
  · next some =>
      split
      · next missing =>
          refine iff_of_false (fun both => ?_) fun memory => ?_
          · rw [count, ← both.1] at some
            exact some rfl
          · exact Bool.false_ne_true (missing.symm.trans (memory some))
      · next granted =>
          refine iff_of_true ?_ fun _ => Bool.not_eq_false _ ▸ granted
          rw [← count]
          split
          · next otp =>
              rw [Image.countries, if_pos otp]
              exact ⟨rfl, rfl⟩
          · next free => exact ⟨(codes free).symm, rfl⟩

/-! ## Downloads -/

theorem stored_keeps_iff :
    (∀ event ∈ image.stored answers address, image.Keeps event) ↔
      (∀ config, image.firstConfig = some config → image.TakesConfig config →
        image.Inside config) ∧
      ∀ config regdom, image.Ordered answers.country config regdom →
        image.TakesRegdom config regdom → image.Inside regdom := by
  have taken {takes : Prop} [Decidable takes] {index place : Nat} {status : Int} :
      (∀ event ∈ if takes then image.block index place status else [], image.Keeps event) ↔
        (takes → image.Inside index) := by
    rw [@Image.inside_iff image index place status]
    split
    · next yes => exact ⟨fun keeps _ => keeps, fun keeps => keeps yes⟩
    · next no =>
        exact iff_of_true (fun _ among => absurd among List.not_mem_nil) fun yes => absurd yes no
  rw [Image.stored]
  simp only [Image.Ordered]
  cases image.firstConfig with
  | none => simp
  | some config =>
    simp only [Option.elim_some, List.forall_mem_append, taken, Option.some.injEq, forall_eq',
      and_imp]
    refine and_congr_right fun _ => ?_
    constructor
    · rintro keeps _ regdom rfl found low positive
      rw [found, Option.elim_some, taken] at keeps
      exact keeps ⟨low, positive⟩
    · intro inside
      cases found : image.regdomFrom answers.country config with
      | none => simp
      | some regdom =>
        rw [Option.elim_some, taken]
        exact fun takes => inside config regdom rfl found takes.1 takes.2

theorem written_block (inside : image.Inside index) (place : Nat) (status : Int) :
    (image.block index place status).filterMap Event.written =
      [(place, padded (image.content index))] := by
  simp only [Image.block, List.filterMap_cons, Event.written, List.filterMap_nil, inside.length_eq]
  rw [data_writeSection image.memory (image.target index).offset (image.target index).size]
  rfl

theorem written_stored (ordered : image.Ordered answers.country config regdom)
    (takesConfig : image.TakesConfig config) (takesRegdom : image.TakesRegdom config regdom)
    (insideConfig : image.Inside config) (insideRegdom : image.Inside regdom) :
    (image.stored answers address).filterMap Event.written =
      [(address, padded (image.content config)),
        ((address + roundSizeToWord (image.target config).size) % 2 ^ 32,
          padded (image.content regdom))] := by
  rw [Image.stored, ordered.1, Option.elim_some, ordered.2, Option.elim_some, if_pos takesConfig,
    if_pos takesRegdom, List.filterMap_append, written_block insideConfig,
    written_block insideRegdom, insideConfig.length_eq]
  have place : asWord (address + (roundSizeToWord (image.target config).size : Int)) =
      (address + roundSizeToWord (image.target config).size) % 2 ^ 32 := by
    rw [asWord]
    omega
  rw [place]
  rfl

theorem Image.Fitting.takes {config regdom : Nat} (fitting : image.Fitting answers config regdom) :
    image.TakesConfig config ∧ image.TakesRegdom config regdom := by
  have fits := fitting.fits
  have above := le_roundSizeToWord (image.target config).size
  have above' := le_roundSizeToWord (image.target regdom).size
  have length : image.length config = roundSizeToWord (image.target config).size :=
    signed_roundBytesToWord (by omega) (by omega)
  have length' : image.length regdom = roundSizeToWord (image.target regdom).size :=
    signed_roundBytesToWord (by omega) (by omega)
  simp only [Image.TakesConfig, Image.TakesRegdom, length, length', bcfDatabaseSize, asWord, signed]
  split <;> omega

theorem forall_stored {log : List Event} :
    (∀ event ∈ log, image.Keeps event) ↔
      ∀ event ∈ log.filterMap Event.stored, image.Keeps event := by
  simp only [List.mem_filterMap]
  constructor
  · rintro keeps event ⟨former, among, stored⟩
    cases former <;> cases stored <;> exact keeps _ among
  · intro keeps event among
    cases event with
    | read => trivial
    | _ => exact keeps _ ⟨_, among, rfl⟩

theorem written_of_stored (log : List Event) :
    log.filterMap Event.written = (log.filterMap Event.stored).filterMap Event.written := by
  rw [List.filterMap_filterMap]
  refine List.filterMap_congr fun event _ => ?_
  cases event <;> rfl

theorem boardLoaded_iff_of_no_buffer {before : RegdomList} (buffer : answers.buffer = false) :
    BoardLoaded image answers address before ↔ BoardLoads image answers before := by
  have refused : bcfLoad image answers address = pure (-12) := by
    rw [bcfLoad, if_neg (by rw [buffer]; decide)]
  have list : boardRegdoms image answers before = before := if_pos (Or.inl buffer)
  have absent : answers.buffer ≠ true := fun present => by cases buffer.symm.trans present
  constructor
  · rintro ⟨accepts, -, -, regdoms⟩
    rw [refused] at accepts
    rw [list] at regdoms
    exact ⟨fun _ => ⟨fun loadable => absurd (accepts.mpr loadable) (by decide), regdoms⟩,
      fun present => absurd present absent, fun present => absurd present absent,
      fun present => absurd present absent, fun present => absurd present absent⟩
  · intro loads
    obtain ⟨unloadable, regdoms⟩ := loads.buffer buffer
    refine ⟨?_, ?_, ?_, by rwa [list]⟩ <;> rw [refused]
    · exact iff_of_false (by decide) unloadable
    · exact fun zero => absurd zero (by decide)
    · exact fun event among => absurd among List.not_mem_nil

variable (image answers address)

/-- A download does what is relied on exactly when there is memory, the sections that are taken lie
inside the image, and those that are found fit if any do. -/
theorem boardLoaded_iff (magic : goodMagic image.memory = true) :
    BoardLoaded image answers address before ↔ BoardLoads image answers before := by
  cases buffer : answers.buffer with
  | false => exact boardLoaded_iff_of_no_buffer buffer
  | true =>
    by_cases memory : image.numRegdoms answers ≠ 0 → answers.regdoms = true
    case neg =>
      refine iff_of_false (fun loaded => memory ?_) fun loads => memory (loads.regdoms buffer)
      exact (boardRegdoms_eq magic buffer).mp loaded.regdoms
    case pos =>
      have same := @same_bcfLoad image address answers magic buffer memory
      have zero := same.1 ▸ @takeSections_eq_zero image answers address
      have log := same.2.trans stored_takeSections
      have keeps := (@forall_stored image _).trans (log ▸ @stored_keeps_iff image answers address)
      have written := (written_of_stored _).trans (congrArg (List.filterMap Event.written) log)
      have list := (@boardRegdoms_eq image answers before magic buffer).mpr memory
      constructor
      · rintro ⟨accepts, chip, inside, -⟩
        obtain ⟨insideConfig, insideRegdom⟩ := keeps.mp inside
        refine ⟨fun absent => (by cases buffer.symm.trans absent), fun _ => memory,
          fun _ => insideConfig, fun _ => insideRegdom, ?_⟩
        rintro - board domain ⟨config, regdom, either⟩
        have loaded : (bcfLoad image answers address).value = 0 := by
          rcases either with fitting | ⟨ordered, takes⟩
          · exact accepts.mpr ⟨⟨config, regdom, fitting⟩, board, domain⟩
          · exact zero.mpr ⟨board, domain, config, regdom, ordered, takes⟩
        obtain ⟨-, -, config, regdom, ordered, takesConfig, takesRegdom⟩ := zero.mp loaded
        obtain ⟨config', regdom', fitting, holds⟩ := chip loaded
        rw [written, written_stored ordered takesConfig takesRegdom
          (insideConfig config ordered.1 takesConfig)
          (insideRegdom config regdom ordered takesRegdom)] at holds
        simp only [List.cons.injEq, Prod.mk.injEq, true_and, and_true] at holds
        have size := congrArg List.length holds.1
        have size' := congrArg List.length holds.2.2
        simp only [length_padded, Image.content, length_segment] at size size'
        refine ⟨config, regdom, ordered, ordered.inside.1, ordered.inside.2, ?_⟩
        rw [size, size']
        exact fitting.fits
      · intro loads
        have found (board : answers.config = 0) (domain : answers.regdom = 0) either :=
          loads.ordered buffer board domain either
        refine ⟨zero.trans ⟨?_, ?_⟩, fun loaded => ?_,
          keeps.mpr ⟨loads.config buffer, loads.regdom buffer⟩, list⟩
        · rintro ⟨board, domain, config, regdom, taken⟩
          obtain ⟨config, regdom, -, fitting⟩ := found board domain ⟨config, regdom, .inr taken⟩
          exact ⟨⟨config, regdom, fitting⟩, board, domain⟩
        · rintro ⟨⟨config, regdom, fitting⟩, board, domain⟩
          obtain ⟨config, regdom, ordered, fitting⟩ :=
            found board domain ⟨config, regdom, .inl fitting⟩
          exact ⟨board, domain, config, regdom, ordered, fitting.takes⟩
        · obtain ⟨board, domain, config, regdom, taken⟩ := zero.mp loaded
          obtain ⟨config, regdom, ordered, fitting⟩ :=
            found board domain ⟨config, regdom, .inr taken⟩
          have takes := fitting.takes
          refine ⟨config, regdom, fitting, ?_⟩
          rw [written]
          exact written_stored ordered takes.1 takes.2
            (loads.config buffer config ordered.1 takes.1)
            (loads.regdom buffer config regdom ordered takes.2)

theorem boardLoaded_behind :
    BoardLoaded (boardImage 4) (willing false australia) 0x80100000 ⟨none, 0⟩ := by
  have ordered := ordered_boardImage (Or.inl (rfl : 4 = 4))
  refine (boardLoaded_iff (boardImage 4) (willing false australia) 0x80100000 ⟨none, 0⟩
    (by decide +kernel)).mpr ⟨fun absent => (by cases absent), fun _ _ => rfl, fun _ config first _
      => ?_,
      fun _ config regdom found _ => ?_, fun _ _ _ _ => ⟨1, 2, ordered, ?_⟩⟩
  · obtain rfl := Option.some.inj (ordered.1.symm.trans first)
    exact Nat.le_of_ble_eq_true (by decide +kernel)
  · obtain rfl := Option.some.inj (ordered.1.symm.trans found.1)
    obtain rfl := Option.some.inj (ordered.2.symm.trans found.2)
    exact Nat.le_of_ble_eq_true (by decide +kernel)
  · exact ⟨by decide +kernel, by decide +kernel, by decide +kernel⟩

/-- The file with its last two sections the other way round. -/
def swappedImage : Image where
  memory index := ((boardFile 4).take 128 ++ (boardFile 4).drop 168 ++
    ((boardFile 4).drop 128).take 40).getD index 0
  size := 208
  size_lt := (boardImage 4).size_lt

/-- With the regulatory domain in front of the board configuration the download fails. -/
theorem not_boardLoaded_swapped :
    ¬ BoardLoaded swappedImage (willing false australia) 0x80100000 ⟨none, 0⟩ := by
  intro loaded
  have first : swappedImage.firstConfig = some 2 := by decide +kernel
  have missing : ¬ ∃ config regdom, swappedImage.Ordered australia config regdom := by
    rintro ⟨config, regdom, found, next⟩
    obtain rfl := Option.some.inj (first.symm.trans found)
    exact absurd next (by
      rw [show swappedImage.regdomFrom australia 2 = none by decide +kernel]
      exact Option.some_ne_none regdom ∘ Eq.symm)
  have accepted := loaded.accepts.mpr ⟨⟨2, 1, by decide +kernel, by decide +kernel,
    by decide +kernel⟩, rfl, rfl⟩
  exact absurd ((bcfLoad_refuses (by decide +kernel) missing).symm.trans accepted) (by decide)

end Firmware
end Morse
