import Morse.Coredump.Defs

/-!
# The layout of a core dump

When the table that the header tells of has room for the headers that are written, the file is
laid out as it should be: behind the file header there is a program header for each region of
the general kind and each note, and behind the table the contents of one after the other.
-/

namespace Morse
namespace Coredump

open Lib
open Firmware (roundBytesToWord roundSizeToWord number)

@[simp] theorem length_words (numbers : List Nat) : (words numbers).length = 4 *
  numbers.length := by
  induction numbers with
  | nil => rfl
  | cons first rest ih =>
    rw [words, List.flatMap_cons, List.length_append, ← words, length_natOctets,
      List.length_cons]
    omega

theorem words_append (first second : List Nat) :
    words (first ++ second) = words first ++ words second := by
  rw [words, List.flatMap_append, ← words, ← words]

@[simp] theorem length_elfHeader (phnum : Nat) : (elfHeader phnum).length = 52 := by
  simp [elfHeader]

/-! ## What is stored -/

theorem stored_append (file : Nat → BitVec 8) (log later : List Event) :
    stored file (log ++ later) = stored (stored file log) later := List.foldl_append

theorem stored_readRegion (file : Nat → BitVec 8) (region : Region) (answer : Answer) :
    stored file (readRegion region answer).log = file := by
  rw [readRegion]
  split
  · rfl
  · split
    · rfl
    · split
      · rfl
      · rfl

theorem stored_getStopInfo (file : Nat → BitVec 8) (regions : Regions) :
    stored file (getStopInfo regions).log = file := by
  induction regions with
  | nil => rfl
  | cons entry rest ih =>
    rw [getStopInfo]
    split
    · exact ih
    · split
      · exact ih
      · split
        · exact ih
        · rw [Recorded.log_bind, stored_append, stored_readRegion]
          split
          · rfl
          · exact ih

/-! ## The parts of the file -/

/-- How much of a region gets into the file. -/
def regionFilesz (region : Region) (answer : Answer) : Nat :=
  if readable region answer then region.len.toNat else 0

/-- The part of the file for a region. -/
def regionPart (chip stray : Nat → BitVec 8) (entry : Region × Answer) : Piece (BitVec 8) where
  header offset := words [1, offset, entry.1.start.toNat, entry.1.start.toNat,
    regionFilesz entry.1 entry.2, regionFilesz entry.1 entry.2, 7, 0]
  body := if readable entry.1 entry.2 then copied chip stray entry.1 else []

/-- The part of the file for a note. -/
def notePart (note : Note) : Piece (BitVec 8) where
  header offset := words [4, offset, 0, 0, note.filesz, note.filesz, 0, 0]
  body := words [note.namesz, note.datasz, note.type.toNat] ++ note.content ++
    List.replicate (note.filesz - (12 + note.namesz + note.datasz)) 0

/-- The regions that are copied. -/
def generals (regions : Regions) : Regions :=
  regions.filter fun entry => entry.1.type = memRegionTypeGeneral

/-- The parts of the file, in order. -/
def parts (chip stray : Nat → BitVec 8) (regions : Regions) (notes : List Note) :
    List (Piece (BitVec 8)) :=
  (generals regions).map (regionPart chip stray) ++ notes.map notePart

@[simp] theorem length_regionPart (chip stray : Nat → BitVec 8) (entry : Region × Answer) :
    (regionPart chip stray entry).body.length = regionFilesz entry.1 entry.2 := by
  rw [regionPart, regionFilesz]
  split
  · exact length_segment _ _ _
  · rfl

namespace Note

theorem name_lt (note : Note) : note.name.length < note.namesz := by
  rw [namesz, roundSizeToWord]
  omega

theorem le_filesz (note : Note) : 12 + note.namesz + note.datasz ≤ note.filesz := by
  rw [filesz, roundSizeToWord]
  omega

@[simp] theorem length_content (note : Note) :
    note.content.length = note.namesz + note.datasz := by
  have above := note.name_lt
  simp only [content, List.length_append, List.length_replicate, datasz]
  omega

theorem filesz_lt (note : Note) : note.filesz < 2 ^ 32 := by
  have small := note.small
  rw [← namesz, ← datasz] at small
  rw [filesz, roundSizeToWord]
  omega

end Note

@[simp] theorem length_notePart (note : Note) : (notePart note).body.length = note.filesz := by
  have above := note.le_filesz
  simp only [notePart, List.length_append, length_words, List.length_cons, List.length_nil,
    Note.length_content, List.length_replicate]
  omega

/-! ## Laying them out -/

theorem segment_stored (file : Nat → BitVec 8) (position count : Nat) (octets : List (BitVec 8))
    (whole : count = octets.length) :
    segment (overwrite file position octets) position count = octets := by
  rw [whole, segment_overwrite_self]

theorem segment_header (front : segment file slot 16 = words first)
    (sizes : segment file (slot + 16) 8 = words second)
    (back : segment file (slot + 24) 8 = words third) :
    segment file slot 32 = words (first ++ second ++ third) := by
  rw [words_append, words_append, ← front, ← sizes, ← back, ← segment_add, ← segment_add]

section

variable {chip stray : Nat → BitVec 8} {file : Nat → BitVec 8} {phdr offset : Nat}

variable {region : Region} {answer : Answer}

theorem lays_readable (ready : readable region answer = true) (room : phdr + 32 ≤ offset) :
    Lays 32 file
      (overwrite (overwrite (overwrite (overwrite file
        phdr (words [1, offset, region.start.toNat, region.start.toNat]))
        (phdr + 16) (words [region.len.toNat, region.len.toNat]))
        (phdr + 24) (words [7, 0]))
        offset (copied chip stray region))
      phdr offset [regionPart chip stray (region, answer)] := by
  have length : (copied chip stray region).length = region.len.toNat := length_segment _ _ _
  refine ⟨⟨?_, ?_, trivial⟩, fun index outside behind => ?_⟩
  · simp only [regionPart, regionFilesz, if_pos ready]
    refine @segment_header _ _ [_, _, _, _] [_, _] [_, _] ?_ ?_ ?_
    · rw [segment_overwrite_apart (by omega), segment_overwrite_apart (by simp),
        segment_overwrite_apart (by simp), segment_stored _ _ _ _ (by simp)]
    · rw [segment_overwrite_apart (by omega), segment_overwrite_apart (by simp),
        segment_stored _ _ _ _ (by simp)]
    · rw [segment_overwrite_apart (by omega), segment_stored _ _ _ _ (by simp)]
  · rw [length_regionPart, regionFilesz, if_pos ready, segment_stored _ _ _ _ length.symm,
      regionPart, if_pos ready]
  · rw [bodies_cons, length_regionPart, regionFilesz, if_pos ready] at behind
    simp only [List.length_cons, List.length_nil, bodies_nil] at outside behind
    rw [overwrite_apart (by omega),
      overwrite_apart (by simp only [length_words, List.length_cons, List.length_nil]; omega),
      overwrite_apart (by simp only [length_words, List.length_cons, List.length_nil]; omega),
      overwrite_apart (by simp only [length_words, List.length_cons, List.length_nil]; omega)]

theorem lays_unreadable (unready : ¬ readable region answer = true) :
    Lays 32 file
      (overwrite (overwrite (overwrite (overwrite file
        phdr (words [1, offset, region.start.toNat, region.start.toNat]))
        (phdr + 16) (words [region.len.toNat, region.len.toNat]))
        (phdr + 24) (words [7, 0]))
        (phdr + 16) (words [0, 0]))
      phdr offset [regionPart chip stray (region, answer)] := by
  refine ⟨⟨?_, ?_, trivial⟩, fun index outside behind => ?_⟩
  · simp only [regionPart, regionFilesz, if_neg unready]
    refine @segment_header _ _ [_, _, _, _] [_, _] [_, _] ?_ ?_ ?_
    · rw [segment_overwrite_apart (by simp), segment_overwrite_apart (by simp),
        segment_overwrite_apart (by simp), segment_stored _ _ _ _ (by simp)]
    · rw [segment_stored _ _ _ _ (by simp)]
    · rw [segment_overwrite_apart (by simp), segment_stored _ _ _ _ (by simp)]
  · rw [length_regionPart, regionFilesz, if_neg unready, segment_zero, regionPart,
      if_neg unready]
  · simp only [List.length_cons, List.length_nil] at outside
    rw [overwrite_apart (by simp only [length_words, List.length_cons, List.length_nil]; omega),
      overwrite_apart (by simp only [length_words, List.length_cons, List.length_nil]; omega),
      overwrite_apart (by simp only [length_words, List.length_cons, List.length_nil]; omega),
      overwrite_apart (by simp only [length_words, List.length_cons, List.length_nil]; omega)]

theorem lays_note (vacant : Vacant 32 0 file phdr offset [notePart note]) :
    Lays 32 file
      (overwrite (overwrite (overwrite (overwrite file
        phdr (words [4, offset]))
        (phdr + 16) (words [note.filesz, note.filesz]))
        offset (words [note.namesz, note.datasz, note.type.toNat]))
        (offset + 12) note.content)
      phdr offset [notePart note] := by
  obtain ⟨room, headers, behind⟩ := vacant
  have above := note.le_filesz
  rw [bodies_cons, length_notePart] at behind
  simp only [List.length_cons, List.length_nil] at room headers
  refine ⟨⟨?_, ?_, trivial⟩, fun index outside behind => ?_⟩
  · refine @segment_header _ _ [4, offset, 0, 0] [_, _] [0, 0] ?_ ?_ ?_
    · rw [segment_overwrite_apart (by omega),
        segment_overwrite_apart
          (by omega),
        segment_overwrite_apart
          (by omega)]
      rw [segment_add _ _ 8 8, segment_stored _ _ _ _ (by simp),
        segment_overwrite_apart (by simp),
        segment_blank fun index above below => headers index (by omega) (by omega)]
      rfl
    · rw [segment_overwrite_apart (by omega),
        segment_overwrite_apart
          (by omega),
        segment_stored _ _ _ _ (by simp)]
    · rw [segment_overwrite_apart (by omega),
        segment_overwrite_apart
          (by omega),
        segment_overwrite_apart (by simp), segment_overwrite_apart (by simp),
        segment_blank fun index above below => headers index (by omega) (by omega)]
      rfl
  · have whole : note.filesz = 12 + (note.namesz + note.datasz) +
        (note.filesz - (12 + note.namesz + note.datasz)) := by
      omega
    rw [length_notePart, whole, segment_add, segment_add]
    congr 1
    · congr 1
      · rw [segment_overwrite_apart (by omega), segment_stored _ _ _ _ (by simp)]
      · rw [segment_stored _ _ _ _ (by simp)]
    · rw [segment_overwrite_apart (by simp only [Note.length_content]; omega),
        segment_overwrite_apart
          (by simp only [length_words, List.length_cons, List.length_nil]; omega),
        segment_overwrite_apart
          (by simp only [length_words, List.length_cons, List.length_nil]; omega),
        segment_overwrite_apart
          (by simp only [length_words, List.length_cons, List.length_nil]; omega),
        segment_blank fun index above below => behind index (by omega) (by omega)]
  · rw [bodies_cons, length_notePart] at behind
    simp only [List.length_cons, List.length_nil] at outside
    rw [overwrite_apart (by simp only [Note.length_content]; omega),
      overwrite_apart (by simp only [length_words, List.length_cons, List.length_nil]; omega),
      overwrite_apart (by simp only [length_words, List.length_cons, List.length_nil]; omega),
      overwrite_apart (by simp only [length_words, List.length_cons, List.length_nil]; omega)]

variable {rest : Regions}

theorem generals_cons_pos (general : region.type = memRegionTypeGeneral) :
    generals ((region, answer) :: rest) = (region, answer) :: generals rest := by
  rw [generals, List.filter_cons_of_pos (by simpa using general), ← generals]

theorem generals_cons_neg (other : ¬ region.type = memRegionTypeGeneral) :
    generals ((region, answer) :: rest) = generals rest := by
  rw [generals, List.filter_cons_of_neg (by simpa using other), ← generals]

theorem lays_copyMemoryRegions
    (vacant : Vacant 32 0 file phdr offset ((generals regions).map (regionPart chip stray))) :
    Lays 32 file (stored file (copyMemoryRegions chip stray regions phdr offset).log) phdr offset
      ((generals regions).map (regionPart chip stray)) := by
  induction regions generalizing file phdr offset with
  | nil => exact Lays.nil file phdr offset
  | cons entry rest ih =>
    obtain ⟨region, answer⟩ := entry
    rw [copyMemoryRegions]
    by_cases general : region.type = memRegionTypeGeneral
    · rw [generals_cons_pos general, List.map_cons] at vacant ⊢
      rw [if_neg (not_not.mpr general)]
      have room := vacant.room
      have apart : phdr + 32 ≤ offset := by
        rw [List.length_cons] at room
        omega
      simp only [Recorded.log_bind, Recorded.log_record, stored_append, stored_readRegion]
      split
      · next ready =>
          have first := @lays_readable chip stray file _ _ region answer ready apart
          have others := ih (vacant.tail first)
          rw [length_regionPart, regionFilesz, if_pos ready] at others
          refine Lays.cons room first ?_
          rw [length_regionPart, regionFilesz, if_pos ready]
          exact others
      · next unready =>
          have first := @lays_unreadable chip stray file phdr offset _ _ unready
          have others := ih (vacant.tail first)
          rw [length_regionPart, regionFilesz, if_neg unready] at others
          refine Lays.cons room first ?_
          rw [length_regionPart, regionFilesz, if_neg unready]
          exact others
    · rw [generals_cons_neg general] at vacant ⊢
      rw [if_pos general]
      exact ih vacant

theorem lays_copyNotes (vacant : Vacant 32 0 file phdr offset (notes.map notePart)) :
    Lays 32 file (stored file (copyNotes notes phdr offset).log) phdr offset
      (notes.map notePart) := by
  induction notes generalizing file phdr offset with
  | nil => exact Lays.nil file phdr offset
  | cons note rest ih =>
    have first := lays_note vacant.head
    have others := ih (vacant.tail first)
    rw [length_notePart] at others
    refine Lays.cons vacant.room first ?_
    rw [length_notePart]
    exact others

end

/-! ## The file -/

section File

variable {chip stray : Nat → BitVec 8} {regions : Regions} {notes : List Note}

/-- How much of the regions gets into the file. -/
def regionSizes (regions : Regions) : List Nat :=
  (generals regions).map fun entry => regionFilesz entry.1 entry.2

theorem bodies_regions :
    bodies ((generals regions).map (regionPart chip stray)) = (regionSizes regions).sum := by
  rw [bodies, List.map_map]
  congr 1
  exact List.map_congr_left fun entry _ => length_regionPart chip stray entry

theorem value_copyMemoryRegions (phdr offset : Nat) :
    (copyMemoryRegions chip stray regions phdr offset).value =
      (phdr + 32 * (generals regions).length, offset + (regionSizes regions).sum) := by
  induction regions generalizing phdr offset with
  | nil => rfl
  | cons entry rest ih =>
    rw [copyMemoryRegions, regionSizes]
    split
    · next other =>
        rw [generals_cons_neg other, ih, regionSizes]
    · next general =>
        rw [generals_cons_pos (not_not.mp general), List.map_cons, List.sum_cons,
          List.length_cons, ← regionSizes, regionFilesz]
        simp only [Recorded.value_bind]
        split
        · rw [Recorded.value_bind, ih]
          exact Prod.ext (by omega) (by omega)
        · rw [Recorded.value_bind, ih]
          exact Prod.ext (by omega) (by omega)

/-- Where the table of program headers ends, as the header of the file tells. -/
def tableEnd (regions : Regions) (notes : List Note) : Nat :=
  52 + 32 * (phnum regions notes % 2 ^ 16)

/-- The table has room for the headers that are written. -/
def Counted (regions : Regions) (notes : List Note) : Prop :=
  (generals regions).length + notes.length ≤ phnum regions notes % 2 ^ 16

theorem coredump_eq (chip stray : Nat → BitVec 8) (regions : Regions) (notes : List Note) :
    coredump chip stray regions notes =
      stored
        (stored (overwrite (fun _ => 0) 0 (elfHeader (phnum regions notes)))
          (copyMemoryRegions chip stray regions 52 (tableEnd regions notes)).log)
        (copyNotes notes (52 + 32 * (generals regions).length)
          (tableEnd regions notes + (regionSizes regions).sum)).log := by
  rw [coredump, coredumpBuild]
  simp only [Recorded.log_bind, Recorded.log_record, stored_append, stored_getStopInfo,
    if_true, value_copyMemoryRegions, Recorded.log_pure]
  rfl

theorem length_parts :
    (parts chip stray regions notes).length = (generals regions).length + notes.length := by
  rw [parts, List.length_append, List.length_map, List.length_map]

theorem vacant_start (counted : Counted regions notes) :
    Vacant 32 0 (overwrite (fun _ => 0) 0 (elfHeader (phnum regions notes))) 52
      (tableEnd regions notes) (parts chip stray regions notes) := by
  have blank : ∀ index, 52 ≤ index →
      overwrite (fun _ => 0) 0 (elfHeader (phnum regions notes)) index = 0 :=
    fun index above => overwrite_apart (Or.inl (by rw [length_elfHeader]; omega))
  rw [Counted] at counted
  refine ⟨?_, fun index above _ => blank index above, fun index above _ => blank index ?_⟩
  · rw [length_parts, tableEnd]
    omega
  · rw [tableEnd] at above
    omega

theorem lays_coredump (counted : Counted regions notes) :
    Lays 32 (overwrite (fun _ => 0) 0 (elfHeader (phnum regions notes)))
      (coredump chip stray regions notes) 52 (tableEnd regions notes)
      (parts chip stray regions notes) := by
  have vacant := @vacant_start chip stray _ _ counted
  rw [parts] at vacant
  have first := lays_copyMemoryRegions vacant.left
  have room := vacant.right first
  rw [List.length_map, bodies_regions] at room
  have second := lays_copyNotes room
  rw [coredump_eq]
  refine Lays.append ?_ first ?_
  · have space := vacant.room
    rwa [List.length_append] at space
  · rw [List.length_map, bodies_regions]
    exact second

/-! ## Where it is stored -/

theorem store_not_mem_readRegion :
    .store place octets ∉ (readRegion region answer).log := by
  rw [readRegion]
  split
  · simp
  · split
    · simp
    · split
      · simp
      · simp

theorem store_not_mem_getStopInfo :
    .store place octets ∉ (getStopInfo regions).log := by
  induction regions with
  | nil => simp [getStopInfo]
  | cons entry rest ih =>
    rw [getStopInfo]
    split
    · exact ih
    · split
      · exact ih
      · split
        · exact ih
        · rw [Recorded.log_bind, List.mem_append, not_or]
          refine ⟨store_not_mem_readRegion, ?_⟩
          split
          · simp
          · exact ih

/-- What is stored lies in a table of so many headers, or in so much of what is behind. -/
def Within (log : List Event) (phdr count offset total : Nat) : Prop :=
  ∀ place octets, .store place octets ∈ log →
    (phdr ≤ place ∧ place + octets.length ≤ phdr + 32 * count) ∨
      (offset ≤ place ∧ place + octets.length ≤ offset + total)

theorem within_copyMemoryRegions (phdr offset : Nat) :
    Within (copyMemoryRegions chip stray regions phdr offset).log phdr (generals regions).length
      offset (regionSizes regions).sum := by
  induction regions generalizing phdr offset with
  | nil =>
    intro place octets recorded
    cases recorded
  | cons entry rest ih =>
    rw [copyMemoryRegions, regionSizes]
    split
    · next other =>
        rw [generals_cons_neg other]
        exact ih phdr offset
    · next general =>
        rw [generals_cons_pos (not_not.mp general), List.map_cons, List.sum_cons,
          List.length_cons, ← regionSizes, regionFilesz]
        dsimp only
        intro place octets recorded
        simp only [Recorded.log_bind, Recorded.log_record, List.mem_append,
          List.mem_singleton, Event.store.injEq, store_not_mem_readRegion, false_or]
          at recorded
        rcases recorded with ⟨rfl, rfl⟩ | ⟨rfl, rfl⟩ | ⟨rfl, rfl⟩ | recorded
        · simp only [length_words, List.length_cons, List.length_nil]
          omega
        · simp only [length_words, List.length_cons, List.length_nil]
          omega
        · simp only [length_words, List.length_cons, List.length_nil]
          omega
        · split at recorded
          · next ready =>
              simp only [Recorded.log_bind, Recorded.log_record, List.mem_append,
                List.mem_singleton, Event.store.injEq] at recorded
              rw [if_pos ready]
              rcases recorded with ⟨rfl, rfl⟩ | later
              · rw [copied, length_segment]
                omega
              · rcases ih _ _ _ _ later with inside | inside
                · exact Or.inl (by omega)
                · exact Or.inr (by omega)
          · next unready =>
              simp only [Recorded.log_bind, Recorded.log_record, List.mem_append,
                List.mem_singleton, Event.store.injEq] at recorded
              rcases recorded with ⟨rfl, rfl⟩ | later
              · simp only [length_words, List.length_cons, List.length_nil]
                omega
              · rcases ih _ _ _ _ later with inside | inside
                · exact Or.inl (by omega)
                · exact Or.inr (by omega)

theorem within_copyNotes (phdr offset : Nat) :
    Within (copyNotes notes phdr offset).log phdr notes.length offset
      (notes.map Note.filesz).sum := by
  induction notes generalizing phdr offset with
  | nil =>
    intro place octets recorded
    cases recorded
  | cons note rest ih =>
    have above := note.le_filesz
    rw [copyNotes, List.map_cons, List.sum_cons, List.length_cons]
    intro place octets recorded
    simp only [Recorded.log_bind, Recorded.log_record, List.mem_append, List.mem_singleton,
      Event.store.injEq] at recorded
    rcases recorded with ⟨rfl, rfl⟩ | ⟨rfl, rfl⟩ | ⟨rfl, rfl⟩ | ⟨rfl, rfl⟩ | later
    · simp only [length_words, List.length_cons, List.length_nil]
      omega
    · simp only [length_words, List.length_cons, List.length_nil]
      omega
    · simp only [length_words, List.length_cons, List.length_nil]
      omega
    · rw [Note.length_content]
      omega
    · rcases ih _ _ _ _ later with inside | inside
      · exact Or.inl (by omega)
      · exact Or.inr (by omega)

theorem stored_before (behind : ∀ place octets, .store place octets ∈ log → limit ≤ place)
    (before : index < limit) :
    stored file log index = file index := by
  induction log generalizing file with
  | nil => rfl
  | cons event rest ih =>
    have others := @ih (event.apply file)
      fun place octets recorded => behind place octets (List.mem_cons_of_mem _ recorded)
    refine others.trans ?_
    cases event with
    | store place octets =>
      have later := behind place octets List.mem_cons_self
      exact overwrite_apart (Or.inr (by omega))
    | _ => rfl

theorem segment_coredump :
    segment (coredump chip stray regions notes) 0 52 = elfHeader (phnum regions notes) := by
  have start : 52 ≤ tableEnd regions notes := by
    rw [tableEnd]
    omega
  have first : ∀ place octets, .store place octets ∈
      (copyMemoryRegions chip stray regions 52 (tableEnd regions notes)).log → 52 ≤ place := by
    intro place octets recorded
    rcases within_copyMemoryRegions _ _ _ _ recorded with ⟨above, -⟩ | ⟨above, -⟩
    · exact above
    · omega
  have second : ∀ place octets, .store place octets ∈
      (copyNotes notes (52 + 32 * (generals regions).length)
        (tableEnd regions notes + (regionSizes regions).sum)).log → 52 ≤ place := by
    intro place octets recorded
    rcases within_copyNotes _ _ _ _ recorded with ⟨above, -⟩ | ⟨above, -⟩
    · omega
    · omega
  have whole := length_elfHeader (phnum regions notes)
  rw [coredump_eq]
  refine Eq.trans (segment_congr fun index _ below => ?_)
    (segment_stored (fun _ => 0) 0 52 _ whole.symm)
  rw [stored_before second (by omega), stored_before first (by omega)]

end File

end Coredump
end Morse
