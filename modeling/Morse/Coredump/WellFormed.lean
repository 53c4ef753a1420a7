import Mathlib.Data.List.Forall2
import Morse.Coredump.Layout

/-!
# What a reader finds in a core dump

A reader takes the count and the place of the program headers from the header of the file, and
from each program header the place and the size of a segment.  The file says what it should
exactly when the two octets of the count hold the headers that are written, the four octets of
each offset tell where the segment is, and no region is as long as its rounded length wraps.
-/

namespace Morse
namespace Coredump

open Lib
open Firmware (roundBytesToWord roundSizeToWord number SegmentHeader segmentHeader fileHeader
  goodMagic)

/-! ## The reader -/

/-- The program headers that the header of the file tells of. -/
def programHeaders (file : Nat → BitVec 8) : List SegmentHeader :=
  (List.range (fileHeader file).phnum).map (segmentHeader file (fileHeader file))

/-- Those of them that are not null. -/
def nonNull (file : Nat → BitVec 8) : List SegmentHeader :=
  (programHeaders file).filter fun header => header.type ≠ 0

/-- The name, the type and the data of a note. -/
def decodeNote (octets : List (BitVec 8)) : List (BitVec 8) × Nat × List (BitVec 8) :=
  let namesz := octetsNat (octets.take 4)
  let descsz := octetsNat ((octets.drop 4).take 4)
  (((octets.drop 12).take namesz).takeWhile (· ≠ 0), octetsNat ((octets.drop 8).take 4),
    (octets.drop (12 + roundSizeToWord namesz)).take descsz)

/-- What goes into the file: a region or a note. -/
abbrev Item := (Region × Answer) ⊕ Note

/-- What goes into the file, in order. -/
def items (regions : Regions) (notes : List Note) : List Item :=
  (generals regions).map .inl ++ notes.map .inr

/-- A program header shows an item: a region that was read is there as the chip holds it. -/
def Shows (chip file : Nat → BitVec 8) (header : SegmentHeader) : Item → Prop
  | .inl (region, answer) =>
    header.type = 1 ∧ header.paddr = region.start.toNat ∧ header.memsz = header.filesz ∧
      if readable region answer then
        segment file header.offset header.filesz =
          segment chip region.start.toNat region.len.toNat
      else header.filesz = 0
  | .inr note =>
    header.type = 4 ∧ decodeNote (segment file header.offset header.filesz) =
      (note.name, note.type.toNat, note.data)

/-- Two segments do not overlap. -/
def Apart (first second : SegmentHeader) : Prop :=
  first.filesz = 0 ∨ second.filesz = 0 ∨ first.offset + first.filesz ≤ second.offset ∨
    second.offset + second.filesz ≤ first.offset

/-- The file is an ELF core with a segment for each region of the general kind and each note,
and nothing is stored outside it. -/
structure WellFormed (chip stray : Nat → BitVec 8) (regions : Regions) (notes : List Note) :
    Prop where
  magic : goodMagic (coredump chip stray regions notes) = true
  table : (fileHeader (coredump chip stray regions notes)).phoff = 52 ∧
    (fileHeader (coredump chip stray regions notes)).phentsize = 32 ∧
    52 + 32 * (fileHeader (coredump chip stray regions notes)).phnum ≤ fileSize regions notes
  shown : List.Forall₂ (Shows chip (coredump chip stray regions notes))
    (nonNull (coredump chip stray regions notes)) (items regions notes)
  inside : ∀ header ∈ nonNull (coredump chip stray regions notes),
    52 + 32 * (fileHeader (coredump chip stray regions notes)).phnum ≤ header.offset ∧
      header.offset + header.filesz ≤ fileSize regions notes
  apart : (nonNull (coredump chip stray regions notes)).Pairwise Apart
  stores : ∀ place octets,
    .store place octets ∈ (coredumpBuild chip stray regions notes true).log →
      place + octets.length ≤ fileSize regions notes

/-! ## Reading words -/

variable {file : Nat → BitVec 8}

theorem number_of_words (row : segment file slot count = words numbers) {index : Nat}
    (below : index < numbers.length) :
    number file 4 (slot + 4 * index) = numbers[index] % 2 ^ 32 := by
  have length := congrArg List.length row
  rw [length_segment, length_words] at length
  rw [number, segment_inside (by omega : 4 * index + 4 ≤ count), row]
  clear row length
  induction numbers generalizing index with
  | nil => cases below
  | cons first rest ih =>
    rw [words, List.flatMap_cons]
    cases index with
    | zero =>
      rw [List.drop_zero, List.take_left' (length_natOctets _ _),
        octetsNat_natOctets]
      rfl
    | succ index =>
      exact ih (Nat.lt_of_succ_lt_succ below)

/-- The program header in a slot. -/
def headerAt (file : Nat → BitVec 8) (slot : Nat) : SegmentHeader where
  type := number file 4 slot
  offset := number file 4 (slot + 4)
  paddr := number file 4 (slot + 12)
  filesz := number file 4 (slot + 16)
  memsz := number file 4 (slot + 20)

/-- The program header that is written for an item, as it is read. -/
def Item.header (start : Nat) : Item → SegmentHeader
  | .inl (region, answer) =>
    ⟨1, start % 2 ^ 32, region.start.toNat, regionFilesz region answer,
      regionFilesz region answer⟩
  | .inr note => ⟨4, start % 2 ^ 32, 0, note.filesz, note.filesz⟩

/-- The part of the file for an item. -/
def Item.part (chip stray : Nat → BitVec 8) : Item → Piece (BitVec 8)
  | .inl entry => regionPart chip stray entry
  | .inr note => notePart note

/-- How much of an item gets into the file. -/
def Item.size : Item → Nat
  | .inl (region, answer) => regionFilesz region answer
  | .inr note => note.filesz

@[simp] theorem Item.length_part (chip stray : Nat → BitVec 8) (item : Item) :
    (item.part chip stray).body.length = item.size := by
  cases item with
  | inl entry => exact length_regionPart chip stray entry
  | inr note => exact length_notePart note

theorem regionFilesz_lt (region : Region) (answer : Answer) :
    regionFilesz region answer < 2 ^ 32 := by
  rw [regionFilesz]
  split
  · exact region.len.isLt
  · decide

theorem headerAt_of_row
    (row : segment file slot 32 =
      words [type, offset, vaddr, paddr, filesz, memsz, flags, align]) :
    headerAt file slot = ⟨type % 2 ^ 32, offset % 2 ^ 32, paddr % 2 ^ 32, filesz % 2 ^ 32,
      memsz % 2 ^ 32⟩ := by
  have number := @number_of_words _ _ _ _ row
  rw [headerAt]
  congr 1
  · exact @number 0 (by simp)
  · exact @number 1 (by simp)
  · exact @number 3 (by simp)
  · exact @number 4 (by simp)
  · exact @number 5 (by simp)

variable {item : Item}

theorem headerAt_of_laid (laid : segment file slot 32 = (item.part chip stray).header start) :
    headerAt file slot = item.header start := by
  cases item with
  | inl entry =>
    obtain ⟨region, answer⟩ := entry
    rw [headerAt_of_row laid, Nat.mod_eq_of_lt (regionFilesz_lt region answer),
      Nat.mod_eq_of_lt region.start.isLt]
    rfl
  | inr note =>
    rw [headerAt_of_row laid, Nat.mod_eq_of_lt note.filesz_lt]
    rfl

/-- The program headers for some items, the first of which starts at some place. -/
def headersFrom : Nat → List Item → List SegmentHeader
  | _, [] => []
  | start, item :: rest => item.header start :: headersFrom (start + item.size) rest

variable {list : List Item}

theorem map_headerAt (laid : Laid 32 file slot start (list.map (Item.part chip stray))) :
    (List.range list.length).map (fun index => headerAt file (slot + 32 * index)) =
      headersFrom start list := by
  induction list generalizing slot start with
  | nil => rfl
  | cons item rest ih =>
    obtain ⟨header, -, others⟩ := laid
    rw [Item.length_part] at others
    rw [List.length_cons, List.range_succ_eq_map, List.map_cons, headersFrom, List.map_map,
      ← ih others]
    congr 1
    · exact headerAt_of_laid header
    · refine List.map_congr_left fun index _ => ?_
      simp only [Function.comp]
      congr 1
      omega

/-! ## The headers of a core dump -/

section Dump

variable {chip stray : Nat → BitVec 8} {regions : Regions} {notes : List Note}

theorem number_elfHeader (row : segment file 0 52 = elfHeader headers)
    (inside : offset + count ≤ 52) :
    number file count offset = octetsNat (((elfHeader headers).drop offset).take count) := by
  have read := @segment_inside _ file 0 52 offset count inside
  rw [Nat.zero_add] at read
  rw [number, read, row]

theorem fileHeader_coredump :
    goodMagic (coredump chip stray regions notes) = true ∧
      (fileHeader (coredump chip stray regions notes)).phoff = 52 ∧
      (fileHeader (coredump chip stray regions notes)).phentsize = 32 ∧
      (fileHeader (coredump chip stray regions notes)).phnum = phnum regions notes % 2 ^ 16 := by
  have row := @segment_coredump chip stray regions notes
  have octet : ∀ index, index < 52 → coredump chip stray regions notes index =
      (elfHeader (phnum regions notes)).getD index 0 := by
    intro index below
    rw [← row, List.getD_eq_getElem?_getD,
      List.getElem?_eq_getElem (by exact below)]
    simp [Lib.segment]
  refine ⟨?_, ?_, ?_, ?_⟩
  · rw [goodMagic, octet 0 (by decide), octet 1 (by decide), octet 2 (by decide),
      octet 3 (by decide), octet 4 (by decide), octet 5 (by decide)]
    rfl
  · exact number_elfHeader row (by decide)
  · exact number_elfHeader row (by decide)
  · exact (number_elfHeader row (by decide)).trans (octetsNat_natOctets 2 _)

theorem programHeaders_coredump :
    programHeaders (coredump chip stray regions notes) =
      (List.range (phnum regions notes % 2 ^ 16)).map
        fun index => headerAt (coredump chip stray regions notes) (52 + 32 * index) := by
  obtain ⟨-, place, size, count⟩ := @fileHeader_coredump chip stray regions notes
  rw [programHeaders, count]
  refine List.map_congr_left fun index _ => ?_
  simp only [segmentHeader, Firmware.FileHeader.segmentAt, place, size, headerAt,
    Nat.mul_comm index]

theorem parts_eq :
    parts chip stray regions notes = (items regions notes).map (Item.part chip stray) := by
  rw [items, List.map_append, List.map_map, List.map_map]
  rfl

theorem length_items :
    (items regions notes).length = (generals regions).length + notes.length := by
  rw [items, List.length_append, List.length_map, List.length_map]

theorem Item.type_ne (item : Item) (start : Nat) : (item.header start).type ≠ 0 := by
  cases item with
  | inl entry => exact Nat.one_ne_zero
  | inr note => exact Nat.succ_ne_zero 3

theorem filter_headersFrom (start : Nat) (list : List Item) :
    (headersFrom start list).filter (fun header => header.type ≠ 0) = headersFrom start list := by
  induction list generalizing start with
  | nil => rfl
  | cons item rest ih =>
    rw [headersFrom, List.filter_cons_of_pos (by simpa using item.type_ne start),
      ih]

theorem laid_items (counted : Counted regions notes) :
    Laid 32 (coredump chip stray regions notes) 52 (tableEnd regions notes)
      ((items regions notes).map (Item.part chip stray)) := by
  have laid := (@lays_coredump chip stray _ _ counted).laid
  rwa [parts_eq] at laid

theorem nonNull_coredump (counted : Counted regions notes) :
    nonNull (coredump chip stray regions notes) =
      headersFrom (tableEnd regions notes) (items regions notes) := by
  have headers := map_headerAt (@laid_items chip stray _ _ counted)
  have empty : ∀ index, (items regions notes).length ≤ index →
      index < phnum regions notes % 2 ^ 16 →
      (headerAt (coredump chip stray regions notes) (52 + 32 * index)).type = 0 := by
    intro index above below
    have kept := (@lays_coredump chip stray _ _ counted).kept
    rw [length_parts, ← length_items] at kept
    have blank : segment (coredump chip stray regions notes) (52 + 32 * index) 4 =
        List.replicate 4 0 := by
      refine segment_blank fun place start finish => ?_
      have before : place < tableEnd regions notes := by
        rw [tableEnd]
        omega
      rw [kept place (Or.inr (by omega)) (Or.inl before)]
      exact overwrite_apart (Or.inl (by rw [length_elfHeader]; omega))
    rw [headerAt, number, blank]
    rfl
  obtain ⟨more, total⟩ := Nat.exists_eq_add_of_le
    (by rw [length_items]; exact counted :
      (items regions notes).length ≤ phnum regions notes % 2 ^ 16)
  rw [nonNull, programHeaders_coredump, total, List.range_add, List.map_append,
    List.filter_append, headers, filter_headersFrom, List.map_map]
  rw [List.filter_eq_nil_iff.mpr, List.append_nil]
  intro header member
  obtain ⟨index, within, rfl⟩ := List.mem_map.mp member
  have below := List.mem_range.mp within
  simpa using empty _ (Nat.le_add_right _ index) (by omega)

end Dump

/-! ## What the segments hold -/

theorem copied_eq (whole : region.len.toNat + 3 < 2 ^ 32) :
    copied chip stray region = segment chip region.start.toNat region.len.toNat := by
  apply List.ext_getElem (by rw [copied, length_segment, length_segment])
  intro index below inside
  rw [copied, length_segment] at below
  have within : index < roundBytesToWord region.len.toNat := by
    rw [roundBytesToWord]
    omega
  simp [copied, Lib.segment, within]

theorem takeWhile_name (note : Note) :
    (note.name ++ List.replicate (note.namesz - note.name.length) 0).takeWhile (· ≠ 0) =
      note.name := by
  have above := note.name_lt
  rw [List.takeWhile_append_of_pos fun octet member => ?_]
  · obtain ⟨rest, more⟩ := Nat.exists_eq_add_of_lt above
    rw [more, Nat.add_assoc, Nat.add_sub_cancel_left, List.replicate_succ,
      List.takeWhile_cons_of_neg (by simp), List.append_nil]
  · have other : octet ≠ 0 := by
      rintro rfl
      exact note.ended member
    simpa using other

theorem decodeNote_notePart (note : Note) :
    decodeNote (notePart note).body = (note.name, note.type.toNat, note.data) := by
  have small := note.filesz_lt
  have above := note.le_filesz
  have before := note.name_lt
  have namesz : octetsNat (natOctets 4 note.namesz) = note.namesz := by
    rw [octetsNat_natOctets, Nat.mod_eq_of_lt (by omega)]
  have datasz : octetsNat (natOctets 4 note.datasz) = note.datasz := by
    rw [octetsNat_natOctets, Nat.mod_eq_of_lt (by omega)]
  have type : octetsNat (natOctets 4 note.type.toNat) = note.type.toNat := by
    rw [octetsNat_natOctets, Nat.mod_eq_of_lt (by omega)]
  have even : roundSizeToWord note.namesz = note.namesz := by
    rw [Note.namesz, roundSizeToWord, roundSizeToWord]
    omega
  have body : (notePart note).body = natOctets 4 note.namesz ++ (natOctets 4 note.datasz ++
      (natOctets 4 note.type.toNat ++ (note.name ++
        List.replicate (note.namesz - note.name.length) 0 ++ (note.data ++
          List.replicate (note.filesz - (12 + note.namesz + note.datasz)) 0)))) := by
    simp [notePart, words, Note.content]
  have label : (note.name ++ List.replicate (note.namesz - note.name.length) 0).length =
      note.namesz := by
    rw [List.length_append, List.length_replicate]
    omega
  have contents : (notePart note).body.drop 12 = note.name ++
      List.replicate (note.namesz - note.name.length) 0 ++ (note.data ++
        List.replicate (note.filesz - (12 + note.namesz + note.datasz)) 0) := by
    have thrice : (notePart note).body.drop 12 =
        (((notePart note).body.drop 4).drop 4).drop 4 := by
      rw [List.drop_drop, List.drop_drop]
    rw [thrice, body, List.drop_left' (length_natOctets _ _),
      List.drop_left' (length_natOctets _ _), List.drop_left' (length_natOctets _ _)]
  have first : (notePart note).body.take 4 = natOctets 4 note.namesz := by
    rw [body, List.take_left' (length_natOctets _ _)]
  have second : ((notePart note).body.drop 4).take 4 = natOctets 4 note.datasz := by
    rw [body, List.drop_left' (length_natOctets _ _), List.take_left' (length_natOctets _ _)]
  have third : ((notePart note).body.drop 8).take 4 = natOctets 4 note.type.toNat := by
    have twice : (notePart note).body.drop 8 = ((notePart note).body.drop 4).drop 4 := by
      rw [List.drop_drop]
    rw [twice, body, List.drop_left' (length_natOctets _ _),
      List.drop_left' (length_natOctets _ _), List.take_left' (length_natOctets _ _)]
  have data : (note.data ++ List.replicate (note.filesz - (12 + note.namesz + note.datasz))
      0).take note.datasz = note.data := List.take_left' rfl
  rw [decodeNote, first, second, third, namesz, datasz, type, even, contents,
    List.take_left' label, takeWhile_name, ← List.drop_drop, contents, List.drop_left' label,
    data]

/-- The offset of a segment is told as it is, or the segment is empty and told to be somewhere
behind the table. -/
def Placed (table : Nat) : Nat → List Item → Prop
  | _, [] => True
  | start, item :: rest =>
    (start < 2 ^ 32 ∨ (item.size = 0 ∧ table ≤ start % 2 ^ 32)) ∧
      Placed table (start + item.size) rest

/-- The length of a region that is read does not wrap when it is rounded. -/
def Item.Whole : Item → Prop
  | .inl (region, answer) => readable region answer = true → region.len.toNat + 3 < 2 ^ 32
  | .inr _ => True

theorem shows_header (body : segment file start item.size = (item.part chip stray).body)
    (placed : start < 2 ^ 32 ∨ item.size = 0) (whole : item.Whole) :
    Shows chip file (item.header start) item := by
  cases item with
  | inl entry =>
    obtain ⟨region, answer⟩ := entry
    refine ⟨rfl, rfl, rfl, ?_⟩
    simp only [Item.size] at body placed
    simp only [Item.header]
    split
    · next ready =>
        have size : regionFilesz region answer = region.len.toNat := if_pos ready
        rw [size] at body placed ⊢
        rcases placed with small | empty
        · rw [Nat.mod_eq_of_lt small, body, Item.part, regionPart]
          rw [if_pos ready, copied_eq (whole ready)]
        · rw [empty, segment_zero, segment_zero]
    · next unready => exact if_neg unready
  | inr note =>
    have positive := note.le_filesz
    simp only [Item.size] at body placed
    have small : start < 2 ^ 32 := by
      rcases placed with small | empty
      · exact small
      · omega
    refine ⟨rfl, ?_⟩
    simp only [Item.header]
    rw [Nat.mod_eq_of_lt small, body]
    exact decodeNote_notePart note

theorem shown_headersFrom (laid : Laid 32 file slot start (list.map (Item.part chip stray)))
    (placed : Placed table start list) (whole : ∀ item ∈ list, item.Whole) :
    List.Forall₂ (Shows chip file) (headersFrom start list) list := by
  induction list generalizing slot start with
  | nil => exact List.Forall₂.nil
  | cons item rest ih =>
    obtain ⟨-, body, others⟩ := laid
    obtain ⟨place, later⟩ := placed
    rw [Item.length_part] at body others
    refine List.Forall₂.cons (shows_header body ?_ (whole item List.mem_cons_self))
      (ih others later fun item member => whole item (List.mem_cons_of_mem _ member))
    rcases place with small | ⟨empty, -⟩
    · exact Or.inl small
    · exact Or.inr empty

theorem Item.offset_header (item : Item) (start : Nat) :
    (item.header start).offset = start % 2 ^ 32 := by
  cases item with
  | inl entry => rfl
  | inr note => rfl

theorem Item.filesz_header (item : Item) (start : Nat) :
    (item.header start).filesz = item.size := by
  cases item with
  | inl entry => rfl
  | inr note => rfl

/-- How much of some items gets into the file. -/
def total (list : List Item) : Nat := (list.map Item.size).sum

theorem total_cons (item : Item) (rest : List Item) :
    total (item :: rest) = item.size + total rest := by
  rw [total, List.map_cons, List.sum_cons, ← total]

variable {table start : Nat}

theorem inside_headersFrom (placed : Placed table start list) (behind : table ≤ start)
    (member : header ∈ headersFrom start list) :
    table ≤ header.offset ∧ header.offset + header.filesz ≤ start + total list ∧
      (header.filesz = 0 ∨ start ≤ header.offset) := by
  induction list generalizing start with
  | nil => cases member
  | cons item rest ih =>
    obtain ⟨place, later⟩ := placed
    rw [total_cons]
    rcases List.mem_cons.mp member with rfl | member
    · rw [item.offset_header, item.filesz_header]
      rcases place with small | ⟨empty, above⟩
      · rw [Nat.mod_eq_of_lt small]
        exact ⟨behind, by omega, Or.inr (Nat.le_refl _)⟩
      · exact ⟨above, by omega, Or.inl empty⟩
    · obtain ⟨above, below, ordered⟩ := ih later (by omega) member
      refine ⟨above, by omega, ?_⟩
      rcases ordered with empty | behind
      · exact Or.inl empty
      · exact Or.inr (by omega)

theorem apart_headersFrom (placed : Placed table start list) (behind : table ≤ start) :
    (headersFrom start list).Pairwise Apart := by
  induction list generalizing start with
  | nil => exact List.Pairwise.nil
  | cons item rest ih =>
    obtain ⟨place, later⟩ := placed
    refine List.Pairwise.cons (fun header member => ?_) (ih later (by omega))
    obtain ⟨-, -, ordered⟩ := inside_headersFrom later (by omega) member
    rw [Apart, item.offset_header, item.filesz_header]
    rcases place with small | ⟨empty, -⟩
    · rw [Nat.mod_eq_of_lt small]
      rcases ordered with none | after
      · exact Or.inr (Or.inl none)
      · exact Or.inr (Or.inr (Or.inl after))
    · exact Or.inl empty

theorem placed_of_apart (behind : ∀ header ∈ headersFrom start list, table ≤ header.offset)
    (apart : (earlier ++ headersFrom start list).Pairwise Apart)
    (covered : ∀ place, table ≤ place → place < start →
      ∃ header ∈ earlier, header.offset ≤ place ∧ place < header.offset + header.filesz) :
    Placed table start list := by
  induction list generalizing start earlier with
  | nil => trivial
  | cons item rest ih =>
    have above := behind _ List.mem_cons_self
    have others := List.pairwise_append.mp apart
    rw [item.offset_header] at above
    have next : (earlier ++ [item.header start] ++
        headersFrom (start + item.size) rest).Pairwise Apart := by
      rwa [List.append_assoc]
    have place : start < 2 ^ 32 ∨ item.size = 0 := by
      by_contra wrong
      obtain ⟨header, member, from_offset, before⟩ := covered _ above (by omega)
      have separate := others.2.2 header member _ List.mem_cons_self
      rw [Apart, item.offset_header, item.filesz_header] at separate
      omega
    refine ⟨?_, ih (fun header member => behind header (List.mem_cons_of_mem _ member))
      next fun index above before => ?_⟩
    · rcases place with small | empty
      · exact Or.inl small
      · exact Or.inr ⟨empty, above⟩
    · by_cases old : index < start
      · obtain ⟨header, member, inside⟩ := covered index above old
        exact ⟨header, List.mem_append_left _ member, inside⟩
      · refine ⟨_, List.mem_append_right _ (List.mem_singleton.mpr rfl), ?_⟩
        rw [item.offset_header, item.filesz_header]
        rcases place with small | empty
        · omega
        · omega

theorem exists_shown (laid : Laid 32 file slot start (list.map (Item.part chip stray)))
    (placed : Placed table start list)
    (shown : List.Forall₂ (Shows chip file) (headersFrom start list) list) (member : item ∈ list) :
    ∃ place, segment file place item.size = (item.part chip stray).body ∧
      Shows chip file (item.header place) item ∧ (place < 2 ^ 32 ∨ item.size = 0) := by
  induction list generalizing slot start with
  | nil => cases member
  | cons first rest ih =>
    obtain ⟨-, body, others⟩ := laid
    obtain ⟨place, later⟩ := placed
    cases shown with
    | cons head tail =>
      rw [Item.length_part] at body others
      rcases List.mem_cons.mp member with rfl | member
      · refine ⟨start, body, head, ?_⟩
        rcases place with small | ⟨empty, -⟩
        · exact Or.inl small
        · exact Or.inr empty
      · exact ih others later tail member

theorem whole_of_shown
    (body : segment file place item.size = (item.part (fun _ => 0) (fun _ => 1)).body)
    (shown : Shows (fun _ => 0) file (item.header place) item)
    (placed : place < 2 ^ 32 ∨ item.size = 0) :
    item.Whole := by
  cases item with
  | inr note => trivial
  | inl entry =>
    obtain ⟨region, answer⟩ := entry
    intro ready
    by_contra wraps
    have size : regionFilesz region answer = region.len.toNat := if_pos ready
    obtain ⟨-, -, -, same⟩ := shown
    simp only [Item.size, Item.part, regionPart, if_pos ready, size] at body placed
    rw [if_pos ready] at same
    simp only [Item.header, size] at same
    have small : place < 2 ^ 32 := by omega
    rw [Nat.mod_eq_of_lt small, body] at same
    have none : roundBytesToWord region.len.toNat = 0 := by
      rw [roundBytesToWord]
      omega
    have heads := congrArg (fun octets => octets[0]?) same
    obtain ⟨more, long⟩ := Nat.exists_eq_add_of_lt (by omega : 0 < region.len.toNat)
    rw [Nat.zero_add] at long
    rw [long] at none
    simp [copied, Lib.segment, none, long, List.range'_succ] at heads

section Dump

variable {chip stray : Nat → BitVec 8} {regions : Regions} {notes : List Note}

theorem total_items :
    total (items regions notes) = (regionSizes regions).sum + (notes.map Note.filesz).sum := by
  rw [total, items, List.map_append, List.sum_append, List.map_map, List.map_map]
  rfl

theorem sizes_le_sizeOfAllMemoryRegions :
    (regionSizes regions).sum + 32 * regions.length ≤ sizeOfAllMemoryRegions regions ∧
      (generals regions).length ≤ regions.length := by
  refine ⟨?_, List.length_filter_le _ _⟩
  induction regions with
  | nil => exact Nat.le_refl _
  | cons entry rest ih =>
    obtain ⟨region, answer⟩ := entry
    rw [sizeOfAllMemoryRegions, List.map_cons, List.sum_cons, ← sizeOfAllMemoryRegions,
      List.length_cons, regionSizes]
    by_cases general : region.type = memRegionTypeGeneral
    · have part : regionFilesz region answer ≤ region.len.toNat := by
        rw [regionFilesz]
        split
        · exact Nat.le_refl _
        · exact Nat.zero_le _
      rw [generals_cons_pos general, List.map_cons, List.sum_cons, ← regionSizes]
      dsimp only
      omega
    · rw [generals_cons_neg general, ← regionSizes]
      omega

theorem sizeOfAllNotes_eq :
    sizeOfAllNotes notes = (notes.map Note.filesz).sum + 32 * notes.length := by
  induction notes with
  | nil => rfl
  | cons note rest ih =>
    rw [sizeOfAllNotes, List.map_cons, List.sum_cons, ← sizeOfAllNotes, List.map_cons,
      List.sum_cons, List.length_cons]
    omega

theorem le_fileSize :
    tableEnd regions notes + total (items regions notes) ≤ fileSize regions notes ∧
      52 + 32 * ((generals regions).length + notes.length) ≤ fileSize regions notes := by
  obtain ⟨sizes, few⟩ := @sizes_le_sizeOfAllMemoryRegions regions
  rw [tableEnd, total_items, fileSize, sizeOfAllNotes_eq]
  rw [phnum] at *
  omega

theorem stores_inside
    (recorded : .store place octets ∈ (coredumpBuild chip stray regions notes true).log) :
    place + octets.length ≤ fileSize regions notes := by
  obtain ⟨room, table⟩ := @le_fileSize regions notes
  rw [total_items] at room
  rw [coredumpBuild, ← tableEnd] at recorded
  simp only [Recorded.log_bind, Recorded.log_record, if_true, value_copyMemoryRegions,
    Recorded.log_pure, List.mem_append, List.mem_singleton, Event.store.injEq, reduceCtorEq,
    store_not_mem_getStopInfo, false_or, List.not_mem_nil, or_false] at recorded
  rcases recorded with ⟨rfl, rfl⟩ | regional | noted
  · rw [length_elfHeader]
    omega
  · rcases within_copyMemoryRegions _ _ _ _ regional with inside | inside
    · omega
    · omega
  · rcases within_copyNotes _ _ _ _ noted with inside | inside
    · omega
    · omega

/-- When a core dump says what it should. -/
structure Storable (regions : Regions) (notes : List Note) : Prop where
  /-- Two octets hold the count of the headers that are written. -/
  counted : Counted regions notes
  /-- Four octets hold the offsets. -/
  placed : Placed (tableEnd regions notes) (tableEnd regions notes) (items regions notes)
  /-- No region that is read is so long that its rounded length wraps. -/
  whole : ∀ item ∈ items regions notes, item.Whole

theorem wellFormed_of_storable (storable : Storable regions notes) :
    WellFormed chip stray regions notes := by
  obtain ⟨magic, place, size, count⟩ := @fileHeader_coredump chip stray regions notes
  obtain ⟨room, -⟩ := @le_fileSize regions notes
  have headers := @nonNull_coredump chip stray _ _ storable.counted
  refine ⟨magic, ⟨place, size, ?_⟩, ?_, fun header member => ?_, ?_,
    fun place octets recorded => stores_inside recorded⟩
  · rw [tableEnd] at room
    omega
  · rw [headers]
    exact shown_headersFrom (laid_items storable.counted) storable.placed storable.whole
  · rw [headers] at member
    obtain ⟨above, below, -⟩ := inside_headersFrom storable.placed (Nat.le_refl _) member
    rw [count]
    exact ⟨above, by omega⟩
  · rw [headers]
    exact apart_headersFrom storable.placed (Nat.le_refl _)

theorem storable_of_wellFormed (wellFormed : ∀ chip stray, WellFormed chip stray regions notes) :
    Storable regions notes := by
  obtain ⟨-, -, shown, inside, apart, -⟩ := wellFormed (fun _ => 0) (fun _ => 1)
  obtain ⟨-, -, -, count⟩ := @fileHeader_coredump (fun _ => 0) (fun _ => 1) regions notes
  have counted : Counted regions notes := by
    have length := shown.length_eq
    have most : (nonNull (coredump (fun _ => 0) (fun _ => 1) regions notes)).length ≤
        phnum regions notes % 2 ^ 16 := by
      refine (List.length_filter_le _ _).trans ?_
      rw [programHeaders, List.length_map, List.length_range, count]
    rw [length_items] at length
    rw [Counted]
    omega
  have headers := @nonNull_coredump (fun _ => 0) (fun _ => 1) _ _ counted
  rw [headers, count] at inside
  rw [headers] at shown apart
  have placed : Placed (tableEnd regions notes) (tableEnd regions notes)
      (items regions notes) := by
    refine @placed_of_apart _ _ _ [] (fun header member => (inside header member).1) apart ?_
    intro place above below
    exact absurd above (Nat.not_le.mpr below)
  refine ⟨counted, placed, fun item member => ?_⟩
  obtain ⟨place, body, one, small⟩ := exists_shown (laid_items counted) placed shown member
  exact whole_of_shown body one small

/-- A region of so many octets, which is read. -/
def longRegion : Region × Answer :=
  (⟨memRegionTypeGeneral, 0, BitVec.ofNat 32 (2 ^ 32 - 1)⟩, ⟨true, true, 0, false⟩)

end Dump

end Coredump
end Morse
