import Morse.Tim.Bounds

/-!
# What an element asks for

Which AIDs an element asks for, and in what order, does not depend on what becomes of them: the
parsers read the octets, and storing only says where to stop.  An element is thus a list of
requests, and decoding it serves them one after the other.
-/

namespace Morse
namespace Tim

open Lib

/-! ## Requests -/

/-- How an AID is asked for.  A refusal ends the decoding for a bitmap, counts as an octet
number for a single AID, and is ignored in an ADE block. -/
inductive Asking
  | bitmap
  | single
  | ade
  deriving DecidableEq, Repr

/-- An AID that is asked for. -/
structure Request where
  asking : Asking
  aid : Nat
  deriving DecidableEq, Repr

/-- The octet number that `-EINVAL` is taken for. -/
def einvalOctet : Nat := 234

/-- The largest octet number after an AID is stored, which an ADE block does not look at. -/
def Asking.reach : Asking → Nat → Nat → Nat
  | .ade, timLen, _ => timLen
  | .bitmap, timLen, octetNumber => if timLen < octetNumber then octetNumber else timLen
  | .single, timLen, octetNumber => if timLen < octetNumber then octetNumber else timLen

/-- Serve requests one after the other, keeping the largest octet number. -/
def serve : List Request → TimIe → Nat → Except Stop (TimIe × Nat)
  | [], tim, timLen => .ok (tim, timLen)
  | ⟨asking, aid⟩ :: rest, tim, timLen =>
    match storeAidIntoTim tim aid with
    | some (tim, octetNumber) => serve rest tim (asking.reach timLen octetNumber)
    | none =>
      match asking with
      | .bitmap => .error (.refused tim)
      | .single => serve rest tim (Asking.single.reach timLen einvalOctet)
      | .ade => serve rest tim timLen

theorem serve_append (first second : List Request) (tim : TimIe) (timLen : Nat) :
    serve (first ++ second) tim timLen =
      (serve first tim timLen).bind fun served => serve second served.1 served.2 := by
  induction first generalizing tim timLen with
  | nil => rfl
  | cons request rest ih =>
    obtain ⟨asking, aid⟩ := request
    simp only [List.cons_append, serve]
    cases storeAidIntoTim tim aid with
    | none =>
      cases asking with
      | bitmap => rfl
      | single => exact ih _ _
      | ade => exact ih _ _
    | some stored => exact ih _ _

theorem serve_bitmap (aids : List Nat) (tim : TimIe) (timLen : Nat) :
    serve (aids.map (Request.mk .bitmap)) tim timLen = storeAids aids tim timLen := by
  induction aids generalizing tim timLen with
  | nil => rfl
  | cons aid rest ih =>
    rw [List.map_cons, serve, storeAids]
    cases storeAidIntoTim tim aid with
    | none => rfl
    | some stored => exact ih _ _

theorem serve_ade (aids : List Nat) (tim : TimIe) (timLen : Nat) :
    serve (aids.map (Request.mk .ade)) tim timLen =
      .ok (aids.foldl storeAidOrKeep tim, timLen) := by
  induction aids generalizing tim with
  | nil => rfl
  | cons aid rest ih =>
    rw [List.map_cons, serve, List.foldl_cons, storeAidOrKeep]
    cases storeAidIntoTim tim aid with
    | none => exact ih tim
    | some stored => exact ih stored.1

/-! ## The requests of one block -/

/-- The requests of the subblocks that stand for the given octets. -/
def bitmapRequests (octets : Nat → Octet) (inverseBitmap : Bool) :
    List Nat → Nat → List Request
  | [], _ => []
  | octetNumber :: octetNumbers, index =>
    (entryListing octetNumber (decodeSubblock inverseBitmap (octets index))).map
        (Request.mk .bitmap) ++
      bitmapRequests octets inverseBitmap octetNumbers (index + 1)

/-- The requests of an ADE block, and how many octets it counts. -/
def adeRequests (octets : Nat → Octet) (blockOffset pageIndex : Nat) (inverseBitmap : Bool) :
    List Request × Nat :=
  let ewl := (octets 0 &&& 0x07#8).toNat
  let length := ((octets 0 &&& 0xF8#8) >>> 3).toNat
  let base := pageIndex * 2048 + blockOffset * 64
  if inverseBitmap ∧ ewl = 0 ∧ length = 0 then
    if base = 0 then ((List.range 8).map (Request.mk .ade), 1) else ([], length)
  else if inverseBitmap ∧ ewl = 7 ∧ length = 1 then
    if base = 0 then
      (((List.range 8).filter (· != (octets 1).toNat)).map (Request.mk .ade), 2)
    else ([], length)
  else
    let aids := adeAids ((List.range length).map fun index => octets (1 + index)) base (ewl + 1)
      (List.range (length * 8 / (ewl + 1))) 0
    ((aids.takeWhile (· ≤ adeAidLimit)).map (Request.mk .ade),
      if aids.all (· ≤ adeAidLimit) then length + 1 else length)

/-- The requests of a block, and how many octets it counts after its control octet. -/
def blockRequests (octets : Nat → Octet) (control : Octet) (pageIndex : Nat) :
    List Request × Nat :=
  let inverseBitmap := ((control &&& 0x04#8) >>> 2) != 0
  let blockOffset := ((control &&& 0xF8#8) >>> 3).toNat
  match EncMode.ofBits (control &&& 0x03#8) with
  | .block =>
    let octetNumbers := ((List.range 8).filter ((octets 0).getLsbD ·)).map
      (octetNumberAt pageIndex blockOffset)
    (bitmapRequests octets inverseBitmap octetNumbers 1, 1 + octetNumbers.length)
  | .aid =>
    if inverseBitmap then ([], 1)
    else
      ([⟨.single, 2048 * (pageIndex % 4) + 64 * (blockOffset % 32) +
        (octets 0).toNat % 64⟩], 1)
  | .olb =>
    let octetNumbers := (List.range (octets 0).toNat).map fun m =>
      octetNumberAt pageIndex (blockOffset + m / 8) (m % 8)
    (bitmapRequests octets inverseBitmap octetNumbers 1, 1 + octetNumbers.length)
  | .ade => adeRequests octets blockOffset pageIndex inverseBitmap
  | .unknown => ([], 0)

/-- The requests of the blocks of an element, from an index on.  Each block has its control
octet at least, so the length of the block information is enough fuel. -/
def elementRequests (octets : Nat → Octet) (blockInfoLen pageIndex : Nat) :
    Nat → Nat → List Request
  | 0, _ => []
  | fuel + 1, index =>
    if index < blockInfoLen then
      let block := blockRequests (fun place => octets (index + 1 + place)) (octets index)
        pageIndex
      block.1 ++ elementRequests octets blockInfoLen pageIndex fuel (index + 1 + block.2)
    else []

/-! ## The parsers serve the requests -/

section Parsers

variable (octets : Nat → Octet)

theorem readOctet_ofFun (index : Nat) :
    readOctet (Memory.ofFun octets) index = .ok (octets index) := rfl

theorem parseBlockSubblocks_serve (blockBitmap : Octet) (blockOffset pageIndex : Nat)
    (inverseBitmap : Bool) (positions : List Nat) (index : Nat) (tim : TimIe) (timLen : Nat) :
    let octetNumbers := (positions.filter (blockBitmap.getLsbD ·)).map
      (octetNumberAt pageIndex blockOffset)
    parseBlockSubblocks (Memory.ofFun octets) blockBitmap blockOffset pageIndex inverseBitmap
        positions index tim timLen =
      (serve (bitmapRequests octets inverseBitmap octetNumbers index) tim timLen).map
        fun served => (served.1, served.2, index + octetNumbers.length) := by
  induction positions generalizing index tim timLen with
  | nil => rfl
  | cons posM positions ih =>
    cases set : blockBitmap.getLsbD posM with
    | false =>
      simp only [parseBlockSubblocks, set, Bool.false_eq_true, if_false, List.filter_cons]
      exact ih index tim timLen
    | true =>
      simp only [parseBlockSubblocks, set, if_true, List.filter_cons, List.map_cons,
        readOctet_ofFun, bind, Except.bind, storeSubblock_concatAid, bitmapRequests,
        serve_append, serve_bitmap, List.length_cons]
      cases storeAids (entryListing (octetNumberAt pageIndex blockOffset posM)
          (decodeSubblock inverseBitmap (octets index))) tim timLen with
      | error stop => rfl
      | ok stored =>
        dsimp only
        rw [ih (index + 1) stored.1 stored.2, Nat.add_assoc, Nat.add_comm 1]

theorem parseOlbSubblocks_serve (blockOffset pageIndex : Nat) (inverseBitmap : Bool)
    (positions : List Nat) (index : Nat) (tim : TimIe) (timLen : Nat) :
    let octetNumbers := positions.map fun m =>
      octetNumberAt pageIndex (blockOffset + m / 8) (m % 8)
    parseOlbSubblocks (Memory.ofFun octets) blockOffset pageIndex inverseBitmap
        positions index tim timLen =
      (serve (bitmapRequests octets inverseBitmap octetNumbers index) tim timLen).map
        fun served => (served.1, served.2, index + octetNumbers.length) := by
  induction positions generalizing index tim timLen with
  | nil => rfl
  | cons m positions ih =>
    simp only [parseOlbSubblocks, List.map_cons, readOctet_ofFun, bind, Except.bind,
      storeSubblock_concatAid, bitmapRequests, serve_append, serve_bitmap, List.length_cons]
    cases storeAids (entryListing (octetNumberAt pageIndex (blockOffset + m / 8) (m % 8))
        (decodeSubblock inverseBitmap (octets index))) tim timLen with
    | error stop => rfl
    | ok stored =>
      dsimp only
      rw [ih (index + 1) stored.1 stored.2, Nat.add_assoc, Nat.add_comm 1]

theorem parseSingleMode_serve (blockOffset pageIndex : Nat) (inverseBitmap : Bool) (tim : TimIe)
    (timLen : Nat) :
    s1gToTimParseSingleMode (Memory.ofFun octets) blockOffset pageIndex inverseBitmap tim
        timLen =
      (serve (if inverseBitmap then []
          else [⟨.single, 2048 * (pageIndex % 4) + 64 * (blockOffset % 32) +
            (octets 0).toNat % 64⟩]) tim timLen).map
        fun served => (served.1, served.2, 1) := by
  have aid_eq := or_fields (Nat.mod_lt (octets 0).toNat (show 0 < 64 by decide))
    blockOffset pageIndex
  rw [← Nat.and_two_pow_sub_one_eq_mod (octets 0).toNat 6] at aid_eq ⊢
  simp only [s1gToTimParseSingleMode, readOctet_ofFun, bind, Except.bind, aid_eq]
  cases inverseBitmap with
  | true => rfl
  | false =>
    simp only [Bool.false_eq_true, if_false, serve]
    cases storeAidIntoTim tim (2048 * (pageIndex % 4) + 64 * (blockOffset % 32) +
        ((octets 0).toNat &&& 0x003F)) with
    | none => rfl
    | some stored => rfl

theorem storeAdeAids_eq (wanted : Nat → Bool) (inside : ∀ i ∈ positions, i ≤ adeAidLimit)
    (tim : TimIe) :
    storeAdeAids 0 wanted positions tim =
      ((positions.filter wanted).foldl storeAidOrKeep tim, true) := by
  induction positions generalizing tim with
  | nil => rfl
  | cons i positions ih =>
    have small := Nat.not_lt.mpr (inside i List.mem_cons_self)
    have rest := fun other listed => inside other (List.mem_cons_of_mem i listed)
    rw [storeAdeAids, Nat.zero_add, if_neg small, ih rest]
    cases chosen : wanted i with
    | false => simp [chosen]
    | true => simp [chosen]

theorem storeAdeWords_eq (bytes : List Octet) (base ewl : Nat) (words : List Nat) (aid : Nat)
    (tim : TimIe) :
    storeAdeWords bytes base ewl words aid tim =
      (((adeAids bytes base ewl words aid).takeWhile (· ≤ adeAidLimit)).foldl
          storeAidOrKeep tim,
        (adeAids bytes base ewl words aid).all (· ≤ adeAidLimit)) := by
  induction words generalizing tim aid with
  | nil => rfl
  | cons i words ih =>
    rw [storeAdeWords, adeAids]
    generalize (if i = 0 then adeWord bytes ewl i + base else adeWord bytes ewl i + aid) = next
    by_cases small : next ≤ adeAidLimit
    · simp [Nat.not_lt.mpr small, small, ih]
    · simp [Nat.not_le.mp small, small]

theorem readOctets_ofFun (indices : List Nat) :
    readOctets (Memory.ofFun octets) indices = .ok (indices.map octets) := by
  induction indices with
  | nil => rfl
  | cons index indices ih =>
    rw [readOctets, ih]
    rfl

theorem parseAdeMode_serve (blockOffset pageIndex : Nat) (inverseBitmap : Bool) (tim : TimIe)
    (timLen : Nat) :
    (s1gToTimParseAdeMode (Memory.ofFun octets) blockOffset pageIndex inverseBitmap tim).map
        (fun parsed => (parsed.1, timLen, parsed.2)) =
      (serve (adeRequests octets blockOffset pageIndex inverseBitmap).1 tim timLen).map
        fun served =>
          (served.1, served.2, (adeRequests octets blockOffset pageIndex inverseBitmap).2) := by
  have inside : ∀ i ∈ List.range 8, i ≤ adeAidLimit := by
    intro i listed
    exact Nat.le_of_lt_succ (List.mem_range.mp listed)
  have past (nonzero : pageIndex * 2048 + blockOffset * 64 ≠ 0) :
      adeAidLimit < pageIndex * 2048 + blockOffset * 64 := by
    unfold adeAidLimit
    omega
  simp only [s1gToTimParseAdeMode, adeRequests, readOctet_ofFun, bind, Except.bind]
  generalize pageIndex * 2048 + blockOffset * 64 = base at past ⊢
  by_cases all : inverseBitmap = true ∧ (octets 0 &&& 0x07#8).toNat = 0 ∧
      ((octets 0 &&& 0xF8#8) >>> 3).toNat = 0
  · rw [if_pos all, if_pos all]
    by_cases zero : base = 0
    · simp only [zero, storeAdeAids_eq _ inside, serve_ade, List.filter_true,
        pure, Except.pure, Except.map, if_true]
    · simp only [if_neg zero, storeAdeAids_past (past zero), serve, pure, Except.pure,
        Except.map, Bool.false_eq_true, if_false]
  · rw [if_neg all, if_neg all]
    by_cases allButOne : inverseBitmap = true ∧ (octets 0 &&& 0x07#8).toNat = 7 ∧
        ((octets 0 &&& 0xF8#8) >>> 3).toNat = 1
    · rw [if_pos allButOne, if_pos allButOne]
      by_cases zero : base = 0
      · simp only [zero, storeAdeAids_eq _ inside, serve_ade, Nat.add_zero,
          pure, Except.pure, Except.map, if_true]
      · simp only [if_neg zero, storeAdeAids_past (past zero), serve, pure, Except.pure,
          Except.map, Bool.false_eq_true, if_false]
    · rw [if_neg allButOne, if_neg allButOne, readOctets_ofFun, List.map_map]
      simp only [storeAdeWords_eq, serve_ade, pure, Except.pure, Except.map]
      rfl

theorem parseEncodedBlock_serve (control : Octet) (pageIndex : Nat) (tim : TimIe) (timLen : Nat) :
    parseEncodedBlock (Memory.ofFun octets) control pageIndex tim timLen =
      (serve (blockRequests octets control pageIndex).1 tim timLen).map
        fun served => (served.1, served.2, (blockRequests octets control pageIndex).2) := by
  have known : ∀ octet : Octet, EncMode.ofBits (octet &&& 0x03#8) ≠ .unknown := by decide
  have mode := known control
  simp only [parseEncodedBlock, blockRequests]
  generalize EncMode.ofBits (control &&& 0x03#8) = encMode at mode ⊢
  cases encMode with
  | block => exact parseBlockSubblocks_serve octets _ _ _ _ _ _ _ _
  | aid =>
    dsimp only
    rw [parseSingleMode_serve]
    split
    · rfl
    · rfl
  | olb => exact parseOlbSubblocks_serve octets _ _ _ _ _ _ _
  | ade => exact parseAdeMode_serve octets _ _ _ _ _
  | unknown => exact absurd rfl mode

theorem shift_ofFun (base : Nat) :
    (Memory.ofFun octets).shift base = Memory.ofFun fun place => octets (base + place) := rfl

theorem parseEncodedBlocks_serve (blockInfoLen pageIndex fuel index : Nat) (tim : TimIe)
    (timLen : Nat) :
    parseEncodedBlocks (Memory.ofFun octets) blockInfoLen pageIndex fuel index tim timLen =
      serve (elementRequests octets blockInfoLen pageIndex fuel index) tim timLen := by
  induction fuel generalizing index tim timLen with
  | zero => rfl
  | succ fuel ih =>
    rw [parseEncodedBlocks, elementRequests]
    by_cases entered : index < blockInfoLen
    · rw [if_pos entered, if_pos entered, readOctet_ofFun, serve_append]
      simp only [bind, Except.bind, shift_ofFun, parseEncodedBlock_serve]
      cases serve (blockRequests (fun place => octets (index + 1 + place)) (octets index)
          pageIndex).1 tim timLen with
      | error stop => rfl
      | ok served => exact ih _ _ _
    · rw [if_neg entered, if_neg entered]
      rfl

end Parsers

end Tim
end Morse
