import Morse.Tim.Blocks

/-!
# Walking the octets of an element

How many octets each parser of `s1gToTim` consumes depends on the octets it
reads and on which AIDs the TIM refuses, and the latter only on the octet that
the virtual map starts at.  The walk follows an element with that much of the
state.  The parsers, run on the memory of exactly the octets given, fault where
the walk overruns them and nowhere else.
-/

namespace Morse
namespace Tim

open Lib

/-! ## Refusals -/

/-- The octet that the virtual map starts at, once there is an AID. -/
abbrev Origin := Option Nat

/-- The TIM refuses AIDs of the octet: it is past the limit or before the start. -/
def Origin.refuses (origin : Origin) (octetNumber : Nat) : Bool :=
  decide (250 < octetNumber) || origin.any fun first => decide (octetNumber < first)

/-- The start of the virtual map after an AID of the octet is stored. -/
def Origin.store (origin : Origin) (octetNumber : Nat) : Origin :=
  some (origin.getD (evenOctet octetNumber))

/-- The TIM stands as the origin says. -/
def TimIe.HasOrigin (tim : TimIe) (origin : Origin) : Prop :=
  match origin with
  | none => tim.Fresh ∧ tim.bitmapOffset = 0
  | some first => ¬ tim.Fresh ∧ tim.bitmapOffset = first

theorem TimIe.HasOrigin.originFor_eq {tim : TimIe} (has : tim.HasOrigin origin) (aid : Nat) :
    tim.originFor aid = origin.getD (evenOctet (aid / 8)) := by
  cases origin with
  | none => exact if_pos has.1
  | some first => exact (if_neg has.1).trans has.2

theorem TimIe.HasOrigin.accepts_iff {tim : TimIe} (has : tim.HasOrigin origin) (aid : Nat) :
    tim.Accepts aid ↔ origin.refuses (aid / 8) = false := by
  rw [TimIe.Accepts, has.originFor_eq, Origin.refuses, Bool.or_eq_false_iff,
    decide_eq_false_iff_not]
  unfold aidLimit
  cases origin with
  | none =>
    have behind := evenOctet_le (aid / 8)
    simp only [Option.getD_none, Option.any_none, and_true]
    omega
  | some first =>
    simp only [Option.getD_some, Option.any_some, decide_eq_false_iff_not]
    omega

theorem TimIe.HasOrigin.store (has : tim.HasOrigin origin)
    (accepted : origin.refuses (aid / 8) = false) :
    ∃ tim' octetNumber, storeAidIntoTim tim aid = some (tim', octetNumber) ∧
      tim'.HasOrigin (origin.store (aid / 8)) := by
  have blank : tim.Fresh → tim.bitmapOffset = 0 := by
    intro fresh
    cases origin with
    | none => exact has.2
    | some first => exact absurd fresh has.1
  obtain ⟨tim', stores, storedAt⟩ :=
    storeAidIntoTim_accepts blank ((has.accepts_iff aid).mpr accepted)
  refine ⟨tim', _, stores, ?_, ?_⟩
  · rintro ⟨zero, one⟩
    rw [storedAt.virtualMap_eq] at zero one
    have position := Nat.mod_lt aid (show 0 < 8 by decide)
    obtain ⟨wasZero, notZero⟩ := eq_zero_of_update_or position zero
    obtain ⟨wasOne, notOne⟩ := eq_zero_of_update_or position one
    have fresh : tim.originFor aid = evenOctet (aid / 8) := if_pos ⟨wasZero, wasOne⟩
    have near := sub_evenOctet_lt (aid / 8)
    omega
  · rw [storedAt.bitmapOffset_eq, has.originFor_eq]

/-- The walk over the AIDs of one octet. -/
def Origin.octet (origin : Origin) (octetNumber : Nat) (subblock : Octet) : Option Origin :=
  if subblock = 0 then some origin
  else if origin.refuses octetNumber then none
  else some (origin.store octetNumber)

theorem Origin.refuses_store {origin : Origin} (accepted : origin.refuses octetNumber = false) :
    (origin.store octetNumber).refuses octetNumber = false := by
  have behind := evenOctet_le octetNumber
  rw [Origin.refuses, Bool.or_eq_false_iff] at accepted ⊢
  refine ⟨accepted.1, ?_⟩
  cases origin with
  | none => simpa [Origin.store] using behind
  | some first => exact accepted.2

theorem Origin.store_store (origin : Origin) (octetNumber : Nat) :
    Origin.store (origin.store octetNumber) octetNumber = origin.store octetNumber := rfl

/-- Storing some AIDs of an octet that is not refused. -/
private theorem storeAids_accepted {tim : TimIe} {origin : Origin} {octetNumber : Nat}
    {aids : List Nat} (has : tim.HasOrigin origin) (stored : origin.store octetNumber = origin)
    (accepted : origin.refuses octetNumber = false) (same : ∀ aid ∈ aids, aid / 8 = octetNumber)
    (timLen : Nat) :
    ∃ tim' timLen', storeAids aids tim timLen = .ok (tim', timLen') ∧ tim'.HasOrigin origin := by
  induction aids generalizing tim timLen with
  | nil => exact ⟨tim, timLen, rfl, has⟩
  | cons aid aids inductionHypothesis =>
    have here := same aid List.mem_cons_self
    obtain ⟨tim', octet, stores, has'⟩ := has.store
      (show origin.refuses (aid / 8) = false by rwa [here])
    rw [here, stored] at has'
    obtain ⟨tim'', timLen', rest, has''⟩ := inductionHypothesis has'
      (fun other listed => same other (List.mem_cons_of_mem aid listed))
      (if timLen < octet then octet else timLen)
    exact ⟨tim'', timLen', by rw [storeAids, stores]; exact rest, has''⟩

theorem storeAids_entryListing {origin : Origin} (has : tim.HasOrigin origin) (octetNumber : Nat)
    (subblock : Octet) (timLen : Nat) :
    match origin.octet octetNumber subblock with
    | none => ∃ tim', storeAids (entryListing octetNumber subblock) tim timLen =
        .error (.refused tim')
    | some origin' => ∃ tim' timLen',
        storeAids (entryListing octetNumber subblock) tim timLen = .ok (tim', timLen') ∧
          tim'.HasOrigin origin' := by
  have same : ∀ aid ∈ entryListing octetNumber subblock, aid / 8 = octetNumber :=
    fun aid listed => (mem_entryListing.mp listed).2.1
  unfold Origin.octet
  by_cases empty : subblock = 0
  · rw [empty]
    exact ⟨tim, timLen, rfl, has⟩
  · rw [if_neg empty]
    obtain ⟨bit, inside, set⟩ := exists_getLsbD_of_ne_zero empty
    have member : 8 * octetNumber + bit ∈ entryListing octetNumber subblock := by
      have number : (8 * octetNumber + bit) / 8 = octetNumber := by omega
      have position : (8 * octetNumber + bit) % 8 = bit := by omega
      exact mem_entryListing.mpr ⟨by decide, number, by rwa [position]⟩
    cases listed : entryListing octetNumber subblock with
    | nil =>
      rw [listed] at member
      cases member
    | cons aid aids =>
      rw [listed] at same
      have here := same aid List.mem_cons_self
      cases refused : origin.refuses octetNumber with
      | true =>
        have rejects : ¬ tim.Accepts aid := by
          rw [has.accepts_iff, here, refused]
          decide
        exact ⟨tim, by rw [storeAids, storeAidIntoTim_refuses rejects]⟩
      | false =>
        obtain ⟨tim', octet, stores, has'⟩ := has.store
          (show origin.refuses (aid / 8) = false by rwa [here])
        rw [here] at has'
        obtain ⟨tim'', timLen', rest, has''⟩ := storeAids_accepted has'
          (Origin.store_store origin octetNumber) (Origin.refuses_store refused)
          (fun other later => same other (List.mem_cons_of_mem aid later))
          (if timLen < octet then octet else timLen)
        exact ⟨tim'', timLen', by rw [storeAids, stores]; exact rest, has''⟩

/-! ## The walk over one block -/

/-- Where the walk stands after a block. -/
inductive Walk
  /-- The block has octets past the end. -/
  | overrun
  /-- An AID is refused, and the element is given up. -/
  | refused
  /-- The block is whole. -/
  | next (origin : Origin) (rest : List Octet)

/-- The walk over the subblocks that stand for the given octets. -/
def walkSubblocks (inverseBitmap : Bool) : List Nat → Origin → List Octet → Walk
  | [], origin, rest => .next origin rest
  | _ :: _, _, [] => .overrun
  | octetNumber :: octetNumbers, origin, octet :: rest =>
    match origin.octet octetNumber (decodeSubblock inverseBitmap octet) with
    | none => .refused
    | some origin => walkSubblocks inverseBitmap octetNumbers origin rest

/-- The origin after an AID of the octet, where a refusal is ignored. -/
def Origin.keep (origin : Origin) (octetNumber : Nat) : Origin :=
  if origin.refuses octetNumber then origin else origin.store octetNumber

/-- The AIDs that the words of an ADE block stand for. -/
def adeAids (bytes : List Octet) (base ewl : Nat) : List Nat → Nat → List Nat
  | [], _ => []
  | i :: words, aid =>
    let aid := if i = 0 then adeWord bytes ewl i + base else adeWord bytes ewl i + aid
    aid :: adeAids bytes base ewl words aid

/-- The walk over an ADE block.  A block with an AID past `ADE_AID_LIMIT` counts
one octet less than it has. -/
def walkAde (blockOffset pageIndex : Nat) (inverseBitmap : Bool) (origin : Origin) :
    List Octet → Walk
  | [] => .overrun
  | first :: rest =>
    let ewl := (first &&& 0x07#8).toNat
    let length := ((first &&& 0xF8#8) >>> 3).toNat
    let base := pageIndex * 2048 + blockOffset * 64
    if inverseBitmap ∧ ewl = 0 ∧ length = 0 then
      if base = 0 then .next (origin.keep 0) rest else .next origin (first :: rest)
    else if inverseBitmap ∧ ewl = 7 ∧ length = 1 then
      match rest with
      | [] => .overrun
      | excluded :: rest =>
        if base = 0 then .next (origin.keep 0) rest else .next origin (excluded :: rest)
    else if rest.length < length then .overrun
    else
      let aids := adeAids (rest.take length) base (ewl + 1)
        (List.range (length * 8 / (ewl + 1))) 0
      .next (if aids.head?.any (· ≤ adeAidLimit) then origin.keep 0 else origin)
        (if aids.all (· ≤ adeAidLimit) then rest.drop length else (first :: rest).drop length)

/-- The walk over one encoded block, after its control octet. -/
def walkBlock (control : Octet) (pageIndex : Nat) (origin : Origin) (octets : List Octet) :
    Walk :=
  let inverseBitmap := ((control &&& 0x04#8) >>> 2) != 0
  let blockOffset := ((control &&& 0xF8#8) >>> 3).toNat
  match EncMode.ofBits (control &&& 0x03#8), octets with
  | .block, blockBitmap :: rest =>
    walkSubblocks inverseBitmap
      (((List.range 8).filter (blockBitmap.getLsbD ·)).map (octetNumberAt pageIndex blockOffset))
      origin rest
  | .aid, singleAid :: rest =>
    if inverseBitmap then .next origin rest
    else .next
      (origin.keep (octetNumberAt pageIndex blockOffset (singleAid.toNat % 64 / 8))) rest
  | .olb, length :: rest =>
    walkSubblocks inverseBitmap
      ((List.range length.toNat).map fun m =>
        octetNumberAt pageIndex (blockOffset + m / 8) (m % 8))
      origin rest
  | .ade, octets => walkAde blockOffset pageIndex inverseBitmap origin octets
  | .unknown, _ => .refused
  | _, [] => .overrun

/-- The walk over the encoded blocks of an element: whether every block that it
comes to is whole.  Each block has a control octet at least, so the number of
octets is enough fuel. -/
def walkBlocks (pageIndex : Nat) : Nat → Origin → List Octet → Bool
  | 0, _, _ => true
  | _ + 1, _, [] => true
  | fuel + 1, origin, control :: octets =>
    match walkBlock control pageIndex origin octets with
    | .overrun => false
    | .refused => true
    | .next origin rest => walkBlocks pageIndex fuel origin rest

/-! ## The parsers follow the walk -/

/-- The result of a parser on the memory of the given octets is what the walk
says: it faults on an overrun and stops on a refusal, and else it leaves the
TIM with the origin and the octets after the index. -/
def Follows (octets : List Octet) (result : Except Stop (TimIe × Nat × Nat)) (walk : Walk) :
    Prop :=
  match walk with
  | .overrun => result = .error .fault
  | .refused => ∃ tim, result = .error (.refused tim)
  | .next origin rest => ∃ tim timLen index, result = .ok (tim, timLen, index) ∧
      tim.HasOrigin origin ∧ rest = octets.drop index ∧ index ≤ octets.length

theorem readOctet_ofList (octets : List Octet) (index : Nat) :
    (∃ octet, readOctet (Memory.ofList octets) index = .ok octet ∧
        octets.drop index = octet :: octets.drop (index + 1) ∧ index < octets.length) ∨
      readOctet (Memory.ofList octets) index = .error .fault ∧ octets.drop index = [] := by
  by_cases inside : index < octets.length
  · left
    refine ⟨octets[index], ?_, List.drop_eq_getElem_cons inside, inside⟩
    rw [readOctet, Memory.ofList, List.getElem?_eq_getElem inside]
  · right
    rw [Nat.not_lt] at inside
    refine ⟨?_, List.drop_of_length_le inside⟩
    rw [readOctet, Memory.ofList, List.getElem?_eq_none inside]

theorem follows_subblock (has : tim.HasOrigin origin) (timLen octetNumber : Nat)
    (octetNumbers : List Nat) (inverseBitmap : Bool)
    {rest : TimIe → Nat → Except Stop (TimIe × Nat × Nat)}
    (follows : ∀ tim timLen origin, tim.HasOrigin origin → index + 1 ≤ octets.length →
      Follows octets (rest tim timLen)
        (walkSubblocks inverseBitmap octetNumbers origin (octets.drop (index + 1)))) :
    Follows octets
      (readOctet (Memory.ofList octets) index >>= fun octet =>
        storeAids (entryListing octetNumber (decodeSubblock inverseBitmap octet)) tim timLen >>=
          fun stored => rest stored.1 stored.2)
      (walkSubblocks inverseBitmap (octetNumber :: octetNumbers) origin (octets.drop index)) := by
  obtain ⟨octet, reads, split, inside⟩ | ⟨faults, empty⟩ := readOctet_ofList octets index
  · rw [reads, split, walkSubblocks]
    have stores := storeAids_entryListing has octetNumber (decodeSubblock inverseBitmap octet)
      timLen
    cases walked : origin.octet octetNumber (decodeSubblock inverseBitmap octet) with
    | none =>
      rw [walked] at stores
      obtain ⟨tim', refuses⟩ := stores
      exact ⟨tim', by simp only [bind, Except.bind, refuses]⟩
    | some origin' =>
      rw [walked] at stores
      obtain ⟨tim', timLen', stored, has'⟩ := stores
      simp only [bind, Except.bind, stored]
      exact follows tim' timLen' origin' has' inside
  · rw [faults, empty]
    rfl

theorem parseBlockSubblocks_follows (blockBitmap : Octet) (blockOffset pageIndex : Nat)
    (inverseBitmap : Bool) (inside : index ≤ octets.length) (has : tim.HasOrigin origin)
    (timLen : Nat) :
    Follows octets
      (parseBlockSubblocks (Memory.ofList octets) blockBitmap blockOffset pageIndex inverseBitmap
        positions index tim timLen)
      (walkSubblocks inverseBitmap
        ((positions.filter (blockBitmap.getLsbD ·)).map (octetNumberAt pageIndex blockOffset))
        origin (octets.drop index)) := by
  induction positions generalizing index tim origin timLen with
  | nil => exact ⟨tim, timLen, index, rfl, has, rfl, inside⟩
  | cons posM positions inductionHypothesis =>
    cases set : blockBitmap.getLsbD posM with
    | false =>
      simp only [parseBlockSubblocks, set, Bool.false_eq_true, if_false, List.filter_cons]
      exact inductionHypothesis inside has timLen
    | true =>
      simp only [parseBlockSubblocks, set, if_true, List.filter_cons, List.map_cons,
        storeSubblock_concatAid]
      exact follows_subblock has timLen _ _ inverseBitmap
        fun _ timLen' _ has' inside' => inductionHypothesis inside' has' timLen'

theorem parseOlbSubblocks_follows (blockOffset pageIndex : Nat) (inverseBitmap : Bool)
    (inside : index ≤ octets.length) (has : tim.HasOrigin origin) (timLen : Nat) :
    Follows octets
      (parseOlbSubblocks (Memory.ofList octets) blockOffset pageIndex inverseBitmap
        positions index tim timLen)
      (walkSubblocks inverseBitmap
        (positions.map fun m => octetNumberAt pageIndex (blockOffset + m / 8) (m % 8))
        origin (octets.drop index)) := by
  induction positions generalizing index tim origin timLen with
  | nil => exact ⟨tim, timLen, index, rfl, has, rfl, inside⟩
  | cons subblockM positions inductionHypothesis =>
    simp only [parseOlbSubblocks, List.map_cons, storeSubblock_concatAid]
    exact follows_subblock has timLen _ _ inverseBitmap
      fun _ timLen' _ has' inside' => inductionHypothesis inside' has' timLen'

theorem TimIe.HasOrigin.keep (has : tim.HasOrigin origin) (aid : Nat) :
    (storeAidOrKeep tim aid).HasOrigin (origin.keep (aid / 8)) := by
  unfold storeAidOrKeep Origin.keep
  cases refused : origin.refuses (aid / 8) with
  | true =>
    have rejects : ¬ tim.Accepts aid := by
      rw [has.accepts_iff, refused]
      decide
    rw [storeAidIntoTim_refuses rejects]
    exact has
  | false =>
    obtain ⟨tim', octetNumber, stores, has'⟩ := has.store refused
    rw [stores]
    exact has'

theorem parseSingleMode_follows (blockOffset pageIndex : Nat) (inverseBitmap : Bool)
    (has : tim.HasOrigin origin) (singleAid : Octet) (timLen : Nat) :
    Follows (singleAid :: octets)
      (s1gToTimParseSingleMode (Memory.ofList (singleAid :: octets)) blockOffset pageIndex
        inverseBitmap tim timLen)
      (if inverseBitmap then .next origin octets
        else .next
          (origin.keep (octetNumberAt pageIndex blockOffset (singleAid.toNat % 64 / 8)))
          octets) := by
  have reads : readOctet (Memory.ofList (singleAid :: octets)) 0 = .ok singleAid := rfl
  cases inverseBitmap with
  | true =>
    exact ⟨tim, timLen, 1, by simp [s1gToTimParseSingleMode, reads, bind, Except.bind, pure,
      Except.pure], has, rfl, by simp⟩
  | false =>
    have aid_eq := or_fields (Nat.mod_lt singleAid.toNat (show 0 < 64 by decide))
      blockOffset pageIndex
    rw [← Nat.and_two_pow_sub_one_eq_mod singleAid.toNat 6] at aid_eq
    have number : (2048 * (pageIndex % 4) + 64 * (blockOffset % 32) +
        (singleAid.toNat &&& 0x003F)) / 8 =
          octetNumberAt pageIndex blockOffset (singleAid.toNat % 64 / 8) := by
      rw [Nat.and_two_pow_sub_one_eq_mod singleAid.toNat 6]
      unfold octetNumberAt
      omega
    have kept := has.keep (2048 * (pageIndex % 4) + 64 * (blockOffset % 32) +
      (singleAid.toNat &&& 0x003F))
    rw [number] at kept
    unfold storeAidOrKeep at kept
    simp only [s1gToTimParseSingleMode, reads, bind, Except.bind, Bool.false_eq_true, if_false]
    have mask : (2 : Nat) ^ 6 - 1 = 0x003F := rfl
    rw [mask] at aid_eq
    rw [aid_eq]
    split at kept
    · exact ⟨_, _, 1, rfl, kept, rfl, by simp⟩
    · exact ⟨_, _, 1, rfl, kept, rfl, by simp⟩

/-! ### The ADE parser -/

theorem Origin.keep_keep (origin : Origin) (octetNumber : Nat) :
    Origin.keep (origin.keep octetNumber) octetNumber = origin.keep octetNumber := by
  unfold Origin.keep
  cases refused : origin.refuses octetNumber with
  | true => simp [refused]
  | false => simp [Origin.refuses_store refused, Origin.store_store]

private theorem HasOrigin.keep_ade {tim : TimIe} {origin : Origin} (has : tim.HasOrigin origin)
    {aid : Nat} (small : aid ≤ adeAidLimit) :
    (storeAidOrKeep tim aid).HasOrigin (origin.keep 0) := by
  have kept := has.keep aid
  have number : aid / 8 = 0 := by
    unfold adeAidLimit at small
    omega
  rwa [number] at kept

/-- Storing wanted AIDs of the first octet. -/
private theorem storeAdeAids_zero {tim : TimIe} {origin : Origin} (has : tim.HasOrigin origin)
    (wanted : Nat → Bool) {positions : List Nat} (inside : ∀ i ∈ positions, i ≤ adeAidLimit) :
    ∃ tim', storeAdeAids 0 wanted positions tim = (tim', true) ∧
      tim'.HasOrigin (if positions.any wanted then origin.keep 0 else origin) := by
  induction positions generalizing tim origin with
  | nil => exact ⟨tim, rfl, has⟩
  | cons i positions inductionHypothesis =>
    have small := inside i List.mem_cons_self
    have rest := fun other listed => inside other (List.mem_cons_of_mem i listed)
    rw [storeAdeAids, Nat.zero_add, if_neg (Nat.not_lt.mpr small)]
    cases chosen : wanted i with
    | false =>
      obtain ⟨tim', stores, has'⟩ := inductionHypothesis has rest
      refine ⟨tim', by simpa using stores, ?_⟩
      simpa [chosen] using has'
    | true =>
      obtain ⟨tim', stores, has'⟩ :=
        inductionHypothesis (HasOrigin.keep_ade has small) rest
      refine ⟨tim', by simpa using stores, ?_⟩
      simpa [chosen, Origin.keep_keep] using has'

theorem storeAdeAids_past (past : adeAidLimit < base) (wanted : Nat → Bool) (tim : TimIe) :
    storeAdeAids base wanted (List.range 8) tim = (tim, false) := by
  have range : List.range 8 = 0 :: [1, 2, 3, 4, 5, 6, 7] := rfl
  rw [range, storeAdeAids, Nat.add_zero, if_pos past]

/-- The loop over the words of an ADE block. -/
private theorem storeAdeWords_follows {tim : TimIe} {origin : Origin} (has : tim.HasOrigin origin)
    (bytes : List Octet) (base ewl : Nat) (words : List Nat) (aid : Nat) :
    ∃ tim', storeAdeWords bytes base ewl words aid tim =
        (tim', (adeAids bytes base ewl words aid).all (· ≤ adeAidLimit)) ∧
      tim'.HasOrigin
        (if (adeAids bytes base ewl words aid).head?.any (· ≤ adeAidLimit) then origin.keep 0
          else origin) := by
  induction words generalizing tim origin aid with
  | nil => exact ⟨tim, rfl, has⟩
  | cons i words inductionHypothesis =>
    rw [storeAdeWords, adeAids]
    generalize (if i = 0 then adeWord bytes ewl i + base else adeWord bytes ewl i + aid) = next
    by_cases small : next ≤ adeAidLimit
    · obtain ⟨tim', stores, has'⟩ :=
        inductionHypothesis (HasOrigin.keep_ade has small) next
      refine ⟨tim', ?_, ?_⟩
      · simp only [if_neg (Nat.not_lt.mpr small), stores, List.all_cons, small, decide_true,
          Bool.true_and]
      · simp only [List.head?_cons, Option.any_some, small, decide_true, if_true]
        rwa [Origin.keep_keep, ite_self] at has'
    · refine ⟨tim, ?_, ?_⟩
      · simp only [if_pos (Nat.not_le.mp small), List.all_cons, small, decide_false,
          Bool.false_and]
      · simpa [small] using has

/-- Reading a run of octets of a list. -/
private theorem readOctets_ofList (octets : List Octet) (start count : Nat)
    (inside : start ≤ octets.length) :
    readOctets (Memory.ofList octets) (List.range' start count) =
      if start + count ≤ octets.length then .ok ((octets.drop start).take count)
      else .error .fault := by
  induction count generalizing start with
  | zero =>
    rw [Nat.add_zero, if_pos inside]
    rfl
  | succ count inductionHypothesis =>
    rw [List.range'_succ, readOctets]
    obtain ⟨octet, reads, split, below⟩ | ⟨faults, empty⟩ := readOctet_ofList octets start
    · rw [reads, split]
      simp only [bind, Except.bind, inductionHypothesis (start + 1) below]
      by_cases whole : start + 1 + count ≤ octets.length
      · rw [if_pos whole, if_pos (by omega)]
        rfl
      · rw [if_neg whole, if_neg (by omega)]
    · have past : octets.length ≤ start := List.drop_eq_nil_iff.mp empty
      rw [faults, if_neg (by omega)]
      rfl

theorem parseAdeMode_follows (octets : List Octet) (blockOffset pageIndex : Nat)
    (inverseBitmap : Bool) (has : tim.HasOrigin origin) (timLen : Nat) :
    Follows octets
      (s1gToTimParseAdeMode (Memory.ofList octets) blockOffset pageIndex inverseBitmap tim >>=
        fun parsed => return (parsed.1, timLen, parsed.2))
      (walkAde blockOffset pageIndex inverseBitmap origin octets) := by
  have inside : ∀ i ∈ List.range 8, i ≤ adeAidLimit := by
    intro i listed
    exact Nat.le_of_lt_succ (List.mem_range.mp listed)
  have past (base : Nat) (spelled : base = pageIndex * 2048 + blockOffset * 64)
      (nonzero : base ≠ 0) : adeAidLimit < base := by
    unfold adeAidLimit
    omega
  cases octets with
  | nil => rfl
  | cons first rest =>
    have reads : readOctet (Memory.ofList (first :: rest)) 0 = .ok first := rfl
    simp only [s1gToTimParseAdeMode, walkAde, reads, bind, Except.bind]
    generalize baseEq : pageIndex * 2048 + blockOffset * 64 = base
    by_cases all : inverseBitmap = true ∧ (first &&& 0x07#8).toNat = 0 ∧
        ((first &&& 0xF8#8) >>> 3).toNat = 0
    · rw [if_pos all, if_pos all]
      by_cases zero : base = 0
      · obtain ⟨tim', stores, has'⟩ := storeAdeAids_zero has (fun _ => true) inside
        rw [zero, stores]
        exact ⟨tim', timLen, 1, rfl, has', rfl, by simp⟩
      · rw [if_neg zero, storeAdeAids_past (past base baseEq.symm zero)]
        refine ⟨tim, timLen, 0, ?_, has, rfl, Nat.zero_le _⟩
        simp only [all.2.2, pure, Except.pure, Bool.false_eq_true, if_false]
    · rw [if_neg all, if_neg all]
      by_cases allButOne : inverseBitmap = true ∧ (first &&& 0x07#8).toNat = 7 ∧
          ((first &&& 0xF8#8) >>> 3).toNat = 1
      · rw [if_pos allButOne, if_pos allButOne]
        cases rest with
        | nil => rfl
        | cons excluded rest =>
          have readsNext : readOctet (Memory.ofList (first :: excluded :: rest)) 1 =
              .ok excluded := rfl
          simp only [readsNext]
          by_cases zero : base = 0
          · obtain ⟨tim', stores, has'⟩ := storeAdeAids_zero has
              (fun aid => aid != excluded.toNat + 0) inside
            have some : (List.range 8).any (fun aid => aid != excluded.toNat + 0) = true := by
              rw [List.any_eq_true]
              by_cases first : excluded.toNat = 0
              · exact ⟨1, by decide, by simp [first]⟩
              · exact ⟨0, by decide, by simpa using Ne.symm first⟩
            rw [some] at has'
            rw [zero, stores]
            exact ⟨tim', timLen, 2, rfl, has', rfl, by simp⟩
          · rw [if_neg zero, storeAdeAids_past (past base baseEq.symm zero)]
            refine ⟨tim, timLen, 1, ?_, has, rfl, by simp⟩
            simp only [allButOne.2.2, pure, Except.pure, Bool.false_eq_true, if_false]
      · rw [if_neg allButOne, if_neg allButOne]
        have run := readOctets_ofList (first :: rest) 1
          ((first &&& 0xF8#8) >>> 3).toNat (by simp)
        rw [List.range'_eq_map_range] at run
        rw [run]
        by_cases short : rest.length < ((first &&& 0xF8#8) >>> 3).toNat
        · rw [if_neg (by rw [List.length_cons]; omega), if_pos short]
          rfl
        · rw [if_pos (by rw [List.length_cons]; omega), if_neg short]
          obtain ⟨tim', stores, has'⟩ := storeAdeWords_follows has
            (((first :: rest).drop 1).take ((first &&& 0xF8#8) >>> 3).toNat) base
            ((first &&& 0x07#8).toNat + 1)
            (List.range (((first &&& 0xF8#8) >>> 3).toNat * 8 / ((first &&& 0x07#8).toNat + 1))) 0
          simp only [stores]
          refine ⟨tim', timLen, _, rfl, has', ?_, ?_⟩
          · rw [List.drop_one, List.tail_cons]
            split
            · rw [List.drop_succ_cons]
            · rfl
          · rw [List.length_cons]
            split <;> omega

/-! ## The whole element -/

theorem parseEncodedBlock_follows (control : Octet) (pageIndex : Nat) (octets : List Octet)
    (has : tim.HasOrigin origin) (timLen : Nat) :
    Follows octets (parseEncodedBlock (Memory.ofList octets) control pageIndex tim timLen)
      (walkBlock control pageIndex origin octets) := by
  simp only [parseEncodedBlock, walkBlock]
  cases EncMode.ofBits (control &&& 0x03#8) with
  | block =>
    cases octets with
    | nil => rfl
    | cons blockBitmap rest =>
      exact parseBlockSubblocks_follows blockBitmap _ pageIndex _
        (show 1 ≤ (blockBitmap :: rest).length by simp) has timLen
  | aid =>
    cases octets with
    | nil => rfl
    | cons singleAid rest => exact parseSingleMode_follows _ pageIndex _ has singleAid timLen
  | olb =>
    cases octets with
    | nil => rfl
    | cons length rest =>
      exact parseOlbSubblocks_follows _ pageIndex _
        (show 1 ≤ (length :: rest).length by simp) has timLen
  | ade => exact parseAdeMode_follows octets _ pageIndex _ has timLen
  | unknown => exact ⟨tim, rfl⟩

theorem parseEncodedBlocks_fault_iff (pageIndex fuel : Nat)
    (memory : encodedBlockInfo.shift index = Memory.ofList octets)
    (ends : blockInfoLen = index + octets.length) (has : tim.HasOrigin origin) (timLen : Nat) :
    parseEncodedBlocks encodedBlockInfo blockInfoLen pageIndex fuel index tim timLen =
        .error .fault ↔
      walkBlocks pageIndex fuel origin octets = false := by
  induction fuel generalizing index octets tim origin timLen with
  | zero => simp [parseEncodedBlocks, walkBlocks]
  | succ fuel inductionHypothesis =>
    cases octets with
    | nil =>
      have finished : ¬ index < blockInfoLen := by
        rw [List.length_nil] at ends
        omega
      simp [parseEncodedBlocks, walkBlocks, finished]
    | cons control octets =>
      rw [List.length_cons] at ends
      have entered : index < blockInfoLen := by omega
      have reads : readOctet encodedBlockInfo index = .ok control := by
        have here := congrFun memory 0
        rw [Memory.shift_apply, Nat.add_zero] at here
        rw [readOctet, here]
        rfl
      have next : encodedBlockInfo.shift (index + 1) = Memory.ofList octets := by
        rw [← Memory.shift_shift, memory, Memory.shift_ofList, List.drop_one, List.tail_cons]
      have follows := parseEncodedBlock_follows control pageIndex octets has timLen
      simp only [parseEncodedBlocks, entered, if_true, reads, next, bind, Except.bind,
        walkBlocks]
      cases walked : walkBlock control pageIndex origin octets with
      | overrun =>
        rw [walked] at follows
        simp only [show parseEncodedBlock _ _ _ _ _ = _ from follows]
      | refused =>
        rw [walked] at follows
        obtain ⟨tim', refuses⟩ := follows
        simp [refuses]
      | next origin' rest =>
        rw [walked] at follows
        obtain ⟨tim', timLen', consumed, parsed, has', rfl, inside⟩ := follows
        simp only [parsed]
        apply inductionHypothesis _ _ has'
        · rw [← Memory.shift_shift, next, Memory.shift_ofList]
        · rw [List.length_drop]
          omega

end Tim
end Morse
