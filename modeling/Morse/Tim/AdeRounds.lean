import Morse.Lib.Sums
import Morse.Tim.Length
import Morse.Tim.RoundTrip

/-!
# ADE blocks and the AIDs of their octets

The encoder takes each differential AID from the entry before it, and that is a difference
itself from the third AID on.  The decoder adds up.  An octet comes back as it was exactly when
it has at most two AIDs, or three of which the first is zero in its block.
-/

namespace Morse
namespace Tim

open Lib

/-! ## What an ADE block denotes -/

/-- The octets are a whole ADE block, and the AIDs are those of its words: the first is counted
from the block offset, every other from the one before it. -/
def AdeDenotes (block : List Octet) (aids : List Nat) : Prop :=
  ∃ control first bytes, block = control :: first :: bytes ∧
    EncMode.ofBits (control &&& 0x03#8) = .ade ∧
    (((control &&& 0x04#8) >>> 2) != 0) = false ∧
    bytes.length = ((first &&& 0xF8#8) >>> 3).toNat ∧
    ∀ aid, aid ∈ adeAids bytes (((control &&& 0xF8#8) >>> 3).toNat * 64)
        ((first &&& 0x07#8).toNat + 1)
        (List.range (bytes.length * 8 / ((first &&& 0x07#8).toNat + 1))) 0 ↔ aid ∈ aids

/-- The AIDs of an octet, counted from the block that it is in. -/
def aidsInBlock (octetOffset : Nat) (octet : Octet) : List Nat :=
  ((List.range 8).filter (octet.getLsbD ·)).map (8 * (octetOffset % 8) + ·)

/-- There are at most two AIDs, or three and the first of them is the first of its block. -/
def AdeExact (octetOffset : Nat) (octet : Octet) : Prop :=
  (aidsInBlock octetOffset octet).length ≤ 2 ∨
    (aidsInBlock octetOffset octet).length = 3 ∧ (aidsInBlock octetOffset octet).head? = some 0

instance (octetOffset : Nat) (octet : Octet) : Decidable (AdeExact octetOffset octet) := by
  unfold AdeExact
  infer_instance

/-- The octets of the ADE block for an octet. -/
def adeBlock (octetOffset : Nat) (octet : Octet) : List Octet :=
  let diffAidList := lagged 0 (aidsInBlock octetOffset octet)
  blockControl .ade false (octetOffset / 8) ::
    BitVec.ofNat 8 (0x07 ||| (diffAidList.length <<< 3)) :: diffAidList.map (BitVec.ofNat 8)

/-! ## The encoder -/

theorem aidsInBlock_lt (found : aid ∈ aidsInBlock octetOffset octet) :
    aid < 64 := by
  obtain ⟨remainder, inside, rfl⟩ := List.mem_map.mp found
  have bit := List.mem_range.mp (List.mem_of_mem_filter inside)
  omega

theorem pairwise_aidsInBlock (octetOffset : Nat) (octet : Octet) :
    (aidsInBlock octetOffset octet).Pairwise (· < ·) := by
  rw [aidsInBlock, List.pairwise_map]
  refine ((List.pairwise_lt_range).filter _).imp ?_
  omega

theorem aidBase_or_mod (octetOffset : Nat) (inside : remainder < 8) :
    (octetOffset * 8 ||| remainder) % 64 = 8 * (octetOffset % 8) + remainder := by
  have low : octetOffset * 8 ||| remainder = octetOffset * 8 + remainder := by
    rw [Nat.or_comm]
    have parts := or_mul_two_pow (show remainder < 2 ^ 3 from inside) octetOffset
    omega
  omega

theorem adeDiffAids_eq (octetOffset : Nat) (octet : Octet) {positions : List Nat}
    (inside : ∀ remainder ∈ positions, remainder < 8) {numbers : List Nat}
    (ascending : (numbers ++ (positions.filter (octet.getLsbD ·)).map
      (8 * (octetOffset % 8) + ·)).Pairwise (· < ·)) :
    adeDiffAids (octetOffset * 8) octet positions (lagged 0 numbers) =
      lagged 0 (numbers ++ (positions.filter (octet.getLsbD ·)).map
        (8 * (octetOffset % 8) + ·)) := by
  induction positions generalizing numbers with
  | nil => rw [adeDiffAids, List.filter_nil, List.map_nil, List.append_nil]
  | cons remainder positions ih =>
    have rest := fun other listed => inside other (List.mem_cons_of_mem remainder listed)
    rw [adeDiffAids]
    cases set : octet.getLsbD remainder with
    | false =>
      rw [List.filter_cons_of_neg (by simpa using set)] at ascending ⊢
      exact ih rest ascending
    | true =>
      rw [List.filter_cons_of_pos (by simpa using set), List.map_cons] at ascending ⊢
      have aid := aidBase_or_mod octetOffset (inside remainder List.mem_cons_self)
      have small := inside remainder List.mem_cons_self
      have regrouped : ∀ others : List Nat,
          numbers ++ (8 * (octetOffset % 8) + remainder) :: others =
            numbers ++ [8 * (octetOffset % 8) + remainder] ++ others := by
        intro others
        rw [List.append_assoc, List.singleton_append]
      have above : ∀ entry ∈ lagged 0 numbers,
          entry ≤ 8 * (octetOffset % 8) + remainder := by
        intro entry found
        obtain ⟨number, among, low⟩ := exists_le_of_mem_lagged found
        have less := (List.pairwise_append.mp ascending).2.2 number among _
          List.mem_cons_self
        omega
      have grown : lagged 0 numbers ++
          [(lagged 0 numbers).getLast?.elim ((octetOffset * 8 ||| remainder) % 64)
            fun previous =>
              ((octetOffset * 8 ||| remainder) % 64 + 65536 - previous) % 65536] =
            lagged 0 (numbers ++ [8 * (octetOffset % 8) + remainder]) := by
        rw [lagged_append]
        cases last : (lagged 0 numbers).getLast? with
        | none => simp only [aid, Option.elim_none, Option.getD_none, Nat.sub_zero]
        | some previous =>
          have low := above previous (List.mem_of_getLast? last)
          simp only [aid, Option.elim_some, Option.getD_some]
          congr 2
          omega
      rw [regrouped] at ascending ⊢
      rw [if_pos rfl, ← ih rest ascending, ← grown]
      cases (lagged 0 numbers).getLast? with
      | none => rfl
      | some previous => rfl

theorem adeDiffAids_range (octetOffset : Nat) (octet : Octet) :
    adeDiffAids (octetOffset * 8) octet (List.range 8) [] =
      lagged 0 (aidsInBlock octetOffset octet) :=
  @adeDiffAids_eq octetOffset octet (List.range 8) (fun _ found => List.mem_range.mp found) []
    (pairwise_aidsInBlock octetOffset octet)

theorem aidsInBlock_ne_nil (octetOffset : Nat) (nonzero : octet ≠ 0) :
    aidsInBlock octetOffset octet ≠ [] := by
  obtain ⟨bit, inside, set⟩ := exists_getLsbD_of_ne_zero nonzero
  exact List.ne_nil_of_mem (List.mem_map.mpr
    ⟨bit, List.mem_filter.mpr ⟨List.mem_range.mpr inside, set⟩, rfl⟩)

theorem timToS1gParseAdeMode_eq (capacity : Nat) (written : List Octet) (nonzero : octet ≠ 0)
    (rest : List Octet) (small : octetOffset < 256) :
    timToS1gParseAdeMode capacity ⟨written.take capacity, octet :: rest, octetOffset⟩ =
      consume11nTimOctets
        ⟨(written ++ adeBlock octetOffset octet).take capacity, octet :: rest, octetOffset⟩ 1 := by
  have some : lagged 0 (aidsInBlock octetOffset octet) ≠ [] := by
    rw [← List.length_pos_iff, length_lagged, List.length_pos_iff]
    exact aidsInBlock_ne_nil octetOffset nonzero
  simp only [timToS1gParseAdeMode, List.headD_cons, adeDiffAids_range, if_neg some,
    aidToBlockOffset_eq small, s1gTimAppendOctet_take, s1gTimAppendOctets_take,
    List.append_assoc, List.singleton_append]
  rfl

/-! ## The words of a block -/

theorem adeWord_eight (bytes : List Octet) (word : Nat) :
    adeWord bytes 8 word = (bytes.getD word 0).toNat := by
  have octet : ∀ octet : Octet, (List.range 8).foldl
      (fun diffAid j => diffAid ||| ((octet.getLsbD j).toNat <<< j)) 0 = octet.toNat := by
    decide
  rw [← octet (bytes.getD word 0)]
  apply List.foldl_ext
  intro diffAid j inside
  have bit := List.mem_range.mp inside
  have byte : (word * 8 + j) / 8 = word := by omega
  have position : (word * 8 + j) % 8 = j := by omega
  rw [adeBit, byte, position]

theorem adeAids_range' (bytes : List Octet) (base : Nat) (later : 0 < start) (count aid : Nat) :
    adeAids bytes base 8 (List.range' start count) aid =
      sums aid ((List.range' start count).map fun word => (bytes.getD word 0).toNat) := by
  induction count generalizing start aid with
  | zero => rfl
  | succ count ih =>
    rw [List.range'_succ, adeAids, List.map_cons, sums, if_neg (by omega), adeWord_eight,
      Nat.add_comm _ aid, ih (by omega)]

theorem adeAids_eight (bytes : List Octet) (base : Nat) :
    adeAids bytes base 8 (List.range bytes.length) 0 = sums base (bytes.map BitVec.toNat) := by
  have words : bytes.map BitVec.toNat =
      (List.range bytes.length).map fun word => (bytes.getD word 0).toNat := by
    apply List.ext_getElem
    · simp
    · intro word inside _
      rw [List.length_map] at inside
      simp [inside]
  rw [words]
  cases bytes.length with
  | zero => rfl
  | succ count =>
    rw [List.range_eq_range', List.range'_succ, adeAids, List.map_cons, sums, if_pos rfl,
      adeWord_eight, Nat.add_comm _ base, adeAids_range' _ _ (by omega)]

/-! ## Blocks and their octets -/

theorem entryListing_eq (octetOffset : Nat) (octet : Octet) :
    entryListing octetOffset octet =
      (aidsInBlock octetOffset octet).map (octetOffset / 8 * 64 + ·) := by
  rw [aidsInBlock, List.map_map]
  apply List.map_congr_left
  intro bit _
  rw [Function.comp_apply]
  omega

theorem lengthOctet_fields :
    ∀ count ≤ 8, (BitVec.ofNat 8 (0x07 ||| (count <<< 3)) &&& 0x07#8).toNat = 7 ∧
      ((BitVec.ofNat 8 (0x07 ||| (count <<< 3)) &&& 0xF8#8) >>> 3).toNat = count := by
  decide

theorem length_aidsInBlock_le (octetOffset : Nat) (octet : Octet) :
    (aidsInBlock octetOffset octet).length ≤ 8 := by
  rw [aidsInBlock, List.length_map]
  exact Nat.le_trans (List.length_filter_le _ _) (by rw [List.length_range])

theorem length_adeBlock (octetOffset : Nat) (octet : Octet) :
    (adeBlock octetOffset octet).length = 2 + (aidsInBlock octetOffset octet).length := by
  simp only [adeBlock, List.length_cons, List.length_map, length_lagged]
  omega

theorem diffAids_toNat (octetOffset : Nat) (octet : Octet) :
    ((lagged 0 (aidsInBlock octetOffset octet)).map (BitVec.ofNat 8)).map BitVec.toNat =
      lagged 0 (aidsInBlock octetOffset octet) := by
  rw [List.map_map]
  have same := List.map_congr_left (g := id) (l := lagged 0 (aidsInBlock octetOffset octet))
    (f := BitVec.toNat ∘ BitVec.ofNat 8) fun entry found => by
      obtain ⟨number, among, low⟩ := exists_le_of_mem_lagged found
      have small := aidsInBlock_lt among
      rw [Function.comp_apply, BitVec.toNat_ofNat, id_eq]
      omega
  rw [same, List.map_id]

theorem mem_adeAids_iff (octetOffset : Nat) (octet : Octet)
    (words : bytes.map BitVec.toNat = lagged 0 (aidsInBlock octetOffset octet)) :
    (∀ aid, aid ∈ adeAids bytes (octetOffset / 8 * 64) (7 + 1)
        (List.range (bytes.length * 8 / (7 + 1))) 0 ↔ aid ∈ entryListing octetOffset octet) ↔
      AdeExact octetOffset octet := by
  have base : octetOffset / 8 * 64 = octetOffset / 8 * 64 + 0 := rfl
  rw [Nat.mul_div_cancel _ (by decide), adeAids_eight, words, base, sums_add, entryListing_eq,
    AdeExact, ← mem_sums_lagged_iff (pairwise_aidsInBlock octetOffset octet)]
  have injective : Function.Injective (octetOffset / 8 * 64 + ·) :=
    fun _ _ same => Nat.add_left_cancel same
  constructor
  · intro same number
    rw [← List.mem_map_of_injective injective, same, List.mem_map_of_injective injective]
  · intro same aid
    simp only [List.mem_map, same]

theorem adeDenotes_take_iff (small : octetOffset < 256) (octet : Octet) (room : Nat) :
    AdeDenotes ((adeBlock octetOffset octet).take room) (entryListing octetOffset octet) ↔
      2 + (aidsInBlock octetOffset octet).length ≤ room ∧ AdeExact octetOffset octet := by
  obtain ⟨mode, plain, offset⟩ := @blockControl_fields .ade (by decide) false
    (octetOffset / 8) (by omega)
  obtain ⟨ewl, length⟩ := lengthOctet_fields _ (length_aidsInBlock_le octetOffset octet)
  have words := diffAids_toNat octetOffset octet
  rw [← length_lagged 0] at ewl length
  constructor
  · rintro ⟨control, first, bytes, block, -, -, count, same⟩
    rcases room with _ | _ | room
    · cases block
    · cases block
    · obtain ⟨rfl, rfl, rfl⟩ := block
      rw [length, List.length_take, length_lagged] at count
      have whole : (aidsInBlock octetOffset octet).length ≤ room := by omega
      rw [ewl, offset, List.take_of_length_le (by simpa using whole)] at same
      exact ⟨by omega, (mem_adeAids_iff octetOffset octet words).mp same⟩
  · rintro ⟨whole, exactly⟩
    rw [List.take_of_length_le (by rwa [length_adeBlock])]
    refine ⟨_, _, _, rfl, mode, plain, ?_, ?_⟩
    · rw [length, List.length_map]
    · rw [ewl, offset]
      exact (mem_adeAids_iff octetOffset octet words).mpr exactly

/-! ## The loop -/

/-- The states that the encoder comes to the head of its loop with. -/
inductive AdeLoop (tim : TimIe) (length : Nat) : TimToS1gParseState → Prop
  | start : AdeLoop tim length (initialParseState tim length)
  | next {state : TimToS1gParseState} :
      AdeLoop tim length state → state.virtualMap11n ≠ [] →
        state.encodedBlockInfo.length < s1gTimMaxBlockSize →
        AdeLoop tim length (timToS1gParseAdeMode s1gTimMaxBlockSize state)

/-- What an ADE round appends. -/
def adeAppended (state : TimToS1gParseState) : List Octet :=
  (timToS1gParseAdeMode s1gTimMaxBlockSize state).encodedBlockInfo.drop
    state.encodedBlockInfo.length

/-- The octets to consume do not start with a hole, and are numbered by an octet. -/
structure Trimmed (state : TimToS1gParseState) : Prop where
  head : ∀ octet rest, state.virtualMap11n = octet :: rest → octet ≠ 0
  offset : state.octetOffset11n < 256

theorem trimmed_trimHoles (octets : List Octet) (small : octetOffset < 256) :
    (∀ octet rest, (trimHoles octets octetOffset).1 = octet :: rest → octet ≠ 0) ∧
      (trimHoles octets octetOffset).2 < 256 := by
  induction octets generalizing octetOffset with
  | nil => exact ⟨fun _ _ none => (by cases none), small⟩
  | cons octet octets ih =>
    rw [trimHoles]
    split
    · exact ih (Nat.mod_lt _ (by decide))
    · next nonzero =>
        refine ⟨fun first rest same => ?_, small⟩
        rw [← (List.cons.inj same).1]
        exact nonzero

theorem trimmed_consume (state : TimToS1gParseState) (numOctets : Nat) :
    Trimmed (consume11nTimOctets state numOctets) := by
  obtain ⟨head, offset⟩ := trimmed_trimHoles (state.virtualMap11n.drop numOctets)
    (Nat.mod_lt (state.octetOffset11n + numOctets) (show 0 < 256 by decide))
  exact ⟨head, offset⟩

theorem trimmed_adeMode (capacity : Nat) (state : TimToS1gParseState) :
    Trimmed (timToS1gParseAdeMode capacity state) := by
  obtain ⟨head, offset⟩ := trimmed_consume state 1
  simp only [timToS1gParseAdeMode]
  split
  · exact ⟨head, offset⟩
  · exact ⟨head, offset⟩

theorem AdeLoop.trimmed (loop : AdeLoop tim length state) :
    Trimmed state := by
  cases loop with
  | start => exact trimmed_consume _ 0
  | next => exact trimmed_adeMode _ _

theorem adeAppended_denotes_iff (trimmed : Trimmed state)
    (consumes : state.virtualMap11n = octet :: rest)
    (room : state.encodedBlockInfo.length < s1gTimMaxBlockSize) :
    AdeDenotes (adeAppended state) (entryListing state.octetOffset11n octet) ↔
      state.encodedBlockInfo.length + 2 + (aidsInBlock state.octetOffset11n octet).length ≤
          s1gTimMaxBlockSize ∧
        AdeExact state.octetOffset11n octet := by
  obtain ⟨written, octets, octetOffset⟩ := state
  obtain rfl : octets = octet :: rest := consumes
  have nonzero := trimmed.head octet rest rfl
  have small := trimmed.offset
  dsimp only at room small ⊢
  have within : written.take s1gTimMaxBlockSize = written :=
    List.take_of_length_le (Nat.le_of_lt room)
  have appended := timToS1gParseAdeMode_eq s1gTimMaxBlockSize written nonzero rest small
  rw [within] at appended
  have dropped : ((written ++ adeBlock octetOffset octet).take s1gTimMaxBlockSize).drop
      written.length = (adeBlock octetOffset octet).take (s1gTimMaxBlockSize - written.length) := by
    rw [List.drop_take, List.drop_left]
  rw [adeAppended, appended]
  change AdeDenotes (((written ++ adeBlock octetOffset octet).take s1gTimMaxBlockSize).drop
    written.length) _ ↔ _
  rw [dropped, adeDenotes_take_iff small]
  exact and_congr_left' (by omega)

end Tim
end Morse
