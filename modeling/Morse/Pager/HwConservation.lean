import Mathlib.Algebra.Group.Nat.Defs
import Morse.Lib.Partition
import Morse.Pager.HwDefs

/-!
# The pages of the hardware pager

Every page is with the caller, in the cache or in the hardware, as long as the pages have a
length and lie in the packet memory, the caller puts only pages that it holds and that the two
words of the cache have bits for, and no write fails that gives the cache to the hardware.  What
is written then is what was put, unless pages are still cached that came from the hardware.
-/

namespace Morse
namespace Pager

open Lib

variable {pktMemory : PktMemory} {words : Words} {addr : BitVec 32}

/-! ## Bits and addresses -/

theorem getLsbD_bit (below : index < 32) :
    (bit place).getLsbD index = decide (index = place) := by
  rw [bit]
  by_cases same : index = place
  · subst same
    simp [below]
  · simp [same, Ne.symm same]

theorem getLsbD_clear (below : index < 32) :
    (word &&& ~~~ bit place).getLsbD index = (word.getLsbD index && decide (index ≠ place)) := by
  rw [BitVec.getLsbD_and, BitVec.getLsbD_not, getLsbD_bit below]
  simp [below]

theorem getLsbD_set (below : index < 32) :
    (word ||| bit place).getLsbD index = (word.getLsbD index || decide (index = place)) := by
  rw [BitVec.getLsbD_or, getLsbD_bit below]

theorem eq_zero_of_bits {word : BitVec 32} (none : ∀ index, index < 32 → word.getLsbD
  index = false) :
    word = 0 := by
  apply BitVec.eq_of_getLsbD_eq
  intro index below
  rw [none index below]
  simp

theorem blockOf_lt (word : BitVec 32) : blockOf word < numBlocks := by
  rw [blockOf, bitmapLen, numBlocks, BitVec.toNat_ushiftRight]
  omega

theorem word_parts (few : block < numBlocks) (clear : bitmap.getLsbD bitmapLen = false) :
    blockOf (BitVec.ofNat 32 block <<< bitmapLen ||| bitmap) = block ∧
      bitmapOf (BitVec.ofNat 32 block <<< bitmapLen ||| bitmap) = bitmap := by
  have shifted : ∀ index, index < 32 →
      (BitVec.ofNat 32 block <<< bitmapLen).getLsbD index =
        (decide (index = 31) && decide (block = 1)) := by
    rw [numBlocks] at few
    intro index below
    rcases (by omega : block = 0 ∨ block = 1) with rfl | rfl
    · simp
    · rw [bitmapLen, BitVec.getLsbD_shiftLeft]
      rcases (by omega : index = 31 ∨ index < 31) with rfl | lower
      · decide
      · simp [lower, Nat.ne_of_lt lower]
  have small : bitmap.toNat < 2 ^ 31 := by
    rw [bitmapLen, BitVec.getLsbD, Nat.testBit_eq_decide_div_mod_eq] at clear
    simp only [decide_eq_false_iff_not] at clear
    omega
  constructor
  · have zero : bitmap >>> bitmapLen = 0#32 := by
      apply BitVec.eq_of_toNat_eq
      rw [BitVec.toNat_ushiftRight, Nat.shiftRight_eq_div_pow]
      exact Nat.div_eq_of_lt small
    rw [blockOf, BitVec.ushiftRight_or_distrib, zero]
    rw [numBlocks] at few
    rcases (by omega : block = 0 ∨ block = 1) with rfl | rfl
    · decide
    · decide
  · apply BitVec.eq_of_getLsbD_eq
    intro index below
    rw [bitmapOf, getLsbD_clear below, BitVec.getLsbD_or, shifted index below]
    rcases (by omega : index = 31 ∨ index < 31) with rfl | lower
    · rw [bitmapLen] at clear
      rw [clear]
      simp [bitmapLen]
    · simp [Nat.ne_of_lt lower, bitmapLen]

theorem bitmapOf_clear (word : BitVec 32) : (bitmapOf word).getLsbD bitmapLen = false := by
  rw [bitmapOf, getLsbD_clear (by decide)]
  simp

theorem address_injective (long : 0 < pktMemory.pageLen.toNat) (few : index < 256)
    (less : other < 256) (same : pktMemory.address index = pktMemory.address other) :
    index = other := by
  have near : pktMemory.pageLen.toNat * index ≤ 65535 * 255 :=
    Nat.mul_le_mul (by omega) (by omega)
  have far : pktMemory.pageLen.toNat * other ≤ 65535 * 255 :=
    Nat.mul_le_mul (by omega) (by omega)
  have numbers := congrArg BitVec.toNat same
  simp only [PktMemory.address, BitVec.toNat_add, BitVec.toNat_ofNat] at numbers
  exact Nat.eq_of_mul_eq_mul_left long (by omega)

variable {index : Nat}

theorem index_of_address (long : 0 < pktMemory.pageLen.toNat) (few : index < 256)
    (finds : pktMemory.getIndexFromPage (pktMemory.address index) = some found) :
    found.toNat = index := by
  have near : pktMemory.pageLen.toNat * index ≤ 65535 * 255 :=
    Nat.mul_le_mul (by omega) (by omega)
  have distance : (pktMemory.address index -
      BitVec.ofNat 32 pktMemory.pageLenReserved.toNat - pktMemory.baseAddr).toNat =
        pktMemory.pageLen.toNat * index := by
    simp only [PktMemory.address, BitVec.toNat_sub, BitVec.toNat_add, BitVec.toNat_ofNat]
    omega
  rw [PktMemory.getIndexFromPage] at finds
  split at finds
  · cases finds
  · cases finds
    rw [distance, Nat.mul_div_cancel_left _ long, BitVec.toNat_ofNat]
    omega

theorem pagesOf_iff :
    pagesOf pktMemory block bitmap addr = true ↔
      ∃ index, index < bitmapLen ∧ bitmap.getLsbD index = true ∧
        pktMemory.address (block * bitmapLen + index) = addr := by
  simp only [pagesOf, List.any_eq_true, List.mem_range, Bool.and_eq_true, beq_iff_eq]

theorem cachedPages_iff :
    cachedPages pktMemory words addr = true ↔
      ∃ block index, block < numBlocks ∧ index < bitmapLen ∧
        (words block).getLsbD index = true ∧
        pktMemory.address (block * bitmapLen + index) = addr := by
  simp only [cachedPages, List.any_eq_true, List.mem_range, pagesOf_iff]
  constructor
  · rintro ⟨block, few, index, less, set, same⟩
    exact ⟨block, index, few, less, set, same⟩
  · rintro ⟨block, index, few, less, set, same⟩
    exact ⟨block, few, index, less, set, same⟩

/-! ## The words of the cache -/

/-- The words of the cache are bitmaps of pages of the packet memory. -/
structure Fits (pktMemory : PktMemory) (words : Words) : Prop where
  clear : ∀ block, block < numBlocks → (words block).getLsbD bitmapLen = false
  small : ∀ block index, block < numBlocks → index < bitmapLen →
    (words block).getLsbD index = true → block * bitmapLen + index < pktMemory.num.toNat

theorem getPageFromCache_spec (fits : Fits pktMemory words) :
    ((∀ block, block < numBlocks → words block = 0) ∧
      getPageFromCache pktMemory words = (none, words)) ∨
    ∃ block index, block < numBlocks ∧ index < bitmapLen ∧
      (words block).getLsbD index = true ∧
      getPageFromCache pktMemory words =
        (some (pktMemory.address (block * bitmapLen + index)),
          Function.update words block (words block &&& ~~~ bit index)) := by
  rw [getPageFromCache]
  cases first : firstBlock words with
  | none =>
    refine Or.inl ⟨fun block few => ?_, rfl⟩
    have empty := List.find?_eq_none.mp first block (List.mem_range.mpr few)
    simpa using empty
  | some block =>
    have few := List.mem_range.mp (List.mem_of_find?_eq_some first)
    have full := List.find?_some first
    simp only [bne_iff_ne] at full
    cases lowest : ffs (words block) with
    | none =>
      refine absurd (eq_zero_of_bits fun index below => ?_) full
      have unset := List.find?_eq_none.mp lowest index (List.mem_range.mpr below)
      simpa using unset
    | some index =>
      have below := List.mem_range.mp (List.mem_of_find?_eq_some lowest)
      have set := List.find?_some lowest
      have less : index < bitmapLen := by
        rcases (by rw [bitmapLen]; omega : index = bitmapLen ∨ index < bitmapLen) with
          rfl | less
        · rw [fits.clear block few] at set
          cases set
        · exact less
      refine Or.inr ⟨block, index, few, less, set, ?_⟩
      have known := fits.small block index few less set
      have found : pktMemory.getPageFromIndex (block * bitmapLen + index) =
          some (pktMemory.address (block * bitmapLen + index)) := if_neg (by omega)
      simp only [lowest, found]

theorem cachedPages_clear (fits : Fits pktMemory words) (long : 0 < pktMemory.pageLen.toNat)
    (few : block < numBlocks) (less : index < bitmapLen)
    (set : (words block).getLsbD index = true) :
    cachedPages pktMemory (Function.update words block (words block &&& ~~~ bit index)) addr =
      (cachedPages pktMemory words addr &&
        decide (addr ≠ pktMemory.address (block * bitmapLen + index))) := by
  have known := fits.small block index few less set
  rw [Bool.eq_iff_iff, Bool.and_eq_true, cachedPages_iff, cachedPages_iff, decide_eq_true_eq]
  rw [bitmapLen] at *
  constructor
  · rintro ⟨other, place, among, within, there, same⟩
    by_cases which : other = block
    · subst which
      rw [Function.update_self, getLsbD_clear (by omega), Bool.and_eq_true,
        decide_eq_true_eq] at there
      refine ⟨⟨other, place, among, within, there.1, same⟩, fun equal => there.2 ?_⟩
      have near := fits.small other place among within there.1
      rw [bitmapLen] at near
      have one := address_injective long (by omega) (by omega) (same.trans equal)
      omega
    · rw [Function.update_of_ne which] at there
      refine ⟨⟨other, place, among, within, there, same⟩, fun equal => which ?_⟩
      have near := fits.small other place among within there
      rw [bitmapLen] at near
      have one := address_injective long (by omega) (by omega) (same.trans equal)
      omega
  · rintro ⟨⟨other, place, among, within, there, same⟩, different⟩
    refine ⟨other, place, among, within, ?_, same⟩
    by_cases which : other = block
    · subst which
      rw [Function.update_self, getLsbD_clear (by omega), there, Bool.true_and,
        decide_eq_true_eq]
      rintro rfl
      exact different same.symm
    · rw [Function.update_of_ne which]
      exact there

theorem Fits.cleared (fits : Fits pktMemory words) (block index : Nat) :
    Fits pktMemory (Function.update words block (words block &&& ~~~ bit index)) where
  clear other few := by
    by_cases which : other = block
    · subst which
      rw [Function.update_self, getLsbD_clear (by decide), fits.clear other few, Bool.false_and]
    · rw [Function.update_of_ne which]
      exact fits.clear other few
  small other place few less set := by
    by_cases which : other = block
    · subst which
      rw [Function.update_self, getLsbD_clear (by rw [bitmapLen] at less; omega),
        Bool.and_eq_true] at set
      exact fits.small other place few less set.1
    · rw [Function.update_of_ne which] at set
      exact fits.small other place few less set

theorem cachedPages_set (few : index < numBlocks * bitmapLen) :
    cachedPages pktMemory
        (Function.update words (index / bitmapLen)
          (words (index / bitmapLen) ||| bit (index - index / bitmapLen * bitmapLen))) addr =
      (cachedPages pktMemory words addr || decide (addr = pktMemory.address index)) := by
  rw [Bool.eq_iff_iff, Bool.or_eq_true, cachedPages_iff, cachedPages_iff, decide_eq_true_eq]
  rw [bitmapLen] at *
  constructor
  · rintro ⟨block, place, among, within, there, same⟩
    by_cases which : block = index / 31
    · subst which
      rw [Function.update_self, getLsbD_set (by omega), Bool.or_eq_true,
        decide_eq_true_eq] at there
      rcases there with before | now
      · exact Or.inl ⟨_, place, among, within, before, same⟩
      · refine Or.inr ?_
        rw [← same]
        congr 1
        omega
    · rw [Function.update_of_ne which] at there
      exact Or.inl ⟨block, place, among, within, there, same⟩
  · rintro (⟨block, place, among, within, there, same⟩ | rfl)
    · refine ⟨block, place, among, within, ?_, same⟩
      by_cases which : block = index / 31
      · subst which
        rw [Function.update_self, getLsbD_set (by omega), there, Bool.true_or]
      · rw [Function.update_of_ne which]
        exact there
    · refine ⟨index / 31, index - index / 31 * 31, by omega, by omega, ?_, ?_⟩
      · rw [Function.update_self, getLsbD_set (by omega), decide_eq_true rfl, Bool.or_true]
      · congr 1
        omega

theorem Fits.set (fits : Fits pktMemory words) (known : index < pktMemory.num.toNat) :
    Fits pktMemory (Function.update words (index / bitmapLen)
      (words (index / bitmapLen) ||| bit (index - index / bitmapLen * bitmapLen))) where
  clear block few := by
    by_cases which : block = index / bitmapLen
    · subst which
      rw [Function.update_self, getLsbD_set (by decide), fits.clear _ few, Bool.false_or,
        decide_eq_false_iff_not]
      rw [bitmapLen]
      omega
    · rw [Function.update_of_ne which]
      exact fits.clear block few
  small block place few less set := by
    by_cases which : block = index / bitmapLen
    · subst which
      rw [Function.update_self, getLsbD_set (by rw [bitmapLen] at less; omega), Bool.or_eq_true,
        decide_eq_true_eq] at set
      rcases set with before | now
      · exact fits.small _ place few less before
      · rw [now, bitmapLen]
        omega
    · rw [Function.update_of_ne which] at set
      exact fits.small block place few less set

variable {word : BitVec 32}

theorem cachedPages_cachePages (empty : ∀ block, block < numBlocks → words block = 0) :
    cachedPages pktMemory (cachePages words word) addr =
      pagesOf pktMemory (blockOf word) (bitmapOf word) addr := by
  have few := blockOf_lt word
  rw [Bool.eq_iff_iff, cachedPages_iff, pagesOf_iff, cachePages]
  constructor
  · rintro ⟨block, index, among, less, set, same⟩
    by_cases which : block = blockOf word
    · subst which
      rw [Function.update_self] at set
      exact ⟨index, less, set, same⟩
    · rw [Function.update_of_ne which, empty block among] at set
      simp at set
  · rintro ⟨index, less, set, same⟩
    refine ⟨blockOf word, index, few, less, ?_, same⟩
    rw [Function.update_self]
    exact set

theorem cachedPages_empty (empty : ∀ block, block < numBlocks → words block = 0) :
    cachedPages pktMemory words addr = false := by
  rw [← Bool.not_eq_true, cachedPages_iff]
  rintro ⟨block, index, few, -, set, -⟩
  rw [empty block few] at set
  simp at set

theorem Fits.of_empty (empty : ∀ block, block < numBlocks → words block = 0) :
    Fits pktMemory words where
  clear block few := by
    rw [empty block few]
    simp
  small block index few less set := by
    rw [empty block few] at set
    simp at set

/-! ## Notifying -/

theorem notifyBlocks_spec (words : Words) (status : Nat → Bool) (count : Nat) :
    ((List.range count).foldl (notifyBlock status) (words, [])).1 =
        (fun block => if block < count then 0 else words block) ∧
      ∀ word ok, (word, ok) ∈ ((List.range count).foldl (notifyBlock status) (words, [])).2 ↔
        ∃ block, block < count ∧ words block ≠ 0 ∧
          word = BitVec.ofNat 32 block <<< bitmapLen ||| words block ∧ ok = status block := by
  induction count with
  | zero =>
    refine ⟨rfl, fun word ok => ⟨fun member => absurd member List.not_mem_nil, ?_⟩⟩
    rintro ⟨block, few, -⟩
    exact absurd few (Nat.not_lt_zero block)
  | succ count ih =>
    obtain ⟨after, wrote⟩ := ih
    have here : ((List.range count).foldl (notifyBlock status) (words, [])).1 count =
        words count := by
      rw [after]
      exact if_neg (Nat.lt_irrefl count)
    rw [List.range_succ, List.foldl_append, List.foldl_cons, List.foldl_nil, notifyBlock, here]
    by_cases empty : words count = 0
    · rw [if_pos empty]
      refine ⟨?_, fun word ok => (wrote word ok).trans ?_⟩
      · rw [after]
        funext block
        by_cases which : block = count
        · subst which
          rw [if_neg (Nat.lt_irrefl block), if_pos (Nat.lt_succ_self block), empty]
        · by_cases before : block < count
          · rw [if_pos before, if_pos (by omega)]
          · rw [if_neg before, if_neg (by omega)]
      · constructor
        · rintro ⟨block, few, full, rest⟩
          exact ⟨block, by omega, full, rest⟩
        · rintro ⟨block, few, full, rest⟩
          refine ⟨block, ?_, full, rest⟩
          rcases Nat.lt_succ_iff_lt_or_eq.mp few with before | rfl
          · exact before
          · exact absurd empty full
    · rw [if_neg empty]
      refine ⟨?_, fun word ok => ?_⟩
      · simp only [after]
        funext block
        by_cases which : block = count
        · subst which
          rw [Function.update_self, if_pos (Nat.lt_succ_self block)]
        · rw [Function.update_of_ne which]
          by_cases before : block < count
          · rw [if_pos before, if_pos (by omega)]
          · rw [if_neg before, if_neg (by omega)]
      · rw [List.mem_append, wrote, List.mem_singleton, Prod.mk.injEq]
        constructor
        · rintro (⟨block, few, full, rest⟩ | ⟨rfl, rfl⟩)
          · exact ⟨block, by omega, full, rest⟩
          · exact ⟨count, Nat.lt_succ_self count, empty, rfl, rfl⟩
        · rintro ⟨block, few, full, same, known⟩
          rcases Nat.lt_succ_iff_lt_or_eq.mp few with before | rfl
          · exact Or.inl ⟨block, before, full, same, known⟩
          · exact Or.inr ⟨same, known⟩

theorem told_notify (caches : pktMemory.num ≠ 0) (fits : Fits pktMemory words)
    (status : Nat → Bool) :
    (∃ word ok, (word, ok) ∈ (notify pktMemory words status).2 ∧
        decoded pktMemory word addr = true) ↔
      cachedPages pktMemory words addr = true := by
  rw [notify]
  simp only [(notifyBlocks_spec words status numBlocks).2, decoded, if_neg caches,
    cachedPages_iff]
  constructor
  · rintro ⟨word, ok, ⟨block, few, -, rfl, -⟩, told⟩
    obtain ⟨which, bitmap⟩ := word_parts few (fits.clear block few)
    rw [which, bitmap, pagesOf_iff] at told
    obtain ⟨index, less, set, same⟩ := told
    exact ⟨block, index, few, less, set, same⟩
  · rintro ⟨block, index, few, less, set, same⟩
    obtain ⟨which, bitmap⟩ := word_parts few (fits.clear block few)
    refine ⟨_, _, ⟨block, few, fun empty => ?_, rfl, rfl⟩, ?_⟩
    · rw [empty] at set
      simp at set
    · rw [which, bitmap, pagesOf_iff]
      exact ⟨index, less, set, same⟩

/-! ## What each step keeps -/

/-- What is got from the cache is handed to the caller. -/
structure Got (pktMemory : PktMemory) (words : Words) (page : Option (BitVec 32)) (after : Words) :
    Prop where
  fits : Fits pktMemory after
  cached : ∀ addr, cachedPages pktMemory after addr =
    (cachedPages pktMemory words addr && !only page addr)
  present : ∀ addr, page = some addr → cachedPages pktMemory words addr = true
  behind : ∀ block, numBlocks ≤ block → after block = words block
  empty : page = none → ∀ addr, cachedPages pktMemory words addr = false

theorem got_getPageFromCache (fits : Fits pktMemory words) (long : 0 < pktMemory.pageLen.toNat) :
    Got pktMemory words (getPageFromCache pktMemory words).1
      (getPageFromCache pktMemory words).2 := by
  rcases getPageFromCache_spec fits with ⟨empty, got⟩ | ⟨block, index, few, less, set, got⟩
  · rw [got]
    refine ⟨fits, fun addr => ?_, by rintro _ ⟨⟩, fun _ _ => rfl,
      fun _ addr => cachedPages_empty empty⟩
    rw [cachedPages_empty empty, Bool.false_and]
  · rw [got]
    refine ⟨fits.cleared block index, fun addr => ?_, fun addr same => ?_, fun other many => ?_,
      by rintro ⟨⟩⟩
    · rw [cachedPages_clear fits long few less set, decide_not]
      congr 2
      exact Bool.eq_iff_iff.mpr ⟨fun same => beq_iff_eq.mpr
        (congrArg some (of_decide_eq_true same).symm),
        fun same => decide_eq_true (Option.some.inj (beq_iff_eq.mp same)).symm⟩
    · cases same
      exact cachedPages_iff.mpr ⟨block, index, few, less, set, rfl⟩
    · exact Function.update_of_ne (by omega) _ _

theorem Got.partitioned (got : Got pktMemory words page after)
    (placed : Partitioned all (pagesAt held (cachedPages pktMemory words) inside)) :
    Partitioned all (pagesAt (together held (only page)) (cachedPages pktMemory after) inside) := by
  have one : ∀ addr, only page addr = true → page = some addr := fun addr here => by
    simpa [only] using here
  refine @Partitioned.move _ _ _ _ _ placed (only page) .cached .held
    (fun addr here => got.present addr (one addr here)) (fun addr here => ?_)
    (fun addr place here different => ?_) (fun addr place there => ?_)
  · change together held (only page) addr = true
    rw [together, here, Bool.or_true]
  · cases place with
    | held => exact absurd rfl different
    | cached =>
      change cachedPages pktMemory after addr = false
      rw [got.cached, here, Bool.not_true, Bool.and_false]
    | inside =>
      exact @Partitioned.not_held _ _ _ _ placed .cached .inside addr
        (got.present addr (one addr here)) (by decide)
  · cases place with
    | held =>
      change together held (only page) addr = held addr
      rw [together, there, Bool.or_false]
    | cached =>
      change cachedPages pktMemory after addr = cachedPages pktMemory words addr
      rw [got.cached, there, Bool.not_false, Bool.and_true]
    | inside => rfl

/-- The pages of the packet memory. -/
def memoryPages (pktMemory : PktMemory) (addr : BitVec 32) : Bool :=
  (List.range pktMemory.num.toNat).any fun index => pktMemory.address index == addr

/-- The pages have some octets that are not reserved, and the packet memory has addresses of 32
bits. -/
structure Sound (pktMemory : PktMemory) : Prop where
  long : pktMemory.pageLenReserved.toNat < pktMemory.pageLen.toNat
  room : pktMemory.baseAddr.toNat + pktMemory.pageLen.toNat * pktMemory.num.toNat ≤ 2 ^ 32

/-- Which actions are admitted.  The hardware gives only pages that it has; the caller puts only
pages that it holds, with a number below 62, or what is refused; and a notification comes when no
page is cached that came from the hardware, and all its writes succeed. -/
def Admits (pktMemory : PktMemory) (state : State) : Action → Prop
  | .pop answer => ∀ addr, told pktMemory (pop pktMemory state.words answer).taken addr = true →
      state.inside addr = true
  | .put addr _ =>
    if pktMemory.num = 0 then state.held addr = true
    else ∀ index, pktMemory.getIndexFromPage addr = some index →
      state.held addr = true ∧ index.toNat < numBlocks * bitmapLen
  | .notify status => pktMemory.num = 0 ∨
      ((∀ block, block < numBlocks → state.words block ≠ 0 → status block = true) ∧
        ∀ addr, state.refilled addr = false)

/-- What holds in every state. -/
structure Kept (pktMemory : PktMemory) (all : BitVec 32 → Bool) (state : State) : Prop where
  fits : Fits pktMemory state.words
  placed : Partitioned all (state.pages pktMemory)
  sources : ∀ addr, cachedPages pktMemory state.words addr =
    (state.fresh addr || state.refilled addr)

theorem memoryPages_iff :
    memoryPages pktMemory addr = true ↔
      ∃ index, index < pktMemory.num.toNat ∧ pktMemory.address index = addr := by
  simp only [memoryPages, List.any_eq_true, List.mem_range, beq_iff_eq]

theorem fits_cachePages (long : 0 < pktMemory.pageLen.toNat)
    (empty : ∀ block, block < numBlocks → words block = 0)
    (known : ∀ addr, pagesOf pktMemory (blockOf word) (bitmapOf word) addr = true →
      memoryPages pktMemory addr = true) :
    Fits pktMemory (cachePages words word) where
  clear block few := by
    rw [cachePages]
    by_cases which : block = blockOf word
    · subst which
      rw [Function.update_self, bitmapOf_clear]
    · rw [Function.update_of_ne which, empty block few]
      simp
  small block index few less set := by
    rw [cachePages] at set
    by_cases which : block = blockOf word
    · subst which
      rw [Function.update_self] at set
      obtain ⟨page, within, same⟩ := memoryPages_iff.mp
        (known _ (pagesOf_iff.mpr ⟨index, less, set, rfl⟩))
      rw [numBlocks, bitmapLen] at *
      rw [← address_injective long (by omega) (by omega) same]
      exact within
    · rw [Function.update_of_ne which, empty block few] at set
      simp at set

@[simp] theorem only_none : only none = fun _ => false := rfl

@[simp] theorem told_none : told pktMemory none = fun _ => false := rfl

@[simp] theorem together_false (pages : BitVec 32 → Bool) :
    together pages (fun _ => false) = pages := funext fun addr => Bool.or_false (pages addr)

@[simp] theorem without_false (pages : BitVec 32 → Bool) :
    without pages (fun _ => false) = pages := funext fun addr => Bool.and_true (pages addr)

theorem partitioned_cachePages (caches : pktMemory.num ≠ 0)
    (empty : ∀ block, block < numBlocks → words block = 0)
    (given : ∀ addr, told pktMemory (some word) addr = true → inside addr = true)
    (placed : Partitioned all (pagesAt held (cachedPages pktMemory words) inside)) :
    Partitioned all (pagesAt held (cachedPages pktMemory (cachePages words word))
      (without inside (told pktMemory (some word)))) := by
  have filled : ∀ addr, cachedPages pktMemory (cachePages words word) addr =
      told pktMemory (some word) addr := fun addr => by
    rw [cachedPages_cachePages empty, told, Option.elim_some, decoded, if_neg caches]
  refine @Partitioned.move _ _ _ _ _ placed (told pktMemory (some word)) .inside .cached
    (fun addr here => given addr here) (fun addr here => (filled addr).trans here)
    (fun addr place here different => ?_) (fun addr place there => ?_)
  · cases place with
    | held =>
      exact @Partitioned.not_held _ _ _ _ placed .inside .held addr (given addr here)
        (by decide)
    | cached => exact absurd rfl different
    | inside =>
      change without inside (told pktMemory (some word)) addr = false
      rw [without, here, Bool.not_true, Bool.and_false]
  · cases place with
    | held => rfl
    | cached =>
      change cachedPages pktMemory (cachePages words word) addr = cachedPages pktMemory words addr
      rw [filled, there, cachedPages_empty empty]
    | inside =>
      change without inside (told pktMemory (some word)) addr = inside addr
      rw [without, there, Bool.not_false, Bool.and_true]

section Steps

variable {all : BitVec 32 → Bool} {state next : State}

variable {answer : Option (BitVec 32)}

theorem Kept.pop_cached (kept : Kept pktMemory all state) (caches : pktMemory.num ≠ 0)
    (long : 0 < pktMemory.pageLen.toNat) (memory : ∀ addr, all addr = memoryPages pktMemory addr)
    (admits : Admits pktMemory state (.pop answer))
    (taken : step pktMemory state (.pop answer) = some next) :
    Kept pktMemory all next ∧
      (∀ block, numBlocks ≤ block → next.words block = state.words block) ∧
      (∀ addr, cachedPages pktMemory state.words addr = true →
        cachedPages pktMemory next.words addr = true ∨
          (pop pktMemory state.words answer).page = some addr) ∧
      ∀ addr, (pop pktMemory state.words answer).page = some addr →
        state.held addr = false ∧ all addr = true := by
  cases taken
  have got := got_getPageFromCache kept.fits long
  rw [Admits] at admits
  rcases getPageFromCache_spec kept.fits with ⟨empty, result⟩ | ⟨block, index, -, -, -, result⟩
  · cases raw : rawPop answer with
    | none =>
      have popped : pop pktMemory state.words answer = ⟨none, state.words, none⟩ := by
        rw [pop, if_neg caches, result, raw]
      simp only [popped, if_neg caches, only_none, told_none, together_false, without_false]
      exact ⟨kept, fun _ _ => trivial, fun _ here => Or.inl here, by rintro _ ⟨⟩⟩
    | some word =>
      have popped : pop pktMemory state.words answer =
          ⟨(getPageFromCache pktMemory (cachePages state.words word)).1,
            (getPageFromCache pktMemory (cachePages state.words word)).2, some word⟩ := by
        rw [pop, if_neg caches, result, raw]
      rw [popped] at admits
      have placed := partitioned_cachePages caches empty admits kept.placed
      have filled : ∀ addr, cachedPages pktMemory (cachePages state.words word) addr =
          told pktMemory (some word) addr := fun addr => by
        rw [cachedPages_cachePages empty, told, Option.elim_some, decoded, if_neg caches]
      have fits : Fits pktMemory (cachePages state.words word) := by
        refine fits_cachePages long empty fun addr here => ?_
        rw [← cachedPages_cachePages empty, filled] at here
        rw [← memory]
        exact @Partitioned.of_held _ _ _ _ kept.placed .inside addr (admits addr here)
      have refill := got_getPageFromCache fits long
      simp only [popped, if_neg caches]
      refine ⟨⟨refill.fits, refill.partitioned placed, fun addr => ?_⟩, fun block many => ?_,
        fun addr here => ?_, fun addr same => ?_⟩
      · have before := kept.sources addr
        rw [cachedPages_empty empty] at before
        have none := Bool.or_eq_false_iff.mp before.symm
        simp only [refill.cached, filled, without, together, none.1, none.2, Bool.false_or,
          Bool.false_and]
      · rw [refill.behind block many, cachePages, Function.update_of_ne]
        have few := blockOf_lt word
        omega
      · rw [cachedPages_empty empty] at here
        cases here
      · have inside := admits addr ((filled addr).symm.trans (refill.present addr same))
        exact ⟨@Partitioned.not_held _ _ _ _ kept.placed .inside .held addr inside (by decide),
          @Partitioned.of_held _ _ _ _ kept.placed .inside addr inside⟩
  · have popped : pop pktMemory state.words answer =
        ⟨(getPageFromCache pktMemory state.words).1, (getPageFromCache pktMemory state.words).2,
          none⟩ := by
      rw [pop, if_neg caches, result]
    simp only [popped, if_neg caches, told_none, together_false, without_false]
    refine ⟨⟨got.fits, got.partitioned kept.placed, fun addr => ?_⟩, got.behind,
      fun addr here => ?_, fun addr same => ?_⟩
    · simp only [got.cached, kept.sources, without, Bool.and_or_distrib_right]
    · by_cases same : (getPageFromCache pktMemory state.words).1 = some addr
      · exact Or.inr same
      · refine Or.inl ?_
        have other : only (getPageFromCache pktMemory state.words).1 addr = false := by
          exact beq_eq_false_iff_ne.mpr same
        rw [got.cached, here, other]
        rfl
    · have cached := got.present addr same
      exact ⟨@Partitioned.not_held _ _ _ _ kept.placed .cached .held addr cached (by decide),
        @Partitioned.of_held _ _ _ _ kept.placed .cached addr cached⟩

theorem Kept.pop_raw (kept : Kept pktMemory all state) (raw : pktMemory.num = 0)
    (admits : Admits pktMemory state (.pop answer))
    (taken : step pktMemory state (.pop answer) = some next) :
    Kept pktMemory all next ∧ next.words = state.words ∧
      ∀ addr, (pop pktMemory state.words answer).page = some addr →
        state.held addr = false ∧ all addr = true := by
  cases taken
  have popped : pop pktMemory state.words answer =
      ⟨rawPop answer, state.words, rawPop answer⟩ := by
    rw [pop, if_pos raw]
  rw [Admits, popped] at admits
  have same : told pktMemory (rawPop answer) = only (rawPop answer) := by
    funext addr
    cases rawPop answer with
    | none => rfl
    | some word =>
      rw [told, Option.elim_some, decoded, if_pos raw]
      rfl
  have empty : ∀ addr, cachedPages pktMemory state.words addr = false := fun addr => by
    rw [← Bool.not_eq_true, cachedPages_iff]
    rintro ⟨block, index, few, less, set, -⟩
    have known := kept.fits.small block index few less set
    rw [raw] at known
    exact absurd known (Nat.not_lt_zero _)
  simp only [popped, if_pos raw]
  rw [same] at admits ⊢
  refine ⟨⟨kept.fits, ?_, fun addr => ?_⟩, trivial, fun addr page => ?_⟩
  · refine @Partitioned.move _ _ _ _ _ kept.placed (only (rawPop answer)) .inside .held
      (fun addr here => admits addr here) (fun addr here => ?_)
      (fun addr place here different => ?_) (fun addr place there => ?_)
    · change together state.held (only (rawPop answer)) addr = true
      rw [together, here, Bool.or_true]
    · cases place with
      | held => exact absurd rfl different
      | cached => exact empty addr
      | inside =>
        change without state.inside (only (rawPop answer)) addr = false
        rw [without, here, Bool.not_true, Bool.and_false]
    · cases place with
      | held =>
        change together state.held (only (rawPop answer)) addr = state.held addr
        rw [together, there, Bool.or_false]
      | cached => rfl
      | inside =>
        change without state.inside (only (rawPop answer)) addr = state.inside addr
        rw [without, there, Bool.not_false, Bool.and_true]
  · have before := kept.sources addr
    rw [empty] at before
    have none := Bool.or_eq_false_iff.mp before.symm
    simp only [empty, without, none.1, none.2, Bool.false_and, Bool.or_self]
  · have here : only (rawPop answer) addr = true := by
      exact beq_iff_eq.mpr page
    have inside := admits addr here
    exact ⟨@Partitioned.not_held _ _ _ _ kept.placed .inside .held addr inside (by decide),
      @Partitioned.of_held _ _ _ _ kept.placed .inside addr inside⟩

theorem Kept.put (kept : Kept pktMemory all state)
    (long : pktMemory.num ≠ 0 → 0 < pktMemory.pageLen.toNat)
    (memory : pktMemory.num ≠ 0 → ∀ addr, all addr = memoryPages pktMemory addr)
    (admits : Admits pktMemory state (.put page ok))
    (taken : step pktMemory state (.put page ok) = some next) :
    Kept pktMemory all next ∧
      (∀ block, numBlocks ≤ block → next.words block = state.words block) ∧
      ∀ addr, cachedPages pktMemory state.words addr = true →
        cachedPages pktMemory next.words addr = true := by
  cases taken
  have one : ∀ addr, only (some page) addr = true → page = addr := fun addr here => by
    simpa [only] using here
  rw [Admits] at admits
  by_cases raw : pktMemory.num = 0
  · rw [if_pos raw] at admits
    cases ok with
    | false =>
      have done : put pktMemory state.words page false = ⟨false, state.words, none⟩ := by
        rw [Pager.put, if_pos raw]
        rfl
      simp only [done, Bool.false_eq_true, if_false, false_and, told_none, together_false]
      exact ⟨kept, fun _ _ => trivial, fun _ here => here⟩
    | true =>
      have done : put pktMemory state.words page true = ⟨true, state.words, some page⟩ := by
        rw [Pager.put, if_pos raw]
        rfl
      have same : told pktMemory (some page) = only (some page) := by
        funext addr
        rw [told, Option.elim_some, decoded, if_pos raw]
        rfl
      have apart : ∀ addr, only (some page) addr = true →
          cachedPages pktMemory state.words addr = false := fun addr here => by
        refine @Partitioned.not_held _ _ _ _ kept.placed .held .cached addr ?_ (by decide)
        rw [← one addr here]
        exact admits
      simp only [done, if_true, raw, ne_eq, not_true, and_false, if_false, same]
      refine ⟨⟨kept.fits, ?_, kept.sources⟩, fun _ _ => trivial, fun _ here => here⟩
      refine @Partitioned.move _ _ _ _ _ kept.placed (only (some page)) .held .inside
        (fun addr here => ?_) (fun addr here => ?_) (fun addr place here different => ?_)
        (fun addr place there => ?_)
      · rw [← one addr here]
        exact admits
      · change together state.inside (only (some page)) addr = true
        rw [together, here, Bool.or_true]
      · cases place with
        | held =>
          change without state.held (only (some page)) addr = false
          rw [without, here, Bool.not_true, Bool.and_false]
        | cached => exact apart addr here
        | inside => exact absurd rfl different
      · cases place with
        | held =>
          change without state.held (only (some page)) addr = state.held addr
          rw [without, there, Bool.not_false, Bool.and_true]
        | cached => rfl
        | inside =>
          change together state.inside (only (some page)) addr = state.inside addr
          rw [together, there, Bool.or_false]
  · rw [if_neg raw] at admits
    cases finds : pktMemory.getIndexFromPage page with
    | none =>
      have done : put pktMemory state.words page ok = ⟨false, state.words, none⟩ := by
        rw [Pager.put, if_neg raw, finds]
      simp only [done, Bool.false_eq_true, if_false, false_and, told_none, together_false]
      exact ⟨kept, fun _ _ => trivial, fun _ here => here⟩
    | some found =>
      obtain ⟨held, few⟩ := admits found finds
      have known := @Partitioned.of_held _ _ _ _ kept.placed .held page held
      rw [memory raw] at known
      obtain ⟨index, within, rfl⟩ := memoryPages_iff.mp known
      have number := index_of_address (long raw) (by omega) finds
      have done : put pktMemory state.words (pktMemory.address index) ok =
          ⟨true, Function.update state.words (index / bitmapLen)
            (state.words (index / bitmapLen) ||| bit (index - index / bitmapLen * bitmapLen)),
            none⟩ := by
        rw [Pager.put, if_neg raw, finds]
        simp only [number]
      rw [number] at few
      have cached : ∀ addr, cachedPages pktMemory (Function.update state.words
          (index / bitmapLen) (state.words (index / bitmapLen) |||
            bit (index - index / bitmapLen * bitmapLen))) addr =
          (cachedPages pktMemory state.words addr ||
            only (some (pktMemory.address index)) addr) := fun addr => by
        rw [cachedPages_set few]
        congr 1
        exact Bool.eq_iff_iff.mpr ⟨fun same => beq_iff_eq.mpr
          (congrArg some (of_decide_eq_true same).symm),
          fun same => decide_eq_true (Option.some.inj (beq_iff_eq.mp same)).symm⟩
      simp only [done, if_true, ne_eq, raw, not_false_eq_true, and_self, told_none,
        together_false]
      refine ⟨⟨kept.fits.set within, ?_, fun addr => ?_⟩, fun block many => ?_,
        fun addr here => ?_⟩
      · refine @Partitioned.move _ _ _ _ _ kept.placed
          (only (some (pktMemory.address index))) .held .cached (fun addr here => ?_)
          (fun addr here => ?_) (fun addr place here different => ?_)
          (fun addr place there => ?_)
        · rw [← one addr here]
          exact held
        · refine (cached addr).trans ?_
          rw [here, Bool.or_true]
        · cases place with
          | held =>
            change without state.held (only (some (pktMemory.address index))) addr = false
            rw [without, here, Bool.not_true, Bool.and_false]
          | cached => exact absurd rfl different
          | inside =>
            rw [← one addr here]
            exact @Partitioned.not_held _ _ _ _ kept.placed .held .inside _ held (by decide)
        · cases place with
          | held =>
            change without state.held (only (some (pktMemory.address index))) addr =
              state.held addr
            rw [without, there, Bool.not_false, Bool.and_true]
          | cached =>
            refine (cached addr).trans ?_
            rw [there, Bool.or_false]
            rfl
          | inside => rfl
      · simp only [cached, kept.sources, together]
        rw [Bool.or_right_comm]
      · exact Function.update_of_ne (by rw [bitmapLen] at *; omega) _ _
      · rw [cached, here, Bool.true_or]

theorem Kept.notify (kept : Kept pktMemory all state)
    (admits : Admits pktMemory state (.notify status))
    (taken : step pktMemory state (.notify status) = some next) :
    Kept pktMemory all next ∧
      (∀ block, numBlocks ≤ block → next.words block = state.words block) ∧
      (pktMemory.num ≠ 0 → ∀ addr,
        (∃ word ok, (word, ok) ∈ (notify pktMemory state.words status).2 ∧
          decoded pktMemory word addr = true) ↔ state.fresh addr = true) := by
  cases taken
  by_cases raw : pktMemory.num = 0
  · have done : Pager.notify pktMemory state.words status = (state.words, []) := by
      rw [Pager.notify, if_pos raw]
    have none : written pktMemory [] = fun _ => false := rfl
    simp only [done, if_pos raw, none, together_false]
    exact ⟨kept, fun _ _ => trivial, fun caches => absurd raw caches⟩
  · obtain ⟨succeeds, old⟩ := admits.resolve_left raw
    have words : (Pager.notify pktMemory state.words status).1 =
        fun block => if block < numBlocks then 0 else state.words block := by
      rw [Pager.notify, if_neg raw]
      exact (notifyBlocks_spec state.words status numBlocks).1
    have empty : ∀ block, block < numBlocks →
        (Pager.notify pktMemory state.words status).1 block = 0 := fun block few => by
      rw [words]
      exact if_pos few
    have wrote : ∀ addr, written pktMemory (Pager.notify pktMemory state.words status).2 addr =
        cachedPages pktMemory state.words addr := fun addr => by
      rw [Bool.eq_iff_iff, ← told_notify raw kept.fits status, written, List.any_eq_true]
      constructor
      · rintro ⟨⟨word, ok⟩, member, both⟩
        exact ⟨word, ok, member, (Bool.and_eq_true _ _ ▸ both).2⟩
      · rintro ⟨word, ok, member, told⟩
        refine ⟨(word, ok), member, ?_⟩
        have sent := member
        rw [Pager.notify, if_neg raw] at sent
        obtain ⟨block, few, full, -, rfl⟩ :=
          ((notifyBlocks_spec state.words status numBlocks).2 word ok).mp sent
        rw [succeeds block few full, told]
        rfl
    simp only [if_neg raw]
    refine ⟨⟨Fits.of_empty empty, ?_, fun addr => ?_⟩, fun block many => ?_, fun _ addr => ?_⟩
    · refine @Partitioned.move _ _ _ _ _ kept.placed (cachedPages pktMemory state.words) .cached
        .inside (fun addr here => here) (fun addr here => ?_)
        (fun addr place here different => ?_) (fun addr place there => ?_)
      · change together state.inside _ addr = true
        rw [together, wrote, here, Bool.or_true]
      · cases place with
        | held =>
          exact @Partitioned.not_held _ _ _ _ kept.placed .cached .held addr here (by decide)
        | cached => exact cachedPages_empty empty
        | inside => exact absurd rfl different
      · cases place with
        | held => rfl
        | cached => exact (cachedPages_empty empty).trans there.symm
        | inside =>
          change together state.inside _ addr = state.inside addr
          rw [together, wrote, there, Bool.or_false]
    · rw [cachedPages_empty empty]
      rfl
    · rw [words]
      exact if_neg (by omega)
    · rw [told_notify raw kept.fits, kept.sources, old, Bool.or_false]

theorem inside_of_memoryPages (sound : Sound pktMemory)
    (known : memoryPages pktMemory addr = true) :
    pktMemory.baseAddr.toNat ≤ addr.toNat ∧
      addr.toNat + (pktMemory.pageLen.toNat - pktMemory.pageLenReserved.toNat) ≤
        pktMemory.baseAddr.toNat + pktMemory.pageLen.toNat * pktMemory.num.toNat := by
  obtain ⟨index, within, rfl⟩ := memoryPages_iff.mp known
  have long := sound.long
  have room := sound.room
  have next : pktMemory.pageLen.toNat * index + pktMemory.pageLen.toNat ≤
      pktMemory.pageLen.toNat * pktMemory.num.toNat := by
    exact Nat.mul_le_mul_left _ within
  simp only [PktMemory.address, BitVec.toNat_add, BitVec.toNat_ofNat]
  omega

/-- What the steps from a state must do: a page that is popped was not held, and lies in the
packet memory; no cached page gets lost by a pop or a put; no word behind the cache changes; and
the words of a notification tell what was put since the last one. -/
structure StepsSafely (pktMemory : PktMemory) (state : State) : Prop where
  popped : ∀ answer addr, Admits pktMemory state (.pop answer) →
    (pop pktMemory state.words answer).page = some addr →
      state.held addr = false ∧
        (pktMemory.num ≠ 0 → pktMemory.baseAddr.toNat ≤ addr.toNat ∧
          addr.toNat + (pktMemory.pageLen.toNat - pktMemory.pageLenReserved.toNat) ≤
            pktMemory.baseAddr.toNat + pktMemory.pageLen.toNat * pktMemory.num.toNat)
  kept_by_pop : ∀ answer next addr, Admits pktMemory state (.pop answer) →
    step pktMemory state (.pop answer) = some next →
    cachedPages pktMemory state.words addr = true →
      cachedPages pktMemory next.words addr = true ∨
        (pop pktMemory state.words answer).page = some addr
  kept_by_put : ∀ page ok next addr, Admits pktMemory state (.put page ok) →
    step pktMemory state (.put page ok) = some next →
    cachedPages pktMemory state.words addr = true → cachedPages pktMemory next.words addr = true
  behind : ∀ action next block, Admits pktMemory state action →
    step pktMemory state action = some next → numBlocks ≤ block →
      next.words block = state.words block
  notified : ∀ status addr, Admits pktMemory state (.notify status) → pktMemory.num ≠ 0 →
    ((∃ word ok, (word, ok) ∈ (notify pktMemory state.words status).2 ∧
      decoded pktMemory word addr = true) ↔ state.fresh addr = true)

/-- Nothing is cached at the start, and the pages are with the caller or in the hardware. -/
structure Starts (pktMemory : PktMemory) (all : BitVec 32 → Bool) (state : State) : Prop where
  empty : ∀ block, block < numBlocks → state.words block = 0
  placed : Partitioned all (state.pages pktMemory)
  fresh : ∀ addr, state.fresh addr = false
  refilled : ∀ addr, state.refilled addr = false

/-- For a sound packet memory, every page is in exactly one place in every state that is reached,
and the steps from there are safe. -/
theorem partitioned_of_reaches {start : State} (sound : pktMemory.num ≠ 0 → Sound pktMemory)
    (memory : pktMemory.num ≠ 0 → ∀ addr, all addr = memoryPages pktMemory addr)
    (starts : Starts pktMemory all start)
    (reaches : Reaches (step pktMemory) (Admits pktMemory) start state) :
    Partitioned all (state.pages pktMemory) ∧ StepsSafely pktMemory state := by
  have long : pktMemory.num ≠ 0 → 0 < pktMemory.pageLen.toNat := fun caches =>
    Nat.lt_of_le_of_lt (Nat.zero_le _) (sound caches).long
  have kept : Kept pktMemory all state := by
    refine @Reaches.invariant _ _ (step pktMemory) (Admits pktMemory) start state
      (Kept pktMemory all) ?_ ?_ reaches
    · refine ⟨Fits.of_empty starts.empty, starts.placed, fun addr => ?_⟩
      rw [cachedPages_empty starts.empty, starts.fresh, starts.refilled]
      rfl
    · intro before action after holds admits taken
      cases action with
      | pop answer =>
        by_cases raw : pktMemory.num = 0
        · exact (holds.pop_raw raw admits taken).1
        · exact (holds.pop_cached raw (long raw) (memory raw) admits taken).1
      | put page ok => exact (holds.put long memory admits taken).1
      | notify status => exact (holds.notify admits taken).1
  refine ⟨kept.placed, fun answer addr admits same => ?_,
    fun answer next addr admits taken here => ?_,
    fun page ok next addr admits taken => (kept.put long memory admits taken).2.2 addr,
    fun action next block admits taken many => ?_,
    fun status addr admits caches => (kept.notify admits rfl).2.2 caches addr⟩
  · by_cases raw : pktMemory.num = 0
    · exact ⟨((kept.pop_raw raw admits rfl).2.2 addr same).1, fun caches => absurd raw caches⟩
    · obtain ⟨apart, known⟩ :=
        (kept.pop_cached raw (long raw) (memory raw) admits rfl).2.2.2 addr same
      rw [memory raw] at known
      exact ⟨apart, fun caches => inside_of_memoryPages (sound caches) known⟩
  · by_cases raw : pktMemory.num = 0
    · rw [(kept.pop_raw raw admits taken).2.1]
      exact Or.inl here
    · exact (kept.pop_cached raw (long raw) (memory raw) admits taken).2.2.1 addr here
  · cases action with
    | pop answer =>
      by_cases raw : pktMemory.num = 0
      · rw [(kept.pop_raw raw admits taken).2.1]
      · exact (kept.pop_cached raw (long raw) (memory raw) admits taken).2.1 block many
    | put page ok => exact (kept.put long memory admits taken).2.1 block many
    | notify status => exact (kept.notify admits taken).2.1 block many

end Steps

/-- A packet memory of so many pages of 16 octets. -/
def smallMemory (num : BitVec 8) : PktMemory := ⟨0x1000, 16, 0, num⟩

/-- The caller holds the first page of two, and the hardware the second. -/
def shared : State where
  words _ := 0
  held addr := addr == 0x1000
  inside addr := addr == 0x1010
  fresh _ := false
  refilled _ := false

theorem starts_shared : Starts (smallMemory 2) (memoryPages (smallMemory 2)) shared where
  empty _ _ := rfl
  placed addr := by
    have known : memoryPages (smallMemory 2) addr = (0x1000 == addr || (0x1010 == addr || false)) :=
      rfl
    have cached : cachedPages (smallMemory 2) shared.words addr = false :=
      cachedPages_empty fun _ _ => rfl
    by_cases first : addr = 0x1000
    · subst first
      refine ⟨fun _ => ⟨.held, rfl, fun place here => ?_⟩, fun none => ?_⟩
      · cases place with
        | held => rfl
        | cached =>
          have there : cachedPages (smallMemory 2) shared.words 0x1000 = true := here
          cases there
        | inside => exact absurd (here : (0x1000#32 == 0x1010#32) = true) (by decide)
      · exact absurd none (by decide)
    · by_cases second : addr = 0x1010
      · subst second
        refine ⟨fun _ => ⟨.inside, rfl, fun place here => ?_⟩, fun none => ?_⟩
        · cases place with
          | held => exact absurd (here : (0x1010#32 == 0x1000#32) = true) (by decide)
          | cached =>
            have there : cachedPages (smallMemory 2) shared.words 0x1010 = true := here
            cases there
          | inside => rfl
        · exact absurd none (by decide)
      · have one : (addr == 0x1000) = false := beq_eq_false_iff_ne.mpr first
        have other : (addr == 0x1010) = false := beq_eq_false_iff_ne.mpr second
        refine ⟨fun some => ?_, fun _ place => ?_⟩
        · rw [known, BEq.comm, one, BEq.comm, other] at some
          cases some
        · cases place with
          | held => exact one
          | cached => exact cached
          | inside => exact other
  fresh _ := rfl
  refilled _ := rfl

theorem partitioned_of_reaches_given :
    ∃ state, run (step (smallMemory 2)) shared [.put 0x1000 true, .notify fun _ => true] =
        some state ∧
      Partitioned (memoryPages (smallMemory 2)) (state.pages (smallMemory 2)) := by
  refine ⟨_, rfl, ?_⟩
  refine (partitioned_of_reaches (fun _ => ⟨by decide, by decide⟩) (fun _ _ => rfl) starts_shared
    (@Reaches.of_run _ _ (step (smallMemory 2)) (Admits (smallMemory 2)) shared _
      [.put 0x1000 true, .notify fun _ => true] ⟨?_, ?_, trivial⟩ rfl)).1
  · intro index finds
    cases finds
    exact ⟨rfl, by decide⟩
  · exact Or.inr ⟨fun _ _ _ => rfl, fun _ => rfl⟩

/-- A page that is put is nowhere when the word that gives it to the hardware is not written, and
the page with the number 62 is put behind the cache. -/
theorem not_partitioned_unwritten :
    (∃ state, run (step (smallMemory 2)) shared [.put 0x1000 true, .notify fun _ => false] =
        some state ∧ memoryPages (smallMemory 2) 0x1000 = true ∧
          ∀ place, state.pages (smallMemory 2) place 0x1000 = false) ∧
      memoryPages (smallMemory 63) 0x13e0 = true ∧
        (put (smallMemory 63) (fun _ => 0) 0x13e0 true).words 2 ≠ 0 := by
  refine ⟨⟨_, rfl, by decide, fun place => ?_⟩, by decide, by decide⟩
  cases place with
  | held => decide
  | cached => decide
  | inside => decide

end Pager
end Morse
