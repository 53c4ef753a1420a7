import Morse.Pager.SwDefs

/-!
# The ring of the software pager

Counting is modulo the size of the ring, which a mask of the difference of two pointers gives as
the size is a power of two.  A write behind the pages in the ring and a read of them are specified
by indices, whether or not they go around the end of the ring.
-/

namespace Morse
namespace Pager

open Lib

namespace SwRing

variable {ring : SwRing} {head tail pointer : BitVec 32}

theorem size_pos : 0 < ring.size.toNat := by
  obtain ⟨order, same⟩ := ring.power
  rw [same]
  exact Nat.two_pow_pos order

@[simp] theorem toNat_size32 : ring.size32.toNat = ring.size.toNat :=
  BitVec.toNat_setWidth_of_le (by omega)

theorem size_dvd : ring.size.toNat ∣ 2 ^ 32 := by
  obtain ⟨order, same⟩ := ring.power
  have small : 2 ^ order < 2 ^ 16 := same ▸ ring.size.isLt
  have low : order < 16 := (Nat.pow_lt_pow_iff_right Nat.one_lt_two).mp small
  rw [same]
  exact Nat.pow_dvd_pow 2 (by omega)

theorem toNat_eq (inside : ring.Inside pointer) :
    pointer.toNat = ring.base.toNat + ring.index pointer := by
  have low := inside.1
  rw [index]
  omega

theorem index_lt (inside : ring.Inside pointer) : ring.index pointer < ring.size.toNat := by
  have low := inside.1
  have high := inside.2
  rw [index]
  omega

theorem at_index (below : place < ring.size.toNat) :
    ring.Inside (ring.base + BitVec.ofNat 32 place) ∧
      ring.index (ring.base + BitVec.ofNat 32 place) = place := by
  have room := ring.room
  have value : (ring.base + BitVec.ofNat 32 place).toNat = ring.base.toNat + place := by
    rw [BitVec.toNat_add, BitVec.toNat_ofNat, Nat.mod_eq_of_lt (b := 2 ^ 32) (by omega),
      Nat.mod_eq_of_lt (by omega)]
  rw [Inside, index]
  omega

theorem toNat_and_mask (value : BitVec 32) :
    (value &&& (ring.size32 - 1)).toNat = value.toNat % ring.size.toNat := by
  obtain ⟨order, same⟩ := ring.power
  have positive := ring.size_pos
  have mask : (ring.size32 - 1).toNat = 2 ^ order - 1 := by
    rw [← same]
    change (2 ^ 32 - 1 + ring.size.toNat) % 2 ^ 32 = ring.size.toNat - 1
    omega
  rw [BitVec.toNat_and, mask, same, Nat.and_two_pow_sub_one_eq_mod]

theorem toNat_count {held : Nat} (headInside : ring.Inside head) (tailInside : ring.Inside tail)
    (behind : ring.index head = (ring.index tail + held) % ring.size.toNat)
    (below : held < ring.size.toNat) :
    (ring.count head tail).toNat = held := by
  have tailValue := toNat_eq tailInside
  have difference : (head - ring.base - (tail - ring.base)).toNat =
      (ring.index head + (2 ^ 32 - ring.index tail)) % 2 ^ 32 := by
    have headless : (head - ring.base).toNat = ring.index head := by
      rw [BitVec.toNat_sub_of_le (BitVec.le_def.mpr headInside.1), index]
    have tailless : (tail - ring.base).toNat = ring.index tail := by
      rw [BitVec.toNat_sub_of_le (BitVec.le_def.mpr tailInside.1), index]
    rw [BitVec.toNat_sub, headless, tailless, Nat.add_comm]
  obtain ⟨turns, all⟩ := ring.size_dvd
  rw [count, toNat_and_mask, difference, Nat.mod_mod_of_dvd _ ring.size_dvd, behind,
    Nat.mod_add_mod]
  have total : ring.index tail + held + (2 ^ 32 - ring.index tail) =
      held + ring.size.toNat * turns := by
    omega
  rw [total, Nat.add_mul_mod_self_left, Nat.mod_eq_of_lt below]

theorem toNat_space {held : Nat} (counted : (ring.count head tail).toNat = held)
    (below : held < ring.size.toNat) :
    (ring.space head tail).toNat = ring.size.toNat - 1 - held := by
  rw [space, BitVec.toNat_sub, counted]
  change (2 ^ 32 - held + (2 ^ 32 - 1 + ring.size.toNat) % 2 ^ 32) % 2 ^ 32 = _
  omega

theorem toNat_last_sub (inside : ring.Inside pointer) :
    (ring.last - pointer + 1).toNat = ring.size.toNat - ring.index pointer := by
  have value := toNat_eq inside
  have below := index_lt inside
  have size := ring.toNat_size32
  rw [last, BitVec.toNat_add, BitVec.toNat_sub, BitVec.toNat_sub, BitVec.toNat_add]
  omega

variable {len : Nat}

theorem add_inside (inside : ring.Inside pointer)
    (within : ring.index pointer + len < ring.size.toNat) :
    ring.Inside (pointer + BitVec.ofNat 32 len) ∧
      ring.index (pointer + BitVec.ofNat 32 len) =
        (ring.index pointer + len) % ring.size.toNat := by
  have value := toNat_eq inside
  have room := ring.room
  have moved : (pointer + BitVec.ofNat 32 len).toNat =
      ring.base.toNat + (ring.index pointer + len) := by
    rw [BitVec.toNat_add, BitVec.toNat_ofNat]
    omega
  rw [Nat.mod_eq_of_lt within, Inside, index]
  omega

theorem advance_inside :
    ring.Inside (ring.advance pointer) ∧
      ring.index (ring.advance pointer) = (ring.index pointer + 4) % ring.size.toNat :=
  at_index (Nat.mod_lt _ ring.size_pos)

/-- An access of the memory stays inside the ring. -/
def Within (ring : SwRing) (access : BitVec 32 × Nat) : Prop :=
  ring.base.toNat ≤ access.1.toNat ∧
    access.1.toNat + access.2 ≤ ring.base.toNat + ring.size.toNat

theorem within_of_index (inside : ring.Inside pointer)
    (short : ring.index pointer + len ≤ ring.size.toNat) :
    ring.Within (pointer, len) := by
  have value := toNat_eq inside
  refine ⟨inside.1, ?_⟩
  change pointer.toNat + len ≤ _
  omega

theorem within_base (short : len ≤ ring.size.toNat) :
    ring.Within (ring.base, len) :=
  ⟨Nat.le_refl _, Nat.add_le_add_left short _⟩

end SwRing

/-! ## What the operations do to the ring -/

/-- What stands in the memory of a ring, unrolled. -/
abbrev SwRing.held (ring : SwRing) (memory : Nat → BitVec 8) : Nat → BitVec 8 :=
  unrolled memory ring.base.toNat ring.size.toNat

/-- Octets were written from the head on. -/
structure Written (ring : SwRing) (before after : SwPager) (data : List (BitVec 8)) : Prop where
  stores : Stores ring.base.toNat ring.size.toNat before.memory after.memory
    (ring.index before.head) data
  inside : ring.Inside after.head
  index : ring.index after.head = (ring.index before.head + data.length) % ring.size.toNat
  accesses : ∃ more, after.accesses = before.accesses ++ more ∧
    ∀ access ∈ more, ring.Within access
  frame : after = { before with
    head := after.head
    headIsDirty := true
    memory := after.memory
    accesses := after.accesses }

/-- Octets were read from the tail on. -/
structure TakenOff (ring : SwRing) (before after : SwPager) (len : Nat)
    (data : List (BitVec 8)) : Prop where
  data : data = segment (ring.held before.memory) (ring.index before.tail) len
  inside : ring.Inside after.tail
  index : ring.index after.tail = (ring.index before.tail + len) % ring.size.toNat
  accesses : ∃ more, after.accesses = before.accesses ++ more ∧
    ∀ access ∈ more, ring.Within access
  frame : after = { before with
    tail := after.tail
    tailIsDirty := true
    accesses := after.accesses }

section Transfers

variable {ring : SwRing} {pager : SwPager} {held : Nat}

variable {data : List (BitVec 8)}

theorem Written.straight (headInside : ring.Inside pager.head)
    (within : ring.index pager.head + data.length < ring.size.toNat) :
    Written ring pager { pager.dmWrite pager.head data with
      head := pager.head + BitVec.ofNat 32 data.length
      headIsDirty := true } data where
  stores := by
    have stores := @Stores.of_overwrite _ ring.base.toNat _ _ pager.memory data
      (Nat.le_of_lt within)
    rw [← SwRing.toNat_eq headInside] at stores
    exact stores
  inside := (SwRing.add_inside headInside within).1
  index := (SwRing.add_inside headInside within).2
  accesses := by
    refine ⟨_, rfl, fun access here => ?_⟩
    rw [List.mem_singleton.mp here]
    exact SwRing.within_of_index headInside (Nat.le_of_lt within)
  frame := rfl

theorem Written.around {toEnd : Nat} (headInside : ring.Inside pager.head)
    (ends : ring.index pager.head + toEnd = ring.size.toNat) (long : toEnd < data.length)
    (room : data.length < ring.size.toNat) :
    Written ring pager
      { (pager.dmWrite pager.head (data.take toEnd)).dmWrite ring.base (data.drop toEnd) with
        head := ring.base + BitVec.ofNat 32 (data.drop toEnd).length
        headIsDirty := true } data where
  stores := by
    have first : Stores ring.base.toNat ring.size.toNat pager.memory
        (pager.dmWrite pager.head (data.take toEnd)).memory (ring.index pager.head)
        (data.take toEnd) := by
      rw [SwPager.dmWrite, SwRing.toNat_eq headInside]
      apply Stores.of_overwrite
      rw [List.length_take]
      omega
    have second : Stores ring.base.toNat ring.size.toNat
        (pager.dmWrite pager.head (data.take toEnd)).memory
        ((pager.dmWrite pager.head (data.take toEnd)).dmWrite ring.base
          (data.drop toEnd)).memory
        (ring.index pager.head + (data.take toEnd).length) (data.drop toEnd) := by
      have turned : (ring.index pager.head + (data.take toEnd).length) % ring.size.toNat = 0 := by
        rw [List.length_take, Nat.min_eq_left (Nat.le_of_lt long), ends, Nat.mod_self]
      apply Stores.of_mod
      rw [turned]
      refine @Stores.of_overwrite _ ring.base.toNat _ 0 _ _ ?_
      rw [List.length_drop]
      omega
    have both := first.append second (by
      rw [← List.length_append, List.take_append_drop]
      exact Nat.le_of_lt room)
    rw [List.take_append_drop] at both
    exact both
  inside := (SwRing.at_index (by
    rw [List.length_drop]
    omega)).1
  index := by
    have there := (@SwRing.at_index ring (data.drop toEnd).length (by
      rw [List.length_drop]
      omega)).2
    refine there.trans ?_
    have total : ring.index pager.head + data.length =
        data.length - toEnd + ring.size.toNat := by omega
    rw [List.length_drop, total, Nat.add_mod_right, Nat.mod_eq_of_lt (by omega)]
  accesses := by
    refine ⟨[(pager.head, (data.take toEnd).length), (ring.base, (data.drop toEnd).length)],
      List.append_assoc _ _ _, fun access here => ?_⟩
    rcases List.mem_cons.mp here with rfl | here
    · apply SwRing.within_of_index headInside
      rw [List.length_take]
      omega
    · rw [List.mem_singleton.mp here]
      apply SwRing.within_base
      rw [List.length_drop]
      omega
  frame := rfl

theorem written_store (headInside : ring.Inside pager.head) (tailInside : ring.Inside pager.tail)
    (behind : ring.index pager.head = (ring.index pager.tail + held) % ring.size.toNat)
    (room : held + data.length < ring.size.toNat)
    (short : ring.index pager.head + data.length ≠ ring.size.toNat) :
    ∃ after, pager.store ring data = (0, after) ∧ Written ring pager after data := by
  have counted := SwRing.toNat_count headInside tailInside behind (by omega)
  have left := SwRing.toNat_space counted (by omega)
  have headBelow := SwRing.index_lt headInside
  have tailBelow := SwRing.index_lt tailInside
  have headValue := SwRing.toNat_eq headInside
  have tailValue := SwRing.toNat_eq tailInside
  by_cases order : pager.tail ≤ pager.head
  · have toEnd : (ring.spaceToEnd pager.head pager.tail).toNat =
        ring.size.toNat - ring.index pager.head := by
      rw [SwRing.spaceToEnd, if_pos order, SwRing.toNat_last_sub headInside]
    by_cases fits : data.length ≤ ring.size.toNat - ring.index pager.head
    · refine ⟨_, ?_, Written.straight headInside (by omega)⟩
      rw [SwPager.store, toEnd, if_neg (by omega), if_pos fits]
      rfl
    · refine ⟨_, ?_, @Written.around ring pager data (ring.size.toNat - ring.index pager.head)
        headInside (by omega) (by omega) (by omega)⟩
      rw [SwPager.store, toEnd, if_neg (by omega), if_neg fits]
  · have before : pager.head.toNat < pager.tail.toNat := by
      rw [BitVec.le_def] at order
      omega
    have toEnd : (ring.spaceToEnd pager.head pager.tail).toNat =
        ring.index pager.tail - ring.index pager.head := by
      rw [SwRing.spaceToEnd, if_neg order,
        BitVec.toNat_sub_of_le (BitVec.le_def.mpr (Nat.le_of_lt before))]
      omega
    have around : ring.index pager.head + ring.size.toNat = ring.index pager.tail + held := by
      have reaches : ring.size.toNat ≤ ring.index pager.tail + held := by
        by_contra inside
        rw [Nat.mod_eq_of_lt (by omega)] at behind
        omega
      rw [Nat.mod_eq_sub_mod reaches, Nat.mod_eq_of_lt (by omega)] at behind
      omega
    refine ⟨_, ?_, Written.straight headInside (by omega)⟩
    rw [SwPager.store, if_neg (by omega), if_pos (by omega)]
    rfl

variable {len : Nat}

theorem tailAfter_inside (tailInside : ring.Inside pager.tail)
    (within : ring.index pager.tail + len ≤ ring.size.toNat) :
    ring.Inside (pager.tailAfter ring len) ∧
      ring.index (pager.tailAfter ring len) =
        (ring.index pager.tail + len) % ring.size.toNat := by
  have tailValue := SwRing.toNat_eq tailInside
  have size := ring.toNat_size32
  rw [SwPager.tailAfter]
  by_cases ends : ring.index pager.tail + len = ring.size.toNat
  · have same : pager.tail + BitVec.ofNat 32 len = ring.base + ring.size32 := by
      apply BitVec.eq_of_toNat_eq
      rw [BitVec.toNat_add, BitVec.toNat_add, BitVec.toNat_ofNat]
      omega
    have first := @SwRing.at_index ring 0 ring.size_pos
    rw [BitVec.add_zero] at first
    rw [if_pos same, ends, Nat.mod_self]
    exact first
  · have other : pager.tail + BitVec.ofNat 32 len ≠ ring.base + ring.size32 := by
      intro same
      have values := congrArg BitVec.toNat same
      rw [BitVec.toNat_add, BitVec.toNat_add, BitVec.toNat_ofNat] at values
      omega
    rw [if_neg other]
    exact SwRing.add_inside tailInside (by omega)

theorem TakenOff.straight (tailInside : ring.Inside pager.tail)
    (within : ring.index pager.tail + len ≤ ring.size.toNat) :
    TakenOff ring pager { (pager.dmRead pager.tail len).2 with
      tail := pager.tailAfter ring len
      tailIsDirty := true } len (pager.dmRead pager.tail len).1 where
  data := by
    rw [SwPager.dmRead, segment_unrolled _ within, ← SwRing.toNat_eq tailInside]
  inside := (tailAfter_inside tailInside within).1
  index := (tailAfter_inside tailInside within).2
  accesses := by
    refine ⟨_, rfl, fun access here => ?_⟩
    rw [List.mem_singleton.mp here]
    exact SwRing.within_of_index tailInside within
  frame := rfl

theorem TakenOff.around {len toEnd : Nat} (tailInside : ring.Inside pager.tail)
    (ends : ring.index pager.tail + toEnd = ring.size.toNat) (long : toEnd < len)
    (room : len < ring.size.toNat) :
    TakenOff ring pager
      { ((pager.dmRead pager.tail toEnd).2.dmRead ring.base (len - toEnd)).2 with
        tail := ring.base + BitVec.ofNat 32 (len - toEnd)
        tailIsDirty := true } len
      ((pager.dmRead pager.tail toEnd).1 ++
        ((pager.dmRead pager.tail toEnd).2.dmRead ring.base (len - toEnd)).1) where
  data := by
    have split : len = toEnd + (len - toEnd) := by omega
    have first : segment (ring.held pager.memory) (ring.index pager.tail) toEnd =
        segment pager.memory pager.tail.toNat toEnd := by
      rw [segment_unrolled _ (Nat.le_of_eq ends), ← SwRing.toNat_eq tailInside]
    have second : segment (ring.held pager.memory) (ring.index pager.tail + toEnd)
        (len - toEnd) = segment pager.memory ring.base.toNat (len - toEnd) := by
      rw [← segment_unrolled_mod, ends, Nat.mod_self, segment_unrolled _ (by omega),
        Nat.add_zero]
    conv_rhs => rw [split, segment_add, first, second]
    rfl
  inside := (SwRing.at_index (by omega)).1
  index := by
    refine (SwRing.at_index (by omega)).2.trans ?_
    have total : ring.index pager.tail + len = len - toEnd + ring.size.toNat := by omega
    rw [total, Nat.add_mod_right, Nat.mod_eq_of_lt (by omega)]
  accesses := by
    refine ⟨[(pager.tail, toEnd), (ring.base, len - toEnd)], List.append_assoc _ _ _,
      fun access here => ?_⟩
    rcases List.mem_cons.mp here with rfl | here
    · exact SwRing.within_of_index tailInside (Nat.le_of_eq ends)
    · rw [List.mem_singleton.mp here]
      exact SwRing.within_base (by omega)
  frame := rfl

theorem takenOff_dataRead (headInside : ring.Inside pager.head)
    (tailInside : ring.Inside pager.tail)
    (behind : ring.index pager.head = (ring.index pager.tail + held) % ring.size.toNat)
    (below : held < ring.size.toNat) (enough : len ≤ held) :
    ∃ data after, pager.dataRead ring len = (some data, after) ∧
      TakenOff ring pager after len data := by
  have counted := SwRing.toNat_count headInside tailInside behind below
  have headBelow := SwRing.index_lt headInside
  have tailBelow := SwRing.index_lt tailInside
  have headValue := SwRing.toNat_eq headInside
  have tailValue := SwRing.toNat_eq tailInside
  by_cases order : pager.tail ≤ pager.head
  · have toEnd : (ring.countToEnd pager.head pager.tail).toNat =
        ring.index pager.head - ring.index pager.tail := by
      rw [SwRing.countToEnd, if_pos order, BitVec.toNat_sub_of_le order]
      omega
    have straight : ring.index pager.head = ring.index pager.tail + held := by
      rw [BitVec.le_def] at order
      by_cases around : ring.size.toNat ≤ ring.index pager.tail + held
      · rw [Nat.mod_eq_sub_mod around, Nat.mod_eq_of_lt (by omega)] at behind
        omega
      · rw [Nat.mod_eq_of_lt (by omega)] at behind
        exact behind
    refine ⟨_, _, ?_, TakenOff.straight tailInside (by omega)⟩
    rw [SwPager.dataRead, if_neg (by omega), if_pos (by omega)]
  · have toEnd : (ring.countToEnd pager.head pager.tail).toNat =
        ring.size.toNat - ring.index pager.tail := by
      rw [SwRing.countToEnd, if_neg order, SwRing.toNat_last_sub tailInside]
    by_cases fits : len ≤ ring.size.toNat - ring.index pager.tail
    · refine ⟨_, _, ?_, TakenOff.straight tailInside (by omega)⟩
      rw [SwPager.dataRead, toEnd, if_neg (by omega), if_pos fits]
    · refine ⟨_, _, ?_, @TakenOff.around ring pager len
        (ring.size.toNat - ring.index pager.tail) tailInside (by omega) (by omega) (by omega)⟩
      rw [SwPager.dataRead, toEnd, if_neg (by omega), if_neg fits]

end Transfers

/-! ## What the ring holds -/

/-- The ring holds just these pages from a tail to a head. -/
structure Holds (ring : SwRing) (memory : Nat → BitVec 8) (tail head : BitVec 32)
    (queued : List (BitVec 32)) : Prop where
  fits : 4 * queued.length < ring.size.toNat
  head : ring.index head = (ring.index tail + 4 * queued.length) % ring.size.toNat
  octets : segment (ring.held memory) (ring.index tail) (4 * queued.length) = wordOctets queued

section Contents

variable {ring : SwRing} {memory after : Nat → BitVec 8} {tail head : BitVec 32}
  {queued : List (BitVec 32)}

theorem Holds.count (holds : Holds ring memory tail head queued) (tailInside : ring.Inside tail)
    (headInside : ring.Inside head) :
    (ring.count head tail).toNat = 4 * queued.length :=
  SwRing.toNat_count headInside tailInside holds.head holds.fits

theorem Holds.pages (holds : Holds ring memory tail head queued) (tailInside : ring.Inside tail)
    (headInside : ring.Inside head) :
    ring.pages memory tail head = queued := by
  rw [SwRing.pages, SwRing.octets, holds.count tailInside headInside]
  exact (congrArg words holds.octets).trans (words_wordOctets queued)

theorem Holds.nil (memory : Nat → BitVec 8) (inside : ring.Inside tail)
    (same : ring.index head = ring.index tail) :
    Holds ring memory tail head [] where
  fits := ring.size_pos
  head := by
    rw [same]
    exact (Nat.mod_eq_of_lt (SwRing.index_lt inside)).symm
  octets := rfl

theorem Holds.append (holds : Holds ring memory tail head queued)
    (stores : Stores ring.base.toNat ring.size.toNat memory after (ring.index head)
      (wordOctets more))
    (room : 4 * queued.length + 4 * more.length < ring.size.toNat)
    (moved : ring.index next = (ring.index head + 4 * more.length) % ring.size.toNat) :
    Holds ring after tail next (queued ++ more) where
  fits := by
    rw [List.length_append]
    omega
  head := by
    rw [moved, holds.head, Nat.mod_add_mod, List.length_append, Nat.mul_add, Nat.add_assoc]
  octets := by
    have behind := stores
    rw [holds.head] at behind
    have all := (Stores.of_mod behind).behind (by
      rw [length_wordOctets]
      omega)
    rw [length_wordOctets] at all
    rw [List.length_append, Nat.mul_add, all, wordOctets_append]
    exact congrArg (· ++ wordOctets more) holds.octets

theorem Holds.rest (holds : Holds ring memory tail head (page :: queued))
    (moved : ring.index next = (ring.index tail + 4) % ring.size.toNat) :
    Holds ring memory next head queued where
  fits := by
    have fits := holds.fits
    rw [List.length_cons] at fits
    omega
  head := by
    rw [holds.head, moved, Nat.mod_add_mod, List.length_cons]
    congr 1
    omega
  octets := by
    have octets := holds.octets
    have split : 4 * (page :: queued).length = 4 + 4 * queued.length := by
      rw [List.length_cons]
      omega
    rw [split, segment_add] at octets
    rw [moved, segment_unrolled_mod]
    exact (List.append_inj octets (by rw [length_segment, length_leOctets])).2

theorem SwRing.exists_held (tailInside : ring.Inside tail) (headInside : ring.Inside head) :
    ∃ held, held < ring.size.toNat ∧
      ring.index head = (ring.index tail + held) % ring.size.toNat := by
  have headBelow := SwRing.index_lt headInside
  have tailBelow := SwRing.index_lt tailInside
  by_cases order : ring.index tail ≤ ring.index head
  · refine ⟨ring.index head - ring.index tail, by omega, ?_⟩
    rw [Nat.add_sub_cancel' order, Nat.mod_eq_of_lt headBelow]
  · refine ⟨ring.index head + ring.size.toNat - ring.index tail, by omega, ?_⟩
    rw [Nat.add_sub_cancel' (by omega), Nat.add_mod_right, Nat.mod_eq_of_lt headBelow]

theorem Holds.of_whole (tailInside : ring.Inside tail) (headInside : ring.Inside head)
    (whole : 4 ∣ (ring.count head tail).toNat) :
    Holds ring memory tail head (ring.pages memory tail head) := by
  obtain ⟨held, below, behind⟩ := SwRing.exists_held tailInside headInside
  have counted := SwRing.toNat_count headInside tailInside behind below
  have octets : wordOctets (ring.pages memory tail head) = ring.octets memory tail head := by
    apply wordOctets_words
    rw [SwRing.octets, length_segment]
    exact whole
  have length : 4 * (ring.pages memory tail head).length = held := by
    rw [← length_wordOctets, octets, SwRing.octets, length_segment, counted]
  refine ⟨by omega, by rw [length, behind], ?_⟩
  rw [octets, SwRing.octets, length, counted]

end Contents

end Pager
end Morse
