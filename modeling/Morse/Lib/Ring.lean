import Morse.Lib.Layout

/-!
# Rings in memory

A ring is so many places of a memory, after the last of which comes the first again.  Unrolled,
it is an endless buffer, so that what stands in the ring from an index on is a segment.  Items
stored in the ring behind others leave those as they are, wherever the ring ends, and they may be
stored in two parts.
-/

namespace Lib

universe u

variable {α : Type u}

/-- What a ring of so many items from a base on holds at every index. -/
def unrolled (memory : Nat → α) (base size : Nat) (index : Nat) : α :=
  memory (base + index % size)

theorem segment_unrolled_mod (memory : Nat → α) (base size index count : Nat) :
    segment (unrolled memory base size) (index % size) count =
      segment (unrolled memory base size) index count := by
  simp only [segment]
  apply List.ext_getElem (by simp)
  intro position _ _
  simp only [List.getElem_map, List.getElem_range', Nat.one_mul]
  rw [unrolled, unrolled, Nat.mod_add_mod]

theorem segment_unrolled (memory : Nat → α) (within : index + count ≤ size) :
    segment (unrolled memory base size) index count = segment memory (base + index) count := by
  simp only [segment]
  apply List.ext_getElem (by simp)
  intro position below _
  rw [List.length_map, List.length_range'] at below
  simp only [List.getElem_map, List.getElem_range', Nat.one_mul]
  rw [unrolled, Nat.mod_eq_of_lt (by omega), Nat.add_assoc]

theorem mod_ne_of_apart {size first second : Nat} (before : first < second)
    (near : second < first + size) :
    first % size ≠ second % size := by
  intro same
  have divides : size ∣ second - first :=
    Nat.dvd_of_mod_eq_zero (Nat.sub_mod_eq_zero_of_mod_eq same.symm)
  have none : second - first = 0 := Nat.eq_zero_of_dvd_of_lt divides (by omega)
  omega

/-- The items are stored in the ring from an index on, and nothing else is. -/
structure Stores (base size : Nat) (memory after : Nat → α) (index : Nat) (items : List α) :
    Prop where
  stored : segment (unrolled after base size) index items.length = items
  kept : ∀ place, (∀ offset, offset < items.length →
    place ≠ base + (index + offset) % size) → after place = memory place

namespace Stores

variable {base size index : Nat} {memory between after : Nat → α} {items more : List α}

theorem of_overwrite (within : index + items.length ≤ size) :
    Stores base size memory (overwrite memory (base + index) items) index items where
  stored := by
    rw [segment_unrolled _ within, segment_overwrite_self]
  kept place other := by
    apply overwrite_apart
    by_contra inside
    refine other (place - (base + index)) (by omega) ?_
    rw [Nat.mod_eq_of_lt (by omega)]
    omega

theorem of_mod (stores : Stores base size memory after (index % size) items) :
    Stores base size memory after index items where
  stored := by
    rw [← segment_unrolled_mod, stores.stored]
  kept place other := by
    refine stores.kept place fun offset below => ?_
    rw [Nat.mod_add_mod]
    exact other offset below

theorem segment_before (stores : Stores base size memory after index items)
    (behind : start + count ≤ index) (near : index + items.length ≤ start + size) :
    segment (unrolled after base size) start count =
      segment (unrolled memory base size) start count := by
  apply segment_congr
  intro place above below
  refine stores.kept _ fun offset inside same => ?_
  exact mod_ne_of_apart (by omega) (by omega) (Nat.add_left_cancel same)

theorem append (first : Stores base size memory between index items)
    (second : Stores base size between after (index + items.length) more)
    (room : items.length + more.length ≤ size) :
    Stores base size memory after index (items ++ more) where
  stored := by
    rw [List.length_append, segment_add, second.segment_before (Nat.le_refl _) (by omega),
      first.stored, second.stored]
  kept place other := by
    rw [List.length_append] at other
    rw [second.kept place, first.kept place]
    · exact fun offset below => other offset (by omega)
    · intro offset below
      rw [Nat.add_assoc]
      exact other (items.length + offset) (by omega)

theorem behind (stores : Stores base size memory after (start + count) items)
    (room : count + items.length ≤ size) :
    segment (unrolled after base size) start (count + items.length) =
      segment (unrolled memory base size) start count ++ items := by
  rw [segment_add, stores.stored, stores.segment_before (Nat.le_refl _) (by omega)]

end Stores

/-- Store items in the ring one by one. -/
def storeEach (base size : Nat) (memory : Nat → α) : Nat → List α → (Nat → α)
  | _, [] => memory
  | index, item :: rest =>
    storeEach base size (overwrite memory (base + index % size) [item]) (index + 1) rest

theorem stores_storeEach {items : List α} (room : items.length ≤ size) :
    Stores base size memory (storeEach base size memory index items) index items := by
  induction items generalizing memory index with
  | nil => exact ⟨rfl, fun _ _ => rfl⟩
  | cons item rest ih =>
    rw [List.length_cons] at room
    have inside : index % size < size := Nat.mod_lt _ (by omega)
    have first : Stores base size memory (overwrite memory (base + index % size) [item])
        index [item] :=
      Stores.of_mod (Stores.of_overwrite inside)
    exact first.append (ih (by omega)) (by simpa [Nat.add_comm] using room)

/-! ## Words -/

/-- The words of 32 bits that octets hold; octets at the end that are too few for one are left
out. -/
def words : List (BitVec 8) → List (BitVec 32)
  | first :: second :: third :: fourth :: rest =>
    headNumber 32 4 [first, second, third, fourth] :: words rest
  | _ => []

/-- The octets of words. -/
def wordOctets (items : List (BitVec 32)) : List (BitVec 8) := items.flatMap (leOctets 4)

@[simp] theorem wordOctets_nil : wordOctets [] = [] := rfl

@[simp] theorem wordOctets_append (items more : List (BitVec 32)) :
    wordOctets (items ++ more) = wordOctets items ++ wordOctets more :=
  List.flatMap_append

theorem wordOctets_cons (item : BitVec 32) (items : List (BitVec 32)) :
    wordOctets (item :: items) = leOctets 4 item ++ wordOctets items :=
  List.flatMap_cons

@[simp] theorem length_wordOctets (items : List (BitVec 32)) :
    (wordOctets items).length = 4 * items.length := by
  induction items with
  | nil => rfl
  | cons item items ih =>
    rw [wordOctets_cons, List.length_append, length_leOctets, List.length_cons]
    omega

@[simp] theorem words_wordOctets (items : List (BitVec 32)) :
    words (wordOctets items) = items := by
  induction items with
  | nil => rfl
  | cons item items ih =>
    have first : headNumber 32 4 (leOctets 4 item ++ []) = item :=
      headNumber_append (by omega) item []
    rw [List.append_nil] at first
    rw [wordOctets_cons]
    have split : words (leOctets 4 item ++ wordOctets items) =
        headNumber 32 4 (leOctets 4 item) :: words (wordOctets items) := rfl
    rw [split, first, ih]

theorem wordOctets_words (whole : 4 ∣ octets.length) :
    wordOctets (words octets) = octets := by
  fun_induction words octets with
  | case1 first second third fourth rest ih =>
    have shorter : 4 ∣ rest.length := by
      have all : 4 ∣ rest.length + 4 := whole
      exact (Nat.dvd_add_left (Nat.dvd_refl 4)).mp all
    have octets : leOctets 4 (headNumber 32 4 [first, second, third, fourth]) =
        [first, second, third, fourth] := by
      simp only [leOctets, headNumber, List.take, octetsNat, natOctets, BitVec.toNat_ofNat]
      simp only [List.cons.injEq, and_true]
      refine ⟨?_, ?_, ?_, ?_⟩ <;>
        · apply BitVec.eq_of_toNat_eq
          rw [BitVec.toNat_ofNat]
          omega
    rw [wordOctets_cons, octets, ih shorter]
    rfl
  | case2 octets short =>
    rcases octets with _ | ⟨first, _ | ⟨second, _ | ⟨third, _ | ⟨fourth, rest⟩⟩⟩⟩
    · rfl
    · have short : 4 ∣ 1 := whole
      omega
    · have short : 4 ∣ 2 := whole
      omega
    · have short : 4 ∣ 3 := whole
      omega
    · exact absurd rfl (short first second third fourth rest)

end Lib
