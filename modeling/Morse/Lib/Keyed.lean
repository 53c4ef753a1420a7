import Mathlib.Data.List.Perm.Basic
import Mathlib.Algebra.BigOperators.Group.List.Basic

/-!
# Lists of items told apart by a key

An intrusive list holds items by identity: an item is removed, or another is
put before it, by its key alone.  While no key occurs twice these operations
move exactly the item meant, so that counts, lengths and weights follow.
-/

namespace Lib

universe u v

variable {Item : Type u} {Key : Type v} [DecidableEq Key] (key : Item → Key)

/-- How often a key occurs. -/
def keyCount (sought : Key) (items : List Item) : Nat := (items.map key).count sought

@[simp] theorem keyCount_nil (sought : Key) : keyCount key sought [] = 0 := rfl

@[simp] theorem keyCount_cons (sought : Key) (item : Item) (items : List Item) :
    keyCount key sought (item :: items) =
      keyCount key sought items + if key item = sought then 1 else 0 := by
  simp [keyCount, List.count_cons]

@[simp] theorem keyCount_append (sought : Key) (first second : List Item) :
    keyCount key sought (first ++ second) =
      keyCount key sought first + keyCount key sought second := by
  simp [keyCount]

theorem keyCount_congr (permutation : first.Perm second) (sought : Key) :
    keyCount key sought first = keyCount key sought second :=
  (permutation.map key).count_eq sought

theorem keyCount_pos_of_mem (member : item ∈ items) :
    0 < keyCount key (key item) items :=
  List.count_pos_iff.mpr (List.mem_map_of_mem member)

/-- The list without the first item of that key. -/
def removeKey (sought : Key) (items : List Item) : List Item :=
  items.eraseP fun item => key item = sought

/-- The list with an item put before the first one of that key, or at the end. -/
def insertBefore (sought : Key) (new : Item) : List Item → List Item
  | [] => [new]
  | item :: rest =>
    if key item = sought then new :: item :: rest else item :: insertBefore sought new rest

@[simp] theorem removeKey_cons_self (item : Item) (items : List Item) :
    removeKey key (key item) (item :: items) = items := by
  simp [removeKey]

theorem removeKey_of_keyCount_eq_zero (absent : keyCount key sought items = 0) :
    removeKey key sought items = items := by
  apply List.eraseP_of_forall_not
  intro item member equal
  have occurs := keyCount_pos_of_mem key member
  rw [of_decide_eq_true equal] at occurs
  omega

theorem perm_removeKey (member : item ∈ items) (alone : keyCount key (key item) items ≤ 1) :
    (item :: removeKey key (key item) items).Perm items := by
  induction items with
  | nil => cases member
  | cons first rest ih =>
    rcases List.mem_cons.mp member with rfl | member
    · rw [removeKey_cons_self]
    · have occurs := keyCount_pos_of_mem key member
      have distinct : key first ≠ key item := by
        intro equal
        simp only [keyCount_cons, equal, if_true] at alone
        omega
      rw [keyCount_cons, if_neg distinct] at alone
      simp only [removeKey, List.eraseP_cons, distinct, decide_false, cond_false]
      exact (List.Perm.swap first item _).trans ((ih member alone).cons first)

theorem eq_of_key_eq (firstMember : first ∈ items) (secondMember : second ∈ items)
    (alone : keyCount key (key first) items ≤ 1) (same : key second = key first) :
    second = first := by
  have permutation := perm_removeKey key firstMember alone
  rcases List.mem_cons.mp (permutation.mem_iff.mpr secondMember) with equal | other
  · exact equal
  · have occurs := keyCount_pos_of_mem key other
    have counted := keyCount_congr key permutation (key first)
    rw [keyCount_cons, if_pos rfl] at counted
    rw [same] at occurs
    omega

theorem removeKey_append_cons {item : Item} (first : keyCount key (key item) front = 0) :
    removeKey key (key item) (front ++ item :: rest) = front ++ rest := by
  induction front with
  | nil => exact removeKey_cons_self key item rest
  | cons other front ih =>
    rw [keyCount_cons, Nat.add_eq_zero_iff] at first
    have distinct : key other ≠ key item := by
      intro same
      rw [if_pos same] at first
      exact absurd first.2 Nat.one_ne_zero
    have remaining := ih first.1
    unfold removeKey at remaining ⊢
    rw [List.cons_append, List.eraseP_cons_of_neg (by simpa using distinct), remaining]
    rfl

theorem insertBefore_append_cons (first : keyCount key (key item) front = 0) (new : Item) :
    insertBefore key (key item) new (front ++ item :: rest) = front ++ new :: item :: rest := by
  induction front with
  | nil => exact if_pos rfl
  | cons other front ih =>
    rw [keyCount_cons, Nat.add_eq_zero_iff] at first
    have distinct : key other ≠ key item := by
      intro same
      rw [if_pos same] at first
      exact absurd first.2 Nat.one_ne_zero
    simp only [List.cons_append, insertBefore, if_neg distinct, ih first.1]

theorem perm_insertBefore (sought : Key) (new : Item) (items : List Item) :
    (insertBefore key sought new items).Perm (new :: items) := by
  induction items with
  | nil => exact .refl _
  | cons first rest ih =>
    simp only [insertBefore]
    split
    · exact .refl _
    · exact (ih.cons first).trans (.swap new first rest)

theorem perm_cons_filter_key {items : List Item} (member : item ∈ items)
    (distinct : (items.map key).Nodup) :
    items.Perm (item :: items.filter fun other => key other ≠ key item) := by
  induction items with
  | nil => cases member
  | cons first rest ih =>
    rw [List.map_cons, List.nodup_cons] at distinct
    rcases List.mem_cons.mp member with rfl | later
    · rw [List.filter_cons_of_neg (by simp), List.filter_eq_self.mpr]
      intro other occurs
      refine decide_eq_true fun same => distinct.1 ?_
      rw [← same]
      exact List.mem_map_of_mem occurs
    · have apart : key first ≠ key item := fun same =>
        distinct.1 (same ▸ List.mem_map_of_mem later)
      rw [List.filter_cons_of_pos (by simpa using apart)]
      exact ((ih later distinct.2).cons first).trans (.swap item first _)

end Lib
