import Mathlib.Data.List.Count
import Mathlib.Data.List.Nodup
import Mathlib.Data.List.Perm.Subperm

/-!
# Lists that are filled without repeats

An item is put at the end of a list that does not have it.  The distinct values of a list are at
most as many as the places where its value changes.  Items under different labels are written out
as often as under their own.
-/

namespace Lib

variable {Item Key Mark : Type}

/-! ## Appending what is new -/

section AppendNew

variable [DecidableEq Item]

/-- The item goes to the end of the list, unless the list has it. -/
def appendNew (list : List Item) (item : Item) : List Item :=
  if item ∈ list then list else list ++ [item]

theorem mem_appendNew {item other : Item} :
    other ∈ appendNew list item ↔ other ∈ list ∨ other = item := by
  unfold appendNew
  split
  case isTrue present =>
    refine ⟨Or.inl, ?_⟩
    rintro (old | rfl)
    · exact old
    · exact present
  case isFalse => rw [List.mem_append, List.mem_singleton]

theorem nodup_appendNew (nodup : list.Nodup) (item : Item) :
    (appendNew list item).Nodup := by
  unfold appendNew
  split
  · exact nodup
  case isFalse absent =>
    apply nodup.append (List.nodup_singleton item)
    exact List.disjoint_singleton.mpr absent

theorem length_appendNew_le (list : List Item) (item : Item) :
    (appendNew list item).length ≤ list.length + 1 := by
  unfold appendNew
  split
  · exact Nat.le_succ _
  · apply Nat.le_of_eq
    rw [List.length_append, List.length_singleton]

theorem mem_foldl_appendNew {items list : List Item} :
    other ∈ items.foldl appendNew list ↔ other ∈ list ∨ other ∈ items := by
  induction items generalizing list with
  | nil => simp only [List.foldl_nil, List.not_mem_nil, or_false]
  | cons item items ih =>
    rw [List.foldl_cons, ih, mem_appendNew, List.mem_cons, or_assoc]

theorem nodup_foldl_appendNew (nodup : list.Nodup) (items : List Item) :
    (items.foldl appendNew list).Nodup := by
  induction items generalizing list with
  | nil => exact nodup
  | cons item items ih => exact ih (nodup_appendNew nodup item)

theorem length_foldl_appendNew_le (items list : List Item) :
    (items.foldl appendNew list).length ≤ list.length + items.length := by
  induction items generalizing list with
  | nil => exact Nat.le_refl _
  | cons item items ih =>
    have first := length_appendNew_le list item
    have rest := ih (appendNew list item)
    rw [List.foldl_cons, List.length_cons]
    omega

end AppendNew

/-! ## Counting changes -/

section Changes

variable [DecidableEq Mark]

/-- How often the mark differs from the one before. -/
def changes (mark : Item → Mark) : Mark → List Item → Nat
  | _, [] => 0
  | last, item :: rest =>
    if mark item ≠ last then changes mark (mark item) rest + 1 else changes mark last rest

theorem changes_le_length (mark : Item → Mark) (last : Mark) (items : List Item) :
    changes mark last items ≤ items.length := by
  induction items generalizing last with
  | nil => exact Nat.le_refl _
  | cons first rest ih =>
    unfold changes
    split
    · exact Nat.succ_le_succ (ih _)
    · exact Nat.le_succ_of_le (ih _)

variable [DecidableEq Key]

theorem length_le_changes {key : Mark → Key} {last : Mark} {items : List Item} {keys : List Key}
    (nodup : keys.Nodup)
    (covered : ∀ value ∈ keys, ∃ item ∈ items, mark item ≠ last ∧ key (mark item) = value) :
    keys.length ≤ changes mark last items := by
  induction items generalizing last keys with
  | nil =>
    cases keys with
    | nil => exact Nat.le_refl _
    | cons value _ =>
      obtain ⟨item, inside, _⟩ := covered value List.mem_cons_self
      exact absurd inside List.not_mem_nil
  | cons first rest ih =>
    unfold changes
    split
    case isTrue _ =>
      -- The key of the first item is taken out, the others are found in the rest.
      have others := @ih (mark first) (keys.erase (key (mark first)))
        (nodup.erase _) (by
          intro value kept
          obtain ⟨differs, present⟩ := nodup.mem_erase_iff.mp kept
          obtain ⟨item, inside, _, named⟩ := covered value present
          have moved : mark item ≠ mark first := by
            intro same
            rw [same] at named
            exact differs named.symm
          refine ⟨item, ?_, moved, named⟩
          apply (List.mem_cons.mp inside).resolve_left
          rintro rfl
          exact moved rfl)
      have size := List.length_erase (a := key (mark first)) (l := keys)
      split at size <;> omega
    case isFalse same =>
      apply ih nodup
      intro value present
      obtain ⟨item, inside, moved, named⟩ := covered value present
      refine ⟨item, ?_, moved, named⟩
      apply (List.mem_cons.mp inside).resolve_left
      rintro rfl
      exact moved (not_not.mp same)

end Changes

/-! ## Items under labels -/

section Labels

variable {Label : Type} [DecidableEq Item] {label : Item → Label} {items : Label → List Item}

theorem count_flatMap_of_notMem (own : ∀ name, ∀ item ∈ items name, label item = name)
    (names : List Label) (missing : label item ∉ names) :
    (names.flatMap items).count item = 0 := by
  refine List.count_eq_zero.mpr fun member => missing ?_
  obtain ⟨name, listed, found⟩ := List.mem_flatMap.mp member
  rw [own name item found]
  exact listed

theorem count_flatMap_of_mem (own : ∀ name, ∀ item ∈ items name, label item = name)
    {names : List Label} (distinct : names.Nodup) (listed : label item ∈ names) :
    (names.flatMap items).count item = (items (label item)).count item := by
  induction names with
  | nil => cases listed
  | cons name rest ih =>
    obtain ⟨fresh, others⟩ := List.nodup_cons.mp distinct
    rw [List.flatMap_cons, List.count_append]
    rcases List.mem_cons.mp listed with same | later
    · rw [← same, count_flatMap_of_notMem own rest (same ▸ fresh), Nat.add_zero]
    · have elsewhere : item ∉ items name := fun found => fresh (own name item found ▸ later)
      rw [List.count_eq_zero.mpr elsewhere, Nat.zero_add, ih others later]

end Labels

end Lib
