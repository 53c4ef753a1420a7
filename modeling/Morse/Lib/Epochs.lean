import Mathlib.Data.List.Chain
import Mathlib.Data.List.Forall2
import Mathlib.Data.Nat.Basic

/-!
# Counting the turns of a number that goes round

A number that only goes up until it starts again is told apart from its earlier
turns by a counter that advances whenever the number is seen to go down.  The
counter and the number together then never go down, whatever the order the
numbers come in.
-/

namespace Lib

universe u v

/-- A number and how many times one was seen to go down. -/
@[ext] structure Stamp where
  value : Nat
  turns : Nat
  deriving DecidableEq, Repr

namespace Stamp

/-- The stamp of the next number. -/
def next (stamp : Stamp) (value : Nat) : Stamp where
  value := value
  turns := if value < stamp.value then stamp.turns + 1 else stamp.turns

/-- A stamp comes before another, or is the same. -/
def Le (first second : Stamp) : Prop :=
  first.turns < second.turns ∨ first.turns = second.turns ∧ first.value ≤ second.value

theorem Le.trans (former : Le first second)
    (latter : Le second third) : Le first third := by
  unfold Le at *
  omega

theorem le_next (stamp : Stamp) (value : Nat) : Le stamp (stamp.next value) := by
  unfold Le next
  dsimp only
  split <;> omega

theorem next_next (stamp : Stamp) (value : Nat) :
    (stamp.next value).next value = stamp.next value := by
  have notBelow : ¬ value < (stamp.next value).value := Nat.lt_irrefl value
  rw [next, if_neg notBelow]
  rfl

theorem Le.eq_of_eq (former : Le first second) (latter : Le second third) (equal : first = third) :
    first = second := by
  subst equal
  cases first
  cases second
  simp only [Le, mk.injEq] at *
  omega

end Stamp

section Items

variable {Item : Type u} {Tag : Type v} (value : Item → Nat)

/-- The items with the stamps of their numbers. -/
def stamped (stamp : Stamp) : List Item → List (Item × Stamp)
  | [] => []
  | item :: rest => (item, stamp.next (value item)) :: stamped (stamp.next (value item)) rest

/-- How many times the number of an item is below the one before. -/
def turnsFrom (last : Nat) : List Item → Nat
  | [] => 0
  | item :: rest => (if value item < last then 1 else 0) + turnsFrom (value item) rest

variable {value} {stamp : Stamp} {items : List Item}

theorem pairwise_stamped :
    (stamped value stamp items).Pairwise (fun first second => first.2.Le second.2) ∧
      ∀ item ∈ stamped value stamp items, stamp.Le item.2 := by
  induction items generalizing stamp with
  | nil => exact ⟨.nil, by rintro _ ⟨⟩⟩
  | cons item rest ih =>
    obtain ⟨ordered, after⟩ := @ih (stamp.next (value item))
    have ahead := stamp.le_next (value item)
    refine ⟨List.pairwise_cons.mpr ⟨after, ordered⟩, ?_⟩
    intro other member
    rcases List.mem_cons.mp member with rfl | member
    · exact ahead
    · exact ahead.trans (after other member)

theorem turns_le_of_mem (member : item ∈ stamped value stamp items) :
    item.2.turns ≤ stamp.turns + turnsFrom value stamp.value items := by
  induction items generalizing stamp with
  | nil => cases member
  | cons first rest ih =>
    have next : (stamp.next (value first)).turns =
        stamp.turns + if value first < stamp.value then 1 else 0 := by
      unfold Stamp.next
      split <;> rfl
    rw [turnsFrom]
    rcases List.mem_cons.mp member with rfl | member
    · dsimp only
      omega
    · have bound := ih member
      have valued : (stamp.next (value first)).value = value first := rfl
      rw [valued] at bound
      omega

theorem pairwise_tag_of_isChain {stampedItems : List (Item × Stamp)} {tag : Item → Tag}
    (ordered : stampedItems.Pairwise fun first second => first.2.Le second.2)
    (adjacent : stampedItems.IsChain fun first second =>
      first.2 = second.2 → tag first.1 = tag second.1) :
    stampedItems.Pairwise fun first second => first.2 = second.2 → tag first.1 = tag second.1 := by
  induction stampedItems with
  | nil => exact .nil
  | cons first rest ih =>
    cases rest with
    | nil => exact List.pairwise_singleton _ _
    | cons second rest =>
      obtain ⟨before, ordered⟩ := List.pairwise_cons.mp ordered
      rw [List.isChain_cons_cons] at adjacent
      have later := ih ordered adjacent.2
      refine List.pairwise_cons.mpr ⟨?_, later⟩
      intro third member equal
      rcases List.mem_cons.mp member with rfl | member
      · exact adjacent.1 equal
      · have between := (before second List.mem_cons_self).eq_of_eq
          ((List.pairwise_cons.mp ordered).1 third member) equal
        exact (adjacent.1 between).trans
          ((List.pairwise_cons.mp later).1 third member (between.symm.trans equal))

theorem map_fst_stamped : (stamped value stamp items).map Prod.fst = items := by
  induction items generalizing stamp with
  | nil => rfl
  | cons item rest ih => rw [stamped, List.map_cons, ih]

theorem value_of_mem_stamped (member : item ∈ stamped value stamp items) :
    item.2.value = value item.1 := by
  induction items generalizing stamp with
  | nil => cases member
  | cons first rest ih =>
    rcases List.mem_cons.mp member with rfl | member
    · rfl
    · exact ih member

theorem isChain_stamped :
    (stamped value stamp items).IsChain fun first second =>
      value first.1 = value second.1 → first.2 = second.2 := by
  induction items generalizing stamp with
  | nil => exact .nil
  | cons first rest ih =>
    cases rest with
    | nil => exact .singleton _
    | cons second rest =>
      have later := @ih (stamp.next (value first))
      rw [stamped, stamped, List.isChain_cons_cons]
      refine ⟨?_, later⟩
      intro same
      rw [same]
      exact (Stamp.next_next _ _).symm

theorem pairwise_tag_stamped_iff {tag : Item → Tag} :
    ((stamped value stamp items).Pairwise fun first second =>
        first.2 = second.2 → tag first.1 = tag second.1) ↔
      items.IsChain fun first second => value first = value second → tag first = tag second := by
  constructor
  · intro apart
    have chain : (stamped value stamp items).IsChain fun first second =>
        value first.1 = value second.1 → tag first.1 = tag second.1 := by
      rw [List.isChain_iff_getElem]
      intro index inside same
      exact List.isChain_iff_getElem.mp apart.isChain index inside
        (List.isChain_iff_getElem.mp isChain_stamped index inside same)
    rw [← @map_fst_stamped _ value stamp items, List.isChain_map]
    exact chain
  · intro adjacent
    rw [← @map_fst_stamped _ value stamp items,
      List.isChain_map] at adjacent
    refine pairwise_tag_of_isChain pairwise_stamped.1 ?_
    refine adjacent.imp_of_mem_imp ?_
    intro first second firstMember secondMember tagged same
    refine tagged ?_
    rw [← value_of_mem_stamped firstMember, ← value_of_mem_stamped secondMember, same]

theorem turnsFrom_le_length (last : Nat) : turnsFrom value last items ≤ items.length := by
  induction items generalizing last with
  | nil => exact Nat.le_refl _
  | cons item rest ih =>
    have later := ih (value item)
    rw [turnsFrom, List.length_cons]
    split <;> omega

end Items

end Lib
