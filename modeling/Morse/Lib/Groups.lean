import Mathlib.Order.Lattice
import Mathlib.Data.List.Nodup
import Mathlib.Data.List.Pairwise
import Mathlib.Order.Defs.LinearOrder
import Mathlib.Tactic.Tauto

/-!
# Items kept in groups of one value

Items are kept in lists, one for each value, and the lists in ascending order
of their values.  No item is kept twice and no list stays empty: the list of a
value is put in its place with its first item, and goes with its last.
-/

namespace Lib

universe u v

variable {Item : Type u} {Value : Type v} [LinearOrder Value] {value : Item → Value}
  {groups : List (List Item)}

/-- The groups hold items of one value each, in ascending order of the values. -/
structure Grouped (value : Item → Value) (groups : List (List Item)) : Prop where
  nonempty : ∀ group ∈ groups, group ≠ []
  distinct : groups.flatten.Nodup
  same : ∀ group ∈ groups, ∀ first ∈ group, ∀ second ∈ group, value first = value second
  ascending : groups.Pairwise fun former latter =>
    ∀ first ∈ former, ∀ second ∈ latter, value first < value second

theorem Grouped.nil : Grouped value [] :=
  ⟨by rintro _ ⟨⟩, .nil, by rintro _ ⟨⟩, .nil⟩

theorem Grouped.congr (grouped : Grouped value groups)
    (agree : ∀ item ∈ groups.flatten, other item = value item) :
    Grouped other groups where
  nonempty := grouped.nonempty
  distinct := grouped.distinct
  same group member first firstIn second secondIn := by
    rw [agree first (List.mem_flatten.mpr ⟨group, member, firstIn⟩),
      agree second (List.mem_flatten.mpr ⟨group, member, secondIn⟩)]
    exact grouped.same group member first firstIn second secondIn
  ascending := by
    refine grouped.ascending.imp_of_mem ?_
    intro former latter formerIn latterIn less first firstIn second secondIn
    rw [agree first (List.mem_flatten.mpr ⟨former, formerIn, firstIn⟩),
      agree second (List.mem_flatten.mpr ⟨latter, latterIn, secondIn⟩)]
    exact less first firstIn second secondIn

theorem Grouped.tail (grouped : Grouped value (group :: groups)) :
    Grouped value groups where
  nonempty other member := grouped.nonempty other (List.mem_cons_of_mem _ member)
  distinct := (List.nodup_append.mp grouped.distinct).2.1
  same other member := grouped.same other (List.mem_cons_of_mem _ member)
  ascending := grouped.ascending.of_cons

theorem Grouped.mem_of_value_eq (grouped : Grouped value groups) (member : group ∈ groups)
    (firstIn : first ∈ group) (secondIn : second ∈ groups.flatten)
    (equal : value first = value second) :
    second ∈ group := by
  obtain ⟨other, otherIn, inOther⟩ := List.mem_flatten.mp secondIn
  obtain ⟨before, after, rfl⟩ := List.append_of_mem member
  have ascending := List.pairwise_append.mp grouped.ascending
  rcases List.mem_append.mp otherIn with earlier | later
  · have less := ascending.2.2 other earlier group List.mem_cons_self second inOther first firstIn
    exact absurd equal.symm (ne_of_lt less)
  · rcases List.mem_cons.mp later with rfl | later
    · exact inOther
    · have less := (List.pairwise_cons.mp ascending.2.1).1 other later first firstIn second inOther
      exact absurd equal (ne_of_lt less)

/-! ## What is left of some of the items -/

/-- The groups of those items only that are to be kept. -/
def restrict (keep : Item → Bool) (groups : List (List Item)) : List (List Item) :=
  (groups.map fun group => group.filter keep).filter fun group => group ≠ []

@[simp] theorem restrict_nil (keep : Item → Bool) :
    restrict keep [] = [] :=
  rfl

theorem restrict_cons (keep : Item → Bool) (group : List Item) (rest : List (List Item)) :
    restrict keep (group :: rest) =
      if group.filter keep = [] then restrict keep rest
      else group.filter keep :: restrict keep rest := by
  unfold restrict
  rw [List.map_cons, List.filter_cons]
  split
  · next kept => rw [if_neg (of_decide_eq_true kept)]
  · next left =>
      rw [if_pos]
      by_contra kept
      exact left (decide_eq_true kept)

theorem restrict_restrict (kept : ∀ item, keep item = true → before item = true)
    (groups : List (List Item)) :
    restrict keep (restrict before groups) = restrict keep groups := by
  have filtered : ∀ group : List Item, (group.filter before).filter keep = group.filter keep := by
    intro group
    rw [List.filter_filter]
    apply List.filter_congr
    intro item _
    rw [Bool.and_eq_left_iff_imp]
    exact kept item
  induction groups with
  | nil => rfl
  | cons group rest ih =>
    rw [restrict_cons, restrict_cons, ← filtered group]
    split
    · next none => rw [ih, none, List.filter_nil, if_pos rfl]
    · rw [restrict_cons, ih]

/-! ## Taking an item out -/

section Unlinking

variable [DecidableEq Item]

/-- The groups without an item, and without its group when that was its last. -/
def unlink (item : Item) : List (List Item) → List (List Item)
  | [] => []
  | group :: rest =>
    if item ∈ group then
      if group.erase item = [] then rest else group.erase item :: rest
    else group :: unlink item rest

theorem flatten_unlink (item : Item) (groups : List (List Item)) :
    (unlink item groups).flatten = groups.flatten.erase item := by
  induction groups with
  | nil => rfl
  | cons group rest ih =>
    rw [unlink, List.flatten_cons, List.erase_append]
    split
    · split
      · next emptied => rw [emptied, List.nil_append]
      · rfl
    · rw [List.flatten_cons, ih]

theorem unlink_of_not_mem (absent : item ∉ groups.flatten) :
    unlink item groups = groups := by
  induction groups with
  | nil => rfl
  | cons group rest ih =>
    rw [List.flatten_cons, List.mem_append, not_or] at absent
    rw [unlink, if_neg absent.1, ih absent.2]

theorem foldl_unlink_of_not_mem {gone : List Item} (absent : ∀ item ∈ gone, item ∉ groups.flatten) :
    gone.foldl (fun groups item => unlink item groups) groups = groups := by
  induction gone with
  | nil => rfl
  | cons item gone ih =>
    rw [List.foldl_cons, unlink_of_not_mem (absent item List.mem_cons_self)]
    exact ih fun other member => absent other (List.mem_cons_of_mem _ member)

theorem exists_of_mem_unlink (member : group ∈ unlink item groups) :
    ∃ whole ∈ groups, group.Sublist whole ∧ (group = whole ∨ group ≠ []) := by
  induction groups with
  | nil => cases member
  | cons first rest ih =>
    simp only [unlink] at member
    split at member
    · split at member
      · exact ⟨group, List.mem_cons_of_mem _ member, .refl _, .inl rfl⟩
      · next left =>
          rcases List.mem_cons.mp member with rfl | member
          · exact ⟨first, List.mem_cons_self, List.erase_sublist, .inr left⟩
          · exact ⟨group, List.mem_cons_of_mem _ member, .refl _, .inl rfl⟩
    · rcases List.mem_cons.mp member with rfl | member
      · exact ⟨group, List.mem_cons_self, .refl _, .inl rfl⟩
      · obtain ⟨whole, wholeIn, part⟩ := ih member
        exact ⟨whole, List.mem_cons_of_mem _ wholeIn, part⟩

theorem Grouped.unlink (grouped : Grouped value groups) (item : Item) :
    Grouped value (unlink item groups) where
  nonempty group member := by
    obtain ⟨whole, wholeIn, _, rfl | left⟩ := exists_of_mem_unlink member
    · exact grouped.nonempty _ wholeIn
    · exact left
  distinct := by
    rw [flatten_unlink]
    exact grouped.distinct.erase item
  same group member first firstIn second secondIn := by
    obtain ⟨whole, wholeIn, part, _⟩ := exists_of_mem_unlink member
    exact grouped.same whole wholeIn first (part.subset firstIn) second (part.subset secondIn)
  ascending := by
    have ascending := grouped.ascending
    clear grouped
    induction groups with
    | nil => exact .nil
    | cons group rest ih =>
      rw [List.pairwise_cons] at ascending
      simp only [Lib.unlink]
      split
      · split
        · exact ascending.2
        · refine List.pairwise_cons.mpr ⟨?_, ascending.2⟩
          intro latter latterIn first firstIn
          exact ascending.1 latter latterIn first (List.mem_of_mem_erase firstIn)
      · refine List.pairwise_cons.mpr ⟨?_, ih ascending.2⟩
        intro latter latterIn first firstIn second secondIn
        obtain ⟨whole, wholeIn, part, _⟩ := exists_of_mem_unlink latterIn
        exact ascending.1 whole wholeIn first firstIn second (part.subset secondIn)

theorem Grouped.foldl_unlink (grouped : Grouped value groups) (gone : List Item) :
    Grouped value (gone.foldl (fun groups item => Lib.unlink item groups) groups) := by
  induction gone generalizing groups with
  | nil => exact grouped
  | cons item gone ih => exact ih (grouped.unlink item)

theorem exists_of_mem_foldl_unlink {gone : List Item}
    (member : group ∈ gone.foldl (fun groups item => unlink item groups) groups) :
    ∃ whole ∈ groups, group.Sublist whole := by
  induction gone generalizing groups with
  | nil => exact ⟨group, member, .refl _⟩
  | cons item gone ih =>
    obtain ⟨middle, middleIn, part⟩ := ih member
    obtain ⟨whole, wholeIn, rest, _⟩ := exists_of_mem_unlink middleIn
    exact ⟨whole, wholeIn, part.trans rest⟩

theorem Grouped.mem_foldl_unlink (grouped : Grouped value groups) {gone : List Item} :
    item ∈ (gone.foldl (fun groups item => Lib.unlink item groups) groups).flatten ↔
      item ∈ groups.flatten ∧ item ∉ gone := by
  induction gone generalizing groups with
  | nil => simp
  | cons first gone ih =>
    rw [List.foldl_cons, ih (grouped.unlink first), flatten_unlink,
      grouped.distinct.mem_erase_iff, List.mem_cons]
    tauto

theorem restrict_unlink (left : keep item = false) :
    restrict keep (unlink item groups) = restrict keep groups := by
  have erased : ∀ group : List Item, (group.erase item).filter keep = group.filter keep := by
    intro group
    rw [← List.erase_filter]
    apply List.erase_of_not_mem
    intro member
    rw [(List.mem_filter.mp member).2] at left
    cases left
  induction groups with
  | nil => rfl
  | cons group rest ih =>
    rw [unlink]
    split
    · split
      · next emptied =>
          rw [restrict_cons, ← erased group, emptied, List.filter_nil, if_pos rfl]
      · rw [restrict_cons, restrict_cons, erased group]
    · rw [restrict_cons, restrict_cons, ih]

theorem restrict_foldl_unlink {gone : List Item} (left : ∀ item ∈ gone, keep item = false) :
    restrict keep (gone.foldl (fun groups item => unlink item groups) groups) =
      restrict keep groups := by
  induction gone generalizing groups with
  | nil => rfl
  | cons item gone ih =>
    have others : ∀ other ∈ gone, keep other = false :=
      fun other member => left other (List.mem_cons_of_mem _ member)
    rw [List.foldl_cons, ih others]
    exact restrict_unlink (left item List.mem_cons_self)

end Unlinking

/-! ## Putting an item in -/

/-- Where the group of a value stands between the others, empty when there is
none of it yet. -/
structure Located
    (value : Item → Value)
    (groups : List (List Item))
    (sought : Value)
    (before : List (List Item))
    (group : List Item)
    (after : List (List Item)) : Prop where
  split : groups = before ++ (if group = [] then after else group :: after)
  below : ∀ other ∈ before, ∀ item ∈ other, value item < sought
  equal : ∀ item ∈ group, value item = sought
  above : ∀ other ∈ after, ∀ item ∈ other, sought < value item

variable {before after : List (List Item)} {group entered : List Item} {sought : Value}
  {item : Item}

theorem Located.flatten_eq (located : Located value groups sought before group after) :
    groups.flatten = before.flatten ++ (group ++ after.flatten) := by
  rw [located.split, List.flatten_append]
  split
  · next none => rw [none, List.nil_append]
  · rw [List.flatten_cons]

theorem Located.mem_of_mem (located : Located value groups sought before group after)
    (member : other ∈ before ∨ other ∈ after) :
    other ∈ groups := by
  rw [located.split, List.mem_append]
  refine member.imp_right fun member => ?_
  split
  · exact member
  · exact List.mem_cons_of_mem _ member

theorem Located.flatten_perm (located : Located value groups sought before group after)
    (put : entered.Perm (item :: group)) :
    (before ++ entered :: after).flatten.Perm (item :: groups.flatten) := by
  rw [located.flatten_eq, List.flatten_append]
  exact ((put.append_right _).append_left _).trans List.perm_middle

theorem Grouped.enter (grouped : Grouped value groups)
    (located : Located value groups sought before group after) (put : entered.Perm (item :: group))
    (fits : value item = sought) (apart : item ∉ groups.flatten) :
    Grouped value (before ++ entered :: after) := by
  have valued : ∀ other ∈ entered, value other = sought := by
    intro other otherIn
    rcases List.mem_cons.mp (put.mem_iff.mp otherIn) with rfl | otherIn
    · exact fits
    · exact located.equal other otherIn
  have filled : entered ≠ [] := by
    intro empty
    rw [empty] at put
    exact List.cons_ne_nil _ _ put.symm.eq_nil
  have parts : ∀ other ∈ before ++ entered :: after, other = entered ∨ other ∈ groups := by
    intro other member
    rcases List.mem_append.mp member with member | member
    · exact .inr (located.mem_of_mem (.inl member))
    · exact (List.mem_cons.mp member).imp_right fun member => located.mem_of_mem (.inr member)
  refine ⟨?_, ?_, ?_, ?_⟩
  · intro other member
    rcases parts other member with rfl | member
    · exact filled
    · exact grouped.nonempty other member
  · rw [(located.flatten_perm put).nodup_iff, List.nodup_cons]
    exact ⟨apart, grouped.distinct⟩
  · intro other member first firstIn second secondIn
    rcases parts other member with rfl | member
    · rw [valued first firstIn, valued second secondIn]
    · exact grouped.same other member first firstIn second secondIn
  · have ascending := grouped.ascending
    rw [located.split, List.pairwise_append] at ascending
    have rest : after.Pairwise fun former latter =>
        ∀ first ∈ former, ∀ second ∈ latter, value first < value second := by
      have later := ascending.2.1
      split at later
      · exact later
      · exact later.of_cons
    refine List.pairwise_append.mpr ⟨ascending.1, List.pairwise_cons.mpr ⟨?_, rest⟩, ?_⟩
    · intro latter latterIn first firstIn second secondIn
      rw [valued first firstIn]
      exact located.above latter latterIn second secondIn
    · intro former formerIn latter latterIn first firstIn second secondIn
      have less := located.below former formerIn first firstIn
      rcases List.mem_cons.mp latterIn with rfl | latterIn
      · rw [valued second secondIn]
        exact less
      · exact lt_trans less (located.above latter latterIn second secondIn)

end Lib
