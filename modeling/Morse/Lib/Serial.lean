import Mathlib.Data.BitVec
import Mathlib.Data.List.Perm.Basic

/-!
# Serial numbers and plain comparison

Serial numbers are counted modulo `2 ^ w`.  Seen from the oldest one still in
use, the base, they have an age order, in which the numbers from the base
upwards come first and those that wrapped around come after them.  A queue kept
in age order by plain comparison of the numbers stays in order exactly as long
as no insertion has to look across the wrap.
-/

namespace Lib

universe u

variable {w : Nat} {Item : Type u}

/-- How many numbers after the base a serial number is. -/
def age (base number : BitVec w) : Nat := (number - base).toNat

/-- The number was given out after the count wrapped around. -/
def Wrapped (base number : BitVec w) : Prop := number < base

instance (base number : BitVec w) : Decidable (Wrapped base number) :=
  inferInstanceAs (Decidable (number < base))

theorem age_of_not_wrapped {base number : BitVec w} (early : ¬ Wrapped base number) :
    age base number = number.toNat - base.toNat :=
  BitVec.toNat_sub_of_le (BitVec.not_lt.mp early)

theorem age_of_wrapped {base number : BitVec w} (late : Wrapped base number) :
    age base number = 2 ^ w - base.toNat + number.toNat := by
  have below : number.toNat < base.toNat := late
  exact Nat.mod_eq_of_lt (by omega)

theorem age_lt_iff_of_sameSide {base first second : BitVec w}
    (sameSide : Wrapped base first ↔ Wrapped base second) :
    age base first < age base second ↔ first < second := by
  rw [BitVec.lt_def]
  by_cases late : Wrapped base first
  · rw [age_of_wrapped late, age_of_wrapped (sameSide.mp late)]
    omega
  · have early : ¬ Wrapped base second := fun wrapped => late (sameSide.mpr wrapped)
    have firstAbove : base.toNat ≤ first.toNat := BitVec.not_lt.mp late
    rw [age_of_not_wrapped late, age_of_not_wrapped early]
    omega

theorem age_lt_of_wrapped {base first second : BitVec w} (early : ¬ Wrapped base first)
    (late : Wrapped base second) :
    age base first < age base second := by
  rw [age_of_not_wrapped early, age_of_wrapped late]
  omega

theorem lt_of_wrapped {base first second : BitVec w} (early : ¬ Wrapped base first)
    (late : Wrapped base second) :
    second < first :=
  Nat.lt_of_lt_of_le late (BitVec.not_lt.mp early)

theorem sameSide_of_age_lt {base first second : BitVec w} (older : age base first < age base second)
    (smaller : first < second) :
    Wrapped base first ↔ Wrapped base second := by
  by_cases firstLate : Wrapped base first
  · by_cases secondLate : Wrapped base second
    · exact iff_of_true firstLate secondLate
    · exact absurd older (Nat.lt_asymm (age_lt_of_wrapped secondLate firstLate))
  · by_cases secondLate : Wrapped base second
    · exact absurd smaller (BitVec.lt_asymm (lt_of_wrapped firstLate secondLate))
    · exact iff_of_false firstLate secondLate

theorem sameSide_of_between {base first middle last : BitVec w}
    (fromFirst : age base first ≤ age base middle) (toLast : age base middle ≤ age base last)
    (sameSide : Wrapped base first ↔ Wrapped base last) :
    Wrapped base middle ↔ Wrapped base last := by
  by_cases middleLate : Wrapped base middle
  · by_cases lastLate : Wrapped base last
    · exact iff_of_true middleLate lastLate
    · exact absurd (age_lt_of_wrapped lastLate middleLate) (Nat.not_lt.mpr toLast)
  · by_cases lastLate : Wrapped base last
    · exact absurd (age_lt_of_wrapped middleLate (sameSide.mpr lastLate))
        (Nat.not_lt.mpr fromFirst)
    · exact iff_of_false middleLate lastLate

/-! ## Queues of serial numbers -/

section Queue

variable (serial : Item → BitVec w) (base : BitVec w)

/-- A queue in strict age order. -/
def Ascending (items : List Item) : Prop :=
  items.Pairwise fun first second => age base (serial first) < age base (serial second)

instance (items : List Item) : Decidable (Ascending serial base items) := by
  unfold Ascending
  infer_instance

/-- The queue with an item put before the first one whose number is not
smaller. -/
def placeBefore (new : Item) : List Item → List Item
  | [] => [new]
  | item :: rest =>
    if serial new ≤ serial item then new :: item :: rest
    else item :: placeBefore new rest

/-- Insertion by plain comparison: at the end when the last number is not
larger, else before the first one that is not smaller. -/
def insertPlain (new : Item) (items : List Item) : List Item :=
  match items.getLast? with
  | none => [new]
  | some last => if serial last ≤ serial new then items ++ [new] else placeBefore serial new items

/-- A plain comparison with the queue does not look across the wrap, or only to
find that the item is the youngest of all. -/
def PlainSafe (queued : List Item) (new : Item) : Prop :=
  queued = [] ∨
    (∀ item ∈ queued, Wrapped base (serial item) ↔ Wrapped base (serial new)) ∨
    (∀ item ∈ queued, age base (serial item) < age base (serial new)) ∧
      ∃ item ∈ queued, Wrapped base (serial item) ↔ Wrapped base (serial new)

/-- The same for items inserted one after the other. -/
def PlainSafeRun : List Item → List Item → Prop
  | _, [] => True
  | queued, new :: rest => PlainSafe serial base queued new ∧ PlainSafeRun (new :: queued) rest

instance (queued : List Item) (new : Item) :
    Decidable (PlainSafe serial base queued new) := by
  unfold PlainSafe
  have empty : Decidable (queued = []) := decidable_of_iff _ List.isEmpty_iff
  infer_instance

instance decidablePlainSafeRun :
    (queued news : List Item) → Decidable (PlainSafeRun serial base queued news)
  | _, [] => .isTrue trivial
  | queued, new :: rest =>
    have := decidablePlainSafeRun (new :: queued) rest
    inferInstanceAs (Decidable (_ ∧ _))

variable {serial base}

theorem placeBefore_spec (bounded : ∃ item ∈ items, serial new ≤ serial item) :
    ∃ before next after, items = before ++ next :: after ∧
      placeBefore serial new items = before ++ new :: next :: after ∧
      (∀ item ∈ before, serial item < serial new) ∧ serial new ≤ serial next := by
  induction items with
  | nil =>
    obtain ⟨_, none, _⟩ := bounded
    cases none
  | cons item rest ih =>
    simp only [placeBefore]
    split
    · next reached => exact ⟨[], item, rest, rfl, rfl, by simp, reached⟩
    · next smaller =>
        obtain ⟨other, member, above⟩ := bounded
        rcases List.mem_cons.mp member with rfl | member
        · exact absurd above smaller
        obtain ⟨before, next, after, rfl, placed, below, reached⟩ :=
          ih ⟨other, member, above⟩
        refine ⟨item :: before, next, after, rfl, ?_, ?_, reached⟩
        · rw [placed, List.cons_append]
        · intro earlier member
          rcases List.mem_cons.mp member with rfl | member
          · exact BitVec.not_le.mp smaller
          · exact below earlier member

theorem perm_placeBefore (new : Item) (items : List Item) :
    (placeBefore serial new items).Perm (new :: items) := by
  induction items with
  | nil => exact .refl _
  | cons item rest ih =>
    simp only [placeBefore]
    split
    · exact .refl _
    · exact (ih.cons item).trans (.swap new item rest)

theorem sublist_placeBefore (new : Item) (items : List Item) :
    items.Sublist (placeBefore serial new items) := by
  induction items with
  | nil => exact List.nil_sublist _
  | cons item rest ih =>
    simp only [placeBefore]
    split
    · exact List.sublist_cons_self new _
    · exact ih.cons_cons item

theorem perm_insertPlain (new : Item) (items : List Item) :
    (insertPlain serial new items).Perm (new :: items) := by
  unfold insertPlain
  split
  · next empty =>
      rw [List.getLast?_eq_none_iff.mp empty]
  · split
    · exact List.perm_append_singleton new items
    · exact perm_placeBefore new items

theorem sublist_insertPlain (new : Item) (items : List Item) :
    items.Sublist (insertPlain serial new items) := by
  unfold insertPlain
  split
  · next empty =>
      rw [List.getLast?_eq_none_iff.mp empty]
      exact List.nil_sublist _
  · split
    · exact List.sublist_append_left items [new]
    · exact sublist_placeBefore new items

theorem Ascending.age_le_last (ascending : Ascending serial base items)
    (final : items.getLast? = some last) (member : item ∈ items) :
    age base (serial item) ≤ age base (serial last) := by
  obtain ⟨front, rfl⟩ := List.getLast?_eq_some_iff.mp final
  rcases List.mem_append.mp member with earlier | same
  · exact ((List.pairwise_append.mp ascending).2.2 item earlier last List.mem_cons_self).le
  · rw [List.mem_singleton.mp same]

theorem ascending_append_iff_plainSafe (ascending : Ascending serial base items)
    (final : items.getLast? = some last) (larger : serial last < serial new) :
    Ascending serial base (items ++ [new]) ↔ PlainSafe serial base items new := by
  have lastMember := List.mem_of_getLast? final
  have youngest : Ascending serial base (items ++ [new]) ↔
      ∀ item ∈ items, age base (serial item) < age base (serial new) := by
    unfold Ascending at ascending ⊢
    simp only [List.pairwise_append, ascending, List.pairwise_singleton, List.mem_singleton,
      forall_eq, true_and]
  rw [youngest]
  constructor
  · intro older
    exact .inr (.inr ⟨older, last, lastMember, sameSide_of_age_lt (older last lastMember) larger⟩)
  · rintro (rfl | sameSide | ⟨older, -⟩)
    · cases lastMember
    · intro item member
      have newer := (age_lt_iff_of_sameSide (sameSide last lastMember)).mpr larger
      exact (ascending.age_le_last final member).trans_lt newer
    · exact older

theorem ascending_placeBefore_iff_plainSafe (ascending : Ascending serial base items)
    (fresh : ∀ item ∈ items, serial item ≠ serial new) (final : items.getLast? = some last)
    (smaller : serial new < serial last) :
    Ascending serial base (placeBefore serial new items) ↔
      PlainSafe serial base items new := by
  have lastMember := List.mem_of_getLast? final
  obtain ⟨before, next, after, split, placed, below, reached⟩ :=
    placeBefore_spec ⟨last, lastMember, BitVec.le_of_lt smaller⟩
  have nextMember : next ∈ items := by rw [split]; simp
  have above : serial new < serial next :=
    BitVec.lt_of_le_ne reached (fresh next nextMember).symm
  have ordered := ascending
  rw [split] at ordered
  have nextOldest := List.pairwise_cons.mp (List.pairwise_append.mp ordered).2.1
  have inPlace : Ascending serial base (placeBefore serial new items) ↔
      (∀ item ∈ before, age base (serial item) < age base (serial new)) ∧
        ∀ item ∈ next :: after, age base (serial new) < age base (serial item) := by
    rw [placed]
    unfold Ascending at ordered ⊢
    rw [List.pairwise_append] at ordered
    rw [List.pairwise_append, List.pairwise_cons]
    constructor
    · rintro ⟨-, ⟨younger, -⟩, older⟩
      exact ⟨fun item member => older item member new List.mem_cons_self, younger⟩
    · rintro ⟨older, younger⟩
      refine ⟨ordered.1, ⟨younger, ordered.2.1⟩, ?_⟩
      intro item member other later
      rcases List.mem_cons.mp later with rfl | later
      · exact older item member
      · exact ordered.2.2 item member other later
  rw [inPlace]
  constructor
  · rintro ⟨older, younger⟩
    right; left
    have lastSide : Wrapped base (serial new) ↔ Wrapped base (serial last) := by
      have lastLater : last ∈ next :: after := by
        rw [split, List.mem_append] at lastMember
        apply lastMember.resolve_left
        intro earlier
        exact BitVec.lt_asymm smaller (below last earlier)
      exact sameSide_of_age_lt (younger last lastLater) smaller
    intro item member
    rw [split] at member
    rcases List.mem_append.mp member with earlier | later
    · exact sameSide_of_age_lt (older item earlier) (below item earlier)
    · have toLast := ascending.age_le_last final
        (by rw [split]; exact List.mem_append_right before later)
      exact (sameSide_of_between (younger item later).le toLast lastSide).trans lastSide.symm
  · intro safe
    have sameSide : ∀ item ∈ items, Wrapped base (serial item) ↔ Wrapped base (serial new) := by
      rcases safe with rfl | sameSide | ⟨older, item, member, sameSide⟩
      · cases lastMember
      · exact sameSide
      · have lastSide := sameSide_of_between (ascending.age_le_last final member)
          (older last lastMember).le sameSide
        have plain := (age_lt_iff_of_sameSide lastSide).mp (older last lastMember)
        exact absurd smaller (BitVec.lt_asymm plain)
    refine ⟨?_, ?_⟩
    · intro item earlier
      have member : item ∈ items := by rw [split]; exact List.mem_append_left _ earlier
      exact (age_lt_iff_of_sameSide (sameSide item member)).mpr (below item earlier)
    · have newer := (age_lt_iff_of_sameSide (sameSide next nextMember).symm).mpr above
      intro item later
      rcases List.mem_cons.mp later with rfl | later
      · exact newer
      · exact newer.trans (nextOldest.1 item later)

theorem ascending_insertPlain_iff (ascending : Ascending serial base items)
    (fresh : ∀ item ∈ items, serial item ≠ serial new) :
    Ascending serial base (insertPlain serial new items) ↔
      PlainSafe serial base items new := by
  unfold insertPlain
  split
  · next empty =>
      exact iff_of_true (List.pairwise_singleton _ _) (.inl (List.getLast?_eq_none_iff.mp empty))
  · next last final =>
      split
      · next notLarger =>
          exact ascending_append_iff_plainSafe ascending final
            (BitVec.lt_of_le_ne notLarger (fresh last (List.mem_of_getLast? final)))
      · next larger =>
          exact ascending_placeBefore_iff_plainSafe ascending fresh final
            (BitVec.not_le.mp larger)

theorem plainSafe_congr (permutation : first.Perm second) (new : Item) :
    PlainSafe serial base first new ↔ PlainSafe serial base second new := by
  unfold PlainSafe
  simp only [permutation.mem_iff, ← List.length_eq_zero_iff, permutation.length_eq]

theorem plainSafeRun_congr (permutation : first.Perm second) (news : List Item) :
    PlainSafeRun serial base first news ↔ PlainSafeRun serial base second news := by
  induction news generalizing first second with
  | nil => exact Iff.rfl
  | cons new rest ih =>
    exact and_congr (plainSafe_congr permutation new) (ih (permutation.cons new))

theorem sublist_foldl_insertPlain (items news : List Item) :
    items.Sublist (news.foldl (fun items new => insertPlain serial new items) items) := by
  induction news generalizing items with
  | nil => exact .refl _
  | cons new rest ih => exact (sublist_insertPlain new items).trans (ih _)

theorem ascending_foldl_insertPlain_iff (ascending : Ascending serial base items)
    (distinct : ((news ++ items).map serial).Nodup) :
    Ascending serial base (news.foldl (fun items new => insertPlain serial new items) items) ↔
      PlainSafeRun serial base items news := by
  induction news generalizing items with
  | nil => exact iff_of_true ascending trivial
  | cons new rest ih =>
    have permutation : (insertPlain serial new items).Perm (new :: items) :=
      perm_insertPlain new items
    have fresh : ∀ item ∈ items, serial item ≠ serial new := by
      intro item member same
      rw [List.cons_append, List.map_cons, List.nodup_cons] at distinct
      apply distinct.1
      rw [← same]
      exact List.mem_map_of_mem (List.mem_append_right rest member)
    have distinctAfter : ((rest ++ insertPlain serial new items).map serial).Nodup := by
      apply (((permutation.append_left rest).trans List.perm_middle).map serial).nodup_iff.mpr
      exact distinct
    have single := ascending_insertPlain_iff ascending fresh
    simp only [PlainSafeRun, List.foldl_cons]
    rw [← single, ← plainSafeRun_congr permutation]
    constructor
    · intro final
      have inOrder : Ascending serial base (insertPlain serial new items) :=
        final.sublist (sublist_foldl_insertPlain _ rest)
      exact ⟨inOrder, (ih inOrder distinctAfter).mp final⟩
    · rintro ⟨inOrder, others⟩
      exact (ih inOrder distinctAfter).mpr others

end Queue

end Lib
