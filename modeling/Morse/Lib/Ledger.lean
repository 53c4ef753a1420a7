import Mathlib.Algebra.BigOperators.Group.Finset.Piecewise
import Mathlib.Algebra.Order.Group.Multiset
import Mathlib.Data.Fintype.BigOperators
import Mathlib.Tactic.Abel

/-!
# Ledgers of blocks

Blocks are issued, held in slots and returned.  Where what was returned and what is
held make up what was issued, and no block is issued twice, nothing is returned twice
and nothing that is held has been returned.
-/

namespace Lib

universe u v w

variable {Key : Type u} {Slot : Type v} {Block : Type w}

/-- What all slots hold. -/
def holdings [Fintype Key] (held : Slot → Multiset Block) (slots : Key → Slot) :
    Multiset Block :=
  ∑ key, held (slots key)

section Slots

variable [Fintype Key] [DecidableEq Key] (held : Slot → Multiset Block)

theorem holdings_update (slots : Key → Slot) (key : Key) (slot : Slot) :
    holdings held (Function.update slots key slot) + held (slots key) =
      holdings held slots + held slot := by
  have before : holdings held slots =
      held (slots key) + ∑ other ∈ Finset.univ \ {key}, held (slots other) :=
    Finset.sum_eq_add_sum_sdiff_singleton_of_mem (Finset.mem_univ key) fun other =>
      held (slots other)
  have after : holdings held (Function.update slots key slot) =
      held slot + ∑ other ∈ Finset.univ \ {key}, held (slots other) := by
    have image : (fun other => held (Function.update slots key slot other)) =
        Function.update (fun other => held (slots other)) key (held slot) := by
      funext other
      by_cases same : other = key
      · rw [same, Function.update_self, Function.update_self]
      · rw [Function.update_of_ne same, Function.update_of_ne same]
    rw [holdings, image]
    exact Finset.sum_update_of_mem (Finset.mem_univ key) _ _
  rw [before, after, add_comm (held (slots key)), add_comm _ (held slot), add_assoc]

end Slots

/-- What was returned and what is held is what was issued. -/
def Balanced (issued returned kept : Multiset Block) : Prop := returned + kept = issued

namespace Balanced

variable {issued returned kept : Multiset Block}

theorem update [Fintype Key] [DecidableEq Key] {held : Slot → Multiset Block} {slots : Key → Slot}
    {rest issued' returned' : Multiset Block}
    (balanced : Balanced issued returned (holdings held slots + rest)) (key : Key) (slot : Slot)
    (account : returned' + held slot + issued = returned + held (slots key) + issued') :
    Balanced issued' returned' (holdings held (Function.update slots key slot) + rest) := by
  have replaced := holdings_update held slots key slot
  refine add_right_cancel (b := held (slots key) + issued) ?_
  calc returned' + (holdings held (Function.update slots key slot) + rest) +
        (held (slots key) + issued)
      = returned' + issued + rest +
          (holdings held (Function.update slots key slot) + held (slots key)) := by abel
    _ = returned' + held slot + issued + (holdings held slots + rest) := by rw [replaced]; abel
    _ = issued' + held (slots key) + (returned + (holdings held slots + rest)) := by
        rw [account]; abel
    _ = issued' + (held (slots key) + issued) := by rw [balanced]; abel

theorem nodup_returned (balanced : Balanced issued returned kept) (once : issued.Nodup) :
    returned.Nodup :=
  Multiset.nodup_of_le (by rw [← balanced]; exact Multiset.le_add_right _ _) once

theorem notMem_returned (balanced : Balanced issued returned kept) (once : issued.Nodup)
    (holds : block ∈ kept) :
    block ∉ returned := by
  rw [← balanced, Multiset.nodup_add] at once
  exact fun back => Multiset.disjoint_left.mp once.2.2 back holds

theorem mem_issued (balanced : Balanced issued returned kept) (back : block ∈ returned) :
    block ∈ issued := by
  rw [← balanced]
  exact Multiset.mem_add.mpr (.inl back)

theorem mem_or_mem (balanced : Balanced issued returned kept) (out : block ∈ issued) :
    block ∈ returned ∨ block ∈ kept := by
  rw [← balanced] at out
  exact Multiset.mem_add.mp out

end Balanced

end Lib
