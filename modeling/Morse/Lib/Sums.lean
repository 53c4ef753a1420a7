import Mathlib.Data.List.Basic
import Mathlib.Tactic.Common

/-!
# Running sums of differences

An ascending list is kept as differences, and read back as their running sums.  A list whose
entries are taken from the entry before them in the result, not from the number before them,
is read back rightly only while it is short.
-/

namespace Lib

/-- The running sums from a start on. -/
def sums : Nat → List Nat → List Nat
  | _, [] => []
  | start, difference :: rest => (start + difference) :: sums (start + difference) rest

theorem sums_add (base start : Nat) (differences : List Nat) :
    sums (base + start) differences = (sums start differences).map (base + ·) := by
  induction differences generalizing start with
  | nil => rfl
  | cons difference rest ih =>
    rw [sums, Nat.add_assoc, ih, sums, List.map_cons]

/-- Each number less the entry before it in the result. -/
def lagged : Nat → List Nat → List Nat
  | _, [] => []
  | before, number :: rest => (number - before) :: lagged (number - before) rest

@[simp] theorem length_lagged (before : Nat) (numbers : List Nat) :
    (lagged before numbers).length = numbers.length := by
  induction numbers generalizing before with
  | nil => rfl
  | cons number rest ih => rw [lagged, List.length_cons, ih, List.length_cons]

theorem lagged_append (before : Nat) (numbers : List Nat) (number : Nat) :
    lagged before (numbers ++ [number]) =
      lagged before numbers ++ [number - (lagged before numbers).getLast?.getD before] := by
  induction numbers generalizing before with
  | nil => rfl
  | cons first rest ih =>
    rw [List.cons_append, lagged, ih, lagged, List.cons_append,
      List.getLast?_cons, Option.getD_some]

theorem exists_le_of_mem_lagged (found : entry ∈ lagged before numbers) :
    ∃ number ∈ numbers, entry ≤ number := by
  induction numbers generalizing before with
  | nil => cases found
  | cons first rest ih =>
    rcases List.mem_cons.mp found with rfl | later
    · exact ⟨first, List.mem_cons_self, Nat.sub_le _ _⟩
    · obtain ⟨number, among, low⟩ := ih later
      exact ⟨number, List.mem_cons_of_mem _ among, low⟩

theorem exists_sum_above {before start : Nat} (ahead : before < start) {numbers : List Nat}
    (nonempty : numbers ≠ []) (ascending : numbers.Pairwise (· < ·))
    (above : ∀ number ∈ numbers, before ≤ number) :
    ∃ sum ∈ sums start (lagged before numbers), ∀ number ∈ numbers, number < sum := by
  induction numbers generalizing before start with
  | nil => exact absurd rfl nonempty
  | cons first rest ih =>
    rw [List.pairwise_cons] at ascending
    by_cases ended : rest = []
    · subst ended
      refine ⟨_, List.mem_cons_self, fun number found => ?_⟩
      rw [List.mem_singleton] at found
      omega
    · obtain ⟨sum, found, beyond⟩ := @ih (first - before)
        (start + (first - before)) (by omega) ended ascending.2
        (fun number later => Nat.le_trans (Nat.sub_le _ _)
          (Nat.le_of_lt (ascending.1 number later)))
      refine ⟨sum, List.mem_cons_of_mem _ found, fun number among => ?_⟩
      rcases List.mem_cons.mp among with rfl | later
      · obtain ⟨second, others⟩ := List.exists_mem_of_ne_nil rest ended
        exact Nat.lt_trans (ascending.1 second others) (beyond second others)
      · exact beyond number later

theorem mem_sums_lagged_iff (ascending : numbers.Pairwise (· < ·)) :
    (∀ number, number ∈ sums 0 (lagged 0 numbers) ↔ number ∈ numbers) ↔
      numbers.length ≤ 2 ∨ numbers.length = 3 ∧ numbers.head? = some 0 := by
  rcases numbers with _ | ⟨first, _ | ⟨second, _ | ⟨third, rest⟩⟩⟩
  · exact iff_of_true (fun _ => Iff.rfl) (Or.inl (Nat.zero_le _))
  · refine iff_of_true (fun number => ?_) (Or.inl (Nat.le_succ _))
    rw [lagged, lagged, sums, sums, Nat.zero_add, Nat.sub_zero]
  · have order : first < second := by simpa using ascending
    have sum : first + (second - first) = second := by omega
    refine iff_of_true (fun number => ?_) (Or.inl (Nat.le_refl 2))
    simp only [lagged, sums, Nat.zero_add, Nat.sub_zero, sum]
  · simp only [List.pairwise_cons, List.mem_cons, forall_eq_or_imp] at ascending
    obtain ⟨⟨low, -, -⟩, ⟨middle, -⟩, high, sorted⟩ := ascending
    have sum : first + (second - first) = second := by omega
    have start : sums 0 (lagged 0 (first :: second :: third :: rest)) =
        first :: second :: sums second (lagged (second - first) (third :: rest)) := by
      simp only [lagged, sums, Nat.zero_add, Nat.sub_zero, sum]
    rw [start]
    by_cases zero : first = 0
    · subst zero
      rw [Nat.sub_zero]
      have next : sums second (lagged second (third :: rest)) =
          third :: sums third (lagged (third - second) rest) := by
        rw [lagged, sums, Nat.add_sub_cancel' (Nat.le_of_lt middle)]
      rw [next]
      by_cases ended : rest = []
      · subst ended
        exact iff_of_true (fun _ => Iff.rfl) (Or.inr ⟨rfl, rfl⟩)
      · obtain ⟨sum, found, beyond⟩ := @exists_sum_above (third - second) third (by omega)
          rest ended sorted fun number later =>
            Nat.le_trans (Nat.sub_le _ _) (Nat.le_of_lt (high number later))
        obtain ⟨fourth, others⟩ := List.exists_mem_of_ne_nil rest ended
        have last := beyond fourth others
        have after := high fourth others
        refine iff_of_false (fun same => ?_) ?_
        · have among := (same sum).mp (by simp [found])
          simp only [List.mem_cons] at among
          rcases among with rfl | rfl | rfl | later
          · omega
          · omega
          · omega
          · exact Nat.lt_irrefl sum (beyond sum later)
        · have some := List.length_pos_of_ne_nil ended
          simp only [List.length_cons]
          omega
    · obtain ⟨sum, found, beyond⟩ := @exists_sum_above (second - first) second (by omega)
        (third :: rest) (List.cons_ne_nil _ _) (List.pairwise_cons.mpr ⟨high, sorted⟩)
        (fun number later => by
          rcases List.mem_cons.mp later with rfl | others
          · omega
          · have after := high number others
            omega)
      have last := beyond third List.mem_cons_self
      refine iff_of_false (fun same => ?_) ?_
      · have among := (same sum).mp (by simp [found])
        rw [List.mem_cons, List.mem_cons] at among
        rcases among with rfl | rfl | later
        · omega
        · omega
        · exact Nat.lt_irrefl sum (beyond sum later)
      · simp only [List.length_cons, List.head?_cons, Option.some.injEq]
        omega

end Lib
