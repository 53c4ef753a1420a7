import Mathlib.Logic.ExistsUnique
import Mathlib.Tactic.ByContra

/-!
# Items in places

Items that are handed around are each in exactly one place at a time.  Moving some items from
one place to another keeps it that way.
-/

namespace Lib

universe u v

variable {Item : Type u} {Place : Type v}

/-- Each of the items is in exactly one place, and nothing else is anywhere. -/
def Partitioned (all : Item → Bool) (held : Place → Item → Bool) : Prop :=
  ∀ item, (all item = true → ∃! place, held place item = true) ∧
    (all item = false → ∀ place, held place item = false)

theorem Partitioned.of_held (partitioned : Partitioned all held) {place : Place} {item : Item}
    (here : held place item = true) :
    all item = true := by
  cases known : all item with
  | true => rfl
  | false =>
    rw [(partitioned item).2 known place] at here
    cases here

theorem Partitioned.not_held (partitioned : Partitioned all held) {place other : Place}
    {item : Item} (here : held place item = true) (different : other ≠ place) :
    held other item = false := by
  obtain ⟨only, -, unique⟩ := (partitioned item).1 (partitioned.of_held here)
  rw [← Bool.not_eq_true]
  intro there
  exact different ((unique other there).trans (unique place here).symm)

theorem Partitioned.move (partitioned : Partitioned all held) {moved : Item → Bool}
    {source target : Place} (present : ∀ item, moved item = true → held source item = true)
    (there : ∀ item, moved item = true → after target item = true)
    (gone : ∀ item place, moved item = true → place ≠ target → after place item = false)
    (kept : ∀ item place, moved item = false → after place item = held place item) :
    Partitioned all after := by
  intro item
  cases which : moved item with
  | true =>
    have known := partitioned.of_held (present item which)
    refine ⟨fun _ => ⟨target, there item which, fun place here => ?_⟩, fun none => ?_⟩
    · by_contra different
      have nowhere := gone item place which different
      rw [show after place item = true from here] at nowhere
      cases nowhere
    · rw [none] at known
      cases known
  | false =>
    obtain ⟨one, none⟩ := partitioned item
    refine ⟨fun known => ?_, fun unknown place => ?_⟩
    · obtain ⟨place, here, unique⟩ := one known
      refine ⟨place, (kept item place which).trans here, fun other elsewhere => ?_⟩
      exact unique other ((kept item other which).symm.trans elsewhere)
    · rw [kept item place which]
      exact none unknown place

end Lib
