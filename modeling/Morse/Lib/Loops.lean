import Mathlib.Data.List.Basic

/-!
# Loops whose body may fail

A loop over a list goes on from one item to the next as long as its body succeeds.  What
its body keeps, the loop keeps; where its body always succeeds, so does the loop, and with
one result for all ways of computing that agree on the body.
-/

namespace Lib

universe u v w

variable {State : Type u} {Item : Type v}

theorem foldlM_invariant {Inv : State → Prop} {items : List Item}
    (preserved : ∀ {before item after}, item ∈ items → Inv before →
      body before item = some after → Inv after)
    {start state : State}
    (initial : Inv start)
    (finishes : items.foldlM body start = some state) :
    Inv state := by
  induction items generalizing start with
  | nil =>
    cases finishes
    exact initial
  | cons item rest ih =>
    obtain ⟨next, taken, others⟩ := Option.bind_eq_some_iff.mp finishes
    exact ih (fun member => preserved (List.mem_cons_of_mem _ member))
      (preserved List.mem_cons_self initial taken) others

theorem foldlM_parts {Untouched Done : State → Item → Prop} {items : List Item}
    (distinct : items.Nodup)
    (done : ∀ {before item after}, item ∈ items → Untouched before item →
      body before item = some after → Done after item)
    (kept : ∀ {before item after other}, other ≠ item → body before item = some after →
      (Untouched before other → Untouched after other) ∧ (Done before other → Done after other))
    {start state : State}
    (initial : ∀ item, Untouched start item)
    (finishes : items.foldlM body start = some state) :
    ∀ item, (item ∈ items → Done state item) ∧ (item ∉ items → Untouched state item) := by
  suffices general : ∀ start, (∀ item ∈ items, Untouched start item) →
      items.foldlM body start = some state →
        ∀ item, (item ∈ items ∨ Done start item → Done state item) ∧
          (item ∉ items → Untouched start item → Untouched state item) from
    fun item => ⟨fun member => (general start (fun item _ => initial item) finishes item).1
      (.inl member), fun missing => (general start (fun item _ => initial item) finishes item).2
        missing (initial item)⟩
  clear initial finishes start
  induction items with
  | nil =>
    intro start _ finishes item
    cases finishes
    exact ⟨fun either => either.resolve_left List.not_mem_nil, fun _ untouched => untouched⟩
  | cons first rest ih =>
    intro start initial finishes item
    obtain ⟨next, taken, others⟩ := Option.bind_eq_some_iff.mp finishes
    obtain ⟨fresh, distinct⟩ := List.nodup_cons.mp distinct
    have untouched : ∀ other ∈ rest, Untouched next other := by
      intro other member
      have differs : other ≠ first := fun same => fresh (same ▸ member)
      exact (kept differs taken).1 (initial other (List.mem_cons_of_mem _ member))
    have later := ih distinct (fun member => done (List.mem_cons_of_mem _ member)) next
      untouched others item
    by_cases same : item = first
    · subst same
      exact ⟨fun _ => later.1 (.inr (done List.mem_cons_self (initial item List.mem_cons_self)
        taken)), fun missing => absurd List.mem_cons_self missing⟩
    · refine ⟨fun either => later.1 ?_, fun missing untouched => later.2
        (fun member => missing (List.mem_cons_of_mem _ member))
        ((kept same taken).1 untouched)⟩
      rcases either with member | already
      · exact .inl ((List.mem_cons.mp member).resolve_left same)
      · exact .inr ((kept same taken).2 already)

end Lib
