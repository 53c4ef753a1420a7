import Morse.Lib.Transition

/-!
# What is opened and closed in turn

Some actions open something and some close it.  While no more is closed than was opened from
some point on, the number of what is open does not get below what it was then.  A list of
actions is balanced when it closes all that it opens, and nothing before it was opened.
-/

namespace Lib

universe u v

variable {State : Type u} {Action : Type v} {opens closes : Action → Bool}

/-- With so much open to begin with, no more is closed than is open. -/
def Nested (opens closes : Action → Bool) : Nat → List Action → Prop
  | _, [] => True
  | depth, action :: rest =>
    if opens action then Nested opens closes (depth + 1) rest
    else if closes action then 0 < depth ∧ Nested opens closes (depth - 1) rest
    else Nested opens closes depth rest

theorem le_level_of_nested {guard : State → Action → Prop} {level : State → Nat}
    {Inv : State → Prop}
    (preserved : ∀ {before action after}, Inv before → guard before action →
      step before action = some after → Inv after)
    (opened : ∀ {before action after}, Inv before → guard before action →
      step before action = some after → opens action = true → level before + 1 ≤ level after)
    (closed : ∀ {before action after}, Inv before → guard before action →
      step before action = some after → level before ≤ level after + 1)
    (kept : ∀ {before action after}, Inv before → guard before action →
      step before action = some after → closes action = false → level before ≤ level after)
    {actions : List Action}
    {depth bound : Nat}
    {start state : State}
    (initial : Inv start)
    (nested : Nested opens closes depth actions)
    (above : bound + depth ≤ level start)
    (guarded : Guarded step guard start actions)
    (finishes : run step start actions = some state) :
    bound ≤ level state := by
  induction actions generalizing depth start with
  | nil =>
    cases finishes
    omega
  | cons action rest ih =>
    obtain ⟨admitted, others⟩ := guarded
    rw [run] at finishes
    cases taken : step start action with
    | none =>
      rw [taken] at finishes
      cases finishes
    | some next =>
      rw [taken] at finishes others
      have holds := preserved initial admitted taken
      rw [Nested] at nested
      split at nested
      · next opening =>
          have more := opened initial admitted taken opening
          exact ih holds nested (by omega) others finishes
      · split at nested
        · obtain ⟨positive, nested⟩ := nested
          have less := closed initial admitted taken
          exact ih holds nested (by omega) others finishes
        · next other =>
            have same := kept initial admitted taken (Bool.not_eq_true _ ▸ other)
            exact ih holds nested (by omega) others finishes

/-- At no moment was more closed than opened, and in the end as much was closed as opened. -/
structure Paired (opens closes : Action → Bool) (actions : List Action) : Prop where
  never : ∀ moment,
    (actions.take moment).countP closes ≤ (actions.take moment).countP opens
  settled : actions.countP opens = actions.countP closes

namespace Paired

theorem append (one : Paired opens closes first) (other : Paired opens closes second) :
    Paired opens closes (first ++ second) where
  never moment := by
    have before := one.never moment
    have after := other.never (moment - first.length)
    rw [List.take_append, List.countP_append, List.countP_append]
    omega
  settled := by
    rw [List.countP_append, List.countP_append, one.settled, other.settled]

theorem of_quiet (quiet : ∀ action ∈ actions, opens action = false ∧ closes action = false) :
    Paired opens closes actions where
  never moment := by
    rw [List.countP_eq_zero.mpr fun action member => by
      rw [(quiet action (List.mem_of_mem_take member)).2]
      exact Bool.false_ne_true]
    exact Nat.zero_le _
  settled := by
    rw [List.countP_eq_zero.mpr fun action member => by
        rw [(quiet action member).1]
        exact Bool.false_ne_true,
      List.countP_eq_zero.mpr fun action member => by
        rw [(quiet action member).2]
        exact Bool.false_ne_true]

theorem between (opened : opens first = true ∧ closes first = false)
    (closed : opens last = false ∧ closes last = true) (balanced : Paired opens closes middle) :
    Paired opens closes (first :: (middle ++ [last])) where
  never moment := by
    cases moment with
    | zero => exact Nat.le_refl _
    | succ moment =>
      have within := balanced.never moment
      have one : (([last] : List Action).take (moment - middle.length)).countP closes ≤ 1 :=
        Nat.le_trans List.countP_le_length
          (by rw [List.length_take]; exact Nat.min_le_right _ _)
      rw [List.take_succ_cons, List.take_append, List.countP_cons_of_pos opened.1,
        List.countP_cons_of_neg (by rw [opened.2]; exact Bool.false_ne_true),
        List.countP_append, List.countP_append]
      omega
  settled := by
    rw [List.countP_cons_of_pos opened.1,
      List.countP_cons_of_neg (by rw [opened.2]; exact Bool.false_ne_true),
      List.countP_append, List.countP_append, List.countP_singleton, List.countP_singleton,
      closed.1, closed.2, balanced.settled]
    rfl

end Paired

end Lib
