import Mathlib.Data.Option.Basic

/-!
# Guarded runs of a partial step function

A step function refuses an action that cannot be taken in a state.  A guard
says, from the state before and the action alone, which of the steps taken are
under consideration.  What every guarded step keeps, every guarded run keeps.
-/

namespace Lib

universe u v

variable {State : Type u} {Action : Type v}

/-- The states reached from `start` by steps that the guard admits in the
state they are taken from. -/
inductive Reaches
    (step : State → Action → Option State)
    (guard : State → Action → Prop)
    (start : State) : State → Prop
  | start : Reaches step guard start start
  | step {state next : State} {action : Action} :
      Reaches step guard start state → guard state action →
        step state action = some next → Reaches step guard start next

/-- The state after a list of actions, if none of them is refused. -/
def run (step : State → Action → Option State) : State → List Action → Option State
  | state, [] => some state
  | state, action :: rest =>
    match step state action with
    | some next => run step next rest
    | none => none

variable {step : State → Action → Option State} {guard : State → Action → Prop}
  {start state : State}

theorem Reaches.invariant {Inv : State → Prop} (initial : Inv start)
    (preserved : ∀ {before action after}, Inv before → guard before action →
      step before action = some after → Inv after)
    (reaches : Reaches step guard start state) :
    Inv state := by
  induction reaches with
  | start => exact initial
  | step _ admitted taken holds => exact preserved holds admitted taken

theorem Reaches.trans (first : Reaches step guard start middle)
    (second : Reaches step guard middle state) :
    Reaches step guard start state := by
  induction second with
  | start => exact first
  | step _ admitted taken reached => exact reached.step admitted taken

/-- The guard admits every action of a list when its turn comes. -/
def Guarded (step : State → Action → Option State) (guard : State → Action → Prop) :
    State → List Action → Prop
  | _, [] => True
  | state, action :: rest =>
    guard state action ∧
      match step state action with
      | some next => Guarded step guard next rest
      | none => True

theorem guarded_true (start : State) (actions : List Action) :
    Guarded step (fun _ _ => True) start actions := by
  induction actions generalizing start with
  | nil => trivial
  | cons action rest ih =>
    refine ⟨trivial, ?_⟩
    split
    · exact ih _
    · trivial

theorem Reaches.of_run (actions : List Action) (guarded : Guarded step guard start actions)
    (finishes : run step start actions = some state) :
    Reaches step guard start state := by
  induction actions generalizing start with
  | nil =>
    cases finishes
    exact .start
  | cons action rest ih =>
    obtain ⟨admitted, others⟩ := guarded
    simp only [run] at finishes
    split at finishes
    · next next taken =>
        rw [taken] at others
        exact (Reaches.start.step admitted taken).trans (ih others finishes)
    · cases finishes

theorem run_history {Inv : List Action → State → Prop}
    (preserved : ∀ {past before action after}, Inv past before →
      step before action = some after → Inv (past ++ [action]) after)
    (actions : List Action)
    (initial : Inv past start)
    (finishes : run step start actions = some state) :
    Inv (past ++ actions) state := by
  induction actions generalizing start past with
  | nil =>
    cases finishes
    rw [List.append_nil]
    exact initial
  | cons action rest ih =>
    rw [run] at finishes
    split at finishes
    · next next taken =>
        rw [List.append_cons]
        exact ih (preserved initial taken) finishes
    · cases finishes

end Lib
