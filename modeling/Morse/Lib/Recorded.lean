import Mathlib.Tactic.SplitIfs

/-!
# Values with a record

A computation that acts on something outside is a value together with the events of computing
it, in order.  Loops record what each of their turns records, up to the turn that leaves them.
-/

namespace Lib

universe u v

/-- A value and the events recorded while it was computed. -/
structure Recorded (Event : Type u) (Value : Type v) where
  /-- What is computed. -/
  value : Value
  /-- What happened meanwhile, in order. -/
  log : List Event

namespace Recorded

variable {Event : Type u} {Value Result : Type v}

instance : Monad (Recorded Event) where
  pure value := ⟨value, []⟩
  bind first rest := ⟨(rest first.value).value, first.log ++ (rest first.value).log⟩

/-- One event. -/
def record (event : Event) : Recorded Event PUnit := ⟨⟨⟩, [event]⟩

@[simp] theorem value_pure (value : Value) : (pure value : Recorded Event Value).value = value :=
  rfl

@[simp] theorem log_pure (value : Value) : (pure value : Recorded Event Value).log = [] := rfl

@[simp] theorem value_bind (first : Recorded Event Value) (rest : Value → Recorded Event Result) :
    (first >>= rest).value = (rest first.value).value := rfl

@[simp] theorem log_bind (first : Recorded Event Value) (rest : Value → Recorded Event Result) :
    (first >>= rest).log = first.log ++ (rest first.value).log := rfl

@[simp] theorem log_record (event : Event) : (record event).log = [event] := rfl

section Loops

variable {body : Nat → Recorded Event Bool}

/-- The turns `start`, `start + 1`, … , as many as given, until one of them breaks the loop;
whether one did. -/
def loopUntil (body : Nat → Recorded Event Bool) (start : Nat) : Nat → Recorded Event Bool
  | 0 => pure false
  | turns + 1 => do
      if ← body start then pure true
      else loopUntil body (start + 1) turns

theorem value_loopUntil (start turns : Nat) :
    (loopUntil body start turns).value = true ↔
      ∃ turn, start ≤ turn ∧ turn < start + turns ∧ (body turn).value = true := by
  induction turns generalizing start with
  | zero =>
    simp only [loopUntil, value_pure, Bool.false_eq_true, false_iff]
    omega
  | succ turns ih =>
    rw [loopUntil, value_bind]
    split
    · next breaks => exact ⟨fun _ => ⟨start, Nat.le_refl _, by omega, breaks⟩, fun _ => rfl⟩
    · next continues =>
        rw [ih]
        constructor
        · rintro ⟨turn, above, below, breaks⟩
          exact ⟨turn, by omega, by omega, breaks⟩
        · rintro ⟨turn, above, below, breaks⟩
          have other : turn ≠ start := by
            rintro rfl
            exact continues breaks
          exact ⟨turn, by omega, by omega, breaks⟩

theorem mem_log_loopUntil (start turns : Nat) :
    event ∈ (loopUntil body start turns).log ↔
      ∃ turn, start ≤ turn ∧ turn < start + turns ∧
        (∀ earlier, start ≤ earlier → earlier < turn → (body earlier).value = false) ∧
        event ∈ (body turn).log := by
  induction turns generalizing start with
  | zero =>
    simp only [loopUntil, log_pure, List.not_mem_nil, false_iff]
    omega
  | succ turns ih =>
    rw [loopUntil, log_bind, List.mem_append]
    constructor
    · rintro (here | later)
      · exact ⟨start, Nat.le_refl _, by omega, fun earlier above below => by omega, here⟩
      · split at later
        · cases later
        · next continues =>
            obtain ⟨turn, above, below, unbroken, recorded⟩ := (ih _).mp later
            refine ⟨turn, by omega, by omega, fun earlier from_start before => ?_, recorded⟩
            rcases Nat.eq_or_lt_of_le from_start with rfl | later
            · exact Bool.not_eq_true _ ▸ continues
            · exact unbroken earlier later before
    · rintro ⟨turn, above, below, unbroken, recorded⟩
      rcases Nat.eq_or_lt_of_le above with rfl | later
      · exact Or.inl recorded
      · have continues := unbroken start (Nat.le_refl _) later
        refine Or.inr ?_
        rw [continues]
        exact (ih _).mpr ⟨turn, later, by omega,
          fun earlier above before => unbroken earlier (by omega) before, recorded⟩

/-- The turns `start`, `start + 1`, … , as many as given. -/
def loop (body : Nat → Recorded Event PUnit) (start : Nat) : Nat → Recorded Event PUnit
  | 0 => pure ⟨⟩
  | turns + 1 => do
      body start
      loop body (start + 1) turns

theorem mem_log_loop {body : Nat → Recorded Event PUnit} (start turns : Nat) :
    event ∈ (loop body start turns).log ↔
      ∃ turn, start ≤ turn ∧ turn < start + turns ∧ event ∈ (body turn).log := by
  induction turns generalizing start with
  | zero =>
    simp only [loop, log_pure, List.not_mem_nil, false_iff]
    omega
  | succ turns ih =>
    rw [loop, log_bind, List.mem_append, ih]
    constructor
    · rintro (here | ⟨turn, above, below, recorded⟩)
      · exact ⟨start, Nat.le_refl _, by omega, here⟩
      · exact ⟨turn, by omega, by omega, recorded⟩
    · rintro ⟨turn, above, below, recorded⟩
      rcases Nat.eq_or_lt_of_le above with rfl | later
      · exact Or.inl recorded
      · exact Or.inr ⟨turn, later, by omega, recorded⟩

theorem log_loopUntil_of {Good : List Event → Prop} (none : Good [])
    (append : ∀ {first second}, Good first → Good second → Good (first ++ second))
    (good : ∀ turn, Good (body turn).log) (start turns : Nat) :
    Good (loopUntil body start turns).log := by
  induction turns generalizing start with
  | zero => exact none
  | succ turns ih =>
    rw [loopUntil, log_bind]
    refine append (good start) ?_
    split
    · exact none
    · exact ih (start + 1)

theorem log_loop_of {body : Nat → Recorded Event PUnit} {Good : List Event → Prop} (none : Good [])
    (append : ∀ {first second}, Good first → Good second → Good (first ++ second))
    (good : ∀ turn, Good (body turn).log) (start turns : Nat) :
    Good (loop body start turns).log := by
  induction turns generalizing start with
  | zero => exact none
  | succ turns ih =>
    exact append (good start) (ih (start + 1))

end Loops

end Recorded

end Lib
