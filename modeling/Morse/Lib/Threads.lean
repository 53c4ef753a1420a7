import Morse.Lib.Transition

/-!
# Threads, a lock and a work item

Threads run programs of atomic operations on a shared state.  They share a lock
and a work item, which they schedule and cancel.  The work item runs as a party
of its own and never twice at a time.  The lock is not checked when it is
released, so that any party may release it.

The rules of a program say which operations need the lock; a system whose
programs follow them releases the lock in the hands of its holder.
-/

namespace Lib

universe u v w x

/-- A program of operations `Op` with a result each. -/
inductive Program (Op : Type u)
  | done
  /-- A loop without end. -/
  | spin
  | act (op : Op) (next : Bool → Program Op)
  | lock (next : Program Op)
  | unlock (next : Program Op)
  | schedule (next : Program Op)
  /-- The work is taken from the queue, and kept from it. -/
  | cancel (next : Program Op)
  /-- Wait until the work does not run. -/
  | flush (next : Program Op)

/-- The work item or a thread. -/
inductive Party
  | work
  | thread (index : Nat)
  deriving DecidableEq, Repr

/-- The threads at some time, each with the rest of its program. -/
structure World (Op : Type u) (State : Type v) where
  shared : State
  holder : Option Party
  /-- The work is in the queue. -/
  pending : Bool
  /-- The work is being cancelled, and is not put in the queue. -/
  cancelling : Bool
  programs : Party → Program Op

/-- What the threads and the work item run. -/
structure System (Op : Type u) (State : Type v) (Entry : Type w) (Run : Type x) where
  /-- The result of an operation; `none` is that it fails. -/
  effect : Op → State → Option (Bool × State)
  entry : Entry → Program Op
  work : Run → Program Op

/-- A thread begins a program, the queue starts the work, or a party goes on. -/
inductive Move (Entry : Type w) (Run : Type x)
  | enter (index : Nat) (entry : Entry)
  | dispatch (run : Run)
  | proceed (party : Party)

variable {Op : Type u} {State : Type v} {Entry : Type w} {Run : Type x}

/-- A party is at a program. -/
def World.goto (world : World Op State) (party : Party) (program : Program Op) :
    World Op State :=
  { world with
    programs := fun other => if other = party then program else world.programs other }

/-- The next operation of a party. -/
def System.proceed (system : System Op State Entry Run) (world : World Op State)
    (party : Party) : Option (World Op State) :=
  match world.programs party with
  | .done => none
  | .spin => none
  | .act op next =>
    match system.effect op world.shared with
    | none => none
    | some (result, shared) => some { world.goto party (next result) with shared := shared }
  | .lock next =>
    if world.holder = none then some { world.goto party next with holder := some party }
    else none
  | .unlock next => some { world.goto party next with holder := none }
  | .schedule next =>
    some { world.goto party next with pending := world.pending || !world.cancelling }
  | .cancel next =>
    if world.cancelling then none
    else some { world.goto party next with pending := false, cancelling := true }
  | .flush next =>
    match world.programs .work with
    | .done => some { world.goto party next with cancelling := false }
    | _ => none

/-- One move, if it can be made. -/
def System.step (system : System Op State Entry Run) (world : World Op State) :
    Move Entry Run → Option (World Op State)
  | .enter index entry =>
    match world.programs (.thread index) with
    | .done => some (world.goto (.thread index) (system.entry entry))
    | _ => none
  | .dispatch run =>
    match world.programs .work with
    | .done =>
      if world.pending then some { world.goto .work (system.work run) with pending := false }
      else none
    | _ => none
  | .proceed party => system.proceed world party

@[simp] theorem World.goto_self (world : World Op State) (party : Party) (program : Program Op) :
    (world.goto party program).programs party = program :=
  if_pos rfl

theorem World.goto_other (world : World Op State) (program : Program Op) (apart : other ≠ party) :
    (world.goto party program).programs other = world.programs other :=
  if_neg apart

/-! ## A program on its own -/

/-- What a program does to the state without other parties. -/
def Program.execute (effect : Op → State → Option (Bool × State)) :
    Program Op → State → Option State
  | .done, state => some state
  | .spin, _ => none
  | .act op next, state =>
    match effect op state with
    | none => none
    | some (result, state) => (next result).execute effect state
  | .lock next, state => next.execute effect state
  | .unlock next, state => next.execute effect state
  | .schedule next, state => next.execute effect state
  | .cancel next, state => next.execute effect state
  | .flush next, state => next.execute effect state

/-! ## Rules -/

/-- What programs are to follow: which operations need the lock, which results of
an operation are possible, and after which one the work may be cancelled. -/
structure Rules (Op : Type u) where
  needsLock : Op → Prop
  possible : Op → Bool → Prop
  closes : Op → Prop

/-- The program is about to cancel the work, or waits for it. -/
def Program.Cancels : Program Op → Prop
  | .cancel _ => True
  | .flush _ => True
  | _ => False

/-- The program follows the rules, with the lock held or not. -/
def Program.Follows (rules : Rules Op) : Bool → Program Op → Prop
  | held, .done => held = false
  | _, .spin => True
  | held, .act op next =>
    (rules.needsLock op → held = true) ∧
      (∀ result, (next result).Cancels → rules.closes op) ∧
      ∀ result, rules.possible op result → (next result).Follows rules held
  | held, .lock next => held = false ∧ ¬ next.Cancels ∧ next.Follows rules true
  | held, .unlock next => held = true ∧ ¬ next.Cancels ∧ next.Follows rules false
  | held, .schedule next => ¬ next.Cancels ∧ next.Follows rules held
  | held, .cancel next => next.Follows rules held
  | held, .flush next => ¬ next.Cancels ∧ next.Follows rules held

/-- Every party follows its rules, where it holds the lock or does not. -/
def World.Follows (rules : Party → Rules Op) (world : World Op State) : Prop :=
  ∀ party, (world.programs party).Follows (rules party) (decide (world.holder = some party))

variable {system : System Op State Entry Run} {rules : Party → Rules Op}
  {world after : World Op State}

theorem World.Follows.goto (follows : world.Follows rules)
    (next : program.Follows (rules party) (decide (world.holder = some party)))
    (holder : after.holder = world.holder)
    (programs : after.programs = (world.goto party program).programs) :
    after.Follows rules := by
  intro other
  rw [programs, holder]
  by_cases same : other = party
  · rw [same, World.goto_self]
    exact next
  · rw [World.goto_other _ _ same]
    exact follows other

theorem World.Follows.goto_holder (follows : world.Follows rules) {holder : Option Party}
    (next : program.Follows (rules party) (decide (holder = some party)))
    (others : ∀ other, other ≠ party → (holder = some other ↔ world.holder = some other)) :
    { world.goto party program with holder := holder }.Follows rules := by
  intro other
  by_cases same : other = party
  · rw [same]
    rw [World.goto_self]
    exact next
  · rw [World.goto_other _ _ same, decide_eq_decide.mpr (others other same)]
    exact follows other

theorem System.follows_step
    (entries : ∀ index entry, (system.entry entry).Follows (rules (.thread index)) false)
    (works : ∀ run, (system.work run).Follows (rules .work) false)
    (possible : ∀ party op next result shared, move = .proceed party →
      world.programs party = .act op next → system.effect op world.shared = some (result, shared) →
        (rules party).possible op result)
    (follows : world.Follows rules)
    (taken : system.step world move = some after) :
    after.Follows rules := by
  cases move with
  | enter index entry =>
    have current := follows (.thread index)
    rw [System.step] at taken
    split at taken
    · next idle =>
        cases taken
        rw [idle] at current
        exact follows.goto ((current : _ = false) ▸ entries index entry) rfl rfl
    · cases taken
  | dispatch run =>
    have current := follows .work
    rw [System.step] at taken
    split at taken
    · next idle =>
        split at taken
        · cases taken
          rw [idle] at current
          exact follows.goto ((current : _ = false) ▸ works run) rfl rfl
        · cases taken
    · cases taken
  | proceed party =>
    have current := follows party
    rw [System.step, System.proceed] at taken
    split at taken
    · cases taken
    · cases taken
    · next op next program =>
        rw [program] at current
        split at taken
        · cases taken
        · next result shared exact =>
            cases taken
            have allowed := possible party op next result shared rfl program exact
            exact follows.goto (current.2.2 result allowed) rfl rfl
    · next next program =>
        rw [program] at current
        split at taken
        · next free =>
            cases taken
            refine follows.goto_holder ?_ fun other apart => ?_
            · rw [decide_eq_true rfl]
              exact current.2.2
            · rw [free]
              exact ⟨fun same => absurd (Option.some.inj same).symm apart, by rintro ⟨⟩⟩
        · cases taken
    · next next program =>
        rw [program] at current
        cases taken
        have holds := of_decide_eq_true current.1
        refine follows.goto_holder current.2.2 fun other apart => ?_
        rw [holds]
        exact ⟨by rintro ⟨⟩, fun same => absurd (Option.some.inj same).symm apart⟩
    · next next program =>
        rw [program] at current
        cases taken
        exact follows.goto current.2 rfl rfl
    · next next program =>
        rw [program] at current
        split at taken
        · cases taken
        · cases taken
          have kept : next.Follows (rules party) (decide (world.holder = some party)) := current
          exact follows.goto kept rfl rfl
    · next next program =>
        rw [program] at current
        split at taken
        · cases taken
          exact follows.goto current.2 rfl rfl
        · cases taken

theorem World.Follows.holder_of_unlock (follows : world.Follows rules)
    (program : world.programs party = .unlock next) :
    world.holder = some party := by
  have current := follows party
  rw [program] at current
  exact of_decide_eq_true current.1

theorem World.Follows.holder_of_act (follows : world.Follows rules)
    (program : world.programs party = .act op next) (needs : (rules party).needsLock op) :
    world.holder = some party := by
  have current := follows party
  rw [program] at current
  exact of_decide_eq_true (current.1 needs)

end Lib
