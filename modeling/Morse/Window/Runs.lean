import Morse.Window.Moves

/-!
# Runs of the bus operations

Over any run each transaction goes through the window of what it moves, a call that succeeds moves
each octet once, and what is kept of the windows is what the chip holds or marked as unset.  Left
out are register accesses that cross a window, writes of memory that reset the chip, and failures
that the SDIO driver does not look at; and it is by design that the first octets of a piece may be
read twice.
-/

namespace Morse
namespace Window

open Lib

/-! ## What calls do -/

/-- What is kept of the registers of a function is marked as unset or what they hold. -/
def Held (current : Nat) (registers : Registers) : Prop :=
  current = baseAddrUnset ∨ current = registers.base

/-- What an action is to move: whether it writes, the address and the length. -/
def Action.extent : Action → Bool × Nat × Nat
  | .dmRead address _ _ len => (false, address.toNat, len.toNat)
  | .dmWrite address _ _ len => (true, address.toNat, len.toNat)
  | .reg32Read address _ => (false, address.toNat, 4)
  | .reg32Write address _ => (true, address.toNat, 4)
  | .setBusEnable _ => (false, 0, 0)

/-- A register access stays inside a window; other accesses are cut. -/
def Action.InWindow : Action → Prop
  | .reg32Read address _ => address.toNat % 2 ^ 16 + 4 ≤ 2 ^ 16
  | .reg32Write address _ => address.toNat % 2 ^ 16 + 4 ≤ 2 ^ 16
  | _ => True

/-- Memory is not written so that the chip is reset. -/
def Action.Quiet (config : Config) : Action → Prop
  | .dmWrite address _ data len =>
    config.carriesReset address.toNat (segment data 0 len.toNat) = false
  | _ => True

/-- Transactions move each octet of a buffer once, from or to its own address; and what they read
again are the first eight octets of a piece, from the same addresses. -/
structure Moves (config : Config) (write : Bool) (address length : Nat)
    (events : List Transaction) : Prop where
  once : ∀ index, index < length →
    events.countP (fun transaction =>
      !transaction.again && covers index (transaction.start, transaction.length)) = 1
  direction : ∀ transaction, transaction ∈ events → transaction.write = write
  inside : ∀ transaction, transaction ∈ events →
    transaction.start + transaction.length ≤ length
  places : ∀ transaction, transaction ∈ events → ∀ offset, offset < transaction.length →
    (transaction.registers.window + transaction.place + offset) % 2 ^ 32 =
      (address + (transaction.start + offset)) % 2 ^ 32
  again : ∀ transaction, transaction ∈ events → transaction.again = true →
    config.busDoubleRead = true ∧ write = false ∧ transaction.piece.size % 4 = 0 ∧
      transaction.done = 0 ∧ transaction.length = 8

/-- What is relied on of a call. -/
structure Sound (config : Config) (action : Action) (outcome : Outcome) : Prop where
  held : ∀ func, Held (outcome.state.current func) (outcome.state.chip.get func)
  right : action.InWindow →
    ∀ transaction, transaction ∈ outcome.events → transaction.Right
  moves : action.InWindow → outcome.ret = 0 →
    Moves config action.extent.1 action.extent.2.1 action.extent.2.2 outcome.events

/-- The state after some calls. -/
def run (config : Config) (bus : Nat → Answer) (state : State) (actions : List Action) : State :=
  actions.foldl (fun state action => (step config bus state action).state) state

section Calls

variable {config : Config} {bus : Nat → Answer}

theorem consistent_resetBaseAddress (state : State) : Consistent state.resetBaseAddress :=
  ⟨Or.inl rfl, Or.inl rfl⟩

/-- What a call does that starts with the windows kept track of. -/
structure Does (config : Config) (action : Action) (outcome : Outcome) : Prop where
  consistent : Consistent outcome.state
  belongs : ∀ transaction, transaction ∈ outcome.events →
    Belongs config action.extent.1 action.extent.2.1 action.extent.2.2 transaction
  window : action.InWindow →
    ∀ transaction, transaction ∈ outcome.events → transaction.piece.InWindow
  tiles : outcome.ret = 0 →
    Tiles 0 action.extent.2.2 (outcome.events.filterMap Transaction.fresh)

theorem reglMove_spec (lossless : Lossless config bus) {write : Bool} {address : Nat}
    (word : address < 2 ^ 32) {state : State} (consistent : Consistent state) :
    (∀ transaction, transaction ∈ (reglMove config bus write address state).events →
        Belongs config write address 4 transaction ∧ transaction.piece = ⟨address, 0, 4⟩) ∧
      ((reglMove config bus write address state).done = true →
        Tiles 0 4 ((reglMove config bus write address state).events.filterMap
          Transaction.fresh)) ∧
      ((write = true → config.carriesReset address (segment state.buffer 0 4) = false) →
        Consistent (reglMove config bus write address state).state) ∧
      ((reglMove config bus write address state).events = [] →
        Consistent (reglMove config bus write address state).state) := by
  obtain ⟨after, buffer, base⟩ := @getFunc_spec config bus lossless address word 4 2 state
    consistent
  rw [reglMove]
  generalize getFunc config bus address 4 2 state = result at after buffer base
  obtain ⟨func, between⟩ := result
  cases func with
  | none =>
    exact ⟨fun transaction member => absurd member List.not_mem_nil, Bool.noConfusion,
      fun _ => after, fun _ => after⟩
  | some func =>
    have here : (between.chip.get func).base = calculateBaseAddress address (accessOf 4) :=
      base func rfl
    have whole : Piece.Of ⟨address, 0, 4⟩ address 4 :=
      ⟨(Nat.mod_eq_of_lt word).symm, Nat.succ_pos 3, Nat.le_refl 4⟩
    have inside : ((0, 4) : Nat × Nat).1 + ((0, 4) : Nat × Nat).2 ≤ 4 := Nat.le_refl 4
    refine ⟨fun transaction member => ⟨?_, ?_⟩, fun _ => ⟨rfl, Nat.succ_pos 3, rfl⟩,
      fun quiet => ?_, fun none => ?_⟩
    · exact @belongs_transfer config bus write address 4 func false ⟨address, 0, 4⟩ (0, 4)
        between here whole inside Bool.noConfusion transaction member
    · obtain rfl := List.mem_singleton.mp member
      rfl
    · have same : between.buffer = state.buffer := buffer
      rw [← same] at quiet
      exact (@ready_transfer config bus write address 4 func false ⟨address, 0, 4⟩ (0, 4)
        between ⟨after, quiet⟩ here whole inside).1.consistent
    · cases none

theorem segment_natOctets (value : Nat) :
    segment (fun index => (natOctets 4 value).getD index 0) 0 4 = natOctets 4 value := rfl

theorem eq_of_carriesReset
    (carries : config.carriesReset address.toNat
      (segment (fun index => (natOctets 4 value.toNat).getD index 0) 0 4) = true) :
    address = config.resetAddress ∧ value = config.resetValue := by
  obtain ⟨index, below, here, octets⟩ := carriesReset_iff.mp carries
  obtain rfl : index = 0 := by omega
  have word := address.isLt
  rw [Nat.add_zero, Nat.mod_eq_of_lt word] at here
  rw [segment_natOctets] at octets
  have numbers := congrArg octetsNat octets
  rw [octetsNat_natOctets, octetsNat_natOctets] at numbers
  refine ⟨BitVec.eq_of_toNat_eq here, BitVec.eq_of_toNat_eq ?_⟩
  omega

theorem consistent_afterWrite
    (kept : ¬ (address = config.resetAddress ∧ value = config.resetValue ∧
      (config.bus = .spi ∨ moved.events ≠ [])) → Consistent moved.state) :
    Consistent (afterWrite config address value moved) := by
  rw [afterWrite]
  split
  · exact consistent_resetBaseAddress _
  · next other => exact kept other

theorem does_step (lossless : Lossless config bus) (consistent : Consistent state)
  (quiet : action.Quiet config) :
    Does config action (step config bus state action) := by
  have nonzero : ∀ {moved : Progress State Transaction},
      (if moved.done = true then (0 : Int) else -eio) = 0 → moved.done = true := by
    intro moved returned
    split at returned
    · assumption
    · cases returned
  cases action with
  | dmRead address pointer buffer len =>
    rw [step]
    split
    · exact ⟨consistent, fun _ member => absurd member List.not_mem_nil,
        fun _ _ member => absurd member List.not_mem_nil, fun returned => by cases returned⟩
    · have ready : Ready config false address.toNat len.toNat { state with buffer := buffer } :=
        ⟨⟨consistent.bulk, consistent.register⟩, Bool.noConfusion⟩
      obtain ⟨kept, good⟩ := @dmMove_spec config bus false address.toNat len.toNat lossless
        pointer _ ready
      exact ⟨kept.consistent, fun transaction member => (good transaction member).1,
        fun _ transaction member => (good transaction member).2,
        fun returned => tiles_dmMove (nonzero returned)⟩
  | dmWrite address pointer data len =>
    rw [step]
    split
    · exact ⟨consistent, fun _ member => absurd member List.not_mem_nil,
        fun _ _ member => absurd member List.not_mem_nil, fun returned => by cases returned⟩
    · have ready : Ready config true address.toNat len.toNat { state with buffer := data } :=
        ⟨⟨consistent.bulk, consistent.register⟩, fun _ => quiet⟩
      obtain ⟨kept, good⟩ := @dmMove_spec config bus true address.toNat len.toNat lossless
        pointer _ ready
      exact ⟨kept.consistent, fun transaction member => (good transaction member).1,
        fun _ transaction member => (good transaction member).2,
        fun returned => tiles_dmMove (nonzero returned)⟩
  | reg32Read address buffer =>
    have start : Consistent { state with buffer := buffer } :=
      ⟨consistent.bulk, consistent.register⟩
    obtain ⟨good, tiles, kept, -⟩ := @reglMove_spec config bus lossless false address.toNat
      address.isLt _ start
    rw [step]
    simp only [regMove_eq]
    refine ⟨kept Bool.noConfusion, fun transaction member => (good transaction member).1,
      fun window transaction member => ?_, fun returned => tiles (nonzero returned)⟩
    rw [(good transaction member).2]
    exact window
  | reg32Write address value =>
    have start : Consistent { state with
        buffer := fun index => (natOctets 4 value.toNat).getD index 0 } :=
      ⟨consistent.bulk, consistent.register⟩
    obtain ⟨good, tiles, kept, idle⟩ := @reglMove_spec config bus lossless true address.toNat
      address.isLt _ start
    rw [step]
    simp only [regMove_eq]
    refine ⟨?_, fun transaction member => (good transaction member).1,
      fun window transaction member => ?_, fun returned => tiles (nonzero returned)⟩
    · refine consistent_afterWrite fun other => ?_
      by_cases none : (reglMove config bus true address.toNat { state with
          buffer := fun index => (natOctets 4 value.toNat).getD index 0 }).events = []
      · exact idle none
      · refine kept fun _ => ?_
        rw [← Bool.not_eq_true]
        intro carries
        obtain ⟨reset, resetValue⟩ := eq_of_carriesReset carries
        exact other ⟨reset, resetValue, Or.inr none⟩
    · rw [(good transaction member).2]
      exact window
  | setBusEnable enable =>
    rw [step]
    split
    · exact ⟨⟨consistent.bulk, consistent.register⟩,
        fun _ member => absurd member List.not_mem_nil,
        fun _ _ member => absurd member List.not_mem_nil, fun _ => rfl⟩
    · exact ⟨⟨Or.inl rfl, Or.inl rfl⟩, fun _ member => absurd member List.not_mem_nil,
        fun _ _ member => absurd member List.not_mem_nil, fun _ => rfl⟩

theorem consistent_run (lossless : Lossless config bus) (consistent : Consistent state)
    (quiet : ∀ action, action ∈ actions → action.Quiet config) :
    Consistent (run config bus state actions) := by
  induction actions generalizing state with
  | nil => exact consistent
  | cons action actions ih =>
    exact ih (does_step lossless consistent (quiet action List.mem_cons_self)).consistent
      fun other member => quiet other (List.mem_cons_of_mem _ member)

theorem Does.sound (does : Does config action outcome) :
    Sound config action outcome where
  held func := (does.consistent.kept func).imp_right fun kept => kept.1
  right window transaction member := by
    have belongs := does.belongs transaction member
    have inWindow := does.window window transaction member
    have inside := belongs.inside
    refine ⟨belongs.base, ?_⟩
    rw [Piece.InWindow] at inWindow
    rw [Transaction.place]
    omega
  moves window returned := by
    refine ⟨fun index below => ?_, fun transaction member => (does.belongs _ member).direction,
      fun transaction member => ?_, fun transaction member offset inside => ?_,
      fun transaction member => (does.belongs _ member).again⟩
    · have once := (does.tiles returned).countP_covers index
      rw [if_pos ⟨Nat.zero_le _, below⟩, List.countP_filterMap] at once
      rw [← once]
      refine List.countP_congr fun transaction _ => ?_
      rw [Transaction.fresh]
      cases transaction.again with
      | false => simp
      | true => simp
    · have belongs := does.belongs transaction member
      have part := belongs.part.inside
      have inside := belongs.inside
      rw [Transaction.start]
      omega
    · have belongs := does.belongs transaction member
      have address_eq := belongs.part.address_eq
      rw [window_of_base belongs.base, Transaction.place, Transaction.start]
      omega

/-- Every call of a run is sound, when no memory is written so that the chip is reset and no
operation is lost while failures are not looked at. -/
theorem sound_of_run (config : Config) (bus : Nat → Answer) (lossless : Lossless config bus)
    (state : State) (actions : List Action) (action : Action)
    (quiet : ∀ other, other ∈ actions ++ [action] → other.Quiet config) :
    Sound config action
      (step config bus (run config bus state.resetBaseAddress actions) action) := by
  have before := consistent_run lossless (consistent_resetBaseAddress state) fun other member =>
    quiet other (List.mem_append_left _ member)
  exact (does_step lossless before
    (quiet action (List.mem_append_right _ List.mem_cons_self))).sound

end Calls

/-! ## Examples -/

/-- A chip that has been reset. -/
def blankChip : Chip := ⟨⟨0, 0, 0⟩, ⟨0, 0, 0⟩⟩

/-- Every operation succeeds and reads ones. -/
def willing (_ : Nat) : Answer := ⟨0, false, fun _ => 1, blankChip⟩

/-- The first operation fails and is lost. -/
def failingFirst (time : Nat) : Answer :=
  ⟨if time = 0 then -5 else 0, false, fun _ => 1, blankChip⟩

/-- Some settings of a driver. -/
def settings (bus : Bus) (busDoubleRead : Bool) (xtalDelay : Nat) : Config where
  bus := bus
  maxBlockCount := 10
  maxBlockCount_pos := by decide
  busDoubleRead := busDoubleRead
  xtalDelay := xtalDelay
  bulkAlignment := 2
  resetAddress := 0x10054050
  resetValue := 0xdead

/-- The state after the driver is loaded. -/
def loaded : State where
  bulkAddrBase := baseAddrUnset
  registerAddrBase := baseAddrUnset
  enabled := true
  chip := blankChip
  clock := 0
  buffer := fun _ => 0

theorem sound_of_run_example :
    Sound (settings .spi true 0) (.reg32Read 0x10054050 fun _ => 0)
      (step (settings .spi true 0) willing
        (run (settings .spi true 0) willing loaded.resetBaseAddress
          [.dmWrite 0x80100000 0 (fun _ => 7) 1000, .reg32Write 0x10054050 0xdead])
        (.reg32Read 0x10054050 fun _ => 0)) := by
  refine sound_of_run (settings .spi true 0) willing (fun ignores => by cases ignores) loaded
    [.dmWrite 0x80100000 0 (fun _ => 7) 1000, .reg32Write 0x10054050 0xdead]
    (.reg32Read 0x10054050 fun _ => 0) fun other member => ?_
  rcases List.mem_cons.mp member with rfl | member
  · show Config.carriesReset _ _ _ = false
    rw [← Bool.not_eq_true]
    intro carries
    obtain ⟨index, below, here, octets⟩ := carriesReset_iff.mp carries
    have eights : natOctets 4 (settings .spi true 0).resetValue.toNat = [0xad, 0xde, 0, 0] := rfl
    rw [eights] at octets
    cases octets
  · rcases List.mem_cons.mp member with rfl | member
    · exact trivial
    · obtain rfl := List.mem_singleton.mp member
      exact trivial

/-- What would be relied on without exceptions. -/
def Strict (action : Action) (outcome : Outcome) : Prop :=
  (∀ func, Held (outcome.state.current func) (outcome.state.chip.get func)) ∧
    (∀ transaction, transaction ∈ outcome.events → transaction.Right) ∧
    (outcome.ret = 0 → ∀ index, index < action.extent.2.2 →
      outcome.events.countP (fun transaction =>
        covers index (transaction.start, transaction.length)) = 1)

/-- The first octets may be read twice; a failure that the SDIO driver does not look at leaves it
with a window that the chip does not have; so does a reset by a write of memory; and a register
access may cross a window. -/
theorem not_strict :
    ¬ Strict (.dmRead 0x80100000 0 (fun _ => 0) 8)
        (step (settings .spi true 0) willing loaded (.dmRead 0x80100000 0 (fun _ => 0) 8)) ∧
      ¬ Strict (.reg32Read 0x12340000 fun _ => 0)
        (step (settings .sdio false 1) failingFirst loaded (.reg32Read 0x12340000 fun _ => 0)) ∧
      ¬ Strict (.dmWrite 0x10054050 0 (fun index => (natOctets 4 0xdead).getD index 0) 4)
        (step (settings .spi false 0) willing loaded
          (.dmWrite 0x10054050 0 (fun index => (natOctets 4 0xdead).getD index 0) 4)) ∧
      ¬ Strict (.reg32Read 0x1000fffe fun _ => 0)
        (step (settings .spi false 0) willing loaded (.reg32Read 0x1000fffe fun _ => 0)) := by
  refine ⟨fun strict => ?_, fun strict => ?_, fun strict => ?_, fun strict => ?_⟩
  · have once := strict.2.2 (by decide +kernel) 0 (by decide +kernel)
    exact absurd once (by decide +kernel)
  · have held := strict.1 .func1
    rw [Held] at held
    exact absurd held (by decide +kernel)
  · have held := strict.1 .func1
    rw [Held] at held
    exact absurd held (by decide +kernel)
  · have some : ∃ transaction, transaction ∈ (step (settings .spi false 0) willing loaded
        (.reg32Read 0x1000fffe fun _ => 0)).events ∧
        ¬ transaction.place + transaction.length ≤ 2 ^ 16 := by
      decide +kernel
    obtain ⟨transaction, member, crossing⟩ := some
    exact crossing (strict.2.1 transaction member).within

end Window
end Morse
