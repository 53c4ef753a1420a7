import Morse.Window.Defs

/-!
# What the driver keeps of the windows

What is kept of the registers of a function is what they hold, or it is marked as unset.  Setting
the window of a function keeps it that way whatever fails meanwhile, and if nothing fails the
window is that of the address.
-/

namespace Morse
namespace Window

open Lib

/-! ## Bases -/

/-- A register is read. -/
def Registers.read (registers : Registers) : Register → BitVec 8
  | .window0 => registers.window0
  | .window1 => registers.window1
  | .config => registers.config

@[simp] theorem read_set_self (registers : Registers) (value : BitVec 8) (register : Register) :
    (registers.set value register).read register = value := by
  cases register <;> rfl

theorem read_set_other (registers : Registers) (value : BitVec 8) (different : other ≠ register) :
    (registers.set value register).read other = registers.read other := by
  cases register <;> cases other <;> first | rfl | exact absurd rfl different

/-- The registers for an address. -/
def target (address access : Nat) : Registers where
  window0 := BitVec.ofNat 8 (address / 2 ^ 16)
  window1 := BitVec.ofNat 8 (address / 2 ^ 24)
  config := BitVec.ofNat 8 (access % 4)

theorem base_target (word : address < 2 ^ 32) (access : Nat) :
    (target address access).base = calculateBaseAddress address access := by
  simp only [Registers.base, Registers.window, target, BitVec.toNat_ofNat, calculateBaseAddress]
  omega

theorem eq_of_read {registers other : Registers}
    (same : ∀ register, registers.read register = other.read register) : registers = other := by
  obtain ⟨window0, window1, config⟩ := registers
  obtain ⟨otherWindow0, otherWindow1, otherConfig⟩ := other
  have first : window0 = otherWindow0 := same .window0
  have second : window1 = otherWindow1 := same .window1
  have third : config = otherConfig := same .config
  rw [first, second, third]

theorem calculateBaseAddress_ne_unset (address access : Nat) :
    calculateBaseAddress address access ≠ baseAddrUnset := by
  rw [calculateBaseAddress, baseAddrUnset]
  omega

/-- What is kept of some registers is marked as unset, or it is what they hold, with a width that
the driver writes. -/
def Kept (current : Nat) (registers : Registers) : Prop :=
  current = baseAddrUnset ∨ (current = registers.base ∧ registers.config.toNat < 4)

theorem neededWrites_eq (current address access : Nat) :
    neededWrites current address access =
      [Register.window0, Register.window1, Register.config].filterMap fun register =>
        if current = baseAddrUnset ∨
            (target address access).read register ≠ (target current current).read register then
          some (register, (target address access).read register)
        else none := rfl

theorem value_of_needed (needed : write ∈ neededWrites current address access) :
    write.2 = (target address access).read write.1 := by
  rw [neededWrites_eq, List.mem_filterMap] at needed
  obtain ⟨register, -, found⟩ := needed
  split at found
  · obtain rfl := Option.some.inj found
    rfl
  · cases found

theorem read_of_kept (kept : Kept current registers)
    (set : current ≠ baseAddrUnset) (register : Register) :
    registers.read register = (target current current).read register := by
  obtain ⟨base, width⟩ := kept.resolve_left set
  simp only [Registers.base, Registers.window] at base
  apply BitVec.eq_of_toNat_eq
  cases register with
  | window0 =>
    simp only [Registers.read, target, BitVec.toNat_ofNat]
    omega
  | window1 =>
    simp only [Registers.read, target, BitVec.toNat_ofNat]
    omega
  | config =>
    simp only [Registers.read, target, BitVec.toNat_ofNat]
    omega

theorem read_of_not_needed (kept : Kept current registers)
    (idle : register ∉ (neededWrites current address access).map Prod.fst) :
    registers.read register = (target address access).read register := by
  have quiet : ¬ (current = baseAddrUnset ∨
      (target address access).read register ≠ (target current current).read register) := by
    intro needed
    refine idle (List.mem_map.mpr ⟨(register, (target address access).read register), ?_, rfl⟩)
    rw [neededWrites_eq, List.mem_filterMap]
    refine ⟨register, ?_, if_pos needed⟩
    cases register <;> decide
  obtain ⟨set, same⟩ := not_or.mp quiet
  rw [read_of_kept kept set, not_not.mp same]

/-! ## Writing the registers -/

@[simp] theorem get_set_self (chip : Chip) (func : Func) (register : Register) (value : BitVec 8) :
    (chip.set func register value).get func = (chip.get func).set value register := by
  cases func <;> rfl

theorem get_set_other (chip : Chip) (register : Register)
    (value : BitVec 8) (different : other ≠ func) :
    (chip.set func register value).get other = chip.get other := by
  cases func <;> cases other <;> first | rfl | exact absurd rfl different

/-- The registers of a function change on the way to those for an address, and nothing else does:
registers that are not written stay, and those that hold what they have to still do. -/
structure Approaches (func : Func) (goal : Registers) (written : List Register)
    (before after : State) : Prop where
  bulkAddrBase : after.bulkAddrBase = before.bulkAddrBase
  registerAddrBase : after.registerAddrBase = before.registerAddrBase
  buffer : after.buffer = before.buffer
  others : ∀ other, other ≠ func → after.chip.get other = before.chip.get other
  idle : ∀ register, register ∉ written →
    (after.chip.get func).read register = (before.chip.get func).read register
  stay : ∀ register, (before.chip.get func).read register = goal.read register →
    (after.chip.get func).read register = goal.read register

theorem Approaches.refl (func : Func) (goal : Registers) (written : List Register)
    (state : State) : Approaches func goal written state state :=
  ⟨rfl, rfl, rfl, fun _ _ => rfl, fun _ _ => rfl, fun _ same => same⟩

theorem Approaches.trans (first : Approaches func goal written before middle)
    (second : Approaches func goal written middle after) :
    Approaches func goal written before after where
  bulkAddrBase := second.bulkAddrBase.trans first.bulkAddrBase
  registerAddrBase := second.registerAddrBase.trans first.registerAddrBase
  buffer := second.buffer.trans first.buffer
  others other different := (second.others other different).trans (first.others other different)
  idle register away := (second.idle register away).trans (first.idle register away)
  stay register same := second.stay register (first.stay register same)

section Writes

variable {config : Config} {bus : Nat → Answer} {func : Func} {goal : Registers}
variable {written : List Register}

theorem approaches_writeByte (member : register ∈ written) (state : State) :
    Approaches func goal written state
      (writeByte bus func register (goal.read register) state).2 where
  bulkAddrBase := rfl
  registerAddrBase := rfl
  buffer := rfl
  others other different := by
    simp only [writeByte]
    split
    · exact get_set_other _ _ _ different
    · rfl
  idle other away := by
    have different : other ≠ register := fun same => away (same ▸ member)
    simp only [writeByte]
    split
    · rw [get_set_self, read_set_other _ _ different]
    · rfl
  stay other same := by
    simp only [writeByte]
    split
    · rw [get_set_self]
      by_cases here : other = register
      · rw [here, read_set_self]
      · rw [read_set_other _ _ here, same]
    · exact same

theorem approaches_writeBytes
    (values : ∀ write, write ∈ writes → write.2 = goal.read write.1 ∧ write.1 ∈ written)
    (state : State) :
    Approaches func goal written state (writeBytes config bus func writes state).2 := by
  induction writes generalizing state with
  | nil => exact .refl func goal written state
  | cons write writes ih =>
    obtain ⟨register, value⟩ := write
    obtain rfl : value = goal.read register := (values _ List.mem_cons_self).1
    have member : register ∈ written := (values _ List.mem_cons_self).2
    have first := @approaches_writeByte bus func goal written register member state
    have rest := ih
      (fun other later => values other (List.mem_cons_of_mem _ later))
    rw [writeBytes]
    dsimp only
    split
    · exact first
    · exact first.trans (rest _)

/-- No operation is lost while failures are not looked at. -/
def Lossless (config : Config) (bus : Nat → Answer) : Prop :=
  config.ignores = true → ∀ time, (bus time).took = true

theorem read_writeBytes (lossless : Lossless config bus)
    (values : ∀ write, write ∈ writes → write.2 = goal.read write.1)
    (success : (writeBytes config bus func writes state).1 = 0)
    (member : register ∈ writes.map Prod.fst) :
    ((writeBytes config bus func writes state).2.chip.get func).read register =
      goal.read register := by
  induction writes generalizing state with
  | nil => cases member
  | cons write writes ih =>
    obtain ⟨other, value⟩ := write
    obtain rfl : value = goal.read other := values _ List.mem_cons_self
    have later : ∀ write, write ∈ writes → write.2 = goal.read write.1 :=
      fun write here => values write (List.mem_cons_of_mem _ here)
    rw [writeBytes] at success ⊢
    dsimp only at success ⊢
    split at success
    · next failed => exact absurd success failed.1
    · next worked =>
        rw [if_neg worked]
        have took : (bus state.clock).took = true := by
          cases ignores : config.ignores with
          | true => exact lossless ignores _
          | false =>
            have status : (bus state.clock).status = 0 := by
              by_contra wrong
              exact worked ⟨wrong, ignores⟩
            rw [Answer.took, status]
            rfl
        by_cases again : register ∈ writes.map Prod.fst
        · exact ih later success again
        · have here : register = other := by
            exact (List.mem_cons.mp member).resolve_right again
          have rest := @approaches_writeBytes config bus func goal (writes.map Prod.fst) writes
            (fun write member => ⟨later write member, List.mem_map_of_mem member⟩)
            (writeByte bus func other (goal.read other) state).2
          rw [rest.idle register again, here]
          simp only [writeByte, if_pos took, get_set_self, read_set_self]

theorem approaches_attempts
    (values : ∀ write, write ∈ writes → write.2 = goal.read write.1 ∧ write.1 ∈ written)
    (retries : Nat) (state : State) :
    Approaches func goal written state (attempts config bus func writes retries state).2 := by
  induction retries generalizing state with
  | zero => exact approaches_writeBytes values state
  | succ retries ih =>
    rw [attempts]
    dsimp only
    split
    · exact (approaches_writeBytes values state).trans (ih _)
    · exact approaches_writeBytes values state

theorem read_attempts (lossless : Lossless config bus) {writes : List (Register × BitVec 8)}
    (values : ∀ write, write ∈ writes → write.2 = goal.read write.1) {retries : Nat} {state : State}
    (success : (attempts config bus func writes retries state).1 = 0) {register : Register}
    (member : register ∈ writes.map Prod.fst) :
    ((attempts config bus func writes retries state).2.chip.get func).read register =
      goal.read register := by
  induction retries generalizing state with
  | zero => exact read_writeBytes lossless values success member
  | succ retries ih =>
    rw [attempts] at success ⊢
    dsimp only at success ⊢
    split at success
    · next late =>
        rw [if_pos late]
        exact ih success
    · next settled =>
        rw [if_neg settled]
        exact read_writeBytes lossless values success member

end Writes

/-! ## Setting a window -/

/-- Both functions are kept track of. -/
structure Consistent (state : State) : Prop where
  bulk : Kept state.bulkAddrBase state.chip.func2
  register : Kept state.registerAddrBase state.chip.func1

theorem Consistent.kept (consistent : Consistent state) (func : Func) :
    Kept (state.current func) (state.chip.get func) := by
  cases func with
  | func1 => exact consistent.register
  | func2 => exact consistent.bulk

theorem Consistent.of_kept
    (kept : ∀ func, Kept (state.current func) (state.chip.get func)) : Consistent state :=
  ⟨kept .func2, kept .func1⟩

@[simp] theorem chip_keep (state : State) (base : Nat) (func : Func) :
    (state.keep base func).chip = state.chip := by
  cases func <;> rfl

@[simp] theorem buffer_keep (state : State) (base : Nat) (func : Func) :
    (state.keep base func).buffer = state.buffer := by
  cases func <;> rfl

@[simp] theorem current_keep_self (state : State) (base : Nat) (func : Func) :
    (state.keep base func).current func = base := by
  cases func <;> rfl

theorem current_keep_other (state : State) (base : Nat) (different : other ≠ func) :
    (state.keep base func).current other = state.current other := by
  cases other <;> cases func <;> first | rfl | exact absurd rfl different

section Setting

variable {config : Config} {bus : Nat → Answer}

theorem setFuncAddressBase_spec (lossless : Lossless config bus)
    {address : Nat} (word : address < 2 ^ 32) (access : Nat) (func : Func) {state : State}
    (consistent : Consistent state) :
    Consistent (setFuncAddressBase config bus address access func state).2 ∧
      (setFuncAddressBase config bus address access func state).2.buffer = state.buffer ∧
      ((setFuncAddressBase config bus address access func state).1 = 0 →
        ((setFuncAddressBase config bus address access func state).2.chip.get func).base =
          calculateBaseAddress address access) := by
  have kept := consistent.kept func
  rw [setFuncAddressBase]
  split
  · next same =>
      refine ⟨consistent, rfl, fun _ => ?_⟩
      rw [← (kept.resolve_left same.2).1, same.1]
  · have values : ∀ write, write ∈ neededWrites (state.current func) address access →
        write.2 = (target address access).read write.1 ∧
          write.1 ∈ (neededWrites (state.current func) address access).map Prod.fst :=
      fun write needed => ⟨value_of_needed needed, List.mem_map_of_mem needed⟩
    have approach := @approaches_attempts config bus func (target address access) _ _ values
      config.maxRetries state
    have reached := @read_attempts config bus func (target address access) lossless
      (neededWrites (state.current func) address access) (fun write needed =>
        (values write needed).1) config.maxRetries state
    generalize attempts config bus func (neededWrites (state.current func) address access)
      config.maxRetries state = result at approach reached
    obtain ⟨ret, after⟩ := result
    have full : ret = 0 → after.chip.get func = target address access := by
      intro success
      refine eq_of_read fun register => ?_
      by_cases needed :
          register ∈ (neededWrites (state.current func) address access).map Prod.fst
      · exact reached success needed
      · rw [approach.idle register needed]
        exact read_of_not_needed kept needed
    have others : ∀ other, other ≠ func → Kept (after.current other) (after.chip.get other) := by
      intro other different
      have same : after.current other = state.current other := by
        cases other with
        | func1 => exact approach.registerAddrBase
        | func2 => exact approach.bulkAddrBase
      rw [same, approach.others other different]
      exact consistent.kept other
    refine ⟨Consistent.of_kept fun other => ?_, ?_, fun success => ?_⟩
    · rw [chip_keep]
      by_cases here : other = func
      · rw [here, current_keep_self]
        split
        · next success =>
            refine Or.inr ⟨?_, ?_⟩
            · rw [full success, base_target word]
            · rw [full success]
              simp only [target, BitVec.toNat_ofNat]
              omega
        · exact Or.inl rfl
      · rw [current_keep_other _ _ here]
        exact others other here
    · rw [buffer_keep]
      exact approach.buffer
    · rw [chip_keep, full success, base_target word]

theorem getFunc_spec (lossless : Lossless config bus)
    {address : Nat} (word : address < 2 ^ 32) (size access : Nat) {state : State}
    (consistent : Consistent state) :
    Consistent (getFunc config bus address size access state).2 ∧
      (getFunc config bus address size access state).2.buffer = state.buffer ∧
      ∀ func, (getFunc config bus address size access state).1 = some func →
        ((getFunc config bus address size access state).2.chip.get func).base =
          calculateBaseAddress address access := by
  have setting := fun func =>
    @setFuncAddressBase_spec config bus lossless address word access func state consistent
  rw [getFunc]
  split
  · obtain ⟨after, buffer, base⟩ := setting .func2
    refine ⟨after, buffer, fun func used => ?_⟩
    dsimp only at used
    split at used
    · next success =>
        obtain rfl := Option.some.inj used
        exact base success
    · cases used
  · split
    · next same =>
        refine ⟨consistent, rfl, fun func used => ?_⟩
        obtain rfl := Option.some.inj used
        have set : state.bulkAddrBase ≠ baseAddrUnset := by
          rw [same]
          exact calculateBaseAddress_ne_unset address access
        exact (consistent.bulk.resolve_left set).1.symm.trans same
    · obtain ⟨after, buffer, base⟩ := setting .func1
      refine ⟨after, buffer, fun func used => ?_⟩
      dsimp only at used
      split at used
      · next success =>
          obtain rfl := Option.some.inj used
          exact base success
      · cases used

end Setting

end Window
end Morse
