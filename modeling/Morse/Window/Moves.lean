import Morse.Window.Bases

/-!
# What the transactions of a call move

A call is cut at the ends of the windows, then into transfers and blocks.  Every transaction goes
through a window of the address it belongs to, and when nothing fails they tile the buffer.
-/

namespace Morse
namespace Window

open Lib

/-! ## Cuts -/

theorem tiles_cuts (positive : ∀ offset, 0 < room offset) (enough : size - offset ≤ turns)
  (below : offset ≤ size) :
    Tiles offset size (cuts room size turns offset) := by
  induction turns generalizing offset with
  | zero =>
    have same : offset = size := by omega
    exact same
  | succ turns ih =>
    have some := positive offset
    rw [cuts]
    split
    · exact ⟨rfl, by omega, ih (by omega) (by omega)⟩
    · next past =>
        have same : offset = size := by omega
        exact same

theorem le_room_of_mem_cuts
    (member : part ∈ cuts room size turns offset) : part.2 ≤ room part.1 := by
  induction turns generalizing offset with
  | zero => cases member
  | succ turns ih =>
    rw [cuts] at member
    split at member
    · rcases List.mem_cons.mp member with rfl | later
      · exact Nat.min_le_right _ _
      · exact ih later
    · cases member

theorem tiles_spiBlocks {maxBlockCount blks turns blksDone : Nat} (positive : 0 < maxBlockCount)
    (enough : blks - blksDone ≤ turns) (below : blksDone ≤ blks) :
    Tiles (blksDone * mmcSpiBlocksize) (blks * mmcSpiBlocksize)
      (spiBlocks maxBlockCount blks turns blksDone) := by
  induction turns generalizing blksDone with
  | zero =>
    have same : blksDone = blks := by omega
    rw [same]
    rfl
  | succ turns ih =>
    rw [spiBlocks]
    split
    · have same : blksDone = blks := by omega
      rw [same]
      rfl
    · next left =>
        refine ⟨rfl, Nat.mul_pos (by omega) (by decide), ?_⟩
        rw [← Nat.add_mul]
        exact ih (by omega) (by omega)

theorem tiles_octets (start count : Nat) :
    Tiles start (start + count) ((List.range' start count).map fun index => (index, 1)) := by
  induction count generalizing start with
  | zero => rfl
  | succ count ih =>
    refine ⟨rfl, Nat.one_pos, ?_⟩
    have rest := ih (start + 1)
    rwa [Nat.add_assoc, Nat.add_comm 1 count] at rest

theorem tiles_parts (config : Config) (positive : 0 < size) :
    Tiles 0 size (config.parts size) := by
  rw [Config.parts]
  cases config.bus with
  | spi =>
    dsimp only
    have whole : (size - size % mmcSpiBlocksize) / mmcSpiBlocksize * mmcSpiBlocksize +
        size % mmcSpiBlocksize = size := by
      rw [mmcSpiBlocksize]
      omega
    generalize (size - size % mmcSpiBlocksize) / mmcSpiBlocksize = blks at whole ⊢
    have blocks := @tiles_spiBlocks config.maxBlockCount blks _ 0 config.maxBlockCount_pos
      (Nat.le_refl _) (Nat.zero_le _)
    refine blocks.append ?_
    split
    · next none =>
        rw [none, Nat.add_zero] at whole
        exact whole
    · next some => exact ⟨rfl, Nat.pos_of_ne_zero some, whole⟩
  | sdio =>
    dsimp only
    split
    · have octets := tiles_octets 0 size
      rwa [Nat.zero_add, ← List.range_eq_range'] at octets
    · exact ⟨rfl, positive, Nat.zero_add size⟩

/-! ## Resets -/

theorem carriesReset_iff {config : Config} :
    config.carriesReset address (segment buffer start length) = true ↔
      ∃ index, index + 4 ≤ length ∧ (address + index) % 2 ^ 32 = config.resetAddress.toNat ∧
        segment buffer (start + index) 4 = natOctets 4 config.resetValue.toNat := by
  simp only [Config.carriesReset, List.any_eq_true, List.mem_range, length_segment,
    decide_eq_true_eq, take_drop_segment]
  constructor
  · rintro ⟨index, below, here, value⟩
    have long := congrArg List.length value
    rw [length_segment] at long
    have four : min 4 (length - index) = 4 := long
    rw [four] at value
    exact ⟨index, by omega, here, value⟩
  · rintro ⟨index, below, here, value⟩
    refine ⟨index, by omega, here, ?_⟩
    have four : min 4 (length - index) = 4 := by omega
    rw [four, value]

theorem carriesReset_part {config : Config} {address first start length whole : Nat}
    {buffer : Nat → BitVec 8} (quiet : config.carriesReset address (segment buffer 0 whole) = false)
    (same : first % 2 ^ 32 = (address + start) % 2 ^ 32) (inside : start + length ≤ whole) :
    config.carriesReset first (segment buffer start length) = false := by
  rw [← Bool.not_eq_true] at quiet ⊢
  intro carries
  obtain ⟨index, below, here, value⟩ := carriesReset_iff.mp carries
  refine quiet (carriesReset_iff.mpr ⟨start + index, by omega, ?_, ?_⟩)
  · omega
  · rw [Nat.zero_add]
    exact value

/-! ## Transactions of a call -/

/-- The function of a transaction has the window and the width of the piece that it moves, and the
transaction stays inside the window. -/
structure Transaction.Right (transaction : Transaction) : Prop where
  base : transaction.registers.base =
    calculateBaseAddress transaction.piece.address (accessOf transaction.piece.size)
  within : transaction.place + transaction.length ≤ 2 ^ 16

/-- A piece is a part of what a call moves. -/
structure Piece.Of (piece : Piece) (address length : Nat) : Prop where
  address_eq : piece.address = (address + piece.start) % 2 ^ 32
  positive : 0 < piece.size
  inside : piece.start + piece.size ≤ length

/-- It does not cross the end of a window. -/
def Piece.InWindow (piece : Piece) : Prop := piece.address % 2 ^ 16 + piece.size ≤ 2 ^ 16

/-- What holds of a transaction of a call. -/
structure Belongs (config : Config) (write : Bool) (address length : Nat)
    (transaction : Transaction) : Prop where
  direction : transaction.write = write
  base : transaction.registers.base =
    calculateBaseAddress transaction.piece.address (accessOf transaction.piece.size)
  part : transaction.piece.Of address length
  inside : transaction.done + transaction.length ≤ transaction.piece.size
  /-- Only the first eight octets of a piece are read again, by four octets at a time. -/
  again : transaction.again = true →
    config.busDoubleRead = true ∧ write = false ∧ transaction.piece.size % 4 = 0 ∧
      transaction.done = 0 ∧ transaction.length = 8

/-- Where a transaction begins in the buffer and how long it is, unless it reads again. -/
def Transaction.fresh (transaction : Transaction) : Option (Nat × Nat) :=
  if transaction.again then none else some (transaction.start, transaction.length)

theorem window_of_base {registers : Registers}
    (base : registers.base = calculateBaseAddress address access) :
    registers.window = address / 2 ^ 16 * 2 ^ 16 := by
  have window : registers.window =
      (registers.window1.toNat * 256 + registers.window0.toNat) * 65536 := by
    rw [Registers.window]
    omega
  have width : registers.config.toNat < 65536 :=
    Nat.lt_of_lt_of_le registers.config.isLt (by decide)
  have small : access % 4 < 65536 := by omega
  have unique : ∀ high other low rest : Nat, low < 65536 → rest < 65536 →
      high * 65536 + low = other * 65536 + rest → high = other := by omega
  rw [Registers.base, window] at base
  exact window.trans (congrArg (fun high => high * 65536) (unique _ _ _ _ width small base))

section Moving

variable {config : Config} {bus : Nat → Answer} {write : Bool} {address length : Nat}

/-- What holds between the transactions of a call: the windows are kept track of, and what is
written stays in the buffer and carries no reset. -/
structure Ready (config : Config) (write : Bool) (address length : Nat) (state : State) :
    Prop where
  consistent : Consistent state
  quiet : write = true → config.carriesReset address (segment state.buffer 0 length) = false

theorem belongs_transfer {part : Nat × Nat} {state : State}
    (base : (state.chip.get func).base =
      calculateBaseAddress piece.address (accessOf piece.size))
    (whole : piece.Of address length)
    (inside : part.1 + part.2 ≤ piece.size)
    (repeated : again = true →
      config.busDoubleRead = true ∧ write = false ∧ piece.size % 4 = 0 ∧ part.1 = 0 ∧ part.2 = 8) :
    ∀ transaction, transaction ∈ (transfer config bus func write again piece part state).events →
      Belongs config write address length transaction := by
  intro transaction member
  obtain rfl := List.mem_singleton.mp member
  exact ⟨rfl, base, whole, inside, repeated⟩

theorem ready_transfer {part : Nat × Nat} {state : State}
    (ready : Ready config write address length state)
    (base : (state.chip.get func).base =
      calculateBaseAddress piece.address (accessOf piece.size))
    (whole : piece.Of address length)
    (inside : part.1 + part.2 ≤ piece.size) :
    Ready config write address length
        (transfer config bus func write again piece part state).state ∧
      (transfer config bus func write again piece part state).state.chip = state.chip := by
  have chip : (transfer config bus func write again piece part state).state.chip = state.chip := by
    cases write with
    | false => rfl
    | true =>
      have room := whole.inside
      have window := window_of_base base
      have address_eq := whole.address_eq
      have quiet := @carriesReset_part config address
        ((state.chip.get func).window + (piece.address % 2 ^ 16 + part.1))
        (piece.start + part.1) part.2 length state.buffer (ready.quiet rfl)
        (by omega) (by omega)
      simp only [transfer, Transaction.place, Transaction.start, quiet, Bool.and_false]
      rfl
  refine ⟨⟨?_, ?_⟩, chip⟩
  · have consistent := ready.consistent
    refine ⟨?_, ?_⟩
    · rw [chip]
      exact consistent.bulk
    · rw [chip]
      exact consistent.register
  · intro writes
    subst writes
    exact ready.quiet rfl

theorem memMove_spec (lossless : Lossless config bus) {pointer : Nat} {piece : Piece}
    {state : State} (ready : Ready config write address length state)
    (whole : piece.Of address length) :
    Ready config write address length (memMove config bus write pointer piece state).state ∧
      ∀ transaction,
        transaction ∈ (memMove config bus write pointer piece state).events →
          Belongs config write address length transaction ∧ transaction.piece = piece := by
  have word : piece.address < 2 ^ 32 := by
    rw [whole.address_eq]
    exact Nat.mod_lt _ (by decide)
  obtain ⟨consistent, buffer, base⟩ := @getFunc_spec config bus lossless piece.address word
    piece.size (accessOf piece.size) state ready.consistent
  rw [memMove]
  generalize getFunc config bus piece.address piece.size (accessOf piece.size) state = result
    at consistent buffer base
  obtain ⟨func, after⟩ := result
  have prepared : Ready config write address length after := by
    refine ⟨consistent, ?_⟩
    have same : after.buffer = state.buffer := buffer
    rw [same]
    exact ready.quiet
  cases func with
  | none => exact ⟨prepared, fun transaction member => absurd member List.not_mem_nil⟩
  | some func =>
    have here : (after.chip.get func).base =
        calculateBaseAddress piece.address (accessOf piece.size) := base func rfl
    dsimp only
    split
    · exact ⟨prepared, fun transaction member => absurd member List.not_mem_nil⟩
    · have each : ∀ part, part ∈ config.parts piece.size → ∀ between,
          Ready config write address length between ∧ (between.chip.get func).base =
            calculateBaseAddress piece.address (accessOf piece.size) →
          (Ready config write address length
              (transfer config bus func write false piece part between).state ∧
            ((transfer config bus func write false piece part between).state.chip.get func).base =
              calculateBaseAddress piece.address (accessOf piece.size)) ∧
            ∀ transaction,
              transaction ∈ (transfer config bus func write false piece part between).events →
                Belongs config write address length transaction ∧ transaction.piece = piece := by
        rintro part member between ⟨readyBetween, baseBetween⟩
        have inside := ((tiles_parts config whole.positive).inside member).2.2
        obtain ⟨kept, chip⟩ := @ready_transfer config bus write address length func false piece
          part between readyBetween baseBetween whole inside
        refine ⟨⟨kept, chip ▸ baseBetween⟩, fun transaction here => ⟨?_, ?_⟩⟩
        · exact belongs_transfer baseBetween whole inside Bool.noConfusion transaction here
        · rw [List.mem_singleton.mp here]
      obtain ⟨⟨last, lastBase⟩, good⟩ := inTurn_invariant each ⟨prepared, here⟩
      split
      · next twice =>
          simp only [Bool.and_eq_true, Bool.not_eq_true', decide_eq_true_eq] at twice
          obtain ⟨⟨⟨-, reads⟩, words, eight⟩, doubled⟩ := twice
          have inside : ((0, 8) : Nat × Nat).1 + ((0, 8) : Nat × Nat).2 ≤ piece.size := by
            omega
          have double : config.busDoubleRead = true := by
            rw [Config.repeated, Bool.and_eq_true, Bool.and_eq_true] at doubled
            exact doubled.1.1
          subst reads
          obtain ⟨kept, -⟩ := @ready_transfer config bus false address length func true piece
            (0, 8) _ last lastBase whole inside
          refine ⟨kept, fun transaction member => ?_⟩
          rcases List.mem_append.mp member with before | again
          · exact good transaction before
          · refine ⟨belongs_transfer lastBase whole inside
              (fun _ => ⟨double, rfl, words, rfl, rfl⟩) transaction again, ?_⟩
            rw [List.mem_singleton.mp again]
      · exact ⟨last, good⟩

theorem tiles_memMove (positive : 0 < piece.size)
    (done : (memMove config bus write pointer piece state).done = true) :
    Tiles piece.start (piece.start + piece.size)
      ((memMove config bus write pointer piece state).events.filterMap Transaction.fresh) := by
  rw [memMove] at done ⊢
  generalize getFunc config bus piece.address piece.size (accessOf piece.size) state = result
    at done ⊢
  obtain ⟨func, after⟩ := result
  cases func with
  | none => cases done
  | some func =>
    dsimp only at done ⊢
    split at done
    · cases done
    · next aligned =>
        rw [if_neg aligned]
        have parts := tiles_parts config positive
        have each : ∀ part, part ∈ config.parts piece.size → ∀ between,
            (transfer config bus func write false piece part between).done = true →
            Tiles (piece.start + part.1) (piece.start + part.1 + part.2)
              ((transfer config bus func write false piece part between).events.filterMap
                Transaction.fresh) :=
          fun part member between _ => ⟨rfl, (parts.inside member).2.1, rfl⟩
        have moved := @inTurn_tiles _ _ _ _ _ _ _ piece.start parts each after
        split at done
        · next twice =>
            rw [if_pos twice]
            simp only [Bool.and_eq_true] at twice
            have first := moved twice.1.1.1
            simpa [transfer, Transaction.fresh] using first
        · next once =>
            rw [if_neg once]
            exact moved done

theorem Piece.Of.cut {piece : Piece} (whole : piece.Of address length)
    {part : Nat × Nat} (positive : 0 < part.2) (inside : part.1 + part.2 ≤ piece.size) :
    Piece.Of ⟨(piece.address + part.1) % 2 ^ 32, piece.start + part.1, part.2⟩ address length where
  address_eq := by
    dsimp only
    rw [whole.address_eq]
    omega
  positive := positive
  inside := by
    have room := whole.inside
    dsimp only
    omega

theorem Piece.InWindow.cut {piece : Piece} (window : piece.InWindow) {part : Nat × Nat}
    (inside : part.1 + part.2 ≤ piece.size) :
    Piece.InWindow ⟨(piece.address + part.1) % 2 ^ 32, piece.start + part.1, part.2⟩ := by
  rw [Piece.InWindow] at window ⊢
  dsimp only
  omega

theorem tiles_transfers (size : Nat) :
    Tiles 0 size (cuts (fun _ => spiMaxTransferSize) size size 0) :=
  tiles_cuts (fun _ => by decide) (Nat.sub_le _ _) (Nat.zero_le _)

theorem tiles_windows (address size : Nat) :
    Tiles 0 size (cuts (windowRoom address) size size 0) := by
  refine tiles_cuts (fun offset => ?_) (Nat.sub_le _ _) (Nat.zero_le _)
  rw [windowRoom]
  omega

theorem untilDone_spec (lossless : Lossless config bus)
    (ready : Ready config write address length state) (whole : piece.Of address length)
    (window : piece.InWindow) :
    Ready config write address length (untilDone config bus write pointer piece state).state ∧
      ∀ transaction,
        transaction ∈ (untilDone config bus write pointer piece state).events →
          Belongs config write address length transaction ∧ transaction.piece.InWindow := by
  refine inTurn_invariant (fun part member between prepared => ?_) ready
  obtain ⟨-, positive, inside⟩ := (tiles_transfers piece.size).inside member
  obtain ⟨kept, belongs⟩ := @memMove_spec config bus write address length lossless pointer _ between
    prepared (whole.cut positive inside)
  refine ⟨kept, fun transaction here => ?_⟩
  obtain ⟨belongs, same⟩ := belongs transaction here
  rw [same]
  exact ⟨belongs, window.cut inside⟩

theorem tiles_untilDone (done : (untilDone config bus write pointer piece state).done = true) :
    Tiles piece.start (piece.start + piece.size)
      ((untilDone config bus write pointer piece state).events.filterMap
        Transaction.fresh) := by
  rw [untilDone, Bool.and_eq_true] at done
  have transfers := tiles_transfers piece.size
  refine @inTurn_tiles _ _ _ _ _ _ _ piece.start transfers (fun part member between worked => ?_)
    state done.1
  exact tiles_memMove (transfers.inside member).2.1 worked

theorem dmMove_spec (lossless : Lossless config bus) {pointer : Nat} {state : State}
    (ready : Ready config write address length state) :
    Ready config write address length (dmMove config bus write address pointer length state).state ∧
      ∀ transaction,
        transaction ∈ (dmMove config bus write address pointer length state).events →
          Belongs config write address length transaction ∧ transaction.piece.InWindow := by
  refine inTurn_invariant (fun part member between prepared => ?_) ready
  obtain ⟨-, positive, inside⟩ := (tiles_windows address length).inside member
  have whole : Piece.Of ⟨(address + part.1) % 2 ^ 32, part.1, part.2⟩ address length :=
    ⟨rfl, positive, inside⟩
  have window : Piece.InWindow ⟨(address + part.1) % 2 ^ 32, part.1, part.2⟩ := by
    have room := le_room_of_mem_cuts member
    rw [windowRoom] at room
    rw [Piece.InWindow]
    dsimp only
    omega
  cases config.bus with
  | spi => exact untilDone_spec lossless prepared whole window
  | sdio =>
    obtain ⟨kept, belongs⟩ := @memMove_spec config bus write address length lossless pointer _
      between prepared whole
    refine ⟨kept, fun transaction here => ?_⟩
    obtain ⟨belongs, same⟩ := belongs transaction here
    rw [same]
    exact ⟨belongs, window⟩

theorem tiles_dmMove (done : (dmMove config bus write address pointer length state).done = true) :
    Tiles 0 length
      ((dmMove config bus write address pointer length state).events.filterMap
        Transaction.fresh) := by
  have windows := tiles_windows address length
  suffices moved : Tiles (0 + 0) (0 + length) _ by rwa [Nat.zero_add, Nat.zero_add] at moved
  refine inTurn_tiles windows (fun part member between worked => ?_) done
  rw [Nat.zero_add]
  cases kind : config.bus with
  | spi =>
    rw [kind] at worked
    exact tiles_untilDone worked
  | sdio =>
    rw [kind] at worked
    exact tiles_memMove (windows.inside member).2.1 worked

/-! ## Registers -/

theorem regMove_eq (address : Nat) (state : State) :
    regMove config bus write address state = reglMove config bus write address state := by
  rw [regMove]
  cases kind : config.bus with
  | sdio => rfl
  | spi =>
    have parts : config.parts 4 = [(0, 4)] := by
      rw [Config.parts, kind]
      rfl
    have access : accessOf 4 = 2 := rfl
    rw [memMove, reglMove, access]
    generalize getFunc config bus address 4 2 state = result
    obtain ⟨func, after⟩ := result
    cases func with
    | none => rfl
    | some func =>
      simp only [kind, parts, inTurn_singleton, reduceCtorEq, false_and, if_false]
      split
      · next twice =>
          simp only [Bool.and_eq_true, decide_eq_true_eq] at twice
          omega
      · rfl

end Moving

end Window
end Morse
