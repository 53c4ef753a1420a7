import Morse.Lib.Octets
import Morse.Lib.Pieces
import Morse.Lib.Segment

/-!
# Address windows

Over SPI and SDIO the memory of the chip is reached through windows of 64 KiB.  Two functions have
registers for the window and for the width of an access, one of them for bulk data and one for
registers.  The driver keeps what it wrote there, and writes only the octets that change.

What the bus answers to each single operation is an input.  An operation that fails may have been
carried out all the same, and a reset may leave anything in the registers.
-/

namespace Morse
namespace Window

open Lib

/-! ## The chip -/

/-- The window registers of a function. -/
structure Registers where
  window0 : BitVec 8
  window1 : BitVec 8
  config : BitVec 8
  deriving DecidableEq

/-- `MORSE_REG_ADDRESS_WINDOW_0`, `MORSE_REG_ADDRESS_WINDOW_1` and `MORSE_REG_ADDRESS_CONFIG`. -/
inductive Register
  | window0
  | window1
  | config
  deriving DecidableEq

/-- A register is written. -/
def Registers.set (registers : Registers) (value : BitVec 8) : Register → Registers
  | .window0 => { registers with window0 := value }
  | .window1 => { registers with window1 := value }
  | .config => { registers with config := value }

/-- Where the window of a function begins. -/
def Registers.window (registers : Registers) : Nat :=
  registers.window1.toNat * 2 ^ 24 + registers.window0.toNat * 2 ^ 16

/-- The window and the width of an access in one word, as the driver keeps them. -/
def Registers.base (registers : Registers) : Nat := registers.window + registers.config.toNat

/-- `SPI_SDIO_FUNC_1` and `SPI_SDIO_FUNC_2`. -/
inductive Func
  | func1
  | func2
  deriving DecidableEq

/-- The registers of both functions. -/
structure Chip where
  func1 : Registers
  func2 : Registers
  deriving DecidableEq

/-- The registers of a function. -/
def Chip.get (chip : Chip) : Func → Registers
  | .func1 => chip.func1
  | .func2 => chip.func2

/-- A register of a function is written. -/
def Chip.set (chip : Chip) (func : Func) (register : Register) (value : BitVec 8) : Chip :=
  match func with
  | .func1 => { chip with func1 := chip.func1.set value register }
  | .func2 => { chip with func2 := chip.func2.set value register }

/-! ## The bus -/

/-- What the bus answers to an operation. -/
structure Answer where
  /-- Zero, or the error. -/
  status : Int
  /-- Whether it has been carried out although it failed. -/
  carried : Bool
  /-- What is read. -/
  data : Nat → BitVec 8
  /-- What the registers hold after a reset. -/
  after : Chip

/-- The operation has been carried out. -/
def Answer.took (answer : Answer) : Bool := answer.status == 0 || answer.carried

/-- The two drivers. -/
inductive Bus
  | spi
  | sdio
  deriving DecidableEq

/-- What does not change. -/
structure Config where
  bus : Bus
  /-- `mspi->max_block_count`, of the SPI driver. -/
  maxBlockCount : Nat
  maxBlockCount_pos : 0 < maxBlockCount
  /-- `bus_double_read`. -/
  busDoubleRead : Bool
  /-- `xtal_init_bus_trans_delay_ms`. -/
  xtalDelay : Nat
  /-- `bulk_alignment`, of the SDIO driver. -/
  bulkAlignment : Nat
  /-- `MORSE_REG_RESET` and `MORSE_REG_RESET_VALUE`. -/
  resetAddress : BitVec 32
  resetValue : BitVec 32

/-- The driver and the chip.  The clock counts the operations on the bus so far, and the buffer
is that of the call. -/
structure State where
  bulkAddrBase : Nat
  registerAddrBase : Nat
  enabled : Bool
  chip : Chip
  clock : Nat
  buffer : Nat → BitVec 8

/-- `MORSE_SPI_BASE_ADDR_UNSET` and `MORSE_SDIO_BASE_ADDR_UNSET`. -/
def baseAddrUnset : Nat := 0xffffffff

/-- `MORSE_CONFIG_ACCESS_1BYTE` or `MORSE_CONFIG_ACCESS_4BYTE`, by the size of an access. -/
def accessOf (size : Nat) : Nat := if size % 4 ≠ 0 then 0 else 2

/-- `morse_spi_calculate_base_address` and `morse_sdio_calculate_base_address`. -/
def calculateBaseAddress (address access : Nat) : Nat := address / 2 ^ 16 * 2 ^ 16 + access % 4

/-- What an access to a part of memory is to move. -/
structure Piece where
  /-- The address of its first octet. -/
  address : Nat
  /-- Where it stands in the buffer of the call. -/
  start : Nat
  size : Nat
  deriving DecidableEq

/-- A data transaction: some octets of a piece, and the registers of the function as they are in
the chip then. -/
structure Transaction where
  func : Func
  write : Bool
  /-- Whether it reads once more what has been read. -/
  again : Bool
  piece : Piece
  /-- How much of the piece comes before it. -/
  done : Nat
  length : Nat
  registers : Registers
  deriving DecidableEq

/-- The address that is given to the function. -/
def Transaction.place (transaction : Transaction) : Nat :=
  transaction.piece.address % 2 ^ 16 + transaction.done

/-- Where its octets begin in the buffer of the call. -/
def Transaction.start (transaction : Transaction) : Nat :=
  transaction.piece.start + transaction.done

section Driver

variable (config : Config) (bus : Nat → Answer)

/-! ## The windows -/

/-- `morse_spi_cmd52` and `sdio_writeb`, of a window register. -/
def writeByte (func : Func) (register : Register) (value : BitVec 8) (state : State) :
    Int × State :=
  ((bus state.clock).status,
    { state with
      clock := state.clock + 1
      chip := if (bus state.clock).took then state.chip.set func register value else state.chip })

/-- The octets that have to be written to get from a base address to another. -/
def neededWrites (current address access : Nat) : List (Register × BitVec 8) :=
  [(Register.window0, BitVec.ofNat 8 (address / 2 ^ 16), BitVec.ofNat 8 (current / 2 ^ 16)),
    (Register.window1, BitVec.ofNat 8 (address / 2 ^ 24), BitVec.ofNat 8 (current / 2 ^ 24)),
    (Register.config, BitVec.ofNat 8 (access % 4), BitVec.ofNat 8 (current % 4))].filterMap
    fun (register, value, old) =>
      if current = baseAddrUnset ∨ value ≠ old then some (register, value) else none

/-- With `xtal_init_bus_trans_delay_ms` the SDIO driver takes each write to have succeeded. -/
def Config.ignores (config : Config) : Bool := config.bus == .sdio && config.xtalDelay != 0

/-- The octets are written up to the first that fails. -/
def writeBytes (func : Func) : List (Register × BitVec 8) → State → Int × State
  | [], state => (0, state)
  | (register, value) :: writes, state =>
    let (ret, state) := writeByte bus func register value state
    if ret ≠ 0 ∧ config.ignores = false then (ret, state) else writeBytes func writes state

/-- `ETIMEDOUT`. -/
def etimedout : Int := 110

/-- They are written again after a timeout, so many times at most. -/
def attempts (func : Func) (writes : List (Register × BitVec 8)) :
    Nat → State → Int × State
  | 0, state => writeBytes config bus func writes state
  | retries + 1, state =>
    let (ret, state) := writeBytes config bus func writes state
    if ret = -etimedout then attempts func writes retries state else (ret, state)

/-- `max_retries` of the SDIO driver; the SPI driver does not try again. -/
def Config.maxRetries (config : Config) : Nat :=
  match config.bus with
  | .spi => 0
  | .sdio => 3

/-- What is kept of the registers of a function. -/
def State.current (state : State) : Func → Nat
  | .func1 => state.registerAddrBase
  | .func2 => state.bulkAddrBase

/-- It is replaced. -/
def State.keep (state : State) (base : Nat) : Func → State
  | .func1 => { state with registerAddrBase := base }
  | .func2 => { state with bulkAddrBase := base }

/-- `morse_spi_set_func_address_base` and `morse_sdio_set_func_address_base`. -/
def setFuncAddressBase (address access : Nat) (func : Func) (state : State) : Int × State :=
  let calculated := calculateBaseAddress address access
  let current := state.current func
  if current = calculated ∧ current ≠ baseAddrUnset then (0, state)
  else
    let (ret, state) :=
      attempts config bus func (neededWrites current address access) config.maxRetries state
    (ret, state.keep (if ret = 0 then calculated else baseAddrUnset) func)

/-- `morse_spi_get_func` and `morse_sdio_get_func`: nothing when the window cannot be set. -/
def getFunc (address size access : Nat) (state : State) : Option Func × State :=
  if 4 < size then
    let (ret, state) := setFuncAddressBase config bus address access .func2 state
    (if ret = 0 then some .func2 else none, state)
  else if state.bulkAddrBase = calculateBaseAddress address access then (some .func2, state)
  else
    let (ret, state) := setFuncAddressBase config bus address access .func1 state
    (if ret = 0 then some .func1 else none, state)

/-- `morse_spi_reset_base_address` and `morse_sdio_reset_base_address`. -/
def State.resetBaseAddress (state : State) : State :=
  { state with bulkAddrBase := baseAddrUnset, registerAddrBase := baseAddrUnset }

/-! ## Transactions -/

/-- Some octets, written from a place in a window on, write the value of a reset to its
register. -/
def Config.carriesReset (config : Config) (address : Nat) (octets : List (BitVec 8)) : Bool :=
  (List.range octets.length).any fun index =>
    decide ((address + index) % 2 ^ 32 = config.resetAddress.toNat ∧
      (octets.drop index).take 4 = natOctets 4 config.resetValue.toNat)

/-- `morse_spi_cmd53_write`, `morse_spi_cmd53_read` and what the SDIO driver transfers with:
octets of a piece are moved. -/
def transfer (func : Func) (write again : Bool) (piece : Piece) (part : Nat × Nat)
    (state : State) : Progress State Transaction :=
  let answer := bus state.clock
  let transaction : Transaction :=
    ⟨func, write, again, piece, part.1, part.2, state.chip.get func⟩
  let octets := segment state.buffer transaction.start part.2
  { done := answer.status == 0
    state :=
      { state with
        clock := state.clock + 1
        chip :=
          if (write && answer.took &&
              config.carriesReset (transaction.registers.window + transaction.place) octets) then
            answer.after
          else state.chip
        buffer :=
          if (!write && answer.took) then
            overwrite state.buffer transaction.start (segment answer.data 0 part.2)
          else state.buffer }
    events := [transaction] }

/-- `MMC_SPI_BLOCKSIZE`. -/
def mmcSpiBlocksize : Nat := 512

/-- The blocks that the SPI driver moves at a time, from some block on. -/
def spiBlocks (maxBlockCount blks : Nat) : Nat → Nat → List (Nat × Nat)
  | 0, _ => []
  | turns + 1, blksDone =>
    if blks - blksDone = 0 then []
    else
      let blkCount := min maxBlockCount (blks - blksDone)
      (blksDone * mmcSpiBlocksize, blkCount * mmcSpiBlocksize) ::
        spiBlocks maxBlockCount blks turns (blksDone + blkCount)

/-- The parts of a piece that are moved in one transaction each. -/
def Config.parts (config : Config) (size : Nat) : List (Nat × Nat) :=
  match config.bus with
  | .spi =>
    let bytes := size % mmcSpiBlocksize
    let blks := (size - bytes) / mmcSpiBlocksize
    spiBlocks config.maxBlockCount blks blks 0 ++
      if bytes = 0 then [] else [(blks * mmcSpiBlocksize, bytes)]
  | .sdio =>
    if size % 4 ≠ 0 then (List.range size).map fun index => (index, 1) else [(0, size)]

/-- The first word of what has been read came twice. -/
def Config.repeated (config : Config) (data : List (BitVec 8)) : Bool :=
  config.busDoubleRead && data.take 4 == (data.drop 4).take 4 &&
    (config.bus == .sdio || data.take 4 != [0, 0, 0, 0])

/-- `morse_spi_mem_read`, `morse_spi_mem_write`, `morse_sdio_mem_read` and
`morse_sdio_mem_write`, with the place of the buffer in memory. -/
def memMove (write : Bool) (pointer : Nat) (piece : Piece) (state : State) :
    Progress State Transaction :=
  match getFunc config bus piece.address piece.size (accessOf piece.size) state with
  | (none, state) => ⟨false, state, []⟩
  | (some func, state) =>
    if config.bus = .sdio ∧ piece.size % 4 = 0 ∧
        (pointer + piece.start) % config.bulkAlignment ≠ 0 then ⟨false, state, []⟩
    else
      let moved := inTurn (transfer config bus func write false piece)
        (config.parts piece.size) state
      if moved.done && !write && decide (piece.size % 4 = 0 ∧ 8 ≤ piece.size) &&
          config.repeated (segment moved.state.buffer piece.start 8) then
        let more := transfer config bus func false true piece (0, 8) moved.state
        ⟨true, more.state, moved.events ++ more.events⟩
      else moved

/-! ## The bus operations -/

/-- `SPI_MAX_TRANSFER_SIZE`. -/
def spiMaxTransferSize : Nat := 64 * 1024

/-- What is moved at a time between two places, as much as the limit allows. -/
def cuts (room : Nat → Nat) (size : Nat) : Nat → Nat → List (Nat × Nat)
  | 0, _ => []
  | turns + 1, offset =>
    if offset < size then
      (offset, min (size - offset) (room offset)) ::
        cuts room size turns (offset + min (size - offset) (room offset))
    else []

/-- `morse_spi_write_until_done` and `morse_spi_read_until_done`, which return the length of the
last transfer; their callers look whether it is the whole length. -/
def untilDone (write : Bool) (pointer : Nat) (piece : Piece) (state : State) :
    Progress State Transaction :=
  let transfers := cuts (fun _ => spiMaxTransferSize) piece.size piece.size 0
  let moved := inTurn
    (fun part => memMove config bus write pointer
      ⟨(piece.address + part.1) % 2 ^ 32, piece.start + part.1, part.2⟩)
    transfers state
  { moved with
    done := moved.done && (transfers.getLast?.map fun part => part.2) == some piece.size }

/-- The octets of a window, of those from an address on: `window_end + 1 - address - offset`. -/
def windowRoom (address offset : Nat) : Nat := 2 ^ 16 - (address + offset) % 2 ^ 16

/-- `morse_spi_dm_read`, `morse_spi_dm_write`, `morse_sdio_dm_read` and `morse_sdio_dm_write`
behind the check of the length. -/
def dmMove (write : Bool) (address pointer length : Nat) (state : State) :
    Progress State Transaction :=
  inTurn
    (fun part =>
      let piece : Piece := ⟨(address + part.1) % 2 ^ 32, part.1, part.2⟩
      match config.bus with
      | .spi => untilDone config bus write pointer piece
      | .sdio => memMove config bus write pointer piece)
    (cuts (windowRoom address) length length 0) state

/-- `morse_sdio_regl_read` and `morse_sdio_regl_write` up to the transfer. -/
def reglMove (write : Bool) (address : Nat) (state : State) : Progress State Transaction :=
  match getFunc config bus address 4 2 state with
  | (none, state) => ⟨false, state, []⟩
  | (some func, state) => transfer config bus func write false ⟨address, 0, 4⟩ (0, 4) state

/-- One register is read or written. -/
def regMove (write : Bool) (address : Nat) (state : State) : Progress State Transaction :=
  match config.bus with
  | .spi => memMove config bus write 0 ⟨address, 0, 4⟩ state
  | .sdio => reglMove config bus write address state

/-- The end of `reg32_write`.  The SDIO driver does not get to the test for a reset when it has no
function. -/
def afterWrite (address value : BitVec 32) (moved : Progress State Transaction) : State :=
  if address = config.resetAddress ∧ value = config.resetValue ∧
      (config.bus = .spi ∨ moved.events ≠ []) then moved.state.resetBaseAddress
  else moved.state

end Driver

/-- What the rest of the driver asks for. -/
inductive Action
  | dmRead (address : BitVec 32) (pointer : Nat) (buffer : Nat → BitVec 8) (len : Int)
  | dmWrite (address : BitVec 32) (pointer : Nat) (data : Nat → BitVec 8) (len : Int)
  | reg32Read (address : BitVec 32) (buffer : Nat → BitVec 8)
  | reg32Write (address value : BitVec 32)
  | setBusEnable (enable : Bool)

/-- What a call returns, the state then and the transactions of the call. -/
structure Outcome where
  ret : Int
  state : State
  events : List Transaction

/-- `EIO` and `EINVAL`. -/
def eio : Int := 5

def einval : Int := 22

/-- The operations of the bus.  While it is disabled the chip may lose its registers. -/
def step (config : Config) (bus : Nat → Answer) (state : State) : Action → Outcome
  | .dmRead address pointer buffer len =>
    if len < 0 then ⟨-einval, state, []⟩
    else
      let moved := dmMove config bus false address.toNat pointer len.toNat
        { state with buffer := buffer }
      ⟨if moved.done then 0 else -eio, moved.state, moved.events⟩
  | .dmWrite address pointer data len =>
    if len < 0 then ⟨-einval, state, []⟩
    else
      let moved := dmMove config bus true address.toNat pointer len.toNat
        { state with buffer := data }
      ⟨if moved.done then 0 else -eio, moved.state, moved.events⟩
  | .reg32Read address buffer =>
    let moved := regMove config bus false address.toNat { state with buffer := buffer }
    ⟨if moved.done then 0 else -eio, moved.state, moved.events⟩
  | .reg32Write address value =>
    let moved := regMove config bus true address.toNat
      { state with buffer := fun index => (natOctets 4 value.toNat).getD index 0 }
    ⟨if moved.done then 0 else -eio, afterWrite config address value moved, moved.events⟩
  | .setBusEnable enable =>
    if enable then ⟨0, { state with enabled := true }, []⟩
    else
      ⟨0,
        { state.resetBaseAddress with
          enabled := false
          clock := state.clock + 1
          chip := (bus state.clock).after },
        []⟩

end Window
end Morse
