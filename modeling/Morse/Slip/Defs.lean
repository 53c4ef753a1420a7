import Morse.Lib.Layout

/-!
# Framing of packets for a serial line

A packet is sent between two octets that mark its ends; these octets, and the one that escapes
them, are sent as two octets each.  The receiver is given one octet at a time and keeps the
packet so far in a buffer of the caller.
-/

namespace Morse
namespace Slip

open Lib

/-- `uint8_t`. -/
abbrev Octet := BitVec 8

/-- `SLIP_FRAME_END`. -/
def frameEnd : Octet := 0xc0

/-- `SLIP_FRAME_ESC`. -/
def frameEsc : Octet := 0xdb

/-- `SLIP_FRAME_ESC_END`. -/
def frameEscEnd : Octet := 0xdc

/-- `SLIP_FRAME_ESC_ESC`. -/
def frameEscEsc : Octet := 0xdd

/-- `enum slip_rx_status`. -/
inductive RxStatus
  /-- A complete packet has been received. -/
  | complete
  /-- Receive is still in progress. -/
  | inProgress
  /-- Receive buffer limit has been reached. -/
  | bufferLimit
  /-- An erroneous packet has been received. -/
  | error
  deriving DecidableEq, Repr

/-- `struct slip_rx_state`, with the memory from the buffer on. -/
structure RxState where
  buffer : Nat → Octet
  bufferLength : Nat
  length : Nat
  escape : Bool
  frameStarted : Bool

/-- `SLIP_RX_STATE_INIT`. -/
def RxState.init (buffer : Nat → Octet) (bufferLength : Nat) : RxState where
  buffer := buffer
  bufferLength := bufferLength
  length := 0
  escape := false
  frameStarted := false

/-- `slip_rx_state_reset`. -/
def rxStateReset (state : RxState) : RxState :=
  { state with escape := false, length := 0, frameStarted := true }

/-- `slip_rx_append`. -/
def rxAppend (state : RxState) (c : Octet) : RxStatus × RxState :=
  if state.length = state.bufferLength then
    (.bufferLimit, { state with frameStarted := false })
  else
    (.inProgress, { state with
      buffer := overwrite state.buffer state.length [c]
      length := state.length + 1 })

/-- `slip_rx`. -/
def rx (state : RxState) (c : Octet) : RxStatus × RxState :=
  if c = frameEnd then
    if state.escape then (.error, rxStateReset state)
    else if 0 < state.length then (.complete, state)
    else (.inProgress, { state with frameStarted := true })
  else if state.escape then
    let state := { state with escape := false }
    if c = frameEscEnd then rxAppend state frameEnd
    else if c = frameEscEsc then rxAppend state frameEsc
    else (.error, rxStateReset state)
  else if c = frameEsc then (.inProgress, { state with escape := true })
  else if state.frameStarted then rxAppend state c
  else (.inProgress, state)

section Sender

variable {σ : Type} (transportTxFn : Octet → σ → Int × σ)

/-- One turn of the loop of `slip_tx`, for one octet of the packet. -/
def txOctet (c : Octet) (arg : σ) : Int × σ :=
  if c = frameEsc then
    let sent := transportTxFn frameEsc arg
    if sent.1 ≠ 0 then sent else transportTxFn frameEscEsc sent.2
  else if c = frameEnd then
    let sent := transportTxFn frameEsc arg
    if sent.1 ≠ 0 then sent else transportTxFn frameEscEnd sent.2
  else transportTxFn c arg

/-- The loop of `slip_tx`: the result of the last octet, and zero without any. -/
def txLoop : List Octet → Int × σ → Int × σ
  | [], sent => sent
  | c :: rest, sent => txLoop rest (txOctet transportTxFn c sent.2)

/-- `slip_tx`. -/
def tx (packet : List Octet) (arg : σ) : Int × σ :=
  let started := transportTxFn frameEnd arg
  let sent := txLoop transportTxFn packet (0, started.2)
  (sent.1, (transportTxFn frameEnd sent.2).2)

end Sender

/-- A transport that sends every octet. -/
def sendAll (c : Octet) (sent : List Octet) : Int × List Octet := (0, sent ++ [c])

/-- The octets that are sent for a packet. -/
def encoded (packet : List Octet) : List Octet := (tx sendAll packet []).2

/-! ## Receiving a stream -/

/-- The packet so far. -/
def RxState.packet (state : RxState) : List Octet := segment state.buffer 0 state.length

/-- The receiver is given an octet, and is reset after every result but `inProgress`: the result
with what is then in the buffer. -/
def receive (state : RxState) (c : Octet) : (RxStatus × List Octet) × RxState :=
  let (status, after) := rx state c
  ((status, after.packet), if status = .inProgress then after else rxStateReset after)

/-- The receiver is given octets one at a time. -/
def receiveAll : RxState → List Octet → List (RxStatus × List Octet) × RxState
  | state, [] => ([], state)
  | state, c :: rest =>
    let (result, after) := receive state c
    let (results, last) := receiveAll after rest
    (result :: results, last)

/-- The packets that are complete. -/
def delivered (results : List (RxStatus × List Octet)) : List (List Octet) :=
  results.filterMap fun result => if result.1 = .complete then some result.2 else none

/-- What the caller does with the receiver. -/
inductive Move
  | octet (c : Octet)
  | reset

/-- The receiver is given octets and is reset at any time. -/
def drive (state : RxState) (moves : List Move) : RxState :=
  moves.foldl (fun state move =>
    match move with
    | .octet c => (rx state c).2
    | .reset => rxStateReset state) state

end Slip
end Morse
