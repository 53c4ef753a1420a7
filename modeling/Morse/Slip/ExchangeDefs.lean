import Morse.Lib.Turns
import Morse.Slip.Defs

/-!
# Command exchange over a serial line or a socket

A request is sent with a sequence number and a CRC behind its payload, in one frame; then octets
are read until a frame comes that ends in a correct CRC and in the same sequence number.  The two
transports read in two nested loops each, of which a turn here is what follows one read, up to the
next read or the return.

What the reads and the clock return is an input, and so is the function that sends an octet.
-/

namespace Morse
namespace Slip

open Lib

/-- `SEQNUM_LEN`. -/
def seqnumLen : Nat := 4

/-- `CRC_LEN`. -/
def crcLen : Nat := 2

/-- `struct morsectrl_transport_buff`. -/
structure TransportBuff where
  data : Nat → Octet
  dataLen : Nat
  capacity : Nat

/-! ## The CRC -/

/-- The inner loop of `crc16_gen`, for bit `jj` of an octet. -/
def crc16Bit (octet : Octet) (crc : BitVec 32) (jj : Nat) : BitVec 32 :=
  let val := ((octet.setWidth 32 >>> jj) ^^^ (crc >>> 15)) &&& 0x1#32
  let crc := crc ^^^ ((val <<< 4) ||| (val <<< 11))
  (crc <<< 1) ||| val

/-- `crc16_gen`. -/
def crc16Gen (buff : List Octet) : BitVec 16 :=
  (buff.foldl (fun crc octet => [7, 6, 5, 4, 3, 2, 1, 0].foldl (crc16Bit octet) crc)
    0#32).setWidth 16

/-- The two octets of a CRC in a frame. -/
def crcField (crc : BitVec 16) : List Octet := [crc.setWidth 8, (crc >>> 8).setWidth 8]

/-! ## Requests and responses -/

/-- The request with sequence number and CRC appended; `none` if the assertion fails that there
is room for them. -/
def appendTrailer (seqNum : Vector Octet seqnumLen) (req : TransportBuff) :
    Option TransportBuff :=
  if req.capacity < req.dataLen + seqnumLen then none
  else
    let data := overwrite req.data req.dataLen seqNum.toList
    let crc := crc16Gen (segment data 0 (req.dataLen + seqnumLen))
    if req.capacity < req.dataLen + seqnumLen + crcLen then none
    else
      some { req with
        data := overwrite data (req.dataLen + seqnumLen) (crcField crc)
        dataLen := req.dataLen + seqnumLen + crcLen }

/-- The checks of a complete frame in the buffer: whether it is the response, and the
`resp->data_len` with which they leave. -/
def checkFrame (seqNumField : List Octet) (data : Nat → Octet) (length : Nat) : Bool × Nat :=
  if length < seqnumLen + crcLen then (false, length)
  else
    let dataLen := length - crcLen
    let crc := crc16Gen (segment data 0 dataLen)
    if segment data dataLen crcLen ≠ crcField crc then (false, dataLen)
    else
      let dataLen := dataLen - seqnumLen
      if segment data dataLen seqnumLen ≠ seqNumField then (false, dataLen)
      else (true, dataLen)

/-- Where a call returns. -/
inductive Outcome
  | success
  /-- `slip_tx` failed. -/
  | txFailed (ret : Int)
  /-- A read failed, with `-(code + 1)`. -/
  | readFailed (code : Nat)
  | timedOut
  /-- The receiver reported an error or the limit of its buffer. -/
  | badFrame
  deriving DecidableEq, Repr

/-- `ETRANSERR`. -/
def etranserr : Int := 2

/-- The return value. -/
def Outcome.ret : Outcome → Int
  | .success => 0
  | .txFailed ret => ret
  | .readFailed code => Int.negSucc code
  | .timedOut => -etranserr
  | .badFrame => -etranserr

/-- How the receiving part of a call ends. -/
structure LoopEnd where
  outcome : Outcome
  rx : RxState
  dataLen : Nat

/-- What a call leaves. -/
structure Returned where
  outcome : Outcome
  req : TransportBuff
  resp : TransportBuff

/-- A call after some reads. -/
inductive Progress
  /-- A failed assertion has aborted the program. -/
  | aborted
  | returned (returned : Returned)
  | running

section Sending

variable {σ : Type} (transportTxFn : Octet → σ → Int × σ) (arg : σ)

/-- What the two transports have in common: the request is framed and sent, then the loop is
entered. -/
def send {State : Type} (seqNum : Vector Octet seqnumLen) (req resp : TransportBuff)
    (receiving : List Octet → LoopEnd ⊕ State) : Progress :=
  match appendTrailer seqNum req with
  | none => .aborted
  | some framed =>
    let ret := (tx transportTxFn (segment framed.data 0 framed.dataLen) arg).1
    let req' : TransportBuff := { framed with dataLen := req.dataLen }
    if ret ≠ 0 then .returned ⟨.txFailed ret, req', resp⟩
    else
      match receiving (segment framed.data req.dataLen seqnumLen) with
      | .inl ending =>
        .returned ⟨ending.outcome, req',
          { resp with data := ending.rx.buffer, dataLen := ending.dataLen }⟩
      | .inr _ => .running

end Sending

/-! ## The serial line -/

/-- What `uart_read` of one octet returns. -/
inductive UartRead
  | octet (c : Octet)
  | nothing
  | failed (code : Nat)
  deriving DecidableEq, Repr

/-- `CLOCKS_PER_SEC`, as POSIX has it. -/
def clocksPerSec : Int := 1000000

/-- `START_OF_TRANSFER_TIMEOUT_CLOCKS`. -/
def startOfTransferTimeoutClocks : Int := 60 * clocksPerSec

/-- `TRANSFER_IN_PROGRESS_TIMEOUT_CLOCKS`. -/
def transferInProgressTimeoutClocks : Int := 10 * clocksPerSec / 1000

/-- The variables of `uart_slip_send` in its loops, with the number of clock readings so far. -/
structure UartState where
  rx : RxState
  status : RxStatus
  dataLen : Nat
  timeout : Int
  lastTime : Int
  readings : Nat

section Uart

variable (clock : Nat → Int) (seqNumField : List Octet)

/-- The start of the outer loop. -/
def UartState.enter (state : UartState) : UartState :=
  { state with
    timeout := startOfTransferTimeoutClocks
    lastTime := clock state.readings
    readings := state.readings + 1
    rx := rxStateReset state.rx }

/-- The condition of the inner loop, and what follows it. -/
def uartTest (state : UartState) : LoopEnd ⊕ UartState :=
  if state.status = .inProgress then .inr state
  else if state.status ≠ .complete then .inr (state.enter clock)
  else
    let (accepted, dataLen) := checkFrame seqNumField state.rx.buffer state.rx.length
    if accepted then .inl ⟨.success, state.rx, dataLen⟩
    else .inr ({ state with dataLen := dataLen }.enter clock)

/-- What follows a read. -/
def uartTurn (read : UartRead) (state : UartState) : LoopEnd ⊕ UartState :=
  match read with
  | .failed code => .inl ⟨.readFailed code, state.rx, state.dataLen⟩
  | .nothing =>
    if clock state.readings - state.lastTime > state.timeout then
      .inl ⟨.timedOut, state.rx, state.dataLen⟩
    else
      uartTest clock seqNumField { state with readings := state.readings + 1 }
  | .octet c =>
    let (status, rx) := rx state.rx c
    let state := { state with status := status, rx := rx }
    let state :=
      if rx.frameStarted then
        { state with
          lastTime := clock state.readings
          readings := state.readings + 1
          timeout := transferInProgressTimeoutClocks }
      else state
    uartTest clock seqNumField state

/-- The variables with which the loops are entered. -/
def UartState.start (resp : TransportBuff) : UartState :=
  UartState.enter clock
    { rx := .init resp.data resp.capacity
      status := .inProgress
      dataLen := 0
      timeout := 0
      lastTime := 0
      readings := 0 }

end Uart

/-- `uart_slip_send`, after some reads. -/
def uartSlipSend {σ : Type} (transportTxFn : Octet → σ → Int × σ) (arg : σ) (clock : Nat → Int)
    (reads : Nat → UartRead) (seqNum : Vector Octet seqnumLen)
    (req resp : TransportBuff) (count : Nat) : Progress :=
  send transportTxFn arg seqNum req resp fun seqNumField =>
    afterTurns (fun turn => uartTurn clock seqNumField (reads turn))
      (.start clock resp) count

/-! ## The socket -/

/-- What a blocking `read` of one octet from a socket does. -/
inductive TcpRead
  | octet (c : Octet)
  /-- It returns zero: the connection is closed. -/
  | closed
  | failed (code : Nat)
  /-- It does not return, as nothing is sent any more. -/
  | silent
  deriving DecidableEq, Repr

/-- The reads of a socket.  A closed connection stays closed. -/
structure Socket where
  read : Nat → TcpRead
  closed_stays : ∀ turn, read turn = .closed → read (turn + 1) = .closed
  silent_stays : ∀ turn, read turn = .silent → read (turn + 1) = .silent

/-- The variables of `tcp_slip_send` in its loops. -/
structure TcpState where
  rx : RxState
  status : RxStatus
  dataLen : Nat

section Tcp

variable (seqNumField : List Octet)

/-- The condition of the inner loop, and what follows it. -/
def tcpTest (state : TcpState) : LoopEnd ⊕ TcpState :=
  if state.status = .inProgress then .inr state
  else if state.status ≠ .complete then .inl ⟨.badFrame, state.rx, state.dataLen⟩
  else
    let (accepted, dataLen) := checkFrame seqNumField state.rx.buffer state.rx.length
    if accepted then .inl ⟨.success, state.rx, dataLen⟩
    else .inr { state with dataLen := dataLen, rx := rxStateReset state.rx }

/-- What follows a read. -/
def tcpTurn (read : TcpRead) (state : TcpState) : LoopEnd ⊕ TcpState :=
  match read with
  | .failed code => .inl ⟨.readFailed code, state.rx, state.dataLen⟩
  | .closed => tcpTest seqNumField state
  | .silent => .inr state
  | .octet c =>
    let (status, rx) := rx state.rx c
    tcpTest seqNumField { state with status := status, rx := rx }

/-- The variables with which the loops are entered. -/
def TcpState.start (resp : TransportBuff) : TcpState where
  rx := rxStateReset (.init resp.data resp.capacity)
  status := .inProgress
  dataLen := 0

end Tcp

/-- `tcp_slip_send`, after some reads. -/
def tcpSlipSend {σ : Type} (transportTxFn : Octet → σ → Int × σ) (arg : σ) (socket : Socket)
    (seqNum : Vector Octet seqnumLen) (req resp : TransportBuff) (count : Nat) : Progress :=
  send transportTxFn arg seqNum req resp fun seqNumField =>
    afterTurns (fun turn => tcpTurn seqNumField (socket.read turn)) (.start resp) count

end Slip
end Morse
