import Morse.Lib.Octets
import Morse.Lib.Transition
import Mathlib.Logic.Function.Basic

/-!
# Commands and their responses

One caller at a time sends a command to the chip and waits for its response, twice at
most.  The response is compared with the command that was handed to the chip last, in
the very buffer that was handed over.  The callers, the work that hands buffers to the
chip, the responses of the firmware and the timeouts take turns in any order.
-/

namespace Morse
namespace Cmd

open Lib

/-! ## Commands and responses in memory -/

/-- `MM_MAX_COMMAND_RETRY`. -/
def mmMaxCommandRetry : Nat := 2

/-- `MORSE_CMD_HOST_ID_SEQ_MAX`. -/
def hostIdSeqMax : Nat := 0xfff

/-- `MORSE_CMD_HOST_ID_SEQ_SHIFT`. -/
def hostIdSeqShift : Nat := 4

/-- `MORSE_CMD_HOST_ID_SEQ_MASK`. -/
def hostIdSeqMask : BitVec 16 := 0xfff0

/-- `MORSE_CMD_TYPE_REQ`. -/
def cmdTypeReq : BitVec 16 := 1

/-- `MORSE_CMD_TYPE_RESP`. -/
def cmdTypeResp : BitVec 16 := 2

/-- The size of `struct morse_cmd_header`. -/
def cmdHeaderSize : Nat := 12

/-- The size of `struct morse_cmd_resp`. -/
def cmdRespSize : Nat := 16

/-- The size of `struct morse_buff_skb_header`. -/
def buffSkbHeaderSize : Nat := 40

/-- The octets of a `struct morse_cmd_header`. -/
def cmdHeader (flags messageId len hostId vifId pad : BitVec 16) : List (BitVec 8) :=
  leOctets 2 flags ++ (leOctets 2 messageId ++ (leOctets 2 len ++
    (leOctets 2 hostId ++ (leOctets 2 vifId ++ leOctets 2 pad))))

/-- A command as its caller fills it in, with what stands behind the header. -/
structure MorseCmdReq where
  messageId : BitVec 16
  vifId : BitVec 16
  pad : BitVec 16
  data : List (BitVec 8)
  fits : data.length < 2 ^ 16

/-- The octets of a command that goes out with a number. -/
def MorseCmdReq.octets (req : MorseCmdReq) (hostId : BitVec 16) : List (BitVec 8) :=
  cmdHeader cmdTypeReq req.messageId (BitVec.ofNat 16 req.data.length) hostId req.vifId req.pad ++
    req.data

/-- A response of the firmware. -/
structure MorseCmdResp where
  messageId : BitVec 16
  len : BitVec 16
  hostId : BitVec 16
  vifId : BitVec 16
  pad : BitVec 16
  status : BitVec 32
  data : List (BitVec 8)
  deriving DecidableEq, Repr

/-- The octets of a response. -/
def MorseCmdResp.octets (resp : MorseCmdResp) : List (BitVec 8) :=
  cmdHeader cmdTypeResp resp.messageId resp.len resp.hostId resp.vifId resp.pad ++
    (leOctets 4 resp.status ++ resp.data)

/-- The number of an attempt: that of the command, and which attempt it is. -/
def hostId (seq retry : Nat) : BitVec 16 :=
  BitVec.ofNat 16 seq <<< hostIdSeqShift ||| BitVec.ofNat 16 retry

/-- The sequence number that follows. -/
def nextSeq (cmdSeq : Nat) : Nat := if hostIdSeqMax < cmdSeq + 1 then 1 else cmdSeq + 1

/-- The octets of a `struct morse_buff_skb_header` on the command channel. -/
def buffSkbHeader (len offset : Nat) (pktId : BitVec 32) : List (BitVec 8) :=
  leOctets 1 (0xaa : BitVec 8) ++ (leOctets 1 (0xfe : BitVec 8) ++
    (leOctets 2 (BitVec.ofNat 16 len) ++ (leOctets 1 (BitVec.ofNat 8 offset) ++
      (List.replicate 7 0 ++ (leOctets 4 pktId ++ List.replicate 24 0)))))

/-- `skb_pull`, which takes nothing from a buffer that is too short. -/
def skbPull (data : List (BitVec 8)) (count : Nat) : List (BitVec 8) :=
  if data.length < count then data else data.drop count

/-- `morse_skb_remove_hdr_after_sent_to_chip`. -/
def removeHdrAfterSentToChip (data : List (BitVec 8)) : List (BitVec 8) :=
  skbPull data (buffSkbHeaderSize + (numberAt 8 1 4 data).toNat)

/-- `memcpy`. -/
def memcpy (dest src : List (BitVec 8)) (count : Nat) : List (BitVec 8) :=
  src.take count ++ dest.drop count

/-! ## Callers -/

/-- The arguments of `morse_cmd_tx`: the command, the length of the response that the
caller expects and the buffer for it. -/
structure TxArgs where
  req : MorseCmdReq
  length : Nat
  resp : Option (List (BitVec 8))

/-- `struct morse_cmd_resp_cb`, which names the caller whose buffer is meant. -/
structure MorseCmdRespCb where
  ret : BitVec 32
  length : Nat
  destResp : Option Nat
  deriving DecidableEq, Repr

/-- Why an attempt is not sent. -/
inductive TxFailure
  /-- There is no memory for the buffer. -/
  | noBuffer
  | chipUnresponsive
  | commandsBlocked
  | unaligned
  | queueFull
  deriving DecidableEq, Repr

/-- What a failure returns. -/
def TxFailure.ret : TxFailure → BitVec 32
  | .noBuffer => -12
  | .chipUnresponsive => -19
  | .commandsBlocked => -1
  | .unaligned => -22
  | .queueFull => -12

/-- `-ETIMEDOUT`. -/
def etimedout : BitVec 32 := -110

/-- How an attempt ends. -/
inductive Outcome
  | failed (failure : TxFailure)
  | timedOut
  /-- A response completed the wait, and this is the result. -/
  | answered (ret : BitVec 32)
  deriving DecidableEq, Repr

/-- The result of an attempt. -/
def Outcome.ret : Outcome → BitVec 32
  | .failed failure => failure.ret
  | .timedOut => etimedout
  | .answered ret => ret

/-- A call of `morse_cmd_tx`, with the state of its completion, the control blocks of its
attempts and the outcomes of those that ended, the latest first.  Noted beside it are the
attempts that the chip has, the response that the firmware gave, and whether that came
while the command was pending and its caller waited. -/
structure Call where
  args : TxArgs
  seq : Nat
  resp : Option (List (BitVec 8))
  done : Nat
  respCb : Nat → MorseCmdRespCb
  outcomes : List Outcome
  returned : Option Outcome
  sent : Nat → Bool
  answer : Option MorseCmdResp
  inTime : Bool

/-- A call as it starts. -/
def Call.start (args : TxArgs) (seq : Nat) : Call where
  args := args
  seq := seq
  resp := args.resp
  done := 0
  respCb := fun _ => ⟨0, 0, none⟩
  outcomes := []
  returned := none
  sent := fun _ => false
  answer := none
  inTime := false

/-- Where the caller stands that holds `cmd_wait`. -/
inductive Phase
  | idle
  /-- It is about to send an attempt. -/
  | trying (call retry : Nat)
  | waiting (call retry : Nat)
  /-- `wait_for_completion_timeout` returned zero. -/
  | expired (call retry : Nat)
  /-- `wait_for_completion_timeout` returned another number. -/
  | woken (call retry : Nat)
  deriving DecidableEq, Repr

/-- The buffer of an attempt.  It is noted whether a response was compared with it. -/
structure CmdSkb where
  call : Nat
  retry : Nat
  data : List (BitVec 8)
  compared : Bool
  deriving DecidableEq, Repr

/-- The interface to the chip. -/
inductive ChipIf
  | pageset
  | yaps
  deriving DecidableEq, Repr

/-- The commands: the sequence number, the calls and how many were made, the caller whose
turn it is, the completion that responses complete, the queue of commands, the buffers
under way to the chip and those that the chip has. -/
structure Commands where
  cmdSeq : Nat
  calls : Nat → Call
  made : Nat
  phase : Phase
  cmdComp : Option Nat
  skbq : List CmdSkb
  toSend : List CmdSkb
  pending : List CmdSkb

/-- No command was sent yet. -/
def Commands.initial : Commands where
  cmdSeq := 0
  calls := fun _ => Call.start ⟨⟨0, 0, 0, [], Nat.two_pow_pos 16⟩, 0, none⟩ 0
  made := 0
  phase := .idle
  cmdComp := none
  skbq := []
  toSend := []
  pending := []

/-- A call is changed. -/
def Commands.modify (state : Commands) (number : Nat) (change : Call → Call) : Commands :=
  { state with calls := Function.update state.calls number (change (state.calls number)) }

/-! ## `morse_cmd_tx` -/

/-- A caller obtains `cmd_wait`. -/
def Commands.begin (state : Commands) (args : TxArgs) : Commands :=
  { state with
    cmdSeq := nextSeq state.cmdSeq
    calls := Function.update state.calls state.made (Call.start args (nextSeq state.cmdSeq))
    made := state.made + 1
    phase := .trying state.made 0 }

/-- The buffer of an attempt as `morse_skbq_skb_tx` queues it.  In front of the command is
what alignment asks for. -/
def Call.skb (call : Call) (number retry : Nat) (gap : List (BitVec 8)) (pktId : BitVec 32) :
    CmdSkb where
  call := number
  retry := retry
  data :=
    buffSkbHeader (cmdHeaderSize + call.args.req.data.length) gap.length pktId ++
      (gap ++ call.args.req.octets (hostId call.seq retry))
  compared := false

/-- The completion is set up anew for another attempt, and the control block filled in. -/
def Call.attempt (number retry : Nat) (call : Call) : Call :=
  { call with
    done := if 0 < retry then 0 else call.done
    respCb := Function.update call.respCb retry
      ⟨0, call.args.length, call.args.resp.map fun _ => number⟩ }

/-- An attempt is queued. -/
def Commands.send (state : Commands) (number retry : Nat) (gap : List (BitVec 8))
    (pktId : BitVec 32) : Commands :=
  { state.modify number (Call.attempt number retry) with
    phase := .waiting number retry
    cmdComp := some number
    skbq := state.skbq ++ [(state.calls number).skb number retry gap pktId] }

/-- A call ends with an outcome. -/
def Call.return (outcome : Outcome) (call : Call) : Call :=
  { call with outcomes := outcome :: call.outcomes, returned := some outcome }

/-- An attempt cannot be sent.  Without a buffer, the completion is not announced. -/
def Commands.fail (state : Commands) (number : Nat) (failure : TxFailure) : Commands :=
  { state.modify number (Call.return (.failed failure)) with
    phase := .idle
    cmdComp := if failure = .noBuffer then state.cmdComp else some number }

/-- The result of an attempt whose wait a response completed. -/
def Call.ret (call : Call) (retry : Nat) : BitVec 32 :=
  match call.resp with
  | some resp =>
    if call.args.length ≠ 0 then numberAt 32 4 cmdHeaderSize resp else (call.respCb retry).ret
  | none => (call.respCb retry).ret

/-- `__skb_unlink`, from whatever queue the buffer is in. -/
def unlink (number retry : Nat) (queue : List CmdSkb) : List CmdSkb :=
  queue.filter fun skb => !(decide (skb.call = number) && decide (skb.retry = retry))

/-- `__skbq_cmd_finish`. -/
def Commands.cmdFinish (state : Commands) (number retry : Nat) : Commands :=
  if state.pending ≠ [] ∨ state.skbq ≠ [] then
    { state with
      skbq := unlink number retry state.skbq
      toSend := unlink number retry state.toSend
      pending := unlink number retry state.pending }
  else state

/-- What the caller does when its wait is over. -/
def Commands.finish (state : Commands) (number retry : Nat) (outcome : Outcome) : Commands :=
  let finished := { state.cmdFinish number retry with cmdComp := none }
  if outcome.ret = etimedout ∧ retry + 1 < mmMaxCommandRetry then
    { finished.modify number fun call => { call with outcomes := outcome :: call.outcomes } with
      phase := .trying number (retry + 1) }
  else
    { finished.modify number (Call.return outcome) with phase := .idle }

/-! ## Handing buffers to the chip -/

/-- The first command is taken from its queue.  Paged memory purges what is pending. -/
def Commands.take (chipIf : ChipIf) (state : Commands) (skb : CmdSkb) (rest : List CmdSkb) :
    Commands :=
  { state with
    skbq := rest
    toSend := [skb]
    pending := if chipIf = .pageset then [] else state.pending }

/-- The chip has the command, which is pending from now on. -/
def Commands.handOver (state : Commands) (skb : CmdSkb) (rest : List CmdSkb) : Commands :=
  { state.modify skb.call fun call =>
      { call with sent := Function.update call.sent skb.retry true } with
    toSend := rest
    pending := state.pending ++ [skb] }

/-- The command cannot be handed over.  With paged memory it is dropped. -/
def Commands.keepBack (chipIf : ChipIf) (state : Commands) (skb : CmdSkb) (rest : List CmdSkb) :
    Commands :=
  { state with
    skbq := if chipIf = .pageset then state.skbq else skb :: state.skbq
    toSend := rest }

/-! ## `morse_cmd_resp_process` -/

/-- The response goes to the buffer of the caller. -/
def MorseCmdRespCb.copies (cb : MorseCmdRespCb) : Bool :=
  decide (cmdRespSize ≤ cb.length) && cb.destResp.isSome

/-- What a response leaves in a buffer of so many octets. -/
def MorseCmdResp.copyTo (resp : MorseCmdResp) (length : Nat) (dest : List (BitVec 8)) :
    List (BitVec 8) :=
  memcpy dest resp.octets (min length (resp.len.toNat + cmdHeaderSize))

/-- The response is copied to the buffer that the control block names. -/
def Commands.copyResp (state : Commands) (cb : MorseCmdRespCb) (resp : MorseCmdResp) : Commands :=
  match cb.destResp with
  | some number =>
    if cb.copies then
      state.modify number fun call => { call with resp := call.resp.map (resp.copyTo cb.length) }
    else state
  | none => state

/-- `complete(mors->cmd_comp)`. -/
def Commands.complete (state : Commands) : Commands :=
  match state.cmdComp with
  | some number => state.modify number fun call => { call with done := call.done + 1 }
  | none => state

/-- The command that is pending got its response. -/
def Commands.deliver (state : Commands) (skb : CmdSkb) (resp : MorseCmdResp) : Commands :=
  let cb := (state.calls skb.call).respCb skb.retry
  ((state.copyResp cb resp).modify skb.call fun call =>
    { call with
      respCb := Function.update call.respCb skb.retry
        { cb with ret := if cb.copies then 0 else resp.status } }).complete

/-- The response belongs to the command that stands at the front of a buffer. -/
def isResponseTo (data : List (BitVec 8)) (resp : MorseCmdResp) : Bool :=
  decide (numberAt 16 2 2 data = resp.messageId) &&
    decide (numberAt 16 2 6 data &&& hostIdSeqMask = resp.hostId &&& hostIdSeqMask)

/-- `morse_cmd_resp_process`. -/
def Commands.respProcess (state : Commands) (resp : MorseCmdResp) : Commands :=
  match state.pending with
  | [] => state
  | skb :: rest =>
    let bare := { skb with data := removeHdrAfterSentToChip skb.data, compared := true }
    let compared := { state with pending := bare :: rest }
    if isResponseTo bare.data resp then compared.deliver bare resp else compared

/-! ## Runs -/

/-- The firmware may give this response to a call: it has an attempt, gave no response
yet, and the sequence number was not used again. -/
def Commands.mayRespond (state : Commands) (number : Nat) (resp : MorseCmdResp) : Bool :=
  let call := state.calls number
  decide (number < state.made) && decide (state.made ≤ number + hostIdSeqMax) &&
    call.answer.isNone && decide (resp.messageId = call.args.req.messageId) &&
    (List.range mmMaxCommandRetry).any fun retry =>
      call.sent retry && decide (resp.hostId = hostId call.seq retry)

/-- The command of a call is pending and its caller waits. -/
def Commands.awaits (state : Commands) (number : Nat) : Bool :=
  match state.pending, state.phase with
  | skb :: _, .waiting call _ => decide (skb.call = number) && decide (call = number)
  | _, _ => false

/-- What can happen. -/
inductive CmdAction
  | call (args : TxArgs)
  | send (gap : List (BitVec 8)) (pktId : BitVec 32)
  | fail (failure : TxFailure)
  | take
  | handOver
  | keepBack
  /-- The response to a call is received. -/
  | respond (number : Nat) (resp : MorseCmdResp)
  | expire
  | wake
  | finish

/-- One step. -/
def cmdStep (chipIf : ChipIf) (state : Commands) : CmdAction → Option Commands
  | .call args =>
    match state.phase with
    | .idle => some (state.begin args)
    | _ => none
  | .send gap pktId =>
    match state.phase with
    | .trying number retry =>
      if gap.length < 2 ^ 8 then some (state.send number retry gap pktId) else none
    | _ => none
  | .fail failure =>
    match state.phase with
    | .trying number _ => some (state.fail number failure)
    | _ => none
  | .take =>
    match state.skbq, state.toSend with
    | skb :: rest, [] => some (state.take chipIf skb rest)
    | _, _ => none
  | .handOver =>
    match state.toSend with
    | skb :: rest => some (state.handOver skb rest)
    | [] => none
  | .keepBack =>
    match state.toSend with
    | skb :: rest => some (state.keepBack chipIf skb rest)
    | [] => none
  | .respond number resp =>
    if state.mayRespond number resp then
      some ((state.respProcess resp).modify number fun call =>
        { call with answer := some resp, inTime := state.awaits number })
    else none
  | .expire =>
    match state.phase with
    | .waiting number retry =>
      if (state.calls number).done = 0 then some { state with phase := .expired number retry }
      else none
    | _ => none
  | .wake =>
    match state.phase with
    | .waiting number retry =>
      if 0 < (state.calls number).done then
        some { state.modify number fun call => { call with done := call.done - 1 } with
          phase := .woken number retry }
      else none
    | _ => none
  | .finish =>
    match state.phase with
    | .expired number retry => some (state.finish number retry .timedOut)
    | .woken number retry =>
      some (state.finish number retry (.answered ((state.calls number).ret retry)))
    | _ => none

end Cmd
end Morse
