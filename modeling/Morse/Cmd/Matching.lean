import Morse.Cmd.Defs
import Mathlib.Tactic.IntervalCases

/-!
# Which response a caller gets

Every response that is received takes a header off the command that is pending, before
it is known whether it belongs to it.  Where the command is short, or no response was
compared with it yet, what is left is the command itself, and the caller gets its own
response and no other one gets it.
-/

namespace Morse
namespace Cmd

open Lib

/-! ## Headers taken off -/

theorem length_cmdHeader (flags messageId len hostId vifId pad : BitVec 16) :
    (cmdHeader flags messageId len hostId vifId pad).length = cmdHeaderSize := by
  simp only [cmdHeader, List.length_append, length_leOctets, cmdHeaderSize]

theorem length_buffSkbHeader (len offset : Nat) (pktId : BitVec 32) :
    (buffSkbHeader len offset pktId).length = buffSkbHeaderSize := by
  simp only [buffSkbHeader, List.length_append, length_leOctets, List.length_replicate,
    buffSkbHeaderSize]

theorem numberAt_buffSkbHeader (len offset : Nat) (pktId : BitVec 32) (rest : List (BitVec 8)) :
    numberAt 8 1 4 (buffSkbHeader len offset pktId ++ rest) = BitVec.ofNat 8 offset := by
  exact numberAt_zero (by omega) _ _

theorem removeHdr_queued (len : Nat) (gap command : List (BitVec 8)) (pktId : BitVec 32)
    (narrow : gap.length < 2 ^ 8) :
    removeHdrAfterSentToChip (buffSkbHeader len gap.length pktId ++ (gap ++ command)) =
      command := by
  have offset : (BitVec.ofNat 8 gap.length).toNat = gap.length := by
    exact Nat.mod_eq_of_lt narrow
  have enough : ¬ (buffSkbHeader len gap.length pktId ++ (gap ++ command)).length <
      buffSkbHeaderSize + gap.length := by
    simp only [List.length_append, length_buffSkbHeader]
    omega
  rw [removeHdrAfterSentToChip, numberAt_buffSkbHeader, offset, skbPull, if_neg enough,
    ← List.append_assoc]
  exact List.drop_left' (by rw [List.length_append, length_buffSkbHeader])

theorem length_octets (req : MorseCmdReq) (number : BitVec 16) :
    (req.octets number).length = cmdHeaderSize + req.data.length := by
  rw [MorseCmdReq.octets, List.length_append, length_cmdHeader]

theorem numberAt_octets (req : MorseCmdReq) (number : BitVec 16) :
    (numberAt 8 1 4 (req.octets number)).toNat = req.data.length % 2 ^ 8 := by
  simp only [MorseCmdReq.octets, cmdHeader, List.append_assoc]
  rw [numberAt_behind (by omega), numberAt_behind (by omega)]
  have length : (BitVec.ofNat 16 req.data.length).toNat = req.data.length := by
    exact Nat.mod_eq_of_lt req.fits
  rw [Nat.sub_self]
  simp only [numberAt, headNumber, List.drop_zero, leOctets, natOctets, List.cons_append,
    List.take_succ_cons, List.take_zero, octetsNat, length, BitVec.toNat_ofNat, Nat.mul_zero,
    Nat.add_zero, Nat.mod_mod]

theorem removeHdr_octets (req : MorseCmdReq) (number : BitVec 16)
    (short : req.data.length < 2 ^ 8) :
    removeHdrAfterSentToChip (req.octets number) = req.octets number := by
  have few : (req.octets number).length <
      buffSkbHeaderSize + (numberAt 8 1 4 (req.octets number)).toNat := by
    rw [numberAt_octets, length_octets, cmdHeaderSize, buffSkbHeaderSize]
    omega
  rw [removeHdrAfterSentToChip, skbPull, if_pos few]

/-! ## Numbers of commands -/

theorem messageId_octets (req : MorseCmdReq) (number : BitVec 16) :
    numberAt 16 2 2 (req.octets number) = req.messageId := by
  exact numberAt_zero (by omega) _ _

theorem hostId_octets (req : MorseCmdReq) (number : BitVec 16) :
    numberAt 16 2 6 (req.octets number) = number := by
  exact numberAt_zero (by omega) _ _

/-- The number of a call, which starts again after so many of them. -/
def seqOf (number : Nat) : Nat := number % hostIdSeqMax + 1

theorem seqOf_le (number : Nat) : seqOf number ≤ hostIdSeqMax :=
  Nat.mod_lt _ (by decide)

theorem nextSeq_seqOf (number : Nat) : nextSeq (seqOf number) = seqOf (number + 1) := by
  rw [nextSeq]
  split
  all_goals
    simp only [seqOf, hostIdSeqMax] at *
    omega

variable {earlier later : Nat}

theorem eq_of_seqOf_eq (order : earlier ≤ later) (near : later < earlier + hostIdSeqMax)
    (same : seqOf earlier = seqOf later) :
    earlier = later := by
  simp only [seqOf, hostIdSeqMax] at *
  omega

theorem seqBits_hostId (few : retry < mmMaxCommandRetry) :
    hostId seq retry &&& hostIdSeqMask = BitVec.ofNat 16 seq <<< hostIdSeqShift := by
  have attempt : BitVec.ofNat 16 retry &&& hostIdSeqMask = 0#16 := by
    have bound : retry < 2 := few
    interval_cases retry <;> decide
  have kept : BitVec.ofNat 16 seq <<< hostIdSeqShift &&& hostIdSeqMask =
      BitVec.ofNat 16 seq <<< hostIdSeqShift := by
    have bits : ∀ index : Fin 16, hostIdSeqMask.getLsbD index = !decide (index.val < 4) := by
      decide
    apply BitVec.eq_of_getLsbD_eq
    intro index bound
    have bit := bits ⟨index, bound⟩
    rw [BitVec.getLsbD_and, BitVec.getLsbD_shiftLeft, bit, hostIdSeqShift]
    cases decide (index < 4)
    · rw [Bool.not_false, Bool.and_true]
    · rw [Bool.not_true, Bool.and_false, Bool.and_false, Bool.false_and]
  rw [hostId, BitVec.and_comm, BitVec.and_or_distrib_left, BitVec.and_comm hostIdSeqMask, kept,
    BitVec.and_comm hostIdSeqMask, attempt]
  exact BitVec.or_zero

theorem seqOf_eq_of_seqBits
    (same : BitVec.ofNat 16 (seqOf earlier) <<< hostIdSeqShift =
      BitVec.ofNat 16 (seqOf later) <<< hostIdSeqShift) :
    seqOf earlier = seqOf later := by
  have bound := seqOf_le earlier
  have bound' := seqOf_le later
  have values := congrArg BitVec.toNat same
  simp only [BitVec.toNat_shiftLeft, BitVec.toNat_ofNat, Nat.shiftLeft_eq, hostIdSeqShift,
    hostIdSeqMax] at *
  omega

/-! ## What a caller gets -/

/-- The buffer of a caller after its response. -/
def TxArgs.respAfter (args : TxArgs) (resp : MorseCmdResp) : Option (List (BitVec 8)) :=
  if cmdRespSize ≤ args.length then args.resp.map (resp.copyTo args.length) else args.resp

/-- The result that a caller takes from its response. -/
def TxArgs.resultOf (args : TxArgs) (resp : MorseCmdResp) : BitVec 32 :=
  match args.respAfter resp with
  | some buffer => if args.length ≠ 0 then numberAt 32 4 cmdHeaderSize buffer else resp.status
  | none => resp.status

/-- A response carries the message and the sequence number of a call. -/
def Call.Carries (call : Call) (resp : MorseCmdResp) : Prop :=
  resp.messageId = call.args.req.messageId ∧
    resp.hostId &&& hostIdSeqMask = hostId call.seq 0 &&& hostIdSeqMask

/-- The caller waits or has been woken for a result that is there. -/
def Commands.ToTake (state : Commands) (number : Nat) : Prop :=
  match state.phase with
  | .waiting call _ => call = number ∧ 0 < (state.calls number).done
  | .woken call _ => call = number
  | _ => False

/-- Callers get their own responses, no others, and all that come in time. -/
structure Commands.Matched (state : Commands) : Prop where
  /-- What a call returns is what came of an attempt. -/
  returns : ∀ number < state.made, ∀ outcome, (state.calls number).returned = some outcome →
    outcome ∈ (state.calls number).outcomes
  /-- A result that is taken from a response is taken from one that was given to the
  call and carries its numbers. -/
  results : ∀ number < state.made, ∀ ret, .answered ret ∈ (state.calls number).outcomes →
    ∃ resp, (state.calls number).answer = some resp ∧ (state.calls number).Carries resp ∧
      ret = (state.calls number).args.resultOf resp
  /-- In the buffer of a caller is what it put there, or the response given to it. -/
  buffers : ∀ number < state.made,
    (state.calls number).resp = (state.calls number).args.resp ∨
      ∃ resp, (state.calls number).answer = some resp ∧
        (state.calls number).resp = (state.calls number).args.respAfter resp
  /-- A response that came while the command was pending and its caller waited is there
  for the caller to take, or was taken; and the call returns it unless it says that the
  firmware timed out. -/
  delivered : ∀ number < state.made, (state.calls number).inTime = true →
    ∃ resp, (state.calls number).answer = some resp ∧
      (state.calls number).resp = (state.calls number).args.respAfter resp ∧
      (state.ToTake number ∨
        .answered ((state.calls number).args.resultOf resp) ∈ (state.calls number).outcomes ∧
          ((state.calls number).args.resultOf resp ≠ etimedout →
            (state.calls number).returned =
              some (.answered ((state.calls number).args.resultOf resp))))

/-- No response is compared with a command of 256 octets or more that another one was
compared with, and no attempt ends while its buffer is under way to the chip. -/
def Commands.Undisturbed (state : Commands) : CmdAction → Prop
  | .respond _ _ =>
    ∀ skb ∈ state.pending.head?,
      skb.compared = false ∨ (state.calls skb.call).args.req.data.length < 2 ^ 8
  | .finish =>
    match state.phase with
    | .expired number retry | .woken number retry =>
      ∀ skb ∈ state.toSend, ¬ (skb.call = number ∧ skb.retry = retry)
    | _ => True
  | _ => True

/-! ## What holds of a call -/

/-- What holds of every call. -/
structure Call.Settled (call : Call) (number : Nat) : Prop where
  seq : call.seq = seqOf number
  returns : ∀ outcome, call.returned = some outcome → outcome ∈ call.outcomes
  unanswered : call.answer = none →
    call.resp = call.args.resp ∧ call.inTime = false ∧ ∀ ret, .answered ret ∉ call.outcomes
  carries : ∀ resp, call.answer = some resp → call.Carries resp
  buffers : ∀ resp, call.answer = some resp →
    call.resp = call.args.resp ∨ call.resp = call.args.respAfter resp
  results : ∀ resp, call.answer = some resp →
    ∀ ret, .answered ret ∈ call.outcomes → ret = call.args.resultOf resp
  inTime : call.inTime = true →
    ∀ resp, call.answer = some resp → call.resp = call.args.respAfter resp
  final : ∀ ret, .answered ret ∈ call.outcomes → ret ≠ etimedout →
    call.returned = some (.answered ret)

theorem Call.Settled.start (args : TxArgs) (number : Nat) :
    (Call.start args (seqOf number)).Settled number where
  seq := rfl
  returns := fun _ returned => by cases returned
  unanswered := fun _ => ⟨rfl, rfl, fun _ member => by cases member⟩
  carries := fun _ answer => by cases answer
  buffers := fun _ answer => by cases answer
  results := fun _ answer => by cases answer
  inTime := fun inTime => by cases inTime
  final := fun _ member => by cases member

variable {call : Call}

theorem Call.Settled.outcome (settled : call.Settled number) (going : call.returned = none)
    (outcome : Outcome) (returned : Option Outcome)
    (result : ∀ ret, outcome = .answered ret →
      ∃ resp, call.answer = some resp ∧ ret = call.args.resultOf resp)
    (last : ∀ other, returned = some other → other = outcome)
    (stays : ∀ ret, outcome = .answered ret → ret ≠ etimedout → returned = some outcome) :
    { call with outcomes := outcome :: call.outcomes, returned := returned }.Settled number where
  seq := settled.seq
  returns := fun other ends => by
    rw [last other ends]
    exact List.mem_cons_self
  unanswered := fun none => by
    obtain ⟨resp, inTime, results⟩ := settled.unanswered none
    refine ⟨resp, inTime, fun ret member => ?_⟩
    rcases List.mem_cons.mp member with same | earlier
    · obtain ⟨resp, some, -⟩ := result ret same.symm
      rw [none] at some
      cases some
    · exact results ret earlier
  carries := settled.carries
  buffers := settled.buffers
  results := fun resp answer ret member => by
    rcases List.mem_cons.mp member with same | earlier
    · obtain ⟨other, given, value⟩ := result ret same.symm
      rw [answer] at given
      cases given
      exact value
    · exact settled.results resp answer ret earlier
  inTime := settled.inTime
  final := fun ret member other => by
    rcases List.mem_cons.mp member with same | earlier
    · rw [stays ret same.symm other, same]
    · have ended := settled.final ret earlier other
      rw [going] at ended
      cases ended

theorem Call.Settled.congr {call other : Call} (settled : call.Settled number)
    (args : other.args = call.args) (seq : other.seq = call.seq) (resp : other.resp = call.resp)
    (outcomes : other.outcomes = call.outcomes) (returned : other.returned = call.returned)
    (answer : other.answer = call.answer) (inTime : other.inTime = call.inTime) :
    other.Settled number := by
  obtain ⟨callArgs, callSeq, callResp, done, respCb, callOutcomes, callReturned, sent, callAnswer,
    callInTime⟩ := call
  cases args
  cases seq
  cases resp
  cases outcomes
  cases returned
  cases answer
  cases inTime
  exact ⟨settled.seq, settled.returns, settled.unanswered, settled.carries, settled.buffers,
    settled.results, settled.inTime, settled.final⟩

variable {resp : MorseCmdResp} {inTime : Bool}

theorem Call.Settled.answered {number done : Nat} {respCb : Nat → MorseCmdRespCb}
    (settled : call.Settled number) (unanswered : call.answer = none) (carries : call.Carries resp)
    (written : buffer = call.args.resp ∨ buffer = call.args.respAfter resp)
    (delivered : inTime = true → buffer = call.args.respAfter resp) :
    { call with
      resp := buffer, done := done, respCb := respCb, answer := some resp,
      inTime := inTime }.Settled number where
  seq := settled.seq
  returns := settled.returns
  unanswered := fun none => by cases none
  carries := fun _ given => by
    cases given
    exact carries
  buffers := fun _ given => by
    cases given
    exact written
  results := fun _ _ ret member => absurd member ((settled.unanswered unanswered).2.2 ret)
  inTime := fun late _ given => by
    cases given
    exact delivered late
  final := settled.final

/-! ## What holds between steps -/

/-- The buffer of an attempt, which stands at the command itself once a response was
compared with it. -/
structure MorseCmdReq.Buffer (req : MorseCmdReq) (seq number retry : Nat) (skb : CmdSkb) :
    Prop where
  owner : skb.call = number
  attempt : skb.retry = retry
  queued : skb.compared = false → ∃ gap : List (BitVec 8), ∃ len pktId, gap.length < 2 ^ 8 ∧
    skb.data = buffSkbHeader len gap.length pktId ++
      (gap ++ req.octets (hostId seq retry))
  bare : skb.compared = true → skb.data = req.octets (hostId seq retry)

/-- Where the only buffer is: in the queue, under way to the chip, pending, or nowhere. -/
inductive Place (Good : CmdSkb → Prop) (skbq toSend pending : List CmdSkb) : Prop
  | gone (noSkbq : skbq = []) (noToSend : toSend = []) (noPending : pending = [])
  | queued (skb : CmdSkb) (good : Good skb) (only : skbq = [skb]) (noToSend : toSend = [])
      (noPending : pending = [])
  | underWay (skb : CmdSkb) (good : Good skb) (noSkbq : skbq = []) (only : toSend = [skb])
      (noPending : pending = [])
  | pending (skb : CmdSkb) (good : Good skb) (noSkbq : skbq = []) (noToSend : toSend = [])
      (only : pending = [skb])

/-- There is no buffer. -/
structure Commands.Empty (state : Commands) : Prop where
  skbq : state.skbq = []
  toSend : state.toSend = []
  pending : state.pending = []

/-- The call made last is going on. -/
structure Commands.Going (state : Commands) (number retry : Nat) : Prop where
  latest : number + 1 = state.made
  few : retry < mmMaxCommandRetry
  returned : (state.calls number).returned = none

/-- An attempt was queued, and its caller did not give it up yet. -/
structure Commands.Trying (state : Commands) (number retry : Nat) : Prop where
  going : state.Going number retry
  place : Place ((state.calls number).args.req.Buffer (state.calls number).seq number retry)
    state.skbq state.toSend state.pending
  cmdComp : state.cmdComp = some number
  length : ((state.calls number).respCb retry).length = (state.calls number).args.length
  destResp : ((state.calls number).respCb retry).destResp =
    (state.calls number).args.resp.map fun _ => number

/-- The result of an attempt is there. -/
def Call.Ready (call : Call) (retry : Nat) : Prop :=
  ∃ resp, call.answer = some resp ∧ call.resp = call.args.respAfter resp ∧
    call.ret retry = call.args.resultOf resp

/-- What holds of the caller whose turn it is. -/
def Commands.Turn (state : Commands) : Prop :=
  match state.phase with
  | .idle => state.Empty
  | .trying number retry =>
    state.Empty ∧ state.Going number retry ∧ (retry = 0 → (state.calls number).done = 0)
  | .waiting number retry =>
    state.Trying number retry ∧
      (0 < (state.calls number).done → (state.calls number).Ready retry)
  | .expired number retry => state.Trying number retry
  | .woken number retry => state.Trying number retry ∧ (state.calls number).Ready retry

/-- What holds between steps. -/
structure Commands.Invariant (state : Commands) : Prop where
  cmdSeq : ∀ number, number + 1 = state.made → state.cmdSeq = seqOf number
  zero : state.made = 0 → state.cmdSeq = 0
  settled : ∀ number < state.made, (state.calls number).Settled number
  turn : state.Turn
  taken : ∀ number < state.made, (state.calls number).inTime = true →
    ∀ resp, (state.calls number).answer = some resp →
      state.ToTake number ∨
        .answered ((state.calls number).args.resultOf resp) ∈ (state.calls number).outcomes

theorem Commands.Invariant.matched {state : Commands} (invariant : state.Invariant) :
    state.Matched where
  returns := fun number below => (invariant.settled number below).returns
  results := fun number below ret member => by
    have settled := invariant.settled number below
    cases answer : (state.calls number).answer with
    | none => exact absurd member ((settled.unanswered answer).2.2 ret)
    | some resp =>
      exact ⟨resp, rfl, settled.carries resp answer, settled.results resp answer ret member⟩
  buffers := fun number below => by
    have settled := invariant.settled number below
    cases answer : (state.calls number).answer with
    | none => exact .inl (settled.unanswered answer).1
    | some resp =>
      rcases settled.buffers resp answer with own | written
      · exact .inl own
      · exact .inr ⟨resp, rfl, written⟩
  delivered := fun number below inTime => by
    have settled := invariant.settled number below
    cases answer : (state.calls number).answer with
    | none =>
      have late := (settled.unanswered answer).2.1
      rw [inTime] at late
      cases late
    | some resp =>
      refine ⟨resp, rfl, settled.inTime inTime resp answer, ?_⟩
      rcases invariant.taken number below inTime resp answer with toTake | member
      · exact .inl toTake
      · exact .inr ⟨member, settled.final _ member⟩

theorem Commands.initial_invariant : Commands.initial.Invariant where
  cmdSeq := fun _ made => by cases made
  zero := fun _ => rfl
  settled := fun _ below => absurd below (Nat.not_lt_zero _)
  turn := ⟨rfl, rfl, rfl⟩
  taken := fun _ below => absurd below (Nat.not_lt_zero _)

/-! ## Steps of callers -/

@[simp] theorem Commands.modify_self (state : Commands) (number : Nat) (change : Call → Call) :
    (state.modify number change).calls number = change (state.calls number) :=
  Function.update_self _ _ _

variable {state : Commands} {number retry : Nat}

theorem Commands.Going.lt (going : state.Going number retry) : number < state.made := by
  have latest := going.latest
  omega

theorem Commands.Invariant.begin (invariant : state.Invariant) (idle : state.phase = .idle)
    (args : TxArgs) :
    (state.begin args).Invariant := by
  have turn := invariant.turn
  simp only [Commands.Turn, idle] at turn
  have seq : nextSeq state.cmdSeq = seqOf state.made := by
    cases made : state.made with
    | zero => rw [invariant.zero made]; rfl
    | succ count => rw [invariant.cmdSeq count made.symm, nextSeq_seqOf]
  have latest : (state.begin args).calls state.made =
      Call.start args (nextSeq state.cmdSeq) := Function.update_self _ _ _
  have others : ∀ other, other ≠ state.made →
      (state.begin args).calls other = state.calls other :=
    fun other differ => Function.update_of_ne differ _ _
  refine ⟨fun number made => ?_, fun made => ?_, fun number below => ?_, ?_, ?_⟩
  · have same : number = state.made := Nat.succ.inj made
    rw [same]
    exact seq
  · exact absurd made (Nat.succ_ne_zero _)
  · rcases Nat.lt_succ_iff_lt_or_eq.mp below with earlier | same
    · rw [others number (Nat.ne_of_lt earlier)]
      exact invariant.settled number earlier
    · rw [same, latest, seq]
      exact Call.Settled.start args _
  · refine ⟨⟨turn.skbq, turn.toSend, turn.pending⟩, ⟨rfl, by decide, ?_⟩, fun _ => ?_⟩
    · rw [latest]
      rfl
    · rw [latest]
      rfl
  · intro number below inTime resp answer
    rcases Nat.lt_succ_iff_lt_or_eq.mp below with earlier | same
    · rw [others number (Nat.ne_of_lt earlier)] at inTime answer ⊢
      rcases invariant.taken number earlier inTime resp answer with toTake | member
      · simp only [Commands.ToTake, idle] at toTake
      · exact .inr member
    · rw [same, latest] at inTime
      cases inTime

variable {next : Commands}

theorem Commands.Invariant.update (invariant : state.Invariant)
    (cmdSeq : next.cmdSeq = state.cmdSeq) (made : next.made = state.made)
    (others : ∀ other, other ≠ number → next.calls other = state.calls other)
    (keeps : ∀ other, other ≠ number → state.ToTake other → next.ToTake other)
    (settled : number < state.made → (next.calls number).Settled number) (turn : next.Turn)
    (taken : (next.calls number).inTime = true →
      ∀ resp, (next.calls number).answer = some resp →
        next.ToTake number ∨
          .answered ((next.calls number).args.resultOf resp) ∈ (next.calls number).outcomes) :
    next.Invariant := by
  refine ⟨fun other same => ?_, fun none => ?_, fun other below => ?_, turn,
    fun other below inTime resp answer => ?_⟩
  · rw [cmdSeq]
    exact invariant.cmdSeq other (same.trans made)
  · rw [cmdSeq]
    exact invariant.zero (made.symm.trans none)
  · by_cases same : other = number
    · subst same
      exact settled (Nat.lt_of_lt_of_eq below made)
    · rw [others other same]
      exact invariant.settled other (Nat.lt_of_lt_of_eq below made)
  · by_cases same : other = number
    · subst same
      exact taken inTime resp answer
    · rw [others other same] at inTime answer ⊢
      rcases invariant.taken other (Nat.lt_of_lt_of_eq below made) inTime resp answer
        with toTake | member
      · exact .inl (keeps other same toTake)
      · exact .inr member

theorem Commands.Turn.eq_of_toTake (turn : state.Turn) (going : number + 1 = state.made)
    (toTake : state.ToTake other) :
    other = number := by
  cases phase : state.phase with
  | waiting call attempt =>
    simp only [Commands.Turn, Commands.ToTake, phase] at turn toTake
    have latest := turn.1.going.latest
    omega
  | woken call attempt =>
    simp only [Commands.Turn, Commands.ToTake, phase] at turn toTake
    have latest := turn.1.going.latest
    omega
  | idle => simp only [Commands.ToTake, phase] at toTake
  | trying call attempt => simp only [Commands.ToTake, phase] at toTake
  | expired call attempt => simp only [Commands.ToTake, phase] at toTake

theorem Commands.Invariant.send (invariant : state.Invariant)
    (trying : state.phase = .trying number retry) (narrow : gap.length < 2 ^ 8)
    (pktId : BitVec 32) :
    (state.send number retry gap pktId).Invariant := by
  have turn := invariant.turn
  simp only [Commands.Turn, trying] at turn
  obtain ⟨empty, going, fresh⟩ := turn
  have self : (state.send number retry gap pktId).calls number =
      (state.calls number).attempt number retry := Function.update_self _ _ _
  refine invariant.update rfl rfl (fun other differ => Function.update_of_ne differ _ _)
    (fun other differ toTake => absurd (invariant.turn.eq_of_toTake going.latest toTake) differ)
    (fun below => ?_) ⟨⟨⟨going.latest, going.few, ?_⟩, ?_, rfl, ?_, ?_⟩, fun done => ?_⟩
    fun inTime resp answer => ?_
  · rw [self]
    exact (invariant.settled number below).congr rfl rfl rfl rfl rfl rfl rfl
  · rw [self]
    exact going.returned
  · rw [self]
    refine .queued ((state.calls number).skb number retry gap pktId) ⟨rfl, rfl, fun _ => ?_,
      fun compared => by cases compared⟩ ?_ empty.toSend empty.pending
    · exact ⟨gap, _, pktId, narrow, rfl⟩
    · rw [Commands.send, empty.skbq]
      rfl
  · rw [self]
    simp only [Call.attempt, Function.update_self]
  · rw [self]
    simp only [Call.attempt, Function.update_self]
  · rw [self] at done
    simp only [Call.attempt] at done
    split at done
    · cases done
    · next first =>
        rw [fresh (Nat.eq_zero_of_not_pos first)] at done
        cases done
  · rw [self] at inTime answer ⊢
    rcases invariant.taken number going.lt inTime resp answer with toTake | member
    · simp only [Commands.ToTake, trying] at toTake
    · exact .inr member

theorem Commands.Invariant.fail (invariant : state.Invariant)
    (trying : state.phase = .trying number retry) (failure : TxFailure) :
    (state.fail number failure).Invariant := by
  have turn := invariant.turn
  simp only [Commands.Turn, trying] at turn
  obtain ⟨empty, going, -⟩ := turn
  have self : (state.fail number failure).calls number =
      (state.calls number).return (.failed failure) := Function.update_self _ _ _
  refine invariant.update rfl rfl (fun other differ => Function.update_of_ne differ _ _)
    (fun other differ toTake => absurd (invariant.turn.eq_of_toTake going.latest toTake) differ)
    (fun below => ?_) ⟨empty.skbq, empty.toSend, empty.pending⟩ fun inTime resp answer => ?_
  · rw [self]
    exact (invariant.settled number below).outcome going.returned _ _
      (fun ret same => by cases same) (fun other same => (Option.some.inj same).symm)
      (fun ret same => by cases same)
  · rw [self] at inTime answer ⊢
    rcases invariant.taken number going.lt inTime resp answer with toTake | member
    · simp only [Commands.ToTake, trying] at toTake
    · exact .inr (List.mem_cons_of_mem _ member)

theorem Commands.Invariant.expire (invariant : state.Invariant)
    (waiting : state.phase = .waiting number retry) (none : (state.calls number).done = 0) :
    { state with phase := .expired number retry }.Invariant := by
  have turn := invariant.turn
  simp only [Commands.Turn, waiting] at turn
  have trying := turn.1
  refine @Commands.Invariant.update state number _ invariant rfl rfl (fun _ _ => rfl)
    (fun other differ toTake =>
      absurd (invariant.turn.eq_of_toTake trying.going.latest toTake) differ)
    (invariant.settled number)
    ⟨⟨trying.going.latest, trying.going.few, trying.going.returned⟩, trying.place, trying.cmdComp,
      trying.length, trying.destResp⟩ fun inTime resp answer => ?_
  rcases invariant.taken number trying.going.lt inTime resp answer with toTake | member
  · simp only [Commands.ToTake, waiting, none] at toTake
    exact absurd toTake.2 (Nat.lt_irrefl 0)
  · exact .inr member

theorem Commands.Invariant.wake (invariant : state.Invariant)
    (waiting : state.phase = .waiting number retry) (some : 0 < (state.calls number).done) :
    { state.modify number fun call => { call with done := call.done - 1 } with
      phase := .woken number retry }.Invariant := by
  have turn := invariant.turn
  simp only [Commands.Turn, waiting] at turn
  obtain ⟨trying, ready⟩ := turn
  have self : (state.modify number fun call => { call with done := call.done - 1 }).calls number =
      { state.calls number with done := (state.calls number).done - 1 } := state.modify_self _ _
  refine invariant.update rfl rfl (fun other differ => Function.update_of_ne differ _ _)
    (fun other differ toTake =>
      absurd (invariant.turn.eq_of_toTake trying.going.latest toTake) differ)
    (fun below => ?_)
    ⟨⟨⟨trying.going.latest, trying.going.few, ?_⟩, ?_, trying.cmdComp, ?_, ?_⟩, ?_⟩ fun _ _
      _ => .inl rfl
  · rw [self]
    exact (invariant.settled number below).congr rfl rfl rfl rfl rfl rfl rfl
  · rw [self]
    exact trying.going.returned
  · rw [self]
    exact trying.place
  · rw [self]
    exact trying.length
  · rw [self]
    exact trying.destResp
  · rw [self]
    exact ready some

variable {req : MorseCmdReq} {seq : Nat} {skb : CmdSkb}

theorem unlink_own (good : req.Buffer seq number retry skb) :
    unlink number retry [skb] = [] := by
  simp only [unlink, List.filter_cons, good.owner, good.attempt, decide_true, Bool.and_self,
    Bool.not_true, Bool.false_eq_true, if_false, List.filter_nil]

theorem Commands.Trying.cmdFinish (trying : state.Trying number retry)
    (notUnderWay : ∀ skb ∈ state.toSend, ¬ (skb.call = number ∧ skb.retry = retry)) :
    (state.cmdFinish number retry).Empty := by
  rw [Commands.cmdFinish]
  cases trying.place with
  | gone noSkbq noToSend noPending =>
    rw [if_neg (not_or.mpr ⟨not_not.mpr noPending, not_not.mpr noSkbq⟩)]
    exact ⟨noSkbq, noToSend, noPending⟩
  | queued skb good only noToSend noPending =>
    rw [if_pos (.inr (by rw [only]; exact List.cons_ne_nil _ _))]
    exact ⟨by rw [only, unlink_own good], by rw [noToSend]; rfl, by rw [noPending]; rfl⟩
  | underWay skb good noSkbq only noPending =>
    refine absurd ⟨good.owner, good.attempt⟩ (notUnderWay skb ?_)
    rw [only]
    exact List.mem_singleton_self _
  | pending skb good noSkbq noToSend only =>
    rw [if_pos (.inl (by rw [only]; exact List.cons_ne_nil _ _))]
    exact ⟨by rw [noSkbq]; rfl, by rw [noToSend]; rfl, by rw [only, unlink_own good]⟩

theorem Commands.cmdFinish_calls (state : Commands) (number retry : Nat) :
    (state.cmdFinish number retry).calls = state.calls ∧
      (state.cmdFinish number retry).made = state.made ∧
      (state.cmdFinish number retry).cmdSeq = state.cmdSeq := by
  rw [Commands.cmdFinish]
  split
  · exact ⟨rfl, rfl, rfl⟩
  · exact ⟨rfl, rfl, rfl⟩

theorem Commands.Invariant.finish (invariant : state.Invariant) (trying : state.Trying number retry)
    (notUnderWay : ∀ skb ∈ state.toSend, ¬ (skb.call = number ∧ skb.retry = retry))
    (result : ∀ ret, outcome = .answered ret →
      ∃ resp, (state.calls number).answer = some resp ∧
        ret = (state.calls number).args.resultOf resp)
    (takes : state.ToTake number → ∃ ret, outcome = .answered ret) :
    (state.finish number retry outcome).Invariant := by
  obtain ⟨calls, made, cmdSeq⟩ := state.cmdFinish_calls number retry
  have empty := trying.cmdFinish notUnderWay
  have settled := invariant.settled number trying.going.lt
  have member : (state.calls number).inTime = true → ∀ resp,
      (state.calls number).answer = some resp →
        .answered ((state.calls number).args.resultOf resp) ∈
          outcome :: (state.calls number).outcomes := by
    intro inTime resp answer
    rcases invariant.taken number trying.going.lt inTime resp answer with toTake | earlier
    · obtain ⟨ret, answered⟩ := takes toTake
      obtain ⟨given, some, value⟩ := result ret answered
      rw [answer] at some
      cases some
      rw [answered, value]
      exact List.mem_cons_self
    · exact List.mem_cons_of_mem _ earlier
  rw [Commands.finish]
  split
  · next again =>
      refine @Commands.Invariant.update state number _ invariant cmdSeq made ?_
        (fun other differ toTake =>
          absurd (invariant.turn.eq_of_toTake trying.going.latest toTake) differ) ?_ ?_ ?_
      · intro other differ
        rw [← calls]
        exact Function.update_of_ne differ _ _
      · intro below
        have noted := settled.outcome trying.going.returned outcome none result
          (fun other same => by cases same) (fun ret answered other => by
            rw [answered] at again
            exact absurd again.1 other)
        have going := trying.going.returned
        simp only [Commands.modify, Function.update_self, calls]
        rw [← going] at noted
        exact noted
      · refine ⟨⟨empty.skbq, empty.toSend, empty.pending⟩, ⟨?_, again.2, ?_⟩, fun first => ?_⟩
        · exact trying.going.latest.trans made.symm
        · simp only [Commands.modify, Function.update_self, calls]
          exact trying.going.returned
        · cases first
      · simp only [Commands.modify, Function.update_self, calls]
        exact fun inTime resp answer => .inr (member inTime resp answer)
  · next last =>
      refine @Commands.Invariant.update state number _ invariant cmdSeq made ?_
        (fun other differ toTake =>
          absurd (invariant.turn.eq_of_toTake trying.going.latest toTake) differ) ?_
        ⟨empty.skbq, empty.toSend, empty.pending⟩ ?_
      · intro other differ
        rw [← calls]
        exact Function.update_of_ne differ _ _
      · intro below
        simp only [Commands.modify, Function.update_self, calls]
        exact settled.outcome trying.going.returned outcome (some outcome) result
          (fun other same => (Option.some.inj same).symm) (fun _ _ _ => rfl)
      · simp only [Commands.modify, Function.update_self, calls]
        exact fun inTime resp answer => .inr (member inTime resp answer)

/-! ## Steps of the work that hands buffers to the chip -/

theorem Commands.Trying.congr (trying : state.Trying number retry) (made : next.made = state.made)
    (cmdComp : next.cmdComp = state.cmdComp)
    (args : (next.calls number).args = (state.calls number).args)
    (seq : (next.calls number).seq = (state.calls number).seq)
    (returned : (next.calls number).returned = (state.calls number).returned)
    (respCb : (next.calls number).respCb = (state.calls number).respCb)
    (place : Place ((state.calls number).args.req.Buffer (state.calls number).seq number retry)
      next.skbq next.toSend next.pending) :
    next.Trying number retry := by
  refine ⟨⟨trying.going.latest.trans made.symm, trying.going.few, ?_⟩, ?_,
    cmdComp.trans trying.cmdComp, ?_, ?_⟩
  · rw [returned]
    exact trying.going.returned
  · rw [args, seq]
    exact place
  · rw [respCb, args]
    exact trying.length
  · rw [respCb, args]
    exact trying.destResp

theorem Commands.Trying.moved (trying : state.Trying number retry) (made : next.made = state.made)
    (cmdComp : next.cmdComp = state.cmdComp)
    (call : next.calls number = { state.calls number with sent := sent })
    (place : Place ((state.calls number).args.req.Buffer (state.calls number).seq number retry)
      next.skbq next.toSend next.pending) :
    next.Trying number retry :=
  trying.congr made cmdComp (by rw [call]) (by rw [call]) (by rw [call]) (by rw [call]) place

theorem Commands.Invariant.moved (invariant : state.Invariant) (cmdSeq : next.cmdSeq = state.cmdSeq)
    (made : next.made = state.made) (phase : next.phase = state.phase)
    (cmdComp : next.cmdComp = state.cmdComp)
    (calls : ∀ other, ∃ sent, next.calls other = { state.calls other with sent := sent })
    (busy : ¬ state.Empty)
    (place : ∀ number retry, state.Trying number retry →
      Place ((state.calls number).args.req.Buffer (state.calls number).seq number retry)
        next.skbq next.toSend next.pending) :
    next.Invariant := by
  refine ⟨fun other same => ?_, fun none => ?_, fun other below => ?_, ?_,
    fun other below inTime resp answer => ?_⟩
  · rw [cmdSeq]
    exact invariant.cmdSeq other (same.trans made)
  · rw [cmdSeq]
    exact invariant.zero (made.symm.trans none)
  · obtain ⟨sent, call⟩ := calls other
    rw [call]
    exact (invariant.settled other (Nat.lt_of_lt_of_eq below made)).congr rfl rfl rfl rfl rfl rfl
      rfl
  · have turn := invariant.turn
    cases turns : state.phase with
    | idle =>
      simp only [Commands.Turn, turns] at turn
      exact absurd turn busy
    | trying number retry =>
      simp only [Commands.Turn, turns] at turn
      exact absurd turn.1 busy
    | waiting number retry =>
      obtain ⟨sent, call⟩ := calls number
      simp only [Commands.Turn, turns, phase] at turn ⊢
      refine ⟨turn.1.moved made cmdComp call (place _ _ turn.1), fun done => ?_⟩
      rw [call] at done ⊢
      exact turn.2 done
    | expired number retry =>
      obtain ⟨sent, call⟩ := calls number
      simp only [Commands.Turn, turns, phase] at turn ⊢
      exact turn.moved made cmdComp call (place _ _ turn)
    | woken number retry =>
      obtain ⟨sent, call⟩ := calls number
      simp only [Commands.Turn, turns, phase] at turn ⊢
      refine ⟨turn.1.moved made cmdComp call (place _ _ turn.1), ?_⟩
      rw [call]
      exact turn.2
  · obtain ⟨sent, call⟩ := calls other
    rw [call] at inTime answer ⊢
    have taken := invariant.taken other (Nat.lt_of_lt_of_eq below made) inTime resp answer
    rcases taken with toTake | member
    · left
      rw [Commands.ToTake, phase, call]
      exact toTake
    · exact .inr member

variable {rest : List CmdSkb}

theorem Commands.Invariant.take (invariant : state.Invariant) (queued : state.skbq = skb :: rest)
    (chipIf : ChipIf) :
    (state.take chipIf skb rest).Invariant := by
  refine invariant.moved rfl rfl rfl rfl (fun other => ⟨_, rfl⟩) (fun empty => ?_)
    fun number retry trying => ?_
  · rw [empty.skbq] at queued
    cases queued
  · cases trying.place with
    | gone noSkbq =>
      rw [noSkbq] at queued
      cases queued
    | queued own good only noToSend noPending =>
      rw [only] at queued
      cases queued
      refine .underWay skb good rfl rfl ?_
      rw [Commands.take, noPending]
      exact ite_self _
    | underWay own good noSkbq =>
      rw [noSkbq] at queued
      cases queued
    | pending own good noSkbq =>
      rw [noSkbq] at queued
      cases queued

theorem Commands.Invariant.handOver (invariant : state.Invariant)
    (underWay : state.toSend = skb :: rest) :
    (state.handOver skb rest).Invariant := by
  refine invariant.moved rfl rfl rfl rfl (fun other => ?_) (fun empty => ?_)
    fun number retry trying => ?_
  · by_cases same : other = skb.call
    · subst same
      exact ⟨_, Function.update_self _ _ _⟩
    · exact ⟨(state.calls other).sent, Function.update_of_ne same _ _⟩
  · rw [empty.toSend] at underWay
    cases underWay
  · cases trying.place with
    | gone _ noToSend =>
      rw [noToSend] at underWay
      cases underWay
    | queued own good _ noToSend =>
      rw [noToSend] at underWay
      cases underWay
    | underWay own good noSkbq only noPending =>
      rw [only] at underWay
      cases underWay
      refine .pending skb good noSkbq rfl ?_
      rw [Commands.handOver, noPending]
      rfl
    | pending own good _ noToSend =>
      rw [noToSend] at underWay
      cases underWay

theorem Commands.Invariant.keepBack (invariant : state.Invariant)
    (underWay : state.toSend = skb :: rest) (chipIf : ChipIf) :
    (state.keepBack chipIf skb rest).Invariant := by
  refine invariant.moved rfl rfl rfl rfl (fun other => ⟨_, rfl⟩) (fun empty => ?_)
    fun number retry trying => ?_
  · rw [empty.toSend] at underWay
    cases underWay
  · cases trying.place with
    | gone _ noToSend =>
      rw [noToSend] at underWay
      cases underWay
    | queued own good _ noToSend =>
      rw [noToSend] at underWay
      cases underWay
    | underWay own good noSkbq only noPending =>
      rw [only] at underWay
      cases underWay
      cases chipIf with
      | pageset => exact .gone noSkbq rfl noPending
      | yaps =>
        refine .queued skb good ?_ rfl noPending
        rw [Commands.keepBack, noSkbq]
        rfl
    | pending own good _ noToSend =>
      rw [noToSend] at underWay
      cases underWay

/-! ## Responses -/

theorem MorseCmdReq.Buffer.removeHdr (buffer : req.Buffer seq number retry skb)
    (undisturbed : skb.compared = false ∨ req.data.length < 2 ^ 8) :
    removeHdrAfterSentToChip skb.data = req.octets (hostId seq retry) := by
  cases compared : skb.compared with
  | false =>
    obtain ⟨gap, len, pktId, narrow, data⟩ := buffer.queued compared
    rw [data, removeHdr_queued len gap _ pktId narrow]
  | true =>
    have short : req.data.length < 2 ^ 8 := by
      rcases undisturbed with first | short
      · rw [compared] at first
        cases first
      · exact short
    rw [buffer.bare compared, removeHdr_octets req _ short]

theorem isResponseTo_octets (req : MorseCmdReq) (seq : Nat) (few : retry < mmMaxCommandRetry)
    (resp : MorseCmdResp) :
    isResponseTo (req.octets (hostId seq retry)) resp = true ↔
      resp.messageId = req.messageId ∧
        resp.hostId &&& hostIdSeqMask = BitVec.ofNat 16 seq <<< hostIdSeqShift := by
  rw [isResponseTo, messageId_octets, hostId_octets, seqBits_hostId few, Bool.and_eq_true,
    decide_eq_true_eq, decide_eq_true_eq]
  exact and_congr eq_comm eq_comm

/-- A call after its response was taken in for an attempt. -/
def Call.deliver (retry : Nat) (resp : MorseCmdResp) (call : Call) : Call :=
  { call with
    resp := call.args.respAfter resp
    respCb := Function.update call.respCb retry
      { call.respCb retry with ret := if (call.respCb retry).copies then 0 else resp.status }
    done := call.done + 1 }

theorem Commands.modify_modify (state : Commands) (number : Nat) (before after : Call → Call) :
    (state.modify number before).modify number after =
      state.modify number fun call => after (before call) := by
  simp only [Commands.modify, Function.update_self, Function.update_idem]

theorem Commands.modify_congr (same : change (state.calls number) = other (state.calls number)) :
    state.modify number change = state.modify number other := by
  rw [Commands.modify, Commands.modify, same]

theorem Commands.modify_eq_self (same : change (state.calls number) = state.calls number) :
    state.modify number change = state := by
  rw [Commands.modify, same, Function.update_eq_self]

theorem Commands.Trying.copyResp (trying : state.Trying number retry)
    (untouched : (state.calls number).resp = (state.calls number).args.resp) (resp : MorseCmdResp) :
    state.copyResp ((state.calls number).respCb retry) resp =
      state.modify number fun call => { call with resp := call.args.respAfter resp } := by
  have unchanged : (state.calls number).args.respAfter resp = (state.calls number).args.resp →
      state = state.modify number fun call => { call with resp := call.args.respAfter resp } := by
    intro same
    refine (Commands.modify_eq_self ?_).symm
    rw [same, ← untouched]
  rw [Commands.copyResp, trying.destResp]
  cases dest : (state.calls number).args.resp with
  | none =>
    refine unchanged ?_
    rw [TxArgs.respAfter, dest]
    exact ite_self _
  | some buffer =>
    simp only [Option.map_some, MorseCmdRespCb.copies, trying.length, trying.destResp, dest,
      Option.isSome_some, Bool.and_true, decide_eq_true_eq]
    split
    · next long =>
        refine Commands.modify_congr ?_
        rw [untouched, TxArgs.respAfter, if_pos long]
    · next short =>
        refine unchanged ?_
        rw [TxArgs.respAfter, if_neg short]

theorem Commands.Trying.deliver (trying : state.Trying number retry)
    (untouched : (state.calls number).resp = (state.calls number).args.resp)
    (owner : skb.call = number) (attempt : skb.retry = retry) (resp : MorseCmdResp) :
    state.deliver skb resp = state.modify number (Call.deliver retry resp) := by
  subst owner
  subst attempt
  rw [Commands.deliver, trying.copyResp untouched, Commands.complete]
  simp only [Commands.modify, trying.cmdComp, Function.update_self, Function.update_idem]
  rfl

theorem Commands.Trying.ready (trying : state.Trying number retry) (resp : MorseCmdResp)
    (inTime : Bool) :
    { (state.calls number).deliver retry resp with
      answer := some resp, inTime := inTime }.Ready retry := by
  refine ⟨resp, rfl, rfl, ?_⟩
  have copies : ((state.calls number).respCb retry).copies =
      (decide (cmdRespSize ≤ (state.calls number).args.length) &&
        (state.calls number).args.resp.isSome) := by
    rw [MorseCmdRespCb.copies, trying.length, trying.destResp, Option.isSome_map]
  simp only [Call.ret, Call.deliver, TxArgs.resultOf, Function.update_self, copies]
  cases after : (state.calls number).args.respAfter resp with
  | none =>
    have none : (state.calls number).args.resp.isSome = false := by
      rw [TxArgs.respAfter] at after
      split at after
      · rw [Option.map_eq_none_iff.mp after]
        rfl
      · rw [after]
        rfl
    simp only [none, Bool.and_false, Bool.false_eq_true, if_false]
  | some buffer =>
    by_cases long : (state.calls number).args.length = 0
    · simp only [long, cmdRespSize, ne_eq, not_true_eq_false, if_false]
      rfl
    · simp only [ne_eq, long, not_false_eq_true, if_true]

/-- The state after a response was compared with the command that is pending. -/
def Commands.compare (state : Commands) (skb : CmdSkb) : Commands :=
  { state with
    pending := [{ skb with data := removeHdrAfterSentToChip skb.data, compared := true }] }

theorem Commands.Trying.pending (trying : state.Trying number retry)
    (pending : state.pending = skb :: rest) :
    (state.calls number).args.req.Buffer (state.calls number).seq number retry skb ∧
      rest = [] ∧ state.skbq = [] ∧ state.toSend = [] := by
  cases trying.place with
  | gone _ _ noPending =>
    rw [noPending] at pending
    cases pending
  | queued _ _ _ _ noPending =>
    rw [noPending] at pending
    cases pending
  | underWay _ _ _ _ noPending =>
    rw [noPending] at pending
    cases pending
  | pending own good noSkbq noToSend only =>
    rw [only] at pending
    cases pending
    exact ⟨good, rfl, noSkbq, noToSend⟩

theorem Commands.Trying.compare (trying : state.Trying number retry)
    (pending : state.pending = skb :: rest)
    (undisturbed : skb.compared = false ∨ (state.calls skb.call).args.req.data.length < 2 ^ 8) :
    (state.compare skb).Trying number retry := by
  obtain ⟨good, -, noSkbq, noToSend⟩ := trying.pending pending
  rw [good.owner] at undisturbed
  exact trying.congr rfl rfl rfl rfl rfl rfl
    (.pending { skb with data := removeHdrAfterSentToChip skb.data, compared := true }
      ⟨good.owner, good.attempt, (fun compared => by cases compared), fun _ =>
        good.removeHdr undisturbed⟩ noSkbq noToSend rfl)

theorem Commands.Invariant.compare (invariant : state.Invariant)
    (pending : state.pending = skb :: rest)
    (undisturbed : skb.compared = false ∨ (state.calls skb.call).args.req.data.length < 2 ^ 8) :
    (state.compare skb).Invariant := by
  refine invariant.moved rfl rfl rfl rfl (fun other => ⟨_, rfl⟩) (fun empty => ?_)
    fun number retry trying => (trying.compare pending undisturbed).place
  rw [empty.pending] at pending
  cases pending

theorem Commands.Invariant.note (invariant : state.Invariant) (below : number < state.made)
    (unanswered : (state.calls number).answer = none)
    (carries : (state.calls number).Carries resp) :
    (state.modify number fun call =>
      { call with answer := some resp, inTime := false }).Invariant := by
  generalize noted : (state.modify number fun call =>
    { call with answer := some resp, inTime := false }) = next
  have self : next.calls number =
      { state.calls number with answer := some resp, inTime := false } :=
    noted ▸ Function.update_self _ _ _
  have others : ∀ other, other ≠ number → next.calls other = state.calls other :=
    fun other differ => noted ▸ Function.update_of_ne differ _ _
  have phase : next.phase = state.phase := noted ▸ rfl
  have settled := invariant.settled number below
  have untouched := settled.unanswered unanswered
  have goesOn : ∀ call retry, state.Trying call retry → next.Trying call retry := by
    intro call retry trying
    by_cases same : call = number
    · subst same
      refine trying.congr (noted ▸ rfl) (noted ▸ rfl) ?_ ?_ ?_ ?_ (noted ▸ trying.place)
      all_goals rw [self]
    · refine trying.congr (noted ▸ rfl) (noted ▸ rfl) ?_ ?_ ?_ ?_ (noted ▸ trying.place)
      all_goals rw [others call same]
  have ready : ∀ call retry, (state.calls call).Ready retry → (next.calls call).Ready retry := by
    intro call retry ready
    by_cases same : call = number
    · subst same
      obtain ⟨given, answer, -⟩ := ready
      rw [unanswered] at answer
      cases answer
    · rw [others call same]
      exact ready
  have done : ∀ call, (next.calls call).done = (state.calls call).done := by
    intro call
    by_cases same : call = number
    · rw [same, self]
    · rw [others call same]
  refine invariant.update (noted ▸ rfl) (noted ▸ rfl) others (fun other differ toTake => ?_)
    (fun _ => ?_) ?_ fun inTime => ?_
  · rw [Commands.ToTake, phase, done]
    exact toTake
  · rw [self]
    exact settled.answered unanswered carries (.inl untouched.1) (fun late => by cases late)
  · have turn := invariant.turn
    cases turns : state.phase with
    | idle =>
      simp only [Commands.Turn, phase, turns] at turn ⊢
      exact noted ▸ ⟨turn.skbq, turn.toSend, turn.pending⟩
    | trying call retry =>
      simp only [Commands.Turn, phase, turns] at turn ⊢
      refine ⟨noted ▸ ⟨turn.1.skbq, turn.1.toSend, turn.1.pending⟩,
        ⟨turn.2.1.latest.trans (noted ▸ rfl), turn.2.1.few, ?_⟩, ?_⟩
      · by_cases same : call = number
        · rw [same, self, ← same]
          exact turn.2.1.returned
        · rw [others call same]
          exact turn.2.1.returned
      · rw [done]
        exact turn.2.2
    | waiting call retry =>
      simp only [Commands.Turn, phase, turns] at turn ⊢
      rw [done]
      exact ⟨goesOn _ _ turn.1, fun some => ready _ _ (turn.2 some)⟩
    | expired call retry =>
      simp only [Commands.Turn, phase, turns] at turn ⊢
      exact goesOn _ _ turn
    | woken call retry =>
      simp only [Commands.Turn, phase, turns] at turn ⊢
      exact ⟨goesOn _ _ turn.1, ready _ _ turn.2⟩
  · rw [self] at inTime
    cases inTime

theorem Commands.Invariant.deliver (invariant : state.Invariant)
    (trying : state.Trying number retry) (unanswered : (state.calls number).answer = none)
    (carries : (state.calls number).Carries resp)
    (phase : inTime = true ∧ state.phase = .waiting number retry ∨
      inTime = false ∧
        (state.phase = .waiting number retry ∨ state.phase = .expired number retry)) :
    ((state.modify number (Call.deliver retry resp)).modify number fun call =>
      { call with answer := some resp, inTime := inTime }).Invariant := by
  rw [Commands.modify_modify]
  generalize given : (state.modify number fun call =>
    { call.deliver retry resp with answer := some resp, inTime := inTime }) = next
  have self : next.calls number =
      { (state.calls number).deliver retry resp with answer := some resp, inTime := inTime } :=
    given ▸ Function.update_self _ _ _
  have samePhase : next.phase = state.phase := given ▸ rfl
  have ready : (next.calls number).Ready retry := by
    rw [self]
    exact trying.ready resp inTime
  have goesOn : next.Trying number retry := by
    refine ⟨⟨given ▸ trying.going.latest, trying.going.few, ?_⟩, ?_, given ▸ trying.cmdComp, ?_,
      ?_⟩
    · rw [self]
      exact trying.going.returned
    · rw [self]
      exact given ▸ trying.place
    · rw [self]
      simp only [Call.deliver, Function.update_self]
      exact trying.length
    · rw [self]
      simp only [Call.deliver, Function.update_self]
      exact trying.destResp
  have some : 0 < (next.calls number).done := by
    rw [self]
    exact Nat.succ_pos _
  refine invariant.update (given ▸ rfl) (given ▸ rfl)
    (fun other differ => given ▸ Function.update_of_ne differ _ _)
    (fun other differ toTake =>
      absurd (invariant.turn.eq_of_toTake trying.going.latest toTake) differ)
    (fun below => ?_) ?_ fun late => ?_
  · rw [self]
    exact (invariant.settled number below).answered unanswered carries (.inr rfl) fun _ => rfl
  · rcases phase with ⟨-, waiting⟩ | ⟨-, waiting | expired⟩
    · simp only [Commands.Turn, samePhase, waiting]
      exact ⟨goesOn, fun _ => ready⟩
    · simp only [Commands.Turn, samePhase, waiting]
      exact ⟨goesOn, fun _ => ready⟩
    · simp only [Commands.Turn, samePhase, expired]
      exact goesOn
  · rw [self] at late
    rcases phase with ⟨-, waiting⟩ | ⟨never, -⟩
    · intro _ _
      left
      rw [Commands.ToTake, samePhase, waiting]
      exact ⟨rfl, some⟩
    · rw [never] at late
      cases late

theorem Commands.mayRespond_spec (may : state.mayRespond number resp = true) :
    number < state.made ∧ state.made ≤ number + hostIdSeqMax ∧
      (state.calls number).answer = none ∧ (state.calls number).Carries resp := by
  simp only [Commands.mayRespond, Bool.and_eq_true, decide_eq_true_eq, Option.isNone_iff_eq_none,
    List.any_eq_true, List.mem_range] at may
  obtain ⟨⟨⟨⟨below, near⟩, unanswered⟩, messageId⟩, retry, few, -, hostId⟩ := may
  refine ⟨below, near, unanswered, messageId, ?_⟩
  rw [hostId, seqBits_hostId few, seqBits_hostId (by decide)]

theorem Commands.Turn.trying (turn : state.Turn) (pending : state.pending = skb :: rest) :
    ∃ number retry, state.Trying number retry ∧
      (state.phase = .waiting number retry ∨ state.phase = .expired number retry ∨
        state.phase = .woken number retry ∧ (state.calls number).Ready retry) := by
  cases phase : state.phase with
  | idle =>
    simp only [Commands.Turn, phase] at turn
    rw [turn.pending] at pending
    cases pending
  | trying call retry =>
    simp only [Commands.Turn, phase] at turn
    rw [turn.1.pending] at pending
    cases pending
  | waiting call retry =>
    simp only [Commands.Turn, phase] at turn
    exact ⟨call, retry, turn.1, .inl rfl⟩
  | expired call retry =>
    simp only [Commands.Turn, phase] at turn
    exact ⟨call, retry, turn, .inr (.inl rfl)⟩
  | woken call retry =>
    simp only [Commands.Turn, phase] at turn
    exact ⟨call, retry, turn.1, .inr (.inr ⟨rfl, turn.2⟩)⟩

theorem Commands.Invariant.respond (invariant : state.Invariant)
    (may : state.mayRespond number resp = true)
    (undisturbed : ∀ skb ∈ state.pending.head?,
      skb.compared = false ∨ (state.calls skb.call).args.req.data.length < 2 ^ 8) :
    ((state.respProcess resp).modify number fun call =>
      { call with answer := some resp, inTime := state.awaits number }).Invariant := by
  obtain ⟨below, near, unanswered, carries⟩ := Commands.mayRespond_spec may
  cases pending : state.pending with
  | nil =>
    have process : state.respProcess resp = state := by rw [Commands.respProcess, pending]
    have late : state.awaits number = false := by rw [Commands.awaits, pending]
    rw [process, late]
    exact invariant.note below unanswered carries
  | cons skb rest =>
    obtain ⟨call, retry, trying, turns⟩ := invariant.turn.trying pending
    obtain ⟨buffer, last, -, -⟩ := trying.pending pending
    have first : skb ∈ state.pending.head? := by
      rw [pending]
      rfl
    have compared := invariant.compare pending (undisturbed skb first)
    have bare := buffer.removeHdr (by
      have undisturbed := undisturbed skb first
      rwa [buffer.owner] at undisturbed)
    have agrees := isResponseTo_octets (state.calls call).args.req (state.calls call).seq
      trying.going.few resp
    rw [← bare, (invariant.settled call trying.going.lt).seq] at agrees
    have seq := (invariant.settled number below).seq
    have carried := carries.2
    rw [seqBits_hostId (by decide), seq] at carried
    by_cases own : call = number
    · subst own
      have process : state.respProcess resp =
          (state.compare skb).modify call (Call.deliver retry resp) := by
        rw [← (trying.compare pending (undisturbed skb first)).deliver
          ((invariant.settled call below).unanswered unanswered).1 buffer.owner buffer.attempt,
          Commands.respProcess, pending]
        dsimp only
        rw [agrees.mpr ⟨carries.1, carried⟩, last]
        rfl
      rw [process]
      refine compared.deliver (trying.compare pending (undisturbed skb first)) unanswered carries
        ?_
      rcases turns with waiting | expired | ⟨-, given, answer, -⟩
      · refine .inl ⟨?_, waiting⟩
        rw [Commands.awaits, pending, waiting]
        simp only [buffer.owner, decide_true, Bool.and_self]
      · refine .inr ⟨?_, .inr expired⟩
        rw [Commands.awaits, pending, expired]
      · rw [unanswered] at answer
        cases answer
    · have late : state.awaits number = false := by
        rw [Commands.awaits, pending]
        split
        · next front _ =>
            cases front
            rw [buffer.owner, decide_eq_false own, Bool.false_and]
        · rfl
      have differs : isResponseTo (removeHdrAfterSentToChip skb.data) resp = false := by
        refine Bool.eq_false_iff.mpr fun same => own ?_
        have order : number ≤ call := by
          have latest := trying.going.latest
          omega
        refine (eq_of_seqOf_eq order ?_ (seqOf_eq_of_seqBits ?_)).symm
        · exact Nat.lt_of_lt_of_le trying.going.lt near
        · exact carried.symm.trans (agrees.mp same).2
      have process : state.respProcess resp = state.compare skb := by
        rw [Commands.respProcess, pending]
        dsimp only
        rw [differs, last]
        rfl
      rw [process, late]
      exact compared.note below unanswered carries

/-! ## Runs -/

theorem Commands.Invariant.step (invariant : state.Invariant)
    (undisturbed : state.Undisturbed action) (taken : cmdStep chipIf state action = some next) :
    next.Invariant := by
  cases action with
  | call args =>
    simp only [cmdStep] at taken
    split at taken
    · next idle =>
        cases taken
        exact invariant.begin idle args
    · cases taken
  | send gap pktId =>
    simp only [cmdStep] at taken
    split at taken
    · next trying =>
        split at taken
        · next narrow =>
            cases taken
            exact invariant.send trying narrow pktId
        · cases taken
    · cases taken
  | fail failure =>
    simp only [cmdStep] at taken
    split at taken
    · next trying =>
        cases taken
        exact invariant.fail trying failure
    · cases taken
  | take =>
    simp only [cmdStep] at taken
    split at taken
    · next queued _ =>
        cases taken
        exact invariant.take queued chipIf
    · cases taken
  | handOver =>
    simp only [cmdStep] at taken
    split at taken
    · next underWay =>
        cases taken
        exact invariant.handOver underWay
    · cases taken
  | keepBack =>
    simp only [cmdStep] at taken
    split at taken
    · next underWay =>
        cases taken
        exact invariant.keepBack underWay chipIf
    · cases taken
  | respond number resp =>
    simp only [cmdStep] at taken
    split at taken
    · next may =>
        cases taken
        exact invariant.respond may undisturbed
    · cases taken
  | expire =>
    simp only [cmdStep] at taken
    split at taken
    · next waiting =>
        split at taken
        · next none =>
            cases taken
            exact invariant.expire waiting none
        · cases taken
    · cases taken
  | wake =>
    simp only [cmdStep] at taken
    split at taken
    · next waiting =>
        split at taken
        · next some =>
            cases taken
            exact invariant.wake waiting some
        · cases taken
    · cases taken
  | finish =>
    have turn := invariant.turn
    simp only [cmdStep] at taken
    split at taken
    · next expired =>
        cases taken
        simp only [Commands.Turn, Commands.Undisturbed, expired] at turn undisturbed
        refine invariant.finish turn undisturbed (fun ret answered => by cases answered)
          fun toTake => ?_
        simp only [Commands.ToTake, expired] at toTake
    · next woken =>
        cases taken
        simp only [Commands.Turn, Commands.Undisturbed, woken] at turn undisturbed
        obtain ⟨trying, resp, answer, -, value⟩ := turn
        refine invariant.finish trying undisturbed (fun ret answered => ?_) fun _ => ⟨_, rfl⟩
        cases answered
        exact ⟨resp, answer, value⟩
    · cases taken

/-- Callers get their own responses, no others, and all that come in time, in every run in
which no response is compared with a command of 256 octets or more after another one was,
and no attempt ends while its buffer is under way to the chip. -/
theorem matched_of_reaches (chipIf : ChipIf) {state : Commands}
    (reaches : Reaches (cmdStep chipIf) Commands.Undisturbed Commands.initial state) :
    state.Matched := by
  refine Commands.Invariant.matched ?_
  refine @Reaches.invariant _ _ (cmdStep chipIf) Commands.Undisturbed Commands.initial state
    Commands.Invariant Commands.initial_invariant ?_ reaches
  intro before action after invariant undisturbed taken
  exact invariant.step undisturbed taken

/-- A command of no octets beside its header, whose caller wants the status only. -/
def probe : TxArgs := ⟨⟨0x17, 0, 0, [], by decide⟩, 0, none⟩

/-- The response to a command in its first attempt. -/
def answerTo (seq : Nat) : MorseCmdResp := ⟨0x17, 4, hostId seq 0, 0, 0, 0, []⟩

theorem matched_of_reaches_one :
    ∃ state, Reaches (cmdStep .yaps) Commands.Undisturbed Commands.initial state ∧
      state.Matched ∧ (state.calls 0).returned = some (.answered 0) := by
  have reaches : Reaches (cmdStep .yaps) Commands.Undisturbed Commands.initial _ :=
    @Reaches.of_run _ _ (cmdStep .yaps) Commands.Undisturbed Commands.initial _
      [.call probe, .send [] 0, .take, .handOver, .respond 0 (answerTo 1), .wake, .finish]
      (by
        refine ⟨trivial, trivial, trivial, trivial, ?_, trivial, ?_, trivial⟩
        · intro skb first
          cases first
          exact .inl rfl
        · intro skb member
          cases member) rfl
  exact ⟨_, reaches, matched_of_reaches .yaps reaches, rfl⟩

/-- A command of 256 octets beside its header. -/
def longProbe : TxArgs :=
  ⟨⟨0x17, 0, 0, List.replicate 256 0, by rw [List.length_replicate]; decide⟩, 0, none⟩

/-- An attempt that the chip has and that times out. -/
def lostAttempt : List CmdAction := [.send [] 0, .take, .handOver, .expire, .finish]

/-- A call is given up, its response is received while another command of 256 octets is
pending, and then that command's own response is taken for a late one. -/
def lateThenOwn : List CmdAction :=
  [.call probe] ++ lostAttempt ++ lostAttempt ++
    [.call longProbe, .send [] 0, .take, .handOver, .respond 0 (answerTo 1),
      .respond 1 (answerTo 2)]

/-- Not every response that comes in time is there for its caller. -/
theorem not_matched_of_reaches :
    ¬ ∀ (chipIf : ChipIf) (state : Commands),
      Reaches (cmdStep chipIf) (fun _ _ => True) Commands.initial state → state.Matched := by
  intro holds
  have ends : (run (cmdStep .yaps) Commands.initial lateThenOwn).map (fun state =>
      ((state.calls 1).inTime, (state.calls 1).done, (state.calls 1).outcomes, state.made,
        state.phase)) = some (true, 0, [], 2, .waiting 1 0) := by
    decide +kernel
  obtain ⟨state, finishes, values⟩ := Option.map_eq_some_iff.mp ends
  simp only [Prod.mk.injEq] at values
  obtain ⟨inTime, done, outcomes, made, phase⟩ := values
  have reaches : Reaches (cmdStep .yaps) (fun _ _ => True) Commands.initial state :=
    @Reaches.of_run _ _ (cmdStep .yaps) (fun _ _ => True) Commands.initial state lateThenOwn
      (guarded_true _ _) finishes
  obtain ⟨resp, -, -, toTake | ⟨member, -⟩⟩ := (holds .yaps state reaches).delivered 1
    (by rw [made]; decide) inTime
  · rw [Commands.ToTake, phase, done] at toTake
    exact absurd toTake.2 (Nat.lt_irrefl 0)
  · rw [outcomes] at member
    cases member

end Cmd
end Morse
