import Mathlib.Logic.Function.Basic
import Morse.Lib.Groups
import Morse.Lib.Transition
import Morse.Skbq.Defs

/-!
# Target wake time at an access point

A station asks its access point for a service period of its own, repeated at a
wake interval.  This module transcribes what the access point, which only
answers such requests, does with them: the elements and frames it receives are
queued as events, events change the state of an agreement, agreements are linked
into a list for each wake interval, and answers wait for the association
response that carries them.

An agreement is told apart by the address of its station and its flow.  The
wake interval lists hold these in place of the agreements' list members, and the
station list is searched by address only, so that it is a map from addresses.
-/

namespace Morse
namespace Twt

open Lib

/-- An Ethernet address. -/
abbrev Addr := BitVec 48

/-- A flow of a station, below `MORSE_TWT_AGREEMENTS_MAX_PER_STA`. -/
abbrev Flow := Fin 8

/-- The agreement of a flow of a station. -/
abbrev Key := Addr × Flow

/-- `enum ieee80211_twt_setup_cmd`. -/
inductive SetupCmd
  | request
  | suggest
  | demand
  | grouping
  | accept
  | alternate
  | dictate
  | reject
  deriving DecidableEq, Repr

/-- The value of a setup command in the request type. -/
def SetupCmd.bits : SetupCmd → BitVec 16
  | request => 0
  | suggest => 1
  | demand => 2
  | grouping => 3
  | accept => 4
  | alternate => 5
  | dictate => 6
  | reject => 7

/-- `morse_twt_cmd_is_req`. -/
def SetupCmd.isReq : SetupCmd → Bool
  | request | suggest | demand | grouping => true
  | accept | alternate | dictate | reject => false

/-- `IEEE80211_TWT_CONTROL_NDP`. -/
def twtControlNdp : BitVec 8 := 1 <<< 0

/-- `IEEE80211_TWT_CONTROL_NEG_TYPE`. -/
def twtControlNegType : BitVec 8 := 1 <<< 2

/-- `IEEE80211_TWT_CONTROL_NEG_TYPE_BROADCAST`. -/
def twtControlNegTypeBroadcast : BitVec 8 := 1 <<< 3

/-- `IEEE80211_TWT_CONTROL_WAKE_DUR_UNIT`. -/
def twtControlWakeDurUnit : BitVec 8 := 1 <<< 5

/-- `IEEE80211_TWT_REQTYPE_REQUEST`. -/
def twtReqtypeRequest : BitVec 16 := 1 <<< 0

/-- `IEEE80211_TWT_REQTYPE_SETUP_CMD`. -/
def twtReqtypeSetupCmd : BitVec 16 := 0x000E

/-- `IEEE80211_TWT_REQTYPE_SETUP_CMD_OFFSET`. -/
def twtReqtypeSetupCmdOffset : Nat := 1

/-- `IEEE80211_TWT_REQTYPE_IMPLICIT`. -/
def twtReqtypeImplicit : BitVec 16 := 1 <<< 5

/-- `IEEE80211_TWT_REQTYPE_FLOWTYPE`. -/
def twtReqtypeFlowtype : BitVec 16 := 1 <<< 6

/-- `IEEE80211_TWT_REQTYPE_FLOWID_OFFSET`, of a field of three bits. -/
def twtReqtypeFlowidOffset : Nat := 7

/-- `IEEE80211_TWT_REQTYPE_WAKE_INT_EXP`. -/
def twtReqtypeWakeIntExp : BitVec 16 := 0x7C00

/-- `IEEE80211_TWT_REQTYPE_WAKE_INT_EXP_OFFSET`. -/
def twtReqtypeWakeIntExpOffset : Nat := 10

/-- `IEEE80211_TWT_REQTYPE_PROTECTION`. -/
def twtReqtypeProtection : BitVec 16 := 1 <<< 15

/-- `TWT_IE_MIN_LENGTH`. -/
def twtIeMinLength : Nat := 10

/-- `TWT_IE_MAX_LENGTH`. -/
def twtIeMaxLength : Nat := 20

/-- `struct ieee80211_twt_params`. -/
structure TwtParams where
  reqType : BitVec 16
  twt : BitVec 64
  minTwtDur : BitVec 8
  mantissa : BitVec 16
  channel : BitVec 8
  deriving DecidableEq, Repr

/-- `struct morse_twt_agreement_data`. -/
structure AgreementData where
  wakeTimeUs : BitVec 64
  wakeIntervalUs : BitVec 64
  wakeDurationUs : BitVec 32
  control : BitVec 8
  params : TwtParams
  deriving DecidableEq, Repr

/-- `enum morse_twt_state`. -/
inductive State
  | noAgreement
  | considerRequest
  | considerSuggest
  | considerDemand
  | considerGrouping
  | agreement
  deriving DecidableEq, Repr

/-- `struct morse_twt_agreement`. -/
structure Agreement where
  state : State
  data : AgreementData
  deriving DecidableEq, Repr

/-- An agreement as `kzalloc` gives it. -/
def Agreement.zeroed : Agreement where
  state := .noAgreement
  data := ⟨0, 0, 0, 0, ⟨0, 0, 0, 0, 0⟩⟩

/-- `struct morse_twt_sta`, without its address. -/
structure Sta where
  dialogToken : BitVec 8
  actionIsPending : Bool
  agreements : Flow → Agreement

/-- A station as `morse_twt_add_sta` makes it. -/
def Sta.added : Sta where
  dialogToken := 0
  actionIsPending := false
  agreements := fun _ => .zeroed

/-- The union of `struct morse_twt_event`, by the type of the event. -/
inductive EventBody
  | setup (cmd : SetupCmd) (agrData : AgreementData)
  | teardown
  deriving DecidableEq, Repr

/-- `struct morse_twt_event`. -/
structure Event where
  addr : Addr
  flowId : Flow
  body : EventBody
  deriving DecidableEq, Repr

/-- The agreement an event is about. -/
def Event.key (event : Event) : Key := (event.addr, event.flowId)

/-- The test of `morse_twt_peek_queue`: the event is from the address, or its
address was left out, and it is of the flow, where one is sought. -/
def Event.isFor (addr : Addr) (flowId : Option Flow) (event : Event) : Bool :=
  decide ((event.addr = addr ∨ event.addr = 0) ∧ (flowId = none ∨ flowId = some event.flowId))

/-- `struct morse_twt` of an access point that is a responder. -/
structure MorseTwt where
  stas : Addr → Option Sta
  wakeIntervals : List (List Key)
  events : List Event
  tx : List Event

/-! ## The fields of an element -/

/-- `morse_twt_ctrl_flag_is_set`. -/
def ctrlFlagIsSet (flags flag : BitVec 8) : Bool := decide (flags &&& flag ≠ 0)

/-- `morse_twt_req_flag_is_set`. -/
def reqFlagIsSet (flags flag : BitVec 16) : Bool := decide (flags &&& flag ≠ 0)

/-- `morse_twt_get_command`, a value of three bits. -/
def getCommand (reqType : BitVec 16) : SetupCmd :=
  match ((reqType &&& twtReqtypeSetupCmd) >>> twtReqtypeSetupCmdOffset).toNat with
  | 0 => .request
  | 1 => .suggest
  | 2 => .demand
  | 3 => .grouping
  | 4 => .accept
  | 5 => .alternate
  | 6 => .dictate
  | _ => .reject

/-- The exponent of the wake interval. -/
def wakeIntExp (reqType : BitVec 16) : Nat :=
  ((reqType &&& twtReqtypeWakeIntExp) >>> twtReqtypeWakeIntExpOffset).toNat

/-- `morse_twt_calculate_wake_interval_us`; the power of two is an `int`. -/
def calculateWakeIntervalUs (params : TwtParams) : BitVec 64 :=
  params.mantissa.setWidth 64 * ((1#32 <<< wakeIntExp params.reqType).signExtend 64)

/-- `morse_twt_set_command`. -/
def setCommand (reqType : BitVec 16) (cmd : SetupCmd) : BitVec 16 :=
  let cleared := reqType &&& ~~~twtReqtypeSetupCmd
  let marked :=
    if cmd.isReq then cleared ||| twtReqtypeRequest else cleared &&& ~~~twtReqtypeRequest
  marked ||| (cmd.bits <<< twtReqtypeSetupCmdOffset)

/-- The data with another setup command. -/
def AgreementData.withCommand (data : AgreementData) (cmd : SetupCmd) : AgreementData :=
  { data with params := { data.params with reqType := setCommand data.params.reqType cmd } }

/-- `morse_twt_update_params`. -/
def updateParams (data : AgreementData) : AgreementData :=
  let exp := wakeIntExp data.params.reqType
  let minTwtDur :=
    if ctrlFlagIsSet data.control twtControlWakeDurUnit then data.wakeDurationUs / 1024
    else data.wakeDurationUs / 256
  { data with
    params :=
      { data.params with
        twt := data.wakeTimeUs
        mantissa := (data.wakeIntervalUs / (1#32 <<< exp).setWidth 64).setWidth 16
        minTwtDur := minTwtDur.setWidth 8 } }

/-- A received element, by its length and the fields read from it. -/
structure TwtElement where
  len : Nat
  control : BitVec 8
  params : TwtParams
  deriving DecidableEq, Repr

/-- `morse_twt_validate_params` at an access point. -/
def validateParams (params : TwtParams) : Option Errno :=
  match getCommand params.reqType with
  | .accept | .reject | .grouping => some .einval
  | .request | .demand | .suggest | .alternate | .dictate =>
    if reqFlagIsSet params.reqType twtReqtypeFlowtype then some .einval
    else if !reqFlagIsSet params.reqType twtReqtypeImplicit then some .einval
    else if reqFlagIsSet params.reqType twtReqtypeProtection then some .einval
    else if 0 < params.channel then some .einval
    else none

/-- The data of an event made of an element. -/
def TwtElement.agrData (element : TwtElement) : AgreementData where
  wakeTimeUs := element.params.twt
  wakeIntervalUs := calculateWakeIntervalUs element.params
  wakeDurationUs :=
    if ctrlFlagIsSet element.control twtControlWakeDurUnit then
      element.params.minTwtDur.setWidth 32 * 1024
    else element.params.minTwtDur.setWidth 32 * 256
  control := element.control
  params := element.params

/-- `morse_twt_parse_ie`, whose allocation may fail. -/
def parseIe (element : TwtElement) (srcAddr : Addr) (allocates : Bool) : Except Errno Event :=
  if element.len < twtIeMinLength ∨ twtIeMaxLength < element.len then .error .einval
  else if ctrlFlagIsSet element.control twtControlNegTypeBroadcast then .error .einval
  else if ctrlFlagIsSet element.control twtControlNegType then .error .einval
  else if ctrlFlagIsSet element.control twtControlNdp then .error .einval
  else
    match validateParams element.params with
    | some errno => .error errno
    | none =>
      if allocates then
        .ok
          { addr := srcAddr
            flowId := (element.params.reqType.extractLsb' twtReqtypeFlowidOffset 3).toFin
            body := .setup (getCommand element.params.reqType) element.agrData }
      else .error .enomem

/-! ## Service periods of one wake interval -/

/-- The end of a service period. -/
def AgreementData.endUs (data : AgreementData) : BitVec 64 :=
  data.wakeTimeUs + data.wakeDurationUs.setWidth 64

/-- The duration left between a service period and the next one of the list. -/
def unallocDurUs (ptr ptrNext : AgreementData) : BitVec 64 :=
  let curNextWakeOffsetUs := ptr.wakeTimeUs % ptr.wakeIntervalUs
  let nextNextWakeOffsetUs := ptrNext.wakeTimeUs % ptrNext.wakeIntervalUs
  let wrapped :=
    if nextNextWakeOffsetUs < curNextWakeOffsetUs then nextNextWakeOffsetUs + ptr.wakeIntervalUs
    else nextNextWakeOffsetUs
  wrapped - (curNextWakeOffsetUs + ptr.wakeDurationUs.setWidth 64)

/-- The walk of `morse_twt_agreement_wake_interval_add`: the wake time of the
agreement and the list with it, after the first period that leaves a duration
that suffices, or at the end.  It is `none` where a wake interval of zero is
divided by; the list is not empty. -/
def insertIntoGap
    (data : Key → AgreementData)
    (agr : Key)
    (wakeDurationUs : BitVec 32) : List Key → Option (BitVec 64 × List Key)
  | [] => none
  | [ptr] => some ((data ptr).endUs, [ptr, agr])
  | ptr :: ptrNext :: rest =>
    if (data ptr).wakeIntervalUs = 0 ∨ (data ptrNext).wakeIntervalUs = 0 then none
    else if wakeDurationUs.setWidth 64 ≤ unallocDurUs (data ptr) (data ptrNext) then
      some ((data ptr).endUs, ptr :: agr :: ptrNext :: rest)
    else
      (insertIntoGap data agr wakeDurationUs (ptrNext :: rest)).map fun placed =>
        (placed.1, ptr :: placed.2)

/-- `morse_twt_agreement_wake_interval_get`: the lists before the one of the wake
interval, that list, empty when it is new, and the lists after it.  A new list
is allocated. -/
def agreementWakeIntervalGet
    (interval : Key → BitVec 64)
    (wakeIntervalUs : BitVec 64)
    (allocates : Bool) : List (List Key) → Option (List (List Key) × List Key × List (List Key))
  | [] => if allocates then some ([], [], []) else none
  | [] :: _ => none
  | (agr :: agreements) :: rest =>
    if interval agr = wakeIntervalUs then some ([], agr :: agreements, rest)
    else if wakeIntervalUs < interval agr then
      if allocates then some ([], [], (agr :: agreements) :: rest) else none
    else
      (agreementWakeIntervalGet interval wakeIntervalUs allocates rest).map fun found =>
        ((agr :: agreements) :: found.1, found.2)

namespace MorseTwt

/-- `morse_twt_init_vif` of an access point that supports the responder role. -/
def initVif : MorseTwt where
  stas := fun _ => none
  wakeIntervals := []
  events := []
  tx := []

/-! ## Stations and their agreements -/

/-- The agreement of a flow, as added when its station is not there. -/
def agreement (twt : MorseTwt) (key : Key) : Agreement :=
  match twt.stas key.1 with
  | some sta => sta.agreements key.2
  | none => .zeroed

/-- The state of an agreement. -/
def state (twt : MorseTwt) (key : Key) : State := (twt.agreement key).state

/-- The data of an agreement. -/
def data (twt : MorseTwt) (key : Key) : AgreementData := (twt.agreement key).data

/-- A change to a station that is there. -/
def modifySta (twt : MorseTwt) (addr : Addr) (change : Sta → Sta) : MorseTwt :=
  match twt.stas addr with
  | some sta => { twt with stas := Function.update twt.stas addr (some (change sta)) }
  | none => twt

/-- An agreement is set. -/
def setAgreement (twt : MorseTwt) (key : Key) (agr : Agreement) : MorseTwt :=
  twt.modifySta key.1 fun sta =>
    { sta with agreements := Function.update sta.agreements key.2 agr }

/-- `agr->state = state`. -/
def setState (twt : MorseTwt) (key : Key) (state : State) : MorseTwt :=
  twt.setAgreement key ⟨state, twt.data key⟩

/-- A copy over the data of an agreement. -/
def setData (twt : MorseTwt) (key : Key) (data : AgreementData) : MorseTwt :=
  twt.setAgreement key ⟨twt.state key, data⟩

/-- `morse_twt_add_sta`, after the station was not found. -/
def addSta (twt : MorseTwt) (addr : Addr) : MorseTwt :=
  { twt with stas := Function.update twt.stas addr (some .added) }

/-- `sta->action_is_pending`. -/
def actionIsPending (twt : MorseTwt) (addr : Addr) : Bool :=
  (twt.stas addr).elim false Sta.actionIsPending

/-- `sta->action_is_pending = false`. -/
def clearAction (twt : MorseTwt) (addr : Addr) : MorseTwt :=
  twt.modifySta addr fun sta => { sta with actionIsPending := false }

/-- `morse_twt_agreement_remove`. -/
def agreementRemove (twt : MorseTwt) (key : Key) : MorseTwt :=
  { twt with wakeIntervals := unlink key twt.wakeIntervals }

/-- `morse_twt_sta_remove` of a station that is there. -/
def staRemove (twt : MorseTwt) (addr : Addr) : MorseTwt :=
  let removed := (List.finRange 8).foldl (fun twt flow => twt.agreementRemove (addr, flow)) twt
  { removed with
    stas := Function.update removed.stas addr none
    tx := removed.tx.filter fun event => event.addr ≠ addr }

/-- `morse_twt_sta_remove_addr`. -/
def staRemoveAddr (twt : MorseTwt) (addr : Addr) : Option Errno × MorseTwt :=
  if (twt.stas addr).isSome then (none, twt.staRemove addr) else (some .enodev, twt)

/-- `morse_twt_sta_agreement_remove`. -/
def staAgreementRemove (twt : MorseTwt) (key : Key) : MorseTwt :=
  let removed := twt.agreementRemove key
  if ∀ flow : Flow, removed.state (key.1, flow) = .noAgreement then removed.staRemove key.1
  else removed

/-- `morse_twt_enter_state` of `MORSE_TWT_STATE_NO_AGREEMENT`. -/
def enterStateNoAgreement (twt : MorseTwt) (key : Key) : MorseTwt :=
  (twt.setState key .noAgreement).staAgreementRemove key

/-- `morse_twt_enter_state` of `MORSE_TWT_STATE_AGREEMENT`. -/
def enterStateAgreement (twt : MorseTwt) (key : Key) (agrData : AgreementData) : MorseTwt :=
  (twt.setState key .agreement).setData key agrData

/-! ## Answers -/

/-- The agreement is linked into a list at a wake time, after the lists before
it and before the lists after it. -/
def link
    (twt : MorseTwt)
    (agr : Key)
    (wakeTimeUs : BitVec 64)
    (before : List (List Key))
    (agreements : List Key)
    (after : List (List Key)) : MorseTwt :=
  { twt.setData agr { twt.data agr with wakeTimeUs := wakeTimeUs } with
    wakeIntervals := before ++ agreements :: after }

/-- `morse_twt_agreement_wake_interval_add`; the outer `none` is a division by
zero. -/
def agreementWakeIntervalAdd
    (twt : MorseTwt)
    (agr : Key)
    (allocates : Bool) : Option (Option Errno × MorseTwt) :=
  if twt.state agr = .noAgreement ∨ twt.state agr = .agreement then some (some .einval, twt)
  else
    match
      agreementWakeIntervalGet (fun key => (twt.data key).wakeIntervalUs)
        (twt.data agr).wakeIntervalUs allocates twt.wakeIntervals
    with
    | none => some (some .einval, twt)
    | some (before, [], after) => some (none, twt.link agr 0 before [agr] after)
    | some (before, ptr :: rest, after) =>
      if getCommand (twt.data agr).params.reqType = .demand then
        some (none,
          twt.link agr (twt.data agr).wakeTimeUs before (ptr :: rest ++ [agr]) after)
      else
        (insertIntoGap twt.data agr (twt.data agr).wakeDurationUs (ptr :: rest)).map
          fun placed => (none, twt.link agr placed.1 before placed.2 after)

/-- An answer goes into an action frame when one is pending, and the agreement
enters its state; otherwise it waits for the association response. -/
def answer (twt : MorseTwt) (key : Key) (cmd : SetupCmd) (agrData : AgreementData)
    (enter : MorseTwt → MorseTwt) : MorseTwt :=
  if twt.actionIsPending key.1 then enter (twt.clearAction key.1)
  else { twt with tx := twt.tx ++ [⟨key.1, key.2, .setup cmd agrData⟩] }

/-- `morse_twt_send_accept`, which does not look at whether the agreement could
be linked. -/
def sendAccept
    (twt : MorseTwt)
    (key : Key)
    (agrData : AgreementData)
    (allocates : Bool) : Option MorseTwt :=
  ((twt.setData key agrData).agreementWakeIntervalAdd key allocates).map fun added =>
    let accepted := updateParams ((added.2.data key).withCommand .accept)
    (added.2.setData key accepted).answer key .accept accepted
      fun twt => twt.enterStateAgreement key accepted

/-- `morse_twt_send_reject`. -/
def sendReject (twt : MorseTwt) (key : Key) (agrData : AgreementData) : MorseTwt :=
  twt.answer key .reject (agrData.withCommand .reject) fun twt => twt.enterStateNoAgreement key

/-! ## Events -/

/-- `morse_twt_peek_tx`. -/
def peekTx (twt : MorseTwt) (addr : Addr) (flowId : Option Flow) : Option Event :=
  twt.tx.find? fun event => event.isFor addr flowId

/-- `morse_twt_handle_event_in_no_agreement`. -/
def handleEventInNoAgreement
    (twt : MorseTwt)
    (key : Key)
    (cmd : SetupCmd)
    (agrData : AgreementData)
    (allocates : Bool) : Option MorseTwt :=
  match cmd with
  | .request => (twt.setState key .considerRequest).sendAccept key agrData allocates
  | .suggest => (twt.setState key .considerSuggest).sendAccept key agrData allocates
  | .demand | .grouping => some ((twt.setState key .considerDemand).sendReject key agrData)
  | .accept | .alternate | .dictate | .reject => some twt

/-- `morse_twt_handle_event_in_agreement` of a request. -/
def handleEventInAgreement (twt : MorseTwt) (key : Key) (agrData : AgreementData) : MorseTwt :=
  if (twt.peekTx key.1 (some key.2)).isSome then twt else twt.sendReject key agrData

/-- Which allocations succeed while an event is handled: that of a station and
that of a wake interval list. -/
structure Memory where
  sta : Bool
  wakeInterval : Bool
  deriving DecidableEq, Repr

/-- The handling of a setup event whose station is there. -/
def handleSetup
    (twt : MorseTwt)
    (key : Key)
    (cmd : SetupCmd)
    (agrData : AgreementData)
    (allocates : Bool) : Option MorseTwt :=
  match twt.state key with
  | .noAgreement => twt.handleEventInNoAgreement key cmd agrData allocates
  | .considerRequest | .considerSuggest | .considerDemand | .considerGrouping => some twt
  | .agreement => some (twt.handleEventInAgreement key agrData)

/-- The station of an address, added when it is not there; `none` when that
fails. -/
def getOrAddSta (twt : MorseTwt) (addr : Addr) (allocates : Bool) : Option MorseTwt :=
  if (twt.stas addr).isSome then some twt
  else if allocates then some (twt.addSta addr) else none

/-- The body of the loop of `morse_twt_handle_event`, for an event taken off the
queue.  Responses do not pass `morse_twt_preprocess_event`.  The inner state is
the one to go on in, after which `false` is the end of the loop. -/
def handleOne (twt : MorseTwt) (event : Event) (memory : Memory) : Option (Bool × MorseTwt) :=
  match event.body with
  | .teardown =>
    some (true,
      if (twt.stas event.addr).isSome then twt.enterStateNoAgreement event.key else twt)
  | .setup cmd agrData =>
    if !cmd.isReq then some (true, twt)
    else
      match twt.getOrAddSta event.addr memory.sta with
      | none => some (false, twt)
      | some found =>
        (found.handleSetup event.key cmd agrData memory.wakeInterval).map (true, ·)

/-- The events that `morse_twt_handle_event` takes, with its filter. -/
def sought (addr : Option Addr) (event : Event) : Bool :=
  addr.elim true fun addr => event.isFor addr none

/-- One turn of the loop of `morse_twt_handle_event`: the first event sought is
taken off the queue and handled. -/
def handleNext (twt : MorseTwt) (addr : Option Addr) (memory : Memory) :
    Option (Bool × MorseTwt) :=
  match twt.events.find? (sought addr) with
  | none => some (false, twt)
  | some event =>
    { twt with events := twt.events.eraseP (sought addr) }.handleOne event memory

/-! ## What the access point receives and sends -/

/-- `morse_twt_queue_event`. -/
def queueEvent (twt : MorseTwt) (event : Event) : MorseTwt :=
  { twt with events := (twt.events.filter fun queued => queued.key ≠ event.key) ++ [event] }

/-- `morse_mac_process_twt_ie`, with its two allocations. -/
def processTwtIe
    (twt : MorseTwt)
    (element : TwtElement)
    (srcAddr : Addr)
    (allocatesEvent allocatesData : Bool) : MorseTwt :=
  if allocatesEvent then
    match parseIe element srcAddr allocatesData with
    | .ok event => twt.queueEvent event
    | .error _ => twt
  else twt

/-- The second half of `morse_mac_process_twt_action_frame` for a setup frame,
after its element was processed. -/
def noteActionFrame
    (twt : MorseTwt)
    (srcAddr : Addr)
    (dialogToken : BitVec 8)
    (allocates : Bool) : MorseTwt :=
  match twt.getOrAddSta srcAddr allocates with
  | none => twt
  | some found =>
    found.modifySta srcAddr fun sta =>
      { sta with dialogToken := dialogToken, actionIsPending := true }

/-- `morse_mac_process_twt_teardown`, with the flow octet of the frame. -/
def processTwtTeardown (twt : MorseTwt) (srcAddr : Addr) (flow : BitVec 8) : MorseTwt :=
  if (twt.stas srcAddr).isSome then
    twt.queueEvent ⟨srcAddr, (flow.extractLsb' 0 3).toFin, .teardown⟩
  else twt

/-- `morse_twt_dequeue_tx_response`. -/
def dequeueTxResponse (twt : MorseTwt) (tx : Event) : Option Errno × MorseTwt :=
  if (twt.stas tx.addr).isSome then
    match twt.state tx.key with
    | .considerRequest | .considerSuggest | .considerDemand | .considerGrouping =>
      match tx.body with
      | .setup .accept agrData => (none, twt.enterStateAgreement tx.key agrData)
      | .setup .reject _ => (none, twt.enterStateNoAgreement tx.key)
      | _ => (none, twt)
    | .noAgreement | .agreement => (some .einval, twt)
  else (some .enodev, twt)

/-- An association response takes the first answer that waits for its address,
and `morse_twt_dequeue_tx` follows. -/
def txAssocResponse (twt : MorseTwt) (addr : Addr) : Option Errno × MorseTwt :=
  match twt.peekTx addr none with
  | none => (none, twt)
  | some tx =>
    { twt with tx := twt.tx.eraseP fun event => event.isFor addr none }.dequeueTxResponse tx

/-- `morse_twt_event_queue_purge`. -/
def eventQueuePurge (twt : MorseTwt) (addr : Addr) : MorseTwt :=
  { twt with events := twt.events.filter fun event => event.addr ≠ addr }

end MorseTwt

/-! ## Runs -/

/-- What can happen at the access point.  The loop of `morse_twt_handle_event`
is taken turn by turn. -/
inductive Action
  | processTwtIe (element : TwtElement) (srcAddr : Addr) (allocatesEvent allocatesData : Bool)
  | noteActionFrame (srcAddr : Addr) (dialogToken : BitVec 8) (allocates : Bool)
  | processTwtTeardown (srcAddr : Addr) (flow : BitVec 8)
  | handleNext (addr : Option Addr) (memory : MorseTwt.Memory)
  | txAssocResponse (addr : Addr)
  | staRemoveAddr (addr : Addr)
  | eventQueuePurge (addr : Addr)
  deriving DecidableEq, Repr

/-- The state after an action; `none` when it divides by zero. -/
def step (twt : MorseTwt) : Action → Option MorseTwt
  | .processTwtIe element srcAddr allocatesEvent allocatesData =>
    some (twt.processTwtIe element srcAddr allocatesEvent allocatesData)
  | .noteActionFrame srcAddr dialogToken allocates =>
    some (twt.noteActionFrame srcAddr dialogToken allocates)
  | .processTwtTeardown srcAddr flow => some (twt.processTwtTeardown srcAddr flow)
  | .handleNext addr memory => (twt.handleNext addr memory).map Prod.snd
  | .txAssocResponse addr => some (twt.txAssocResponse addr).2
  | .staRemoveAddr addr => some (twt.staRemoveAddr addr).2
  | .eventQueuePurge addr => some (twt.eventQueuePurge addr)

end Twt
end Morse
