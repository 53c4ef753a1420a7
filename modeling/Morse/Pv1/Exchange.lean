import Morse.Lib.Transition
import Morse.Pv1.Headers

/-!
# What a sender takes its peers to have stored

Before addresses are left out of headers, the receiver is asked to store them and
confirms that it did.  The request under way is kept once for an interface, what was
confirmed once for each peer.  This module lets an interface send data, requests and
responses to any number of peers in any order, loses frames, and says when the two
sides agree about what is stored.
-/

namespace Morse
namespace Pv1

open Lib

universe u

/-! ## Action frames -/

/-- `HC_RESPONSE_TIMEOUT`. -/
def hcResponseTimeout : Nat := 10

/-- A request to store addresses, with the number it has among those of its sender. -/
structure RequestFrame where
  a3 : Option Addr
  a4 : Option Addr
  dialogToken : BitVec 8
  serial : Nat
  deriving DecidableEq, Repr

/-- A confirmation that addresses were stored, with the number of its request. -/
structure ResponseFrame where
  storeA3 : Bool
  storeA4 : Bool
  dialogToken : BitVec 8
  serial : Nat
  deriving DecidableEq, Repr

/-- `morse_dot11ah_insert_pv1_hc_ie` for a request: the addresses that go into the
element are noted as those to be stored. -/
def insertPv1HcIe (txRequest : HcRequest) : HcRequest :=
  { txRequest with
    storedA3 := if txRequest.a1A3Differ then txRequest.headerCompressionA3 else txRequest.storedA3
    storedA4 :=
      if txRequest.a2A4Differ then txRequest.headerCompressionA4 else txRequest.storedA4 }

/-- The element of a request. -/
def requestFrame (txRequest : HcRequest) (serial : Nat) : RequestFrame where
  a3 := if txRequest.a1A3Differ then some txRequest.headerCompressionA3 else none
  a4 := if txRequest.a2A4Differ then some txRequest.headerCompressionA4 else none
  dialogToken := txRequest.actionDialogToken
  serial := serial

/-- What becomes of an action frame in `morse_mac_send_pv1_hc_action_frame`. -/
inductive Fate
  /-- There is no memory for its elements. -/
  | noElements
  /-- There is no memory for the frame, or it cannot be protected. -/
  | noBuffer
  /-- It is refused by the queue. -/
  | refused
  | sent
  deriving DecidableEq, Repr

/-- The tests of `morse_mac_send_pv1_hc_action_frame` for a request. -/
def wantsHcRequest (txRequest : HcRequest) (ctx : StaPv1) (waited : Nat) (hdr : Ieee80211Hdr) :
    Bool :=
  !isMulticastEtherAddr hdr.addr3 &&
    !(txRequest.actionInProgress && decide (waited < hcResponseTimeout)) &&
    !(!txRequest.a1A3Differ && !txRequest.a2A4Differ && !ctx.a3Stored && !ctx.a4Stored) &&
    !(txRequest.a1A3Differ && ctx.a3Stored &&
      decide (txRequest.headerCompressionA3 = ctx.storedA3)) &&
    !(txRequest.a2A4Differ && ctx.a4Stored &&
      decide (txRequest.headerCompressionA4 = ctx.storedA4))

/-- `morse_mac_process_hc_request`, for the request kept. -/
def processHcRequest (rxRequest : HcRequest) (a3 a4 : Option Addr) (dialogToken : BitVec 8) :
    HcRequest :=
  { rxRequest with
    a1A3Differ := a3.isSome
    a2A4Differ := a4.isSome
    actionDialogToken := dialogToken
    headerCompressionA3 := a3.getD rxRequest.headerCompressionA3
    headerCompressionA4 := a4.getD rxRequest.headerCompressionA4 }

/-- `morse_pv1_process_hc_req_work`, for the request kept: it is forgotten where the
firmware does not store it. -/
def hcReqWorkRequest (accepted : Bool) (rxRequest : HcRequest) : HcRequest :=
  if accepted then rxRequest else { rxRequest with a1A3Differ := false, a2A4Differ := false }

/-- `morse_pv1_process_hc_req_work`, for the context of the station that asked. -/
def hcReqWorkCtx (accepted : Bool) (rxRequest : HcRequest) : StaPv1 :=
  { StaPv1.zeroed with
    a3Stored := accepted && rxRequest.a1A3Differ
    a4Stored := accepted && rxRequest.a2A4Differ
    storedA3 := if accepted && rxRequest.a1A3Differ then rxRequest.headerCompressionA3 else 0
    storedA4 := if accepted && rxRequest.a2A4Differ then rxRequest.headerCompressionA4 else 0 }

/-- `morse_mac_process_hc_response`, for the context of the peer. -/
def hcResponseCtx (txRequest : HcRequest) (response : ResponseFrame) (ctx : StaPv1) : StaPv1 :=
  { ctx with
    a3Stored := response.storeA3
    a4Stored := response.storeA4
    storedA3 :=
      if txRequest.actionInProgress then if response.storeA3 then txRequest.storedA3 else 0
      else ctx.storedA3
    storedA4 :=
      if txRequest.actionInProgress then if response.storeA4 then txRequest.storedA4 else 0
      else ctx.storedA4 }

/-! ## The interface and its peers -/

/-- The end of a peer: the request it keeps, whether that is the sender's, whether the
work is scheduled that processes it, and what is stored for the sender.  The numbers
are those of the request kept and of the one processed last. -/
structure PeerEnd where
  rxRequest : HcRequest
  fromSender : Bool
  pending : Bool
  rxCtx : StaPv1
  kept : Nat
  processed : Nat

/-- The interface of the sender, its peers, and the frames under way. -/
structure Exchange (Peer : Type u) where
  txRequest : HcRequest
  responseSince : Nat
  jiffies : Nat
  ctx : Peer → StaPv1
  peers : Peer → PeerEnd
  requests : Peer → List RequestFrame
  responses : Peer → List ResponseFrame
  /-- How many requests have been made up. -/
  made : Nat

/-- What can happen. -/
inductive ExchangeAction (Peer : Type u)
  /-- A data frame is sent, with the request that goes before it. -/
  | transmit (peer : Peer) (skb : TxSkb) (fate : Fate)
  /-- A response is sent to a station that asked this interface. -/
  | respond (fate : Fate)
  | advance (count : Nat)
  | loseRequest (peer : Peer) (position : Nat)
  | loseResponse (peer : Peer) (position : Nat)
  | receiveRequest (peer : Peer)
  /-- A peer receives the request of another station. -/
  | receiveOther (peer : Peer) (a3 a4 : Option Addr) (dialogToken : BitVec 8)
  /-- A peer processes the request that it keeps and sends a response. -/
  | work (peer : Peer) (accepted : Bool) (fate : Fate)
  | receiveResponse (peer : Peer)

section Steps

variable {Peer : Type u} [DecidableEq Peer] (sender : Peer → Sender)

/-- An interface and peers as they are set up. -/
def Exchange.initial : Exchange Peer where
  txRequest := HcRequest.zeroed
  responseSince := 0
  jiffies := 0
  ctx := fun _ => StaPv1.zeroed
  peers := fun _ => ⟨HcRequest.zeroed, false, false, StaPv1.zeroed, 0, 0⟩
  requests := fun _ => []
  responses := fun _ => []
  made := 0

/-- An action frame was handed on, whether it is a request or a response. -/
def Exchange.underWay (state : Exchange Peer) : Exchange Peer :=
  { state with
    txRequest := { state.txRequest with actionInProgress := true }
    responseSince := state.jiffies }

/-- `morse_mac_send_pv1_hc_action_frame` for a request that is to be sent. -/
def Exchange.sendRequest (state : Exchange Peer) (peer : Peer) : Fate → Exchange Peer
  | .noElements => state
  | .noBuffer =>
    { state with txRequest := insertPv1HcIe state.txRequest, made := state.made + 1 }
  | .refused =>
    { state with
      txRequest :=
        { insertPv1HcIe state.txRequest with
          actionDialogToken := state.txRequest.actionDialogToken + 1 }
      made := state.made + 1 }.underWay
  | .sent =>
    let txRequest :=
      { insertPv1HcIe state.txRequest with
        actionDialogToken := state.txRequest.actionDialogToken + 1 }
    { state with
      txRequest := txRequest
      requests := Function.update state.requests peer
        (state.requests peer ++ [requestFrame txRequest (state.made + 1)])
      made := state.made + 1 }.underWay

/-- `morse_mac_convert_pv0_to_pv1`. -/
def Exchange.transmit (state : Exchange Peer) (peer : Peer) (skb : TxSkb) (fate : Fate) :
    Exchange Peer :=
  let checked := { state with txRequest := a3A4Check state.txRequest skb.hdr }
  let waited := checked.jiffies - checked.responseSince
  let asked :=
    if wantsHcRequest checked.txRequest (checked.ctx peer) waited skb.hdr then
      checked.sendRequest peer fate
    else checked
  { asked with
    ctx := Function.update asked.ctx peer
      (convertPv0ToPv1 (sender peer) (asked.ctx peer) asked.txRequest skb).1 }

/-- A peer with a request that it is to process. -/
def PeerEnd.keep (peer : PeerEnd) (fromSender : Bool) (a3 a4 : Option Addr)
    (dialogToken : BitVec 8) (serial : Nat) : PeerEnd :=
  { peer with
    rxRequest := processHcRequest peer.rxRequest a3 a4 dialogToken
    fromSender := fromSender
    pending := true
    kept := serial }

/-- A peer after it has processed the request it keeps. -/
def PeerEnd.work (peer : PeerEnd) (accepted : Bool) : PeerEnd :=
  { peer with
    rxRequest := hcReqWorkRequest accepted peer.rxRequest
    pending := false
    rxCtx := if peer.fromSender then hcReqWorkCtx accepted peer.rxRequest else peer.rxCtx
    processed := if peer.fromSender then peer.kept else peer.processed }

/-- The response of a peer that has processed a request. -/
def PeerEnd.response (peer : PeerEnd) : ResponseFrame where
  storeA3 := peer.rxRequest.a1A3Differ
  storeA4 := peer.rxRequest.a2A4Differ
  dialogToken := peer.rxRequest.actionDialogToken
  serial := peer.kept

/-- A step of the interface, of a peer, or of what is between them. -/
def exchangeStep (state : Exchange Peer) : ExchangeAction Peer → Option (Exchange Peer)
  | .transmit peer skb fate => some (state.transmit sender peer skb fate)
  | .respond fate =>
    match fate with
    | .noElements | .noBuffer => some state
    | .refused | .sent => some state.underWay
  | .advance count => some { state with jiffies := state.jiffies + count }
  | .loseRequest peer position =>
    some { state with
      requests := Function.update state.requests peer
        ((state.requests peer).eraseIdx position) }
  | .loseResponse peer position =>
    some { state with
      responses := Function.update state.responses peer
        ((state.responses peer).eraseIdx position) }
  | .receiveRequest peer =>
    match state.requests peer with
    | [] => none
    | request :: rest =>
      some { state with
        requests := Function.update state.requests peer rest
        peers := Function.update state.peers peer
          ((state.peers peer).keep true request.a3 request.a4 request.dialogToken
            request.serial) }
  | .receiveOther peer a3 a4 dialogToken =>
    some { state with
      peers := Function.update state.peers peer
        ((state.peers peer).keep false a3 a4 dialogToken 0) }
  | .work peer accepted fate =>
    if (state.peers peer).pending then
      let worked := (state.peers peer).work accepted
      some { state with
        peers := Function.update state.peers peer worked
        responses :=
          if worked.fromSender ∧ fate = .sent then
            Function.update state.responses peer (state.responses peer ++ [worked.response])
          else state.responses }
    else none
  | .receiveResponse peer =>
    match state.responses peer with
    | [] => none
    | response :: rest =>
      some { state with
        responses := Function.update state.responses peer rest
        ctx := Function.update state.ctx peer
          (hcResponseCtx state.txRequest response (state.ctx peer))
        txRequest := { state.txRequest with actionInProgress := false }
        responseSince :=
          if state.txRequest.actionInProgress then state.jiffies else state.responseSince }

/-- What a sender takes to be stored is stored. -/
structure Agreed (ctx rxCtx : StaPv1) : Prop where
  a3 : ctx.a3Stored = true → rxCtx.a3Stored = true ∧ rxCtx.storedA3 = ctx.storedA3
  a4 : ctx.a4Stored = true → rxCtx.a4Stored = true ∧ rxCtx.storedA4 = ctx.storedA4

/-- A peer processes a request only where it asks to store again whatever the sender
takes to be stored, and the firmware does so; and a response that says that something
is stored arrives only while an answer is awaited, and is the answer to the request
made up last. -/
def TakesTurns (state : Exchange Peer) : ExchangeAction Peer → Prop
  | .work peer accepted _ =>
    (state.peers peer).fromSender = true →
      ((state.ctx peer).a3Stored = true → accepted = true ∧
        (state.peers peer).rxRequest.a1A3Differ = true ∧
        (state.peers peer).rxRequest.headerCompressionA3 = (state.ctx peer).storedA3) ∧
      ((state.ctx peer).a4Stored = true → accepted = true ∧
        (state.peers peer).rxRequest.a2A4Differ = true ∧
        (state.peers peer).rxRequest.headerCompressionA4 = (state.ctx peer).storedA4)
  | .receiveResponse peer =>
    ∀ response ∈ (state.responses peer).head?,
      response.storeA3 = true ∨ response.storeA4 = true →
        state.txRequest.actionInProgress = true ∧ response.serial = state.made
  | _ => True

end Steps

/-! ## What every step keeps -/

/-- An address that is flagged is the one noted. -/
def Noted (flagged : Bool) (addr noted : Addr) : Prop := flagged = true → addr = noted

/-- The numbers of the requests that a peer has not processed yet, the earliest first. -/
def ahead (peer : PeerEnd) (requests : List RequestFrame) : List Nat :=
  (if peer.pending ∧ peer.fromSender then [peer.kept] else []) ++
    requests.map RequestFrame.serial

/-- Requests reach a peer in the order they were made up in, and what concerns the
latest has the addresses noted. -/
structure Orderly (txRequest : HcRequest) (made : Nat) (ctx : StaPv1) (peer : PeerEnd)
    (requests : List RequestFrame) (responses : List ResponseFrame) : Prop where
  ordered : (peer.processed :: ahead peer requests).Pairwise (· < ·)
  bounded : ∀ serial ∈ peer.processed :: ahead peer requests, serial ≤ made
  latestSent : ∀ request ∈ requests, request.serial = made →
    (∀ addr ∈ request.a3, addr = txRequest.storedA3) ∧
      ∀ addr ∈ request.a4, addr = txRequest.storedA4
  latestKept : peer.pending = true → peer.fromSender = true → peer.kept = made →
    Noted peer.rxRequest.a1A3Differ peer.rxRequest.headerCompressionA3 txRequest.storedA3 ∧
      Noted peer.rxRequest.a2A4Differ peer.rxRequest.headerCompressionA4 txRequest.storedA4
  latestProcessed : peer.processed = made →
    Noted peer.rxCtx.a3Stored peer.rxCtx.storedA3 txRequest.storedA3 ∧
      Noted peer.rxCtx.a4Stored peer.rxCtx.storedA4 txRequest.storedA4
  answered : ∀ response ∈ responses, response.serial ≤ peer.processed ∧
    (response.serial = peer.processed →
      response.storeA3 = peer.rxCtx.a3Stored ∧ response.storeA4 = peer.rxCtx.a4Stored)
  agreed : Agreed ctx peer.rxCtx

section Orderly

variable {txRequest after : HcRequest} {made : Nat} {ctx : StaPv1} {peer : PeerEnd}
  {requests : List RequestFrame} {responses : List ResponseFrame}

theorem Orderly.of_noted (orderly : Orderly txRequest made ctx peer requests responses)
    (a3 : after.storedA3 = txRequest.storedA3) (a4 : after.storedA4 = txRequest.storedA4) :
    Orderly after made ctx peer requests responses where
  ordered := orderly.ordered
  bounded := orderly.bounded
  latestSent := by
    rw [a3, a4]
    exact orderly.latestSent
  latestKept := by
    rw [a3, a4]
    exact orderly.latestKept
  latestProcessed := by
    rw [a3, a4]
    exact orderly.latestProcessed
  answered := orderly.answered
  agreed := orderly.agreed

theorem Orderly.made_succ (orderly : Orderly txRequest made ctx peer requests responses) :
    Orderly after (made + 1) ctx peer requests responses where
  ordered := orderly.ordered
  bounded := fun serial member => Nat.le_succ_of_le (orderly.bounded serial member)
  latestSent := by
    intro request member latest
    have bound := orderly.bounded request.serial
      (List.mem_cons_of_mem _ (List.mem_append_right _ (List.mem_map_of_mem member)))
    omega
  latestKept := by
    intro pending fromSender latest
    have bound := orderly.bounded peer.kept (by simp [ahead, pending, fromSender])
    omega
  latestProcessed := by
    have bound := orderly.bounded peer.processed List.mem_cons_self
    omega
  answered := orderly.answered
  agreed := orderly.agreed

theorem Orderly.send (orderly : Orderly txRequest made ctx peer requests responses)
    (token : BitVec 8) :
    Orderly { insertPv1HcIe txRequest with actionDialogToken := token } (made + 1) ctx peer
      (requests ++ [requestFrame { insertPv1HcIe txRequest with actionDialogToken := token }
        (made + 1)]) responses := by
  have later : Orderly { insertPv1HcIe txRequest with actionDialogToken := token } (made + 1) ctx
      peer requests responses := orderly.made_succ
  have behind : ahead peer (requests ++ [requestFrame
      { insertPv1HcIe txRequest with actionDialogToken := token } (made + 1)]) =
      ahead peer requests ++ [made + 1] := by
    rw [ahead, ahead, List.map_append, List.append_assoc]
    rfl
  refine { later with ordered := ?_, bounded := ?_, latestSent := ?_ }
  · rw [behind, ← List.cons_append, List.pairwise_append]
    refine ⟨orderly.ordered, List.pairwise_singleton _ _, ?_⟩
    intro serial member other last
    rw [List.mem_singleton.mp last]
    exact Nat.lt_succ_of_le (orderly.bounded serial member)
  · rw [behind, ← List.cons_append]
    intro serial member
    rcases List.mem_append.mp member with member | last
    · exact later.bounded serial member
    · exact Nat.le_of_eq (List.mem_singleton.mp last)
  · intro request member latest
    rcases List.mem_append.mp member with member | last
    · exact later.latestSent request member latest
    · rw [List.mem_singleton.mp last]
      unfold requestFrame insertPv1HcIe
      dsimp only
      constructor
      · intro addr flagged
        split at flagged
        · next differ =>
            cases flagged
            rw [if_pos differ]
        · cases flagged
      · intro addr flagged
        split at flagged
        · next differ =>
            cases flagged
            rw [if_pos differ]
        · cases flagged

theorem Orderly.loseRequest (orderly : Orderly txRequest made ctx peer requests responses)
    (position : Nat) :
    Orderly txRequest made ctx peer (requests.eraseIdx position) responses := by
  have fewer : (requests.eraseIdx position).Sublist requests := List.eraseIdx_sublist ..
  have still : (ahead peer (requests.eraseIdx position)).Sublist (ahead peer requests) :=
    (fewer.map _).append_left _
  refine { orderly with ordered := ?_, bounded := ?_, latestSent := ?_ }
  · exact orderly.ordered.sublist (still.cons_cons _)
  · exact fun serial member => orderly.bounded serial ((still.cons_cons _).subset member)
  · exact fun request member => orderly.latestSent request (fewer.subset member)

theorem Orderly.fewer {fewer : List ResponseFrame}
    (orderly : Orderly txRequest made ctx peer requests responses)
    (sublist : fewer.Sublist responses) :
    Orderly txRequest made ctx peer requests fewer :=
  { orderly with answered := fun response member =>
      orderly.answered response (sublist.subset member) }

theorem Orderly.receiveRequest
    (orderly : Orderly txRequest made ctx peer (request :: requests) responses) :
    Orderly txRequest made ctx
      (peer.keep true request.a3 request.a4 request.dialogToken request.serial) requests
      responses := by
  have moved : (ahead (peer.keep true request.a3 request.a4 request.dialogToken request.serial)
      requests).Sublist (ahead peer (request :: requests)) := by
    exact List.sublist_append_right _ _
  refine { orderly with
    ordered := orderly.ordered.sublist (moved.cons_cons _)
    bounded := fun serial member => orderly.bounded serial ((moved.cons_cons _).subset member)
    latestSent := fun other member => orderly.latestSent other (List.mem_cons_of_mem _ member)
    latestKept := ?_ }
  intro _ _ latest
  obtain ⟨a3, a4⟩ := orderly.latestSent request List.mem_cons_self latest
  constructor
  · intro flagged
    obtain ⟨addr, present⟩ := Option.isSome_iff_exists.mp flagged
    rw [present]
    exact a3 addr present
  · intro flagged
    obtain ⟨addr, present⟩ := Option.isSome_iff_exists.mp flagged
    rw [present]
    exact a4 addr present

theorem Orderly.receiveOther (orderly : Orderly txRequest made ctx peer requests responses)
    (a3 a4 : Option Addr) (dialogToken : BitVec 8) :
    Orderly txRequest made ctx (peer.keep false a3 a4 dialogToken 0) requests responses := by
  have moved : (ahead (peer.keep false a3 a4 dialogToken 0) requests).Sublist
      (ahead peer requests) := by
    exact List.sublist_append_right _ _
  exact { orderly with
    ordered := orderly.ordered.sublist (moved.cons_cons _)
    bounded := fun serial member => orderly.bounded serial ((moved.cons_cons _).subset member)
    latestKept := fun _ fromSender => by cases fromSender }

theorem Orderly.workOther (orderly : Orderly txRequest made ctx peer requests responses)
    (other : peer.fromSender = false) (accepted : Bool) :
    Orderly txRequest made ctx (peer.work accepted) requests responses := by
  have worked : peer.work accepted =
      { peer with rxRequest := hcReqWorkRequest accepted peer.rxRequest, pending := false } := by
    unfold PeerEnd.work
    rw [other]
    rfl
  have moved : (ahead (peer.work accepted) requests).Sublist (ahead peer requests) := by
    exact List.sublist_append_right _ _
  rw [worked] at moved ⊢
  exact { orderly with
    ordered := orderly.ordered.sublist (moved.cons_cons _)
    bounded := fun serial member => orderly.bounded serial ((moved.cons_cons _).subset member)
    latestKept := by rintro ⟨⟩ }

theorem Orderly.workSender (orderly : Orderly txRequest made ctx peer requests responses)
    (pending : peer.pending = true) (fromSender : peer.fromSender = true) (accepted : Bool)
    (a3 : ctx.a3Stored = true → accepted = true ∧ peer.rxRequest.a1A3Differ = true ∧
      peer.rxRequest.headerCompressionA3 = ctx.storedA3)
    (a4 : ctx.a4Stored = true → accepted = true ∧ peer.rxRequest.a2A4Differ = true ∧
      peer.rxRequest.headerCompressionA4 = ctx.storedA4) :
    Orderly txRequest made ctx (peer.work accepted) requests
      (responses ++ [(peer.work accepted).response]) := by
  have before : ahead peer requests = peer.kept :: requests.map RequestFrame.serial := by
    rw [ahead, if_pos ⟨pending, fromSender⟩]
    rfl
  have worked : peer.work accepted =
      { peer with
        rxRequest := hcReqWorkRequest accepted peer.rxRequest
        pending := false
        rxCtx := hcReqWorkCtx accepted peer.rxRequest
        processed := peer.kept } := by
    unfold PeerEnd.work
    rw [fromSender]
    rfl
  have later := orderly.ordered
  have bounded := orderly.bounded
  rw [before] at later bounded
  have fresh : peer.processed < peer.kept := (List.pairwise_cons.mp later).1 _ List.mem_cons_self
  rw [worked]
  refine
    { ordered := (List.pairwise_cons.mp later).2
      bounded := fun serial member => bounded serial (List.mem_cons_of_mem _ member)
      latestSent := orderly.latestSent
      latestKept := by rintro ⟨⟩
      latestProcessed := ?_
      answered := ?_
      agreed := ⟨?_, ?_⟩ }
  · intro latest
    obtain ⟨notedA3, notedA4⟩ := orderly.latestKept pending fromSender latest
    constructor
    · intro stored
      have flagged : (accepted && peer.rxRequest.a1A3Differ) = true := stored
      show (if accepted && peer.rxRequest.a1A3Differ then _ else _) = _
      rw [if_pos flagged]
      exact notedA3 ((Bool.and_eq_true _ _).mp flagged).2
    · intro stored
      have flagged : (accepted && peer.rxRequest.a2A4Differ) = true := stored
      show (if accepted && peer.rxRequest.a2A4Differ then _ else _) = _
      rw [if_pos flagged]
      exact notedA4 ((Bool.and_eq_true _ _).mp flagged).2
  · intro response member
    rcases List.mem_append.mp member with earlier | last
    · have bound := (orderly.answered response earlier).1
      exact ⟨Nat.le_of_lt (Nat.lt_of_le_of_lt bound fresh),
        fun same => absurd same (Nat.ne_of_lt (Nat.lt_of_le_of_lt bound fresh))⟩
    · rw [List.mem_singleton.mp last]
      refine ⟨Nat.le_refl _, fun _ => ?_⟩
      cases accepted <;> exact ⟨rfl, rfl⟩
  · intro stored
    obtain ⟨stores, differ, same⟩ := a3 stored
    simp [hcReqWorkCtx, stores, differ, same]
  · intro stored
    obtain ⟨stores, differ, same⟩ := a4 stored
    simp [hcReqWorkCtx, stores, differ, same]

theorem Orderly.receiveResponse
    (orderly : Orderly txRequest made ctx peer requests (response :: responses))
    (awaited : response.storeA3 = true ∨ response.storeA4 = true →
      txRequest.actionInProgress = true ∧ response.serial = made) :
    Orderly txRequest made (hcResponseCtx txRequest response ctx) peer requests responses := by
  obtain ⟨early, answers⟩ := orderly.answered response List.mem_cons_self
  have processed := orderly.bounded peer.processed List.mem_cons_self
  refine { orderly.fewer (List.sublist_cons_self _ _) with agreed := ⟨?_, ?_⟩ }
  · intro stored
    obtain ⟨inProgress, latest⟩ := awaited (.inl stored)
    have confirmed : peer.rxCtx.a3Stored = true :=
      (answers (by omega)).1 ▸ stored
    have stored : response.storeA3 = true := stored
    refine ⟨confirmed, ?_⟩
    simp only [hcResponseCtx, inProgress, stored, if_true]
    exact (orderly.latestProcessed (by omega)).1 confirmed
  · intro stored
    obtain ⟨inProgress, latest⟩ := awaited (.inr stored)
    have confirmed : peer.rxCtx.a4Stored = true :=
      (answers (by omega)).2 ▸ stored
    have stored : response.storeA4 = true := stored
    refine ⟨confirmed, ?_⟩
    simp only [hcResponseCtx, inProgress, stored, if_true]
    exact (orderly.latestProcessed (by omega)).2 confirmed

theorem Orderly.convert (orderly : Orderly txRequest made ctx peer requests responses)
    (sender : Sender) (current : HcRequest) (skb : TxSkb) :
    Orderly txRequest made (convertPv0ToPv1 sender ctx current skb).1 peer requests responses := by
  refine { orderly with agreed := ?_ }
  cases isProtected : hasMask skb.hdr.frameControl fctlProtected with
  | false =>
    rw [convertPv0ToPv1_of_not_protected sender isProtected]
    exact orderly.agreed
  | true =>
    rw [convertPv0ToPv1_of_protected sender isProtected]
    unfold retrieveTxBpn
    split
    · exact orderly.agreed
    · exact ⟨orderly.agreed.a3, orderly.agreed.a4⟩

end Orderly

/-! ## Whole exchanges -/

section Runs

variable {Peer : Type u} [DecidableEq Peer] {sender : Peer → Sender}
  {state next : Exchange Peer}

/-- Every peer of an exchange gets its requests in order. -/
def Exchange.Ordered (state : Exchange Peer) : Prop :=
  ∀ peer, Orderly state.txRequest state.made (state.ctx peer) (state.peers peer)
    (state.requests peer) (state.responses peer)

omit [DecidableEq Peer] in
theorem Exchange.Ordered.initial : (Exchange.initial : Exchange Peer).Ordered := by
  intro peer
  exact
    { ordered := List.pairwise_singleton _ _
      bounded := fun serial member => Nat.le_of_eq (List.mem_singleton.mp member)
      latestSent := by rintro _ ⟨⟩
      latestKept := by rintro ⟨⟩
      latestProcessed := fun _ => ⟨by rintro ⟨⟩, by rintro ⟨⟩⟩
      answered := by rintro _ ⟨⟩
      agreed := ⟨by rintro ⟨⟩, by rintro ⟨⟩⟩ }

omit [DecidableEq Peer] in
theorem Exchange.Ordered.underWay (ordered : state.Ordered) : state.underWay.Ordered :=
  fun peer => (ordered peer).of_noted rfl rfl

theorem a3A4Check_noted (txRequest : HcRequest) (hdr : Ieee80211Hdr) :
    (a3A4Check txRequest hdr).storedA3 = txRequest.storedA3 ∧
      (a3A4Check txRequest hdr).storedA4 = txRequest.storedA4 := by
  unfold a3A4Check
  dsimp only
  split
  · exact ⟨rfl, rfl⟩
  · split <;> split <;> exact ⟨rfl, rfl⟩

theorem Exchange.Ordered.sendRequest (ordered : state.Ordered) (peer : Peer) (fate : Fate) :
    (state.sendRequest peer fate).Ordered := by
  cases fate with
  | noElements => exact ordered
  | noBuffer => exact fun other => (ordered other).made_succ
  | refused => exact Ordered.underWay fun other => (ordered other).made_succ
  | sent =>
    refine Ordered.underWay fun other => ?_
    by_cases same : other = peer
    · subst same
      simp only [Function.update_self]
      exact (ordered other).send _
    · simp only [Function.update_of_ne same]
      exact (ordered other).made_succ

theorem Exchange.Ordered.transmit (ordered : state.Ordered) (peer : Peer) (skb : TxSkb)
    (fate : Fate) :
    (state.transmit sender peer skb fate).Ordered := by
  obtain ⟨a3, a4⟩ := a3A4Check_noted state.txRequest skb.hdr
  have checked :
      Exchange.Ordered { state with txRequest := a3A4Check state.txRequest skb.hdr } :=
    fun other => (ordered other).of_noted a3 a4
  have asked : ∀ asked : Exchange Peer, asked.Ordered →
      Exchange.Ordered { asked with
        ctx := Function.update asked.ctx peer
          (convertPv0ToPv1 (sender peer) (asked.ctx peer) asked.txRequest skb).1 } := by
    intro asked ordered other
    by_cases same : other = peer
    · subst same
      simp only [Function.update_self]
      exact (ordered other).convert _ _ _
    · simp only [Function.update_of_ne same]
      exact ordered other
  refine asked _ ?_
  split
  · exact checked.sendRequest peer fate
  · exact checked

theorem Exchange.Ordered.step (ordered : state.Ordered) (turn : TakesTurns state action)
    (taken : exchangeStep sender state action = some next) :
    next.Ordered := by
  cases action with
  | transmit peer skb fate =>
    cases taken
    exact ordered.transmit peer skb fate
  | respond fate =>
    cases fate <;> cases taken
    · exact ordered
    · exact ordered
    · exact ordered.underWay
    · exact ordered.underWay
  | advance count =>
    cases taken
    exact ordered
  | loseRequest peer position =>
    cases taken
    intro other
    by_cases same : other = peer
    · subst same
      simp only [Function.update_self]
      exact (ordered other).loseRequest position
    · simp only [Function.update_of_ne same]
      exact ordered other
  | loseResponse peer position =>
    cases taken
    intro other
    by_cases same : other = peer
    · subst same
      simp only [Function.update_self]
      exact (ordered other).fewer (List.eraseIdx_sublist ..)
    · simp only [Function.update_of_ne same]
      exact ordered other
  | receiveRequest peer =>
    simp only [exchangeStep] at taken
    split at taken
    · cases taken
    · next request rest waiting =>
        cases taken
        intro other
        by_cases same : other = peer
        · subst same
          simp only [Function.update_self]
          have received := ordered other
          rw [waiting] at received
          exact received.receiveRequest
        · simp only [Function.update_of_ne same]
          exact ordered other
  | receiveOther peer a3 a4 dialogToken =>
    cases taken
    intro other
    by_cases same : other = peer
    · subst same
      simp only [Function.update_self]
      exact (ordered other).receiveOther a3 a4 dialogToken
    · simp only [Function.update_of_ne same]
      exact ordered other
  | work peer accepted fate =>
    simp only [exchangeStep] at taken
    split at taken
    · next pending =>
        cases taken
        intro other
        by_cases same : other = peer
        · subst same
          have kept : ((state.peers other).work accepted).fromSender =
              (state.peers other).fromSender := rfl
          simp only [Function.update_self, kept]
          cases fromSender : (state.peers other).fromSender with
          | false =>
            exact (ordered other).workOther fromSender accepted
          | true =>
            obtain ⟨a3, a4⟩ := turn fromSender
            have worked := (ordered other).workSender pending fromSender accepted a3 a4
            split
            · rw [Function.update_self]
              exact worked
            · exact worked.fewer (List.sublist_append_left _ _)
        · simp only [Function.update_of_ne same]
          split
          · rw [Function.update_of_ne same]
            exact ordered other
          · exact ordered other
    · cases taken
  | receiveResponse peer =>
    simp only [exchangeStep] at taken
    split at taken
    · cases taken
    · next response rest waiting =>
        cases taken
        intro other
        by_cases same : other = peer
        · subst same
          simp only [Function.update_self]
          have received := ordered other
          rw [waiting] at received
          refine (received.receiveResponse (turn response ?_)).of_noted rfl rfl
          rw [waiting]
          rfl
        · simp only [Function.update_of_ne same]
          exact (ordered other).of_noted rfl rfl

/-- In every state that such steps reach, whatever the sender takes a peer to have
stored is what the last request that the peer processed stored. -/
theorem contextsAgree_of_reaches
    (reaches : Reaches (exchangeStep sender) TakesTurns Exchange.initial state) (peer : Peer) :
    Agreed (state.ctx peer) (state.peers peer).rxCtx := by
  have ordered : state.Ordered := by
    refine @Reaches.invariant _ _ (exchangeStep sender) TakesTurns Exchange.initial state
      Exchange.Ordered .initial ?_ reaches
    intro before action after ordered turn taken
    exact ordered.step turn taken
  exact (ordered peer).agreed

end Runs

/-! ## Two exchanges -/

/-- A frame whose third address is not the first. -/
def exchangeFrame (addr3 : Addr) : TxSkb where
  hdr :=
    { frameControl := 0x0188
      durationId := 0
      addr1 := 2
      addr2 := 4
      addr3 := addr3
      seqCtrl := 0
      addr4 := 0 }
  qosCtl := 0
  priority := 0
  body := []
  headroom := 0

/-- A station that sends to two peers. -/
def exchangeSender (_ : Bool) : Sender := ⟨.ap, 0, 1, true⟩

/-- A request, its processing and its answer, in turn. -/
def answeredInTurn : List (ExchangeAction Bool) :=
  [.transmit true (exchangeFrame 6) .sent, .receiveRequest true, .work true true .sent,
    .receiveResponse true]

theorem contextsAgree_answeredInTurn :
    ∃ state, Reaches (exchangeStep exchangeSender) TakesTurns Exchange.initial state ∧
      (state.ctx true).a3Stored = true ∧ (state.ctx true).storedA3 = 6 ∧
        Agreed (state.ctx true) (state.peers true).rxCtx := by
  have reaches := @Reaches.of_run _ _ (exchangeStep exchangeSender) TakesTurns Exchange.initial _
    answeredInTurn ⟨trivial, trivial, fun _ => ⟨by rintro ⟨⟩, by rintro ⟨⟩⟩, by
      intro response answers _
      cases answers
      exact ⟨rfl, rfl⟩, trivial⟩ rfl
  exact ⟨_, reaches, rfl, rfl, contextsAgree_of_reaches reaches true⟩

/-- The answer of one peer comes after a request was made up for the other. -/
def answeredLate : List (ExchangeAction Bool) :=
  [.transmit true (exchangeFrame 6) .sent, .advance 10,
    .transmit false (exchangeFrame 8) .sent, .receiveRequest true, .work true true .sent,
    .receiveResponse true]

/-- The sender then takes the address to be stored that it asked the other to store. -/
theorem not_contextsAgree_answeredLate :
    ¬ ∀ state, Reaches (exchangeStep exchangeSender) (fun _ _ => True) Exchange.initial state →
      ∀ peer, Agreed (state.ctx peer) (state.peers peer).rxCtx := by
  intro claim
  have agreed := claim _ (@Reaches.of_run _ _ (exchangeStep exchangeSender) (fun _ _ => True)
    Exchange.initial _ answeredLate (guarded_true _ _) rfl) true
  have same := (agreed.a3 rfl).2
  exact absurd same (by decide)

end Pv1
end Morse
