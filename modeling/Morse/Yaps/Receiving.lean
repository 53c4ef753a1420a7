import Mathlib.Data.Nat.Find
import Morse.Skbq.Moves
import Morse.Yaps.Handlers
import Morse.Yaps.RoundTrip

/-!
# What becomes of received packets

A packet that the receive handler comes to is put on the queue of its channel
or freed.  It comes to every packet consumed from the chip's queue exactly when
no exit of the parsing loop is taken too early.
-/

namespace Morse
namespace Yaps

open Lib

/-! ## One packet -/

/-- How often a frame is with the receiver. -/
def Receiver.tally (receiver : Receiver) (address : Nat) : Nat :=
  receiver.dataRxQ.tally address + receiver.cmdRespQ.tally address +
    keyCount SkBuff.address address receiver.freed

/-- The packet is in one place: freed, or on the queue of its channel. -/
structure Disposed (env : RxEnv) (receiver : Receiver) (index : Nat) (pkt : RxPkt) : Prop where
  once : receiver.tally (env.address index) = 1
  place :
    0 < keyCount SkBuff.address (env.address index) receiver.freed ∨
      ∃ queue, rxQueueOf (env.header pkt).channel = some queue ∧
        0 < keyCount SkBuff.address (env.address index) (receiver.queue queue).skbq.skbs

section OnePacket

variable {env : RxEnv} {receiver : Receiver} {index : Nat} {pkt : RxPkt}

theorem skbTrim_address (skb : SkBuff) (len : Nat) : (skbTrim skb len).address = skb.address := by
  unfold skbTrim
  split <;> rfl

theorem skbTrim_len_le (skb : SkBuff) (len : Nat) :
    (skbTrim skb len).len.toNat ≤ len := by
  unfold skbTrim
  split
  · exact Nat.mod_le _ _
  · next long => exact Nat.not_lt.mp long

theorem enq_of_fits {mq : Skbq} {skb : SkBuff} {len : Nat} (fits : ¬ mq.space.toInt < len) :
    (mq.enq [skbTrim skb len]).2.2 = mq.putIgnored .skbq (skbTrim skb len) .tail ∧
      (skbTrim skb len).len ≤ mq.space := by
  have trimmed := skbTrim_len_le skb len
  have le_space : (skbTrim skb len).len ≤ mq.space := by
    rw [BitVec.toInt_eq_toNat_cond] at fits
    rw [BitVec.le_def]
    split at fits <;> omega
  refine ⟨?_, le_space⟩
  simp only [Skbq.enq, Skbq.enqWalk, if_pos le_space]

theorem putIgnored_tail {mq : Skbq} (fits : skb.len ≤ mq.space) :
    (mq.putIgnored .skbq skb .tail).skbq.skbs = mq.skbq.skbs ++ [skb] ∧
      ∀ address, (mq.putIgnored .skbq skb .tail).tally address =
        mq.tally address + if skb.address = address then 1 else 0 := by
  have put : mq.putIgnored .skbq skb .tail =
      { mq with skbqSize := mq.skbqSize + skb.len, skbq := mq.skbq.insert skb .tail } := by
    simp only [Skbq.putIgnored, Skbq.put, if_pos fits, Option.getD_some]
  rw [put]
  refine ⟨rfl, fun address => ?_⟩
  simp only [Skbq.tally, SkBuffHead.insert, keyCount_append, keyCount_cons, keyCount_nil]
  omega

/-- What handling a packet does to the receiver. -/
inductive Handled (env : RxEnv) (receiver : Receiver) (index : Nat) (pkt : RxPkt) :
    Receiver → Prop
  | freed : Handled env receiver index pkt (receiver.free (env.skb index pkt))
  | queued (queue : RxQueue) (skb : SkBuff) :
      rxQueueOf (env.header pkt).channel = some queue → skb.address = env.address index →
        skb.len ≤ (receiver.queue queue).space →
          Handled env receiver index pkt
            (receiver.withQueue queue ((receiver.queue queue).putIgnored .skbq skb .tail))

theorem morseYapsReadPkt_handled :
    Handled env receiver index pkt (morseYapsReadPkt env receiver index pkt) := by
  simp only [morseYapsReadPkt]
  split
  · exact .freed
  split
  · exact .freed
  split
  · exact .freed
  · next queue declared =>
      split
      · exact .freed
      · next fits =>
          obtain ⟨queued, le_space⟩ := @enq_of_fits _ (env.skb index pkt) _ fits
          rw [queued]
          exact .queued queue _ declared (skbTrim_address _ _) le_space

variable {after : Receiver}

theorem Handled.tally (handled : Handled env receiver index pkt after) (address : Nat) :
    after.tally address =
      receiver.tally address + if env.address index = address then 1 else 0 := by
  cases handled with
  | freed =>
    simp only [Receiver.tally, Receiver.free, keyCount_append, keyCount_cons, keyCount_nil,
      RxEnv.skb]
    omega
  | queued queue skb _ same fits =>
    have put := (putIgnored_tail fits).2 address
    rw [same] at put
    cases queue <;>
      simp only [Receiver.tally, Receiver.withQueue, Receiver.queue] at put ⊢ <;> omega

theorem Handled.disposed (handled : Handled env receiver index pkt after)
    (fresh : receiver.tally (env.address index) = 0) :
    Disposed env after index pkt := by
  refine ⟨?_, ?_⟩
  · rw [handled.tally, fresh, if_pos rfl]
  · cases handled with
    | freed =>
      simp only [Receiver.free, keyCount_append, keyCount_cons, keyCount_nil, RxEnv.skb, if_true]
      omega
    | queued queue skb declared same fits =>
      right
      refine ⟨queue, declared, ?_⟩
      have put := (putIgnored_tail fits).1
      have read : ((receiver.withQueue queue
          ((receiver.queue queue).putIgnored .skbq skb .tail)).queue queue).skbq.skbs =
            (receiver.queue queue).skbq.skbs ++ [skb] := by
        cases queue <;> exact put
      rw [read, keyCount_append, keyCount_cons, if_pos same]
      omega

theorem Handled.mono (handled : Handled env receiver index pkt after) (address : Nat) :
    keyCount SkBuff.address address receiver.freed ≤ keyCount SkBuff.address address after.freed ∧
      ∀ queue, keyCount SkBuff.address address (receiver.queue queue).skbq.skbs ≤
        keyCount SkBuff.address address (after.queue queue).skbq.skbs := by
  cases handled with
  | freed =>
    refine ⟨?_, fun queue => by cases queue <;> exact Nat.le_refl _⟩
    rw [Receiver.free, keyCount_append]
    omega
  | queued queue skb declared same fits =>
    have put := (putIgnored_tail fits).1
    refine ⟨by cases queue <;> exact Nat.le_refl _, fun other => ?_⟩
    cases queue <;> cases other <;>
      simp only [Receiver.withQueue, Receiver.queue] at put ⊢ <;>
      first
      | exact Nat.le_refl _
      | rw [put, keyCount_append]; omega

theorem Handled.keeps (handled : Handled env receiver index pkt after)
    (distinct : env.address index ≠ env.address other)
    (disposed : Disposed env receiver other otherPkt) :
    Disposed env after other otherPkt := by
  obtain ⟨freed, queued⟩ := handled.mono (env.address other)
  refine ⟨?_, ?_⟩
  · rw [handled.tally, if_neg distinct, disposed.once]
  · rcases disposed.place with free | ⟨queue, declared, present⟩
    · exact .inl (Nat.lt_of_lt_of_le free freed)
    · exact .inr ⟨queue, declared, Nat.lt_of_lt_of_le present (queued queue)⟩

end OnePacket

/-! ## The packets that were received -/

/-- The frames of a call come from fresh buffers, unknown to the receiver. -/
structure Fresh (env : RxEnv) (receiver : Receiver) (start : Nat) : Prop where
  injective : Function.Injective env.address
  absent : ∀ index, start ≤ index → receiver.tally (env.address index) = 0

theorem handOver_keeps (injective : Function.Injective env.address) (earlier : index < start)
    (disposed : Disposed env receiver index pkt) :
    Disposed env (handOver env start pkts receiver) index pkt := by
  induction pkts generalizing start receiver with
  | nil => exact disposed
  | cons first rest ih =>
    refine ih (Nat.lt_succ_of_lt earlier) (morseYapsReadPkt_handled.keeps ?_ disposed)
    intro same
    exact absurd (injective same) (Nat.ne_of_gt earlier)

theorem handOver_disposes {start : Nat} {receiver : Receiver} (fresh : Fresh env receiver start) :
    (∀ offset pkt, pkts[offset]? = some pkt →
      Disposed env (handOver env start pkts receiver) (start + offset) pkt) ∧
    ∀ index, start + pkts.length ≤ index →
      (handOver env start pkts receiver).tally (env.address index) = 0 := by
  induction pkts generalizing start receiver with
  | nil =>
    refine ⟨fun offset pkt found => by simp at found, fun index later => ?_⟩
    exact fresh.absent index later
  | cons first rest ih =>
    have handled := @morseYapsReadPkt_handled env receiver start first
    have freshAfter : Fresh env (morseYapsReadPkt env receiver start first) (start + 1) := by
      refine ⟨fresh.injective, fun index later => ?_⟩
      have distinct : env.address start ≠ env.address index := by
        intro same
        exact absurd (fresh.injective same) (Nat.ne_of_lt later)
      rw [handled.tally, if_neg distinct, fresh.absent index (Nat.le_of_succ_le later)]
    obtain ⟨disposes, untouched⟩ := ih freshAfter
    refine ⟨fun offset pkt found => ?_, fun index later => ?_⟩
    · cases offset with
      | zero =>
        rw [List.getElem?_cons_zero, Option.some.injEq] at found
        subst found
        show Disposed env (handOver env (start + 1) rest _) start first
        exact handOver_keeps fresh.injective (Nat.lt_succ_self start)
          (handled.disposed (fresh.absent start (Nat.le_refl start)))
      | succ offset =>
        have disposed := disposes offset pkt found
        rwa [show start + 1 + offset = start + (offset + 1) by omega] at disposed
    · rw [List.length_cons] at later
      exact untouched index (by omega)

/-! ## The window -/

section Window

variable {crc7BeByte : BitVec 8 → Octet → BitVec 8} {aux : AuxData} {env : ReadEnv}
  {octets stale : List Octet} {window slots : Nat}

/-- The window holds no packet to its last octet; or it holds no more than may
be received, there is memory for each of them, and a packet that runs off the
window gets its memory and is read without an error that ends the handler. -/
def WindowClear (crc7BeByte : BitVec 8 → Octet → BitVec 8) (aux : AuxData) (env : ReadEnv)
    (slots : Nat) (octets : List Octet) : Prop :=
  let split := frames (wholePacket crc7BeByte aux) octets
  split.1 = [] ∨
    split.1.length ≤ slots ∧ (∀ index, index < split.1.length → env.allocates index = true) ∧
      (split.1.length < slots → Straddles crc7BeByte split.2 →
        env.devAllocSkb split.1.length (yapsDelimGetPktSize aux (le32ToCpu split.2)) = true ∧
          (env.overhangError = none ∨ env.overhangError = some .eagain))

instance : Decidable (WindowClear crc7BeByte aux env slots octets) :=
  inferInstanceAs (Decidable (_ ∨ _ ∧ (∀ _, _ → _) ∧ (_ → _ → _ ∧ (_ ∨ _))))

/-- The packets that the handler comes to after the loop. -/
def LoopResult.handled (result : LoopResult) : List RxPkt :=
  match result.outcome with
  | .left => result.received
  | .error error => if error = .eagain then result.received else []
  | .fault => []

/-- The packets that were consumed to their last octet. -/
def consumedPackets (crc7BeByte : BitVec 8 → Octet → BitVec 8) (aux : AuxData)
    (consumed : List Octet) : List RxPkt :=
  (frames (wholePacket crc7BeByte aux) consumed).1

/-- What the loop says about the packets consumed: some first part of them is
handled, and all of them in a clear window alone. -/
structure Covers (packets handled : List RxPkt) (clear : Prop) : Prop where
  isPrefix : handled <+: packets
  all_iff : handled = packets ↔ clear

theorem covers_all (isClear : clear) :
    Covers packets packets clear :=
  ⟨List.prefix_refl packets, fun _ => isClear, fun _ => rfl⟩

theorem covers_none (clear_iff : clear ↔ packets = []) :
    Covers packets [] clear :=
  ⟨List.nil_prefix, by rw [clear_iff]; exact eq_comm⟩

theorem readLoop_of_missing_memory
    (split : frames (wholePacket crc7BeByte aux) octets = (pkts, left))
    (inside : missing < pkts.length) (reached : missing < slots)
    (refused : env.allocates missing = false)
    (earlier : ∀ index, index < missing → env.allocates index = true)
    (aligned : 4 ∣ aux.reservedYapsPageSize.toNat) (words : 4 ∣ octets.length) :
    readLoop crc7BeByte aux env window slots 0 (octets ++ stale) octets.length =
      ⟨.error .enomem, pkts.take missing, []⟩ := by
  obtain ⟨later, laterSplit, -, advanced⟩ :=
    @readLoop_advance _ _ env window slots 0 _ stale _ _ missing split (Nat.le_of_lt inside)
      (Nat.le_of_lt reached) (by simpa using earlier) aligned words
  cases found : wholePacket crc7BeByte aux later with
  | none =>
    rw [frames_of_none found, Prod.mk.injEq] at laterSplit
    have empty := List.drop_eq_nil_iff.mp laterSplit.1.symm
    exact absurd inside (Nat.not_lt.mpr empty)
  | some first =>
    obtain ⟨fewer, more⟩ : ∃ fewer, slots - missing = fewer + 1 :=
      ⟨slots - missing - 1, by omega⟩
    rw [advanced, more, Nat.zero_add, readLoop_of_refused found refused]
    simp only [LoopResult.prepend, LoopResult.stop, List.append_nil]

theorem readLoop_at_end (split : frames (wholePacket crc7BeByte aux) octets = (pkts, left))
    (enough : pkts.length ≤ slots)
    (allocated : ∀ index, index < pkts.length → env.allocates index = true)
    (aligned : 4 ∣ aux.reservedYapsPageSize.toNat) (words : 4 ∣ octets.length) :
    4 ∣ left.length ∧ wholePacket crc7BeByte aux left = none ∧
      readLoop crc7BeByte aux env window slots 0 (octets ++ stale) octets.length =
        (readLoop crc7BeByte aux env window (slots - pkts.length) pkts.length (left ++ stale)
          left.length).prepend pkts := by
  obtain ⟨later, laterSplit, laterWords, advanced⟩ :=
    @readLoop_advance _ _ env window slots 0 _ stale _ _ pkts.length split (Nat.le_refl _)
      enough (by simpa using allocated) aligned words
  rw [List.drop_length] at laterSplit
  cases found : wholePacket crc7BeByte aux later with
  | none =>
    rw [frames_of_none found] at laterSplit
    obtain ⟨-, rfl⟩ := laterSplit
    rw [Nat.zero_add, List.take_length] at advanced
    exact ⟨laterWords, found, advanced⟩
  | some first =>
    rw [frames_of_some (splitter_wholePacket aux) found, Prod.mk.injEq] at laterSplit
    cases laterSplit.1

theorem readLoop_covers (aligned : 4 ∣ aux.reservedYapsPageSize.toNat) (words : 4 ∣ octets.length) :
    let result := readLoop crc7BeByte aux env window slots 0 (octets ++ stale) octets.length
    result.outcome ≠ .fault ∧
      Covers (consumedPackets crc7BeByte aux (octets ++ result.overhang)) result.handled
        (WindowClear crc7BeByte aux env slots octets) := by
  intro result
  rcases split : frames (wholePacket crc7BeByte aux) octets with ⟨pkts, left⟩
  have consumedWindow : consumedPackets crc7BeByte aux (octets ++ []) = pkts := by
    rw [List.append_nil, consumedPackets, split]
  have clear_iff : WindowClear crc7BeByte aux env slots octets ↔ pkts = [] ∨
      pkts.length ≤ slots ∧ (∀ index, index < pkts.length → env.allocates index = true) ∧
        (pkts.length < slots → Straddles crc7BeByte left →
          env.devAllocSkb pkts.length (yapsDelimGetPktSize aux (le32ToCpu left)) = true ∧
            (env.overhangError = none ∨ env.overhangError = some .eagain)) := by
    simp only [WindowClear, split]
  rw [clear_iff]
  by_cases memory : ∃ missing, missing < pkts.length ∧ missing < slots ∧
      env.allocates missing = false
  · -- the first packet without memory ends the loop
    obtain ⟨inside, reached, refused⟩ := Nat.find_spec memory
    have earlier : ∀ index, index < Nat.find memory → env.allocates index = true := by
      intro index before
      by_contra denied
      exact Nat.find_min memory before
        ⟨by omega, by omega, Bool.eq_false_iff.mpr denied⟩
    have ended : result = _ :=
      readLoop_of_missing_memory split inside reached refused earlier aligned words
    rw [ended]
    refine ⟨by simp, ?_⟩
    simp only [LoopResult.handled, reduceCtorEq, if_false, consumedWindow]
    refine covers_none ⟨fun clear => clear.resolve_right ?_, .inl⟩
    rintro ⟨-, allocated, -⟩
    rw [allocated _ inside] at refused
    cases refused
  · have allocated : ∀ index, index < pkts.length → index < slots → env.allocates index = true := by
      intro index inside reached
      by_contra denied
      exact memory ⟨index, inside, reached, Bool.eq_false_iff.mpr denied⟩
    rcases Nat.lt_or_ge slots pkts.length with many | enough
    · -- the packets after the last slot are dropped
      obtain ⟨later, -, -, advanced⟩ :=
        @readLoop_advance _ _ env window slots 0 _ stale _ _ slots split (Nat.le_of_lt many)
          (Nat.le_refl slots)
          (by
            intro offset below
            rw [Nat.zero_add]
            exact allocated offset (Nat.lt_trans below many) below)
          aligned words
      have ended : result = ⟨.left, pkts.take slots, []⟩ := by
        rw [show result = _ from advanced, Nat.sub_self]
        simp only [readLoop, LoopResult.prepend, LoopResult.stop, List.append_nil]
      rw [ended]
      refine ⟨by simp, ?_⟩
      simp only [LoopResult.handled, consumedWindow]
      refine ⟨List.take_prefix _ _, ?_⟩
      constructor
      · intro all
        have lengths := congrArg List.length all
        rw [List.length_take] at lengths
        omega
      · rintro (empty | ⟨few, -⟩)
        · rw [empty] at many
          exact absurd many (Nat.not_lt_zero slots)
        · exact absurd few (Nat.not_le.mpr many)
    · obtain ⟨leftWords, absent, atEnd⟩ := @readLoop_at_end _ _ env _ stale window slots _ _ split
        enough (fun index inside => allocated index inside (by omega)) aligned words
      have allAllocated : ∀ index, index < pkts.length → env.allocates index = true :=
        fun index inside => allocated index inside (by omega)
      by_cases straddles : Straddles crc7BeByte left ∧ pkts.length < slots
      · obtain ⟨straddling, less⟩ := straddles
        obtain ⟨fewer, more⟩ : ∃ fewer, slots - pkts.length = fewer + 1 :=
          ⟨slots - pkts.length - 1, by omega⟩
        rw [more] at atEnd
        cases granted : env.devAllocSkb pkts.length (yapsDelimGetPktSize aux (le32ToCpu left)) with
        | false =>
          have ended : result = ⟨.error .enomem, pkts, []⟩ := by
            rw [show result = _ from atEnd,
              readLoop_of_straddles_refused leftWords straddling granted]
            simp only [LoopResult.prepend, LoopResult.stop, List.append_nil]
          rw [ended]
          refine ⟨by simp, ?_⟩
          simp only [LoopResult.handled, reduceCtorEq, if_false, consumedWindow]
          refine covers_none ⟨fun clear => clear.resolve_right ?_, .inl⟩
          rintro ⟨-, -, delivered⟩
          exact (delivered less straddling).1
        | true =>
          obtain ⟨failing, reading⟩ := @readLoop_of_straddles_granted _ _ env window fewer _ _
            stale absent aligned leftWords straddling granted
          cases overhangError : env.overhangError with
          | some error =>
            have ended : result = ⟨.error error, pkts, []⟩ := by
              rw [show result = _ from atEnd, failing error overhangError]
              simp only [LoopResult.prepend, LoopResult.stop, List.append_nil]
            rw [ended]
            refine ⟨by simp, ?_⟩
            simp only [LoopResult.handled, consumedWindow]
            split
            · next again =>
                subst again
                exact covers_all (.inr ⟨enough, allAllocated, fun _ _ => by simp⟩)
            · next fatal =>
                refine covers_none ⟨fun clear => clear.resolve_right ?_, .inl⟩
                rintro ⟨-, -, delivered⟩
                rcases (delivered less straddling).2 with fine | again
                · cases fine
                · exact fatal (Option.some.inj again)
          | none =>
            obtain ⟨pkt, overhang, complete, whole⟩ := reading overhangError
            have ended : result = ⟨.left, pkts ++ [pkt], overhang⟩ := by
              rw [show result = _ from atEnd, complete]
              rfl
            have consumed : consumedPackets crc7BeByte aux (octets ++ overhang) =
                pkts ++ [pkt] := by
              have splitter := @splitter_wholePacket crc7BeByte aux
              rw [consumedPackets, frames_append splitter, split,
                frames_of_some splitter whole]
              rfl
            rw [ended]
            refine ⟨by simp, ?_⟩
            simp only [LoopResult.handled, consumed]
            exact covers_all (.inr ⟨enough, allAllocated, fun _ _ => by simp⟩)
      · have ended : result = ⟨.left, pkts, []⟩ := by
          have stopped : readLoop crc7BeByte aux env window (slots - pkts.length) pkts.length
              (left ++ stale) left.length = .stop .left := by
            by_cases straddling : Straddles crc7BeByte left
            · have full : slots - pkts.length = 0 :=
                Nat.sub_eq_zero_of_le (Nat.not_lt.mp fun less => straddles ⟨straddling, less⟩)
              rw [full]
              rfl
            · exact readLoop_of_not_straddles leftWords straddling
          rw [show result = _ from atEnd, stopped]
          simp only [LoopResult.prepend, LoopResult.stop, List.append_nil]
        rw [ended]
        refine ⟨by simp, ?_⟩
        simp only [LoopResult.handled, consumedWindow]
        exact covers_all (.inr ⟨enough, allAllocated, fun less straddling =>
          absurd ⟨straddling, less⟩ straddles⟩)

end Window

/-! ## The handler -/

/-- The stream from the chip is one of words: the chip reserves words, and has a
number of words in its queue.  The bus reads nothing else. -/
structure WordStream (aux : AuxData) (polls : List (Except Errno StatusRegisters)) : Prop where
  reserved : 4 ∣ aux.reservedYapsPageSize.toNat
  bytes : ∀ regs, .ok regs ∈ polls → 4 ∣ regs.fcRxBytesInQueue.toNat

/-- If the handler comes to read a window, the window is clear. -/
def HandlerClear (crc7BeByte : BitVec 8 → Octet → BitVec 8) (aux : AuxData)
    (statusLocked : Bool) (polls : List (Except Errno StatusRegisters)) (env : ReadEnv) : Prop :=
  ∀ updated bytes, morseYapsHwUpdateStatus aux statusLocked polls = (none, updated) →
    morseCalcBytesRemaining updated = some bytes → env.locked = false → env.windowError = none →
      WindowClear crc7BeByte updated env maxPktsPerRxTxn
        (segment env.stream 0 (windowLen bytes))

/-- Every packet consumed to its last octet is in one place: freed, or on the
queue of its channel. -/
def LosesNoFrame (crc7BeByte : BitVec 8 → Octet → BitVec 8) (aux : AuxData) (env : RxEnv)
    (result : RxResult) : Prop :=
  ∀ index pkt, (consumedPackets crc7BeByte aux result.consumed)[index]? = some pkt →
    Disposed env result.receiver index pkt

section Handler

variable {crc7BeByte : BitVec 8 → Octet → BitVec 8}

theorem pollStatus_mem (polled : pollStatus polls = .ok regs) :
    .ok regs ∈ polls := by
  induction polls with
  | nil => cases polled
  | cons poll rest ih =>
    cases poll with
    | error error => cases polled
    | ok first =>
      rw [pollStatus] at polled
      split at polled
      · exact List.mem_cons_of_mem _ (ih polled)
      · cases polled
        exact List.mem_cons_self

theorem updateStatus_eq_none
    (succeeds : morseYapsHwUpdateStatus aux locked polls = (none, updated)) :
    ∃ regs, .ok regs ∈ polls ∧ updated = { aux with statusRegs := regs } := by
  unfold morseYapsHwUpdateStatus at succeeds
  split at succeeds
  · cases succeeds
  · split at succeeds
    · cases succeeds
    · next regs polled =>
        rw [Prod.mk.injEq] at succeeds
        exact ⟨regs, pollStatus_mem polled, succeeds.2.symm⟩

theorem losesNoFrame_iff_of_covers (covers : Covers packets handled clear)
    (fresh : Fresh env receiver 0) :
    (∀ index pkt, packets[index]? = some pkt →
      Disposed env (handOver env 0 handled receiver) index pkt) ↔ clear := by
  obtain ⟨disposes, untouched⟩ := @handOver_disposes env handled 0 receiver fresh
  obtain ⟨others, rfl⟩ := covers.isPrefix
  rw [← covers.all_iff]
  constructor
  · intro disposed
    cases others with
    | nil => exact (List.append_nil handled).symm
    | cons first rest =>
      have lost := disposed handled.length first (by
        rw [List.getElem?_append_right (Nat.le_refl _), Nat.sub_self, List.getElem?_cons_zero])
      have absent := untouched handled.length (by omega)
      have once := lost.once
      rw [absent] at once
      exact absurd once Nat.zero_ne_one
  · intro all index pkt found
    rw [← all] at found
    have disposed := disposes index pkt found
    rwa [Nat.zero_add] at disposed

theorem covers_of_no_window (isClear : clear) :
    Covers (consumedPackets crc7BeByte aux []) [] clear :=
  covers_all isClear

theorem windowClear_nil :
    WindowClear crc7BeByte aux env slots [] :=
  .inl rfl

theorem words_windowLen (words : 4 ∣ aux.statusRegs.fcRxBytesInQueue.toNat)
    (calculated : morseCalcBytesRemaining aux = some bytes) :
    4 ∣ windowLen bytes := by
  simp only [morseCalcBytesRemaining] at calculated
  split at calculated
  · cases calculated
  · cases calculated
    unfold windowLen yapsHwWindowSizeBytes
    omega

/-- The result of a call from that of its parsing loop. -/
def LoopResult.toRead (result : LoopResult) (bytes : Nat) (window : List Octet) : ReadResult where
  ret :=
    match result.outcome with
    | .left => some (if yapsHwWindowSizeBytes < bytes then some .eagain else none)
    | .error error => some (some error)
    | .fault => none
  received := result.received
  consumed := window ++ result.overhang

theorem handled_toRead {result : LoopResult} {bytes : Nat} {window : List Octet}
    (noFault : result.outcome ≠ .fault) :
    (result.toRead bytes window).ret ≠ none ∧
      (result.toRead bytes window).handled = result.handled := by
  rcases result with ⟨outcome, received, overhang⟩
  cases outcome with
  | left =>
    simp only [LoopResult.toRead, ReadResult.handled, LoopResult.handled]
    split <;> simp
  | error error => simp [LoopResult.toRead, ReadResult.handled, LoopResult.handled]
  | fault => exact absurd rfl noFault

theorem readPkts_covers (aligned : 4 ∣ aux.reservedYapsPageSize.toNat)
    (words : 4 ∣ aux.statusRegs.fcRxBytesInQueue.toNat) :
    let result := morseYapsHwReadPkts crc7BeByte aux env maxPktsPerRxTxn
    result.ret ≠ none ∧
      Covers (consumedPackets crc7BeByte aux result.consumed) result.handled
        (∀ bytes, morseCalcBytesRemaining aux = some bytes → env.locked = false →
          env.windowError = none → WindowClear crc7BeByte aux env maxPktsPerRxTxn
            (segment env.stream 0 (windowLen bytes))) := by
  intro result
  have some_slots : ¬ maxPktsPerRxTxn = 0 := by decide
  cases calculated : morseCalcBytesRemaining aux with
  | none =>
    have returned : result = ⟨some (some .eio), [], []⟩ := by
      unfold result morseYapsHwReadPkts
      rw [if_neg some_slots, calculated]
    rw [returned]
    refine ⟨by simp, covers_of_no_window ?_⟩
    intro bytes found
    cases found
  | some bytes =>
    cases bytes with
    | zero =>
      have returned : result = ⟨some none, [], []⟩ := by
        unfold result morseYapsHwReadPkts
        rw [calculated]
        rfl
      rw [returned]
      refine ⟨by simp, covers_of_no_window ?_⟩
      rintro _ ⟨⟩ _ _
      exact windowClear_nil
    | succ bytes =>
      cases taken : env.locked with
      | true =>
        have returned : result = ⟨some (some .eperm), [], []⟩ := by
          unfold result morseYapsHwReadPkts
          rw [if_neg some_slots, calculated]
          simp only [taken, if_true]
        rw [returned]
        refine ⟨by simp, covers_of_no_window ?_⟩
        rintro _ _ ⟨⟩
      | false =>
        cases failed : env.windowError with
        | some error =>
          have returned : result = ⟨some (some error), [], []⟩ := by
            unfold result morseYapsHwReadPkts
            rw [if_neg some_slots, calculated]
            simp only [taken, failed, Bool.false_eq_true, if_false]
          rw [returned]
          have nothing : (ReadResult.mk (some (some error)) [] []).handled = [] := by
            simp only [ReadResult.handled]
            split <;> rfl
          rw [nothing]
          refine ⟨by simp, covers_of_no_window ?_⟩
          rintro _ _ _ ⟨⟩
        | none =>
          have wordsRead : 4 ∣ (segment env.stream 0 (windowLen (bytes + 1))).length := by
            rw [length_segment]
            exact words_windowLen words calculated
          obtain ⟨noFault, covers⟩ := @readLoop_covers crc7BeByte aux env
            (segment env.stream 0 (windowLen (bytes + 1))) env.stale
            (windowLen (bytes + 1)) maxPktsPerRxTxn aligned wordsRead
          rw [length_segment] at noFault covers
          have returned : result = (readLoop crc7BeByte aux env (windowLen (bytes + 1))
              maxPktsPerRxTxn 0 (segment env.stream 0 (windowLen (bytes + 1)) ++ env.stale)
              (windowLen (bytes + 1))).toRead
                (bytes + 1) (segment env.stream 0 (windowLen (bytes + 1))) := by
            unfold result morseYapsHwReadPkts
            rw [calculated]
            simp only [taken, failed, Bool.false_eq_true, if_false]
            rfl
          obtain ⟨returns, handled⟩ := @handled_toRead _ (bytes + 1)
            (segment env.stream 0 (windowLen (bytes + 1))) noFault
          rw [returned]
          refine ⟨returns, ?_⟩
          rw [handled]
          refine ⟨covers.isPrefix, covers.all_iff.trans ?_⟩
          constructor
          · rintro clear _ ⟨⟩ _ _
            exact clear
          · exact fun clear => clear (bytes + 1) rfl rfl rfl

/-- The receive handler loses no frame exactly when the window that it reads, if
it comes to read one, is clear. -/
theorem losesNoFrame_iff (crc7BeByte : BitVec 8 → Octet → BitVec 8)
    (aux : AuxData) (statusLocked : Bool) (polls : List (Except Errno StatusRegisters))
    (readEnv : ReadEnv) (env : RxEnv) (receiver : Receiver) (words : WordStream aux polls)
    (fresh : Fresh env receiver 0) :
    let result :=
      morseYapsRxHandler crc7BeByte aux statusLocked polls readEnv env receiver
    result.more ≠ none ∧
      (LosesNoFrame crc7BeByte aux env result ↔
        HandlerClear crc7BeByte aux statusLocked polls readEnv) := by
  intro result
  rcases status : morseYapsHwUpdateStatus aux statusLocked polls with ⟨failed, updated⟩
  cases failed with
  | some error =>
    unfold result morseYapsRxHandler
    rw [status]
    refine ⟨by simp, ?_, ?_⟩
    · intro _ later bytes succeeds
      rw [status] at succeeds
      cases succeeds
    · intro _ index pkt found
      have nothing : consumedPackets crc7BeByte aux [] = [] := rfl
      rw [nothing] at found
      simp at found
  | none =>
    obtain ⟨regs, polled, rfl⟩ := updateStatus_eq_none status
    obtain ⟨returns, covers⟩ := @readPkts_covers crc7BeByte { aux with statusRegs := regs }
      readEnv words.reserved (words.bytes regs polled)
    unfold result morseYapsRxHandler
    rw [status]
    refine ⟨by simpa using returns, ?_⟩
    have settled := losesNoFrame_iff_of_covers covers fresh
    refine settled.trans ?_
    constructor
    · intro clear later bytes succeeds
      rw [status] at succeeds
      cases succeeds
      exact clear bytes
    · intro clear bytes
      exact clear _ bytes status

end Handler

/-! ## Two packets in the queue -/

/-- A stream of two packets of four octets, from the queue for received frames. -/
def twoPackets : List Octet :=
  cpuToLe32 (morseYapsDelimiter crc7BeByteBitwise (idleAux 0) 4 4 false) ++ [0xAA, 0xFE, 0, 0] ++
    cpuToLe32 (morseYapsDelimiter crc7BeByteBitwise (idleAux 0) 4 4 false) ++ [0xAB, 0xFE, 0, 0]

/-- Registers that announce them. -/
def twoPacketsRegisters : StatusRegisters :=
  { idleRegisters with fcNumPkts := 2, fcRxBytesInQueue := 16 }

/-- A bus that delivers them, with memory for so many. -/
def twoPacketsEnv (memory : Nat) : ReadEnv :=
  { readyEnv with
    stream := fun index => twoPackets.getD index 0
    allocates := fun index => decide (index < memory) }

/-- Buffers numbered by their allocation, checksums switched off. -/
def plainRxEnv : RxEnv where
  address := id
  beyond := fun _ => 0
  validateSkbChecksum := false
  checksumValid := fun _ => true

/-- A receiver that has no frame. -/
def emptyReceiver : Receiver where
  dataRxQ := .init .toHost
  cmdRespQ := .init .toHost
  freed := []

theorem losesNoFrame_iff_twoPackets :
    LosesNoFrame crc7BeByteBitwise (idleAux 0) plainRxEnv
      (morseYapsRxHandler crc7BeByteBitwise (idleAux 0) false [.ok twoPacketsRegisters]
        (twoPacketsEnv 2) plainRxEnv emptyReceiver) := by
  refine (losesNoFrame_iff crc7BeByteBitwise (idleAux 0) false [.ok twoPacketsRegisters]
    (twoPacketsEnv 2) plainRxEnv emptyReceiver ⟨by decide, ?_⟩
    ⟨Function.injective_id, fun _ _ => rfl⟩).2.mpr ?_
  · intro regs polled
    cases List.mem_singleton.mp polled
    decide
  · intro updated bytes succeeds calculated _ _
    cases succeeds
    cases calculated
    decide +kernel

theorem not_losesNoFrame_of_noMemory :
    ¬ LosesNoFrame crc7BeByteBitwise (idleAux 0) plainRxEnv
      (morseYapsRxHandler crc7BeByteBitwise (idleAux 0) false [.ok twoPacketsRegisters]
        (twoPacketsEnv 1) plainRxEnv emptyReceiver) := by
  intro losesNone
  have disposed := losesNone 0 ⟨[0xAA, 0xFE, 0, 0], 4⟩ (by decide +kernel)
  have untouched : (morseYapsRxHandler crc7BeByteBitwise (idleAux 0) false
      [.ok twoPacketsRegisters] (twoPacketsEnv 1) plainRxEnv emptyReceiver).receiver.tally
        (plainRxEnv.address 0) = 0 := by
    decide +kernel
  rw [disposed.once] at untouched
  cases untouched

end Yaps
end Morse
