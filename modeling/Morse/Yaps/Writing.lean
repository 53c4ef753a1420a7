import Morse.Yaps.Reading

/-!
# The windows that the writer sends

The windows given to the bus hold the packets counted as sent, in order and
each packet in one window.  Where all packets pass their checks and the bus
takes every window, these are all packets.
-/

namespace Morse
namespace Yaps

open Lib

variable {crc7BeByte : BitVec 8 → Octet → BitVec 8}

/-- The octets of a packet in the stream: a delimiter, the data, and whatever
the buffer held where the padding is. -/
def IsFrame (crc7BeByte : BitVec 8 → Octet → BitVec 8) (aux : AuxData) (pkt : Pkt)
    (octets : List Octet) : Prop :=
  ∃ (irq : Bool) (padding : List Octet),
    padding.length = yapsCalcPadding pkt.data.length ∧
      octets = cpuToLe32 (morseYapsDelimiter crc7BeByte aux pkt.paddedLen pkt.tcQueue.toNat irq) ++
        (pkt.data ++ padding)

/-- The octets are those of the packets one after the other. -/
inductive Encodes (crc7BeByte : BitVec 8 → Octet → BitVec 8) (aux : AuxData) :
    List Pkt → List Octet → Prop
  | nil : Encodes crc7BeByte aux [] []
  | snoc {pkts : List Pkt} {pkt : Pkt} {octets frame : List Octet} :
      Encodes crc7BeByte aux pkts octets → IsFrame crc7BeByte aux pkt frame →
        Encodes crc7BeByte aux (pkts ++ [pkt]) (octets ++ frame)

theorem Encodes.append (encodes : Encodes crc7BeByte aux first octets)
    (followed : Encodes crc7BeByte aux second others) :
    Encodes crc7BeByte aux (first ++ second) (octets ++ others) := by
  induction followed with
  | nil => rwa [List.append_nil, List.append_nil]
  | snoc _ frame ih =>
    rw [← List.append_assoc, ← List.append_assoc]
    exact ih.snoc frame

theorem Encodes.length_le (encodes : Encodes crc7BeByte aux pkts octets) :
    pkts.length ≤ octets.length := by
  induction encodes with
  | nil => exact Nat.le_refl 0
  | snoc _ frame ih =>
    obtain ⟨irq, padding, -, rfl⟩ := frame
    simp only [List.length_append, List.length_cons, List.length_nil, cpuToLe32]
    omega

/-- The windows hold these groups of packets. -/
abbrev EncodesEach (crc7BeByte : BitVec 8 → Octet → BitVec 8) (aux : AuxData)
    (groups : List (List Pkt)) (windows : List (List Octet)) : Prop :=
  List.Forall₂ (Encodes crc7BeByte aux) groups windows

theorem EncodesEach.flatten (each : EncodesEach crc7BeByte aux groups windows) :
    Encodes crc7BeByte aux groups.flatten windows.flatten := by
  induction each with
  | nil => exact .nil
  | cons first _ ih =>
    exact first.append ih

theorem IsFrame.congr (frame : IsFrame crc7BeByte aux pkt octets)
    (same : other.reservedYapsPageSize = aux.reservedYapsPageSize) :
    IsFrame crc7BeByte other pkt octets := by
  obtain ⟨irq, padding, length, rfl⟩ := frame
  refine ⟨irq, padding, length, ?_⟩
  simp only [morseYapsDelimiter, same]

/-! ## The writer's variables -/

/-- What the chip has taken: groups of packets, counted as sent. -/
structure Sent (crc7BeByte : BitVec 8 → Octet → BitVec 8) (aux : AuxData) (writer : Writer)
    (groups : List (List Pkt)) : Prop where
  reserved : writer.aux.reservedYapsPageSize = aux.reservedYapsPageSize
  windows : EncodesEach crc7BeByte aux groups writer.written
  windows_le : ∀ window ∈ writer.written, window.length ≤ yapsHwWindowSizeBytes
  count : writer.numPktsSent = groups.flatten.length

/-- What waits in the batch. -/
structure Batch (crc7BeByte : BitVec 8 → Octet → BitVec 8) (aux : AuxData) (writer : Writer)
    (pending : List Pkt) : Prop where
  octets : Encodes crc7BeByte aux pending (segment writer.toChipBuffer 0 writer.batchTxnLen)
  length_le : writer.batchTxnLen ≤ yapsHwWindowSizeBytes
  count : writer.pktsPending = pending.length

theorem reserved_of_willFit (aux : AuxData) (pkt : Pkt) :
    (morseYapsWillFit aux pkt).2.reservedYapsPageSize = aux.reservedYapsPageSize := by
  simp only [morseYapsWillFit]
  split
  · rfl
  split
  · rfl
  · rfl

theorem reserved_of_errCheck (aux : AuxData) (pkt : Pkt) :
    (morseYapsHwWritePktErrCheck aux pkt).2.reservedYapsPageSize = aux.reservedYapsPageSize := by
  have kept := reserved_of_willFit aux pkt
  unfold morseYapsHwWritePktErrCheck
  split
  · rfl
  split
  · rfl
  rcases willFit : morseYapsWillFit aux pkt with ⟨fits, charged⟩
  rw [willFit] at kept
  cases fits with
  | false => exact kept
  | true => exact kept

theorem errCheck_eq_none (accepted : (morseYapsHwWritePktErrCheck aux pkt).1 = none) :
    pkt.data.length + aux.reservedYapsPageSize.toNat ≤ yapsMaxPktSizeBytes := by
  unfold morseYapsHwWritePktErrCheck at accepted
  split at accepted
  · cases accepted
  · next small => exact Nat.not_lt.mp small

/-- The packets pass their checks, each with the pools as the checks before it
left them. -/
def Accepted : AuxData → List Pkt → Prop
  | _, [] => True
  | aux, pkt :: rest =>
    (morseYapsHwWritePktErrCheck aux pkt).1 = none ∧
      Accepted (morseYapsHwWritePktErrCheck aux pkt).2 rest

/-- No write to come fails. -/
def Writer.Undisturbed (writer : Writer) : Prop := ∀ outcome ∈ writer.outcomes, outcome = none

theorem txLen_le {aux : AuxData} {pkt : Pkt}
    (small : pkt.data.length + aux.reservedYapsPageSize.toNat ≤ yapsMaxPktSizeBytes) :
    pkt.txLen ≤ yapsHwWindowSizeBytes := by
  unfold yapsMaxPktSizeBytes at small
  unfold Pkt.txLen Pkt.paddedLen sizeofDelim yapsHwWindowSizeBytes yapsCalcPadding
  split <;> omega

/-! ## One packet -/

section Step

variable {aux : AuxData} {writer : Writer} {groups : List (List Pkt)} {pending : List Pkt}
  {pkt : Pkt}

theorem Sent.congr (sent : Sent crc7BeByte aux writer groups)
    (reserved : other.aux.reservedYapsPageSize = writer.aux.reservedYapsPageSize)
    (written : other.written = writer.written) (count : other.numPktsSent = writer.numPktsSent) :
    Sent crc7BeByte aux other groups where
  reserved := reserved.trans sent.reserved
  windows := written ▸ sent.windows
  windows_le := written ▸ sent.windows_le
  count := count.trans sent.count

theorem Batch.append (sent : Sent crc7BeByte aux writer groups)
    (batch : Batch crc7BeByte aux writer pending)
    (room : writer.batchTxnLen + pkt.txLen ≤ yapsHwWindowSizeBytes) :
    Batch crc7BeByte aux (writer.append crc7BeByte pkt) (pending ++ [pkt]) := by
  refine ⟨?_, room, ?_⟩
  · have length (delim : BitVec 32) :
        pkt.txLen = (cpuToLe32 delim ++ pkt.data).length + yapsCalcPadding pkt.data.length := by
      rw [List.length_append, Pkt.txLen, Pkt.paddedLen]
      simp only [cpuToLe32, List.length_cons, List.length_nil, sizeofDelim]
      omega
    unfold Writer.append
    rw [length, segment_overwrite]
    refine batch.octets.snoc (IsFrame.congr ?_ sent.reserved.symm)
    exact ⟨_, _, length_segment _ _ _, rfl⟩
  · rw [List.length_append, ← batch.count]
    rfl

theorem Sent.append (sent : Sent crc7BeByte aux writer groups) :
    Sent crc7BeByte aux (writer.append crc7BeByte pkt) groups :=
  sent.congr rfl rfl rfl

theorem Sent.dmWrite (sent : Sent crc7BeByte aux writer groups)
    (batch : Batch crc7BeByte aux writer pending) (taken : writer.dmWrite.1 = none) :
    EncodesEach crc7BeByte aux (groups ++ [pending]) writer.dmWrite.2.written ∧
      ∀ window ∈ writer.dmWrite.2.written, window.length ≤ yapsHwWindowSizeBytes := by
  unfold Writer.dmWrite at taken ⊢
  split
  · next failed =>
      rw [failed] at taken
      cases taken
  · refine ⟨List.rel_append sent.windows (.cons batch.octets .nil), ?_⟩
    intro window member
    rcases List.mem_append.mp member with earlier | last
    · exact sent.windows_le window earlier
    · rw [List.mem_singleton.mp last, length_segment]
      exact batch.length_le

theorem dmWrite_frame (writer : Writer) :
    writer.dmWrite.2.aux = writer.aux ∧ writer.dmWrite.2.toChipBuffer = writer.toChipBuffer ∧
      writer.dmWrite.2.batchTxnLen = writer.batchTxnLen ∧
      writer.dmWrite.2.pktsPending = writer.pktsPending ∧
      writer.dmWrite.2.numPktsSent = writer.numPktsSent ∧
      (writer.dmWrite.1 ≠ none → writer.dmWrite.2.written = writer.written) ∧
      (writer.Undisturbed → writer.dmWrite.1 = none ∧ writer.dmWrite.2.Undisturbed) := by
  unfold Writer.dmWrite Writer.Undisturbed
  cases found : writer.outcomes with
  | nil => simp
  | cons outcome rest =>
    cases outcome with
    | none => simp
    | some error => simp

theorem makeRoom_sent (sent : Sent crc7BeByte aux writer groups)
    (batch : Batch crc7BeByte aux writer pending) (short : pkt.txLen ≤ yapsHwWindowSizeBytes) :
    (∃ later waiting, Sent crc7BeByte aux (writer.makeRoom pkt).2 later ∧
      later.flatten ++ waiting = groups.flatten ++ pending ∧
      ((writer.makeRoom pkt).1 = none → Batch crc7BeByte aux (writer.makeRoom pkt).2 waiting ∧
        (writer.makeRoom pkt).2.batchTxnLen + pkt.txLen ≤ yapsHwWindowSizeBytes) ∧
      ((writer.makeRoom pkt).1 ≠ none → (writer.makeRoom pkt).2.batchTxnLen = 0)) ∧
    (writer.makeRoom pkt).2.aux = writer.aux ∧
    (writer.Undisturbed →
      (writer.makeRoom pkt).1 = none ∧ (writer.makeRoom pkt).2.Undisturbed) := by
  obtain ⟨auxKept, bufferKept, -, pendingKept, sentKept, lost, undisturbed⟩ := dmWrite_frame writer
  have taken := sent.dmWrite batch
  unfold Writer.makeRoom
  split
  · rcases written : writer.dmWrite with ⟨outcome, flushed⟩
    rw [written] at auxKept bufferKept pendingKept sentKept lost undisturbed taken
    cases outcome with
    | some error =>
      refine ⟨⟨groups, pending, ?_, rfl, ?_, fun _ => rfl⟩, auxKept, ?_⟩
      · exact sent.congr (by rw [auxKept]) (lost (by simp)) sentKept
      · simp
      · intro calm
        exact absurd (undisturbed calm).1 (by simp)
    | none =>
      obtain ⟨windows, windows_le⟩ := taken rfl
      refine ⟨⟨groups ++ [pending], [], ⟨?_, windows, windows_le, ?_⟩, ?_, ?_, ?_⟩, auxKept, ?_⟩
      · rw [← sent.reserved, ← auxKept]
      · simp only
        rw [sentKept, pendingKept, sent.count, batch.count, List.flatten_append,
          List.length_append, List.flatten_singleton]
      · rw [List.append_nil, List.flatten_append, List.flatten_singleton]
      · intro _
        exact ⟨⟨.nil, Nat.zero_le _, rfl⟩, by simpa using short⟩
      · simp
      · exact undisturbed
  · next room =>
      refine ⟨⟨groups, pending, sent, rfl, fun _ => ⟨batch, Nat.not_lt.mp room⟩, ?_⟩, rfl, ?_⟩
      · simp
      · exact fun calm => ⟨rfl, calm⟩

end Step

/-! ## The loop -/

/-- Where the loop stands when it ends: some packets were taken by the chip,
some wait in the batch unless that was given up, and the rest was not reached.
In a clean run nothing is left out. -/
def LoopEnded (crc7BeByte : BitVec 8 → Octet → BitVec 8) (aux : AuxData) (pkts : List Pkt)
    (clean : Prop) (result : Option Errno × Writer) : Prop :=
  ∃ groups pending rest, Sent crc7BeByte aux result.2 groups ∧
    groups.flatten ++ pending ++ rest = pkts ∧
    (Batch crc7BeByte aux result.2 pending ∨ result.2.batchTxnLen = 0) ∧
    (clean → rest = [] ∧ result.1 = none ∧ Batch crc7BeByte aux result.2 pending ∧
      result.2.Undisturbed)

theorem writeLoop_ended {writer : Writer} {groups : List (List Pkt)} {pending : List Pkt}
    (sent : Sent crc7BeByte aux writer groups) (batch : Batch crc7BeByte aux writer pending)
    (checked : ∀ pkt ∈ todo.head?, pkt.txLen ≤ yapsHwWindowSizeBytes) :
    LoopEnded crc7BeByte aux (groups.flatten ++ pending ++ todo)
      (Accepted writer.aux todo.tail ∧ writer.Undisturbed) (writeLoop crc7BeByte todo writer) := by
  induction todo generalizing writer groups pending with
  | nil =>
    exact ⟨groups, pending, [], sent, rfl, .inl batch, fun clean => ⟨rfl, rfl, batch, clean.2⟩⟩
  | cons pkt todo ih =>
    obtain ⟨⟨later, waiting, laterSent, same, room, noRoom⟩, auxKept, undisturbed⟩ :=
      makeRoom_sent sent batch (checked pkt rfl)
    rcases made : writer.makeRoom pkt with ⟨outcome, ready⟩
    rw [made] at laterSent room noRoom auxKept undisturbed
    rw [← same]
    cases outcome with
    | some error =>
      have failed : writeLoop crc7BeByte (pkt :: todo) writer = (some error, ready) := by
        cases todo <;> simp only [writeLoop, made]
      rw [failed]
      refine ⟨later, waiting, pkt :: todo, laterSent, rfl, .inr (noRoom (by simp)), ?_⟩
      rintro ⟨-, calm⟩
      exact absurd (undisturbed calm).1 (by simp)
    | none =>
      obtain ⟨waits, fits⟩ := room rfl
      cases todo with
      | nil =>
        have flagged : Sent crc7BeByte aux { ready with delimIrq := true } later :=
          laterSent.congr rfl rfl rfl
        have joined : Batch crc7BeByte aux
            ({ ready with delimIrq := true }.append crc7BeByte pkt) (waiting ++ [pkt]) :=
          Batch.append flagged ⟨waits.octets, waits.length_le, waits.count⟩ fits
        simp only [writeLoop, made]
        refine ⟨later, waiting ++ [pkt], [], flagged.append, ?_, .inl joined, ?_⟩
        · rw [List.append_nil, List.append_assoc]
        · exact fun clean => ⟨rfl, rfl, joined, (undisturbed clean.2).2⟩
      | cons next rest =>
        have kept := reserved_of_errCheck ready.aux next
        rcases check : morseYapsHwWritePktErrCheck ready.aux next with ⟨refused, charged⟩
        rw [check] at kept
        have charges (irq : Bool) :
            Sent crc7BeByte aux { ready with aux := charged, delimIrq := irq } later :=
          laterSent.congr kept rfl rfl
        have joined (irq : Bool) : Batch crc7BeByte aux
            ({ ready with aux := charged, delimIrq := irq }.append crc7BeByte pkt)
            (waiting ++ [pkt]) :=
          Batch.append (charges irq) ⟨waits.octets, waits.length_le, waits.count⟩ fits
        have regroup : later.flatten ++ waiting ++ pkt :: next :: rest =
            later.flatten ++ (waiting ++ [pkt]) ++ next :: rest := by
          simp only [List.append_assoc, List.cons_append, List.nil_append]
        rw [regroup]
        cases refused with
        | some error =>
          simp only [writeLoop, made, check]
          refine ⟨later, waiting ++ [pkt], next :: rest, (charges true).append, rfl,
            .inl (joined true), ?_⟩
          rintro ⟨⟨accepted, -⟩, -⟩
          rw [← auxKept, check] at accepted
          cases accepted
        | none =>
          have small : next.txLen ≤ yapsHwWindowSizeBytes := by
            refine txLen_le (@errCheck_eq_none ready.aux next ?_)
            rw [check]
          have others := ih (charges ready.delimIrq).append (joined ready.delimIrq)
            (by
              rintro _ ⟨⟩
              exact small)
          simp only [writeLoop, made, check]
          obtain ⟨final, left, unsent, finalSent, total, standing, clean⟩ := others
          refine ⟨final, left, unsent, finalSent, total, standing, ?_⟩
          rintro ⟨⟨-, accepted⟩, calm⟩
          rw [← auxKept, check] at accepted
          exact clean ⟨accepted, (undisturbed calm).2⟩

/-! ## The call -/

/-- What a call has done: the windows hold a first part of the packets, all of
them counted as sent, and the count is that of a first part of the packets. -/
def Wrote (crc7BeByte : BitVec 8 → Octet → BitVec 8) (aux : AuxData) (pkts : List Pkt)
    (clean : Prop) (result : Option Errno × Writer) : Prop :=
  ∃ groups rest, EncodesEach crc7BeByte aux groups result.2.written ∧
    (∀ window ∈ result.2.written, window.length ≤ yapsHwWindowSizeBytes) ∧
    groups.flatten ++ rest = pkts ∧
    groups.flatten.length ≤ result.2.numPktsSent ∧ result.2.numPktsSent ≤ pkts.length ∧
    (clean → rest = [] ∧ result.1 = none)

theorem writeExit_wrote (ended : LoopEnded crc7BeByte aux pkts clean result) :
    Wrote crc7BeByte aux pkts clean (writeExit result) := by
  obtain ⟨groups, pending, rest, sent, total, standing, whole⟩ := ended
  obtain ⟨ret, writer⟩ := result
  have lengths : groups.flatten.length + pending.length ≤ pkts.length := by
    rw [← total, List.length_append, List.length_append]
    omega
  simp only [writeExit]
  split
  · next positive =>
      have batch : Batch crc7BeByte aux writer pending :=
        standing.resolve_right (Nat.ne_of_gt positive)
      obtain ⟨-, -, -, pendingKept, sentKept, lost, undisturbed⟩ := dmWrite_frame writer
      have taken := sent.dmWrite batch
      have counted : writer.dmWrite.2.numPktsSent + writer.dmWrite.2.pktsPending =
          groups.flatten.length + pending.length := by
        rw [sentKept, pendingKept, sent.count, batch.count]
      cases outcome : writer.dmWrite.1 with
      | some error =>
        refine ⟨groups, pending ++ rest, ?_, ?_, ?_, ?_, ?_, ?_⟩
        · simp only [lost (by rw [outcome]; simp)]
          exact sent.windows
        · simp only [lost (by rw [outcome]; simp)]
          exact sent.windows_le
        · rw [← total, List.append_assoc]
        · simp only [counted]
          omega
        · simp only [counted]
          exact lengths
        · intro isClean
          have ran := (undisturbed (whole isClean).2.2.2).1
          rw [outcome] at ran
          cases ran
      | none =>
        obtain ⟨windows, windows_le⟩ := taken outcome
        have flattened : (groups ++ [pending]).flatten = groups.flatten ++ pending := by
          rw [List.flatten_append, List.flatten_singleton]
        refine ⟨groups ++ [pending], rest, windows, windows_le, ?_, ?_, ?_, ?_⟩
        · rw [flattened, total]
        · rw [flattened, List.length_append]
          exact Nat.le_of_eq counted.symm
        · simp only [counted]
          exact lengths
        · exact fun isClean => ⟨(whole isClean).1, rfl⟩
  · next empty =>
      refine ⟨groups, pending ++ rest, sent.windows, sent.windows_le, ?_,
        Nat.le_of_eq sent.count.symm, ?_, ?_⟩
      · rw [← total, List.append_assoc]
      · exact Nat.le_trans (Nat.le_of_eq sent.count) (by omega)
      · intro isClean
        obtain ⟨unsent, ran, batch, -⟩ := whole isClean
        refine ⟨?_, ran⟩
        have octets := batch.octets.length_le
        rw [length_segment] at octets
        have nothing : pending = [] := List.length_eq_zero_iff.mp (by simp only at octets; omega)
        rw [nothing, unsent, List.nil_append]

theorem writePkts_wrote (crc7BeByte : BitVec 8 → Octet → BitVec 8)
    (aux : AuxData) (toChipBuffer : Nat → Octet) (locked : Bool)
    (outcomes : List (Option Errno)) (slot : Pkt) (pkts : List Pkt) :
    Wrote crc7BeByte aux pkts
      (locked = false ∧ pkts ≠ [] ∧ Accepted aux pkts ∧ ∀ outcome ∈ outcomes, outcome = none)
      (morseYapsHwWritePkts crc7BeByte aux toChipBuffer locked outcomes slot pkts) := by
  have nothing (clean : Prop) (impossible : ¬ clean) (ret : Option Errno) (charged : AuxData) :
      Wrote crc7BeByte aux pkts clean
        (ret, { Writer.start aux toChipBuffer outcomes with aux := charged }) := by
    refine ⟨[], pkts, .nil, ?_, rfl, Nat.le_refl 0, Nat.zero_le _, fun isClean => ?_⟩
    · intro window member
      cases member
    · exact absurd isClean impossible
  simp only [morseYapsHwWritePkts]
  split
  · next taken => exact nothing _ (by simp [taken]) (some .eperm) aux
  · next free =>
      have kept := reserved_of_errCheck aux (pkts.headD slot)
      rcases check : morseYapsHwWritePktErrCheck aux (pkts.headD slot) with ⟨refused, charged⟩
      rw [check] at kept
      cases refused with
      | some error =>
        refine nothing _ ?_ (some error) charged
        rintro ⟨-, nonempty, accepted, -⟩
        cases pkts with
        | nil => exact nonempty rfl
        | cons pkt rest =>
          have passes := accepted.1
          rw [List.headD_cons] at check
          rw [check] at passes
          cases passes
      | none =>
        have sent : Sent crc7BeByte aux
            { Writer.start aux toChipBuffer outcomes with aux := charged } [] :=
          ⟨kept, .nil, (fun _ member => by cases member), rfl⟩
        have batch : Batch crc7BeByte aux
            { Writer.start aux toChipBuffer outcomes with aux := charged } [] :=
          ⟨.nil, Nat.zero_le _, rfl⟩
        have ended := @writeLoop_ended _ aux pkts _ _ _ sent batch (by
          intro pkt first
          refine txLen_le (@errCheck_eq_none aux pkt ?_)
          cases pkts with
          | nil => cases first
          | cons other rest =>
            cases first
            rw [List.headD_cons] at check
            rw [check])
        obtain ⟨groups, left, windows, windows_le, total, sent_le, le_length, whole⟩ :=
          writeExit_wrote ended
        refine ⟨groups, left, windows, windows_le, total, sent_le, le_length, ?_⟩
        rintro ⟨-, nonempty, accepted, calm⟩
        refine whole ⟨?_, calm⟩
        cases pkts with
        | nil => exact absurd rfl nonempty
        | cons pkt rest =>
          have others := accepted.2
          rw [List.headD_cons] at check
          rw [check] at others
          exact others

end Yaps
end Morse
