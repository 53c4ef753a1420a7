import Morse.Yaps.Writing

/-!
# The stream round trip

What the writer puts into its windows, the parsing loop splits into the same
packets.  The one exception is a packet without a single octet to announce: the
reader takes a size of zero for a damaged delimiter.
-/

namespace Morse
namespace Yaps

open Lib

variable {crc7BeByte : BitVec 8 → Octet → BitVec 8} {aux : AuxData} {pkt : Pkt}
  {pkts : List Pkt} {octets : List Octet}

/-- The received packet is the sent one with the padding to a word boundary. -/
def Carries (pkt : Pkt) (received : RxPkt) : Prop :=
  received.fcQueue = pkt.tcQueue.toNat ∧
    ∃ padding : List Octet, padding.length = yapsCalcPadding pkt.data.length ∧
      received.data = pkt.data ++ padding

/-- The parsing loop splits the octets into these packets, whatever lies behind
them in the buffer, if it may receive as many and every allocation succeeds. -/
def Reads (crc7BeByte : BitVec 8 → Octet → BitVec 8) (aux : AuxData) (pkts : List Pkt)
    (octets : List Octet) : Prop :=
  ∃ received, List.Forall₂ Carries pkts received ∧
    ∀ (env : ReadEnv) (window slots : Nat) (stale : List Octet), pkts.length ≤ slots →
      (∀ index, env.allocates index = true) →
      readLoop crc7BeByte aux env window slots 0 (octets ++ stale) octets.length =
        ⟨.left, received, []⟩

/-- The windows are read back as the packets, each by itself and all in one
stream. -/
structure RoundTrips (crc7BeByte : BitVec 8 → Octet → BitVec 8) (aux : AuxData)
    (pkts : List Pkt) (windows : List (List Octet)) : Prop where
  each : ∃ groups : List (List Pkt), groups.flatten = pkts ∧
    List.Forall₂ (Reads crc7BeByte aux) groups windows
  windows_le : ∀ window ∈ windows, window.length ≤ yapsHwWindowSizeBytes
  stream : Reads crc7BeByte aux pkts windows.flatten

/-- The packet and the reserved size are not both empty. -/
def Announced (aux : AuxData) (pkt : Pkt) : Prop :=
  pkt.data.length + aux.reservedYapsPageSize.toNat ≠ 0

instance : Decidable (Announced aux pkt) := inferInstanceAs (Decidable (_ ≠ _))

/-- The packet is as small as the check of the writer asks. -/
def Small (aux : AuxData) (pkt : Pkt) : Prop :=
  pkt.data.length + aux.reservedYapsPageSize.toNat ≤ yapsMaxPktSizeBytes

theorem calcPadding_paddedLen (pkt : Pkt) : yapsCalcPadding pkt.paddedLen = 0 := by
  unfold Pkt.paddedLen yapsCalcPadding
  split <;> split <;> omega

theorem wholePacket_of_isFrame (framed : IsFrame crc7BeByte aux pkt frame)
    (aligned : 4 ∣ aux.reservedYapsPageSize.toNat) (small : Small aux pkt)
    (announced : Announced aux pkt) :
    ∃ received, Carries pkt received ∧
      wholePacket crc7BeByte aux frame = some (received, []) := by
  obtain ⟨irq, padding, length, rfl⟩ := framed
  have queue : pkt.tcQueue.toNat < 8 := by cases pkt.tcQueue <;> decide
  have padded : pkt.paddedLen + aux.reservedYapsPageSize.toNat ≤ yapsMaxPktSizeBytes := by
    unfold Small yapsMaxPktSizeBytes at small
    unfold Pkt.paddedLen yapsCalcPadding yapsMaxPktSizeBytes
    split <;> omega
  have word : yapsCalcPadding (pkt.paddedLen + aux.reservedYapsPageSize.toNat) = 0 := by
    unfold Pkt.paddedLen yapsCalcPadding
    split <;> split <;> omega
  have fits : SizeFits aux pkt.paddedLen := Nat.lt_of_le_of_lt padded (by decide)
  have nonempty : pkt.paddedLen + aux.reservedYapsPageSize.toNat ≠ 0 := by
    unfold Announced at announced
    unfold Pkt.paddedLen
    omega
  obtain ⟨phandle, paddingField, pool, -⟩ :=
    fields_morseYapsDelimiter crc7BeByte fits queue irq
  have valid := isValidDelimiter_morseYapsDelimiter crc7BeByte queue irq
    nonempty padded (calcPadding_paddedLen pkt) word
  generalize morseYapsDelimiter crc7BeByte aux pkt.paddedLen pkt.tcQueue.toNat irq = delim at *
  have nonzero : delim ≠ 0 := by
    rintro rfl
    exact nonempty (phandle.symm.trans rfl)
  have size : yapsDelimGetPktSize aux delim = (pkt.paddedLen : Int) := by
    rw [yapsDelimGetPktSize]
    omega
  have bodyLength : (pkt.data ++ padding).length = pkt.paddedLen := by
    rw [List.length_append, length, Pkt.paddedLen]
  refine ⟨⟨pkt.data ++ padding, pkt.tcQueue.toNat⟩, ⟨rfl, padding, length, rfl⟩, ?_⟩
  unfold wholePacket
  have present : ¬ (cpuToLe32 delim ++ (pkt.data ++ padding)).length < sizeofDelim := by
    simp [cpuToLe32, sizeofDelim]
  have body : (cpuToLe32 delim ++ (pkt.data ++ padding)).drop sizeofDelim = pkt.data ++ padding :=
    List.drop_left' rfl
  rw [if_neg present]
  simp only [le32ToCpu_cpuToLe32, body, size, paddingField, pool, valid, nonzero,
    calcPadding_paddedLen, bodyLength]
  rw [if_neg (by simp), Int.toNat_natCast, ← bodyLength, List.take_length]
  simp only [Int.natCast_zero, Int.add_zero, Int.toNat_natCast, List.drop_length]

theorem frames_of_encodes (encodes : Encodes crc7BeByte aux pkts octets)
    (aligned : 4 ∣ aux.reservedYapsPageSize.toNat)
    (readable : ∀ pkt ∈ pkts, Small aux pkt ∧ Announced aux pkt) :
    ∃ received, List.Forall₂ Carries pkts received ∧
      frames (wholePacket crc7BeByte aux) octets = (received, []) := by
  induction encodes with
  | nil => exact ⟨[], .nil, rfl⟩
  | @snoc pkts pkt octets frame _ framed ih =>
    have earlier : ∀ other ∈ pkts, Small aux other ∧ Announced aux other :=
      fun other member => readable other (List.mem_append_left _ member)
    obtain ⟨small, announced⟩ :=
      readable pkt (List.mem_append_right _ (List.mem_singleton.mpr rfl))
    obtain ⟨received, carried, split⟩ := ih earlier
    obtain ⟨last, carries, found⟩ := wholePacket_of_isFrame framed aligned small announced
    have splitter := @splitter_wholePacket crc7BeByte aux
    refine ⟨received ++ [last], List.rel_append carried (.cons carries .nil), ?_⟩
    rw [frames_append splitter, split, List.nil_append, frames_of_some splitter found]
    rfl

theorem reads_of_encodes (encodes : Encodes crc7BeByte aux pkts octets)
    (aligned : 4 ∣ aux.reservedYapsPageSize.toNat)
    (readable : ∀ pkt ∈ pkts, Small aux pkt ∧ Announced aux pkt) :
    Reads crc7BeByte aux pkts octets := by
  obtain ⟨received, carried, split⟩ := frames_of_encodes encodes aligned readable
  refine ⟨received, carried, fun env window slots stale enough allocated => ?_⟩
  rw [carried.length_eq] at enough
  exact readLoop_of_frames split enough allocated

theorem reads_of_encodesEach (each : EncodesEach crc7BeByte aux groups windows)
    (aligned : 4 ∣ aux.reservedYapsPageSize.toNat)
    (readable : ∀ pkt ∈ groups.flatten, Small aux pkt ∧ Announced aux pkt) :
    List.Forall₂ (Reads crc7BeByte aux) groups windows := by
  induction each with
  | nil => exact .nil
  | cons first _ ih =>
    refine .cons (reads_of_encodes first aligned ?_) (ih ?_)
    · exact fun pkt member => readable pkt (List.mem_append_left _ member)
    · exact fun pkt member => readable pkt (List.mem_append_right _ member)

theorem small_of_accepted (accepted : Accepted aux pkts) :
    ∀ pkt ∈ pkts, Small aux pkt := by
  induction pkts generalizing aux with
  | nil =>
    intro pkt member
    cases member
  | cons first rest ih =>
    obtain ⟨passes, others⟩ := accepted
    intro pkt member
    rcases List.mem_cons.mp member with rfl | later
    · exact errCheck_eq_none passes
    · have small := ih others pkt later
      rw [Small, reserved_of_errCheck] at small
      exact small

/-- Packets that the writer accepts, none of them without an octet to announce,
are read back from its windows: the same packets, in order, on the same queues,
with the same data up to the padding. -/
theorem roundTrips_writePkts (crc7BeByte : BitVec 8 → Octet → BitVec 8)
    (aux : AuxData) (toChipBuffer : Nat → Octet) (slot : Pkt) (pkts : List Pkt)
    (outcomes : List (Option Errno)) (aligned : 4 ∣ aux.reservedYapsPageSize.toNat)
    (accepted : Accepted aux pkts) (announced : ∀ pkt ∈ pkts, Announced aux pkt)
    (undisturbed : ∀ outcome ∈ outcomes, outcome = none) :
    (morseYapsHwWritePkts crc7BeByte aux toChipBuffer false outcomes slot pkts).2.numPktsSent =
        pkts.length ∧
      RoundTrips crc7BeByte aux pkts
        (morseYapsHwWritePkts crc7BeByte aux toChipBuffer false outcomes slot pkts).2.written := by
  obtain ⟨groups, rest, windows, windows_le, total, sent_le, le_length, whole⟩ :=
    writePkts_wrote crc7BeByte aux toChipBuffer false outcomes slot pkts
  have complete : groups.flatten = pkts := by
    cases pkts with
    | nil => exact (List.append_eq_nil_iff.mp total).1
    | cons pkt others =>
      have unsent := (whole ⟨rfl, by simp, accepted, undisturbed⟩).1
      rw [← total, unsent, List.append_nil]
  have readable : ∀ pkt ∈ groups.flatten, Small aux pkt ∧ Announced aux pkt := by
    rw [complete]
    exact fun pkt member => ⟨small_of_accepted accepted pkt member, announced pkt member⟩
  rw [complete] at sent_le
  refine ⟨Nat.le_antisymm le_length sent_le, ⟨groups, complete, ?_⟩, windows_le, ?_⟩
  · exact reads_of_encodesEach windows aligned readable
  · have stream := windows.flatten
    rw [complete] at stream readable
    exact reads_of_encodes stream aligned readable

/-- `crc7_be_byte`, bit by bit: the polynomial is x^7 + x^3 + 1. -/
def crc7BeByteBitwise (crc : BitVec 8) (data : Octet) : BitVec 8 :=
  (List.range 8).foldl
    (fun crc _ => if crc.msb then (crc <<< 1) ^^^ 0x12#8 else crc <<< 1) (crc ^^^ data)

/-- Registers of an idle chip. -/
def idleRegisters : StatusRegisters where
  tcTxPoolNumPages := 20
  tcCmdPoolNumPages := 20
  tcBeaconPoolNumPages := 20
  tcMgmtPoolNumPages := 20
  tcTxNumPkts := 0
  tcCmdNumPkts := 0
  tcBeaconNumPkts := 0
  tcMgmtNumPkts := 0
  fcNumPkts := 0
  fcRxBytesInQueue := 0
  tcDelimCrcFailDetected := 0
  lock := 0

/-- An idle chip that reserves so many octets of a page. -/
def idleAux (reserved : BitVec 16) : AuxData where
  tcTxQSize := 8
  tcCmdQSize := 8
  tcBeaconQSize := 8
  tcMgmtQSize := 8
  reservedYapsPageSize := reserved
  statusRegs := idleRegisters

/-- A packet without an octet of data. -/
def emptyPkt : Pkt where
  data := []
  tcQueue := .txQ
  length_lt := by decide

/-- A command of three octets, which need one of padding. -/
def oddPkt : Pkt where
  data := [1, 2, 3]
  tcQueue := .cmdQ
  length_lt := by decide

theorem roundTrips_writePkts_oddPkt :
    RoundTrips crc7BeByteBitwise (idleAux 8) [oddPkt, emptyPkt]
      (morseYapsHwWritePkts crc7BeByteBitwise (idleAux 8) (fun _ => 0xFF) false [] emptyPkt
        [oddPkt, emptyPkt]).2.written :=
  (roundTrips_writePkts crc7BeByteBitwise (idleAux 8) (fun _ => 0xFF) emptyPkt [oddPkt, emptyPkt]
    [] (by decide) ⟨by decide, by decide, trivial⟩
    (by
      intro pkt member
      simp only [List.mem_cons, List.not_mem_nil, or_false] at member
      rcases member with rfl | rfl
      · decide
      · decide)
    (by simp)).2

/-- A chip that answers every read. -/
def readyEnv : ReadEnv where
  stream := fun _ => 0
  stale := []
  locked := false
  windowError := none
  overhangError := none
  allocates := fun _ => true

theorem not_roundTrips_emptyPkt :
    4 ∣ (idleAux 0).reservedYapsPageSize.toNat ∧ Accepted (idleAux 0) [emptyPkt] ∧
      ¬ RoundTrips crc7BeByteBitwise (idleAux 0) [emptyPkt]
        (morseYapsHwWritePkts crc7BeByteBitwise (idleAux 0) (fun _ => 0) false [] emptyPkt
          [emptyPkt]).2.written := by
  refine ⟨by decide, ⟨by decide, trivial⟩, fun roundTrips => ?_⟩
  obtain ⟨received, carried, reads⟩ := roundTrips.stream
  have found := reads readyEnv 0 1 [] (Nat.le_refl 1) fun _ => rfl
  have rejected : (readLoop crc7BeByteBitwise (idleAux 0) readyEnv 0 1 0
      ((morseYapsHwWritePkts crc7BeByteBitwise (idleAux 0) (fun _ => 0) false [] emptyPkt
        [emptyPkt]).2.written.flatten ++ [])
      ((morseYapsHwWritePkts crc7BeByteBitwise (idleAux 0) (fun _ => 0) false [] emptyPkt
        [emptyPkt]).2.written.flatten.length : Int)).received = [] := by
    decide +kernel
  rw [found] at rejected
  have lengths := carried.length_eq
  rw [show received = [] from rejected] at lengths
  cases lengths

end Yaps
end Morse
