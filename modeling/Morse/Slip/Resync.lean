import Morse.Slip.Defs

/-!
# Frames come through whatever came before

Every result of the receiver but `inProgress` leaves it, once reset, at the start of a frame.  So
does the octet that opens a frame, whatever state garbage left behind: an escape that was not
finished is an error, octets that were not ended become a packet of their own.  From the start of
a frame, the octets of a packet are received as that packet.
-/

namespace Morse
namespace Slip

open Lib

/-- The octets that one octet of a packet is sent as. -/
def escaped (c : Octet) : List Octet :=
  if c = frameEsc then [frameEsc, frameEscEsc]
  else if c = frameEnd then [frameEsc, frameEscEnd]
  else [c]

/-! ## What is sent -/

theorem txOctet_sendAll (c : Octet) (sent : List Octet) :
    txOctet sendAll c sent = (0, sent ++ escaped c) := by
  rw [txOctet, escaped]
  split
  · simp [sendAll]
  · split
    · simp [sendAll]
    · rfl

theorem txLoop_sendAll (packet sent : List Octet) :
    txLoop sendAll packet (0, sent) = (0, sent ++ packet.flatMap escaped) := by
  induction packet generalizing sent with
  | nil => rw [txLoop, List.flatMap_nil, List.append_nil]
  | cons c rest ih =>
    rw [txLoop, txOctet_sendAll, ih, List.flatMap_cons, List.append_assoc]

theorem encoded_eq (packet : List Octet) :
    encoded packet = frameEnd :: (packet.flatMap escaped ++ [frameEnd]) := by
  rw [encoded, tx, txLoop_sendAll]
  rfl

/-! ## The buffer -/

/-- What holds of the receiver: it has no more octets than the buffer takes, and nothing is
changed behind the buffer. -/
structure RxState.Inside (memory : Nat → Octet) (limit : Nat) (state : RxState) : Prop where
  size : state.bufferLength = limit
  fits : state.length ≤ limit
  kept : ∀ place, limit ≤ place → state.buffer place = memory place

section Buffer

variable {memory : Nat → Octet} {limit : Nat} {state : RxState}

theorem RxState.Inside.init (memory : Nat → Octet) (limit : Nat) :
    (RxState.init memory limit).Inside memory limit :=
  ⟨rfl, Nat.zero_le _, fun _ _ => rfl⟩

theorem RxState.Inside.reset (inside : state.Inside memory limit) :
    (rxStateReset state).Inside memory limit :=
  ⟨inside.size, Nat.zero_le _, inside.kept⟩

theorem RxState.Inside.append (inside : state.Inside memory limit) (c : Octet) :
    (rxAppend state c).2.Inside memory limit := by
  have short := inside.fits
  have same := inside.size
  rw [rxAppend]
  split
  · exact ⟨inside.size, inside.fits, inside.kept⟩
  · next room =>
      refine ⟨inside.size, by dsimp only; omega, fun place behind => ?_⟩
      dsimp only
      rw [overwrite_apart (Or.inl (by simp only [List.length_singleton]; omega))]
      exact inside.kept place behind

theorem RxState.Inside.rx (inside : state.Inside memory limit) (c : Octet) :
    (rx state c).2.Inside memory limit := by
  rw [Slip.rx]
  split
  · split
    · exact inside.reset
    · split
      · exact inside
      · exact ⟨inside.size, inside.fits, inside.kept⟩
  · split
    · have unescaped : ({ state with escape := false } : RxState).Inside memory limit :=
        ⟨inside.size, inside.fits, inside.kept⟩
      split
      · exact unescaped.append frameEnd
      · split
        · exact unescaped.append frameEsc
        · exact unescaped.reset
    · split
      · exact ⟨inside.size, inside.fits, inside.kept⟩
      · split
        · exact inside.append c
        · exact inside

theorem RxState.Inside.drive (inside : state.Inside memory limit) (moves : List Move) :
    (drive state moves).Inside memory limit := by
  induction moves generalizing state with
  | nil => exact inside
  | cons move rest ih =>
    cases move with
    | octet c => exact ih (inside.rx c)
    | reset => exact ih inside.reset

theorem RxState.Inside.receive (inside : state.Inside memory limit) (c : Octet) :
    (receive state c).2.Inside memory limit := by
  rw [Slip.receive]
  dsimp only
  split
  · exact inside.rx c
  · exact (inside.rx c).reset

theorem RxState.Inside.receiveAll (inside : state.Inside memory limit) (stream : List Octet) :
    (receiveAll state stream).2.Inside memory limit := by
  induction stream generalizing state with
  | nil => exact inside
  | cons c rest ih => exact ih (inside.receive c)

end Buffer

/-! ## Frames -/

/-- The receiver is in a frame, of which it has these octets. -/
structure RxState.Receiving (limit : Nat) (octets : List Octet) (state : RxState) : Prop where
  size : state.bufferLength = limit
  escape : state.escape = false
  started : state.frameStarted = true
  count : state.length = octets.length
  packet : state.packet = octets

/-- The packet that the end of a frame makes of what came before it. -/
def RxState.unfinished (state : RxState) : List (List Octet) :=
  if state.escape = false ∧ 0 < state.length then [state.packet] else []

section Frames

theorem receiveAll_append (state : RxState) (first second : List Octet) :
    receiveAll state (first ++ second) =
      ((receiveAll state first).1 ++ (receiveAll (receiveAll state first).2 second).1,
        (receiveAll (receiveAll state first).2 second).2) := by
  induction first generalizing state with
  | nil => rfl
  | cons c rest ih =>
    simp only [List.cons_append, receiveAll, ih]

variable {limit : Nat} {octets : List Octet} {state : RxState}

theorem receiving_reset (same : state.bufferLength = limit) :
    (rxStateReset state).Receiving limit [] :=
  ⟨same, rfl, rfl, rfl, rfl⟩

theorem RxState.Receiving.append (receiving : state.Receiving limit octets)
    (room : octets.length < limit) (c : Octet) :
    (rxAppend state c).1 = .inProgress ∧
      (rxAppend state c).2.Receiving limit (octets ++ [c]) := by
  have length := receiving.count
  have same := receiving.size
  have free : state.length ≠ state.bufferLength := by omega
  rw [rxAppend, if_neg free]
  refine ⟨rfl, receiving.size, receiving.escape, receiving.started, ?_, ?_⟩
  · rw [List.length_append, List.length_singleton, ← length]
  · have behind := segment_overwrite_self state.buffer state.length [c]
    have before := segment_overwrite_before state.buffer state.length [c]
    rw [List.length_singleton] at behind
    rw [RxState.packet, segment_add, Nat.zero_add, behind, before, ← RxState.packet,
      receiving.packet]

theorem RxState.Receiving.escaped (receiving : state.Receiving limit octets)
    (room : octets.length < limit) (c : Octet) :
    (∀ result ∈ (receiveAll state (escaped c)).1, result.1 = .inProgress) ∧
      (receiveAll state (escaped c)).2.Receiving limit (octets ++ [c]) := by
  have escape := receiving.escape
  have started := receiving.started
  have plain : { state with escape := false } = state := by rw [← escape]
  obtain ⟨status, appended⟩ := receiving.append room c
  rw [Slip.escaped]
  split
  · next same =>
      subst same
      have first : receive state frameEsc =
          ((.inProgress, state.packet), { state with escape := true }) := by
        simp [receive, rx, frameEsc, frameEnd, escape, RxState.packet]
      have second : receive { state with escape := true } frameEscEsc =
          ((.inProgress, (rxAppend state frameEsc).2.packet), (rxAppend state frameEsc).2) := by
        simp [receive, rx, frameEscEsc, frameEscEnd, frameEnd, plain, status]
      simp only [receiveAll, first, second]
      exact ⟨by simp, appended⟩
  · split
    · next same =>
        subst same
        have first : receive state frameEsc =
            ((.inProgress, state.packet), { state with escape := true }) := by
          simp [receive, rx, frameEsc, frameEnd, escape, RxState.packet]
        have second : receive { state with escape := true } frameEscEnd =
            ((.inProgress, (rxAppend state frameEnd).2.packet),
              (rxAppend state frameEnd).2) := by
          have other : frameEscEnd ≠ frameEnd := by decide
          simp [receive, rx, other, plain, status]
        simp only [receiveAll, first, second]
        exact ⟨by simp, appended⟩
    · next unescaped unended =>
        have only : receive state c =
            ((.inProgress, (rxAppend state c).2.packet), (rxAppend state c).2) := by
          simp [receive, rx, unescaped, unended, escape, started, status]
        simp only [receiveAll, only]
        exact ⟨by simp, appended⟩

theorem RxState.Receiving.packets (receiving : state.Receiving limit octets)
    (room : octets.length + rest.length ≤ limit) :
    (∀ result ∈ (receiveAll state (rest.flatMap Slip.escaped)).1, result.1 = .inProgress) ∧
      (receiveAll state (rest.flatMap Slip.escaped)).2.Receiving limit (octets ++ rest) := by
  induction rest generalizing state octets with
  | nil => exact ⟨by simp [receiveAll], by rwa [List.append_nil]⟩
  | cons c rest ih =>
    rw [List.length_cons] at room
    obtain ⟨quiet, first⟩ := receiving.escaped (by omega) c
    have enough : (octets ++ [c]).length + rest.length ≤ limit := by
      rw [List.length_append, List.length_singleton]
      omega
    obtain ⟨others, last⟩ := ih first enough
    rw [List.flatMap_cons, receiveAll_append]
    refine ⟨fun result found => ?_, by simpa using last⟩
    rcases List.mem_append.mp found with early | late
    · exact quiet result early
    · exact others result late

theorem RxState.Receiving.receive_frameEnd (receiving : state.Receiving limit octets)
    (nonempty : octets ≠ []) :
    receive state frameEnd = ((.complete, octets), rxStateReset state) := by
  have escape := receiving.escape
  have positive : 0 < state.length := by
    rw [receiving.count]
    exact List.length_pos_of_ne_nil nonempty
  simp [receive, rx, escape, positive, receiving.packet]

theorem receive_frameEnd (same : state.bufferLength = limit) :
    (receive state frameEnd).2.Receiving limit [] ∧
      delivered [(receive state frameEnd).1] = state.unfinished := by
  rcases escape : state.escape with _ | _
  · by_cases positive : 0 < state.length
    · have complete : receive state frameEnd = ((.complete, state.packet), rxStateReset state) := by
        simp [receive, rx, escape, positive]
      rw [complete]
      exact ⟨receiving_reset same, by simp [delivered, RxState.unfinished, escape, positive]⟩
    · have empty : state.length = 0 := by omega
      have opened : receive state frameEnd =
          ((.inProgress, state.packet), { state with frameStarted := true }) := by
        simp [receive, rx, escape, empty, RxState.packet]
      rw [opened]
      refine ⟨⟨same, escape, rfl, empty, ?_⟩, ?_⟩
      · simp [RxState.packet, empty]
      · simp [delivered, RxState.unfinished, empty]
  · have error : receive state frameEnd = ((.error, []), rxStateReset state) := by
      simp [receive, rx, escape, RxState.packet, rxStateReset]
    rw [error]
    exact ⟨receiving_reset same, by simp [delivered, RxState.unfinished, escape]⟩

theorem delivered_append (first second : List (RxStatus × List Octet)) :
    delivered (first ++ second) = delivered first ++ delivered second :=
  List.filterMap_append

theorem delivered_of_inProgress (quiet : ∀ result ∈ results, result.1 = .inProgress) :
    delivered results = [] := by
  rw [delivered, List.filterMap_eq_nil_iff]
  intro result found
  rw [quiet result found, if_neg (by decide)]

theorem RxState.Receiving.unfinished (receiving : state.Receiving limit []) :
    state.unfinished = [] := by
  have empty : ¬0 < state.length := by
    rw [receiving.count]
    exact Nat.lt_irrefl 0
  rw [RxState.unfinished, if_neg fun both => empty both.2]

theorem receiveAll_encoded (same : state.bufferLength = limit) (nonempty : packet ≠ [])
    (room : packet.length ≤ limit) :
    (receiveAll state (encoded packet)).1.getLast? = some (.complete, packet) ∧
      delivered (receiveAll state (encoded packet)).1 = state.unfinished ++ [packet] ∧
      (receiveAll state (encoded packet)).2.Receiving limit [] := by
  obtain ⟨opened, before⟩ := receive_frameEnd same
  have enough : ([] : List Octet).length + packet.length ≤ limit := by
    rwa [List.length_nil, Nat.zero_add]
  obtain ⟨quiet, received⟩ := opened.packets enough
  have ended := received.receive_frameEnd nonempty
  have whole : receiveAll state (encoded packet) =
      ((receive state frameEnd).1 ::
        ((receiveAll (receive state frameEnd).2 (packet.flatMap Slip.escaped)).1 ++
          [(.complete, packet)]),
        rxStateReset (receiveAll (receive state frameEnd).2
          (packet.flatMap Slip.escaped)).2) := by
    simp only [encoded_eq, receiveAll, receiveAll_append, ended, List.nil_append]
  rw [whole]
  refine ⟨?_, ?_, receiving_reset received.size⟩
  · rw [← List.cons_append, List.getLast?_append, List.getLast?_singleton, Option.some_or]
  · rw [← List.singleton_append, delivered_append, delivered_append, before,
      delivered_of_inProgress quiet]
    rfl

theorem delivered_encoded (same : state.bufferLength = limit)
    (nonempty : ∀ packet ∈ packets, packet ≠ []) (room : ∀ packet ∈ packets, packet.length ≤ limit)
    (quiet : packets = [] → state.unfinished = []) :
    delivered (receiveAll state (packets.flatMap encoded)).1 =
      state.unfinished ++ packets := by
  induction packets generalizing state with
  | nil => rw [quiet rfl]; rfl
  | cons packet rest ih =>
    obtain ⟨-, first, opened⟩ := receiveAll_encoded same
      (nonempty packet List.mem_cons_self) (room packet List.mem_cons_self)
    have others := ih opened.size
      (fun other found => nonempty other (List.mem_cons_of_mem _ found))
      (fun other found => room other (List.mem_cons_of_mem _ found))
      fun _ => opened.unfinished
    rw [List.flatMap_cons, receiveAll_append, delivered_append, first, others,
      opened.unfinished, List.nil_append, List.append_assoc, List.singleton_append]

end Frames

/--
Whatever octets the receiver was given before, and however often it was reset, nothing is
changed behind its buffer.  The last octet of the frame of a packet then says that the packet
is complete, with that packet in the buffer, and frames one after the other deliver their
packets in order: nothing is lost, and nothing is added but, in front, what the octets before
the first frame began and did not end.
-/
theorem receiveAll_resync (memory : Nat → Octet) (limit : Nat) (garbage : List Octet)
    (packet : List Octet) (packets : List (List Octet))
    (nonempty : ∀ each ∈ packet :: packets, each ≠ [])
    (room : ∀ each ∈ packet :: packets, each.length ≤ limit) :
    let start := (receiveAll (.init memory limit) garbage).2
    (receiveAll start (encoded packet)).1.getLast? = some (.complete, packet) ∧
      delivered (receiveAll start ((packet :: packets).flatMap encoded)).1 =
        start.unfinished ++ packet :: packets ∧
      delivered (receiveAll (.init memory limit) ((packet :: packets).flatMap encoded)).1 =
        packet :: packets ∧
      ∀ moves place, limit ≤ place →
        (drive (.init memory limit) moves).buffer place = memory place := by
  have same : (receiveAll (.init memory limit) garbage).2.bufferLength = limit :=
    ((RxState.Inside.init memory limit).receiveAll garbage).size
  refine ⟨?_, ?_, ?_, fun moves place behind => ?_⟩
  · exact (receiveAll_encoded same (nonempty packet List.mem_cons_self)
      (room packet List.mem_cons_self)).1
  · exact delivered_encoded same nonempty room (fun none => by cases none)
  · exact delivered_encoded rfl nonempty room (fun none => by cases none)
  · exact ((RxState.Inside.init memory limit).drive moves).kept place behind

theorem receiveAll_resync_escape :
    let start := (receiveAll (.init (fun _ => 0) 3) [1, frameEsc]).2
    (receiveAll start (encoded [frameEnd, 7])).1.getLast? =
        some (.complete, [frameEnd, 7]) ∧
      delivered (receiveAll start ([[frameEnd, 7], [frameEsc]].flatMap encoded)).1 =
        start.unfinished ++ [[frameEnd, 7], [frameEsc]] ∧
      delivered (receiveAll (.init (fun _ => 0) 3)
        ([[frameEnd, 7], [frameEsc]].flatMap encoded)).1 = [[frameEnd, 7], [frameEsc]] ∧
      ∀ moves place, 3 ≤ place → (drive (.init (fun _ => 0) 3) moves).buffer place = 0 :=
  receiveAll_resync (fun _ => 0) 3 [1, frameEsc] [frameEnd, 7] [[frameEsc]]
    (by decide) (by decide)

end Slip
end Morse
