import Mathlib.Logic.Relation
import Morse.Yaps.RoundTrip

/-!
# The memory accesses of the reader

The parsing loop once more, with what it reads from the window buffer and what it copies into the
buffers of the packets.  Lengths are the signed ones of the source, and the kernel's allocator may
grant any size, a negative one too: as an unsigned size that is a small one once the headroom is
added.  Behind the first access that is not safe the record says nothing.
-/

namespace Morse
namespace Yaps

open Lib
open Relation

/-- An access of the reader to the window buffer. -/
inductive Access
  /-- The delimiter at an offset of the buffer. -/
  | fetch (offset : Int)
  /-- `morse_dm_read` to the start of the buffer. -/
  | fill (count : Int)
  /-- `memcpy` from an offset of the buffer to an offset of an `skb` of some length. -/
  | copy (skbLen skbOffset offset count : Int)
  deriving DecidableEq, Repr

/-- The access stays in the window buffer and in the `skb`, and its length is not negative. -/
def Access.Safe : Access → Prop
  | .fetch offset => 0 ≤ offset ∧ offset + sizeofDelim ≤ yapsHwWindowSizeBytes
  | .fill count => 0 ≤ count ∧ count ≤ yapsHwWindowSizeBytes
  | .copy skbLen skbOffset offset count =>
    0 ≤ count ∧ (0 ≤ skbOffset ∧ skbOffset + count ≤ skbLen) ∧
      0 ≤ offset ∧ offset + count ≤ yapsHwWindowSizeBytes

instance : DecidablePred Access.Safe
  | .fetch _ => inferInstanceAs (Decidable (_ ∧ _))
  | .fill _ => inferInstanceAs (Decidable (_ ∧ _))
  | .copy _ _ _ _ => inferInstanceAs (Decidable (_ ∧ _ ∧ _))

section Loop

variable (crc7BeByte : BitVec 8 → Octet → BitVec 8) (aux : AuxData)
variable (allocates : Nat → Int → Bool) (buffer : List Octet)

/-- The parsing loop of `morse_yaps_hw_read_pkts`, with the read pointer as an offset of the
buffer. -/
def readLoopAccesses (overhangError : Option Errno) : Nat → Nat → Int → Int → List Access
  | 0, _, _, _ => []
  | slots + 1, index, readPtr, bytesRemaining =>
    if bytesRemaining ≤ 0 then []
    else
      let delim := le32ToCpu (buffer.drop readPtr.toNat)
      let afterDelim := readPtr + sizeofDelim
      let bytesLeft := bytesRemaining - sizeofDelim
      .fetch readPtr ::
        if delim = 0 then []
        else if !morseYapsIsValidDelimiter crc7BeByte delim then []
        else
          let pktSize := yapsDelimGetPktSize aux delim
          let totalLen := pktSize + yapsDelimGetPadding delim
          if !allocates index pktSize then []
          else if totalLen ≤ bytesLeft then
            .copy pktSize 0 afterDelim pktSize ::
              readLoopAccesses overhangError slots (index + 1) (afterDelim + totalLen)
                (bytesLeft - totalLen)
          else
            .copy pktSize 0 afterDelim bytesLeft :: .fill (totalLen - bytesLeft) ::
              match overhangError with
              | some _ => []
              | none => [.copy pktSize bytesLeft 0 (pktSize - bytesLeft)]

/-! ## Where the delimiters are -/

/-- The delimiter at an offset of the buffer. -/
def delimAt (offset : Nat) : BitVec 32 := le32ToCpu (buffer.drop offset)

/-- The octets of the packet behind a delimiter, without its padding. -/
def pktSizeAt (offset : Nat) : Int := yapsDelimGetPktSize aux (delimAt buffer offset)

/-- The octets of the packet behind a delimiter, with its padding. -/
def totalLenAt (offset : Nat) : Int :=
  pktSizeAt aux buffer offset + yapsDelimGetPadding (delimAt buffer offset)

/-- A delimiter announces a packet, for which there is memory. -/
def Announces (index offset : Nat) : Prop :=
  delimAt buffer offset ≠ 0 ∧
    morseYapsIsValidDelimiter crc7BeByte (delimAt buffer offset) = true ∧
    allocates index (pktSizeAt aux buffer offset) = true

instance (index offset : Nat) :
    Decidable (Announces crc7BeByte aux allocates buffer index offset) :=
  inferInstanceAs (Decidable (_ ∧ _ ∧ _))

/-- A delimiter, given with the number of packets before it, is followed by the next one: its
packet ends within the window. -/
def Follows (window : Nat) (first second : Nat × Nat) : Prop :=
  first.2 < window ∧ Announces crc7BeByte aux allocates buffer first.1 first.2 ∧
    0 ≤ pktSizeAt aux buffer first.2 ∧ second.1 = first.1 + 1 ∧
    (second.2 : Int) = first.2 + sizeofDelim + totalLenAt aux buffer first.2 ∧
    second.2 ≤ window

/-- A delimiter lies in the window buffer; the packet that it announces is no smaller than what
the chip reserves, and if it runs off the window, it does so behind its delimiter and before its
padding. -/
def Fine (window index offset : Nat) : Prop :=
  offset + sizeofDelim ≤ yapsHwWindowSizeBytes ∧
    (Announces crc7BeByte aux allocates buffer index offset →
      0 ≤ pktSizeAt aux buffer offset ∧
        ((window : Int) < offset + sizeofDelim + totalLenAt aux buffer offset →
          offset + sizeofDelim ≤ window ∧
            (window : Int) ≤ offset + sizeofDelim + pktSizeAt aux buffer offset))

end Loop

section Reading

variable {crc7BeByte : BitVec 8 → Octet → BitVec 8} {aux : AuxData}
variable {allocates : Nat → Int → Bool} {buffer : List Octet} {window : Nat}

theorem totalLenAt_le
    (valid : morseYapsIsValidDelimiter crc7BeByte (delimAt buffer offset) = true) :
    totalLenAt aux buffer offset ≤ yapsMaxPktSizeBytes := by
  unfold morseYapsIsValidDelimiter at valid
  split at valid
  · cases valid
  split at valid
  · cases valid
  split at valid
  · cases valid
  · next bounded =>
      unfold totalLenAt pktSizeAt yapsDelimGetPktSize
      omega

variable {index offset : Nat}

theorem readLoopAccesses_of_not_announces (inside : offset < window)
    (silent : ¬Announces crc7BeByte aux allocates buffer index offset)
    (overhangError : Option Errno) (slots : Nat) :
    readLoopAccesses crc7BeByte aux allocates buffer overhangError (slots + 1) index offset
      (window - offset : Int) = [.fetch offset] := by
  have positive : ¬(window - offset : Int) ≤ 0 := by omega
  rw [readLoopAccesses, if_neg positive]
  dsimp only
  rw [Int.toNat_natCast]
  by_cases zero : le32ToCpu (buffer.drop offset) = 0
  · rw [if_pos zero]
  rw [if_neg zero]
  cases valid : morseYapsIsValidDelimiter crc7BeByte (le32ToCpu (buffer.drop offset)) with
  | false => rw [Bool.not_false, if_pos rfl]
  | true =>
    cases granted : allocates index (yapsDelimGetPktSize aux (le32ToCpu (buffer.drop offset)))
      with
    | false => simp only [Bool.not_true, Bool.not_false, Bool.false_eq_true, if_false, if_true]
    | true => exact absurd ⟨zero, valid, granted⟩ silent

theorem readLoopAccesses_of_announces (inside : offset < window)
    (announces : Announces crc7BeByte aux allocates buffer index offset)
    (overhangError : Option Errno) (slots : Nat) :
    readLoopAccesses crc7BeByte aux allocates buffer overhangError (slots + 1) index offset
        (window - offset : Int) =
      .fetch offset ::
        if totalLenAt aux buffer offset ≤ window - offset - sizeofDelim then
          .copy (pktSizeAt aux buffer offset) 0 (offset + sizeofDelim)
              (pktSizeAt aux buffer offset) ::
            readLoopAccesses crc7BeByte aux allocates buffer overhangError slots (index + 1)
              (offset + sizeofDelim + totalLenAt aux buffer offset)
              (window - offset - sizeofDelim - totalLenAt aux buffer offset)
        else
          .copy (pktSizeAt aux buffer offset) 0 (offset + sizeofDelim)
              (window - offset - sizeofDelim) ::
            .fill (totalLenAt aux buffer offset - (window - offset - sizeofDelim)) ::
              match overhangError with
              | some _ => []
              | none => [.copy (pktSizeAt aux buffer offset) (window - offset - sizeofDelim) 0
                  (pktSizeAt aux buffer offset - (window - offset - sizeofDelim))] := by
  have positive : ¬(window - offset : Int) ≤ 0 := by omega
  obtain ⟨nonzero, valid, granted⟩ := announces
  rw [delimAt] at nonzero valid
  rw [pktSizeAt, delimAt] at granted
  rw [readLoopAccesses, if_neg positive]
  dsimp only
  rw [Int.toNat_natCast, if_neg nonzero, valid, granted]
  rfl

theorem follows_iff (inside : offset < window)
    (announces : Announces crc7BeByte aux allocates buffer index offset)
    (size : 0 ≤ pktSizeAt aux buffer offset)
    (whole : totalLenAt aux buffer offset ≤ window - offset - sizeofDelim) (next : Nat × Nat) :
    Follows crc7BeByte aux allocates buffer window (index, offset) next ↔
      next = (index + 1, offset + sizeofDelim + (totalLenAt aux buffer offset).toNat) := by
  have total : 0 ≤ totalLenAt aux buffer offset := by
    unfold totalLenAt
    omega
  obtain ⟨nextIndex, nextOffset⟩ := next
  rw [Follows, Prod.mk.injEq]
  dsimp only
  constructor
  · rintro ⟨-, -, -, rfl, place, -⟩
    exact ⟨rfl, by omega⟩
  · rintro ⟨rfl, rfl⟩
    exact ⟨inside, announces, size, rfl, by omega, by omega⟩

theorem straddle_safe_iff (bounded : window ≤ yapsHwWindowSizeBytes)
    (announces : Announces crc7BeByte aux allocates buffer index offset)
    (straddles : ¬totalLenAt aux buffer offset ≤ window - offset - sizeofDelim)
    (overhangError : Option Errno) :
    (∀ access ∈ Access.fetch offset ::
        .copy (pktSizeAt aux buffer offset) 0 (offset + sizeofDelim)
          (window - offset - sizeofDelim) ::
        .fill (totalLenAt aux buffer offset - (window - offset - sizeofDelim)) ::
          match overhangError with
          | some _ => []
          | none => [.copy (pktSizeAt aux buffer offset) (window - offset - sizeofDelim) 0
              (pktSizeAt aux buffer offset - (window - offset - sizeofDelim))],
      access.Safe) ↔ Fine crc7BeByte aux allocates buffer window index offset := by
  have small := @totalLenAt_le crc7BeByte aux buffer offset announces.2.1
  unfold yapsMaxPktSizeBytes at small
  have total : totalLenAt aux buffer offset =
    pktSizeAt aux buffer offset + yapsDelimGetPadding (delimAt buffer offset) := rfl
  rw [List.forall_mem_cons, List.forall_mem_cons, List.forall_mem_cons, Fine]
  simp only [Access.Safe]
  unfold yapsHwWindowSizeBytes at *
  constructor
  · rintro ⟨fetched, copied, -, -⟩
    refine ⟨by omega, fun _ => ⟨by omega, fun _ => ⟨by omega, by omega⟩⟩⟩
  · rintro ⟨fetched, fine⟩
    obtain ⟨size, runs⟩ := fine announces
    refine ⟨by omega, by omega, by omega, ?_⟩
    cases overhangError with
    | some error => exact fun _ none => (by cases none)
    | none =>
      intro access listed
      obtain rfl := List.mem_singleton.mp listed
      exact ⟨by omega, by omega, by omega, by omega⟩

theorem whole_safe_iff (bounded : window ≤ yapsHwWindowSizeBytes) (inside : offset < window)
    (size : 0 ≤ pktSizeAt aux buffer offset)
    (whole : totalLenAt aux buffer offset ≤ window - offset - sizeofDelim) :
    ((Access.fetch offset).Safe ∧
        (Access.copy (pktSizeAt aux buffer offset) 0 (offset + sizeofDelim)
          (pktSizeAt aux buffer offset)).Safe) ↔
      Fine crc7BeByte aux allocates buffer window index offset := by
  have total : totalLenAt aux buffer offset =
    pktSizeAt aux buffer offset + yapsDelimGetPadding (delimAt buffer offset) := rfl
  simp only [Access.Safe, Fine]
  constructor
  · rintro ⟨fetched, -⟩
    exact ⟨by omega, fun _ => ⟨size, fun runs => by omega⟩⟩
  · rintro ⟨fetched, -⟩
    exact ⟨by omega, by omega, by omega, by omega, by omega⟩

theorem follows_forward
    (follows : ReflTransGen (Follows crc7BeByte aux allocates buffer window) first second) :
    first.1 ≤ second.1 ∧ first.2 ≤ second.2 := by
  induction follows with
  | refl => exact ⟨Nat.le_refl _, Nat.le_refl _⟩
  | @tail second third _ step ih =>
    obtain ⟨-, -, size, count, place, -⟩ := step
    unfold totalLenAt at place
    exact ⟨by omega, by omega⟩

theorem forall_follows_iff (Holds : Nat × Nat → Prop) (first : Nat × Nat) :
    (∀ second, ReflTransGen (Follows crc7BeByte aux allocates buffer window) first second →
        Holds second) ↔
      Holds first ∧ ∀ next, Follows crc7BeByte aux allocates buffer window first next →
        ∀ second, ReflTransGen (Follows crc7BeByte aux allocates buffer window) next second →
          Holds second := by
  constructor
  · intro all
    exact ⟨all first .refl, fun next step second follows => all second (.head step follows)⟩
  · rintro ⟨here, later⟩ second follows
    rcases ReflTransGen.cases_head_iff.mp follows with rfl | ⟨next, step, follows⟩
    · exact here
    · exact later next step second follows

theorem readLoopAccesses_safe_iff (bounded : window ≤ yapsHwWindowSizeBytes)
    (overhangError : Option Errno) (slots : Nat) :
    ∀ index offset, offset ≤ window →
      ((∀ access ∈ readLoopAccesses crc7BeByte aux allocates buffer overhangError slots index
          offset (window - offset : Int), access.Safe) ↔
        ∀ second,
          ReflTransGen (Follows crc7BeByte aux allocates buffer window) (index, offset) second →
          second.1 < index + slots → second.2 < window →
            Fine crc7BeByte aux allocates buffer window second.1 second.2) := by
  induction slots with
  | zero =>
    intro index offset _
    refine iff_of_true (fun _ none => (by cases none)) fun second follows few => ?_
    have forward := (follows_forward follows).1
    omega
  | succ slots ih =>
    intro index offset within
    rcases Nat.eq_or_lt_of_le within with rfl | inside
    · rw [Int.sub_self, readLoopAccesses]
      refine iff_of_true (fun _ none => (by cases none)) fun second follows _ short => ?_
      have forward := (follows_forward follows).2
      omega
    rw [forall_follows_iff
      (fun second => second.1 < index + (slots + 1) → second.2 < window →
        Fine crc7BeByte aux allocates buffer window second.1 second.2)]
    have here : (index < index + (slots + 1) → offset < window →
        Fine crc7BeByte aux allocates buffer window index offset) ↔
          Fine crc7BeByte aux allocates buffer window index offset :=
      ⟨fun fine => fine (by omega) inside, fun fine _ _ => fine⟩
    rw [here]
    by_cases announces : Announces crc7BeByte aux allocates buffer index offset
    · rw [readLoopAccesses_of_announces inside announces]
      split
      · next whole =>
          rw [List.forall_mem_cons, List.forall_mem_cons]
          by_cases size : 0 ≤ pktSizeAt aux buffer offset
          · have total : 0 ≤ totalLenAt aux buffer offset := by
              unfold totalLenAt
              omega
            have place : (offset + sizeofDelim + totalLenAt aux buffer offset : Int) =
                ((offset + sizeofDelim + (totalLenAt aux buffer offset).toNat : Nat) : Int) := by
              omega
            have left : (window - offset - sizeofDelim - totalLenAt aux buffer offset : Int) =
                window -
                  ((offset + sizeofDelim + (totalLenAt aux buffer offset).toNat : Nat) :
                    Int) := by
              omega
            rw [place, left, ih (index + 1)
              (offset + sizeofDelim + (totalLenAt aux buffer offset).toNat) (by omega)]
            simp only [follows_iff inside announces size whole, forall_eq]
            rw [← and_assoc, whole_safe_iff bounded inside size whole, Nat.add_right_comm index]
            rfl
          · refine iff_of_false (fun safe => size safe.2.1.1) fun fine => ?_
            exact size (fine.1.2 announces).1
      · next straddles =>
          rw [straddle_safe_iff bounded announces straddles]
          refine ⟨fun fine => ⟨fine, fun next step => ?_⟩, fun all => all.1⟩
          obtain ⟨-, -, -, -, place, short⟩ := step
          dsimp only at place
          omega
    · rw [readLoopAccesses_of_not_announces inside announces, List.forall_mem_singleton,
        Access.Safe]
      refine ⟨fun fetched => ⟨⟨by omega, fun speaks => absurd speaks announces⟩, ?_⟩,
        fun fine => ⟨by omega, by have := fine.1.1; omega⟩⟩
      intro next step
      exact absurd step.2.1 announces

end Reading

/-! ## A whole call -/

/-- The accesses of `morse_yaps_hw_read_pkts`. -/
def readAccesses (crc7BeByte : BitVec 8 → Octet → BitVec 8) (aux : AuxData) (env : ReadEnv)
    (allocates : Nat → Int → Bool) (numPktsMax : Nat) : List Access :=
  if numPktsMax = 0 then []
  else
    match morseCalcBytesRemaining aux with
    | none => []
    | some 0 => []
    | some bytes =>
      if env.locked then []
      else
        .fill (windowLen bytes) ::
          match env.windowError with
          | some _ => []
          | none =>
            readLoopAccesses crc7BeByte aux allocates
              (segment env.stream 0 (windowLen bytes) ++ env.stale) env.overhangError
              numPktsMax 0 0 (windowLen bytes)

/-- The delimiters that the chip puts in a window are fine, as far as packets are wanted. -/
def DelimitersFine (crc7BeByte : BitVec 8 → Octet → BitVec 8) (aux : AuxData) (env : ReadEnv)
    (allocates : Nat → Int → Bool) (numPktsMax : Nat) : Prop :=
  ∀ bytes, morseCalcBytesRemaining aux = some bytes → env.locked = false →
    env.windowError = none →
      ∀ delimiter,
        ReflTransGen (Follows crc7BeByte aux allocates
          (segment env.stream 0 (windowLen bytes) ++ env.stale) (windowLen bytes)) (0, 0)
          delimiter →
        delimiter.1 < numPktsMax → delimiter.2 < windowLen bytes →
          Fine crc7BeByte aux allocates (segment env.stream 0 (windowLen bytes) ++ env.stale)
            (windowLen bytes) delimiter.1 delimiter.2

/--
Whatever the chip sends, every access of the reader stays in the window buffer and in the buffer
of its packet, with a length that is not negative, exactly when the delimiters are fine.
-/
theorem readAccesses_safe_iff (crc7BeByte : BitVec 8 → Octet → BitVec 8) (aux : AuxData)
    (env : ReadEnv) (allocates : Nat → Int → Bool) (numPktsMax : Nat) :
    (∀ access ∈ readAccesses crc7BeByte aux env allocates numPktsMax, access.Safe) ↔
      DelimitersFine crc7BeByte aux env allocates numPktsMax := by
  have bounded (bytes : Nat) : windowLen bytes ≤ yapsHwWindowSizeBytes := Nat.min_le_right _ _
  rw [readAccesses, DelimitersFine]
  split
  · next none =>
      subst none
      exact iff_of_true (fun _ absent => (by cases absent)) fun _ _ _ _ _ _ few => (by cases few)
  split
  · next refused =>
      exact iff_of_true (fun _ absent => (by cases absent))
        fun _ counted => (by cases refused.symm.trans counted)
  · next empty =>
      refine iff_of_true (fun _ absent => (by cases absent)) fun bytes counted _ _ _ _ _ short => ?_
      obtain rfl := Option.some.inj (empty.symm.trans counted)
      cases short
  · next bytes _ found =>
      split
      · next locked =>
          refine iff_of_true (fun _ absent => (by cases absent)) fun _ _ unlocked => ?_
          exact absurd (locked.symm.trans unlocked) (by rintro ⟨⟩)
      · next unlocked =>
          have filled : (Access.fill (windowLen bytes)).Safe :=
            ⟨Int.natCast_nonneg _, Int.ofNat_le.mpr (bounded bytes)⟩
          rw [List.forall_mem_cons]
          cases read : env.windowError with
          | some error =>
            refine iff_of_true ⟨filled, fun _ absent => (by cases absent)⟩ ?_
            exact fun _ _ _ failed => (by cases failed)
          | none =>
            have run := @readLoopAccesses_safe_iff crc7BeByte aux allocates
              (segment env.stream 0 (windowLen bytes) ++ env.stale) (windowLen bytes)
              (bounded bytes) env.overhangError numPktsMax 0 0 (Nat.zero_le _)
            rw [Int.natCast_zero, Int.sub_zero, Nat.zero_add] at run
            rw [run]
            constructor
            · rintro ⟨-, fine⟩ other counted - - delimiter
              obtain rfl := Option.some.inj (found.symm.trans counted)
              exact fine delimiter
            · intro fine
              exact ⟨filled, fine bytes found (Bool.eq_false_iff.mpr unlocked) rfl⟩

/-- A chip that has this stream for the host, in a queue of so many bytes. -/
def queuedAux (reserved : BitVec 16) (bytes : BitVec 32) : AuxData :=
  { idleAux reserved with statusRegs := { idleRegisters with fcRxBytesInQueue := bytes } }

/-- The delimiter of a packet, and nothing else but ones. -/
def delimiterEnv (size : Nat) : ReadEnv where
  stream := fun index =>
    (cpuToLe32 (morseYapsDelimiter crc7BeByteBitwise (idleAux 0) size 0 false)).getD index 1
  stale := List.replicate 4 1
  locked := false
  windowError := none
  overhangError := none
  allocates := fun _ => true

/-- A window that ends in the padding of a packet; one that ends in a delimiter, whose last octet
an earlier read left; and a packet of less than what the chip reserves. -/
theorem not_readAccesses_safe :
    Access.copy 1 0 4 2 ∈
        readAccesses crc7BeByteBitwise (queuedAux 0 6) (delimiterEnv 1) (fun _ _ => true) 1 ∧
      ¬(Access.copy 1 0 4 2).Safe ∧
      Access.copy 1 0 4 (-1) ∈
        readAccesses crc7BeByteBitwise (queuedAux 0 3)
          { delimiterEnv 1 with stale := (cpuToLe32 (morseYapsDelimiter crc7BeByteBitwise
              (idleAux 0) 1 0 false)).drop 3 } (fun _ _ => true) 1 ∧
      ¬(Access.copy 1 0 4 (-1)).Safe ∧
      Access.copy (-7) 0 4 (-7) ∈
        readAccesses crc7BeByteBitwise (queuedAux 8 16) (delimiterEnv 1) (fun _ _ => true) 1 ∧
      ¬(Access.copy (-7) 0 4 (-7)).Safe := by
  decide +kernel

end Yaps
end Morse
