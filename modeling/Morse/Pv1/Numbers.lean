import Morse.Lib.Epochs
import Morse.Pv1.Headers

/-!
# Packet numbers of short headers

A protected frame carries a base packet number, which together with its sequence
number is to be its own.  The base advances when the sequence number is seen to go
down.  This module says of any sequence of conversions for one station which frames
are given one pair of numbers.
-/

namespace Morse
namespace Pv1

open Lib

/-- One conversion for a station: the frame it is for, the octets converted, and what
header compression has come to by then. -/
structure Attempt where
  frame : Nat
  skb : TxSkb
  txRequest : HcRequest
  a3Stored : Bool
  a4Stored : Bool
  storedA3 : Addr
  storedA4 : Addr

/-- A context with the addresses of an attempt. -/
def Attempt.onto (attempt : Attempt) (ctx : StaPv1) : StaPv1 where
  a3Stored := attempt.a3Stored
  a4Stored := attempt.a4Stored
  storedA3 := attempt.storedA3
  storedA4 := attempt.storedA4
  lastSeqNum := ctx.lastSeqNum
  bpn := ctx.bpn

/-- The sequence number of the frame converted. -/
def Attempt.seq (attempt : Attempt) : Nat := attempt.skb.seqNum.toNat

/-- A base packet number on a partial TID is asked for. -/
def Attempt.numberedOn (ptid : Ptid) (attempt : Attempt) : Bool :=
  hasMask attempt.skb.hdr.frameControl fctlProtected && decide (attempt.skb.ptid = ptid)

/-- Every conversion with what came of it, from a context on. -/
def convertAll (sender : Sender) :
    StaPv1 → List Attempt → List (Attempt × Except Failure Pv1Skb)
  | _, [] => []
  | ctx, attempt :: rest =>
    let converted := convertPv0ToPv1 sender (attempt.onto ctx) attempt.txRequest attempt.skb
    (attempt, converted.2) :: convertAll sender converted.1 rest

/-- The base packet number that a conversion gave a frame. -/
def packetNumber : Except Failure Pv1Skb → Option (BitVec 32)
  | .ok converted => converted.bpn
  | .error _ => none

/-- No two frames of one partial TID have one pair of numbers. -/
def NumbersApart (outcomes : List (Attempt × Except Failure Pv1Skb)) : Prop :=
  ∀ ptid, (outcomes.filter fun outcome => outcome.1.numberedOn ptid).Pairwise
    fun first second => first.1.frame ≠ second.1.frame →
      ∀ bpn, packetNumber first.2 = some bpn → packetNumber second.2 = some bpn →
        first.1.seq ≠ second.1.seq

/-- A sequence number comes twice in a row on a partial TID only where the frame does. -/
def RepeatsOnlyFrames (attempts : List Attempt) : Prop :=
  ∀ ptid, (attempts.filter (Attempt.numberedOn ptid)).IsChain
    fun first second => first.seq = second.seq → first.frame = second.frame

/-- How often the sequence number goes down on a partial TID, on top of the base
packet number that there is. -/
def turns (ctx : StaPv1) (attempts : List Attempt) (ptid : Ptid) : Nat :=
  (ctx.bpn ptid).toNat +
    turnsFrom Attempt.seq (ctx.lastSeqNum ptid).toNat (attempts.filter (Attempt.numberedOn ptid))

/-- The base packet number after a number of turns, where there is one. -/
def numberAfter (turns : Nat) : Option (BitVec 32) :=
  if (BitVec.ofNat 32 turns).msb then none else some (BitVec.ofNat 32 turns)

theorem numberAfter_of_lt {turns : Nat} (below : turns < 2 ^ 31) :
    numberAfter turns = some (BitVec.ofNat 32 turns) := by
  have positive : (BitVec.ofNat 32 turns).msb = false := by
    rw [BitVec.msb_eq_false_iff_two_mul_lt, BitVec.toNat_ofNat]
    omega
  rw [numberAfter, positive]
  rfl

/-! ## One conversion -/

section Conversion

variable {sender : Sender} {ctx : StaPv1} {attempt : Attempt}

/-- The context after one conversion. -/
def Attempt.after (attempt : Attempt) (sender : Sender) (ctx : StaPv1) : StaPv1 :=
  (convertPv0ToPv1 sender (attempt.onto ctx) attempt.txRequest attempt.skb).1

/-- What came of one conversion. -/
def Attempt.outcome (attempt : Attempt) (sender : Sender) (ctx : StaPv1) :
    Except Failure Pv1Skb :=
  (convertPv0ToPv1 sender (attempt.onto ctx) attempt.txRequest attempt.skb).2

theorem convertAll_cons (rest : List Attempt) :
    convertAll sender ctx (attempt :: rest) =
      (attempt, attempt.outcome sender ctx) ::
        convertAll sender (attempt.after sender ctx) rest := rfl

variable {ptid : Ptid}

theorem after_of_not_numberedOn (elsewhere : attempt.numberedOn ptid = false) :
    (attempt.after sender ctx).lastSeqNum ptid = ctx.lastSeqNum ptid ∧
      (attempt.after sender ctx).bpn ptid = ctx.bpn ptid := by
  unfold Attempt.after
  cases isProtected : hasMask attempt.skb.hdr.frameControl fctlProtected with
  | false =>
    rw [convertPv0ToPv1_of_not_protected sender isProtected]
    exact ⟨rfl, rfl⟩
  | true =>
    rw [convertPv0ToPv1_of_protected sender isProtected]
    have apart : ptid ≠ attempt.skb.ptid := by
      rintro rfl
      simp [Attempt.numberedOn, isProtected] at elsewhere
    unfold retrieveTxBpn
    split
    · exact ⟨rfl, rfl⟩
    · exact ⟨Function.update_of_ne apart _ _, Function.update_of_ne apart _ _⟩

theorem after_of_numberedOn {stamp : Stamp} (supported : sender.supported = true)
    (here : attempt.numberedOn ptid = true) (value : stamp.value = (ctx.lastSeqNum ptid).toNat)
    (counted : ctx.bpn ptid = BitVec.ofNat 32 stamp.turns) :
    (stamp.next attempt.seq).value = ((attempt.after sender ctx).lastSeqNum ptid).toNat ∧
      (attempt.after sender ctx).bpn ptid = BitVec.ofNat 32 (stamp.next attempt.seq).turns ∧
      packetNumber (attempt.outcome sender ctx) = numberAfter (stamp.next attempt.seq).turns := by
  obtain ⟨isProtected, rfl⟩ : hasMask attempt.skb.hdr.frameControl fctlProtected = true ∧
      attempt.skb.ptid = ptid := by
    simpa [Attempt.numberedOn] using here
  have next : (if attempt.skb.seqNum < ctx.lastSeqNum attempt.skb.ptid then
      ctx.bpn attempt.skb.ptid + 1 else ctx.bpn attempt.skb.ptid) =
      BitVec.ofNat 32 (stamp.next attempt.seq).turns := by
    simp only [Stamp.next, Attempt.seq, value, BitVec.lt_def]
    split
    · rw [counted, BitVec.ofNat_add]
      rfl
    · exact counted
  have retrieved : retrieveTxBpn sender.supported (attempt.onto ctx) attempt.skb.seqNum
      attempt.skb.ptid = (BitVec.ofNat 32 (stamp.next attempt.seq).turns,
        { attempt.onto ctx with
          bpn := Function.update ctx.bpn attempt.skb.ptid
            (BitVec.ofNat 32 (stamp.next attempt.seq).turns)
          lastSeqNum := Function.update ctx.lastSeqNum attempt.skb.ptid attempt.skb.seqNum }) := by
    rw [← next]
    rw [supported]
    rfl
  unfold Attempt.after Attempt.outcome
  rw [convertPv0ToPv1_of_protected sender isProtected, retrieved]
  refine ⟨?_, Function.update_self _ _ _, ?_⟩
  · dsimp only
    rw [Function.update_self]
    rfl
  · unfold numberAfter
    split <;> rfl

theorem packetNumber_outcome_of_not_supported (supported : sender.supported = false)
    (here : attempt.numberedOn ptid = true) :
    packetNumber (attempt.outcome sender ctx) = none := by
  obtain ⟨isProtected, rfl⟩ : hasMask attempt.skb.hdr.frameControl fctlProtected = true ∧
      attempt.skb.ptid = ptid := by
    simpa [Attempt.numberedOn] using here
  have refused : retrieveTxBpn false (attempt.onto ctx) attempt.skb.seqNum attempt.skb.ptid =
      (-1, attempt.onto ctx) := rfl
  have negative : (-1 : BitVec 32).msb = true := by decide
  unfold Attempt.outcome
  rw [convertPv0ToPv1_of_protected sender isProtected, supported, refused, if_pos negative]
  rfl

end Conversion

/-! ## Any number of conversions -/

section Conversions

variable {sender : Sender} {ctx : StaPv1} {attempts : List Attempt}

theorem map_filter_convertAll (supported : sender.supported = true)
    (value : stamp.value = (ctx.lastSeqNum ptid).toNat)
    (counted : ctx.bpn ptid = BitVec.ofNat 32 stamp.turns) :
    ((convertAll sender ctx attempts).filter fun outcome => outcome.1.numberedOn ptid).map
        (fun outcome => (outcome.1, packetNumber outcome.2)) =
      (stamped Attempt.seq stamp (attempts.filter (Attempt.numberedOn ptid))).map
        fun outcome => (outcome.1, numberAfter outcome.2.turns) := by
  induction attempts generalizing ctx stamp with
  | nil => rfl
  | cons attempt rest ih =>
    rw [convertAll_cons]
    cases here : attempt.numberedOn ptid with
    | false =>
      obtain ⟨last, bpn⟩ := @after_of_not_numberedOn sender ctx attempt ptid here
      rw [List.filter_cons_of_neg (by simp [here]), List.filter_cons_of_neg (by simp [here])]
      exact ih (value.trans (congrArg BitVec.toNat last).symm) (bpn.trans counted)
    | true =>
      obtain ⟨value, counted, number⟩ := after_of_numberedOn supported here value counted
      rw [List.filter_cons_of_pos (by simp [here]), List.filter_cons_of_pos (by simp [here]),
        stamped, List.map_cons, List.map_cons, ih value counted, number]

theorem packetNumber_of_not_supported (supported : sender.supported = false)
    (member : outcome ∈ convertAll sender ctx attempts) (here : outcome.1.numberedOn ptid = true) :
    packetNumber outcome.2 = none := by
  induction attempts generalizing ctx with
  | nil => cases member
  | cons attempt rest ih =>
    rcases List.mem_cons.mp member with rfl | member
    · exact packetNumber_outcome_of_not_supported supported here
    · exact ih member

theorem numbersApart_iff_of_supported (supported : sender.supported = true)
    (bounded : ∀ ptid, turns ctx attempts ptid < 2 ^ 31) :
    NumbersApart (convertAll sender ctx attempts) ↔ RepeatsOnlyFrames attempts := by
  refine forall_congr' fun ptid => ?_
  let stamp : Stamp := ⟨(ctx.lastSeqNum ptid).toNat, (ctx.bpn ptid).toNat⟩
  have numbers := @map_filter_convertAll sender ctx attempts ptid stamp supported rfl
    (by rw [BitVec.ofNat_toNat, BitVec.setWidth_eq])
  calc
    _ ↔ (((convertAll sender ctx attempts).filter fun outcome => outcome.1.numberedOn ptid).map
          fun outcome => (outcome.1, packetNumber outcome.2)).Pairwise
            fun first second => first.1.frame ≠ second.1.frame →
              ∀ bpn, first.2 = some bpn → second.2 = some bpn → first.1.seq ≠ second.1.seq := by
      rw [List.pairwise_map]
    _ ↔ (stamped Attempt.seq stamp (attempts.filter (Attempt.numberedOn ptid))).Pairwise
          fun first second => first.2 = second.2 → first.1.frame = second.1.frame := by
      rw [numbers, List.pairwise_map]
      refine List.Pairwise.iff_of_mem ?_
      intro first second firstMember secondMember
      have firstBelow := (turns_le_of_mem firstMember).trans_lt (bounded ptid)
      have secondBelow := (turns_le_of_mem secondMember).trans_lt (bounded ptid)
      rw [numberAfter_of_lt firstBelow, numberAfter_of_lt secondBelow,
        ← value_of_mem_stamped firstMember, ← value_of_mem_stamped secondMember]
      constructor
      · intro apart same
        by_contra different
        exact apart different _ rfl (by rw [same]) (by rw [same])
      · intro tagged different bpn firstNumber secondNumber value
        refine different (tagged ?_)
        have counted := congrArg BitVec.toNat
          (Option.some.inj (firstNumber.trans secondNumber.symm))
        rw [BitVec.toNat_ofNat, BitVec.toNat_ofNat, Nat.mod_eq_of_lt (by omega),
          Nat.mod_eq_of_lt (by omega)] at counted
        exact Stamp.ext value counted
    _ ↔ _ := pairwise_tag_stamped_iff

/-- The numbers of the frames of a partial TID are apart exactly when, of two conversions
that follow one another on it with one sequence number, both are of one frame. -/
theorem numbersApart_iff (bounded : ∀ ptid, turns ctx attempts ptid < 2 ^ 31) :
    NumbersApart (convertAll sender ctx attempts) ↔
      (sender.supported = true → RepeatsOnlyFrames attempts) := by
  cases supported : sender.supported with
  | true =>
    rw [numbersApart_iff_of_supported supported bounded]
    simp
  | false =>
    refine ⟨fun _ => by rintro ⟨⟩, fun _ ptid => ?_⟩
    refine List.pairwise_of_forall_mem_list ?_
    intro first member second _ _ bpn number
    obtain ⟨member, here⟩ := List.mem_filter.mp member
    rw [packetNumber_of_not_supported supported member here] at number
    cases number

end Conversions

/-! ## Streams of frames -/

theorem repeatsOnlyFrames_of_near {start : Ptid → Nat}
    (numbered : ∀ ptid, ∀ attempt ∈ attempts.filter (Attempt.numberedOn ptid),
      attempt.seq = (start ptid + attempt.frame) % 4096)
    (near : ∀ ptid, (attempts.filter (Attempt.numberedOn ptid)).IsChain fun first second =>
      first.frame < second.frame + 4096 ∧ second.frame < first.frame + 4096) :
    RepeatsOnlyFrames attempts := by
  intro ptid
  refine (near ptid).imp_of_mem_imp ?_
  intro first second firstMember secondMember within same
  rw [numbered ptid first firstMember, numbered ptid second secondMember] at same
  omega

/-- Frames are taken up one after the other from a number on, and any number of times
again. -/
def InTurn : Nat → List Nat → Prop
  | _, [] => True
  | next, frame :: rest => frame ≤ next ∧ InTurn (max next (frame + 1)) rest

/-- The new frames of every partial TID have consecutive sequence numbers. -/
def Consecutive (attempts : List Attempt) : Prop :=
  ∀ ptid, ∃ start,
    (∀ attempt ∈ attempts.filter (Attempt.numberedOn ptid),
      attempt.seq = (start + attempt.frame) % 4096) ∧
    InTurn 0 ((attempts.filter (Attempt.numberedOn ptid)).map Attempt.frame)

theorem inTurn_range' (start count : Nat) (rest : List Nat) :
    InTurn start (List.range' start count ++ rest) ↔ InTurn (start + count) rest := by
  induction count generalizing start with
  | zero => rfl
  | succ count ih =>
    rw [List.range'_succ, List.cons_append, InTurn, max_eq_right (Nat.le_succ start),
      ih, Nat.succ_add_eq_add_succ]
    exact and_iff_right (Nat.le_refl start)

/-- A protected frame of the first partial TID. -/
def sampleAttempt (frame : Nat) : Attempt where
  frame := frame
  skb :=
    { hdr :=
        { frameControl := 0x4188
          durationId := 0
          addr1 := 2
          addr2 := 4
          addr3 := 2
          seqCtrl := BitVec.ofNat 16 (frame % 4096 * 16)
          addr4 := 0 }
      qosCtl := 0
      priority := 0
      body := []
      headroom := 0 }
  txRequest := HcRequest.zeroed
  a3Stored := false
  a4Stored := false
  storedA3 := 0
  storedA4 := 0

/-- A station that is sent frames with short headers. -/
def sampleSender : Sender := ⟨.station, 1, 0, true⟩

theorem seq_sampleAttempt (frame : Nat) : (sampleAttempt frame).seq = frame % 4096 := by
  have below := Nat.mod_lt frame (show 4096 > 0 by decide)
  unfold Attempt.seq TxSkb.seqNum sampleAttempt
  generalize frame % 4096 = number at below
  have mask : (number <<< 4) &&& (4095 <<< 4) = number % 4096 * 2 ^ 4 :=
    shiftLeft_and_mask number 4 12
  rw [Nat.shiftLeft_eq, Nat.mod_eq_of_lt below] at mask
  have control : (BitVec.ofNat 16 (number * 16)).toNat = number * 2 ^ 4 :=
    Nat.mod_eq_of_lt (by omega)
  rw [BitVec.toNat_ushiftRight, BitVec.toNat_and, control, Nat.shiftRight_eq_div_pow]
  refine (congrArg (· / 2 ^ 4) mask).trans ?_
  exact Nat.mul_div_cancel number (by decide)

theorem filter_map_sampleAttempt (frames : List Nat) (ptid : Ptid) :
    (frames.map sampleAttempt).filter (Attempt.numberedOn ptid) =
      if ptid = 0 then frames.map sampleAttempt else [] := by
  have numbered : ∀ frame, (sampleAttempt frame).numberedOn ptid = decide (0 = ptid) := by
    intro frame
    have zero : (sampleAttempt frame).skb.ptid = 0 := by
      show ptidOf (0 &&& qosCtlTag1dMask) (isMgmt 0x4188) = 0
      decide
    have isProtected : hasMask (sampleAttempt frame).skb.hdr.frameControl fctlProtected = true := by
      show hasMask 0x4188 fctlProtected = true
      decide
    rw [Attempt.numberedOn, zero, isProtected, Bool.true_and]
  rw [List.filter_map]
  split
  · next here =>
      rw [List.filter_eq_self.mpr]
      intro frame _
      exact (numbered frame).trans (decide_eq_true here.symm)
  · next elsewhere =>
      rw [List.filter_eq_nil_iff.mpr]
      · rfl
      · intro frame _
        exact Bool.not_eq_true _ ▸ (numbered frame).trans (decide_eq_false (Ne.symm elsewhere))

theorem consecutive_map_sampleAttempt {frames : List Nat} (order : InTurn 0 frames) :
    Consecutive (frames.map sampleAttempt) := by
  intro ptid
  refine ⟨0, ?_⟩
  rw [filter_map_sampleAttempt]
  split
  · refine ⟨?_, ?_⟩
    · intro attempt member
      obtain ⟨frame, -, rfl⟩ := List.mem_map.mp member
      rw [seq_sampleAttempt, Nat.zero_add]
      rfl
    · rw [List.map_map]
      exact (List.map_id frames).symm ▸ order
  · exact ⟨by rintro _ ⟨⟩, trivial⟩

theorem turns_map_sampleAttempt_le (frames : List Nat) (ptid : Ptid) :
    turns StaPv1.zeroed (frames.map sampleAttempt) ptid ≤ frames.length := by
  have bound := @turnsFrom_le_length _ Attempt.seq
    ((frames.map sampleAttempt).filter (Attempt.numberedOn ptid)) 0
  have shorter := List.length_filter_le (Attempt.numberedOn ptid) (frames.map sampleAttempt)
  rw [List.length_map] at shorter
  exact (Nat.zero_add _).trans_le (bound.trans shorter)

theorem numbersApart_repeated :
    (∀ ptid, turns StaPv1.zeroed ([0, 0, 1].map sampleAttempt) ptid < 2 ^ 31) ∧
      NumbersApart (convertAll sampleSender StaPv1.zeroed ([0, 0, 1].map sampleAttempt)) := by
  have bounded : ∀ ptid, turns StaPv1.zeroed ([0, 0, 1].map sampleAttempt) ptid < 2 ^ 31 := by
    intro ptid
    exact (turns_map_sampleAttempt_le _ _).trans_lt (by decide)
  refine ⟨bounded, (numbersApart_iff bounded).mpr fun _ => ?_⟩
  refine @repeatsOnlyFrames_of_near _ (fun _ => 0) ?_ ?_
  · intro ptid attempt member
    obtain ⟨frame, -, rfl⟩ := List.mem_map.mp (List.mem_of_mem_filter member)
    rw [seq_sampleAttempt, Nat.zero_add]
    rfl
  · intro ptid
    rw [filter_map_sampleAttempt]
    split
    · simp [sampleAttempt]
    · exact .nil

/-- A stream in which the first frame is converted again when the sequence numbers are
used up, and the next new frame follows it with the same number. -/
theorem not_numbersApart_repeated :
    ¬ ∀ (sender : Sender) (attempts : List Attempt), Consecutive attempts →
      (∀ attempt ∈ attempts, attempt.frame < 2 ^ 31 * 4096) →
        NumbersApart (convertAll sender StaPv1.zeroed attempts) := by
  intro claim
  have order : InTurn 0 (List.range' 0 4096 ++ [0, 4096]) := by
    rw [inTurn_range']
    simp [InTurn]
  have below : ∀ attempt ∈ (List.range' 0 4096 ++ [0, 4096]).map sampleAttempt,
      attempt.frame < 2 ^ 31 * 4096 := by
    intro attempt member
    obtain ⟨frame, inside, rfl⟩ := List.mem_map.mp member
    show frame < 2 ^ 31 * 4096
    rcases List.mem_append.mp inside with early | late
    · have bound := (List.mem_range'_1.mp early).2
      omega
    · simp only [List.mem_cons, List.not_mem_nil, or_false] at late
      omega
  have apart := claim sampleSender ((List.range' 0 4096 ++ [0, 4096]).map sampleAttempt)
    (consecutive_map_sampleAttempt order) below
  rw [numbersApart_iff_of_supported rfl] at apart
  · have chain := apart 0
    rw [filter_map_sampleAttempt, if_pos rfl, List.isChain_map, List.isChain_append] at chain
    have last := (List.isChain_cons_cons.mp chain.2.1).1
    exact absurd (last rfl) (by decide)
  · intro ptid
    refine (turns_map_sampleAttempt_le _ _).trans_lt ?_
    rw [List.length_append, List.length_range']
    decide

end Pv1
end Morse
