import Morse.Raw.Bookkeeping
import Morse.Raw.ToolDefs

/-!
# What the RAW command of the host tool makes of its options

The checks of the tool are made on narrowed values, so that an option out of its range may pass.
What is sent is read by the driver as it was written; the configuration then holds the narrowed
values.
-/

namespace Morse
namespace Raw

open Lib

/-! ## What is sent -/

section Sent

variable (args : RawArgs)

/-- The slot definition that is written. -/
def slotDefTlvs : List Tlv :=
  args.slotDef.toList.map fun option =>
    .slotDef option.1 (option.2.setWidth 8) (if args.crossSlot then 1 else 0)

/-- The AID group that is written. -/
def aidGroupTlvs : List Tlv :=
  args.aidGroup.toList.map fun option => .group (option.1.setWidth 16) (option.2.setWidth 16)

/-- The start time that is written. -/
def startTimeTlvs : List Tlv := args.startTime.toList.map .startTime

/-- The periodic operation that is written. -/
def prawTlvs : List Tlv :=
  args.praw.toList.map fun option =>
    .praw (option.1.setWidth 8)
      (if option.2.1.toInt = -1 then 255 else option.2.1.setWidth 8) (option.2.2.setWidth 8)
      (if option.2.1.toInt = -1 then 1 else 0)

/-- The beacon spreading that is written. -/
def bcnSpreadTlvs : List Tlv :=
  args.bcnSpread.toList.map fun option =>
    .bcnSpread (option.1.setWidth 16) (option.2.setWidth 16)

/-- The TLVs of the options. -/
def emitted : List Tlv :=
  slotDefTlvs args ++ aidGroupTlvs args ++ startTimeTlvs args ++ prawTlvs args ++
    bcnSpreadTlvs args

/-- The identifier in the request. -/
def reqId : BitVec 16 := (args.id.map (BitVec.setWidth 16)).getD 0

/-- The slot definition passes. -/
def SlotDefPasses : Prop :=
  ∀ option, args.slotDef = some option →
    (1 ≤ (option.2.setWidth 8 : BitVec 8).toNat ∧ (option.2.setWidth 8 : BitVec 8).toNat ≤ 63) ∧
      (option.2.setWidth 8 : BitVec 8).toNat * rawCmdMinSlotDurUs ≤ option.1.toNat ∧
        option.1.toNat ≤ (option.2.setWidth 8 : BitVec 8).toNat * rawCmdMaxSlotDurUs

/-- The AID group passes. -/
def AidGroupPasses : Prop :=
  ∀ option, args.aidGroup = some option →
    (option.1.setWidth 16 : BitVec 16).toNat ≤ (option.2.setWidth 16 : BitVec 16).toNat ∧
      1 ≤ (option.1.setWidth 16 : BitVec 16).toNat ∧
        (option.2.setWidth 16 : BitVec 16).toNat ≤ rawCmdMaxAid

/-- The start time passes. -/
def StartTimePasses : Prop :=
  ∀ startTime, args.startTime = some startTime → startTime.toNat ≤ rawCmdMaxStartTimeUs

/-- The periodic operation passes. -/
def PrawPasses : Prop :=
  ∀ option, args.praw = some option →
    (1 ≤ option.1.toInt ∧ option.1.toInt ≤ 255) ∧ option.2.1.toInt ≤ 255 ∧
      0 ≤ option.2.2.toInt ∧ option.2.2.toInt < option.1.toInt

/-- The options pass the checks of the tool, which are made on what is left of them in 8 and 16
bits. -/
structure ChecksPass : Prop where
  slotDef : SlotDefPasses args
  aidGroup : AidGroupPasses args
  startTime : StartTimePasses args
  apart : ¬(args.praw.isSome ∧ args.bcnSpread.isSome)
  praw : PrawPasses args

/-- The tool sends the command. -/
structure Accepted : Prop where
  id : ∀ id, args.id = some id → id.toInt ≤ 65535
  checks : args.enable ≠ some .delete →
    ChecksPass args ∧ (emitted args ≠ [] → reqId args ≠ 0)

/-- The request that is sent. -/
def sentReq : RawReq :=
  if args.enable = some .delete then
    sendReq morseCmdCfgRawFlagDelete (reqId args) (List.replicate tlvRoom 0)
  else
    let flags := if args.enable = some .enable then morseCmdCfgRawFlagEnable else 0
    if emitted args = [] then sendReq flags (reqId args) []
    else sendReq (flags ||| morseCmdCfgRawFlagUpdate) (reqId args)
      ((emitted args).flatMap Tlv.octets)

end Sent

section Checks

variable {args : RawArgs}

/-- A step of the tool goes on with these TLVs if its checks pass, and reports an error
otherwise. -/
def Decides (result : Except RawError (List Tlv)) (passes : Prop) (tlvs : List Tlv) : Prop :=
  (passes ∧ result = .ok tlvs) ∨ (¬passes ∧ ∃ error, result = .error error)

theorem decides_slotDef :
    Decides (toolSlotDef args) (SlotDefPasses args) (slotDefTlvs args) := by
  rw [toolSlotDef, SlotDefPasses, slotDefTlvs]
  cases args.slotDef with
  | none => exact .inl ⟨by rintro _ ⟨⟩, rfl⟩
  | some option =>
    simp only [Option.some.injEq, forall_eq']
    split
    · exact .inr ⟨by omega, _, rfl⟩
    split
    · exact .inr ⟨by omega, _, rfl⟩
    · exact .inl ⟨⟨by omega, by omega⟩, rfl⟩

theorem decides_aidGroup :
    Decides (toolAidGroup args) (AidGroupPasses args) (aidGroupTlvs args) := by
  rw [toolAidGroup, AidGroupPasses, aidGroupTlvs]
  cases args.aidGroup with
  | none => exact .inl ⟨by rintro _ ⟨⟩, rfl⟩
  | some option =>
    simp only [Option.some.injEq, forall_eq']
    split
    · exact .inr ⟨by omega, _, rfl⟩
    split
    · exact .inr ⟨by omega, _, rfl⟩
    · exact .inl ⟨⟨by omega, by omega⟩, rfl⟩

theorem decides_startTime :
    Decides (toolStartTime args) (StartTimePasses args) (startTimeTlvs args) := by
  rw [toolStartTime, StartTimePasses, startTimeTlvs]
  cases args.startTime with
  | none => exact .inl ⟨by rintro _ ⟨⟩, rfl⟩
  | some startTime =>
    simp only [Option.some.injEq, forall_eq']
    split
    · exact .inr ⟨by omega, _, rfl⟩
    · exact .inl ⟨by omega, rfl⟩

variable {value : CInt}

theorem toNat_setWidth_of_lt (positive : 0 ≤ value.toInt) (small : value.toInt.toNat < 2 ^ width) :
    ((value.setWidth width).toNat : Int) = value.toInt := by
  have cases := BitVec.toInt_eq_toNat_cond value
  have same : value.toInt = value.toNat := by
    split at cases
    · exact cases
    · omega
  rw [same, Int.toNat_natCast] at small
  rw [BitVec.toNat_setWidth, Nat.mod_eq_of_lt small, same]

theorem toNat_setWidth_eight (positive : 0 ≤ value.toInt) (small : value.toInt ≤ 255) :
    ((value.setWidth 8 : BitVec 8).toNat : Int) = value.toInt :=
  toNat_setWidth_of_lt positive (show value.toInt.toNat < 256 by omega)

theorem toNat_setWidth_sixteen (positive : 0 ≤ value.toInt) (small : value.toInt ≤ 65535) :
    ((value.setWidth 16 : BitVec 16).toNat : Int) = value.toInt :=
  toNat_setWidth_of_lt positive (show value.toInt.toNat < 65536 by omega)

theorem toInt_of_toNat_le (below : value.toNat ≤ bound) (small : bound < 2147483648) :
    value.toInt = value.toNat := by
  have cases := BitVec.toInt_eq_toNat_cond value
  split at cases
  · exact cases
  · omega

theorem decides_praw : Decides (toolPraw args) (PrawPasses args) (prawTlvs args) := by
  rw [toolPraw, PrawPasses, prawTlvs]
  cases args.praw with
  | none => exact .inl ⟨by rintro _ ⟨⟩, rfl⟩
  | some option =>
    obtain ⟨periodicity, validity, offset⟩ := option
    simp only [Option.some.injEq, forall_eq']
    split
    · exact .inr ⟨by omega, _, rfl⟩
    split
    · exact .inr ⟨by omega, _, rfl⟩
    split
    · exact .inr ⟨by omega, _, rfl⟩
    have first := @toNat_setWidth_eight periodicity (by omega) (by omega)
    have last := @toNat_setWidth_eight offset (by omega) (by omega)
    split
    · exact .inr ⟨by omega, _, rfl⟩
    split
    · next persistent =>
        refine .inl ⟨⟨by omega, by omega, by omega, by omega⟩, ?_⟩
        simp [persistent]
    · next limited =>
        refine .inl ⟨⟨by omega, by omega, by omega, by omega⟩, ?_⟩
        simp [limited]

theorem decides_bcnSpread :
    toolBcnSpread args = .ok (bcnSpreadTlvs args) := by
  rw [toolBcnSpread, bcnSpreadTlvs]
  cases args.bcnSpread with
  | none => rfl
  | some option => rfl

theorem toolTlvs_iff :
    toolTlvs args = .ok tlvs ↔ ChecksPass args ∧ tlvs = emitted args := by
  rw [toolTlvs]
  rcases @decides_slotDef args with ⟨slotDef, written⟩ | ⟨slotDef, error, refused⟩
  case inr =>
    rw [refused]
    exact iff_of_false (by rintro ⟨⟩) fun both => slotDef both.1.slotDef
  rw [written]
  rcases @decides_aidGroup args with ⟨aidGroup, written⟩ | ⟨aidGroup, error, refused⟩
  case inr =>
    rw [refused]
    exact iff_of_false (by rintro ⟨⟩) fun both => aidGroup both.1.aidGroup
  rw [written]
  rcases @decides_startTime args with ⟨startTime, written⟩ | ⟨startTime, error, refused⟩
  case inr =>
    rw [refused]
    exact iff_of_false (by rintro ⟨⟩) fun both => startTime both.1.startTime
  rw [written]
  by_cases apart : args.praw.isSome ∧ args.bcnSpread.isSome
  · refine iff_of_false ?_ fun both => both.1.apart apart
    intro found
    simp only [bind, Except.bind, if_pos apart] at found
    cases found
  rcases @decides_praw args with ⟨praw, written⟩ | ⟨praw, error, refused⟩
  case inr =>
    refine iff_of_false ?_ fun both => praw both.1.praw
    intro found
    simp only [bind, Except.bind, if_neg apart, refused] at found
    cases found
  simp only [bind, Except.bind, if_neg apart, written, decides_bcnSpread, pure, Except.pure]
  constructor
  · intro found
    exact ⟨⟨slotDef, aidGroup, startTime, apart, praw⟩, (Except.ok.inj found).symm⟩
  · rintro ⟨-, rfl⟩
    rfl

theorem toolId_iff {id : BitVec 16} :
    toolId args = .ok id ↔
      (∀ given, args.id = some given → given.toInt ≤ 65535) ∧ id = reqId args := by
  rw [toolId, reqId]
  cases args.id with
  | none =>
    exact ⟨fun found => ⟨by rintro _ ⟨⟩, (Except.ok.inj found).symm⟩,
      fun both => by rw [both.2]; rfl⟩
  | some given =>
    simp only [Option.some.injEq, forall_eq', Option.map_some, Option.getD_some]
    split
    · exact iff_of_false (by rintro ⟨⟩) (by omega)
    · exact ⟨fun found => ⟨by omega, (Except.ok.inj found).symm⟩, fun both => by rw [both.2]⟩

theorem raw_iff : raw args = .ok req ↔ Accepted args ∧ req = sentReq args := by
  rw [raw, sentReq]
  cases found : toolId args with
  | error error =>
    refine iff_of_false (by rintro ⟨⟩) fun both => ?_
    have ok := toolId_iff.mpr ⟨both.1.id, rfl⟩
    cases found.symm.trans ok
  | ok id =>
    obtain ⟨small, rfl⟩ := toolId_iff.mp found
    by_cases delete : args.enable = some .delete
    · simp only [bind, Except.bind, if_pos delete, pure, Except.pure]
      constructor
      · intro sent
        exact ⟨⟨small, fun other => absurd delete other⟩, (Except.ok.inj sent).symm⟩
      · rintro ⟨-, rfl⟩
        rfl
    · simp only [bind, Except.bind, if_neg delete]
      cases written : toolTlvs args with
      | error error =>
        refine iff_of_false (by rintro ⟨⟩) fun both => ?_
        have ok := toolTlvs_iff.mpr ⟨(both.1.checks delete).1, rfl⟩
        cases written.symm.trans ok
      | ok tlvs =>
        obtain ⟨checks, rfl⟩ := toolTlvs_iff.mp written
        dsimp only
        split
        · next none =>
            constructor
            · intro sent
              exact ⟨⟨small, fun _ => ⟨checks, fun some => absurd none some⟩⟩,
                (Except.ok.inj sent).symm⟩
            · rintro ⟨-, rfl⟩
              rfl
        · next some =>
            split
            · next zero =>
                exact iff_of_false (by rintro ⟨⟩)
                  fun both => (both.1.checks delete).2 some zero
            · next nonzero =>
                constructor
                · intro sent
                  exact ⟨⟨small, fun _ => ⟨checks, fun _ => nonzero⟩⟩,
                    (Except.ok.inj sent).symm⟩
                · rintro ⟨-, rfl⟩
                  rfl

end Checks

/-! ## What the driver reads -/

variable {tlv : Tlv}

theorem tlvAt_octets (known : tlv ≠ .unrecognised) (rest : List (BitVec 8)) :
    tlvAt (tlv.octets ++ rest) = (tlv, tlv.octets.length) := by
  cases tlv with
  | unrecognised => exact absurd rfl known
  | slotDef rawDurationUs numSlots crossSlotBleed =>
    simp [tlvAt, Tlv.octets, numberAt_zero, numberAt_behind]
  | group aidStart aidEnd => simp [tlvAt, Tlv.octets, numberAt_zero, numberAt_behind]
  | startTime startTimeUs => simp [tlvAt, Tlv.octets, numberAt_zero, numberAt_behind]
  | praw periodicity validity startOffset refreshOnExpiry =>
    simp [tlvAt, Tlv.octets, numberAt_zero, numberAt_behind]
  | bcnSpread maxSpread nominalStaPerBcn =>
    simp [tlvAt, Tlv.octets, numberAt_zero, numberAt_behind]

theorem Tlv.length_octets (known : tlv ≠ .unrecognised) :
    5 ≤ tlv.octets.length ∧ tlv.octets.length ≤ 7 := by
  cases tlv with
  | unrecognised => exact absurd rfl known
  | slotDef | group | startTime | praw | bcnSpread => simp [Tlv.octets]

theorem walkTlvs_octets (tlvs : List Tlv) (known : ∀ tlv ∈ tlvs, tlv ≠ .unrecognised)
    (beyond : List (BitVec 8)) (fuel : Nat) (enough : (tlvs.flatMap Tlv.octets).length ≤ fuel) :
    walkTlvs fuel (tlvs.flatMap Tlv.octets ++ beyond) (tlvs.flatMap Tlv.octets).length = tlvs := by
  induction tlvs generalizing fuel with
  | nil =>
    cases fuel with
    | zero => rfl
    | succ fuel => rfl
  | cons tlv tlvs ih =>
    obtain ⟨head, tail⟩ := List.forall_mem_cons.mp known
    have size := Tlv.length_octets head
    rw [List.flatMap_cons, List.length_append] at enough ⊢
    obtain ⟨fuel, rfl⟩ : ∃ less, fuel = less + 1 := ⟨fuel - 1, by omega⟩
    rw [walkTlvs, if_neg (by omega), List.append_assoc, tlvAt_octets head]
    have rest : ((tlv.octets.length + (tlvs.flatMap Tlv.octets).length : Nat) : Int) -
        tlv.octets.length = (tlvs.flatMap Tlv.octets).length := by omega
    cases tlv with
    | unrecognised => exact absurd rfl head
    | slotDef | group | startTime | praw | bcnSpread =>
      dsimp only
      rw [List.drop_left, rest, ih tail fuel (by omega)]

section Configured

variable {args : RawArgs}

theorem known_of_emitted {tlv : Tlv} (member : tlv ∈ emitted args) : tlv ≠ .unrecognised := by
  simp only [emitted, slotDefTlvs, aidGroupTlvs, startTimeTlvs, prawTlvs, bcnSpreadTlvs,
    List.mem_append, List.mem_map, or_assoc] at member
  rcases member with ⟨option, -, rfl⟩ | ⟨option, -, rfl⟩ | ⟨option, -, rfl⟩ | ⟨option, -, rfl⟩ |
    ⟨option, -, rfl⟩
  · rintro ⟨⟩
  · rintro ⟨⟩
  · rintro ⟨⟩
  · rintro ⟨⟩
  · rintro ⟨⟩

theorem length_flatMap_octets {tlvs : List Tlv} (known : ∀ tlv ∈ tlvs, tlv ≠ .unrecognised) :
    (tlvs.flatMap Tlv.octets).length ≤ 7 * tlvs.length := by
  induction tlvs with
  | nil => exact Nat.le_refl 0
  | cons tlv tlvs ih =>
    obtain ⟨head, tail⟩ := List.forall_mem_cons.mp known
    have size := Tlv.length_octets head
    have rest := ih tail
    rw [List.flatMap_cons, List.length_append, List.length_cons]
    omega

theorem length_toList_le {α : Type} (option : Option α) : option.toList.length ≤ 1 := by
  cases option with
  | none => exact Nat.zero_le 1
  | some value => exact Nat.le_refl 1

theorem length_emitted : ((emitted args).flatMap Tlv.octets).length ≤ tlvRoom := by
  have octets := length_flatMap_octets fun tlv member => @known_of_emitted args tlv member
  have slotDef := length_toList_le args.slotDef
  have aidGroup := length_toList_le args.aidGroup
  have startTime := length_toList_le args.startTime
  have praw := length_toList_le args.praw
  have bcnSpread := length_toList_le args.bcnSpread
  have count : (emitted args).length ≤ 5 := by
    simp only [emitted, slotDefTlvs, aidGroupTlvs, startTimeTlvs, prawTlvs, bcnSpreadTlvs,
      List.length_append, List.length_map]
    omega
  unfold tlvRoom
  omega

theorem walk_sendReq (flags : BitVec 32) (id : BitVec 16) (beyond : List (BitVec 8))
    (memory : Bool) :
    (staticGroup (sendReq flags id ((emitted args).flatMap Tlv.octets)) beyond memory).tlvs =
      emitted args := by
  have room := @length_emitted args
  unfold tlvRoom at room
  have len : ((BitVec.ofNat 16 (sizeofReq + ((emitted args).flatMap Tlv.octets).length)).toNat :
      Int) - sizeofReq = ((emitted args).flatMap Tlv.octets).length := by
    unfold sizeofReq
    rw [BitVec.toNat_ofNat]
    omega
  simp only [staticGroup, sendReq]
  rw [len]
  exact walkTlvs_octets _ (fun tlv member => known_of_emitted member) beyond _ (Nat.le_refl _)

theorem staticGroup_sentReq (beyond : List (BitVec 8)) (memory : Bool) :
    (staticGroup (sentReq args) beyond memory).id = reqId args ∧
      ((staticGroup (sentReq args) beyond memory).update = true ↔
        args.enable ≠ some .delete ∧ emitted args ≠ []) ∧
      (args.enable ≠ some .delete →
        (staticGroup (sentReq args) beyond memory).tlvs = emitted args) := by
  rw [sentReq]
  by_cases delete : args.enable = some .delete
  · rw [if_pos delete]
    have clear : ¬(staticGroup (sendReq morseCmdCfgRawFlagDelete (reqId args)
        (List.replicate tlvRoom 0)) beyond memory).update = true := by
      simp [staticGroup, sendReq, morseCmdCfgRawFlagDelete, morseCmdCfgRawFlagUpdate]
    exact ⟨rfl, iff_of_false clear fun both => both.1 delete, fun other => absurd delete other⟩
  · rw [if_neg delete]
    by_cases none : emitted args = []
    · rw [if_pos none]
      refine ⟨rfl, iff_of_false ?_ fun both => both.2 none, fun _ => ?_⟩
      · simp only [staticGroup, sendReq]
        split
        · decide
        · decide
      · have walked := @walk_sendReq args
          (if args.enable = some .enable then morseCmdCfgRawFlagEnable else 0) (reqId args) beyond
          memory
        rw [none] at walked ⊢
        exact walked
    · rw [if_neg none]
      refine ⟨rfl, iff_of_true ?_ ⟨delete, none⟩, fun _ => walk_sendReq _ _ beyond memory⟩
      simp only [staticGroup, sendReq]
      split
      · decide
      · decide

/-! ## What the driver stores -/

/-- The configuration with the slot definition that is sent. -/
def withSlotDef (args : RawArgs) (cfg : RawConfig) : RawConfig :=
  { cfg with
    slotDefinition := args.slotDef.elim cfg.slotDefinition fun option =>
      { crossSlotBoundary := args.crossSlot
        numSlots := (option.2.setWidth 8 : BitVec 8).setWidth 16
        slotDurationUs := option.1 / (option.2.setWidth 8 : BitVec 8).setWidth 32 } }

/-- The configuration with the AID group that is sent. -/
def withAidGroup (args : RawArgs) (cfg : RawConfig) : RawConfig :=
  { cfg with
    startAid := args.aidGroup.elim cfg.startAid fun option => option.1.setWidth 16
    endAid := args.aidGroup.elim cfg.endAid fun option => option.2.setWidth 16 }

/-- The configuration with the start time that is sent. -/
def withStartTime (args : RawArgs) (cfg : RawConfig) : RawConfig :=
  { cfg with startTimeUs := args.startTime.elim cfg.startTimeUs id }

/-- The configuration with the periodic operation that is sent. -/
def withPraw (args : RawArgs) (cfg : RawConfig) : RawConfig :=
  { cfg with
    periodic := args.praw.elim cfg.periodic fun option =>
      { refreshPraw := decide (option.2.1.toInt = -1)
        validity := if option.2.1.toInt = -1 then 255 else option.2.1.setWidth 8
        periodicity := option.1.setWidth 8
        startOffset := option.2.2.setWidth 8
        curValidity := if option.2.1.toInt = -1 then 255 else option.2.1.setWidth 8
        curStartOffset := option.2.2.setWidth 8 } }

/-- The configuration with the beacon spreading that is sent. -/
def withBcnSpread (args : RawArgs) (cfg : RawConfig) : RawConfig :=
  { cfg with
    beaconSpreading := args.bcnSpread.elim cfg.beaconSpreading fun option =>
      { maxSpread := option.1.setWidth 16
        nominalStaPerBeacon := option.2.setWidth 16
        lastAid := 0 } }

/-- The configuration with all values that are sent. -/
def configured (args : RawArgs) (cfg : RawConfig) : RawConfig :=
  withBcnSpread args (withPraw args (withStartTime args (withAidGroup args (withSlotDef args cfg))))

theorem morseRawCmdToConfig_emitted (passes : SlotDefPasses args) (cfg : RawConfig) :
    morseRawCmdToConfig (emitted args) cfg =
      some ((configured args cfg).isConfigValid, configured args cfg) := by
  have first (rest : List Tlv) (cfg : RawConfig) :
      morseRawCmdToConfig (slotDefTlvs args ++ rest) cfg =
        morseRawCmdToConfig rest (withSlotDef args cfg) := by
    rw [slotDefTlvs, withSlotDef]
    cases given : args.slotDef with
    | none => rfl
    | some option =>
      have positive := (passes option given).1.1
      have slots : (option.2.setWidth 8 : BitVec 8) ≠ 0 := by
        intro zero
        rw [zero] at positive
        exact absurd positive (by decide)
      have cross : decide ((if args.crossSlot then 1 else 0 : BitVec 8) ≠ 0) =
          args.crossSlot := by
        cases args.crossSlot with
        | true => rfl
        | false => rfl
      simp only [Option.toList_some, List.map_cons, List.map_nil, List.cons_append,
        List.nil_append, morseRawCmdToConfig, if_neg slots, cross, Option.elim_some]
  have second (rest : List Tlv) (cfg : RawConfig) :
      morseRawCmdToConfig (aidGroupTlvs args ++ rest) cfg =
        morseRawCmdToConfig rest (withAidGroup args cfg) := by
    rw [aidGroupTlvs, withAidGroup]
    cases args.aidGroup with
    | none => rfl
    | some option => rfl
  have third (rest : List Tlv) (cfg : RawConfig) :
      morseRawCmdToConfig (startTimeTlvs args ++ rest) cfg =
        morseRawCmdToConfig rest (withStartTime args cfg) := by
    rw [startTimeTlvs, withStartTime]
    cases args.startTime with
    | none => rfl
    | some option => rfl
  have fourth (rest : List Tlv) (cfg : RawConfig) :
      morseRawCmdToConfig (prawTlvs args ++ rest) cfg =
        morseRawCmdToConfig rest (withPraw args cfg) := by
    rw [prawTlvs, withPraw]
    cases args.praw with
    | none => rfl
    | some option =>
      have refresh : decide ((if option.2.1.toInt = -1 then 1 else 0 : BitVec 8) ≠ 0) =
          decide (option.2.1.toInt = -1) := by
        split
        · next persistent => simp [persistent]
        · next limited => simp [limited]
      simp only [Option.toList_some, List.map_cons, List.map_nil, List.cons_append,
        List.nil_append, morseRawCmdToConfig, refresh, Option.elim_some]
  have fifth (cfg : RawConfig) :
      morseRawCmdToConfig (bcnSpreadTlvs args) cfg =
        some ((withBcnSpread args cfg).isConfigValid, withBcnSpread args cfg) := by
    rw [bcnSpreadTlvs, withBcnSpread]
    cases args.bcnSpread with
    | none => rfl
    | some option => rfl
  rw [emitted, List.append_assoc, List.append_assoc, List.append_assoc, first, second, third,
    fourth, fifth]
  rfl

end Configured

section States

variable {state : MorseRaw} {id : BitVec 16}

theorem exists_createOrFindById (state : MorseRaw) (id : BitVec 16) :
    ∃ created, state.createOrFindById true id =
        some ((state.findConfigById id).getD (.zeroed id), created) ∧
      ∃ config ∈ created.rawConfigList, config.id = id := by
  cases found : state.createOrFindById true id with
  | none =>
    rw [MorseRaw.createOrFindById] at found
    split at found
    · cases found
    · cases found
  | some both =>
    obtain ⟨config, created⟩ := both
    have same : config = (state.findConfigById id).getD (.zeroed id) := by
      rw [MorseRaw.createOrFindById] at found
      split at found
      · next exact =>
          cases found
          rw [exact, Option.getD_some]
      · next absent =>
          cases found
          rw [absent, Option.getD_none]
    refine ⟨created, by rw [same], ?_⟩
    rcases MorseRaw.createOrFindById_cases found with
      ⟨member, own, rfl⟩ | ⟨-, -, configs, permuted, rfl⟩
    · exact ⟨config, member, own⟩
    · exact ⟨.zeroed id, permuted.mem_iff.mpr List.mem_cons_self, rfl⟩

theorem findConfigById_applyConfig (known : ∃ old ∈ state.rawConfigList, old.id = config.id)
    (enable : Bool) :
    (state.applyConfig config enable).findConfigById config.id = some config := by
  have configs : (state.applyConfig config enable).rawConfigList =
      state.rawConfigList.map fun old => if old.id = config.id then config else old := by
    cases enable with
    | true => exact MorseRaw.activateConfig_rawConfigList _ _
    | false => exact MorseRaw.deactivateConfig_rawConfigList _ _
  rw [MorseRaw.findConfigById, configs]
  cases found : (state.rawConfigList.map fun old =>
      if old.id = config.id then config else old).find? fun other => other.id == config.id with
  | none =>
    obtain ⟨old, member, same⟩ := known
    have differs := List.find?_eq_none.mp found config
      (List.mem_map.mpr ⟨old, member, if_pos same⟩)
    simp at differs
  | some other =>
    have own : other.id = config.id := by simpa using List.find?_some found
    obtain ⟨old, -, rfl⟩ := List.mem_map.mp (List.mem_of_find?_eq_some found)
    split at own
    · next same => rw [if_pos same]
    · next differs => exact absurd own differs

theorem zeroed_getD_id (state : MorseRaw) (id : BitVec 16) :
    ((state.findConfigById id).getD (.zeroed id)).id = id := by
  cases found : state.findConfigById id with
  | none => rfl
  | some config =>
    have own := List.find?_some found
    simpa using own

end States

/-! ## What is asked -/

/-- Every value given is in the range that the tool announces for it. -/
structure InRange (args : RawArgs) : Prop where
  id : ∀ id, args.id = some id → 0 ≤ id.toInt ∧ id.toInt ≤ 65535
  slotDef : ∀ option, args.slotDef = some option →
    (1 ≤ option.2.toInt ∧ option.2.toInt ≤ 63) ∧
      option.2.toInt * rawCmdMinSlotDurUs ≤ option.1.toInt ∧
        option.1.toInt ≤ option.2.toInt * rawCmdMaxSlotDurUs
  aidGroup : ∀ option, args.aidGroup = some option →
    1 ≤ option.1.toInt ∧ option.1.toInt ≤ option.2.toInt ∧ option.2.toInt ≤ rawCmdMaxAid
  startTime : ∀ startTime, args.startTime = some startTime →
    0 ≤ startTime.toInt ∧ startTime.toInt ≤ rawCmdMaxStartTimeUs
  praw : ∀ option, args.praw = some option →
    (1 ≤ option.1.toInt ∧ option.1.toInt ≤ 255) ∧
      (option.2.1.toInt = -1 ∨ 1 ≤ option.2.1.toInt ∧ option.2.1.toInt ≤ 255) ∧
        0 ≤ option.2.2.toInt ∧ option.2.2.toInt < option.1.toInt
  bcnSpread : ∀ option, args.bcnSpread = some option →
    (0 ≤ option.1.toInt ∧ option.1.toInt ≤ 65535) ∧
      0 ≤ option.2.toInt ∧ option.2.toInt ≤ 65535

/-- A configuration has the values given, and the others from before. -/
structure Carries (args : RawArgs) (before after : RawConfig) : Prop where
  slotDef : ∀ option, args.slotDef = some option →
    after.slotDefinition.crossSlotBoundary = args.crossSlot ∧
      (after.slotDefinition.numSlots.toNat : Int) = option.2.toInt ∧
        (after.slotDefinition.slotDurationUs.toNat : Int) = option.1.toInt / option.2.toInt
  slotDefKept : args.slotDef = none → after.slotDefinition = before.slotDefinition
  aidGroup : ∀ option, args.aidGroup = some option →
    (after.startAid.toNat : Int) = option.1.toInt ∧ (after.endAid.toNat : Int) = option.2.toInt
  aidGroupKept : args.aidGroup = none →
    after.startAid = before.startAid ∧ after.endAid = before.endAid
  startTime : ∀ startTime, args.startTime = some startTime →
    (after.startTimeUs.toNat : Int) = startTime.toInt
  startTimeKept : args.startTime = none → after.startTimeUs = before.startTimeUs
  praw : ∀ option, args.praw = some option →
    (after.periodic.periodicity.toNat : Int) = option.1.toInt ∧
      (after.periodic.validity.toNat : Int) =
        (if option.2.1.toInt = -1 then 255 else option.2.1.toInt) ∧
      (after.periodic.startOffset.toNat : Int) = option.2.2.toInt ∧
      (after.periodic.refreshPraw = true ↔ option.2.1.toInt = -1) ∧
      after.periodic.curValidity = after.periodic.validity ∧
      after.periodic.curStartOffset = after.periodic.startOffset
  prawKept : args.praw = none → after.periodic = before.periodic
  bcnSpread : ∀ option, args.bcnSpread = some option →
    (after.beaconSpreading.maxSpread.toNat : Int) = option.1.toInt ∧
      (after.beaconSpreading.nominalStaPerBeacon.toNat : Int) = option.2.toInt ∧
        after.beaconSpreading.lastAid = 0
  bcnSpreadKept : args.bcnSpread = none → after.beaconSpreading = before.beaconSpreading

/-- The driver reads the TLVs of an update that the tool wrote and nothing else, stores the values
given in the configuration of the identifier given, and does not refuse an update with slot
definition and AID group. -/
structure DriverAgrees (args : RawArgs) (req : RawReq) : Prop where
  id : ∀ id, args.id = some id → (req.id.toNat : Int) = id.toInt
  walks : ∀ beyond memory, (staticGroup req beyond memory).update = true →
    toolTlvs args = .ok (staticGroup req beyond memory).tlvs
  stores : ∀ beyond (state : MorseRaw), (staticGroup req beyond true).update = true →
    ∃ ret, ∃ after : MorseRaw, ∃ config, state.processConfigGroup (staticGroup req beyond true) =
        some (ret, after) ∧
      after.findConfigById req.id = some config ∧
        Carries args ((state.findConfigById req.id).getD (.zeroed req.id)) config
  accepts : ∀ beyond (state : MorseRaw) ret after, (staticGroup req beyond true).update = true →
    args.slotDef.isSome → args.aidGroup.isSome →
      state.processConfigGroup (staticGroup req beyond true) = some (ret, after) → ret = none

/-- If the tool sends the command, the values given are in their ranges, and the driver agrees. -/
def Agrees (args : RawArgs) : Prop :=
  ∀ req, raw args = .ok req → InRange args ∧ DriverAgrees args req

/-- The options lose nothing when they are narrowed, the validity is one, and the identifier of an
update is none of the driver's own. -/
structure Wide (args : RawArgs) : Prop where
  id : ∀ id, args.id = some id →
    0 ≤ id.toInt ∧ (emitted args ≠ [] → id.toInt < rawInternalIdOffset.toNat)
  slotDef : ∀ option, args.slotDef = some option → 0 ≤ option.2.toInt ∧ option.2.toInt ≤ 255
  aidGroup : ∀ option, args.aidGroup = some option →
    (0 ≤ option.1.toInt ∧ option.1.toInt ≤ 65535) ∧
      0 ≤ option.2.toInt ∧ option.2.toInt ≤ 65535
  praw : ∀ option, args.praw = some option → option.2.1.toInt = -1 ∨ 1 ≤ option.2.1.toInt
  bcnSpread : ∀ option, args.bcnSpread = some option →
    (0 ≤ option.1.toInt ∧ option.1.toInt ≤ 65535) ∧
      0 ≤ option.2.toInt ∧ option.2.toInt ≤ 65535

section Agreement

variable {args : RawArgs}

theorem inRange_of_wide (small : ∀ id, args.id = some id → id.toInt ≤ 65535)
    (passes : ChecksPass args) (wide : Wide args) :
    InRange args := by
  refine
    { id := fun id given => ⟨(wide.id id given).1, small id given⟩
      slotDef := fun option given => ?_
      aidGroup := fun option given => ?_
      startTime := fun startTime given => ?_
      praw := fun option given => ?_
      bcnSpread := wide.bcnSpread }
  · obtain ⟨positive, narrow⟩ := wide.slotDef option given
    have slots := toNat_setWidth_eight positive narrow
    have checked := passes.slotDef option given
    unfold rawCmdMinSlotDurUs rawCmdMaxSlotDurUs at *
    have duration := @toInt_of_toNat_le option.1 (63 * 410099) (by omega) (by decide)
    omega
  · obtain ⟨first, last⟩ := wide.aidGroup option given
    have aidStart := toNat_setWidth_sixteen first.1 first.2
    have aidEnd := toNat_setWidth_sixteen last.1 last.2
    have checked := passes.aidGroup option given
    omega
  · have checked := passes.startTime startTime given
    have time := toInt_of_toNat_le checked (by decide)
    omega
  · obtain ⟨periodicity, validity, offset⟩ := passes.praw option given
    refine ⟨periodicity, ?_, offset⟩
    rcases wide.praw option given with persistent | positive
    · exact .inl persistent
    · exact .inr ⟨positive, validity⟩

theorem carries_configured (range : InRange args) (cfg : RawConfig) :
    Carries args cfg (configured args cfg) := by
  refine
    { slotDef := fun option given => ?_
      slotDefKept := fun absent => ?_
      aidGroup := fun option given => ?_
      aidGroupKept := fun absent => ?_
      startTime := fun startTime given => ?_
      startTimeKept := fun absent => ?_
      praw := fun option given => ?_
      prawKept := fun absent => ?_
      bcnSpread := fun option given => ?_
      bcnSpreadKept := fun absent => ?_ }
  · have stored : (configured args cfg).slotDefinition =
        ⟨args.crossSlot, (option.2.setWidth 8 : BitVec 8).setWidth 16,
          option.1 / (option.2.setWidth 8 : BitVec 8).setWidth 32⟩ := by
      change args.slotDef.elim cfg.slotDefinition _ = _
      rw [given, Option.elim_some]
    obtain ⟨slots, shortest, longest⟩ := range.slotDef option given
    have narrow := @toNat_setWidth_eight option.2 (by omega) (by omega)
    have duration : option.1.toInt = option.1.toNat := by
      have cases := BitVec.toInt_eq_toNat_cond option.1
      unfold rawCmdMinSlotDurUs at shortest
      split at cases
      · exact cases
      · omega
    rw [stored, duration, ← narrow]
    exact ⟨rfl, rfl, rfl⟩
  · change args.slotDef.elim cfg.slotDefinition _ = _
    rw [absent, Option.elim_none]
  · have first : (configured args cfg).startAid = option.1.setWidth 16 := by
      change args.aidGroup.elim cfg.startAid _ = _
      rw [given, Option.elim_some]
    have last : (configured args cfg).endAid = option.2.setWidth 16 := by
      change args.aidGroup.elim cfg.endAid _ = _
      rw [given, Option.elim_some]
    have bounds := range.aidGroup option given
    unfold rawCmdMaxAid at bounds
    rw [first, last, toNat_setWidth_sixteen (by omega) (by omega),
      toNat_setWidth_sixteen (by omega) (by omega)]
    exact ⟨rfl, rfl⟩
  · constructor
    · change args.aidGroup.elim cfg.startAid _ = _
      rw [absent, Option.elim_none]
    · change args.aidGroup.elim cfg.endAid _ = _
      rw [absent, Option.elim_none]
  · have stored : (configured args cfg).startTimeUs = startTime := by
      change args.startTime.elim cfg.startTimeUs _ = _
      rw [given]
      rfl
    have bounds := range.startTime startTime given
    have cases := BitVec.toInt_eq_toNat_cond startTime
    rw [stored]
    split at cases
    · exact cases.symm
    · omega
  · change args.startTime.elim cfg.startTimeUs _ = _
    rw [absent, Option.elim_none]
  · have stored : (configured args cfg).periodic =
        { refreshPraw := decide (option.2.1.toInt = -1)
          validity := if option.2.1.toInt = -1 then 255 else option.2.1.setWidth 8
          periodicity := option.1.setWidth 8
          startOffset := option.2.2.setWidth 8
          curValidity := if option.2.1.toInt = -1 then 255 else option.2.1.setWidth 8
          curStartOffset := option.2.2.setWidth 8 } := by
      change args.praw.elim cfg.periodic _ = _
      rw [given, Option.elim_some]
    obtain ⟨periodicity, validity, offset⟩ := range.praw option given
    rw [stored]
    refine ⟨toNat_setWidth_eight (by omega) periodicity.2, ?_,
      toNat_setWidth_eight offset.1 (by omega), decide_eq_true_iff, rfl, rfl⟩
    split
    · rfl
    · next limited =>
        rcases validity with persistent | bounds
        · exact absurd persistent limited
        · exact toNat_setWidth_eight (by omega) bounds.2
  · change args.praw.elim cfg.periodic _ = _
    rw [absent, Option.elim_none]
  · have stored : (configured args cfg).beaconSpreading =
        ⟨option.1.setWidth 16, option.2.setWidth 16, 0⟩ := by
      change args.bcnSpread.elim cfg.beaconSpreading _ = _
      rw [given, Option.elim_some]
    obtain ⟨first, second⟩ := range.bcnSpread option given
    rw [stored]
    exact ⟨toNat_setWidth_sixteen first.1 first.2, toNat_setWidth_sixteen second.1 second.2, rfl⟩
  · change args.bcnSpread.elim cfg.beaconSpreading _ = _
    rw [absent, Option.elim_none]

theorem isConfigValid_configured (passes : ChecksPass args) (slotDef : args.slotDef.isSome)
    (aidGroup : args.aidGroup.isSome) (cfg : RawConfig) :
    (configured args cfg).isConfigValid = true := by
  obtain ⟨option, given⟩ := Option.isSome_iff_exists.mp slotDef
  obtain ⟨group, grouped⟩ := Option.isSome_iff_exists.mp aidGroup
  have checked := passes.slotDef option given
  have ranged := passes.aidGroup group grouped
  have duration : (configured args cfg).slotDefinition.slotDurationUs =
      option.1 / (option.2.setWidth 8 : BitVec 8).setWidth 32 := by
    change (args.slotDef.elim cfg.slotDefinition _).slotDurationUs = _
    rw [given, Option.elim_some]
  have first : (configured args cfg).startAid = group.1.setWidth 16 := by
    change args.aidGroup.elim cfg.startAid _ = _
    rw [grouped, Option.elim_some]
  have last : (configured args cfg).endAid = group.2.setWidth 16 := by
    change args.aidGroup.elim cfg.endAid _ = _
    rw [grouped, Option.elim_some]
  have positive : 0 < (option.1 / (option.2.setWidth 8 : BitVec 8).setWidth 32).toNat := by
    generalize (option.2.setWidth 8 : BitVec 8) = octet at checked
    have word : (octet.setWidth 32 : BitVec 32).toNat = octet.toNat := by
      rw [BitVec.toNat_setWidth, Nat.mod_eq_of_lt (by omega)]
    unfold rawCmdMinSlotDurUs at checked
    exact Nat.div_pos (by omega) (by omega)
  have nonzero {width : Nat} {value : BitVec width} (positive : 0 < value.toNat) :
      decide (value ≠ 0) = true := by
    refine decide_eq_true fun zero => ?_
    rw [zero] at positive
    simp at positive
  rw [RawConfig.isConfigValid, duration, first, last, nonzero positive, nonzero (by omega),
    nonzero (by omega)]
  rfl

theorem processConfigGroup_update {state : MorseRaw} {group : ConfigGroup}
    (passes : SlotDefPasses args) (small : group.id.toNat < rawInternalIdOffset.toNat)
    (nonzero : group.id ≠ 0) (update : group.update = true) (memory : group.memory = true)
    (tlvs : group.tlvs = emitted args) :
    ∃ ret, ∃ after : MorseRaw, state.processConfigGroup group = some (ret, after) ∧
      ((configured args ((state.findConfigById group.id).getD
        (.zeroed group.id))).isConfigValid = true → ret = none) ∧
      after.findConfigById group.id = some ((configured args ((state.findConfigById
        group.id).getD (.zeroed group.id))).insertAt group.beaconIdx) := by
  obtain ⟨created, found, known⟩ := exists_createOrFindById state group.id
  have own := zeroed_getD_id state group.id
  generalize (state.findConfigById group.id).getD (.zeroed group.id) = config at *
  have stays : ((configured args config).insertAt group.beaconIdx).id = group.id := own
  have kept : ∃ old ∈ created.rawConfigList,
      old.id = ((configured args config).insertAt group.beaconIdx).id := by
    rwa [stays]
  rw [MorseRaw.processConfigGroup, if_neg (BitVec.not_le.mpr small), if_neg nonzero,
    if_pos update, memory, found]
  dsimp only
  rw [tlvs, morseRawCmdToConfig_emitted passes]
  cases valid : (configured args config).isConfigValid with
  | true =>
    refine ⟨_, _, rfl, fun _ => rfl, ?_⟩
    rw [← stays]
    exact findConfigById_applyConfig kept group.enable
  | false =>
    refine ⟨_, _, rfl, by rintro ⟨⟩, ?_⟩
    rw [← stays]
    exact findConfigById_applyConfig kept false

theorem reqId_toNat {id : CInt} (given : args.id = some id) (positive : 0 ≤ id.toInt)
    (small : id.toInt ≤ 65535) :
    ((reqId args).toNat : Int) = id.toInt := by
  rw [reqId, given]
  exact toNat_setWidth_sixteen positive small

theorem carries_insertAt (carries : Carries args before after) (beaconIdx : BitVec 16) :
    Carries args before (after.insertAt beaconIdx) :=
  ⟨carries.slotDef, carries.slotDefKept, carries.aidGroup, carries.aidGroupKept,
    carries.startTime, carries.startTimeKept, carries.praw, carries.prawKept, carries.bcnSpread,
    carries.bcnSpreadKept⟩

theorem driverAgrees_of_wide (accepted : Accepted args) (range : InRange args)
    (wide : args.enable ≠ some .delete → Wide args) :
    DriverAgrees args (sentReq args) := by
  have id (beyond : List (BitVec 8)) (memory : Bool) :=
    (@staticGroup_sentReq args beyond memory).1
  have sent : (sentReq args).id = reqId args := id [] true
  have updates (beyond : List (BitVec 8)) (memory : Bool) :=
    (@staticGroup_sentReq args beyond memory).2.1
  have processed (beyond : List (BitVec 8)) (state : MorseRaw)
      (update : (staticGroup (sentReq args) beyond true).update = true) :=
    have kept := ((updates beyond true).mp update).1
    have listed := ((updates beyond true).mp update).2
    have checks := (accepted.checks kept).1
    have nonzero := (accepted.checks kept).2
    have small : (reqId args).toNat < rawInternalIdOffset.toNat := by
      rw [reqId] at nonzero ⊢
      cases given : args.id with
      | none => decide
      | some value =>
        obtain ⟨positive, below⟩ := (wide kept).id value given
        have sent := toNat_setWidth_sixteen positive (accepted.id value given)
        have below := below listed
        rw [Option.map_some, Option.getD_some]
        omega
    @processConfigGroup_update args state (staticGroup (sentReq args) beyond true)
      checks.slotDef (by rw [id]; exact small) (by rw [id]; exact nonzero listed) update rfl
      ((@staticGroup_sentReq args beyond true).2.2 kept)
  refine
    { id := fun value given => ?_
      walks := fun beyond memory update => ?_
      stores := fun beyond state update => ?_
      accepts := fun beyond state ret after update slotDef aidGroup done => ?_ }
  · rw [sent]
    exact reqId_toNat given (range.id value given).1 (range.id value given).2
  · obtain ⟨kept, -⟩ := (updates beyond memory).mp update
    rw [(@staticGroup_sentReq args beyond memory).2.2 kept]
    exact toolTlvs_iff.mpr ⟨(accepted.checks kept).1, rfl⟩
  · obtain ⟨ret, after, done, -, found⟩ := processed beyond state update
    rw [id] at found
    refine ⟨ret, after, _, done, by rw [sent]; exact found, ?_⟩
    rw [sent]
    exact carries_insertAt (carries_configured range _) _
  · obtain ⟨kept, -⟩ := (updates beyond true).mp update
    obtain ⟨ret', after', again, valid, -⟩ := processed beyond state update
    cases again.symm.trans done
    exact valid (isConfigValid_configured (accepted.checks kept).1 slotDef aidGroup _)

end Agreement

/-- If the command is sent: to delete, all values are in their ranges; otherwise none of them is
narrowed, and the validity is one. -/
def Unnarrowed (args : RawArgs) : Prop :=
  if args.enable = some .delete then InRange args else Wide args

/--
For all options, the tool sends only values in their ranges, which the driver reads and stores as
they were given, exactly when a check of the tool fails or none of the options is narrowed.
-/
theorem agrees_iff (args : RawArgs) : Agrees args ↔ (Accepted args → Unnarrowed args) := by
  constructor
  · intro agrees accepted
    obtain ⟨range, driver⟩ := agrees (sentReq args) (raw_iff.mpr ⟨accepted, rfl⟩)
    rw [Unnarrowed]
    split
    · exact range
    · next kept =>
        refine
          { id := fun id given => ⟨(range.id id given).1, fun listed => ?_⟩
            slotDef := fun option given => ?_
            aidGroup := fun option given => ?_
            praw := fun option given => ?_
            bcnSpread := range.bcnSpread }
        · by_contra large
          have sent := reqId_toNat given (range.id id given).1 (range.id id given).2
          have update := ((@staticGroup_sentReq args [] true).2.1).mpr ⟨kept, listed⟩
          obtain ⟨ret, after, config, done, found, -⟩ :=
            driver.stores [] (MorseRaw.init true) update
          have refused : (MorseRaw.init true).processConfigGroup
              (staticGroup (sentReq args) [] true) = some (some .eperm, .init true) := by
            rw [MorseRaw.processConfigGroup, (@staticGroup_sentReq args [] true).1, if_pos]
            rw [BitVec.le_def]
            omega
          cases refused.symm.trans done
          cases found
        · have slots := (range.slotDef option given).1
          omega
        · have aids := range.aidGroup option given
          unfold rawCmdMaxAid at aids
          omega
        · rcases (range.praw option given).2.1 with persistent | limited
          · exact .inl persistent
          · exact .inr limited.1
  · intro unnarrowed req sent
    obtain ⟨accepted, rfl⟩ := raw_iff.mp sent
    have unnarrowed := unnarrowed accepted
    rw [Unnarrowed] at unnarrowed
    by_cases delete : args.enable = some .delete
    · rw [if_pos delete] at unnarrowed
      exact ⟨unnarrowed, driverAgrees_of_wide accepted unnarrowed fun kept => absurd delete kept⟩
    · rw [if_neg delete] at unnarrowed
      have range := inRange_of_wide accepted.id (accepted.checks delete).1 unnarrowed
      exact ⟨range, driverAgrees_of_wide accepted range fun _ => unnarrowed⟩

/-- The options of a RAW for one AID. -/
def plainArgs : RawArgs where
  slotDef := some (1000, 2)
  crossSlot := false
  aidGroup := some (1, 1)
  startTime := none
  bcnSpread := none
  praw := none
  enable := some .enable
  id := some 1

/-- 257 slots are sent as one, a validity of zero is sent, and an identifier of the driver's own is
sent and refused. -/
theorem not_agrees_narrowed :
    ¬Agrees { plainArgs with slotDef := some (1000, 257) } ∧
      ¬Agrees { plainArgs with praw := some (2, 0, 1) } ∧
      ¬Agrees { plainArgs with id := some 0x8000 } := by
  refine ⟨fun agrees => ?_, fun agrees => ?_, fun agrees => ?_⟩
  · have range := (agrees _ rfl).1.slotDef _ rfl
    exact absurd range (by decide)
  · have range := (agrees _ rfl).1.praw _ rfl
    exact absurd range (by decide)
  · have ret := (agrees _ rfl).2.accepts [] (.init true) (some .eperm) (.init true) rfl rfl rfl rfl
    cases ret

end Raw
end Morse
