import Morse.Raw.Tool

/-!
# The octets of a command

The driver parses a command while it carries it out: the walk over the TLVs of a
dynamic command goes from one configuration group to the next, and each group is
walked in turn.  Here the walks run on the octets of the command alone, where a
read past their end is a fault, as is a division by zero.
-/

namespace Morse
namespace Raw

open Lib

/-- `MORSE_CMD_CFG_RAW_FLAG_DYNAMIC`. -/
def morseCmdCfgRawFlagDynamic : BitVec 32 := 0x8

/-- What may go wrong in a walk. -/
inductive Fault
  | overrun
  | divides
  deriving DecidableEq, Repr

namespace RawReq

/-- The offset of the tail that the walks go to, from the TLVs on. -/
def tail (req : RawReq) : Nat := req.hdrLen.toNat - sizeofReq

/-- The octets behind the fixed fields that belong to the command. -/
def command (req : RawReq) : List (BitVec 8) := req.variablePart.take req.tail

/-- `is_dynamic_req`. -/
def isDynamicReq (req : RawReq) : Bool := decide (req.flags &&& morseCmdCfgRawFlagDynamic ≠ 0)

/-- What a static command says apart from its TLVs. -/
def group (req : RawReq) (memory : Bool) : ConfigGroup :=
  { staticGroup req [] memory with tlvs := [] }

end RawReq

/-! ## The walk over a configuration -/

/-- The TLV at an offset, and its size. -/
def readTlv (command : List (BitVec 8)) (head : Nat) : Except Fault (Tlv × Nat) :=
  if command.length ≤ head then .error .overrun
  else
    let read := tlvAt (command.drop head)
    if command.length < head + read.2 then .error .overrun else .ok read

/-- The TLVs that the loop of `morse_raw_cmd_to_config` meets between two
offsets; `none` if the loop takes more turns than the fuel allows. -/
def walkConfig (command : List (BitVec 8)) : Nat → Nat → Nat → Option (Except Fault (List Tlv))
  | 0, _, _ => none
  | fuel + 1, head, tail =>
    if tail ≤ head then some (.ok [])
    else
      match readTlv command head with
      | .error fault => some (.error fault)
      | .ok (.unrecognised, _) => some (.ok [.unrecognised])
      | .ok (tlv, size) =>
        (walkConfig command fuel (head + size) tail).map (Except.map (tlv :: ·))

namespace MorseRaw

/-- Whether `morse_raw_process_config_group` comes to the TLVs of a group. -/
def walksGroup (raw : MorseRaw) (group : ConfigGroup) : Bool :=
  decide (group.id < rawInternalIdOffset) && decide (group.id ≠ 0) && group.update &&
    (raw.createOrFindById group.memory group.id).isSome

/-- `morse_raw_process_config_group` of a group whose TLVs are known. -/
def checkedGroup (raw : MorseRaw) (group : ConfigGroup) :
    Except Fault (Option Errno × MorseRaw) :=
  match raw.processConfigGroup group with
  | none => .error .divides
  | some processed => .ok processed

/-- `morse_raw_process_config_group` of a group whose TLVs lie between two
offsets. -/
def processGroupAt (raw : MorseRaw) (command : List (BitVec 8)) (fuel head tail : Nat)
    (group : ConfigGroup) : Option (Except Fault (Option Errno × MorseRaw)) :=
  if raw.walksGroup group then
    (walkConfig command fuel head tail).map fun walked =>
      walked.bind fun tlvs => raw.checkedGroup { group with tlvs := tlvs }
  else some (raw.checkedGroup group)

/-! ## The walk over a dynamic command -/

/-- The fields of a TLV of a dynamic command. -/
inductive DynamicRead
  | global (numConfigs numBcnIndexes : BitVec 16)
  | config (id index len : BitVec 16)
  | nested
  | unrecognised
  deriving DecidableEq, Repr

/-- The TLV of a dynamic command at an offset. -/
def readDynamic (command : List (BitVec 8)) (head : Nat) : Except Fault DynamicRead :=
  if command.length ≤ head then .error .overrun
  else
    let octets := command.drop head
    match (numberAt 8 1 0 octets).toNat with
    | 0 | 1 | 2 | 3 | 4 => .ok .nested
    | 5 =>
      if command.length < head + 5 then .error .overrun
      else .ok (.global (numberAt 16 2 1 octets) (numberAt 16 2 3 octets))
    | 6 =>
      if command.length < head + 7 then .error .overrun
      else .ok (.config (numberAt 16 2 1 octets) (numberAt 16 2 3 octets)
        (numberAt 16 2 5 octets))
    | _ => .ok .unrecognised

/-- The loop of `morse_raw_process_dynamic_cmd` from an offset on.  At a nested TLV
the head stays where it is.  `memory` says of each offset whether an allocation
there succeeds. -/
def dynamicLoop (command : List (BitVec 8)) (memory : Nat → Bool) (tail : Nat) :
    Nat → Nat → MorseRaw → Option (Except Fault Walked)
  | 0, _, _ => none
  | fuel + 1, head, raw =>
    if tail ≤ head then some (.ok (.ended none raw))
    else
      match readDynamic command head with
      | .error fault => some (.error fault)
      | .ok (.global numConfigs numBcnIndexes) =>
        let raw := { raw with numBeacons := numBcnIndexes.setWidth 8 }
        if numConfigs = 0 then some (.ok (.returned raw))
        else dynamicLoop command memory tail fuel (head + 5) raw
      | .ok (.config id index len) =>
        match raw.processGroupAt command fuel (head + 7) (head + 7 + len.toNat)
            (dynamicGroup id index [] (memory head)) with
        | none => none
        | some (.error fault) => some (.error fault)
        | some (.ok (none, raw)) =>
          dynamicLoop command memory tail fuel (head + 7 + len.toNat) raw
        | some (.ok (some error, raw)) => some (.ok (.ended (some error) raw))
      | .ok .nested => dynamicLoop command memory tail fuel head raw
      | .ok .unrecognised => some (.ok (.ended (some .einval) raw))

/-- The end of `morse_raw_process_dynamic_cmd`. -/
def endDynamic : Walked → MorseRaw
  | .returned raw => raw
  | .ended ret raw =>
    let decided := { raw with updateEachBeacon := decide (raw.activeRaws ≠ []) }
    let enabled :=
      if ret = none ∧ decided.enabled = false then { decided with enabled := true }
      else decided
    enabled.triggerUpdate false

/-- `morse_raw_process_cmd`, on the octets of a request. -/
def processCmd (raw : MorseRaw) (req : RawReq) (memory : Nat → Bool) (dtimPeriod : BitVec 8)
    (stray : BitVec 16 → BitVec 16) (fuel : Nat) : Option (Except Fault MorseRaw) :=
  if req.isDynamicReq then
    if 0 < raw.numStatic then some (.ok raw)
    else
      (dynamicLoop req.command memory req.tail fuel 0 raw.dynamicRawInit).map
        (Except.map endDynamic)
  else
    (raw.dynamicRawInit.processGroupAt req.command fuel 0 req.tail (req.group (memory 0))).map
      (Except.map fun processed =>
        (processed.2.decideUpdateEachBeacon dtimPeriod stray).triggerUpdate false)

end MorseRaw

/-! ## Well-formed commands -/

/-- A TLV of a configuration that is recognised and can be taken in. -/
def Tlv.Complete (tlv : Tlv) : Prop :=
  tlv ≠ .unrecognised ∧
    ∀ rawDurationUs crossSlotBleed, tlv ≠ .slotDef rawDurationUs 0 crossSlotBleed

/-- What a dynamic command consists of. -/
inductive DynamicItem
  | global (numConfigs numBcnIndexes : BitVec 16)
  | config (id index : BitVec 16) (tlvs : List Tlv)

namespace DynamicItem

/-- An item in memory. -/
def octets : DynamicItem → List (BitVec 8)
  | .global numConfigs numBcnIndexes =>
    leOctets 1 (5 : BitVec 8) ++ (leOctets 2 numConfigs ++ (leOctets 2 numBcnIndexes ++ []))
  | .config id index tlvs =>
    leOctets 1 (6 : BitVec 8) ++ (leOctets 2 id ++ (leOctets 2 index ++
      (leOctets 2 (BitVec.ofNat 16 (tlvs.flatMap Tlv.octets).length) ++
        tlvs.flatMap Tlv.octets)))

/-- The TLVs of an item are complete, and their size fits in its field. -/
def Complete : DynamicItem → Prop
  | .global _ _ => True
  | .config _ _ tlvs =>
    (∀ tlv ∈ tlvs, tlv.Complete) ∧ (tlvs.flatMap Tlv.octets).length < 65536

end DynamicItem

/-- A command is well formed: as many octets as its header says are there, and
they are those of complete TLVs, if they are read at all. -/
def RawReq.WellFormed (req : RawReq) : Prop :=
  if req.isDynamicReq then
    req.tail ≤ req.variablePart.length ∧
      ∃ items : List DynamicItem, (∀ item ∈ items, item.Complete) ∧
        req.command = items.flatMap DynamicItem.octets
  else
    req.id < rawInternalIdOffset → req.id ≠ 0 → (req.group true).update = true →
      req.tail ≤ req.variablePart.length ∧
        ∃ tlvs : List Tlv, (∀ tlv ∈ tlvs, tlv.Complete) ∧
          req.command = tlvs.flatMap Tlv.octets

/-- What a command sets in a configuration, without what is counted in it. -/
def RawConfig.settings (cfg : RawConfig) : RawConfig :=
  { cfg with
    startAidIdx := 0
    endAidIdx := 0
    periodic := { cfg.periodic with curValidity := 0, curStartOffset := 0 }
    beaconSpreading := { cfg.beaconSpreading with lastAid := 0 } }

/-- The active configurations stay active with their settings. -/
def MorseRaw.ActiveKept (before after : MorseRaw) : Prop :=
  ∀ id, before.isConfigActive id = true →
    after.isConfigActive id = true ∧
      (after.findConfigById id).map RawConfig.settings =
        (before.findConfigById id).map RawConfig.settings

/-- The walk over a command ends, reads the octets of the command only, does not
divide by zero, and keeps the active configurations if the command is malformed. -/
structure RawReq.ParsedSafely (req : RawReq) (raw : MorseRaw) (memory : Nat → Bool)
    (dtimPeriod : BitVec 8) (stray : BitVec 16 → BitVec 16) : Prop where
  ends : ∃ fuel result, raw.processCmd req memory dtimPeriod stray fuel = some result
  inBounds : ∀ fuel, raw.processCmd req memory dtimPeriod stray fuel ≠ some (.error .overrun)
  divides : ∀ fuel, raw.processCmd req memory dtimPeriod stray fuel ≠ some (.error .divides)
  kept : ¬ req.WellFormed → ∀ fuel after,
    raw.processCmd req memory dtimPeriod stray fuel = some (.ok after) → raw.ActiveKept after

/-! ## The walk over complete TLVs -/

theorem readTlv_octets (known : tlv ≠ .unrecognised)
    (ahead : command.drop head = tlv.octets ++ rest) :
    readTlv command head = .ok (tlv, tlv.octets.length) := by
  have size := Tlv.length_octets known
  have left := congrArg List.length ahead
  rw [List.length_drop, List.length_append] at left
  rw [readTlv, ahead, tlvAt_octets known, if_neg (by omega), if_neg (by omega)]

theorem walkConfig_octets {command rest : List (BitVec 8)} {fuel head : Nat} {tlvs : List Tlv}
    (known : ∀ tlv ∈ tlvs, tlv ≠ .unrecognised)
    (ahead : command.drop head = tlvs.flatMap Tlv.octets ++ rest) :
    walkConfig command fuel head (head + (tlvs.flatMap Tlv.octets).length) = some (.ok tlvs) ∨
      walkConfig command fuel head (head + (tlvs.flatMap Tlv.octets).length) = none ∧
        fuel ≤ (tlvs.flatMap Tlv.octets).length := by
  induction tlvs generalizing fuel head with
  | nil =>
    cases fuel with
    | zero => exact .inr ⟨rfl, Nat.zero_le _⟩
    | succ fuel => exact .inl (if_pos (Nat.le_refl head))
  | cons tlv tlvs ih =>
    obtain ⟨first, later⟩ := List.forall_mem_cons.mp known
    have size := Tlv.length_octets first
    rw [List.flatMap_cons, List.append_assoc] at ahead
    cases fuel with
    | zero => exact .inr ⟨rfl, Nat.zero_le _⟩
    | succ fuel =>
      have beyond : command.drop (head + tlv.octets.length) =
          tlvs.flatMap Tlv.octets ++ rest := by
        rw [← List.drop_drop, ahead, List.drop_left]
      have met := @ih fuel (head + tlv.octets.length) later beyond
      rw [List.flatMap_cons, List.length_append, ← Nat.add_assoc]
      have turn : walkConfig command (fuel + 1) head
          (head + tlv.octets.length + (tlvs.flatMap Tlv.octets).length) =
          (walkConfig command fuel (head + tlv.octets.length)
            (head + tlv.octets.length + (tlvs.flatMap Tlv.octets).length)).map
              (Except.map (tlv :: ·)) := by
        rw [walkConfig, if_neg (by omega), readTlv_octets first ahead]
        cases tlv with
        | unrecognised => exact absurd rfl first
        | slotDef | group | startTime | praw | bcnSpread => rfl
      rw [turn]
      rcases met with done | ⟨short, few⟩
      · rw [done]
        exact .inl rfl
      · rw [short]
        exact .inr ⟨rfl, by omega⟩

theorem exists_cmdToConfig (complete : ∀ tlv ∈ tlvs, tlv.Complete) (cfg : RawConfig) :
    ∃ parsed, morseRawCmdToConfig tlvs cfg = some parsed := by
  induction tlvs generalizing cfg with
  | nil => exact ⟨_, rfl⟩
  | cons tlv tlvs ih =>
    obtain ⟨first, later⟩ := List.forall_mem_cons.mp complete
    cases tlv with
    | slotDef rawDurationUs numSlots crossSlotBleed =>
      have some : numSlots ≠ 0 := by
        rintro rfl
        exact first.2 _ _ rfl
      rw [morseRawCmdToConfig, if_neg some]
      exact ih later _
    | group | startTime | praw | bcnSpread => exact ih later _
    | unrecognised => exact absurd rfl first.1

namespace MorseRaw

theorem exists_processConfigGroup (complete : ∀ tlv ∈ group.tlvs, tlv.Complete) (raw : MorseRaw) :
    ∃ processed, raw.processConfigGroup group = some processed := by
  rw [processConfigGroup]
  split
  · exact ⟨_, rfl⟩
  · split
    · exact ⟨_, rfl⟩
    · split
      · split
        · exact ⟨_, rfl⟩
        · next old created _ =>
            obtain ⟨⟨valid, new⟩, parsed⟩ := exists_cmdToConfig complete old
            rw [parsed]
            cases valid with
            | false => exact ⟨_, rfl⟩
            | true => exact ⟨_, rfl⟩
      · split
        · exact ⟨_, rfl⟩
        · split <;> exact ⟨_, rfl⟩

theorem processConfigGroup_of_not_walks {raw : MorseRaw} (unread : raw.walksGroup group = false)
    (tlvs : List Tlv) :
    raw.processConfigGroup { group with tlvs := tlvs } = raw.processConfigGroup group := by
  rw [processConfigGroup, processConfigGroup]
  by_cases high : rawInternalIdOffset ≤ group.id
  · rw [if_pos high, if_pos high]
  · by_cases zero : group.id = 0
    · rw [if_pos zero, if_pos zero]
      rfl
    · rw [if_neg zero, if_neg zero]
      cases update : group.update with
      | false => rfl
      | true =>
        have absent : raw.createOrFindById group.memory group.id = none := by
          rw [walksGroup, decide_eq_true (BitVec.not_le.mp high), decide_eq_true zero, update]
            at unread
          simpa using unread
        rw [absent]

theorem processGroupAt_octets {command rest : List (BitVec 8)} {fuel head : Nat} {tlvs : List Tlv}
    {raw : MorseRaw} {group : ConfigGroup} {processed : Option Errno × MorseRaw}
    (known : ∀ tlv ∈ tlvs, tlv ≠ .unrecognised)
    (ahead : command.drop head = tlvs.flatMap Tlv.octets ++ rest)
    (exact : raw.processConfigGroup { group with tlvs := tlvs } = some processed) :
    raw.processGroupAt command fuel head (head + (tlvs.flatMap Tlv.octets).length) group =
        some (.ok processed) ∨
      raw.processGroupAt command fuel head (head + (tlvs.flatMap Tlv.octets).length) group =
        none ∧ fuel ≤ (tlvs.flatMap Tlv.octets).length := by
  rw [processGroupAt]
  cases walks : raw.walksGroup group with
  | false =>
    rw [processConfigGroup_of_not_walks walks] at exact
    rw [checkedGroup, exact]
    exact .inl rfl
  | true =>
    rw [if_pos rfl]
    rcases @walkConfig_octets command rest fuel head tlvs known ahead with done | ⟨short, few⟩
    · rw [done]
      refine .inl ?_
      rw [Option.map_some, Except.bind, checkedGroup, exact]
    · rw [short]
      exact .inr ⟨rfl, few⟩

end MorseRaw

/-! ## The walk over complete items -/

namespace DynamicItem

/-- The TLV of an item at an offset. -/
def toTlv (memory : Nat → Bool) (head : Nat) : DynamicItem → DynamicTlv
  | .global numConfigs numBcnIndexes => .global numConfigs numBcnIndexes
  | .config id index tlvs => .config id index tlvs (memory head)

/-- The TLVs of some items, from an offset on. -/
def toTlvs (memory : Nat → Bool) : Nat → List DynamicItem → List DynamicTlv
  | _, [] => []
  | head, item :: rest => item.toTlv memory head :: toTlvs memory (head + item.octets.length) rest

/-- What is read of an item. -/
def read : DynamicItem → MorseRaw.DynamicRead
  | .global numConfigs numBcnIndexes => .global numConfigs numBcnIndexes
  | .config id index tlvs =>
    .config id index (BitVec.ofNat 16 (tlvs.flatMap Tlv.octets).length)

theorem length_global (numConfigs numBcnIndexes : BitVec 16) :
    (DynamicItem.global numConfigs numBcnIndexes).octets.length = 5 := by
  simp [octets]

theorem length_config (id index : BitVec 16) (tlvs : List Tlv) :
    (DynamicItem.config id index tlvs).octets.length =
      7 + (tlvs.flatMap Tlv.octets).length := by
  simp only [octets, List.length_append, length_leOctets]
  omega

theorem drop_config (id index : BitVec 16) (tlvs : List Tlv) (rest : List (BitVec 8)) :
    ((DynamicItem.config id index tlvs).octets ++ rest).drop 7 =
      tlvs.flatMap Tlv.octets ++ rest := by
  rfl

end DynamicItem

theorem readDynamic_octets {item : DynamicItem} (ahead : command.drop head = item.octets ++ rest) :
    MorseRaw.readDynamic command head = .ok item.read := by
  have left := congrArg List.length ahead
  rw [List.length_drop, List.length_append] at left
  cases item with
  | global numConfigs numBcnIndexes =>
    rw [DynamicItem.length_global] at left
    have room : ¬ command.length < head + 5 := by omega
    rw [MorseRaw.readDynamic, if_neg (by omega), ahead]
    simp [DynamicItem.octets, DynamicItem.read, numberAt_zero, numberAt_behind, room]
  | config id index tlvs =>
    rw [DynamicItem.length_config] at left
    have room : ¬ command.length < head + 7 := by omega
    rw [MorseRaw.readDynamic, if_neg (by omega), ahead]
    simp [DynamicItem.octets, DynamicItem.read, numberAt_zero, numberAt_behind, room]

namespace MorseRaw

theorem dynamicLoop_octets {command rest : List (BitVec 8)} {memory : Nat → Bool} {fuel head : Nat}
    {items : List DynamicItem} (complete : ∀ item ∈ items, item.Complete)
    (ahead : command.drop head = items.flatMap DynamicItem.octets ++ rest) (raw : MorseRaw) :
    ∃ walked, dynamicWalk (DynamicItem.toTlvs memory head items) raw = some walked ∧
      (dynamicLoop command memory (head + (items.flatMap DynamicItem.octets).length) fuel head
          raw = some (.ok walked) ∨
        dynamicLoop command memory (head + (items.flatMap DynamicItem.octets).length) fuel head
          raw = none ∧ fuel ≤ (items.flatMap DynamicItem.octets).length) := by
  induction items generalizing fuel head raw with
  | nil =>
    refine ⟨_, rfl, ?_⟩
    cases fuel with
    | zero => exact .inr ⟨rfl, Nat.zero_le _⟩
    | succ fuel => exact .inl (if_pos (Nat.le_refl head))
  | cons item items ih =>
    obtain ⟨first, later⟩ := List.forall_mem_cons.mp complete
    rw [List.flatMap_cons, List.append_assoc] at ahead
    have beyond : command.drop (head + item.octets.length) =
        items.flatMap DynamicItem.octets ++ rest := by
      rw [← List.drop_drop, ahead, List.drop_left]
    have read := readDynamic_octets ahead
    rw [List.flatMap_cons, List.length_append, ← Nat.add_assoc, DynamicItem.toTlvs]
    have further (less : Nat) (next : MorseRaw) :=
      @ih less (head + item.octets.length) later beyond next
    cases item with
    | global numConfigs numBcnIndexes =>
      have size := DynamicItem.length_global numConfigs numBcnIndexes
      rw [DynamicItem.toTlv, MorseRaw.dynamicWalk]
      by_cases zero : numConfigs = 0
      · rw [if_pos zero]
        refine ⟨_, rfl, ?_⟩
        cases fuel with
        | zero => exact .inr ⟨rfl, Nat.zero_le _⟩
        | succ fuel =>
          rw [dynamicLoop, if_neg (by omega), read, DynamicItem.read]
          dsimp only
          rw [if_pos zero]
          exact .inl rfl
      · rw [if_neg zero]
        cases fuel with
        | zero =>
          obtain ⟨walked, walk, _⟩ :=
            further 0 { raw with numBeacons := numBcnIndexes.setWidth 8 }
          exact ⟨walked, walk, .inr ⟨rfl, Nat.zero_le _⟩⟩
        | succ fuel =>
          obtain ⟨walked, walk, met⟩ :=
            further fuel { raw with numBeacons := numBcnIndexes.setWidth 8 }
          refine ⟨walked, walk, ?_⟩
          rw [dynamicLoop, if_neg (by omega), read, DynamicItem.read]
          dsimp only
          rw [if_neg zero]
          exact met.imp_right fun left => ⟨left.1, by omega⟩
    | config id index tlvs =>
      obtain ⟨completeTlvs, narrow⟩ := first
      have size := DynamicItem.length_config id index tlvs
      have inside : command.drop (head + 7) =
          tlvs.flatMap Tlv.octets ++ (items.flatMap DynamicItem.octets ++ rest) := by
        rw [← List.drop_drop, ahead, DynamicItem.drop_config]
      have len : (BitVec.ofNat 16 (tlvs.flatMap Tlv.octets).length).toNat =
          (tlvs.flatMap Tlv.octets).length := by
        exact Nat.mod_eq_of_lt narrow
      obtain ⟨⟨ret, next⟩, processed⟩ :=
        @exists_processConfigGroup (dynamicGroup id index tlvs (memory head)) completeTlvs raw
      have group (less : Nat) := @processGroupAt_octets command _ less (head + 7) tlvs raw
        (dynamicGroup id index [] (memory head)) (ret, next)
        (fun tlv member => (completeTlvs tlv member).1) inside processed
      rw [DynamicItem.toTlv, MorseRaw.dynamicWalk, processed]
      cases ret with
      | none =>
        cases fuel with
        | zero =>
          obtain ⟨walked, walk, _⟩ := further 0 next
          exact ⟨walked, walk, .inr ⟨rfl, Nat.zero_le _⟩⟩
        | succ fuel =>
          obtain ⟨walked, walk, met⟩ := further fuel next
          refine ⟨walked, walk, ?_⟩
          rw [dynamicLoop, if_neg (by omega), read, DynamicItem.read]
          dsimp only
          rw [len]
          rcases group fuel with done | ⟨short, few⟩
          · have behind : head + 7 + (tlvs.flatMap Tlv.octets).length =
                head + (DynamicItem.config id index tlvs).octets.length := by omega
            rw [done, behind]
            exact met.imp_right fun left => ⟨left.1, by omega⟩
          · rw [short]
            exact .inr ⟨rfl, by omega⟩
      | some error =>
        refine ⟨_, rfl, ?_⟩
        cases fuel with
        | zero => exact .inr ⟨rfl, Nat.zero_le _⟩
        | succ fuel =>
          rw [dynamicLoop, if_neg (by omega), read, DynamicItem.read]
          dsimp only
          rw [len]
          rcases group fuel with done | ⟨short, few⟩
          · rw [done]
            exact .inl rfl
          · rw [short]
            exact .inr ⟨rfl, by omega⟩

/-! ## Whole commands -/

/-- A walk over octets comes to a result with a turn for each octet, and to no
other with fewer. -/
def ComesTo (walk : Nat → Option (Except Fault MorseRaw)) (turns : Nat) (after : MorseRaw) : Prop :=
  ∀ fuel, walk fuel = some (.ok after) ∨ walk fuel = none ∧ fuel ≤ turns

theorem processDynamicCmd_of_walk {raw : MorseRaw} (none : ¬ 0 < raw.numStatic)
    (walk : MorseRaw.dynamicWalk tlvs raw.dynamicRawInit = some walked) :
    raw.processDynamicCmd tlvs = some (endDynamic walked) := by
  rw [processDynamicCmd, if_neg none, walk]
  cases walked with
  | returned => rfl
  | ended => rfl

variable {req : RawReq}

theorem length_command (covered : req.tail ≤ req.variablePart.length) :
    req.command.length = req.tail := by
  rw [RawReq.command, List.length_take, Nat.min_eq_left covered]

theorem processCmd_dynamic (dynamic : req.isDynamicReq = true)
    (covered : req.tail ≤ req.variablePart.length) (complete : ∀ item ∈ items, item.Complete)
    (octets : req.command = items.flatMap DynamicItem.octets)
    (raw : MorseRaw) (memory : Nat → Bool) (dtimPeriod : BitVec 8) (stray : BitVec 16 → BitVec 16) :
    ∃ after, raw.processDynamicCmd (DynamicItem.toTlvs memory 0 items) = some after ∧
      ComesTo (raw.processCmd req memory dtimPeriod stray) req.tail after := by
  by_cases static : 0 < raw.numStatic
  · refine ⟨raw, by rw [processDynamicCmd, if_pos static], fun fuel => ?_⟩
    rw [processCmd, if_pos dynamic, if_pos static]
    exact .inl rfl
  · have ahead : req.command.drop 0 = items.flatMap DynamicItem.octets ++ [] := by
      rw [List.drop_zero, List.append_nil, octets]
    have tail : (items.flatMap DynamicItem.octets).length = req.tail := by
      rw [← octets, length_command covered]
    obtain ⟨walked, walk, _⟩ :=
      @dynamicLoop_octets _ _ memory 0 0 items complete ahead raw.dynamicRawInit
    refine ⟨endDynamic walked, processDynamicCmd_of_walk static walk, fun fuel => ?_⟩
    obtain ⟨same, again, met⟩ :=
      @dynamicLoop_octets _ _ memory fuel 0 items complete ahead raw.dynamicRawInit
    rw [walk, Option.some_inj] at again
    subst again
    rw [Nat.zero_add, tail] at met
    rw [processCmd, if_pos dynamic, if_neg static]
    rcases met with done | ⟨short, few⟩
    · rw [done]
      exact .inl rfl
    · rw [short]
      exact .inr ⟨rfl, few⟩

theorem processCmd_static (static : req.isDynamicReq = false)
    (covered : req.tail ≤ req.variablePart.length) (complete : ∀ tlv ∈ tlvs, tlv.Complete)
    (octets : req.command = tlvs.flatMap Tlv.octets)
    (raw : MorseRaw) (memory : Nat → Bool) (dtimPeriod : BitVec 8) (stray : BitVec 16 → BitVec 16) :
    ∃ after, raw.processStaticCmd dtimPeriod stray { req.group (memory 0) with tlvs := tlvs } =
        some after ∧
      ComesTo (raw.processCmd req memory dtimPeriod stray) req.tail after := by
  have ahead : req.command.drop 0 = tlvs.flatMap Tlv.octets ++ [] := by
    rw [List.drop_zero, List.append_nil, octets]
  have tail : (tlvs.flatMap Tlv.octets).length = req.tail := by
    rw [← octets, length_command covered]
  obtain ⟨processed, exact⟩ := @exists_processConfigGroup
    { req.group (memory 0) with tlvs := tlvs } complete raw.dynamicRawInit
  have index : { { req.group (memory 0) with tlvs := tlvs } with beaconIdx := u16Max } =
    { req.group (memory 0) with tlvs := tlvs } := rfl
  refine ⟨_, by rw [processStaticCmd, index, exact], fun fuel => ?_⟩
  rw [processCmd, if_neg (by rw [static]; exact Bool.false_ne_true)]
  have met := @processGroupAt_octets _ _ fuel 0 tlvs _ (req.group (memory 0)) processed
    (fun tlv member => (complete tlv member).1) ahead exact
  rw [Nat.zero_add, tail] at met
  rcases met with done | ⟨short, few⟩
  · rw [done]
    exact .inl rfl
  · rw [short]
    exact .inr ⟨rfl, few⟩

theorem processCmd_unread (static : req.isDynamicReq = false)
    (unread : ∀ state memory, MorseRaw.walksGroup state (req.group memory) = false)
    (raw : MorseRaw) (memory : Nat → Bool) (dtimPeriod : BitVec 8) (stray : BitVec 16 → BitVec 16) :
    ∃ after, ComesTo (raw.processCmd req memory dtimPeriod stray) req.tail after := by
  obtain ⟨processed, exact⟩ := @exists_processConfigGroup (req.group (memory 0))
    (fun tlv member => by cases member) raw.dynamicRawInit
  refine ⟨(processed.2.decideUpdateEachBeacon dtimPeriod stray).triggerUpdate false,
    fun fuel => .inl ?_⟩
  rw [processCmd, if_neg (by rw [static]; exact Bool.false_ne_true), processGroupAt,
    if_neg (by rw [unread]; exact Bool.false_ne_true), checkedGroup, exact]
  rfl

theorem comesTo_of_wellFormed (wellFormed : req.WellFormed)
    (raw : MorseRaw) (memory : Nat → Bool) (dtimPeriod : BitVec 8) (stray : BitVec 16 → BitVec 16) :
    ∃ after, ComesTo (raw.processCmd req memory dtimPeriod stray) req.tail after := by
  rw [RawReq.WellFormed] at wellFormed
  cases dynamic : req.isDynamicReq with
  | true =>
    rw [if_pos dynamic] at wellFormed
    obtain ⟨covered, items, complete, octets⟩ := wellFormed
    obtain ⟨after, _, comes⟩ :=
      processCmd_dynamic dynamic covered complete octets raw memory dtimPeriod stray
    exact ⟨after, comes⟩
  | false =>
    rw [if_neg (by rw [dynamic]; exact Bool.false_ne_true)] at wellFormed
    by_cases read : req.id < rawInternalIdOffset ∧ req.id ≠ 0 ∧ (req.group true).update = true
    · obtain ⟨covered, tlvs, complete, octets⟩ := wellFormed read.1 read.2.1 read.2.2
      obtain ⟨after, _, comes⟩ :=
        processCmd_static dynamic covered complete octets raw memory dtimPeriod stray
      exact ⟨after, comes⟩
    · refine processCmd_unread dynamic (fun state memory => ?_) raw memory dtimPeriod stray
      rw [← Bool.not_eq_true, walksGroup]
      simp only [Bool.and_eq_true, decide_eq_true_eq]
      exact fun walks => read ⟨walks.1.1.1, walks.1.1.2, walks.1.2⟩

/-! ## Malformed commands -/

/-- A state with one active dynamic configuration, for the stations up to some. -/
def withActive (endAid : BitVec 16) : MorseRaw :=
  { init true with
    numDynamic := 1
    rawConfigList := [{ RawConfig.zeroed 1 with endAid := endAid }]
    activeRaws := [1] }

end MorseRaw

/-- A command is parsed safely in every state if and only if it is well formed. -/
theorem parsedSafely_iff (req : RawReq) :
    (∀ raw memory dtimPeriod stray, req.ParsedSafely raw memory dtimPeriod stray) ↔
      req.WellFormed := by
  constructor
  · intro safely
    by_contra malformed
    have first := safely (.withActive 1) (fun _ => true) 1 fun _ => 0
    have second := safely (.withActive 2) (fun _ => true) 1 fun _ => 0
    obtain ⟨fuel, result, exact⟩ := first.ends
    cases result with
    | error fault =>
      cases fault with
      | overrun => exact first.inBounds fuel exact
      | divides => exact first.divides fuel exact
    | ok after =>
      have keptFirst := (first.kept malformed fuel after exact 1 (by decide)).2
      have keptSecond := (second.kept malformed fuel after exact 1 (by decide)).2
      rw [keptFirst] at keptSecond
      revert keptSecond
      decide
  · intro wellFormed raw memory dtimPeriod stray
    obtain ⟨after, comes⟩ :=
      MorseRaw.comesTo_of_wellFormed wellFormed raw memory dtimPeriod stray
    refine ⟨⟨req.tail + 1, .ok after, ?_⟩, fun fuel fault => ?_, fun fuel fault => ?_,
      fun malformed => absurd wellFormed malformed⟩
    · exact (comes (req.tail + 1)).resolve_right fun few => absurd few.2 (by omega)
    · rcases comes fuel with done | ⟨short, _⟩
      · rw [done] at fault
        cases fault
      · rw [short] at fault
        cases fault
    · rcases comes fuel with done | ⟨short, _⟩
      · rw [done] at fault
        cases fault
      · rw [short] at fault
        cases fault

/-- A dynamic command with an AID group outside of any configuration. -/
def strayGroup : RawReq where
  hdrLen := 11
  flags := 0x9
  id := 0
  variablePart := Tlv.octets (.group 1 10)

theorem dynamicLoop_strayGroup (memory : Nat → Bool) (fuel : Nat) (raw : MorseRaw) :
    MorseRaw.dynamicLoop strayGroup.command memory strayGroup.tail fuel 0 raw = none := by
  induction fuel with
  | zero => rfl
  | succ fuel ih =>
    exact ih

/-- The walk over a command with a stray TLV does not end. -/
theorem not_parsedSafely :
    ¬ ∀ (req : RawReq) (raw : MorseRaw) (memory : Nat → Bool) (dtimPeriod : BitVec 8)
      (stray : BitVec 16 → BitVec 16), req.ParsedSafely raw memory dtimPeriod stray := by
  intro safely
  obtain ⟨fuel, result, exact⟩ :=
    (safely strayGroup (MorseRaw.init true) (fun _ => true) 1 fun _ => 0).ends
  rw [MorseRaw.processCmd, dynamicLoop_strayGroup] at exact
  cases exact

end Raw
end Morse
