import Morse.Raw.SlotDefinition
import Morse.Raw.Spreading
import Morse.Lib.Framing
import Morse.Lib.Octets

/-!
# The octets of the element

The element has an assignment for each configuration.  Bits of its control octet
say which of the optional fields it has.  Its size is found before it is written,
from the same fields of the configuration.
-/

namespace Morse
namespace Raw

open Lib

/-! ## The writer -/

/-- `IEEE80211_S1G_RPS_RAW_CONTROL_START_IND`. -/
def rawControlStartInd : BitVec 8 := 0x10

/-- `IEEE80211_S1G_RPS_RAW_CONTROL_GROUP_IND`. -/
def rawControlGroupInd : BitVec 8 := 0x20

/-- `IEEE80211_S1G_RPS_RAW_CONTROL_CHAN_IND`. -/
def rawControlChanInd : BitVec 8 := 0x40

/-- `IEEE80211_S1G_RPS_RAW_CONTROL_PERIODIC_IND`. -/
def rawControlPeriodicInd : BitVec 8 := 0x80

/-- `US_TO_TWO_TU`. -/
def usToTwoTu (us : BitVec 32) : BitVec 32 := us / 2048

/-- A configuration has a start time to announce. -/
def RawConfig.hasStartTime (config : RawConfig) : Bool := decide (config.startTimeUs ≠ 0)

/-- What an assignment adds to the size: `ieee80211_s1g_rps_raw_assignment`, a
start time, a group and the periodic fields. -/
def assignmentSize (config : RawConfig) : BitVec 16 :=
  (if config.hasStartTime then 1 else 0) + 3 + (if config.isPeriodic then 3 else 0) + 3

/-- `morse_raw_calc_rps_ie_size`. -/
def calcRpsIeSize (configs : List RawConfig) : BitVec 16 :=
  configs.foldl (fun size config => size + assignmentSize config) 0

/-- `raw_control` of a generic configuration, whose type is zero. -/
def rawControl (config : RawConfig) : BitVec 8 :=
  flag config.hasStartTime rawControlStartInd ||| rawControlGroupInd |||
    flag config.isPeriodic rawControlPeriodicInd

/-- `raw_group12`, of page zero. -/
def rawGroup12 (startAid endAid : BitVec 16) : BitVec 16 :=
  ((startAid.setWidth 32 <<< 2) &&& genmask 12 2).setWidth 16 |||
    ((endAid.setWidth 32 <<< 13) &&& genmask 15 13).setWidth 16

/-- `raw_group3`. -/
def rawGroup3 (endAid : BitVec 16) : BitVec 8 := (endAid >>> 3).setWidth 8

/-- An optional field. -/
def optionally (present : Bool) (octets : List (BitVec 8)) : List (BitVec 8) :=
  if present then octets else []

/-- `morse_raw_generate_assignment_with_aid_range`: the octets, and the
configuration with its slots capped. -/
def generateAssignmentWithAidRange (config : RawConfig) (startAid endAid : BitVec 16) :
    List (BitVec 8) × RawConfig :=
  let slots := generateSlotDefinition .generic config.slotDefinition
  (leOctets 1 (rawControl config) ++ (leOctets 2 slots.1 ++
    (optionally config.hasStartTime
        (leOctets 1 ((usToTwoTu config.startTimeUs).setWidth 8 : BitVec 8)) ++
      (leOctets 2 (rawGroup12 startAid endAid) ++ (leOctets 1 (rawGroup3 endAid) ++
        optionally config.isPeriodic
          (leOctets 1 config.periodic.periodicity ++ (leOctets 1 config.periodic.curValidity ++
            leOctets 1 config.periodic.curStartOffset)))))),
    { config with slotDefinition := slots.2 })

/-- The loop of `morse_raw_generate_rps_ie`: the octets, and the configurations
that it leaves; `none` is a division by zero. -/
def generateElement (aids : List (BitVec 16)) :
    List RawConfig → Option (List (BitVec 8) × List RawConfig)
  | [] => some ([], [])
  | config :: rest =>
    match generateAssignment aids config with
    | none => none
    | some (config, assignment) =>
      let written := generateAssignmentWithAidRange config assignment.startAid assignment.endAid
      match generateElement aids rest with
      | none => none
      | some (octets, configs) => some (written.1 ++ octets, written.2 :: configs)

/-! ## The reader -/

/-- What a station reads from an assignment. -/
structure Reading where
  startTime2tu : Option (BitVec 8)
  slotDefinition : SlotDefinition
  /-- start and end of the group -/
  group : Option (BitVec 16 × BitVec 16)
  channel : Option (BitVec 16)
  /-- periodicity, validity and start offset -/
  periodic : Option (BitVec 8 × BitVec 8 × BitVec 8)
  deriving DecidableEq, Repr

/-- A field that is present or not, and the octets behind it. -/
def readField (present : Bool) (w count : Nat) (octets : List (BitVec 8)) :
    BitVec w × List (BitVec 8) :=
  if present then (headNumber w count octets, octets.drop count) else (0, octets)

/-- The number of octets of a field that is present or not. -/
def fieldLength (present : Bool) (count : Nat) : Nat := if present then count else 0

/-- The number of octets that a control octet announces, itself included. -/
def announcedLength (control : BitVec 8) : Nat :=
  3 + fieldLength (hasMask control rawControlStartInd) 1 +
    fieldLength (hasMask control rawControlGroupInd) 3 +
    fieldLength (hasMask control rawControlChanInd) 2 +
    fieldLength (hasMask control rawControlPeriodicInd) 3

/-- The start and the end of a group from its three octets. -/
def groupAids (group12 : BitVec 16) (group3 : BitVec 8) : BitVec 16 × BitVec 16 :=
  ((group12.extractLsb' 2 11).setWidth 16,
    (group12.extractLsb' 13 3).setWidth 16 ||| (group3.setWidth 16 <<< 3))

/-- The fields of an assignment. -/
def readAssignment (octets : List (BitVec 8)) : Reading :=
  let control := readField true 8 1 octets
  let start := hasMask control.1 rawControlStartInd
  let group := hasMask control.1 rawControlGroupInd
  let chan := hasMask control.1 rawControlChanInd
  let periodic := hasMask control.1 rawControlPeriodicInd
  let slotDef := readField true 16 2 control.2
  let startTime := readField start 8 1 slotDef.2
  let group12 := readField group 16 2 startTime.2
  let group3 := readField group 8 1 group12.2
  let channel := readField chan 16 2 group3.2
  let periodicity := readField periodic 8 1 channel.2
  let validity := readField periodic 8 1 periodicity.2
  let startOffset := readField periodic 8 1 validity.2
  { startTime2tu := if start then some startTime.1 else none
    slotDefinition := decodeSlotDefinition slotDef.1
    group := if group then some (groupAids group12.1 group3.1) else none
    channel := if chan then some channel.1 else none
    periodic := if periodic then some (periodicity.1, validity.1, startOffset.1) else none }

/-- The assignment at the head of the octets, if it is there as a whole. -/
def parseAssignment (octets : List (BitVec 8)) : Option (Reading × List (BitVec 8)) :=
  let size := announcedLength (headNumber 8 1 octets)
  if octets.length < size then none
  else some (readAssignment (octets.take size), octets.drop size)

/-- The assignments of an element, if it is made of whole ones. -/
def parseElement (octets : List (BitVec 8)) : Option (List Reading) :=
  match frames parseAssignment octets with
  | (readings, []) => some readings
  | (_, _ :: _) => none

/-! ## One assignment -/

variable {w count : Nat}

theorem readField_optionally (wide : w ≤ 8 * count) (present : Bool) (value : BitVec w)
    (rest : List (BitVec 8)) :
    readField present w count (optionally present (leOctets count value) ++ rest) =
      (if present then value else 0, rest) := by
  cases present with
  | true =>
    have behind := drop_leOctets_append (Nat.le_refl count) value rest
    rw [Nat.sub_self] at behind
    exact Prod.ext (headNumber_append wide value rest) behind
  | false => rfl

theorem readField_leOctets (wide : w ≤ 8 * count) (value : BitVec w) (rest : List (BitVec 8)) :
    readField true w count (leOctets count value ++ rest) = (value, rest) :=
  readField_optionally wide true value rest

theorem rawControl_inds (config : RawConfig) :
    hasMask (rawControl config) rawControlStartInd = config.hasStartTime ∧
      hasMask (rawControl config) rawControlGroupInd = true ∧
      hasMask (rawControl config) rawControlChanInd = false ∧
      hasMask (rawControl config) rawControlPeriodicInd = config.isPeriodic := by
  rw [rawControl]
  cases config.hasStartTime <;> cases config.isPeriodic <;> decide

variable {startAid endAid : BitVec 16}

theorem groupAids_rawGroup (startSmall : startAid.toNat < 2048) (endSmall : endAid.toNat < 2048) :
    groupAids (rawGroup12 startAid endAid) (rawGroup3 endAid) = (startAid, endAid) := by
  have startWide : (startAid.setWidth 32).toNat = startAid.toNat := by
    rw [BitVec.toNat_setWidth]
    omega
  have endWide : (endAid.setWidth 32).toNat = endAid.toNat := by
    rw [BitVec.toNat_setWidth]
    omega
  have startField := @shiftLeft_and_genmask (startAid.setWidth 32) 12 2 (by omega) (by omega)
    (startWide ▸ startSmall)
  have endField := @shiftLeft_and_genmask_mod (endAid.setWidth 32) 15 13 (by omega) (by omega)
    (by omega)
  rw [startWide] at startField
  rw [endWide] at endField
  have total : (rawGroup12 startAid endAid).toNat =
      endAid.toNat % 2 ^ 3 * 2 ^ 13 + startAid.toNat * 2 ^ 2 := by
    rw [rawGroup12, BitVec.toNat_or, BitVec.toNat_setWidth, BitVec.toNat_setWidth, startField,
      endField, Nat.mod_eq_of_lt (by omega), Nat.mod_eq_of_lt (by omega),
      or_mul_two_pow (by omega)]
  refine Prod.ext (BitVec.eq_of_toNat_eq ?_) (BitVec.eq_of_toNat_eq ?_)
  · rw [groupAids, BitVec.toNat_setWidth, BitVec.extractLsb'_toNat, Nat.shiftRight_eq_div_pow]
    dsimp only
    omega
  · have low : ((rawGroup12 startAid endAid).extractLsb' 13 3).toNat = endAid.toNat % 2 ^ 3 := by
      rw [BitVec.extractLsb'_toNat, Nat.shiftRight_eq_div_pow]
      omega
    have high : (rawGroup3 endAid).toNat = endAid.toNat / 2 ^ 3 := by
      rw [rawGroup3, BitVec.toNat_setWidth, BitVec.toNat_ushiftRight]
      omega
    have lowBound : endAid.toNat % 2 ^ 3 < 2 ^ 3 := Nat.mod_lt _ (by omega)
    have lowWide : endAid.toNat % 2 ^ 3 % 2 ^ 16 = endAid.toNat % 2 ^ 3 :=
      Nat.mod_eq_of_lt (by omega)
    have highWide : endAid.toNat / 2 ^ 3 % 2 ^ 16 = endAid.toNat / 2 ^ 3 :=
      Nat.mod_eq_of_lt (by omega)
    have shifted : endAid.toNat / 2 ^ 3 * 2 ^ 3 % 2 ^ 16 = endAid.toNat / 2 ^ 3 * 2 ^ 3 :=
      Nat.mod_eq_of_lt (by omega)
    rw [groupAids, BitVec.toNat_or, BitVec.toNat_setWidth, low, lowWide, BitVec.toNat_shiftLeft,
      BitVec.toNat_setWidth, high, highWide, Nat.shiftLeft_eq, shifted, or_mul_two_pow lowBound]
    exact Nat.div_add_mod' _ _

/-- What an assignment says, if its identifiers fit into the group. -/
def announcedReading (config : RawConfig) (startAid endAid : BitVec 16) : Reading where
  startTime2tu :=
    if config.hasStartTime then some ((usToTwoTu config.startTimeUs).setWidth 8) else none
  slotDefinition := decodeSlotDefinition (generateSlotDefinition .generic config.slotDefinition).1
  group := some (startAid, endAid)
  channel := none
  periodic :=
    if config.isPeriodic then
      some (config.periodic.periodicity, config.periodic.curValidity,
        config.periodic.curStartOffset)
    else none

theorem optionally_append (present : Bool) (octets more : List (BitVec 8)) :
    optionally present (octets ++ more) = optionally present octets ++ optionally present more := by
  cases present <;> rfl

theorem length_generateAssignmentWithAidRange (config : RawConfig) (startAid endAid : BitVec 16) :
    (generateAssignmentWithAidRange config startAid endAid).1.length =
      announcedLength (rawControl config) := by
  obtain ⟨start, group, chan, periodic⟩ := rawControl_inds config
  rw [announcedLength, start, group, chan, periodic, generateAssignmentWithAidRange]
  cases config.hasStartTime <;> cases config.isPeriodic <;> rfl

theorem readAssignment_written (config : RawConfig) (startSmall : startAid.toNat < 2048)
    (endSmall : endAid.toNat < 2048) :
    readAssignment (generateAssignmentWithAidRange config startAid endAid).1 =
      announcedReading config startAid endAid := by
  obtain ⟨start, group, chan, periodic⟩ := rawControl_inds config
  have absent (octets : List (BitVec 8)) : readField false 16 2 octets = (0, octets) := rfl
  rw [readAssignment, generateAssignmentWithAidRange,
    ← List.append_nil (optionally config.isPeriodic _)]
  simp only [optionally_append, List.append_assoc, @readField_leOctets 8 1 (by decide),
    @readField_leOctets 16 2 (by decide), @readField_optionally 8 1 (by decide), start, group, chan,
    periodic, absent, if_true, groupAids_rawGroup startSmall endSmall, announcedReading]
  cases config.hasStartTime <;> cases config.isPeriodic <;> rfl

theorem headNumber_generateAssignment
    (config : RawConfig) (startAid endAid : BitVec 16) (rest : List (BitVec 8)) :
    headNumber 8 1 ((generateAssignmentWithAidRange config startAid endAid).1 ++ rest) =
      rawControl config := by
  exact headNumber_append (by decide) _ _

theorem parseAssignment_append (config : RawConfig) (startSmall : startAid.toNat < 2048)
    (endSmall : endAid.toNat < 2048) (rest : List (BitVec 8)) :
    parseAssignment ((generateAssignmentWithAidRange config startAid endAid).1 ++ rest) =
      some (announcedReading config startAid endAid, rest) := by
  have whole := length_generateAssignmentWithAidRange config startAid endAid
  rw [parseAssignment, headNumber_generateAssignment, ← whole, List.take_left, List.drop_left,
    readAssignment_written config startSmall endSmall]
  refine if_neg ?_
  rw [List.length_append]
  omega

theorem splitter_parseAssignment : Splitter parseAssignment where
  shorter := by
    intro octets reading rest found
    rw [parseAssignment] at found
    split at found
    · cases found
    · next enough =>
        cases found
        have least : 3 ≤ announcedLength (headNumber 8 1 octets) := by
          rw [announcedLength]
          omega
        rw [List.length_drop]
        omega
  stable := by
    intro octets reading rest found more
    rw [parseAssignment] at found ⊢
    split at found
    · cases found
    · next enough =>
        cases found
        have least : 3 ≤ announcedLength (headNumber 8 1 octets) := by
          rw [announcedLength]
          omega
        have head : headNumber 8 1 (octets ++ more) = headNumber 8 1 octets := by
          rw [headNumber, headNumber, List.take_append_of_le_length (by omega)]
        rw [head, List.take_append_of_le_length (by omega),
          List.drop_append_of_le_length (by omega)]
        refine if_neg ?_
        rw [List.length_append]
        omega

/-! ## The size -/

theorem assignmentSize_toNat (config : RawConfig) :
    (assignmentSize config).toNat = announcedLength (rawControl config) := by
  obtain ⟨start, group, chan, periodic⟩ := rawControl_inds config
  rw [assignmentSize, announcedLength, start, group, chan, periodic]
  cases config.hasStartTime <;> cases config.isPeriodic <;> rfl

theorem announcedLength_le (control : BitVec 8) : announcedLength control ≤ 12 := by
  have most (present : Bool) (count : Nat) : fieldLength present count ≤ count := by
    cases present
    · exact Nat.zero_le _
    · exact Nat.le_refl _
  have start := most (hasMask control rawControlStartInd) 1
  have group := most (hasMask control rawControlGroupInd) 3
  have chan := most (hasMask control rawControlChanInd) 2
  have periodic := most (hasMask control rawControlPeriodicInd) 3
  rw [announcedLength]
  omega

/-- What the assignments of some configurations take. -/
def elementLength (configs : List RawConfig) : Nat :=
  (configs.map fun config => announcedLength (rawControl config)).sum

theorem foldl_assignmentSize (room : size.toNat + 12 * configs.length < 2 ^ 16) :
    (configs.foldl (fun size config => size + assignmentSize config) size).toNat =
      size.toNat + elementLength configs := by
  induction configs generalizing size with
  | nil => rfl
  | cons config rest ih =>
    have least := announcedLength_le (rawControl config)
    rw [List.length_cons] at room
    have added : (size + assignmentSize config).toNat =
        size.toNat + announcedLength (rawControl config) := by
      rw [BitVec.toNat_add, assignmentSize_toNat]
      exact Nat.mod_eq_of_lt (by omega)
    rw [List.foldl_cons, ih (by omega), added, elementLength, elementLength,
      List.map_cons, List.sum_cons, Nat.add_assoc]

theorem calcRpsIeSize_toNat (few : configs.length < 2 ^ 8) :
    (calcRpsIeSize configs).toNat = elementLength configs := by
  have none : (0 : BitVec 16).toNat = 0 := rfl
  rw [calcRpsIeSize, foldl_assignmentSize (by omega), none, Nat.zero_add]

/-! ## The element -/

theorem generateAssignment_config
    (made : generateAssignment aids config = some (after, assignment)) :
    ∃ lastAid, after =
      { config with beaconSpreading := { config.beaconSpreading with lastAid := lastAid } } := by
  rw [generateAssignment] at made
  dsimp only at made
  split at made
  · split at made
    · cases made
    · cases made
      exact ⟨_, rfl⟩
  · cases made
    exact ⟨_, rfl⟩

/-- The number of stations that a configuration spreads is not narrowed to zero. -/
def RawConfig.Divides (config : RawConfig) : Prop :=
  config.beaconSpreading.nominalStaPerBeacon ≠ 0 → 0 ≤ config.startAidIdx →
    0 ≤ config.endAidIdx → BitVec.ofInt 16 (config.endAidIdx - config.startAidIdx + 1) ≠ 0

instance (config : RawConfig) : Decidable config.Divides :=
  inferInstanceAs (Decidable (_ → _))

theorem staPerBeacon_eq_none_iff (nominal : spreading.nominalStaPerBeacon ≠ 0) :
    staPerBeacon spreading numStas = none ↔ numStas = 0 := by
  rcases Nat.eq_zero_or_pos numStas with rfl | populated
  · refine iff_of_true ?_ rfl
    rw [staPerBeacon, Nat.zero_div, if_neg (fun both => Nat.not_lt_zero _ both.2)]
    rfl
  · rw [staPerBeacon_eq nominal populated]
    exact iff_of_false (fun wrong => by cases wrong) (Nat.ne_of_gt populated)

theorem generateAssignment_isSome_iff (aids : List (BitVec 16)) (config : RawConfig) :
    (generateAssignment aids config).isSome = true ↔ config.Divides := by
  rw [generateAssignment]
  dsimp only
  split
  · next spread =>
      have divided := @staPerBeacon_eq_none_iff config.beaconSpreading
        (BitVec.ofInt 16 (config.endAidIdx - config.startAidIdx + 1)).toNat spread.1
      constructor
      · intro made _ _ _ zero
        rw [divided.mpr (congrArg BitVec.toNat zero)] at made
        cases made
      · intro divides
        have some := mt divided.mp fun zero =>
          divides spread.1 spread.2.1 spread.2.2 (BitVec.eq_of_toNat_eq zero)
        split
        · next none => exact absurd none some
        · rfl
  · next single =>
      exact iff_of_true rfl fun spread start stop => absurd ⟨spread, start, stop⟩ single

theorem generateElement_isSome_iff (aids : List (BitVec 16)) (configs : List RawConfig) :
    (generateElement aids configs).isSome = true ↔ ∀ config ∈ configs, config.Divides := by
  induction configs with
  | nil => exact iff_of_true rfl fun _ member => by cases member
  | cons config rest ih =>
    have first := generateAssignment_isSome_iff aids config
    rw [List.forall_mem_cons, ← ih, ← first, generateElement]
    cases generateAssignment aids config with
    | none => exact iff_of_false (fun wrong => by cases wrong) fun both => by cases both.1
    | some made =>
      cases generateElement aids rest with
      | none => exact iff_of_false (fun wrong => by cases wrong) fun both => by cases both.2
      | some written => exact iff_of_true rfl ⟨rfl, rfl⟩

/-- What the element says of a configuration. -/
def elementReading (aids : List (BitVec 16)) (config : RawConfig) : Reading :=
  match generateAssignment aids config with
  | none => announcedReading config 0 0
  | some (_, assignment) => announcedReading config assignment.startAid assignment.endAid

/-- The identifiers that a configuration can announce have eleven bits. -/
structure AidsFit (aids : List (BitVec 16)) (config : RawConfig) : Prop where
  stations : ∀ aid ∈ aids, aid.toNat < 2048
  startAid : config.startAid.toNat < 2048
  endAid : config.endAid.toNat < 2048

theorem AidsFit.assignment {assignment : Assignment} (fit : AidsFit aids config)
    (made : generateAssignment aids config = some (after, assignment)) :
    assignment.startAid.toNat < 2048 ∧ assignment.endAid.toNat < 2048 := by
  have listed (idx : Nat) : (aids.getD idx 0).toNat < 2048 := by
    rw [List.getD_eq_getElem?_getD]
    cases found : aids[idx]? with
    | none => decide
    | some aid => exact fit.stations aid (List.mem_of_getElem? found)
  rw [generateAssignment] at made
  dsimp only at made
  split at made
  · split at made
    · cases made
    · cases made
      exact ⟨listed _, listed _⟩
  · cases made
    exact ⟨fit.startAid, fit.endAid⟩

theorem generateElement_spec (fit : ∀ config ∈ configs, AidsFit aids config)
    (made : generateElement aids configs = some (octets, after)) :
    octets.length = elementLength configs ∧
      frames parseAssignment octets = (configs.map (elementReading aids), []) := by
  induction configs generalizing octets after with
  | nil =>
    cases made
    exact ⟨rfl, frames_of_none rfl⟩
  | cons config rest ih =>
    obtain ⟨configFits, restFits⟩ := List.forall_mem_cons.mp fit
    rw [generateElement] at made
    split at made
    · cases made
    · next spread assignment chosen =>
        split at made
        · cases made
        · next restOctets restAfter written =>
            cases made
            obtain ⟨startSmall, endSmall⟩ := configFits.assignment chosen
            obtain ⟨length, framed⟩ := ih restFits written
            obtain ⟨lastAid, rfl⟩ := generateAssignment_config chosen
            have same : elementReading aids config =
                announcedReading config assignment.startAid assignment.endAid := by
              rw [elementReading, chosen]
            constructor
            · rw [List.length_append, length_generateAssignmentWithAidRange, length]
              rfl
            · rw [frames_of_some splitter_parseAssignment
                (parseAssignment_append _ startSmall endSmall restOctets), framed, List.map_cons,
                same]
              rfl

/-! ## What the element says -/

/-- An assignment says what is configured: its group, the start time rounded down
to units of 2 TUs, the slot definition if there is room for it, and the periodic
fields with their counters. -/
structure Reading.Tells (reading : Reading) (config : RawConfig) (assignment : Assignment) :
    Prop where
  group : reading.group = some (assignment.startAid, assignment.endAid)
  startTime : (reading.startTime2tu.getD 0).toNat = config.startTimeUs.toNat / 2048
  slots : Representable .generic config.slotDefinition →
    config.slotDefinition.ReadAs reading.slotDefinition
  periodic : reading.periodic =
    if config.isPeriodic then
      some (config.periodic.periodicity, config.periodic.curValidity,
        config.periodic.curStartOffset)
    else none

/-- The element has the size that was found, and an assignment of each
configuration in order. -/
def ElementSound (aids : List (BitVec 16)) (configs : List RawConfig) : Prop :=
  ∃ octets after readings, generateElement aids configs = some (octets, after) ∧
    (calcRpsIeSize configs).toNat = octets.length ∧
    parseElement octets = some readings ∧
    List.Forall₂ (fun config reading => ∃ after assignment,
      generateAssignment aids config = some (after, assignment) ∧ reading.Tells config assignment)
      configs readings

/-- A configuration that the element has room for: its start time has eight bits,
and its slots are not capped below what there is room for. -/
structure Announceable (config : RawConfig) : Prop where
  divides : config.Divides
  startTime : config.startTimeUs.toNat < 2 ^ 8 * 2048
  slots : Representable .generic config.slotDefinition →
    config.slotDefinition.numSlots ≤ config.slotDefinition.maxSlots .generic

theorem startTime2tu_iff (config : RawConfig) (startAid endAid : BitVec 16) :
    ((announcedReading config startAid endAid).startTime2tu.getD 0).toNat =
        config.startTimeUs.toNat / 2048 ↔
      config.startTimeUs.toNat < 2 ^ 8 * 2048 := by
  have limit : config.startTimeUs.toNat / 2048 < 2 ^ 8 ↔
      config.startTimeUs.toNat < 2 ^ 8 * 2048 :=
    Nat.div_lt_iff_lt_mul (by decide)
  rw [announcedReading, ← limit]
  dsimp only
  split
  · exact ⟨fun same => same ▸ Nat.mod_lt _ (by decide), Nat.mod_eq_of_lt⟩
  · next absent =>
      rw [RawConfig.hasStartTime, decide_eq_true_eq, not_not] at absent
      rw [absent]
      decide

theorem tells_iff (config : RawConfig) (assignment : Assignment) :
    (announcedReading config assignment.startAid assignment.endAid).Tells config assignment ↔
      config.startTimeUs.toNat < 2 ^ 8 * 2048 ∧
        (Representable .generic config.slotDefinition →
          config.slotDefinition.numSlots ≤ config.slotDefinition.maxSlots .generic) := by
  constructor
  · intro told
    exact ⟨(startTime2tu_iff config _ _).mp told.startTime,
      fun representable => representable.readAs_iff.mp (told.slots representable)⟩
  · rintro ⟨startTime, slots⟩
    exact ⟨rfl, (startTime2tu_iff config _ _).mpr startTime,
      fun representable => representable.readAs_iff.mpr (slots representable), rfl⟩

theorem ElementSound.announceable (fit : ∀ config ∈ configs, AidsFit aids config)
    (sound : ElementSound aids configs) :
    ∀ config ∈ configs, Announceable config := by
  obtain ⟨octets, after, readings, made, _, parsed, listed⟩ := sound
  intro config member
  have framed := (generateElement_spec fit made).2
  rw [parseElement, framed, Option.some_inj] at parsed
  subst parsed
  rw [List.forall₂_map_right_iff, List.forall₂_same] at listed
  obtain ⟨spread, assignment, chosen, told⟩ := listed config member
  rw [elementReading, chosen] at told
  have divides := (generateElement_isSome_iff aids configs).mp (made ▸ rfl) config member
  obtain ⟨startTime, slots⟩ := (tells_iff config assignment).mp told
  exact ⟨divides, startTime, slots⟩

/-- The element is sound exactly if there is room in it for each configuration. -/
theorem elementSound_iff (aids : List (BitVec 16)) (configs : List RawConfig)
    (few : configs.length < 2 ^ 8) (fit : ∀ config ∈ configs, AidsFit aids config) :
    ElementSound aids configs ↔ ∀ config ∈ configs, Announceable config := by
  constructor
  · exact ElementSound.announceable fit
  · intro announceable
    have divides (config : RawConfig) (member : config ∈ configs) : config.Divides :=
      (announceable config member).divides
    obtain ⟨⟨octets, after⟩, made⟩ :=
      Option.isSome_iff_exists.mp ((generateElement_isSome_iff aids configs).mpr divides)
    obtain ⟨length, framed⟩ := generateElement_spec fit made
    refine ⟨octets, after, configs.map (elementReading aids), made, ?_, ?_, ?_⟩
    · rw [calcRpsIeSize_toNat few, length]
    · rw [parseElement, framed]
    · rw [List.forall₂_map_right_iff, List.forall₂_same]
      intro config member
      obtain ⟨⟨spread, assignment⟩, chosen⟩ := Option.isSome_iff_exists.mp
        ((generateAssignment_isSome_iff aids config).mpr (divides config member))
      refine ⟨spread, assignment, chosen, ?_⟩
      rw [elementReading, chosen]
      exact (tells_iff config assignment).mpr
        ⟨(announceable config member).startTime, (announceable config member).slots⟩

/-- A configuration of some start time, for one slot of 10 ms. -/
def startingAt (startTimeUs : BitVec 32) : RawConfig :=
  { RawConfig.zeroed 1 with
    startTimeUs := startTimeUs
    startAid := 1
    endAid := 2007
    slotDefinition := ⟨false, 1, 10000⟩
    periodic := ⟨false, 4, 2, 1, 4, 1⟩ }

theorem aidsFit_startingAt (startTimeUs : BitVec 32) : AidsFit [5] (startingAt startTimeUs) where
  stations := by
    intro aid member
    rw [List.mem_singleton.mp member]
    decide
  startAid := show (1 : BitVec 16).toNat < 2048 by decide
  endAid := show (2007 : BitVec 16).toNat < 2048 by decide

theorem elementSound_iff_startingAt :
    ElementSound [5] [startingAt 0, startingAt 4096] ↔
      ∀ config ∈ [startingAt 0, startingAt 4096], Announceable config :=
  elementSound_iff [5] [startingAt 0, startingAt 4096] (by decide) fun config member => by
    rcases List.mem_cons.mp member with rfl | later
    · exact aidsFit_startingAt 0
    · rw [List.mem_singleton.mp later]
      exact aidsFit_startingAt 4096

/-- A start time of 600 ms, which is 292 units of 2 TUs, is announced as 36 of
them. -/
theorem not_elementSound :
    ¬ ∀ (aids : List (BitVec 16)) (configs : List RawConfig), configs.length < 2 ^ 8 →
      (∀ config ∈ configs, AidsFit aids config) → ElementSound aids configs := by
  intro sound
  have fit : ∀ config ∈ [startingAt 600000], AidsFit [5] config := by
    intro config member
    rw [List.mem_singleton.mp member]
    exact aidsFit_startingAt 600000
  have room := (sound [5] [startingAt 600000] (by decide) fit).announceable fit
    (startingAt 600000) (List.mem_singleton.mpr rfl)
  exact absurd room.startTime (by decide)

end Raw
end Morse
