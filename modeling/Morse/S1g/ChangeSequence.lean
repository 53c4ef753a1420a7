import Morse.Ies.Order

/-!
# The change sequence of a beacon

An access point counts the critical updates of its beacons in a field of the beacon, so
that stations need not read what did not change.  The driver remembers checksums of the
parameters that it sent last and whether a channel switch was already announced, and
compares with them whenever it builds a beacon.
-/

namespace Morse
namespace S1g

open Ies

/-! ## Checksums -/

/-- A bit is shifted out of a checksum. -/
def crc32Bit (crc : BitVec 32) : BitVec 32 :=
  (crc >>> 1) ^^^ (if crc.getLsbD 0 then 0xedb88320#32 else 0)

/-- An octet is taken into a checksum. -/
def crc32Octet (crc : BitVec 32) (octet : BitVec 8) : BitVec 32 :=
  Nat.repeat crc32Bit 8 (crc ^^^ octet.setWidth 32)

/-- `crc32`. -/
def crc32 (seed : BitVec 32) (octets : List (BitVec 8)) : BitVec 32 :=
  octets.foldl crc32Octet seed

/-- The checksum of parameters. -/
def paramCrc (octets : List (BitVec 8)) : BitVec 32 := ~~~ crc32 (~~~ 0#32) octets

/-! ## Beacons -/

/-- `struct s1g_operation_parameters`. -/
structure OperationParameters where
  chanCentreFreqNum : BitVec 8
  opBwMhz : BitVec 8
  priBwMhz : BitVec 8
  pri1mhzChanIdx : BitVec 8
  s1gOperatingClass : BitVec 8
  primGlobalOpClass : BitVec 8
  deriving DecidableEq, Repr

/-- The octets of the parameters. -/
def OperationParameters.octets (params : OperationParameters) : List (BitVec 8) :=
  [params.chanCentreFreqNum, params.opBwMhz, params.priBwMhz, params.pri1mhzChanIdx,
    params.s1gOperatingClass, params.primGlobalOpClass]

theorem OperationParameters.octets_injective {left right : OperationParameters}
    (same : left.octets = right.octets) :
    left = right := by
  obtain ⟨centre, bw, priBw, index, opClass, global⟩ := left
  obtain ⟨rfl, rfl, rfl, rfl, rfl, rfl⟩ := same
  rfl

/-- A vendor specific element, with the memory behind its data. -/
structure VendorElem where
  data : Data
  behind : Nat → BitVec 8

/-- The octet at an offset from where the data begins. -/
def VendorElem.octet (elem : VendorElem) (offset : Nat) : BitVec 8 :=
  elem.data.val.getD offset (elem.behind (offset - elem.data.val.length))

/-- What a vendor specific element with WMM parameters begins with: the identifier of the
organisation, type and subtype. -/
def wmmHeader : List (BitVec 8) := [0x00, 0x50, 0xf2, 2, 1]

/-- `IS_WMM_IE`. -/
def VendorElem.isWmmIe (elem : VendorElem) : Bool :=
  decide ((List.range 5).map elem.octet = wmmHeader)

/-- So many octets from `attr` on. -/
def VendorElem.attr (elem : VendorElem) (count : Nat) : List (BitVec 8) :=
  (List.range count).map fun index => elem.octet (5 + index)

/-- What is looked at when a beacon was built: the table of its elements, what is behind
each of the vendor specific ones in memory, and the parameters of operation. -/
structure BuiltBeacon where
  iesMask : Contents
  behind : Nat → Nat → BitVec 8
  s1gOperParams : OperationParameters

/-- The vendor specific elements, from the one in the table on. -/
def BuiltBeacon.vendorElems (beacon : BuiltBeacon) : List VendorElem :=
  (beacon.iesMask wlanEidVendorSpecific).all.zipIdx.map fun elem =>
    ⟨elem.1, beacon.behind elem.2⟩

/-- The length that is taken for that of the WMM parameters. -/
def BuiltBeacon.wmmLength (beacon : BuiltBeacon) : BitVec 16 :=
  match (beacon.iesMask wlanEidVendorSpecific).head with
  | some data => BitVec.ofNat 16 data.val.length - 5
  | none => 0

/-- `morse_dot11ah_find_edca_param_set_ie`, with the octets of the length that it finds. -/
def BuiltBeacon.findEdcaParamSetIe (beacon : BuiltBeacon) : Option (List (BitVec 8)) :=
  match (beacon.iesMask wlanEidEdcaParamSet).head with
  | some data => some data.val
  | none =>
    (beacon.vendorElems.find? VendorElem.isWmmIe).map fun elem =>
      elem.attr beacon.wmmLength.toNat

/-- A channel switch is announced, in one of two ways. -/
def BuiltBeacon.switching (beacon : BuiltBeacon) : Bool :=
  (beacon.iesMask wlanEidChannelSwitch).head.isSome ||
    (beacon.iesMask wlanEidExtChanswitchAnn).head.isSome

/-! ## Changes -/

/-- What an interface remembers for its change sequence. -/
structure ChangeVif where
  s1gBcnChangeSeq : BitVec 16
  edcaParamCrc : BitVec 32
  s1gOperParamCrc : BitVec 32
  chanSwitchInProgress : Bool
  deriving DecidableEq, Repr

/-- `morse_mac_reset_s1g_bcn_change_seq_params`, when the interface is added. -/
def ChangeVif.reset : ChangeVif := ⟨0, 0, 0, false⟩

/-- A checksum takes the place of the remembered one, which is zero before there was one,
and it is said whether they differ. -/
def compareCrc (remembered ncrc : BitVec 32) : BitVec 32 × Bool :=
  if remembered = 0 then (ncrc, false)
  else if ncrc ≠ remembered then (ncrc, true)
  else (remembered, false)

/-- `morse_dot11ah_find_beacon_change`. -/
def ChangeVif.findBeaconChange (vif : ChangeVif) (beacon : BuiltBeacon) : ChangeVif × Bool :=
  let edca :=
    match beacon.findEdcaParamSetIe with
    | some params => compareCrc vif.edcaParamCrc (paramCrc params)
    | none => (vif.edcaParamCrc, false)
  let oper := compareCrc vif.s1gOperParamCrc (paramCrc beacon.s1gOperParams.octets)
  ({ vif with
      edcaParamCrc := edca.1
      s1gOperParamCrc := oper.1
      chanSwitchInProgress := beacon.switching },
    (beacon.switching && !vif.chanSwitchInProgress) || edca.2 || oper.2)

/-- `morse_dot11ah_beacon_to_s1g`, as far as the change sequence goes, which it returns as
it stands in the beacon. -/
def ChangeVif.beaconToS1g (vif : ChangeVif) (beacon : BuiltBeacon) : ChangeVif × BitVec 8 :=
  let found := vif.findBeaconChange beacon
  let changeSeq :=
    if found.2 then (found.1.s1gBcnChangeSeq + 1) % 256 else found.1.s1gBcnChangeSeq
  ({ found.1 with s1gBcnChangeSeq := changeSeq }, changeSeq.setWidth 8)

/-- The change sequences of beacons that are built one after the other. -/
def ChangeVif.changeSeqs (vif : ChangeVif) : List BuiltBeacon → List (BitVec 8)
  | [] => []
  | beacon :: rest =>
    (vif.beaconToS1g beacon).2 :: (vif.beaconToS1g beacon).1.changeSeqs rest

/-! ## Critical updates -/

/-- An element with WMM parameters begins like one, with octets of its own. -/
def hasWmm (data : Data) : Bool := decide (data.val.take 5 = wmmHeader)

/-- The EDCA parameters that a beacon announces, in an element for them or in the first
vendor specific one that carries them. -/
def BuiltBeacon.edcaParameters (beacon : BuiltBeacon) : Option (List (BitVec 8)) :=
  match (beacon.iesMask wlanEidEdcaParamSet).head with
  | some data => some data.val
  | none =>
    ((beacon.iesMask wlanEidVendorSpecific).all.find? hasWmm).map fun data => data.val.drop 5

/-- What was announced last. -/
structure Announced where
  edca : Option (List (BitVec 8))
  oper : Option OperationParameters
  switching : Bool
  deriving DecidableEq, Repr

/-- Nothing was announced. -/
def Announced.nothing : Announced := ⟨none, none, false⟩

/-- A value differs from the one announced before. -/
def differs [DecidableEq α] (before now : Option α) : Bool :=
  before.any fun old => now.any fun new => decide (old ≠ new)

/-- A beacon brings a critical update. -/
def Announced.critical (announced : Announced) (beacon : BuiltBeacon) : Bool :=
  (beacon.switching && !announced.switching) ||
    differs announced.edca beacon.edcaParameters ||
    differs announced.oper (some beacon.s1gOperParams)

/-- What was announced last when a beacon was sent. -/
def Announced.next (announced : Announced) (beacon : BuiltBeacon) : Announced where
  edca := beacon.edcaParameters.or announced.edca
  oper := some beacon.s1gOperParams
  switching := beacon.switching

/-- How many critical updates there were with each beacon. -/
def Announced.criticalUpdates (announced : Announced) (count : Nat) : List BuiltBeacon → List Nat
  | [] => []
  | beacon :: rest =>
    let counted := if announced.critical beacon then count + 1 else count
    counted :: (announced.next beacon).criticalUpdates counted rest

/-- The change sequence of each beacon is the number of critical updates modulo 256. -/
def CountsCriticalUpdates (beacons : List BuiltBeacon) : Prop :=
  ChangeVif.reset.changeSeqs beacons =
    (Announced.nothing.criticalUpdates 0 beacons).map (BitVec.ofNat 8)

/-! ## Parameters that are found as they are announced -/

/-- The parameters of a beacon are looked for where they are: if they are not in an
element for them, no other element reads like the first that carries them, and that is as
long as the first vendor specific element. -/
def BuiltBeacon.Measured (beacon : BuiltBeacon) : Prop :=
  (beacon.iesMask wlanEidEdcaParamSet).head.isSome ∨
    ((beacon.vendorElems.find? VendorElem.isWmmIe).map VendorElem.data =
        (beacon.iesMask wlanEidVendorSpecific).all.find? hasWmm ∧
      ∀ wmm ∈ (beacon.iesMask wlanEidVendorSpecific).all.find? hasWmm,
        ∀ first ∈ (beacon.iesMask wlanEidVendorSpecific).head,
          first.val.length = wmm.val.length)

theorem VendorElem.attr_eq (elem : VendorElem) :
    elem.attr (elem.data.val.length - 5) = elem.data.val.drop 5 := by
  apply List.ext_getElem
  · rw [VendorElem.attr, List.length_map, List.length_range, List.length_drop]
  · intro index inside within
    rw [List.length_drop] at within
    have own : 5 + index < elem.data.val.length := by omega
    simp only [VendorElem.attr, List.getElem_map, List.getElem_range, List.getElem_drop,
      VendorElem.octet, List.getD_eq_getElem?_getD, List.getElem?_eq_getElem own,
      Option.getD_some]

theorem le_length_of_hasWmm (wmm : hasWmm data = true) :
    5 ≤ data.val.length := by
  have header := congrArg List.length (of_decide_eq_true wmm)
  rw [List.length_take] at header
  have five : wmmHeader.length = 5 := rfl
  omega

variable {beacon : BuiltBeacon}

theorem BuiltBeacon.findEdcaParamSetIe_eq (measured : beacon.Measured) :
    beacon.findEdcaParamSetIe = beacon.edcaParameters := by
  cases edca : (beacon.iesMask wlanEidEdcaParamSet).head with
  | some data => simp only [BuiltBeacon.findEdcaParamSetIe, BuiltBeacon.edcaParameters, edca]
  | none =>
    simp only [BuiltBeacon.findEdcaParamSetIe, BuiltBeacon.edcaParameters, edca]
    rcases measured with present | ⟨same, lengths⟩
    · rw [edca] at present
      cases present
    · rw [← same, Option.map_map]
      rw [← same] at lengths
      apply Option.map_congr
      intro elem found
      have searched :
          (beacon.iesMask wlanEidVendorSpecific).all.find? hasWmm = some elem.data := by
        rw [← same, found, Option.map_some]
      have long := le_length_of_hasWmm (List.find?_some searched)
      have there := List.mem_of_find?_eq_some searched
      cases head : (beacon.iesMask wlanEidVendorSpecific).head with
      | none =>
        rw [(Cell.all_eq_nil_iff _).mpr head] at there
        cases there
      | some first =>
        have whole : first.val.length = elem.data.val.length :=
          lengths elem.data (by rw [found]; rfl) first head
        have taken : beacon.wmmLength.toNat = elem.data.val.length - 5 := by
          have five : BitVec.toNat (5 : BitVec 16) = 5 := rfl
          simp only [BuiltBeacon.wmmLength, head, BitVec.toNat_sub, BitVec.toNat_ofNat, five]
          omega
        rw [taken, VendorElem.attr_eq]
        rfl

/-! ## The remembered checksums -/

/-- The checksum that is remembered of a value, which is zero where there was none. -/
def rememberedCrc (value : Option (List (BitVec 8))) : BitVec 32 :=
  match value with
  | some octets => paramCrc octets
  | none => 0

/-- The checksum of a value is not taken for none. -/
def Told (value : Option (List (BitVec 8))) : Prop := ∀ octets ∈ value, paramCrc octets ≠ 0

theorem compareCrc_eq (told : Told before)
    (distinct : ∀ old ∈ before, paramCrc old = paramCrc now → old = now) :
    compareCrc (rememberedCrc before) (paramCrc now) =
      (paramCrc now, differs before (some now)) := by
  cases before with
  | none => rfl
  | some old =>
    rw [compareCrc, rememberedCrc, if_neg (told old rfl)]
    by_cases same : old = now
    · subst same
      simp [differs]
    · have other : paramCrc now ≠ paramCrc old := fun equal =>
        same (distinct old rfl equal.symm)
      rw [if_pos other]
      simp [differs, same]

/-- What an interface remembers is what was announced last. -/
structure Reflects (vif : ChangeVif) (announced : Announced) (count : Nat) : Prop where
  sequence : vif.s1gBcnChangeSeq.toNat = count % 256
  edca : vif.edcaParamCrc = rememberedCrc announced.edca
  oper : vif.s1gOperParamCrc = rememberedCrc (announced.oper.map OperationParameters.octets)
  switching : vif.chanSwitchInProgress = announced.switching
  edcaTold : Told announced.edca
  operTold : Told (announced.oper.map OperationParameters.octets)

/-- Checksums tell the parameters of a beacon from those that were announced last. -/
def Announced.Distinguished (announced : Announced) (beacon : BuiltBeacon) : Prop :=
  (∀ old ∈ announced.edca, ∀ new ∈ beacon.edcaParameters,
      paramCrc old = paramCrc new → old = new) ∧
    ∀ old ∈ announced.oper,
      paramCrc old.octets = paramCrc beacon.s1gOperParams.octets →
        old.octets = beacon.s1gOperParams.octets

/-- Checksums tell the parameters of all beacons apart that are compared. -/
def Announced.AllDistinguished (announced : Announced) : List BuiltBeacon → Prop
  | [] => True
  | beacon :: rest =>
    announced.Distinguished beacon ∧ (announced.next beacon).AllDistinguished rest

/-- A beacon is in order: its parameters are looked for where they are, and no checksum of
them is the one that stands for none. -/
structure BuiltBeacon.InOrder (beacon : BuiltBeacon) : Prop where
  measured : beacon.Measured
  edcaTold : Told beacon.edcaParameters
  operTold : Told (some beacon.s1gOperParams.octets)

/-! ## Counting -/

theorem differs_none [DecidableEq α] (before : Option α) : differs before none = false := by
  cases before with
  | none => rfl
  | some old => rfl

theorem differs_octets (before : Option OperationParameters) (now : OperationParameters) :
    differs (before.map OperationParameters.octets) (some now.octets) =
      differs before (some now) := by
  cases before with
  | none => rfl
  | some old =>
    by_cases same : old = now
    · subst same
      simp [differs]
    · have other : old.octets ≠ now.octets := fun equal =>
        same (OperationParameters.octets_injective equal)
      simp [differs, same, other]

variable {vif : ChangeVif} {announced : Announced} {count : Nat}

theorem ChangeVif.findBeaconChange_of_inOrder (reflects : Reflects vif announced count)
    (inOrder : beacon.InOrder) (distinguished : announced.Distinguished beacon) :
    (vif.findBeaconChange beacon).2 = announced.critical beacon ∧
      Reflects (vif.findBeaconChange beacon).1 (announced.next beacon) count := by
  have oper : compareCrc vif.s1gOperParamCrc (paramCrc beacon.s1gOperParams.octets) =
      (paramCrc beacon.s1gOperParams.octets,
        differs announced.oper (some beacon.s1gOperParams)) := by
    rw [reflects.oper, ← differs_octets]
    apply compareCrc_eq reflects.operTold
    intro old remembered same
    obtain ⟨params, held, rfl⟩ := Option.map_eq_some_iff.mp remembered
    exact distinguished.2 params held same
  have found := beacon.findEdcaParamSetIe_eq inOrder.measured
  cases parameters : beacon.edcaParameters with
  | none =>
    refine ⟨?_, ?_⟩
    · simp only [ChangeVif.findBeaconChange, Announced.critical, found, parameters, oper,
        reflects.switching, differs_none]
    · exact {
        sequence := reflects.sequence
        edca := by
          simp only [ChangeVif.findBeaconChange, Announced.next, found, parameters,
            Option.none_or, reflects.edca]
        oper := congrArg Prod.fst oper
        switching := rfl
        edcaTold := by
          simp only [Announced.next, parameters, Option.none_or]
          exact reflects.edcaTold
        operTold := inOrder.operTold }
  | some params =>
    have edca : compareCrc vif.edcaParamCrc (paramCrc params) =
        (paramCrc params, differs announced.edca (some params)) := by
      rw [reflects.edca]
      apply compareCrc_eq reflects.edcaTold
      intro old remembered same
      exact distinguished.1 old remembered params parameters same
    refine ⟨?_, ?_⟩
    · simp only [ChangeVif.findBeaconChange, Announced.critical, found, parameters, oper, edca,
        reflects.switching]
    · exact {
        sequence := reflects.sequence
        edca := by
          simp only [ChangeVif.findBeaconChange, Announced.next, found, parameters,
            Option.some_or, edca, rememberedCrc]
        oper := congrArg Prod.fst oper
        switching := rfl
        edcaTold := by
          simp only [Announced.next, parameters, Option.some_or]
          rw [← parameters]
          exact inOrder.edcaTold
        operTold := inOrder.operTold }

theorem ChangeVif.beaconToS1g_of_inOrder (reflects : Reflects vif announced count)
    (inOrder : beacon.InOrder) (distinguished : announced.Distinguished beacon) :
    Reflects (vif.beaconToS1g beacon).1 (announced.next beacon)
        (if announced.critical beacon then count + 1 else count) ∧
      (vif.beaconToS1g beacon).2 =
        BitVec.ofNat 8 (if announced.critical beacon then count + 1 else count) := by
  obtain ⟨changed, after⟩ :=
    ChangeVif.findBeaconChange_of_inOrder reflects inOrder distinguished
  have sequence : (vif.beaconToS1g beacon).1.s1gBcnChangeSeq.toNat =
      (if announced.critical beacon then count + 1 else count) % 256 := by
    simp only [ChangeVif.beaconToS1g, changed]
    have counted := after.sequence
    split
    · have one : BitVec.toNat (1 : BitVec 16) = 1 := rfl
      have modulus : BitVec.toNat (256 : BitVec 16) = 256 := rfl
      rw [BitVec.toNat_umod, BitVec.toNat_add, modulus]
      omega
    · exact counted
  refine ⟨⟨sequence, after.edca, after.oper, after.switching, after.edcaTold,
    after.operTold⟩, ?_⟩
  apply BitVec.eq_of_toNat_eq
  have field : (vif.beaconToS1g beacon).2 =
      (vif.beaconToS1g beacon).1.s1gBcnChangeSeq.setWidth 8 := rfl
  rw [field, BitVec.toNat_setWidth, sequence]
  exact Nat.mod_mod _ _

theorem ChangeVif.changeSeqs_of_inOrder (beacons : List BuiltBeacon)
    (reflects : Reflects vif announced count) (inOrder : ∀ beacon ∈ beacons, beacon.InOrder)
    (distinguished : announced.AllDistinguished beacons) :
    vif.changeSeqs beacons =
      (announced.criticalUpdates count beacons).map (BitVec.ofNat 8) := by
  induction beacons generalizing vif announced count with
  | nil => rfl
  | cons beacon rest ih =>
    obtain ⟨first, others⟩ := List.forall_mem_cons.mp inOrder
    obtain ⟨after, field⟩ :=
      ChangeVif.beaconToS1g_of_inOrder reflects first distinguished.1
    rw [ChangeVif.changeSeqs, Announced.criticalUpdates, List.map_cons, field,
      ih after others distinguished.2]

theorem reflects_reset : Reflects ChangeVif.reset Announced.nothing 0 where
  sequence := rfl
  edca := rfl
  oper := rfl
  switching := rfl
  edcaTold := by
    intro octets none
    cases none
  operTold := by
    intro octets none
    cases none

/-- Where checksums tell the parameters apart that are compared, beacons in order have the
number of critical updates so far, modulo 256, for their change sequence. -/
theorem countsCriticalUpdates_of_inOrder (beacons : List BuiltBeacon)
    (distinguished : Announced.nothing.AllDistinguished beacons)
    (inOrder : ∀ beacon ∈ beacons, beacon.InOrder) :
    CountsCriticalUpdates beacons :=
  ChangeVif.changeSeqs_of_inOrder beacons reflects_reset inOrder distinguished

/-! ## Two access points -/

/-- A table with vendor specific elements only. -/
def vendorContents (first : Data) (others : List Data) : Contents :=
  Function.update Contents.empty wlanEidVendorSpecific ⟨some first, others⟩

/-- The parameters of operation of a 2 MHz channel. -/
def twoMhzParameters : OperationParameters := ⟨2, 2, 1, 0, 68, 0⟩

/-- A beacon with vendor specific elements, and zeros behind them in memory. -/
def vendorBeacon (first : Data) (others : List Data) : BuiltBeacon where
  iesMask := vendorContents first others
  behind := fun _ _ => 0
  s1gOperParams := twoMhzParameters

/-- An element with WMM parameters. -/
def wmmElement (parameters : BitVec 8) : Data :=
  ⟨[0x00, 0x50, 0xf2, 2, 1, parameters], show 6 < 256 by decide⟩

/-- An element of another vendor, without contents. -/
def otherElement : Data := ⟨[0x50, 0x6f, 0x9a, 9, 0], by decide⟩

instance (value : Option (List (BitVec 8))) : Decidable (Told value) := by
  unfold Told
  infer_instance

instance (beacon : BuiltBeacon) : Decidable beacon.Measured := by
  unfold BuiltBeacon.Measured
  infer_instance

theorem countsCriticalUpdates_wmm :
    CountsCriticalUpdates
      [vendorBeacon (wmmElement 1) [otherElement], vendorBeacon (wmmElement 2) []] := by
  apply countsCriticalUpdates_of_inOrder
  · refine ⟨⟨?_, ?_⟩, ⟨?_, ?_⟩, trivial⟩
    all_goals decide +kernel
  · intro beacon mem
    rcases List.mem_pair.mp mem with rfl | rfl
    · exact ⟨by decide +kernel, by decide +kernel, by decide +kernel⟩
    · exact ⟨by decide +kernel, by decide +kernel, by decide +kernel⟩

/-- Behind a shorter element of another vendor no octet of the WMM parameters is in the
checksum, and their update is not counted, though the checksums of the two sets of
parameters differ. -/
theorem not_countsCriticalUpdates_behind :
    let beacons :=
      [vendorBeacon otherElement [wmmElement 1], vendorBeacon otherElement [wmmElement 2]]
    Announced.nothing.AllDistinguished beacons ∧ ¬ CountsCriticalUpdates beacons := by
  refine ⟨⟨⟨?_, ?_⟩, ⟨?_, ?_⟩, trivial⟩, ?_⟩
  · decide +kernel
  · decide +kernel
  · decide +kernel
  · decide +kernel
  · unfold CountsCriticalUpdates
    decide +kernel

end S1g
end Morse
