import Morse.Ies.Order

/-!
# The optional fields of a beacon

Between the fixed fields of an S1G beacon and its elements there may be the time of the
next target beacon transmission, a compressed name of the network and an access network
option, as bits of the frame control say.  The driver looks for the first element when it
computes the size of the beacon that it passes up, when it translates the beacon, and when
it processes an announced channel switch.
-/

namespace Morse
namespace S1g

open Ies

/-! ## Frames -/

/-- `IEEE80211_FC_NEXT_TBTT`. -/
def fcNextTbtt : BitVec 16 := 0x0100

/-- `IEEE80211_FC_COMPRESS_SSID`. -/
def fcCompressSsid : BitVec 16 := 0x0200

/-- `IEEE80211_FC_ANO`. -/
def fcAno : BitVec 16 := 0x0400

/-- The frame control of a frame, in its first two octets. -/
def frameControl (frame : List (BitVec 8)) : BitVec 16 :=
  frame.getD 1 0 ++ frame.getD 0 0

/-- A presence bit of the frame control. -/
def hasField (frame : List (BitVec 8)) (bit : BitVec 16) : Bool :=
  decide (frameControl frame &&& bit ≠ 0)

/-- The octets up to `u.s1g_beacon.variable`: frame control, duration, source address,
timestamp and change sequence. -/
def beaconHeaderLength : Nat := 2 + 2 + 6 + 4 + 1

/-- Where the elements of a frame are taken to begin, and how many octets are taken to be
left for them. -/
structure IesAt where
  offset : Nat
  length : Int
  deriving DecidableEq, Repr

/-- A field is skipped. -/
def IesAt.skip (found : IesAt) (count : Nat) : IesAt :=
  ⟨found.offset + count, found.length - count⟩

/-- The fields of a list that are there are skipped one after the other. -/
def skipFields (fields : List (BitVec 16 × Nat)) (frame : List (BitVec 8)) : IesAt :=
  fields.foldl (fun found field => if hasField frame field.1 then found.skip field.2 else found)
    ⟨beaconHeaderLength, (frame.length : Int) - beaconHeaderLength⟩

/-! ## The three searches -/

/-- The elements as `morse_dot11ah_s1g_to_beacon_size` finds them, in a beacon with the
elements of a table and, it may be, with what is stored of its network.  The size is
negative where there is no name for the network. -/
def beaconSizeIes
    (mask : Contents)
    (item : Option (List (BitVec 8)))
    (frame : List (BitVec 8)) : Option IesAt :=
  let found := skipFields [(fcNextTbtt, 3), (fcCompressSsid, 4), (fcAno, 1)] frame
  if (mask (networkIdEid mask)).head.all fun data => data.val.length = 0 then
    match item with
    | some ies => if (parse ies).2 = .invalid then none else some found
    | none => none
  else some found

/-- The elements as `morse_dot11ah_s1g_to_beacon` finds them, where there may be no memory
for the beacon.  It drops a beacon that neither names its network nor is of one whose
stored elements do. -/
def beaconIes
    (length11n : Int)
    (granted : Bool)
    (mask : Contents)
    (item : Option (List (BitVec 8)))
    (frame : List (BitVec 8)) : Option IesAt :=
  let found := skipFields [(fcNextTbtt, 3), (fcCompressSsid, 4), (fcAno, 1)] frame
  let networkId := networkIdEid mask
  if length11n ≤ 0 then none
  else if !granted then none
  else if (mask networkId).head.isSome then some found
  else
    match item with
    | some ies => if ((mask.parse ies) networkId).head.isSome then some found else none
    | none => some found

/-- The elements as `morse_mac_process_ecsa_ie` finds them.  A station calls it for a
beacon of its network that carries the announcement and is not a short one. -/
def ecsaIes
    (associated : Bool)
    (mask : Contents)
    (frame : List (BitVec 8)) : Option IesAt :=
  let shortBeacon := hasField frame fcCompressSsid
  if !associated then none
  else if !shortBeacon && (mask wlanEidExtChanswitchAnn).head.isSome then
    some (skipFields [(fcAno, 1)] frame)
  else none

/-! ## Where they begin -/

/-- The octets of an optional field. -/
def fieldLength (frame : List (BitVec 8)) (field : BitVec 16 × Nat) : Nat :=
  if hasField frame field.1 then field.2 else 0

/-- The octets of all optional fields of a beacon. -/
def optionalLength (frame : List (BitVec 8)) : Nat :=
  fieldLength frame (fcNextTbtt, 3) + fieldLength frame (fcCompressSsid, 4) +
    fieldLength frame (fcAno, 1)

theorem foldl_skip (frame : List (BitVec 8)) (fields : List (BitVec 16 × Nat)) (found : IesAt) :
    fields.foldl (fun found field => if hasField frame field.1 then found.skip field.2 else found)
        found =
      found.skip ((fields.map (fieldLength frame)).sum) := by
  induction fields generalizing found with
  | nil => simp [IesAt.skip]
  | cons field rest ih =>
    rw [List.foldl_cons, ih, List.map_cons, List.sum_cons, fieldLength]
    split
    · simp only [IesAt.skip, Nat.cast_add, IesAt.mk.injEq]
      omega
    · rw [Nat.zero_add]

theorem skipFields_all (frame : List (BitVec 8)) :
    skipFields [(fcNextTbtt, 3), (fcCompressSsid, 4), (fcAno, 1)] frame =
      ⟨beaconHeaderLength + optionalLength frame,
        (frame.length : Int) - (beaconHeaderLength + optionalLength frame : Nat)⟩ := by
  rw [skipFields, foldl_skip]
  simp only [List.map_cons, List.map_nil, List.sum_cons, List.sum_nil, IesAt.skip,
    optionalLength, IesAt.mk.injEq]
  omega

theorem skipFields_ano (frame : List (BitVec 8)) :
    skipFields [(fcAno, 1)] frame =
      ⟨beaconHeaderLength + fieldLength frame (fcAno, 1),
        (frame.length : Int) - (beaconHeaderLength + fieldLength frame (fcAno, 1) : Nat)⟩ := by
  rw [skipFields, foldl_skip]
  simp only [List.map_cons, List.map_nil, List.sum_cons, List.sum_nil, IesAt.skip,
    IesAt.mk.injEq]
  omega

/-- What a search finds, if it does not reject the beacon. -/
inductive Finds (frame : List (BitVec 8)) : IesAt → Prop
  | size {mask : Contents} {item : Option (List (BitVec 8))} {found : IesAt} :
      beaconSizeIes mask item frame = some found → Finds frame found
  | translation {length11n : Int} {granted : Bool} {mask : Contents}
      {item : Option (List (BitVec 8))} {found : IesAt} :
      beaconIes length11n granted mask item frame = some found → Finds frame found
  | ecsa {associated : Bool} {mask : Contents} {found : IesAt} :
      ecsaIes associated mask frame = some found → Finds frame found

/-- The searches find the elements of a beacon in one place, and within the beacon; where
it is shorter than its optional fields they all reject it. -/
structure SkippedAlike (frame : List (BitVec 8)) : Prop where
  alike : ∀ first second, Finds frame first → Finds frame second → first.offset = second.offset
  inside : ∀ found, Finds frame found → 0 ≤ found.length
  rejected : frame.length < beaconHeaderLength + optionalLength frame →
    ∀ found, ¬Finds frame found

variable {frame : List (BitVec 8)} {found : IesAt}

theorem beaconSizeIes_eq_some (located : beaconSizeIes mask item frame = some found) :
    found = skipFields [(fcNextTbtt, 3), (fcCompressSsid, 4), (fcAno, 1)] frame := by
  simp only [beaconSizeIes] at located
  repeat' split at located
  all_goals cases located
  all_goals rfl

theorem beaconIes_eq_some (located : beaconIes length11n granted mask item frame = some found) :
    found = skipFields [(fcNextTbtt, 3), (fcCompressSsid, 4), (fcAno, 1)] frame := by
  simp only [beaconIes] at located
  repeat' split at located
  all_goals cases located
  all_goals rfl

theorem ecsaIes_eq_some (located : ecsaIes associated mask frame = some found) :
    hasField frame fcCompressSsid = false ∧ found = skipFields [(fcAno, 1)] frame := by
  simp only [ecsaIes] at located
  split at located
  · cases located
  · split at located
    · next processed =>
        cases located
        rw [Bool.and_eq_true, Bool.not_eq_true'] at processed
        exact ⟨processed.1, rfl⟩
    · cases located

/-- A beacon that names its network and announces a channel switch. -/
def announcing : Contents :=
  (Contents.empty.setHead wlanEidSsid (some ⟨[0x61], by decide⟩)).setHead
    wlanEidExtChanswitchAnn (some ⟨[0, 0, 0, 0], by decide⟩)

theorem finds_announcing (frame : List (BitVec 8)) :
    Finds frame (skipFields [(fcNextTbtt, 3), (fcCompressSsid, 4), (fcAno, 1)] frame) := by
  apply @Finds.size frame announcing none
  rfl

theorem finds_announcement (plain : hasField frame fcCompressSsid = false) :
    Finds frame (skipFields [(fcAno, 1)] frame) := by
  have announced : (announcing wlanEidExtChanswitchAnn).head.isSome = true := by decide
  apply @Finds.ecsa frame true announcing
  simp only [ecsaIes, plain, announced]
  rfl

/-- The searches agree exactly on the beacons that hold their optional fields, and have no
next target beacon transmission beside a name that is not compressed. -/
theorem skippedAlike_iff (frame : List (BitVec 8)) :
    SkippedAlike frame ↔
      beaconHeaderLength + optionalLength frame ≤ frame.length ∧
        (hasField frame fcNextTbtt = true → hasField frame fcCompressSsid = true) := by
  constructor
  · intro skipped
    refine ⟨?_, ?_⟩
    · by_contra short
      exact skipped.rejected (by omega) _ (finds_announcing frame)
    · intro nextTbtt
      by_contra notShort
      have plain := Bool.eq_false_iff.mpr notShort
      have same := skipped.alike _ _ (finds_announcing frame) (finds_announcement plain)
      rw [skipFields_all, skipFields_ano] at same
      simp only [optionalLength, fieldLength, nextTbtt, plain, if_true, Bool.false_eq_true,
        if_false] at same
      omega
  · rintro ⟨long, compressed⟩
    have everywhere : ∀ found, Finds frame found →
        found = skipFields [(fcNextTbtt, 3), (fcCompressSsid, 4), (fcAno, 1)] frame := by
      intro found finds
      cases finds with
      | size located => exact beaconSizeIes_eq_some located
      | translation located => exact beaconIes_eq_some located
      | ecsa located =>
        obtain ⟨plain, rfl⟩ := ecsaIes_eq_some located
        have none : hasField frame fcNextTbtt = false := by
          rw [Bool.eq_false_iff]
          intro nextTbtt
          rw [compressed nextTbtt] at plain
          cases plain
        have same : optionalLength frame = fieldLength frame (fcAno, 1) := by
          simp [optionalLength, fieldLength, plain, none]
        rw [skipFields_all, skipFields_ano, same]
    refine ⟨?_, ?_, ?_⟩
    · intro first second firstFinds secondFinds
      rw [everywhere first firstFinds, everywhere second secondFinds]
    · intro found finds
      rw [everywhere found finds, skipFields_all]
      simp only
      omega
    · omega

/-- A beacon with the time of the next target beacon transmission, a name and an
announcement. -/
def switchingBeacon : List (BitVec 8) :=
  [0x1C, 0x01, 0, 0, 2, 0, 0, 0, 0, 1, 0, 0, 0, 0, 0, 1, 2, 3, 0, 1, 0x61, 60, 4, 0, 0, 5, 3]

/-- Its announcement is looked for from inside that time on. -/
theorem not_skippedAlike : ¬∀ frame, SkippedAlike frame := by
  intro always
  have plain : hasField switchingBeacon fcCompressSsid = false := by decide
  have same := (always switchingBeacon).alike _ _ (finds_announcing _)
    (finds_announcement plain)
  exact absurd same (by decide)

end S1g
end Morse
