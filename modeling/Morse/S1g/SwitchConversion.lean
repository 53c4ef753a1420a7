import Morse.Ies.Locate
import Morse.Ies.Survival

/-!
# Channel switches that are announced in beacons

An access point announces in its beacons that it moves to another channel, in an Extended
Channel Switch Announcement and, for a wider channel, in an element that is wrapped in
another.  The beacon that is built from an S1G beacon names channels of 5 GHz instead, so
the elements are searched in what was built and their octets are changed where they are.
The length of what is searched is held in an octet.
-/

namespace Morse
namespace S1g

open Ies

/-! ## Channels -/

/-- `WLAN_EID_WIDE_BW_CHANNEL_SWITCH`. -/
def wlanEidWideBwChannelSwitch : Eid := 194

/-- `WLAN_EID_SECONDARY_CHANNEL_OFFSET`. -/
def wlanEidSecondaryChannelOffset : Eid := 62

/-- The widths of `struct cfg80211_chan_def` that are set. -/
inductive ChandefWidth
  | noHt20
  | ht40
  | vht80
  | vht160
  deriving DecidableEq, Repr

/-- The maps from S1G channels to those of 5 GHz, and the operating class of a channel of
5 GHz with its width and the channel at its centre. -/
structure FiveGhz where
  s1gChanTo5gChan : BitVec 8 → BitVec 8
  s1gOpChanPriChanTo5g : BitVec 8 → BitVec 8 → BitVec 8
  getPri1mhzChan : BitVec 8 → Nat → Bool → BitVec 8
  operatingClass : BitVec 8 → ChandefWidth → BitVec 8 → BitVec 8

/-- `IEEE80211AH_S1G_OPERATION_GET_OP_CHAN_BW`. -/
def getOpChanBw (width : BitVec 8) : Nat := ((width >>> 1) &&& 0xf).toNat + 1

/-- `IEEE80211AH_S1G_OPERATION_GET_PRIM_CHAN_BW`. -/
def getPrimChanBw (width : BitVec 8) : Nat := if width &&& 0x01 = 0 then 2 else 1

/-- `IEEE80211AH_S1G_OPERATION_GET_PRIM_CHAN_LOC`. -/
def getPrimChanLoc (width : BitVec 8) : Bool := decide ((width >>> 5) &&& 0x01 ≠ 0)

/-! ## Conversion -/

/-- The control channel of 5 GHz for an announced channel with this width and centre. -/
def wideChannel (maps : FiveGhz) (announced width centre : BitVec 8) : BitVec 8 :=
  maps.s1gOpChanPriChanTo5g centre
    (maps.getPri1mhzChan announced (getPrimChanBw width) (getPrimChanLoc width))

/-- The octets of a wide bandwidth element that
`morse_convert_dot11ah_wide_bw_chansw_ie_to_5g` writes: the segments of the centre and the
width. -/
def wideChanges (maps : FiveGhz) (announced width centre : BitVec 8) : List (Nat × BitVec 8) :=
  let channel := wideChannel maps announced width centre
  let seg0 := maps.s1gChanTo5gChan centre
  (1, seg0) ::
    if getOpChanBw width = 2 then [(0, 0)]
    else if getOpChanBw width = 4 then [(0, 1)]
    else if getOpChanBw width = 8 then
      [(0, 1), (2, seg0), (1, if channel < seg0 then seg0 - 8 else seg0 + 8)]
    else []

/-- The element that it adds. -/
def secondaryOffset (maps : FiveGhz) (announced width centre : BitVec 8) : List Element :=
  if getOpChanBw width = 2 then
    [⟨wlanEidSecondaryChannelOffset,
      ⟨[if maps.s1gChanTo5gChan centre > wideChannel maps announced width centre then 1 else 3],
        show 1 < 256 by decide⟩⟩]
  else []

/-- The width that it sets. -/
def chandefWidth (width : BitVec 8) : ChandefWidth :=
  if getOpChanBw width = 2 then .ht40
  else if getOpChanBw width = 4 then .vht80
  else if getOpChanBw width = 8 then .vht160
  else .noHt20

/-- The operating class for a channel with this width and centre. -/
def wideClass (maps : FiveGhz) (announced width centre : BitVec 8) : BitVec 8 :=
  let channel := wideChannel maps announced width centre
  maps.operatingClass channel (chandefWidth width)
    (if chandefWidth width = .noHt20 then channel else maps.s1gChanTo5gChan centre)

/-- Where the data of the wide bandwidth element starts, in the wrapper that is in the
first octets. -/
def wideOffset (limit : Nat) (frmVariable : List (BitVec 8)) : Option Nat :=
  (ieOffset wlanEidChannelSwitchWrapper (frmVariable.take limit)).bind fun ie =>
    (ieOffset wlanEidWideBwChannelSwitch
        ((frmVariable.drop (ie + 2)).take (frmVariable.getD (ie + 1) 0).toNat)).map
      fun wide => ie + (2 + (wide + 2))

/-- `morse_dot11ah_convert_ecsa_info_to_5g` for the elements of a beacon, whose length is
passed in an octet. -/
def convertEcsaInfoTo5g (maps : FiveGhz) (frmVariable : List (BitVec 8)) : List (BitVec 8) :=
  let frmVariableLen := (BitVec.ofNat 8 frmVariable.length).toNat
  match ieOffset wlanEidExtChanswitchAnn (frmVariable.take frmVariableLen) with
  | none => frmVariable
  | some ie =>
    let announced := frmVariable.getD (ie + (2 + 2)) 0
    match wideOffset frmVariableLen frmVariable with
    | none =>
      let channel := maps.s1gChanTo5gChan announced
      setAll frmVariable
        [(ie + (2 + 2), channel), (ie + (2 + 1), maps.operatingClass channel .noHt20 channel)]
    | some wide =>
      let width := frmVariable.getD wide 0
      let centre := frmVariable.getD (wide + 1) 0
      let placed := setAll frmVariable
        [(ie + (2 + 2), wideChannel maps announced width centre)]
      let rewritten := setAll placed
        (shifted wide (wideChanges maps announced width centre))
      setAll rewritten [(ie + (2 + 1), wideClass maps announced width centre)] ++
        (secondaryOffset maps announced width centre).flatMap Element.octets

/-! ## Beacons -/

/-- The table that `morse_dot11ah_s1g_to_beacon` builds a beacon from, if it does. -/
def builtMask (stored : List (BitVec 8)) (frame : BeaconFrame) (mask : Contents) :
    Option Contents :=
  if frame.beaconGranted then
    if (mask (networkIdEid mask)).head.isSome then some mask
    else if ((mask.parse stored) (networkIdEid mask)).head.isSome then
      some ((mask.parse stored).setHead wlanEidTim
        (updateRxBeaconElements mask stored frame.copyGranted).timIe)
    else none
  else none

section Translation

variable (conversions : Conversions)

/-- The elements of the beacon that is built. -/
def builtElements (stored : List (BitVec 8)) (frame : BeaconFrame) (mask built : Contents) :
    List Element :=
  buildBeacon conversions (updateRxBeaconElements mask stored frame.copyGranted) built

/-- The octets of the elements of a beacon that `morse_dot11ah_s1g_to_beacon` passes up. -/
def s1gToBeaconOctets (maps : FiveGhz) (isStaAssoc : Bool) (stored : List (BitVec 8))
    (frame : BeaconFrame) (mask : Contents) : Option (List (BitVec 8)) :=
  (builtMask stored frame mask).map fun built =>
    let octets := (builtElements conversions stored frame mask built).flatMap Element.octets
    if (built wlanEidExtChanswitchAnn).head.isSome && isStaAssoc then
      convertEcsaInfoTo5g maps octets
    else octets

/-- What `morse_dot11ah_s1g_to_beacon_size` adds for a secondary channel offset element. -/
def secondaryShare (isStaAssoc : Bool) (mask : Contents) : Nat :=
  match (mask wlanEidExtChanswitchAnn).head, (mask wlanEidChannelSwitchWrapper).head with
  | some _, some wrapper =>
    match findIe wlanEidWideBwChannelSwitch wrapper.val with
    | some wide => if isStaAssoc && decide (wide.data.val.getD 0 0 &&& 0xf = 1) then 1 + 2 else 0
    | none => 0
  | _, _ => 0

/-! ## What is expected -/

/-- The wide bandwidth element of the first wrapper, with its place in the data of that. -/
def announcedWide (elements : List Element) : Option (Nat × Data) :=
  (firstData wlanEidChannelSwitchWrapper elements).bind fun wrapper =>
    (ieOffset wlanEidWideBwChannelSwitch wrapper.val).bind fun offset =>
      (findIe wlanEidWideBwChannelSwitch wrapper.val).map fun wide => (offset, wide.data)

/-- A beacon with the announcement of a channel of 5 GHz: the channel and its class are
put into the announcement, and with a wide bandwidth element this is rewritten and, for
2 MHz, a secondary channel offset is added. -/
def announcedElements (maps : FiveGhz) (elements : List Element) (ecsa : Data) : List Element :=
  let announced := ecsa.val.getD 2 0
  match announcedWide elements with
  | none =>
    let channel := maps.s1gChanTo5gChan announced
    modifyFirst wlanEidExtChanswitchAnn
      (fun data => data.setAll [(2, channel), (1, maps.operatingClass channel .noHt20 channel)])
      elements
  | some (offset, wide) =>
    let width := wide.val.getD 0 0
    let centre := wide.val.getD 1 0
    modifyFirst wlanEidExtChanswitchAnn
        (fun data => data.setAll
          [(2, wideChannel maps announced width centre),
            (1, wideClass maps announced width centre)])
        (modifyFirst wlanEidChannelSwitchWrapper
          (fun data => data.setAll
            (shifted (offset + 2) (wideChanges maps announced width centre))) elements) ++
      secondaryOffset maps announced width centre

/-- In the beacon that is passed up for a received one, while associated, an announcement
that is long enough to name a channel, with a wide bandwidth element that is long enough to
name a centre, is one of a channel of 5 GHz, whatever the maps are; and the octets that
were added were counted. -/
def EcsaConverted (stored : List (BitVec 8)) (frame : BeaconFrame) : Prop :=
  ∀ sized ∈ sizedMask stored (Contents.empty.parse frame.ies), ∀ mask ∈ beaconMask stored frame,
    ∀ built ∈ builtMask stored frame mask, ∀ ecsa ∈ (built wlanEidExtChanswitchAnn).head,
      (3 ≤ ecsa.val.length ∧
        ∀ wide ∈ announcedWide (builtElements conversions stored frame mask built),
          3 ≤ wide.2.val.length) ∧
      ∀ maps : FiveGhz, ∀ octets ∈ s1gToBeaconOctets conversions maps true stored frame mask,
        octets = (announcedElements maps (builtElements conversions stored frame mask built)
          ecsa).flatMap Element.octets ∧
        octets.length ≤
          ((builtElements conversions stored frame mask built).flatMap Element.octets).length +
            secondaryShare true sized

/-- The announcement and the wrapper of a wide bandwidth element are long enough and end in
as many octets of what is built as an octet can tell, and the width is not 2 MHz. -/
structure Convertible (elements : List Element) (ecsa : Data) : Prop where
  long : 3 ≤ ecsa.val.length
  ends : EndsWithin ((elements.flatMap Element.octets).length % 256) elements
    wlanEidExtChanswitchAnn
  wide : ∀ wide ∈ announcedWide elements,
    3 ≤ wide.2.val.length ∧ getOpChanBw (wide.2.val.getD 0 0) ≠ 2 ∧
      EndsWithin ((elements.flatMap Element.octets).length % 256) elements
        wlanEidChannelSwitchWrapper

end Translation

/-! ## Elements of the table in what is built -/

/-- An identifier whose elements are taken from the table as they are. -/
def IsCopied (eid : Eid) : Prop :=
  eid ∉ [wlanEidSsid, wlanEidSuppRates, wlanEidTim, wlanEidHtCapability, wlanEidRsn,
    wlanEidHtOperation, wlanEidVhtCapability, wlanEidVhtOperation, wlanEidS1gCapabilities,
    wlanEidS1gOperation, wlanEidRsnx]

instance (eid : Eid) : Decidable (IsCopied eid) := inferInstanceAs (Decidable (_ ∉ _))

theorem IsCopied.ne (copied : IsCopied eid)
    (special : other ∈ [wlanEidSsid, wlanEidSuppRates, wlanEidTim, wlanEidHtCapability,
      wlanEidRsn, wlanEidHtOperation, wlanEidVhtCapability, wlanEidVhtOperation,
      wlanEidS1gCapabilities, wlanEidS1gOperation, wlanEidRsnx]) :
    other ≠ eid := by
  rintro rfl
  exact copied special

variable {eid : Eid}

theorem firstData_insertRequiredRxIe (copied : IsCopied eid) (conversions : Conversions)
    (mask : Contents) :
    firstData eid (insertRequiredRxIe conversions mask) = (mask eid).head := by
  have kept : mask.setHead wlanEidSuppRates (some conversions.suppRates) eid = mask eid :=
    setHead_of_ne mask _ (Ne.symm (copied.ne (by decide)))
  rw [insertRequiredRxIe, firstData_flatMap (eid_of_mem_requiredRxIe conversions _)
    (List.mem_finRange eid), requiredRxIe, kept,
    if_neg (not_or.mpr ⟨Ne.symm (copied.ne (by decide)), Ne.symm (copied.ne (by decide))⟩),
    if_neg (Ne.symm (copied.ne (by decide)))]
  cases head : (mask eid).head with
  | none => rfl
  | some data =>
    rw [Option.isNone_some, if_neg Bool.false_ne_true, Cell.all, head]
    rw [List.map_cons, firstData_cons]
    exact if_pos rfl

theorem firstData_buildBeacon (copied : IsCopied eid) (conversions : Conversions)
    (vals : UpdateRxBeaconVals) (mask : Contents) :
    firstData eid (buildBeacon conversions vals mask) = (mask eid).head := by
  have ssid : firstData eid (insertSsidIe conversions mask) = none := by
    apply firstData_eq_none
    intro element member
    have named : element.eid = wlanEidSsid := by
      rw [insertSsidIe] at member
      split at member
      · obtain ⟨data, -, rfl⟩ := List.mem_map.mp member
        rfl
      · rw [List.mem_singleton.mp member]
    rw [named]
    exact copied.ne (by decide)
  have security : ∀ mask, firstData eid (insertRsnAndRsnxIe vals mask) = none := by
    intro mask
    apply firstData_eq_none
    intro element member
    rcases List.mem_append.mp member with rsn | rsnx
    · rw [UpdateRxBeaconVals.eid_of_mem_missing rsn]
      exact copied.ne (by decide)
    · rw [UpdateRxBeaconVals.eid_of_mem_missing rsnx]
      exact copied.ne (by decide)
  have one : ∀ (present : Bool) (name : Eid) (data : Data), name ≠ eid →
      firstData eid (if present then [Element.mk name data] else []) = none := by
    intro present name data differs
    cases present with
    | false => rfl
    | true =>
      rw [if_pos rfl, firstData_cons]
      exact if_neg differs
  have htAndVht : ∀ mask, firstData eid (insertHtAndVhtIe conversions mask) = none := by
    intro mask
    rw [insertHtAndVhtIe, firstData_append, firstData_append, firstData_append,
      one _ _ _ (copied.ne (by decide)), one _ _ _ (copied.ne (by decide)),
      one _ _ _ (copied.ne (by decide)), one _ _ _ (copied.ne (by decide))]
    rfl
  rw [buildBeacon, firstData_append, firstData_append, firstData_append, ssid, security, htAndVht,
    Option.none_or, Option.none_or, Option.none_or, firstData_insertRequiredRxIe copied,
    setHead_of_ne mask none (Ne.symm (copied.ne (by decide)))]

/-! ## The table and what was counted -/

theorem head_eq_head_all (cell : Cell) : cell.head = cell.all.head? := by
  rw [Cell.all]
  cases cell.head with
  | none => rfl
  | some data => rfl

theorem head_parse {mask : Contents} (headed : (mask eid).Headed) (octets : List (BitVec 8)) :
    (mask.parse octets eid).head =
      (mask eid).head.or (dataOf eid (parse octets).1).head? := by
  rw [head_eq_head_all, (Contents.all_parse mask eid headed octets).1, List.head?_append,
    ← head_eq_head_all]

theorem networkId_setHead (mask : Contents) :
    (mask.setHead wlanEidSuppRates none) (networkIdEid (mask.setHead wlanEidSuppRates none)) =
      mask (networkIdEid mask) := by
  have mesh : (mask.setHead wlanEidSuppRates none) wlanEidMeshId = mask wlanEidMeshId :=
    setHead_of_ne mask none (by decide)
  have same : networkIdEid (mask.setHead wlanEidSuppRates none) = networkIdEid mask := by
    rw [networkIdEid, networkIdEid, mesh]
  rw [same, setHead_of_ne mask none (networkIdEid_ne mask)]

theorem sizedMask_cases (counted : sizedMask stored own = some sized) :
    sized = own.parse stored ∨
      sized = own ∧ (own (networkIdEid own)).head.isSome = true := by
  rw [sizedMask] at counted
  split at counted
  · split at counted
    · cases counted
    · exact .inl (Option.some.inj counted).symm
  · next named =>
      refine .inr ⟨(Option.some.inj counted).symm, ?_⟩
      cases head : (own (networkIdEid own)).head with
      | none =>
        rw [head] at named
        exact absurd rfl named
      | some data => rfl

theorem head_of_builtMask (copied : IsCopied eid)
    (counted : sizedMask stored (Contents.empty.parse frame.ies) = some sized)
    (given : beaconMask stored frame = some mask) (taken : builtMask stored frame mask = some built)
    (found : (built eid).head = some data) :
    (sized eid).head = some data := by
  have headed : (Contents.empty.parse frame.ies eid).Headed :=
    (Contents.all_parse Contents.empty eid (fun _ => rfl) frame.ies).2
  have asMask : mask = if frame.expanded then Contents.empty.parse frame.ies
      else sized.setHead wlanEidSuppRates none := by
    simp only [beaconMask, counted] at given
    split at given
    · cases given
    · exact (Option.some.inj given).symm
  have notRates : eid ≠ wlanEidSuppRates := Ne.symm (copied.ne (by decide))
  have notTim : eid ≠ wlanEidTim := Ne.symm (copied.ne (by decide))
  have builtCases : (built = mask) ∨
      (mask (networkIdEid mask)).head.isSome = false ∧ built eid = mask.parse stored eid := by
    rw [builtMask] at taken
    split at taken
    · split at taken
      · exact .inl (Option.some.inj taken).symm
      · next nameless =>
          split at taken
          · rw [← Option.some.inj taken]
            exact .inr ⟨Bool.not_eq_true _ ▸ nameless, setHead_of_ne _ _ notTim⟩
          · cases taken
    · cases taken
  cases expanded : frame.expanded with
  | true =>
    rw [expanded, if_pos rfl] at asMask
    subst asMask
    rcases builtCases with same | ⟨nameless, merged⟩
    · subst same
      rcases sizedMask_cases counted with rfl | ⟨rfl, -⟩
      · rw [head_parse headed, found]
        rfl
      · exact found
    · rcases sizedMask_cases counted with rfl | ⟨-, named⟩
      · rw [← merged]
        exact found
      · rw [named] at nameless
        cases nameless
  | false =>
    rw [expanded, if_neg Bool.false_ne_true] at asMask
    have kept : mask eid = sized eid := by
      rw [asMask]
      exact setHead_of_ne sized none notRates
    rcases builtCases with same | ⟨nameless, merged⟩
    · rw [← kept, ← same]
      exact found
    · rcases sizedMask_cases counted with put | ⟨same, named⟩
      · have sizedHeaded : (mask eid).Headed := by
          rw [kept, put]
          exact (Contents.all_parse _ eid headed stored).2
        have first := head_parse headed stored
        rw [merged, head_parse sizedHeaded, kept, put, first, Option.or_assoc,
          Option.or_self] at found
        rw [put, first]
        exact found
      · rw [asMask, networkId_setHead, same, named] at nameless
        cases nameless

/-! ## What conversion does -/

section Converting

variable {maps : FiveGhz} {elements : List Element} {ecsa : Data}

theorem toNat_frmVariableLen (count : Nat) : (BitVec.ofNat 8 count).toNat = count % 256 :=
  BitVec.toNat_ofNat _ _

theorem convert_of_not_endsWithin (maps : FiveGhz)
    (outside : ¬ EndsWithin ((elements.flatMap Element.octets).length % 256) elements
      wlanEidExtChanswitchAnn) :
    convertEcsaInfoTo5g maps (elements.flatMap Element.octets) =
      elements.flatMap Element.octets := by
  simp only [convertEcsaInfoTo5g, toNat_frmVariableLen, ieOffset_take_of_not outside]

theorem getD_announced (found : firstData wlanEidExtChanswitchAnn elements = some ecsa)
    (long : 3 ≤ ecsa.val.length) :
    (elements.flatMap Element.octets).getD (startOf wlanEidExtChanswitchAnn elements + (2 + 2)) 0 =
      ecsa.val.getD 2 0 :=
  getD_startOf found long

theorem convert_of_wideOffset_eq_none (maps : FiveGhz)
    (found : firstData wlanEidExtChanswitchAnn elements = some ecsa) (long : 3 ≤ ecsa.val.length)
    (ends : EndsWithin ((elements.flatMap Element.octets).length % 256) elements
      wlanEidExtChanswitchAnn)
    (narrow : wideOffset ((elements.flatMap Element.octets).length % 256)
      (elements.flatMap Element.octets) = none) :
    convertEcsaInfoTo5g maps (elements.flatMap Element.octets) =
      (modifyFirst wlanEidExtChanswitchAnn
        (fun data => data.setAll [(2, maps.s1gChanTo5gChan (ecsa.val.getD 2 0)),
          (1, maps.operatingClass (maps.s1gChanTo5gChan (ecsa.val.getD 2 0)) .noHt20
            (maps.s1gChanTo5gChan (ecsa.val.getD 2 0)))]) elements).flatMap Element.octets := by
  simp only [convertEcsaInfoTo5g, toNat_frmVariableLen, ieOffset_take_of_endsWithin ends, narrow,
    getD_announced found long]
  rw [← setAll_startOf found]
  · rfl
  · simp only [List.forall_mem_cons, List.not_mem_nil, false_implies, implies_true, and_true]
    omega

variable {limit : Nat}

theorem wideOffset_of_not_endsWithin
    (outside : ¬ EndsWithin limit elements wlanEidChannelSwitchWrapper) :
    wideOffset limit (elements.flatMap Element.octets) = none := by
  rw [wideOffset, ieOffset_take_of_not outside]
  rfl

variable {wrapper : Data}

theorem wideOffset_of_endsWithin (ends : EndsWithin limit elements wlanEidChannelSwitchWrapper)
    (found : firstData wlanEidChannelSwitchWrapper elements = some wrapper) :
    wideOffset limit (elements.flatMap Element.octets) =
      (ieOffset wlanEidWideBwChannelSwitch wrapper.val).map fun wide =>
        startOf wlanEidChannelSwitchWrapper elements + (2 + (wide + 2)) := by
  rw [wideOffset, ieOffset_take_of_endsWithin ends, Option.bind_some, getD_startOf_length found,
    take_drop_startOf found]

theorem announcedWide_eq_some (announced : announcedWide elements = some wide) :
    ∃ wrapper element, firstData wlanEidChannelSwitchWrapper elements = some wrapper ∧
      ieOffset wlanEidWideBwChannelSwitch wrapper.val = some wide.1 ∧
      findIe wlanEidWideBwChannelSwitch wrapper.val = some element ∧ element.data = wide.2 := by
  obtain ⟨wrapper, found, rest⟩ := Option.bind_eq_some_iff.mp announced
  obtain ⟨offset, place, last⟩ := Option.bind_eq_some_iff.mp rest
  obtain ⟨element, first, rfl⟩ := Option.map_eq_some_iff.mp last
  exact ⟨wrapper, element, found, place, first, rfl⟩

theorem wideOffset_of_announcedWide_eq_none (limit : Nat) (narrow : announcedWide elements = none) :
    wideOffset limit (elements.flatMap Element.octets) = none := by
  by_cases ends : EndsWithin limit elements wlanEidChannelSwitchWrapper
  · obtain ⟨wrapper, found, -⟩ := id ends
    rw [wideOffset_of_endsWithin ends found]
    rw [announcedWide, found, Option.bind_some] at narrow
    cases place : ieOffset wlanEidWideBwChannelSwitch wrapper.val with
    | none => rfl
    | some offset =>
      rw [place, Option.bind_some, Option.map_eq_none_iff, ← ieOffset_eq_none_iff, place]
        at narrow
      cases narrow
  · exact wideOffset_of_not_endsWithin ends

theorem wideChanges_inside (maps : FiveGhz) (announced width centre : BitVec 8) :
    ∀ change ∈ wideChanges maps announced width centre, change.1 < 3 := by
  intro change member
  rcases List.mem_cons.mp member with rfl | rest
  · show 1 < 3
    decide
  · split at rest
    · rw [List.mem_singleton.mp rest]
      decide
    · split at rest
      · rw [List.mem_singleton.mp rest]
        decide
      · split at rest
        · simp only [List.mem_cons, List.not_mem_nil, or_false] at rest
          rcases rest with rfl | rfl | rfl
          · decide
          · show 2 < 3
            decide
          · show 1 < 3
            decide
        · cases rest

theorem convert_of_wide (maps : FiveGhz)
    (found : firstData wlanEidExtChanswitchAnn elements = some ecsa) (long : 3 ≤ ecsa.val.length)
    (ends : EndsWithin ((elements.flatMap Element.octets).length % 256) elements
      wlanEidExtChanswitchAnn)
    (announced : announcedWide elements = some wide)
    (wideLong : 3 ≤ wide.2.val.length)
    (wrapped : EndsWithin ((elements.flatMap Element.octets).length % 256) elements
      wlanEidChannelSwitchWrapper) :
    convertEcsaInfoTo5g maps (elements.flatMap Element.octets) =
      (announcedElements maps elements ecsa).flatMap Element.octets := by
  obtain ⟨wrapper, element, inWrapper, place, first, data⟩ := announcedWide_eq_some announced
  obtain ⟨offset, wide⟩ := wide
  subst data
  have differ : wlanEidExtChanswitchAnn ≠ wlanEidChannelSwitchWrapper := by decide
  have there := wideOffset_of_endsWithin wrapped inWrapper
  rw [place, Option.map_some] at there
  have readable : ∀ index < 3, offset + 2 + index < wrapper.val.length ∧
      (elements.flatMap Element.octets).getD
        (startOf wlanEidChannelSwitchWrapper elements + (2 + (offset + 2)) + index) 0 =
          element.data.val.getD index 0 := by
    intro index inside
    obtain ⟨within, read⟩ := getD_of_ieOffset place first (Nat.lt_of_lt_of_le inside wideLong)
    refine ⟨within, ?_⟩
    rw [Nat.add_assoc, Nat.add_assoc, getD_startOf inWrapper within, read]
  have width := (readable 0 (by decide)).2
  have centre := (readable 1 (by decide)).2
  rw [Nat.add_zero] at width
  simp only [convertEcsaInfoTo5g, toNat_frmVariableLen, ieOffset_take_of_endsWithin ends, there,
    getD_announced found long, width, centre]
  rw [announcedElements, announced]
  rw [List.flatMap_append]
  congr 1
  have places : shifted (startOf wlanEidChannelSwitchWrapper elements + (2 + (offset + 2)))
      (wideChanges maps (ecsa.val.getD 2 0) (element.data.val.getD 0 0)
        (element.data.val.getD 1 0)) =
        shifted (startOf wlanEidChannelSwitchWrapper elements) (shifted 2 (shifted (offset + 2)
          (wideChanges maps (ecsa.val.getD 2 0) (element.data.val.getD 0 0)
            (element.data.val.getD 1 0)))) := by
    simp only [shifted, List.map_map, Function.comp_def, Nat.add_assoc]
  rw [places]
  refine @setAll_setAll_setAll _ _ elements ecsa wrapper differ found inWrapper
    [(2, wideChannel maps _ _ _)] _ [(1, wideClass maps _ _ _)] ?_ ?_ ?_
  · intro change member
    rw [List.mem_singleton.mp member]
    exact long
  · intro change member
    obtain ⟨original, mem, rfl⟩ := List.mem_map.mp member
    exact (readable original.1 (wideChanges_inside maps _ _ _ original mem)).1
  · intro change member
    rw [List.mem_singleton.mp member]
    exact Nat.lt_of_succ_lt long

/-! ## The elements that are expected -/

/-- The channel of 5 GHz that is to be announced. -/
def announcedChannel (maps : FiveGhz) (elements : List Element) (ecsa : Data) : BitVec 8 :=
  match announcedWide elements with
  | none => maps.s1gChanTo5gChan (ecsa.val.getD 2 0)
  | some wide =>
    wideChannel maps (ecsa.val.getD 2 0) (wide.2.val.getD 0 0) (wide.2.val.getD 1 0)

theorem getD_setAll (long : 3 ≤ ecsa.val.length) (channel operatingClass : BitVec 8) :
    (ecsa.setAll [(2, channel), (1, operatingClass)]).val.getD 2 0 = channel := by
  have there : 2 < ecsa.val.length := long
  show ((ecsa.val.set 2 channel).set 1 operatingClass).getD 2 0 = channel
  rw [List.getD_eq_getElem?_getD, List.getElem?_set_ne (by decide), List.getElem?_set_self there]
  rfl

theorem firstData_announcedElements (maps : FiveGhz)
    (found : firstData wlanEidExtChanswitchAnn elements = some ecsa) (long : 3 ≤ ecsa.val.length) :
    (firstData wlanEidExtChanswitchAnn (announcedElements maps elements ecsa)).map
        (fun data => data.val.getD 2 0) = some (announcedChannel maps elements ecsa) := by
  rw [announcedElements, announcedChannel]
  cases announcedWide elements with
  | none =>
    rw [firstData_modifyFirst_self, found, Option.map_some, Option.map_some, getD_setAll long]
  | some wide =>
    rw [firstData_append, firstData_modifyFirst_self,
      firstData_modifyFirst_of_ne (by decide), found, Option.map_some, Option.some_or,
      Option.map_some, getD_setAll long]

theorem length_secondaryOffset (maps : FiveGhz) (announced width centre : BitVec 8) :
    ((secondaryOffset maps announced width centre).flatMap Element.octets).length =
      if getOpChanBw width = 2 then 3 else 0 := by
  rw [secondaryOffset]
  split
  · rfl
  · rfl

theorem length_announcedElements (maps : FiveGhz) (elements : List Element) (ecsa : Data) :
    ((announcedElements maps elements ecsa).flatMap Element.octets).length =
      (elements.flatMap Element.octets).length +
        if ∃ wide ∈ announcedWide elements, getOpChanBw (wide.2.val.getD 0 0) = 2 then 3
        else 0 := by
  rw [announcedElements]
  cases announcedWide elements with
  | none =>
    exact length_modifyFirst (length_setAll_data _) _ _
  | some wide =>
    rw [List.flatMap_append, List.length_append, length_modifyFirst (length_setAll_data _),
      length_modifyFirst (length_setAll_data _), length_secondaryOffset]
    by_cases bandwidth : getOpChanBw (wide.2.val.getD 0 0) = 2
    · have present : ∃ found ∈ some wide, getOpChanBw (found.2.val.getD 0 0) = 2 :=
        ⟨wide, rfl, bandwidth⟩
      rw [if_pos bandwidth, if_pos present]
    · have other : ¬ ∃ found ∈ some wide, getOpChanBw (found.2.val.getD 0 0) = 2 := by
        rintro ⟨found, member, same⟩
        rw [← Option.some.inj member] at same
        exact bandwidth same
      rw [if_neg bandwidth, if_neg other]

theorem secondaryShare_eq_zero (found : (mask wlanEidChannelSwitchWrapper).head = some wrapper)
    (first : findIe wlanEidWideBwChannelSwitch wrapper.val = some wide)
    (bandwidth : getOpChanBw (wide.data.val.getD 0 0) = 2) :
    secondaryShare true mask = 0 := by
  have masks : ∀ width : BitVec 8, getOpChanBw width = 2 → width &&& 0xf ≠ 1 := by
    decide +kernel
  rw [secondaryShare]
  split
  · next wrapper' announced wrapped =>
      rw [found] at wrapped
      cases wrapped
      rw [first]
      dsimp only
      rw [decide_eq_false (masks _ bandwidth), Bool.and_false, if_neg Bool.false_ne_true]
  · rfl

end Converting

/-! ## Beacons that are passed up -/

section Passed

variable {stored : List (BitVec 8)} {frame : BeaconFrame} {mask built : Contents} {ecsa : Data}

theorem firstData_builtElements (copied : IsCopied eid) (conversions : Conversions)
    (stored : List (BitVec 8)) (frame : BeaconFrame) (mask built : Contents) :
    firstData eid (builtElements conversions stored frame mask built) = (built eid).head :=
  firstData_buildBeacon copied conversions _ built

theorem s1gToBeaconOctets_eq (taken : builtMask stored frame mask = some built)
    (present : (built wlanEidExtChanswitchAnn).head = some ecsa) (conversions : Conversions)
    (maps : FiveGhz) :
    s1gToBeaconOctets conversions maps true stored frame mask =
      some (convertEcsaInfoTo5g maps
        ((builtElements conversions stored frame mask built).flatMap Element.octets)) := by
  simp only [s1gToBeaconOctets, taken, Option.map_some, present, Option.isSome_some,
    Bool.and_self, if_true]

/-- Maps to one channel with a wide bandwidth element and to one without. -/
def constantMaps (narrow wide : BitVec 8) : FiveGhz where
  s1gChanTo5gChan := fun _ => narrow
  s1gOpChanPriChanTo5g := fun _ _ => wide
  getPri1mhzChan := fun _ _ _ => 0
  operatingClass := fun _ _ _ => 0

theorem announcedChannel_constantMaps (elements : List Element) (channel : BitVec 8) :
    announcedChannel (constantMaps channel channel) elements ecsa = channel := by
  rw [announcedChannel]
  cases announcedWide elements with
  | none => rfl
  | some wide => rfl

theorem endsWithin_of_converted (found : firstData wlanEidExtChanswitchAnn elements = some ecsa)
    (long : 3 ≤ ecsa.val.length)
    (converted : ∀ maps, convertEcsaInfoTo5g maps (elements.flatMap Element.octets) =
      (announcedElements maps elements ecsa).flatMap Element.octets) :
    EndsWithin ((elements.flatMap Element.octets).length % 256) elements
      wlanEidExtChanswitchAnn := by
  by_contra outside
  have unchanged : ∀ channel, ecsa.val.getD 2 0 = channel := by
    intro channel
    have same := converted (constantMaps channel channel)
    rw [convert_of_not_endsWithin _ outside] at same
    have names := firstData_announcedElements (constantMaps channel channel) found long
    rw [← flatMap_octets_injective same, found, announcedChannel_constantMaps] at names
    exact Option.some.inj names
  exact absurd ((unchanged 0).symm.trans (unchanged 1)) (by decide)

theorem wrapper_endsWithin_of_converted
    (found : firstData wlanEidExtChanswitchAnn elements = some ecsa) (long : 3 ≤ ecsa.val.length)
    (ends : EndsWithin ((elements.flatMap Element.octets).length % 256) elements
      wlanEidExtChanswitchAnn)
    (announced : announcedWide elements = some wide)
    (converted : ∀ maps, convertEcsaInfoTo5g maps (elements.flatMap Element.octets) =
      (announcedElements maps elements ecsa).flatMap Element.octets) :
    EndsWithin ((elements.flatMap Element.octets).length % 256) elements
      wlanEidChannelSwitchWrapper := by
  by_contra outside
  have same := converted (constantMaps 0 1)
  rw [convert_of_wideOffset_eq_none _ found long ends (wideOffset_of_not_endsWithin outside)]
    at same
  have names := firstData_announcedElements (constantMaps 0 1) found long
  rw [← flatMap_octets_injective same, firstData_modifyFirst_self, found, Option.map_some,
    Option.map_some, getD_setAll long, announcedChannel, announced] at names
  have zero : (0 : BitVec 8) = 1 := Option.some.inj names
  exact absurd zero (by decide)

theorem Convertible.convert (convertible : Convertible elements ecsa)
    (found : firstData wlanEidExtChanswitchAnn elements = some ecsa) (maps : FiveGhz) :
    convertEcsaInfoTo5g maps (elements.flatMap Element.octets) =
      (announcedElements maps elements ecsa).flatMap Element.octets := by
  cases announced : announcedWide elements with
  | none =>
    rw [convert_of_wideOffset_eq_none maps found convertible.long convertible.ends
      (wideOffset_of_announcedWide_eq_none _ announced), announcedElements, announced]
  | some wide =>
    obtain ⟨long, -, wrapped⟩ := convertible.wide wide announced
    exact convert_of_wide maps found convertible.long convertible.ends announced long wrapped

/-- Announcements are converted if and only if they and the wrappers of wide bandwidth
elements are long enough and end in as many octets of what is built as an octet can tell of
its length, and no width is 2 MHz. -/
theorem ecsaConverted_iff (conversions : Conversions) (stored : List (BitVec 8))
    (frame : BeaconFrame) :
    EcsaConverted conversions stored frame ↔
      ∀ sized ∈ sizedMask stored (Contents.empty.parse frame.ies),
        ∀ mask ∈ beaconMask stored frame, ∀ built ∈ builtMask stored frame mask,
          ∀ ecsa ∈ (built wlanEidExtChanswitchAnn).head,
            Convertible (builtElements conversions stored frame mask built) ecsa := by
  refine forall₂_congr fun sized counted => forall₂_congr fun mask given =>
    forall₂_congr fun built taken => forall₂_congr fun ecsa present => ?_
  have found : firstData wlanEidExtChanswitchAnn
      (builtElements conversions stored frame mask built) = some ecsa :=
    (firstData_builtElements (by decide) conversions stored frame mask built).trans present
  have passed := s1gToBeaconOctets_eq taken present conversions
  constructor
  · rintro ⟨⟨long, wideLong⟩, whatever⟩
    have converted : ∀ maps, convertEcsaInfoTo5g maps
        ((builtElements conversions stored frame mask built).flatMap Element.octets) =
          (announcedElements maps (builtElements conversions stored frame mask built)
            ecsa).flatMap Element.octets := by
      intro maps
      exact (whatever maps _ (passed maps)).1
    have ends := endsWithin_of_converted found long converted
    refine ⟨long, ends, ?_⟩
    intro wide announced
    refine ⟨wideLong wide announced, ?_,
      wrapper_endsWithin_of_converted found long ends announced converted⟩
    intro bandwidth
    obtain ⟨wrapper, element, inWrapper, place, first, data⟩ := announcedWide_eq_some announced
    rw [firstData_builtElements (by decide)] at inWrapper
    have none : secondaryShare true sized = 0 :=
      secondaryShare_eq_zero (head_of_builtMask (by decide) counted given taken inWrapper) first
        (by rw [data]; exact bandwidth)
    have counted := (whatever (constantMaps 0 0) _ (passed (constantMaps 0 0))).2
    rw [converted, length_announcedElements, if_pos ⟨wide, announced, bandwidth⟩] at counted
    omega
  · intro convertible
    refine ⟨⟨convertible.long, fun wide announced => (convertible.wide wide announced).1⟩, ?_⟩
    intro maps octets same
    rw [passed maps, Option.mem_some_iff] at same
    subst same
    rw [convertible.convert found maps]
    refine ⟨rfl, ?_⟩
    have other : ¬ ∃ wide ∈ announcedWide (builtElements conversions stored frame mask built),
        getOpChanBw (wide.2.val.getD 0 0) = 2 := by
      rintro ⟨wide, announced, bandwidth⟩
      exact (convertible.wide wide announced).2.1 bandwidth
    rw [length_announcedElements, if_neg other]
    omega

/-! ## A beacon with a long element -/

/-- An announcement of channel 38. -/
def ecsaElement : Element := ⟨wlanEidExtChanswitchAnn, ⟨[0, 69, 38, 5], by decide⟩⟩

/-- A beacon with the name of the network, the announcement and a long element. -/
def switchFrame : BeaconFrame :=
  ⟨ssidElement.octets ++ (ecsaElement.octets ++ vendorElement.octets), false, false, true, true⟩

/-- The table of the beacon. -/
def switchOwn : Contents :=
  ((Contents.empty.add ssidElement).add ecsaElement).add vendorElement

theorem parse_switchFrame :
    parse switchFrame.ies = ([ssidElement, ecsaElement, vendorElement], .done) := by
  have last := parse_octets vendorElement [] rfl
  rw [List.append_nil, parse] at last
  rw [switchFrame, parse_octets ssidElement _ rfl, parse_octets ecsaElement _ rfl, last]

theorem switchFrame_own : Contents.empty.parse switchFrame.ies = switchOwn := by
  rw [Contents.parse, parse_switchFrame]
  rfl

theorem sizedMask_switchFrame : sizedMask [] switchOwn = some switchOwn := rfl

theorem beaconMask_switchFrame :
    beaconMask [] switchFrame = some (switchOwn.setHead wlanEidSuppRates none) := by
  rw [beaconMask, switchFrame_own, parse_switchFrame]
  rfl

/-- The announcement ends behind the seven octets that are searched. -/
theorem not_ecsaConverted_switchFrame : ¬ EcsaConverted blank [] switchFrame := by
  intro converted
  have counted : sizedMask [] (Contents.empty.parse switchFrame.ies) = some switchOwn := by
    rw [switchFrame_own, sizedMask_switchFrame]
  have taken : builtMask [] switchFrame (switchOwn.setHead wlanEidSuppRates none) =
      some (switchOwn.setHead wlanEidSuppRates none) := rfl
  have present : ((switchOwn.setHead wlanEidSuppRates none) wlanEidExtChanswitchAnn).head =
      some ecsaElement.data := rfl
  obtain ⟨-, whatever⟩ := converted _ counted _ beaconMask_switchFrame _ taken _ present
  have ends := endsWithin_of_converted
    ((firstData_builtElements (by decide) blank [] switchFrame _ _).trans present) (by decide)
    fun maps => (whatever maps _ (s1gToBeaconOctets_eq taken present blank maps)).1
  obtain ⟨data, found, within⟩ := ends
  cases found
  exact absurd within (by decide +kernel)

end Passed

end S1g
end Morse
