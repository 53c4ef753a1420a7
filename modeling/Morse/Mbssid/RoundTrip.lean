import Morse.Mbssid.Defs
import Morse.Ies.Survival
import Mathlib.Data.List.Perm.Basic

/-!
# What a receiver makes of several networks in one beacon

Profiles lie behind each other, and a receiver goes through them without looking at where
one ends.  It comes to what is in the first profile, takes the others for names, and leaves
the name of what it came to last in the element table of the beacon.
-/

namespace Morse
namespace Mbssid

open Ies

/-! ## Profiles in an element -/

/-- A profile as it is written: a name and an index, which fit in an element. -/
structure Profile where
  ssid : Element
  index : Element
  named : ssid.eid = wlanEidSsid
  indexed : index.eid = wlanEidMultiBssidIdx
  fits : (ssid.octets ++ index.octets).length < 256

/-- A profile is itself laid out like an element, whose identifier is that of an SSID. -/
def Profile.element (profile : Profile) : Element :=
  ⟨wlanEidSsid, profile.ssid.octets ++ profile.index.octets, profile.fits⟩

theorem Profile.octets_element (profile : Profile) :
    profile.element.octets =
      [mbssidSubelementNontxBssidProfile,
        BitVec.ofNat 8 (profile.ssid.octets ++ profile.index.octets).length] ++
      (profile.ssid.octets ++ profile.index.octets) := rfl

/-- The name in the beacon of an interface. -/
def Vif.ssid (vif : Vif) : Data := vif.ssidIe.elim noData Element.data

/-- A profile is of an interface. -/
structure Profile.Of (profile : Profile) (vif : Vif) : Prop where
  ssid : profile.ssid.data = vif.ssid
  index : profile.index = indexIe vif

theorem Vif.eid_of_ssidIe {vif : Vif} {ssid : Element} (found : vif.ssidIe = some ssid) :
    ssid.eid = wlanEidSsid := by
  obtain ⟨octets, -, search⟩ := Option.bind_eq_some_iff.mp found
  have same := List.find?_some search
  rw [decide_eq_true_eq] at same
  exact same

theorem length_octets (element : Element) :
    element.octets.length = element.data.val.length + 2 := rfl

theorem length_indexIe (vif : Vif) : (indexIe vif).octets.length = sizeofIdxIe := rfl

theorem insertSubelem_cases (vif : Vif) (buf : List (BitVec 8)) :
    (insertSubelem vif buf = buf ∧
      (vif.ssidIe = none ∨
        mbssidIeSizeMax < buf.length + vif.ssid.val.length + sizeofMbssidIe)) ∨
    (∃ profile : Profile, profile.Of vif ∧
      buf.length + vif.ssid.val.length + sizeofMbssidIe ≤ mbssidIeSizeMax ∧
      insertSubelem vif buf = buf ++ profile.element.octets) := by
  rw [insertSubelem]
  cases found : vif.ssidIe with
  | none => exact .inl ⟨rfl, .inl rfl⟩
  | some ssid =>
    have name : vif.ssid = ssid.data := by rw [Vif.ssid, found, Option.elim_some]
    rw [name]
    dsimp only
    split
    · next long => exact .inl ⟨rfl, .inr long⟩
    · next short =>
        have room : buf.length + ssid.data.val.length + sizeofMbssidIe ≤ mbssidIeSizeMax :=
          Nat.not_lt.mp short
        have length : (ssid.octets ++ (indexIe vif).octets).length =
            ssid.data.val.length + sizeofSsidIe + sizeofIdxIe := by
          rw [List.length_append, length_octets, length_indexIe, sizeofSsidIe]
        have fits : (ssid.octets ++ (indexIe vif).octets).length < 256 := by
          simp only [sizeofMbssidIe, sizeofSsidIe, sizeofIdxIe, mbssidIeSizeMax] at *
          omega
        refine .inr ⟨⟨ssid, indexIe vif, vif.eid_of_ssidIe found, rfl, fits⟩, ⟨?_, rfl⟩, room, ?_⟩
        · exact name.symm
        · rw [Profile.octets_element, length]
          rfl

theorem exists_profiles (vifs : List Vif) (buf : List (BitVec 8)) :
    ∃ profiles : List Profile,
      vifs.foldl (fun buf vif => insertSubelem vif buf) buf =
        buf ++ profiles.flatMap fun profile => profile.element.octets := by
  induction vifs generalizing buf with
  | nil => exact ⟨[], (List.append_nil _).symm⟩
  | cons vif rest ih =>
    obtain ⟨profiles, written⟩ := ih (insertSubelem vif buf)
    rw [List.foldl_cons, written]
    rcases insertSubelem_cases vif buf with ⟨same, -⟩ | ⟨profile, -, -, longer⟩
    · exact ⟨profiles, by rw [same]⟩
    · refine ⟨profile :: profiles, ?_⟩
      rw [longer, List.flatMap_cons, List.append_assoc]

/-! ## Access points -/

/-- The interfaces of an access point that do not send beacons. -/
def nonTransmitting (transmitter : Vif) (vifs : List Vif) : List Vif :=
  vifs.filter fun vif => vif.isAp && decide (vif.id ≠ transmitter.id)

/-- The interfaces of an access point, one of which sends beacons.  The profiles of the
others fit in an element. -/
structure AccessPoint where
  maxBssidIndicator : BitVec 8
  transmitter : Vif
  vifs : List Vif
  several : 1 < maxBssidIndicator.toNat
  transmitterVifId : transmitter.id.toNat < 256
  fits : 1 + ((nonTransmitting transmitter vifs).map fun vif =>
    2 + sizeofSsidIe + vif.ssid.val.length + sizeofIdxIe).sum ≤ mbssidIeSizeMax

/-- The networks that the element is about. -/
def AccessPoint.nonTransmitting (ap : AccessPoint) : List Vif :=
  Mbssid.nonTransmitting ap.transmitter ap.vifs

/-- The element that is put into the beacon. -/
def AccessPoint.ie (ap : AccessPoint) : Option Data :=
  insertIe true ap.maxBssidIndicator (ap.transmitter.id.setWidth 8) ap.vifs

theorem AccessPoint.buf_eq (ap : AccessPoint) :
    mbssidIeBuf ap.maxBssidIndicator (ap.transmitter.id.setWidth 8) ap.vifs =
      ap.nonTransmitting.foldl (fun buf vif => insertSubelem vif buf)
        [ap.maxBssidIndicator - 1] := by
  have same : (ap.transmitter.id.setWidth 8).setWidth 16 = ap.transmitter.id := by
    have octet := ap.transmitterVifId
    apply BitVec.eq_of_toNat_eq
    simp only [BitVec.toNat_setWidth]
    omega
  rw [mbssidIeBuf, AccessPoint.nonTransmitting, Mbssid.nonTransmitting, List.foldl_filter]
  congr 1
  funext buf vif
  rw [insertVif, same]

theorem not_long (octet : BitVec 8) : ¬ sizeofMbssidIe < [octet].length := by
  rw [List.length_singleton]
  decide

theorem AccessPoint.ie_eq_some_iff (ap : AccessPoint) :
    ap.ie = some data ↔
      sizeofMbssidIe < data.val.length ∧
        data.val = ap.nonTransmitting.foldl (fun buf vif => insertSubelem vif buf)
          [ap.maxBssidIndicator - 1] := by
  rw [AccessPoint.ie, insertIe, Bool.true_and, decide_eq_true ap.several, if_pos rfl, ← ap.buf_eq]
  split
  · next long =>
      constructor
      · intro same
        cases same
        exact ⟨long, rfl⟩
      · intro ⟨_, same⟩
        rw [Option.some.injEq]
        exact Subtype.ext same.symm
  · next short =>
      constructor
      · intro same
        cases same
      · intro ⟨long, same⟩
        rw [same] at long
        exact absurd long short

theorem AccessPoint.exists_profile (ap : AccessPoint) (built : ap.ie = some data) :
    ∃ (profile : Profile) (rest : List Profile),
      data.val = (ap.maxBssidIndicator - 1) ::
        (profile :: rest).flatMap fun profile => profile.element.octets := by
  obtain ⟨long, same⟩ := ap.ie_eq_some_iff.mp built
  obtain ⟨profiles, written⟩ := exists_profiles ap.nonTransmitting [ap.maxBssidIndicator - 1]
  rw [same, written] at long ⊢
  cases profiles with
  | nil => exact absurd long (not_long _)
  | cons profile rest => exact ⟨profile, rest, rfl⟩

theorem AccessPoint.ie_eq_none (ap : AccessPoint) (alone : ap.nonTransmitting = []) :
    ap.ie = none := by
  refine Option.eq_none_iff_forall_ne_some.mpr fun data built => ?_
  obtain ⟨long, same⟩ := ap.ie_eq_some_iff.mp built
  rw [alone] at same
  rw [same] at long
  exact absurd long (not_long _)

theorem AccessPoint.ie_of_single (ap : AccessPoint) (single : ap.nonTransmitting = [vif]) :
    ((0 < vif.ssid.val.length ∧ vif.ssid.val.length < 245) ∧
      ∃ (data : Data) (profile : Profile), ap.ie = some data ∧ profile.Of vif ∧
        data.val = (ap.maxBssidIndicator - 1) :: profile.element.octets) ∨
    (¬ (0 < vif.ssid.val.length ∧ vif.ssid.val.length < 245) ∧ ap.ie = none) := by
  rcases insertSubelem_cases vif [ap.maxBssidIndicator - 1] with ⟨same, why⟩ |
    ⟨profile, own, room, longer⟩
  · refine .inr ⟨?_, Option.eq_none_iff_forall_ne_some.mpr fun data built => ?_⟩
    · rcases why with none | long
      · rw [Vif.ssid, none]
        exact fun named => absurd named.1 (by decide)
      · simp only [List.length_singleton, sizeofMbssidIe, sizeofSsidIe, sizeofIdxIe,
          mbssidIeSizeMax] at long
        omega
    · obtain ⟨long, buf⟩ := ap.ie_eq_some_iff.mp built
      rw [single, List.foldl_cons, same] at buf
      rw [buf] at long
      exact absurd long (not_long _)
  · have length : ([ap.maxBssidIndicator - 1] ++ profile.element.octets).length =
        sizeofMbssidIe + vif.ssid.val.length := by
      rw [List.length_append, length_octets, Profile.element, List.length_append, own.index,
        length_octets, own.ssid, length_indexIe, List.length_singleton]
      simp only [sizeofMbssidIe, sizeofSsidIe, sizeofIdxIe]
      omega
    have short : ([ap.maxBssidIndicator - 1] ++ profile.element.octets).length < 256 := by
      simp only [List.length_singleton, mbssidIeSizeMax] at room
      omega
    have buf : ap.nonTransmitting.foldl (fun buf vif => insertSubelem vif buf)
        [ap.maxBssidIndicator - 1] = [ap.maxBssidIndicator - 1] ++ profile.element.octets := by
      rw [single, List.foldl_cons, List.foldl_nil, longer]
    by_cases named : 0 < vif.ssid.val.length
    · refine .inl ⟨⟨named, ?_⟩, ⟨_, short⟩, profile,
        ap.ie_eq_some_iff.mpr ⟨?_, buf.symm⟩, own, rfl⟩
      · simp only [List.length_singleton, sizeofMbssidIe, sizeofSsidIe, sizeofIdxIe,
          mbssidIeSizeMax] at room
        omega
      · rw [length]
        omega
    · refine .inr ⟨fun both => named both.1, Option.eq_none_iff_forall_ne_some.mpr
        fun data built => ?_⟩
      obtain ⟨long, same⟩ := ap.ie_eq_some_iff.mp built
      rw [same, buf] at long
      omega

/-! ## Going through the profiles -/

theorem walk_elements (profiles : List Profile) :
    walk (profiles.flatMap fun profile => profile.element.octets) =
      profiles.map Profile.element := by
  induction profiles with
  | nil =>
    rw [List.flatMap_nil, walk]
    rfl
  | cons profile rest ih =>
    rw [List.flatMap_cons, walk_octets, ih, List.map_cons]

theorem walk_profiles (octet : BitVec 8) (profile : Profile) (rest : List Profile) :
    walk ((octet :: (profile :: rest).flatMap fun profile => profile.element.octets).drop 3) =
      profile.ssid :: profile.index :: rest.map Profile.element := by
  have inner : (octet :: (profile :: rest).flatMap fun profile => profile.element.octets).drop 3 =
      profile.ssid.octets ++ (profile.index.octets ++
        rest.flatMap fun profile => profile.element.octets) := by
    rw [List.flatMap_cons, Profile.octets_element, List.append_assoc, List.append_assoc]
    rfl
  rw [inner, walk_octets, walk_octets, walk_elements]

section Receiving

variable (conversions : Conversions) (genNewBssid : Bssid → BitVec 8 → BitVec 8 → Bssid)
  (bssid : Bssid) (frame : BeaconFrame) (maxBssidIndicator : BitVec 8)

theorem scanElement_ssid (scan : Scan) (name : sub.eid = wlanEidSsid) :
    scanElement conversions genNewBssid bssid frame maxBssidIndicator scan sub =
      { scan with mask := scan.mask.setSsid sub.data } := by
  have other : sub.eid ≠ wlanEidMultiBssidIdx := by
    rw [name]
    decide
  rw [scanElement, if_pos name, if_pos (.inl other)]

theorem passed_foldl_elements (profiles : List Profile) (scan : Scan) :
    ((profiles.map Profile.element).foldl
      (scanElement conversions genNewBssid bssid frame maxBssidIndicator) scan).passed =
        scan.passed := by
  induction profiles generalizing scan with
  | nil => rfl
  | cons profile rest ih =>
    rw [List.map_cons, List.foldl_cons, ih, scanElement_ssid _ _ _ _ _ _ rfl]

theorem length_passed_scanIndex (scan : Scan) (index : BitVec 8) :
    (scanIndex conversions genNewBssid bssid frame maxBssidIndicator scan index).passed.length ≤
      scan.passed.length + 1 := by
  rw [scanIndex]
  split
  · exact Nat.le_succ _
  · rw [List.length_append]
    refine Nat.add_le_add_left ?_ _
    cases (toBeacon conversions scan.list _ frame scan.mask).beacon with
    | none => exact Nat.zero_le 1
    | some elements => exact Nat.le_refl 1

theorem length_passed_scanElement (scan : Scan) (sub : Element) :
    (scanElement conversions genNewBssid bssid frame maxBssidIndicator scan sub).passed.length ≤
      scan.passed.length + 1 := by
  have named : (if sub.eid = wlanEidSsid then { scan with mask := scan.mask.setSsid sub.data }
      else scan).passed = scan.passed := by
    split
    · rfl
    · rfl
  rw [scanElement]
  split
  · rw [named]
    exact Nat.le_succ _
  · split
    · rw [named]
      exact Nat.le_succ _
    · refine (length_passed_scanIndex _ _ _ _ _ _ _).trans ?_
      rw [named]

theorem length_passed_processBeacon {ap : AccessPoint} (list : CssidList) {mask : RxMask}
    (carried : (mask.contents wlanEidMultipleBssid).head = ap.ie) :
    (processBeaconFromMbssidIe conversions genNewBssid list bssid frame mask).passed.length ≤
      1 := by
  rw [processBeaconFromMbssidIe, carried]
  split
  · exact Nat.zero_le 1
  · next data built =>
      obtain ⟨profile, rest, same⟩ := ap.exists_profile built
      split
      · exact Nat.zero_le 1
      · next sized _ =>
          rw [same, walk_profiles, List.foldl_cons, List.foldl_cons, passed_foldl_elements,
            scanElement_ssid _ _ _ _ _ _ profile.named]
          exact length_passed_scanElement _ _ _ _ _ _ _

/-! ## A beacon that is made -/

theorem head_setHead (mask : Contents) (eid : Eid) (head : Option Data) :
    (mask.setHead eid head eid).head = head := by
  rw [Contents.setHead, Function.update_self]

theorem dataOf_buildBeacon (vals : UpdateRxBeaconVals) (name : mask wlanEidSsid = ⟨some ssid, []⟩) :
    dataOf wlanEidSsid (buildBeacon conversions vals mask) = [ssid] := by
  have others : ∀ elements : List Element, (∀ element ∈ elements, element.eid ≠ wlanEidSsid) →
      dataOf wlanEidSsid elements = [] := fun elements differ => dataOf_eq_nil differ
  have own : insertSsidIe conversions mask = [⟨wlanEidSsid, ssid⟩] := by
    rw [insertSsidIe, name]
    rfl
  have security : ∀ element ∈ insertRsnAndRsnxIe vals (mask.setHead wlanEidSsid none),
      element.eid ≠ wlanEidSsid := fun element member =>
    (security_of_mem_insertRsnAndRsnxIe member).ne (by decide)
  have htAndVht : ∀ element ∈ insertHtAndVhtIe conversions (mask.setHead wlanEidSsid none),
      element.eid ≠ wlanEidSsid := by
    have one : ∀ (present : Bool) (eid : Eid) (data : Data), eid ≠ wlanEidSsid →
        ∀ element ∈ if present then [Element.mk eid data] else [], element.eid ≠ wlanEidSsid := by
      intro present eid data differs element member
      split at member
      · rw [List.mem_singleton.mp member]
        exact differs
      · cases member
    intro element member
    rw [insertHtAndVhtIe, List.mem_append, List.mem_append, List.mem_append] at member
    rcases member with ((member | member) | member) | member
    · exact one _ _ _ (by decide) element member
    · exact one _ _ _ (by decide) element member
    · exact one _ _ _ (by decide) element member
    · exact one _ _ _ (by decide) element member
  have required : ∀ element ∈ insertRequiredRxIe conversions (mask.setHead wlanEidSsid none),
      element.eid ≠ wlanEidSsid := by
    intro element member same
    obtain ⟨eid, -, found⟩ := List.mem_flatMap.mp member
    have named := eid_of_mem_requiredRxIe conversions _ eid element found
    rw [same] at named
    subst named
    cases found
  rw [buildBeacon, dataOf, List.filter_append, List.filter_append, List.filter_append,
    List.map_append, List.map_append, List.map_append]
  rw [← dataOf, ← dataOf, ← dataOf, ← dataOf, own, others _ security, others _ htAndVht,
    others _ required]
  rfl

/-- A beacon that names its network is passed up, and leaves a table without the name. -/
structure Translated.Named (translated : Translated) (list : CssidList) (mask : RxMask) :
    Prop where
  beacon : ∃ vals, translated.beacon = some (buildBeacon conversions vals mask.contents)
  nameless : (translated.mask.contents wlanEidSsid).head = none
  meshId : (translated.mask.contents wlanEidMeshId).head = (mask.contents wlanEidMeshId).head
  ssidLen : translated.mask.ssidLen = mask.ssidLen
  others : ∀ other, other ≠ bssid → translated.list other = list other

theorem RxMask.built_nameless (mask : RxMask) :
    ((mask.built conversions).contents wlanEidSsid).head = none := by
  rw [RxMask.built]
  dsimp only
  rw [setHead_of_ne _ _ (by decide)]
  exact head_setHead _ _ _

theorem RxMask.built_meshId (mask : RxMask) :
    ((mask.built conversions).contents wlanEidMeshId).head =
      (mask.contents wlanEidMeshId).head := by
  rw [RxMask.built]
  dsimp only
  rw [setHead_of_ne _ _ (by decide), setHead_of_ne _ _ (by decide)]

theorem toBeacon_named (list : CssidList)
    (named : (mask.contents (networkIdEid mask.contents)).head.isSome = true)
    (granted : frame.beaconGranted = true) :
    (toBeacon conversions list bssid frame mask).Named conversions bssid list mask := by
  cases stored : list bssid with
  | none =>
    simp only [toBeacon, stored, granted, if_true]
    refine ⟨⟨_, rfl⟩, mask.built_nameless conversions, mask.built_meshId conversions, rfl, ?_⟩
    intro other differs
    split
    · exact Function.update_of_ne differs _ _
    · rfl
  | some octets =>
    simp only [toBeacon, stored, s1gToBeacon, granted, if_true, named, Option.isSome_some]
    refine ⟨⟨_, rfl⟩, RxMask.built_nameless conversions _, ?_, rfl, ?_⟩
    · rw [RxMask.built_meshId, RxMask.restoreTim]
      dsimp only
      rw [setHead_of_ne _ _ (by decide)]
    · intro other differs
      exact Function.update_of_ne differs _ _

theorem toBeacon_nameless (noMesh : (mask.contents wlanEidMeshId).head = none)
    (nameless : (mask.contents wlanEidSsid).head = none) (stored : list bssid = some []) :
    (toBeacon conversions list bssid frame mask).beacon = none := by
  have nothing : mask.contents.parse [] = mask.contents := by
    rw [Contents.parse, Ies.parse]
    rfl
  have networkId : networkIdEid mask.contents = wlanEidSsid := by
    rw [networkIdEid, noMesh]
    rfl
  rw [toBeacon, stored]
  simp only [s1gToBeacon, networkId, nameless, nothing, Option.isSome_none, Bool.false_eq_true,
    if_false, ite_self]

theorem rxPacketSize_of_ne_zero (list : CssidList) {mask : RxMask}
    (noMesh : (mask.contents wlanEidMeshId).head = none) (length : mask.ssidLen ≠ 0) :
    rxPacketSize list bssid mask = (mask.take wlanEidSuppRates, true) := by
  have networkIdLen : mask.networkIdLen = mask.ssidLen := by
    rw [RxMask.networkIdLen, noMesh]
    rfl
  rw [rxPacketSize, networkIdLen, if_neg length]

/-! ## The beacon of an access point -/

/-- A beacon of the interface that sends: it has the name of its network and the element
about the others, it is of no mesh, and there is memory for what is made of it. -/
structure Reception (ap : AccessPoint) (frame : BeaconFrame) : Prop where
  valid : (Ies.parse frame.ies).2 ≠ .invalid
  ssid : Contents.empty.parse frame.ies wlanEidSsid = ⟨some ap.transmitter.ssid, []⟩
  noMesh : (Contents.empty.parse frame.ies wlanEidMeshId).head = none
  ie : Contents.empty.parse frame.ies wlanEidMultipleBssid = ⟨ap.ie, []⟩
  granted : frame.beaconGranted = true

variable {ap : AccessPoint} {frame}

theorem Reception.ssidLen (reception : Reception ap frame) :
    (RxMask.ofFrame frame.ies).ssidLen = ap.transmitter.ssid.val.length := by
  rw [RxMask.ofFrame, RxMask.parse]
  rw [reception.ssid]
  rfl

theorem Reception.take_setSsid (reception : Reception ap frame) (data : Data) :
    ((((RxMask.ofFrame frame.ies).take wlanEidSuppRates).setSsid data).contents wlanEidSsid =
        ⟨some data, []⟩) ∧
      ((((RxMask.ofFrame frame.ies).take wlanEidSuppRates).setSsid data).contents
        wlanEidMeshId).head = none := by
  have own : (RxMask.ofFrame frame.ies).contents = Contents.empty.parse frame.ies := rfl
  refine ⟨?_, ?_⟩
  · rw [RxMask.setSsid, RxMask.take]
    dsimp only
    rw [own, Contents.setHead, Function.update_self, setHead_of_ne _ _ (by decide), reception.ssid]
  · rw [RxMask.setSsid, RxMask.take]
    dsimp only
    rw [own, setHead_of_ne _ _ (by decide), setHead_of_ne _ _ (by decide), reception.noMesh]

theorem networkIdEid_of_none (noMesh : (mask wlanEidMeshId).head = none) :
    networkIdEid mask = wlanEidSsid := by
  rw [networkIdEid, noMesh]
  rfl

theorem Reception.present_take (reception : Reception ap frame) :
    (((RxMask.ofFrame frame.ies).take wlanEidSuppRates).contents
      (networkIdEid ((RxMask.ofFrame frame.ies).take wlanEidSuppRates).contents)).head.isSome =
        true := by
  have own : (RxMask.ofFrame frame.ies).contents = Contents.empty.parse frame.ies := rfl
  have noMesh : (((RxMask.ofFrame frame.ies).take wlanEidSuppRates).contents wlanEidMeshId).head =
      none := by
    rw [RxMask.take]
    dsimp only
    rw [own, setHead_of_ne _ _ (by decide), reception.noMesh]
  rw [networkIdEid_of_none noMesh, RxMask.take]
  dsimp only
  rw [own, setHead_of_ne _ _ (by decide), reception.ssid]
  rfl

theorem Reception.process_single (reception : Reception ap frame) (list : CssidList)
    {profile : Profile} (built : ap.ie = some data) (own : profile.Of vif)
    (written : data.val = (ap.maxBssidIndicator - 1) :: profile.element.octets)
    (named : ap.transmitter.ssid.val.length ≠ 0) :
    processBeaconFromMbssidIe conversions genNewBssid list bssid frame
        (RxMask.ofFrame frame.ies) =
      scanIndex conversions genNewBssid bssid frame (ap.maxBssidIndicator - 1)
        ⟨((RxMask.ofFrame frame.ies).take wlanEidSuppRates).setSsid vif.ssid, list, []⟩
        (vif.id.setWidth 8) := by
  have carried : ((RxMask.ofFrame frame.ies).contents wlanEidMultipleBssid).head = some data :=
    (congrArg Cell.head reception.ie).trans built
  have size := @rxPacketSize_of_ne_zero bssid list (RxMask.ofFrame frame.ies) reception.noMesh (by
    rw [reception.ssidLen]
    exact named)
  have flat := walk_profiles (ap.maxBssidIndicator - 1) profile []
  rw [List.flatMap_cons, List.flatMap_nil, List.append_nil] at flat
  rw [processBeaconFromMbssidIe, carried]
  rw [size]
  dsimp only
  rw [written, flat, List.foldl_cons, scanElement_ssid _ _ _ _ _ _ profile.named,
    own.index, own.ssid]
  rfl

/-- What was passed up is one beacon for each network that the element is about, with the
index and the name of the network, and none of it is of the network that sends. -/
def Delivers (ap : AccessPoint) (bssid : Bssid) (passed : List Passed) : Prop :=
  (passed.map fun beacon => (beacon.index.setWidth 16, dataOf wlanEidSsid beacon.elements)).Perm
      (ap.nonTransmitting.map fun vif => (vif.id, [vif.ssid])) ∧
    ∀ beacon ∈ passed, beacon.bssid ≠ bssid

/-- A receiver passes up what the element is about, and then the beacon itself as it would
without the element. -/
def RoundTrip (ap : AccessPoint) (expanded : Bool) : Prop :=
  ∀ (conversions : Conversions) (list : CssidList) (frame : BeaconFrame),
    Reception ap frame → frame.expanded = expanded →
      Delivers ap bssid (processBeaconFromMbssidIe conversions genNewBssid list bssid frame
        (RxMask.ofFrame frame.ies)).passed ∧
      receiveOwn conversions
          (processBeaconFromMbssidIe conversions genNewBssid list bssid frame
            (RxMask.ofFrame frame.ies)).list bssid frame
          (processBeaconFromMbssidIe conversions genNewBssid list bssid frame
            (RxMask.ofFrame frame.ies)).mask =
        receiveOwn conversions list bssid frame (RxMask.ofFrame frame.ies)

/-- A network comes through if its index is one, its name and that of the network that
sends are not empty, its name is not the longest, and its address is its own. -/
structure ComesThrough (ap : AccessPoint) (vif : Vif) : Prop where
  index : 0 < vif.id.toNat ∧ vif.id.toNat ≤ 46
  named : 0 < vif.ssid.val.length
  fits : vif.ssid.val.length < 245
  transmitter : 0 < ap.transmitter.ssid.val.length
  address : genNewBssid bssid (ap.maxBssidIndicator - 1) (vif.id.setWidth 8) ≠ bssid

theorem index_iff (id : BitVec 16) :
    (¬ (id.setWidth 8 = 0 ∨ 46 < (id.setWidth 8).toNat) ∧ (id.setWidth 8).setWidth 16 = id) ↔
      0 < id.toNat ∧ id.toNat ≤ 46 := by
  constructor
  · rintro ⟨index, same⟩
    have value := congrArg BitVec.toNat same
    rw [not_or] at index
    obtain ⟨notZero, bounded⟩ := index
    have positive : (id.setWidth 8).toNat ≠ 0 := fun zero => notZero (BitVec.eq_of_toNat_eq zero)
    simp only [BitVec.toNat_setWidth] at value bounded positive
    omega
  · rintro ⟨positive, bounded⟩
    have octet : (id.setWidth 8).toNat = id.toNat := by
      rw [BitVec.toNat_setWidth]
      omega
    refine ⟨not_or.mpr ⟨fun zero => ?_, ?_⟩, BitVec.eq_of_toNat_eq ?_⟩
    · rw [zero] at octet
      simp only [BitVec.ofNat_eq_ofNat, BitVec.toNat_ofNat, Nat.zero_mod] at octet
      omega
    · omega
    · rw [BitVec.toNat_setWidth]
      omega

theorem Reception.scan_single (reception : Reception ap frame) (list : CssidList)
    {profile : Profile} (built : ap.ie = some data) (own : profile.Of vif)
    (written : data.val = (ap.maxBssidIndicator - 1) :: profile.element.octets)
    (named : ap.transmitter.ssid.val.length ≠ 0)
    (index : ¬ (vif.id.setWidth 8 = 0 ∨ 46 < (vif.id.setWidth 8).toNat)) :
    ∃ (translated : Translated) (vals : UpdateRxBeaconVals) (mask : RxMask),
      mask.ssidLen = vif.ssid.val.length ∧
      mask.contents wlanEidSsid = ⟨some vif.ssid, []⟩ ∧
      (mask.contents wlanEidMeshId).head = none ∧
      translated.Named conversions
        (genNewBssid bssid (ap.maxBssidIndicator - 1) (vif.id.setWidth 8)) list mask ∧
      processBeaconFromMbssidIe conversions genNewBssid list bssid frame
          (RxMask.ofFrame frame.ies) =
        ⟨translated.mask, translated.list, [⟨vif.id.setWidth 8,
          genNewBssid bssid (ap.maxBssidIndicator - 1) (vif.id.setWidth 8),
          buildBeacon conversions vals mask.contents⟩]⟩ := by
  obtain ⟨name, noMesh⟩ := reception.take_setSsid vif.ssid
  have present : ((((RxMask.ofFrame frame.ies).take wlanEidSuppRates).setSsid vif.ssid).contents
      (networkIdEid (((RxMask.ofFrame frame.ies).take wlanEidSuppRates).setSsid
        vif.ssid).contents)).head.isSome = true := by
    rw [networkIdEid_of_none noMesh]
    rfl
  have translated := toBeacon_named conversions
    (genNewBssid bssid (ap.maxBssidIndicator - 1) (vif.id.setWidth 8)) frame list present
    reception.granted
  obtain ⟨vals, beacon⟩ := translated.beacon
  refine ⟨_, vals, _, rfl, name, noMesh, translated, ?_⟩
  rw [reception.process_single conversions genNewBssid bssid list built own written named,
    scanIndex, if_neg index]
  dsimp only
  rw [beacon]
  rfl

theorem not_delivers_nil (several : ap.nonTransmitting = vif :: rest) :
    ¬ Delivers ap bssid [] := by
  intro delivers
  have length := delivers.1.length_eq
  rw [several] at length
  cases length

theorem ComesThrough.roundTrip (single : ap.nonTransmitting = [vif])
    (comes : ComesThrough genNewBssid bssid ap vif) :
    RoundTrip genNewBssid bssid ap true := by
  intro conversions list frame reception expanded
  rcases ap.ie_of_single single with ⟨-, data, profile, built, own, written⟩ | ⟨lost, -⟩
  · obtain ⟨index, same⟩ := (index_iff vif.id).mpr comes.index
    have named := Nat.ne_of_gt comes.transmitter
    obtain ⟨translated, vals, mask, ssidLen, name, noMesh, made, scan⟩ := reception.scan_single
      conversions genNewBssid bssid list built own written named index
    rw [scan]
    refine ⟨⟨?_, ?_⟩, ?_⟩
    · rw [single, List.map_singleton, List.map_singleton, same,
        dataOf_buildBeacon conversions vals name]
    · intro beacon member
      rw [List.mem_singleton.mp member]
      exact comes.address
    · have length : translated.mask.ssidLen ≠ 0 := by
        rw [made.ssidLen, ssidLen]
        exact Nat.ne_of_gt comes.named
      have own : (RxMask.ofFrame frame.ies).ssidLen ≠ 0 := by
        rw [reception.ssidLen]
        exact named
      have kept : ∀ mask, (toBeacon conversions translated.list bssid frame mask).beacon =
          (toBeacon conversions list bssid frame mask).beacon := by
        intro mask
        rw [toBeacon, toBeacon, made.others bssid comes.address.symm]
        split
        · rfl
        · split
          · rfl
          · rfl
      rw [receiveOwn, receiveOwn,
        rxPacketSize_of_ne_zero bssid _ (made.meshId.trans noMesh) length,
        rxPacketSize_of_ne_zero bssid _ reception.noMesh own, expanded]
      exact kept _
  · exact absurd ⟨comes.named, comes.fits⟩ lost

theorem roundTrip_of_alone (alone : ap.nonTransmitting = []) (expanded : Bool) :
    RoundTrip genNewBssid bssid ap expanded := by
  intro conversions list frame reception _
  have missing : ((RxMask.ofFrame frame.ies).contents wlanEidMultipleBssid).head = none :=
    (congrArg Cell.head reception.ie).trans (ap.ie_eq_none alone)
  rw [processBeaconFromMbssidIe, missing]
  refine ⟨⟨?_, fun _ member => by cases member⟩, rfl⟩
  rw [alone]
  exact List.Perm.refl _

end Receiving

/-! ## A beacon with a name only -/

/-- The elements of a beacon with the name of the network and the element about the
others. -/
def AccessPoint.elements (ap : AccessPoint) : List Element :=
  ⟨wlanEidSsid, ap.transmitter.ssid⟩ :: (ap.ie.map (Element.mk wlanEidMultipleBssid)).toList

/-- A beacon with the name of the network and the element about the others. -/
def AccessPoint.frame (ap : AccessPoint) (expanded : Bool) : BeaconFrame :=
  ⟨ap.elements.flatMap Element.octets, expanded, true, true, true⟩

theorem AccessPoint.parse_frame (ap : AccessPoint) (expanded : Bool) :
    Ies.parse (ap.frame expanded).ies = (ap.elements, .done) := by
  have alone : Ies.parse ((ap.ie.map (Element.mk wlanEidMultipleBssid)).toList.flatMap
      Element.octets) = ((ap.ie.map (Element.mk wlanEidMultipleBssid)).toList, .done) := by
    cases ap.ie with
    | none =>
      rw [Option.map_none, Option.toList_none, List.flatMap_nil, Ies.parse]
    | some data =>
      have whole := parse_octets ⟨wlanEidMultipleBssid, data⟩ [] rfl
      rw [Ies.parse] at whole
      rw [Option.map_some, Option.toList_some, List.flatMap_singleton, ← whole,
        List.append_nil]
  have whole := parse_octets ⟨wlanEidSsid, ap.transmitter.ssid⟩
    ((ap.ie.map (Element.mk wlanEidMultipleBssid)).toList.flatMap Element.octets) rfl
  rw [alone] at whole
  exact whole

theorem AccessPoint.reception (ap : AccessPoint) (expanded : Bool) :
    Reception ap (ap.frame expanded) := by
  have parsed := ap.parse_frame expanded
  refine ⟨?_, ?_, ?_, ?_, rfl⟩
  · rw [parsed]
    exact Tail.noConfusion
  · rw [Contents.parse, parsed, AccessPoint.elements]
    cases ap.ie with
    | none => rfl
    | some data => rfl
  · rw [Contents.parse, parsed, AccessPoint.elements]
    cases ap.ie with
    | none => rfl
    | some data => rfl
  · rw [Contents.parse, parsed, AccessPoint.elements]
    cases ap.ie with
    | none => rfl
    | some data => rfl

variable {genNewBssid : Bssid → BitVec 8 → BitVec 8 → Bssid} {bssid : Bssid} {ap : AccessPoint}
  {expanded : Bool}

theorem RoundTrip.transmitter (roundTrip : RoundTrip genNewBssid bssid ap expanded)
    (several : ap.nonTransmitting ≠ []) :
    ∃ data, ap.ie = some data ∧ 0 < ap.transmitter.ssid.val.length := by
  obtain ⟨vif, rest, others⟩ := List.exists_cons_of_ne_nil several
  have reception := ap.reception expanded
  have delivers := (roundTrip blank (fun _ => none) (ap.frame expanded) reception rfl).1
  have carried := congrArg Cell.head reception.ie
  cases built : ap.ie with
  | none =>
    have missing : ((RxMask.ofFrame (ap.frame expanded).ies).contents
        wlanEidMultipleBssid).head = none := carried.trans built
    rw [processBeaconFromMbssidIe, missing] at delivers
    exact absurd delivers (not_delivers_nil bssid others)
  | some data =>
    refine ⟨data, rfl, Nat.pos_of_ne_zero fun empty => ?_⟩
    have present : ((RxMask.ofFrame (ap.frame expanded).ies).contents
        wlanEidMultipleBssid).head = some data := carried.trans built
    have noMesh : ((RxMask.ofFrame (ap.frame expanded).ies).contents wlanEidMeshId).head =
        none := reception.noMesh
    have length : (RxMask.ofFrame (ap.frame expanded).ies).networkIdLen = 0 := by
      rw [RxMask.networkIdLen, noMesh, Option.isSome_none, if_neg Bool.false_ne_true,
        reception.ssidLen, empty]
    rw [processBeaconFromMbssidIe, present] at delivers
    rw [rxPacketSize, if_pos length] at delivers
    exact not_delivers_nil bssid others delivers

theorem RoundTrip.single (roundTrip : RoundTrip genNewBssid bssid ap expanded)
    (several : ap.nonTransmitting ≠ []) :
    ∃ vif, ap.nonTransmitting = [vif] := by
  have reception := ap.reception expanded
  have delivers := (roundTrip blank (fun _ => none) (ap.frame expanded) reception rfl).1
  have atMost := @length_passed_processBeacon blank genNewBssid bssid (ap.frame expanded) ap
    (fun _ => none) (RxMask.ofFrame (ap.frame expanded).ies) (congrArg Cell.head reception.ie)
  have length := delivers.1.length_eq
  rw [List.length_map, List.length_map] at length
  rw [length] at atMost
  exact List.length_eq_one_iff.mp (Nat.le_antisymm atMost
    (Nat.one_le_iff_ne_zero.mpr fun empty => several (List.length_eq_zero_iff.mp empty)))

theorem RoundTrip.comesThrough (roundTrip : RoundTrip genNewBssid bssid ap expanded)
    (single : ap.nonTransmitting = [vif]) :
    ComesThrough genNewBssid bssid ap vif := by
  have reception := ap.reception expanded
  have delivers := (roundTrip blank (fun _ => none) (ap.frame expanded) reception rfl).1
  obtain ⟨data, built, transmitter⟩ := roundTrip.transmitter (by
    rw [single]
    exact List.cons_ne_nil _ _)
  rcases ap.ie_of_single single with ⟨room, other, profile, same, own, written⟩ | ⟨-, none⟩
  · by_cases index : vif.id.setWidth 8 = 0 ∨ 46 < (vif.id.setWidth 8).toNat
    · rw [reception.process_single blank genNewBssid bssid _ same own written
        (Nat.ne_of_gt transmitter), scanIndex, if_pos index] at delivers
      exact absurd delivers (not_delivers_nil bssid single)
    · obtain ⟨translated, vals, mask, -, name, -, made, scan⟩ := reception.scan_single
        blank genNewBssid bssid (fun _ => none) same own written (Nat.ne_of_gt transmitter) index
      rw [scan] at delivers
      obtain ⟨perm, addresses⟩ := delivers
      rw [single, List.map_singleton, List.map_singleton, List.perm_singleton] at perm
      have id := congrArg Prod.fst (List.cons.inj perm).1
      exact ⟨(index_iff vif.id).mp ⟨index, id⟩, room.1, room.2, transmitter,
        addresses _ (List.mem_singleton_self _)⟩
  · rw [none] at built
    cases built

theorem RoundTrip.rebuilt (roundTrip : RoundTrip genNewBssid bssid ap expanded)
    (single : ap.nonTransmitting = [vif]) :
    expanded = true := by
  have comes := roundTrip.comesThrough single
  have reception := ap.reception expanded
  obtain ⟨-, receives⟩ := roundTrip blank (fun _ => some []) (ap.frame expanded) reception rfl
  rcases ap.ie_of_single single with ⟨-, data, profile, built, own, written⟩ | ⟨lost, -⟩
  · obtain ⟨index, -⟩ := (index_iff vif.id).mpr comes.index
    have named := Nat.ne_of_gt comes.transmitter
    obtain ⟨translated, vals, mask, ssidLen, name, noMesh, made, scan⟩ := reception.scan_single
      blank genNewBssid bssid (fun _ => some []) built own written named index
    have length : translated.mask.ssidLen ≠ 0 := by
      rw [made.ssidLen, ssidLen]
      exact Nat.ne_of_gt comes.named
    have ownLength : (RxMask.ofFrame (ap.frame expanded).ies).ssidLen ≠ 0 := by
      rw [reception.ssidLen]
      exact named
    rw [scan, receiveOwn, receiveOwn,
      rxPacketSize_of_ne_zero bssid _ (made.meshId.trans noMesh) length,
      rxPacketSize_of_ne_zero bssid _ reception.noMesh ownLength] at receives
    cases expanded with
    | true => rfl
    | false =>
      have noMesh' : ((translated.mask.take wlanEidSuppRates).contents wlanEidMeshId).head =
          none := by
        rw [RxMask.take]
        dsimp only
        rw [setHead_of_ne _ _ (by decide), made.meshId, noMesh]
      have nameless : ((translated.mask.take wlanEidSuppRates).contents wlanEidSsid).head =
          none := by
        rw [RxMask.take]
        dsimp only
        rw [setHead_of_ne _ _ (by decide), made.nameless]
      have lost := toBeacon_nameless blank bssid (ap.frame false) noMesh' nameless
        (made.others bssid comes.address.symm)
      have present := reception.present_take
      obtain ⟨vals, kept⟩ := (toBeacon_named blank bssid (ap.frame false) (fun _ => some [])
        present reception.granted).beacon
      exact absurd (lost.symm.trans (receives.trans kept)) (by intro same; cases same)
  · exact absurd ⟨comes.named, comes.fits⟩ lost

/-- Several networks in one beacon make the way to a receiver and back exactly where there
is no other network, or one that comes through and a beacon whose table is built anew. -/
theorem roundTrip_iff (genNewBssid : Bssid → BitVec 8 → BitVec 8 → Bssid) (bssid : Bssid)
    (ap : AccessPoint) (expanded : Bool) :
    RoundTrip genNewBssid bssid ap expanded ↔
      ap.nonTransmitting = [] ∨
        expanded = true ∧
          ∃ vif, ap.nonTransmitting = [vif] ∧ ComesThrough genNewBssid bssid ap vif := by
  constructor
  · intro roundTrip
    by_cases several : ap.nonTransmitting = []
    · exact .inl several
    · obtain ⟨vif, single⟩ := roundTrip.single several
      exact .inr ⟨roundTrip.rebuilt single, vif, single, roundTrip.comesThrough single⟩
  · rintro (alone | ⟨rfl, vif, single, comes⟩)
    · exact roundTrip_of_alone genNewBssid bssid alone expanded
    · exact comes.roundTrip genNewBssid bssid single

/-! ## Three networks -/

/-- An interface of an access point, with a beacon that has a name of one octet. -/
def plainVif (id : BitVec 16) (octet : BitVec 8) : Vif :=
  ⟨id, true, some (Element.mk wlanEidSsid ⟨[octet], by rw [List.length_singleton]; decide⟩).octets,
    1, 0⟩

theorem length_ssid_plainVif (id : BitVec 16) (octet : BitVec 8) :
    (plainVif id octet).ssid.val.length = 1 := by
  have found : findIe wlanEidSsid ((Element.mk wlanEidSsid
      ⟨[octet], by rw [List.length_singleton]; decide⟩).octets ++ []) =
        some ⟨wlanEidSsid, [octet], by rw [List.length_singleton]; decide⟩ := by
    rw [findIe, walk_octets]
    rfl
  rw [List.append_nil] at found
  rw [Vif.ssid, Vif.ssidIe, plainVif, Option.bind_some, found]
  rfl

/-- An access point with three networks, the first of which sends the beacons. -/
def threeNetworks : AccessPoint where
  maxBssidIndicator := 3
  transmitter := plainVif 0 0x41
  vifs := [plainVif 0 0x41, plainVif 1 0x42, plainVif 2 0x43]
  several := by decide
  transmitterVifId := by decide
  fits := by
    have others : nonTransmitting (plainVif 0 0x41)
        [plainVif 0 0x41, plainVif 1 0x42, plainVif 2 0x43] =
          [plainVif 1 0x42, plainVif 2 0x43] := rfl
    rw [others, List.map_cons, List.map_singleton, length_ssid_plainVif, length_ssid_plainVif]
    decide

/-- Of two other networks one is not passed up. -/
theorem not_roundTrip_threeNetworks :
    ¬ ∀ (genNewBssid : Bssid → BitVec 8 → BitVec 8 → Bssid) (bssid : Bssid) (ap : AccessPoint)
      (expanded : Bool), RoundTrip genNewBssid bssid ap expanded := by
  intro holds
  have others : threeNetworks.nonTransmitting = [plainVif 1 0x42, plainVif 2 0x43] := rfl
  have roundTrip := holds (fun bssid _ index => bssid + index.setWidth 48) 0 threeNetworks true
  obtain ⟨vif, single⟩ := roundTrip.single (by
    exact List.cons_ne_nil _ _)
  have length := congrArg List.length (others.symm.trans single)
  cases length

end Mbssid
end Morse
