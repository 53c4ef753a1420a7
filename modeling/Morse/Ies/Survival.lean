import Morse.Ies.Stored

/-!
# Security elements survive beacons

An element that is stored for a network comes back into a beacon without it where it
lies in that part of what is stored whose length an octet tells.
-/

namespace Morse
namespace Ies

open Lib

/-! ## Putting elements back -/

variable {vals : UpdateRxBeaconVals} {mask : Contents} {eid : Eid} {element : Element}

theorem UpdateRxBeaconVals.eid_of_mem_missing (member : element ∈ vals.missing mask eid) :
    element.eid = eid := by
  rw [UpdateRxBeaconVals.missing] at member
  split at member
  · next found search =>
      split at member
      · rw [List.mem_singleton.mp member]
        rw [UpdateRxBeaconVals.find] at search
        split at search
        · simpa only [decide_eq_true_eq] using List.find?_some search
        · cases search
      · cases member
  · cases member

theorem UpdateRxBeaconVals.missing_of_isSome (present : (mask eid).head.isSome = true) :
    vals.missing mask eid = [] := by
  have notNone : (mask eid).head.isNone = false := by
    rw [← Option.not_isSome, present]
    rfl
  rw [UpdateRxBeaconVals.missing, notNone]
  split
  · rfl
  · rfl

theorem UpdateRxBeaconVals.missing_of_find (absent : (mask eid).head = none)
    (found : vals.find eid = some element) :
    vals.missing mask eid = [element] := by
  simp only [UpdateRxBeaconVals.missing, found, absent, Option.isNone_none, if_true]

/-- A security identifier. -/
def IsSecurity (eid : Eid) : Prop := eid = wlanEidRsn ∨ eid = wlanEidRsnx

instance (eid : Eid) : Decidable (IsSecurity eid) :=
  inferInstanceAs (Decidable (eid = wlanEidRsn ∨ eid = wlanEidRsnx))

variable {other : Eid}

theorem IsSecurity.ne (security : IsSecurity eid) (plain : ¬ IsSecurity other) :
    eid ≠ other :=
  fun same => plain (same ▸ security)

theorem count_insertRsnAndRsnxIe (security : IsSecurity element.eid) :
    (insertRsnAndRsnxIe vals mask).count element =
      (vals.missing mask element.eid).count element := by
  have elsewhere : ∀ other, other ≠ element.eid → (vals.missing mask other).count element = 0 := by
    intro other differ
    exact List.count_eq_zero.mpr fun member =>
      differ (UpdateRxBeaconVals.eid_of_mem_missing member).symm
  rw [insertRsnAndRsnxIe, List.count_append]
  rcases security with rsn | rsnx
  · rw [rsn, elsewhere wlanEidRsnx (by rw [rsn]; decide), Nat.add_zero]
  · rw [rsnx, elsewhere wlanEidRsn (by rw [rsnx]; decide), Nat.zero_add]

theorem find_insertRsnAndRsnxIe (security : IsSecurity eid) :
    (insertRsnAndRsnxIe vals mask).find? (fun element => element.eid = eid) =
      (vals.missing mask eid).head? := by
  have own : ∀ name, (vals.missing mask name).find? (fun element => element.eid = name) =
      (vals.missing mask name).head? := by
    intro name
    cases elements : vals.missing mask name with
    | nil => rfl
    | cons first rest =>
      refine List.find?_cons_of_pos ?_
      rw [decide_eq_true_eq]
      refine @UpdateRxBeaconVals.eid_of_mem_missing vals mask name first ?_
      rw [elements]
      exact List.mem_cons_self
  have other : ∀ name, name ≠ eid →
      (vals.missing mask name).find? (fun element => element.eid = eid) = none := by
    intro name differ
    refine List.find?_eq_none.mpr fun found member => ?_
    rw [decide_eq_true_eq, UpdateRxBeaconVals.eid_of_mem_missing member]
    exact differ
  rw [insertRsnAndRsnxIe, List.find?_append]
  rcases security with rfl | rfl
  · rw [own, other wlanEidRsnx (by decide), Option.or_none]
  · rw [own, other wlanEidRsn (by decide), Option.none_or]

/-! ## The beacon that is built -/

variable (conversions : Conversions)

theorem eid_of_mem_requiredRxIe (mask : Contents) (eid : Eid) (element : Element)
    (member : element ∈ requiredRxIe conversions mask eid) :
    element.eid = eid := by
  rw [requiredRxIe] at member
  split at member
  · cases member
  · split at member
    · cases member
    · split at member
      · obtain ⟨data, -, rfl⟩ := Option.map_eq_some_iff.mp (Option.mem_toList.mp member)
        rfl
      · obtain ⟨data, -, rfl⟩ := List.mem_map.mp member
        rfl

theorem count_insertRequiredRxIe (security : IsSecurity element.eid) :
    (insertRequiredRxIe conversions mask).count element =
      (mask element.eid).all.count element.data := by
  have kept : mask.setHead wlanEidSuppRates (some conversions.suppRates) element.eid =
      mask element.eid :=
    Function.update_of_ne (security.ne (by decide)) _ _
  have neither : ¬ (element.eid = wlanEidS1gOperation ∨ element.eid = wlanEidS1gCapabilities) :=
    not_or.mpr ⟨security.ne (by decide), security.ne (by decide)⟩
  have notTim : element.eid ≠ wlanEidTim := security.ne (by decide)
  rw [insertRequiredRxIe, count_flatMap_of_mem (eid_of_mem_requiredRxIe conversions _)
    (List.nodup_finRange 256) (List.mem_finRange _), requiredRxIe, kept, if_neg neither]
  split
  · next missing =>
      rw [(Cell.all_eq_nil_iff _).mpr (Option.isNone_iff_eq_none.mp missing)]
      rfl
  · have injective : Function.Injective (Element.mk element.eid) := fun first second same =>
      (Element.mk.inj same).2
    exact List.count_map_of_injective _ _ injective _

theorem count_buildBeacon (security : IsSecurity element.eid) :
    (buildBeacon conversions vals mask).count element =
      (vals.missing mask element.eid).count element +
        (mask element.eid).all.count element.data := by
  have kept : mask.setHead wlanEidSsid none element.eid = mask element.eid :=
    Function.update_of_ne (security.ne (by decide)) _ _
  have ssid : (insertSsidIe conversions mask).count element = 0 := by
    refine List.count_eq_zero.mpr fun member => ?_
    have named : element.eid = wlanEidSsid := by
      rw [insertSsidIe] at member
      split at member
      · obtain ⟨data, -, rfl⟩ := List.mem_map.mp member
        rfl
      · rw [List.mem_singleton.mp member]
    exact security.ne (by decide) named
  have htAndVht : (insertHtAndVhtIe conversions (mask.setHead wlanEidSsid none)).count element =
      0 := by
    have one : ∀ (present : Bool) (eid : Eid) (data : Data), ¬ IsSecurity eid →
        (if present then [Element.mk eid data] else []).count element = 0 := by
      intro present eid data plain
      refine List.count_eq_zero.mpr fun member => ?_
      split at member
      · rw [List.mem_singleton.mp member] at security
        exact plain security
      · cases member
    rw [insertHtAndVhtIe, List.count_append, List.count_append, List.count_append,
      one _ _ _ (by decide), one _ _ _ (by decide), one _ _ _ (by decide), one _ _ _ (by decide)]
  rw [buildBeacon]
  simp only [List.count_append, ssid, htAndVht]
  rw [count_insertRsnAndRsnxIe security, count_insertRequiredRxIe conversions security,
    UpdateRxBeaconVals.missing, UpdateRxBeaconVals.missing, kept, Nat.zero_add, Nat.add_zero]

/-! ## What is stored -/

/-- Octets parse, and an element is the first of its identifier in them. -/
structure Stores (octets : List (BitVec 8)) (element : Element) : Prop where
  valid : (parse octets).2 ≠ .invalid
  first : (parse octets).1.find? (fun other => other.eid = element.eid) = some element

variable {elements : List Element}

theorem parse_flatMap (security : ∀ element ∈ elements, IsSecurity element.eid) :
    parse (elements.flatMap Element.octets) = (elements, .done) := by
  induction elements with
  | nil =>
    rw [List.flatMap_nil, parse]
  | cons element rest ih =>
    have differs : element.eid ≠ wlanEidExtension :=
      (security element List.mem_cons_self).ne (by decide)
    have plain : isFilsSession (BitVec.ofFin element.eid)
        (element.data.val ++ rest.flatMap Element.octets) = false := by
      rw [isFilsSession, decide_eq_false differs, Bool.false_and]
    rw [List.flatMap_cons, parse_octets element _ plain,
      ih fun other member => security other (List.mem_cons_of_mem _ member)]

theorem security_of_mem_insertRsnAndRsnxIe (member : element ∈ insertRsnAndRsnxIe vals mask) :
    IsSecurity element.eid := by
  rcases List.mem_append.mp member with rsn | rsnx
  · exact .inl (UpdateRxBeaconVals.eid_of_mem_missing rsn)
  · exact .inr (UpdateRxBeaconVals.eid_of_mem_missing rsnx)

theorem head_flatMap_ne (security : ∀ element ∈ elements, IsSecurity element.eid) :
    (elements.flatMap Element.octets).head? ≠ some wlanEidExtFilsSession := by
  cases elements with
  | nil =>
    intro same
    cases same
  | cons element rest =>
    intro same
    have octet : BitVec.ofFin element.eid = wlanEidExtFilsSession := Option.some.inj same
    have eid : element.eid = wlanEidExtFilsSession.toFin := congrArg BitVec.toFin octet
    exact (security element List.mem_cons_self).ne (by decide) eid

theorem Stores.putBack (security : IsSecurity element.eid)
    (omits : ∀ other ∈ (parse ies).1, other.eid ≠ element.eid) (done : (parse ies).2 = .done)
    (absent : (mask element.eid).head = none) (found : vals.find element.eid = some element) :
    Stores (ies ++ (insertRsnAndRsnxIe vals mask).flatMap Element.octets) element := by
  have all : ∀ other ∈ insertRsnAndRsnxIe vals mask, IsSecurity other.eid := fun other member =>
    security_of_mem_insertRsnAndRsnxIe member
  have whole := parse_append (Prod.ext rfl done : parse ies = ((parse ies).1, .done))
    (head_flatMap_ne all)
  rw [parse_flatMap all] at whole
  have none : (parse ies).1.find? (fun other => other.eid = element.eid) = none :=
    List.find?_eq_none.mpr fun other member => by
      rw [decide_eq_true_eq]
      exact omits other member
  refine ⟨?_, ?_⟩
  · rw [whole]
    exact Tail.noConfusion
  · rw [whole, List.find?_append, none, find_insertRsnAndRsnxIe security,
      UpdateRxBeaconVals.missing_of_find absent found]
    rfl

/-! ## The table of a beacon -/

theorem setHead_of_ne (mask : Contents) (head : Option Data) (differs : eid ≠ other) :
    mask.setHead other head eid = mask eid :=
  Function.update_of_ne differs _ _

variable {stored : List (BitVec 8)}

theorem all_beaconMask (given : beaconMask stored frame = some mask) :
    (∀ name, name ≠ wlanEidSuppRates →
      (mask name).all = dataOf name (parse frame.ies).1 ∧ (mask name).Headed) ∨
    (∀ name, name ≠ wlanEidSuppRates →
      (mask name).all = dataOf name (parse frame.ies).1 ++ dataOf name (parse stored).1 ∧
        (mask name).Headed) := by
  have own : ∀ name, (Contents.empty.parse frame.ies name).all = dataOf name (parse frame.ies).1 ∧
      (Contents.empty.parse frame.ies name).Headed :=
    fun name => Contents.all_parse Contents.empty name (fun _ => rfl) frame.ies
  rw [beaconMask] at given
  split at given
  · cases given
  · split at given
    · cases given
    · next sized size =>
        cases given
        split
        · exact .inl fun name _ => own name
        · rw [sizedMask] at size
          split at size
          · split at size
            · cases size
            · cases size
              refine .inr fun name differs => ?_
              rw [setHead_of_ne _ none differs]
              have merged := Contents.all_parse _ name (own name).2 stored
              rw [(own name).1] at merged
              exact merged
          · cases size
            refine .inl fun name differs => ?_
            rw [setHead_of_ne _ none differs]
            exact own name

theorem dataOf_eq_nil (omits : ∀ other ∈ elements, other.eid ≠ eid) :
    dataOf eid elements = [] := by
  rw [dataOf, List.filter_eq_nil_iff.mpr fun other member => by
    rw [decide_eq_true_eq]
    exact omits other member]
  rfl

/-! ## Beacons -/

/-- What is stored for a network has the element first of its identifier, and every beacon
that was passed up has it once. -/
structure Network.Carries (network : Network) (element : Element) : Prop where
  stored : Stores network.stored element
  passed : ∀ beacon ∈ network.passed, beacon.count element = 1

/-- A beacon is without elements of an identifier. -/
def BeaconFrame.Omits (frame : BeaconFrame) (eid : Eid) : Prop :=
  ∀ other ∈ (parse frame.ies).1, other.eid ≠ eid

/-- An element is kept where a beacon is translated.  If the table of the beacon names the
network and the elements stored were not put in, the copy of these is made and the element
is found in as many octets of it as an octet can tell, and no FILS session element stands
in front of where it is put back.  Otherwise it is stored once, and if the table names the
network nothing new is stored. -/
def Keeps (element : Element) (network : Network) (frame : BeaconFrame) : Prop :=
  ∀ mask, beaconMask network.stored frame = some mask → frame.beaconGranted = true →
    if (mask (networkIdEid mask)).head.isSome then
      if (mask element.eid).head.isSome then
        frame.updateGranted = false ∧
          (dataOf element.eid (parse network.stored).1).count element.data = 1
      else
        frame.copyGranted = true ∧
          findIe element.eid (network.stored.take (network.stored.length % 256)) = some element ∧
          (frame.updateGranted = true → (parse frame.ies).2 = .done)
    else
      (mask.parse network.stored (networkIdEid mask)).head.isSome →
        (dataOf element.eid (parse network.stored).1).count element.data = 1

variable {network next : Network} {frame : BeaconFrame}

theorem Stores.storeCssid (stores : Stores stored element) (security : IsSecurity element.eid)
    (omits : frame.Omits element.eid) (absent : (mask element.eid).head = none)
    (found : vals.find element.eid = some element)
    (done : frame.updateGranted = true → (parse frame.ies).2 = .done) :
    Stores (storeCssid mask stored frame.ies vals frame.updateGranted) element := by
  rw [Ies.storeCssid]
  split
  · next updated =>
      rw [Bool.and_eq_true] at updated
      exact Stores.putBack security omits (done updated.1) absent found
  · exact stores

theorem networkIdEid_ne (mask : Contents) : networkIdEid mask ≠ wlanEidSuppRates := by
  rw [networkIdEid]
  split
  · decide
  · decide

theorem find_updateRxBeaconElements (copied : granted = true)
    (found : findIe eid (stored.take (stored.length % 256)) = some element) :
    (updateRxBeaconElements mask stored granted).find eid = some element := by
  rw [copied]
  exact found

theorem own_of_nameless (given : beaconMask stored frame = some mask)
    (nameless : (mask (networkIdEid mask)).head.isSome ≠ true)
    (merged : (mask.parse stored (networkIdEid mask)).head.isSome = true) (omits : frame.Omits eid)
    (differs : eid ≠ wlanEidSuppRates) :
    (mask.parse stored eid).all = dataOf eid (parse stored).1 := by
  have missing : (mask (networkIdEid mask)).all = [] :=
    (Cell.all_eq_nil_iff _).mpr (Option.not_isSome_iff_eq_none.mp nameless)
  rcases all_beaconMask given with own | both
  · obtain ⟨all, headed⟩ := own eid differs
    rw [(Contents.all_parse mask eid headed stored).1, all, dataOf_eq_nil omits, List.nil_append]
  · obtain ⟨all, headed⟩ := both _ (networkIdEid_ne mask)
    rw [missing] at all
    have nothing : (mask.parse stored (networkIdEid mask)).all = [] := by
      rw [(Contents.all_parse mask _ headed stored).1, missing,
        (List.append_eq_nil_iff.mp all.symm).2, List.nil_append]
    rw [(Cell.all_eq_nil_iff _).mp nothing] at merged
    cases merged

theorem Network.Carries.translate (carries : network.Carries element)
    (security : IsSecurity element.eid) (omits : frame.Omits element.eid)
    (keeps : Keeps element network frame) (given : beaconMask network.stored frame = some mask) :
    (∀ beacon, (s1gToBeacon conversions network.stored frame mask).1 = some beacon →
        beacon.count element = 1) ∧
      Stores (s1gToBeacon conversions network.stored frame mask).2 element := by
  have notRates : element.eid ≠ wlanEidSuppRates := security.ne (by decide)
  have notTim : element.eid ≠ wlanEidTim := security.ne (by decide)
  have none := dataOf_eq_nil omits
  rw [s1gToBeacon]
  split
  · next granted =>
      have keeps := keeps mask given granted
      split
      · next named =>
          rw [if_pos named] at keeps
          split at keeps
          · next present =>
              obtain ⟨notStored, once⟩ := keeps
              refine ⟨fun beacon same => ?_, ?_⟩
              · cases same
                rw [count_buildBeacon conversions security,
                  UpdateRxBeaconVals.missing_of_isSome present, List.count_nil, Nat.zero_add]
                rcases all_beaconMask given with own | both
                · have all := (own _ notRates).1
                  rw [none, Cell.all_eq_nil_iff] at all
                  rw [all] at present
                  cases present
                · rw [(both _ notRates).1, none]
                  exact once
              · rw [notStored]
                exact carries.stored
          · next absent =>
              obtain ⟨copied, found, done⟩ := keeps
              have missing := Option.not_isSome_iff_eq_none.mp absent
              have put : (updateRxBeaconElements mask network.stored frame.copyGranted).find
                  element.eid = some element :=
                find_updateRxBeaconElements copied found
              refine ⟨fun beacon same => ?_, ?_⟩
              · cases same
                rw [count_buildBeacon conversions security,
                  UpdateRxBeaconVals.missing_of_find missing put,
                  (Cell.all_eq_nil_iff _).mpr missing, List.count_singleton_self, List.count_nil]
              · exact carries.stored.storeCssid security omits missing put done
      · next nameless =>
          rw [if_neg nameless] at keeps
          dsimp only
          split
          · next merged =>
              refine ⟨fun beacon same => ?_, carries.stored⟩
              cases same
              have once := keeps merged
              rw [← own_of_nameless given nameless merged omits notRates] at once
              have kept := setHead_of_ne (mask.parse network.stored)
                (updateRxBeaconElements mask network.stored frame.copyGranted).timIe notTim
              have present : ((mask.parse network.stored) element.eid).head.isSome = true := by
                refine Option.isSome_iff_ne_none.mpr fun missing => ?_
                rw [(Cell.all_eq_nil_iff _).mpr missing] at once
                cases once
              rw [count_buildBeacon conversions security, kept, once,
                UpdateRxBeaconVals.missing_of_isSome (by rw [kept]; exact present)]
              rfl
          · exact ⟨(fun _ same => by cases same), carries.stored⟩
  · exact ⟨(fun _ same => by cases same), carries.stored⟩

theorem Network.Carries.step (carries : network.Carries element) (security : IsSecurity element.eid)
    (omits : frame.Omits element.eid) (keeps : Keeps element network frame)
    (taken : beaconStep conversions network frame = some next) :
    next.Carries element := by
  rw [beaconStep] at taken
  split at taken
  · cases taken
    exact carries
  · next mask given =>
      have translated := carries.translate conversions security omits keeps given
      split at taken
      · next stored result =>
          rw [result] at translated
          cases taken
          exact ⟨translated.2, carries.passed⟩
      · next beacon stored result =>
          rw [result] at translated
          cases taken
          refine ⟨translated.2, fun other member => ?_⟩
          rcases List.mem_cons.mp member with rfl | earlier
          · exact translated.1 _ rfl
          · exact carries.passed other earlier

/-- Once a security element is stored for a network, it stays stored and is in every beacon
that is passed up once, in every sequence of beacons that omit it and keep it. -/
theorem carries_of_reaches {start network : Network} {element : Element}
    (security : IsSecurity element.eid) (carries : start.Carries element)
    (reaches : Reaches (beaconStep conversions)
      (fun network frame => frame.Omits element.eid ∧ Keeps element network frame) start network) :
    network.Carries element := by
  refine @Reaches.invariant _ _ (beaconStep conversions)
    (fun network frame => frame.Omits element.eid ∧ Keeps element network frame) start network
    (fun network => network.Carries element) carries ?_ reaches
  intro before frame after carries guard taken
  exact carries.step conversions security guard.1 guard.2 taken

/-! ## A network with long elements -/

/-- Translation that makes up elements without data. -/
def blank : Conversions :=
  ⟨noData, noData, fun _ => noData, fun _ => noData, fun _ => noData, fun _ => noData,
    fun _ => none⟩

/-- The name of a network. -/
def ssidElement : Element := ⟨wlanEidSsid, ⟨[0x41], by decide⟩⟩

/-- An element of a vendor with 250 octets. -/
def vendorElement : Element :=
  ⟨221, ⟨List.replicate 250 0, by rw [List.length_replicate]; decide⟩⟩

/-- An RSN element. -/
def rsnElement : Element := ⟨wlanEidRsn, ⟨[1, 0], by decide⟩⟩

/-- A beacon with the name of the network, for which there is memory. -/
def namedBeacon : BeaconFrame := ⟨ssidElement.octets, false, true, true, true⟩

theorem parse_ssidElement (rest : List (BitVec 8)) :
    parse (ssidElement.octets ++ rest) = (ssidElement :: (parse rest).1, (parse rest).2) :=
  parse_octets ssidElement rest rfl

theorem parse_rsnElement (rest : List (BitVec 8)) :
    parse (rsnElement.octets ++ rest) = (rsnElement :: (parse rest).1, (parse rest).2) :=
  parse_octets rsnElement rest rfl

theorem parse_namedBeacon : parse namedBeacon.ies = ([ssidElement], .done) := by
  have whole := parse_ssidElement []
  rw [parse] at whole
  exact whole

/-- The table of the beacon. -/
def namedMask : Contents := (Contents.empty.add ssidElement).setHead wlanEidSuppRates none

theorem isSome_namedMask : (namedMask (networkIdEid namedMask)).head.isSome = true := rfl

theorem beaconMask_namedBeacon (stored : List (BitVec 8)) :
    beaconMask stored namedBeacon = some namedMask := by
  have own : Contents.empty.parse namedBeacon.ies = Contents.empty.add ssidElement := by
    rw [Contents.parse, parse_namedBeacon]
    rfl
  rw [beaconMask, own, parse_namedBeacon]
  rfl

/-- What was stored of a probe response with a name and an RSN element. -/
def shortNetwork : Network := ⟨ssidElement.octets ++ rsnElement.octets, []⟩

theorem shortNetwork_carries : shortNetwork.Carries rsnElement := by
  have whole := parse_ssidElement (rsnElement.octets ++ [])
  rw [parse_rsnElement, parse, List.append_nil] at whole
  refine ⟨⟨?_, ?_⟩, fun _ member => by cases member⟩
  · rw [shortNetwork, whole]
    exact Tail.noConfusion
  · rw [shortNetwork, whole]
    rfl

theorem carries_of_reaches_short :
    ∃ network, Reaches (beaconStep blank)
        (fun network frame => frame.Omits rsnElement.eid ∧ Keeps rsnElement network frame)
        shortNetwork network ∧
      network.Carries rsnElement := by
  have omits : namedBeacon.Omits rsnElement.eid := by
    intro other member
    rw [parse_namedBeacon] at member
    rw [List.mem_singleton.mp member]
    decide
  have found : findIe rsnElement.eid
      (shortNetwork.stored.take (shortNetwork.stored.length % 256)) = some rsnElement := by
    have all : shortNetwork.stored.take (shortNetwork.stored.length % 256) =
        ssidElement.octets ++ (rsnElement.octets ++ []) := rfl
    rw [findIe, all, walk_octets, walk_octets, walk]
    rfl
  have keeps : Keeps rsnElement shortNetwork namedBeacon := by
    intro mask given _
    rw [beaconMask_namedBeacon] at given
    cases given
    exact ⟨rfl, found, fun _ => congrArg Prod.snd parse_namedBeacon⟩
  have taken : ∃ next, beaconStep blank shortNetwork namedBeacon = some next := by
    rw [beaconStep, beaconMask_namedBeacon]
    exact ⟨_, rfl⟩
  obtain ⟨next, taken⟩ := taken
  have reaches : Reaches (beaconStep blank)
      (fun network frame => frame.Omits rsnElement.eid ∧ Keeps rsnElement network frame)
      shortNetwork next :=
    Reaches.start.step ⟨omits, keeps⟩ taken
  exact ⟨next, reaches, carries_of_reaches blank (.inl rfl) shortNetwork_carries reaches⟩

/-- What was stored of a probe response with a long element in front of the RSN element. -/
def longNetwork : Network :=
  ⟨ssidElement.octets ++ (vendorElement.octets ++ rsnElement.octets), []⟩

theorem longNetwork_carries : longNetwork.Carries rsnElement := by
  have whole := parse_ssidElement (vendorElement.octets ++ (rsnElement.octets ++ []))
  rw [parse_octets vendorElement _ rfl, parse_rsnElement, parse, List.append_nil] at whole
  refine ⟨⟨?_, ?_⟩, fun _ member => by cases member⟩
  · rw [longNetwork, whole]
    exact Tail.noConfusion
  · rw [longNetwork, whole]
    rfl

theorem length_longNetwork : longNetwork.stored.length = 259 := by
  decide +kernel

theorem missing_longNetwork (mask : Contents) (security : IsSecurity eid) :
    (updateRxBeaconElements mask longNetwork.stored true).missing mask eid = [] := by
  have all : longNetwork.stored.take (BitVec.ofNat 8 longNetwork.stored.length).toNat =
      ssidElement.octets ++ [] := by
    rw [length_longNetwork]
    rfl
  have none : (updateRxBeaconElements mask longNetwork.stored true).find eid = none := by
    simp only [updateRxBeaconElements, UpdateRxBeaconVals.find, if_true, all, findIe, walk_octets,
      walk]
    rcases security with rfl | rfl
    · rfl
    · rfl
  rw [UpdateRxBeaconVals.missing, none]

theorem storeCssid_longNetwork (mask : Contents) :
    storeCssid mask longNetwork.stored ssidElement.octets
      (updateRxBeaconElements mask longNetwork.stored true) true = ssidElement.octets := by
  have nothing : insertRsnAndRsnxIe (updateRxBeaconElements mask longNetwork.stored true) mask =
      [] := by
    rw [insertRsnAndRsnxIe, missing_longNetwork mask (.inl rfl),
      missing_longNetwork mask (.inr rfl), List.nil_append]
  have shorter : longNetwork.stored.length ≠ ssidElement.octets.length := by
    rw [length_longNetwork]
    decide
  rw [storeCssid, nothing, List.flatMap_nil, List.append_nil]
  simp only [decide_eq_true shorter, Bool.true_or, Bool.and_self, if_true]

/-- A beacon takes a security element away from what is stored. -/
theorem not_carries_of_reaches :
    ¬ ∀ (conversions : Conversions) (start network : Network) (element : Element),
      IsSecurity element.eid → start.Carries element →
        Reaches (beaconStep conversions) (fun _ frame => frame.Omits element.eid) start network →
          network.Carries element := by
  intro holds
  have omits : namedBeacon.Omits rsnElement.eid := by
    intro other member
    rw [parse_namedBeacon] at member
    rw [List.mem_singleton.mp member]
    decide
  have lost : ∃ next, beaconStep blank longNetwork namedBeacon = some next ∧
      next.stored = ssidElement.octets := by
    rw [beaconStep, beaconMask_namedBeacon]
    simp only [s1gToBeacon, namedBeacon, if_true, isSome_namedMask, storeCssid_longNetwork]
    exact ⟨_, rfl, rfl⟩
  obtain ⟨next, taken, stored⟩ := lost
  have reaches : Reaches (beaconStep blank) (fun _ frame => frame.Omits rsnElement.eid)
      longNetwork next := Reaches.start.step omits taken
  have first := (holds blank longNetwork next rsnElement (.inl rfl) longNetwork_carries
    reaches).stored.first
  have parsed : parse ssidElement.octets = ([ssidElement], .done) := parse_namedBeacon
  rw [stored, parsed] at first
  cases first

end Ies
end Morse
