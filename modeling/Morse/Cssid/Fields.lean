import Morse.Cssid.Defs
import Mathlib.Data.List.Sublists

/-!
# Entries and their fields

Whatever is done with the list, there is at most one entry of a network.  Names are copied
and elements read without a look at their lengths, though: the accesses stay within the
fields if what is stored has names and elements of the lengths that everyone relies on.
-/

namespace Morse
namespace Cssid

open Ies

/-! ## What an operation leaves -/

/-- What of an entry is read by its lengths: the network and its elements. -/
def CssidItem.content (item : CssidItem) : BitVec 48 × List (BitVec 8) := (item.bssid, item.ies)

/-- There is at most one entry of each network. -/
def OneEach (items : List CssidItem) : Prop := (items.map CssidItem.bssid).Nodup

/-- Every entry of a list was there before, as far as its contents go. -/
def Kept (before after : List CssidItem) : Prop :=
  (after.map CssidItem.content).Sublist (before.map CssidItem.content)

theorem Kept.refl (items : List CssidItem) : Kept items items := List.Sublist.refl _

theorem map_bssid (items : List CssidItem) :
    items.map CssidItem.bssid = (items.map CssidItem.content).map Prod.fst := by
  rw [List.map_map]
  rfl

variable {before after : List CssidItem}

theorem Kept.oneEach (kept : Kept before after) (oneEach : OneEach before) :
    OneEach after := by
  rw [OneEach, map_bssid] at oneEach ⊢
  exact oneEach.sublist (kept.map Prod.fst)

theorem Kept.ies_mem (kept : Kept before after) (mem : item ∈ after) :
    ∃ old ∈ before, old.ies = item.ies := by
  obtain ⟨old, there, same⟩ := List.mem_map.mp (kept.subset (List.mem_map_of_mem mem))
  exact ⟨old, there, congrArg Prod.snd same⟩

section Operations

variable (ageLimit : Bool → BitVec 32)

/-! ## Looking for an entry -/

theorem Located.items_push (item : CssidItem) (located : Located) :
    (located.push item).items = item :: located.items := by
  cases found : located.found with
  | none => simp only [Located.items, Located.push, found]
  | some split => simp only [Located.items, Located.push, found, List.cons_append]

theorem kept_findCssidItemForBssid (now : BitVec 64) (bssid : BitVec 48) (items : List CssidItem) :
    Kept items (findCssidItemForBssid ageLimit now bssid items).items := by
  induction items with
  | nil => exact Kept.refl _
  | cons item rest ih =>
    rw [findCssidItemForBssid]
    split
    · exact Kept.refl (item :: rest)
    · split
      · exact ih.cons item.content
      · rw [Located.items_push]
        exact ih.cons_cons item.content

theorem kept_findBssid (now : BitVec 64) (bssid : BitVec 48) (items : List CssidItem) :
    Kept items (findBssid now bssid items).items := by
  induction items with
  | nil => exact Kept.refl _
  | cons item rest ih =>
    rw [findBssid]
    split
    · exact Kept.refl (item :: rest)
    · rw [Located.items_push]
      exact ih.cons_cons item.content

theorem found_findCssidItemForBssid (now : BitVec 64) (bssid : BitVec 48) (items : List CssidItem) :
    (∀ split ∈ (findCssidItemForBssid ageLimit now bssid items).found,
        split.1.bssid = bssid) ∧
      ((findCssidItemForBssid ageLimit now bssid items).found = none ↔
        ∀ item ∈ items, item.bssid ≠ bssid) := by
  induction items with
  | nil =>
    refine ⟨?_, ?_⟩
    · intro split found
      cases found
    · simp only [findCssidItemForBssid, List.not_mem_nil, false_implies, implies_true]
  | cons item rest ih =>
    rw [findCssidItemForBssid]
    by_cases same : item.bssid = bssid
    · rw [if_pos same]
      refine ⟨?_, ?_⟩
      · intro split found
        obtain rfl := Option.some.inj found
        exact same
      · simp only [reduceCtorEq, List.mem_cons, forall_eq_or_imp, same, ne_eq,
          not_true_eq_false, false_and]
    · rw [if_neg same]
      have others : (∀ other ∈ item :: rest, other.bssid ≠ bssid) ↔
          ∀ other ∈ rest, other.bssid ≠ bssid := by
        simp only [List.mem_cons, forall_eq_or_imp, ne_eq, same, not_false_eq_true, true_and]
      rw [others]
      split
      · exact ih
      · exact ih

theorem found_findBssid (now : BitVec 64) (bssid : BitVec 48) (items : List CssidItem) :
    (∀ split ∈ (findBssid now bssid items).found, ∃ item ∈ items, item.ies = split.1.ies) := by
  induction items with
  | nil =>
    intro split found
    cases found
  | cons item rest ih =>
    intro split found
    rw [findBssid] at found
    split at found
    · obtain rfl := Option.some.inj found
      exact ⟨item, List.mem_cons_self, rfl⟩
    · obtain ⟨old, mem, same⟩ := ih split found
      exact ⟨old, List.mem_cons_of_mem _ mem, same⟩

theorem before_findCssidItemForBssid (now : BitVec 64) (bssid : BitVec 48)
    (items : List CssidItem) :
    ∀ item ∈ (findCssidItemForBssid ageLimit now bssid items).before, item.bssid ≠ bssid := by
  induction items with
  | nil =>
    intro item mem
    cases mem
  | cons first rest ih =>
    rw [findCssidItemForBssid]
    split
    · intro item mem
      cases mem
    · next other =>
        split
        · exact ih
        · intro item mem
          rcases List.mem_cons.mp mem with rfl | mem
          · exact other
          · exact ih item mem

variable {bssid : BitVec 48} {item : CssidItem}

theorem findBssid_append (others : ∀ other ∈ before, other.bssid ≠ bssid)
    (same : item.bssid = bssid) (now : BitVec 64) (behind : List CssidItem) :
    (findBssid now bssid (before ++ item :: behind)).found =
      some ({ item with lastSeen := now }, behind) := by
  induction before with
  | nil => rw [List.nil_append, findBssid, if_pos same]
  | cons first rest ih =>
    obtain ⟨differs, more⟩ := List.forall_mem_cons.mp others
    rw [List.cons_append, findBssid, if_neg differs]
    exact ih more

/-! ## Elements that are stored -/

/-- There is an entry of the network. -/
def StoredFrame.isKnown (frame : StoredFrame) (items : List CssidItem) : Bool :=
  items.any fun item => decide (item.bssid = frame.bssid)

/-- The elements that are to be stored: where the network is known, those that its beacons
leave out are put back. -/
def StoredFrame.storedIes (frame : StoredFrame) (items : List CssidItem) : List (BitVec 8) :=
  if frame.isKnown items then frame.updatedIes else frame.s1gIes

theorem StoredFrame.length_updatedIes (frame : StoredFrame) :
    frame.updatedIes.length = frame.updatedLength := by
  have missing : ∀ eid,
      ((frame.vals.missing frame.mask eid).flatMap Element.octets).length =
        frame.addedLength eid := by
    intro eid
    cases found : frame.vals.find eid with
    | none => simp only [UpdateRxBeaconVals.missing, StoredFrame.addedLength, found,
        List.flatMap_nil, List.length_nil]
    | some element =>
      simp only [UpdateRxBeaconVals.missing, StoredFrame.addedLength, found]
      split
      · rw [List.flatMap_cons, List.flatMap_nil, List.append_nil]
        rfl
      · rfl
  rw [StoredFrame.updatedIes, StoredFrame.updatedLength, insertRsnAndRsnxIe,
    List.flatMap_append, List.length_append, List.length_append, missing, missing]
  omega

theorem CssidItem.ies_update (item : CssidItem) (memory : Memory) (frame : StoredFrame) :
    (item.update memory frame).1.ies =
      if memory.iesGranted then frame.updatedIes else item.ies := by
  simp only [CssidItem.update, Ies.storeCssid]
  cases granted : memory.iesGranted with
  | false => rfl
  | true =>
    by_cases same : item.ies = frame.updatedIes
    · rw [if_pos rfl, ← StoredFrame.updatedIes, ite_eq_left_iff]
      exact fun _ => same
    · have differ : decide (item.ies ≠ frame.updatedIes) = true := decide_eq_true same
      rw [← StoredFrame.updatedIes, differ, Bool.or_true, Bool.and_true,
        if_pos rfl]

theorem storeCssid_cases (now : BitVec 64) (memory : Memory) (frame : StoredFrame)
    (items : List CssidItem) :
    (∃ before item behind,
        Kept items (before ++ item :: behind) ∧ item.bssid = frame.bssid ∧
          (∀ other ∈ before, other.bssid ≠ frame.bssid) ∧ frame.isKnown items = true ∧
          storeCssid ageLimit now memory frame items =
            (before ++ (item.update memory frame).1 :: behind, (item.update memory frame).2)) ∨
      ∃ kept,
        Kept items kept ∧ (∀ item ∈ kept, item.bssid ≠ frame.bssid) ∧
          frame.isKnown items = false ∧
          storeCssid ageLimit now memory frame items = addItem now memory frame kept := by
  have kept := kept_findCssidItemForBssid ageLimit now frame.bssid items
  have before := before_findCssidItemForBssid ageLimit now frame.bssid items
  obtain ⟨own, unknown⟩ := found_findCssidItemForBssid ageLimit now frame.bssid items
  simp only [storeCssid]
  cases found : (findCssidItemForBssid ageLimit now frame.bssid items).found with
  | some split =>
    obtain ⟨item, behind⟩ := split
    left
    refine ⟨_, item, behind, ?_, own _ found, before, ?_, rfl⟩
    · rw [Located.items, found] at kept
      exact kept
    · have known : ¬ ∀ item ∈ items, item.bssid ≠ frame.bssid := by
        rw [← unknown, found]
        exact Option.some_ne_none _
      simp only [not_forall, ne_eq, not_not] at known
      obtain ⟨old, mem, same⟩ := known
      exact List.any_eq_true.mpr ⟨old, mem, decide_eq_true same⟩
  | none =>
    right
    refine ⟨_, ?_, before, ?_, rfl⟩
    · rw [Located.items, found] at kept
      exact kept
    · refine List.any_eq_false.mpr ?_
      intro item mem
      rw [decide_eq_true_eq]
      exact unknown.mp found item mem

variable {items : List CssidItem}

theorem oneEach_storeCssid (oneEach : OneEach items) (now : BitVec 64) (memory : Memory)
    (frame : StoredFrame) :
    OneEach (storeCssid ageLimit now memory frame items).1 := by
  rcases storeCssid_cases ageLimit now memory frame items with
    ⟨before, item, behind, kept, own, -, -, stored⟩ | ⟨kept, left, others, -, stored⟩
  · have still := kept.oneEach oneEach
    rw [stored]
    rw [OneEach, List.map_append, List.map_cons] at still ⊢
    rw [own] at still
    exact still
  · rw [stored, addItem]
    split
    · exact left.oneEach oneEach
    · split
      · exact left.oneEach oneEach
      · rw [OneEach, List.map_cons, List.nodup_cons]
        refine ⟨?_, left.oneEach oneEach⟩
        intro mem
        obtain ⟨item, there, same⟩ := List.mem_map.mp mem
        exact others item there same

theorem stored_of_granted (itemGranted : memory.itemGranted = true)
    (iesGranted : memory.iesGranted = true) (now : BitVec 64) (frame : StoredFrame)
    (items : List CssidItem) :
    ∃ before item behind,
      (storeCssid ageLimit now memory frame items).1 = before ++ item :: behind ∧
        (∀ other ∈ before, other.bssid ≠ frame.bssid) ∧ item.bssid = frame.bssid ∧
        item.ies = frame.storedIes items := by
  rcases storeCssid_cases ageLimit now memory frame items with
    ⟨before, item, behind, -, own, others, known, stored⟩ | ⟨kept, -, -, unknown, stored⟩
  · refine ⟨before, (item.update memory frame).1, behind, ?_, others, rfl, ?_⟩
    · rw [stored]
    · rw [CssidItem.ies_update, iesGranted, StoredFrame.storedIes, known]
      rfl
  · refine ⟨[], frame.item now memory, kept, ?_, ?_, rfl, ?_⟩
    · rw [stored, addItem, itemGranted, iesGranted]
      rfl
    · intro other mem
      cases mem
    · rw [StoredFrame.storedIes, unknown]
      rfl

/-! ## Readings -/

/-- The elements that are read have the lengths that everyone relies on: that of the
operation reaches to the channel, and that of the capabilities to the octet that says
whether pages are sliced, without being longer than the structure for it. -/
structure WellFormedIes (ies : List (BitVec 8)) : Prop where
  operation : ∀ op ∈ findIe wlanEidS1gOperation ies, 4 ≤ op.data.val.length
  slicing : ∀ caps ∈ findIe wlanEidS1gCapabilities ies, 7 ≤ caps.data.val.length
  capabilities :
    ∀ caps ∈ findIe wlanEidS1gCapabilities ies, caps.data.val.length ≤ s1gCapLength

/-- The elements of every entry are well formed. -/
def Sound (items : List CssidItem) : Prop := ∀ item ∈ items, WellFormedIes item.ies

theorem Kept.sound (kept : Kept before after) (sound : Sound before) :
    Sound after := by
  intro item mem
  obtain ⟨old, there, same⟩ := kept.ies_mem mem
  rw [← same]
  exact sound old there

theorem within_element_iff (element : Element) (reach : Nat) :
    (Access.mk element.octets.length reach).Within ↔ reach ≤ element.data.val.length + 2 :=
  Iff.rfl

variable (channelMap : ChannelMap)

variable {α : Type} {eid : Eid} {access : Access}

theorem mem_readElement {read : Element → List Access × α}
    (mem : access ∈ (readElement eid read now bssid items).2.1) :
    ∃ item ∈ items, ∃ element ∈ findIe eid item.ies, access ∈ (read element).1 := by
  simp only [readElement] at mem
  split at mem
  · next split' behind found =>
      split at mem
      · next element search =>
          obtain ⟨item, there, same⟩ := found_findBssid now bssid items _ found
          refine ⟨item, there, element, ?_, mem⟩
          rw [same]
          exact search
      · cases mem
  · cases mem

theorem kept_readElement (eid : Eid) (read : Element → List Access × α) (now : BitVec 64)
    (bssid : BitVec 48) (items : List CssidItem) :
    Kept items (readElement eid read now bssid items).1 := by
  simp only [readElement]
  split
  · split
    · exact kept_findBssid now bssid items
    · exact kept_findBssid now bssid items
  · exact kept_findBssid now bssid items

theorem mem_findBssidOnChannel
    (mem : access ∈ (findBssidOnChannel channelMap behind opChanFreqHz items).1) :
    ∃ item ∈ items, ∃ op ∈ findIe wlanEidS1gOperation item.ies,
      access = ⟨op.octets.length, 5 + 1⟩ := by
  induction items with
  | nil => cases mem
  | cons item rest ih =>
    have later : access ∈ (findBssidOnChannel channelMap behind opChanFreqHz rest).1 →
        ∃ other ∈ item :: rest, ∃ op ∈ findIe wlanEidS1gOperation other.ies,
          access = ⟨op.octets.length, 5 + 1⟩ := by
      intro mem
      obtain ⟨other, there, found⟩ := ih mem
      exact ⟨other, List.mem_cons_of_mem _ there, found⟩
    cases search : findIe wlanEidS1gOperation item.ies with
    | none =>
      simp only [findBssidOnChannel, search] at mem
      exact later mem
    | some op =>
      simp only [findBssidOnChannel, search] at mem
      split at mem
      · exact ⟨item, List.mem_cons_self, op, search, List.mem_singleton.mp mem⟩
      · rcases List.mem_cons.mp mem with rfl | mem
        · exact ⟨item, List.mem_cons_self, op, search, rfl⟩
        · exact later mem

theorem Reading.kept (now : BitVec 64) (items : List CssidItem) (reading : Reading) :
    Kept items (reading.run channelMap now items).1 := by
  cases reading with
  | channelInfo bssid behind => exact kept_readElement _ _ now bssid items
  | bssidOnChannel opChanFreqHz behind => exact Kept.refl items
  | s1gCaps bssid => exact kept_readElement _ _ now bssid items
  | pageSlicing bssid behind => exact kept_readElement _ _ now bssid items

theorem Reading.within (sound : Sound items) (now : BitVec 64) (reading : Reading) :
    ∀ access ∈ (reading.run channelMap now items).2, access.Within := by
  intro access mem
  cases reading with
  | channelInfo bssid behind =>
    obtain ⟨item, there, op, search, made⟩ := mem_readElement mem
    rw [List.mem_singleton.mp made, within_element_iff]
    have long := (sound item there).operation op search
    omega
  | bssidOnChannel opChanFreqHz behind =>
    obtain ⟨item, there, op, search, rfl⟩ := mem_findBssidOnChannel channelMap mem
    rw [within_element_iff]
    have long := (sound item there).operation op search
    omega
  | s1gCaps bssid =>
    obtain ⟨item, there, caps, search, made⟩ := mem_readElement mem
    rcases List.mem_pair.mp made with rfl | rfl
    · exact (sound item there).capabilities caps search
    · rw [within_element_iff]
      omega
  | pageSlicing bssid behind =>
    obtain ⟨item, there, caps, search, made⟩ := mem_readElement mem
    rw [List.mem_singleton.mp made, within_element_iff]
    have long := (sound item there).slicing caps search
    omega

theorem readElement_append (others : ∀ other ∈ before, other.bssid ≠ item.bssid)
    (search : findIe eid item.ies = some element) (read : Element → List Access × α)
    (now : BitVec 64) :
    (readElement eid read now item.bssid (before ++ item :: behind)).2.1 = (read element).1 := by
  have found := findBssid_append others rfl now behind
  simp only [readElement, found, search]

/-! ## Frames that fit -/

/-- The name of a frame that is not known yet fits the field for it, and the elements that
are to be stored are well formed. -/
structure StoredFrame.Fits (frame : StoredFrame) (items : List CssidItem) : Prop where
  name : frame.isKnown items = false → frame.networkId.length ≤ maxSsidLen
  elements : WellFormedIes (frame.storedIes items)

/-- A frame is stored and then read within the fields and elements, whenever that is done
and whatever memory there is. -/
def StoresWithin (items : List CssidItem) (frame : StoredFrame) : Prop :=
  ∀ now memory,
    (∀ access ∈ (storeCssid ageLimit now memory frame items).2, access.Within) ∧
      ∀ later (reading : Reading),
        ∀ access ∈
            (reading.run channelMap later (storeCssid ageLimit now memory frame items).1).2,
          access.Within

variable {frame : StoredFrame}

theorem sound_storeCssid (sound : Sound items) (fits : frame.Fits items) (now : BitVec 64)
    (memory : Memory) :
    Sound (storeCssid ageLimit now memory frame items).1 := by
  have elements := fits.elements
  rcases storeCssid_cases ageLimit now memory frame items with
    ⟨before, item, behind, kept, -, -, known, stored⟩ | ⟨kept, left, -, unknown, stored⟩
  · have still := kept.sound sound
    rw [StoredFrame.storedIes, known] at elements
    rw [stored]
    intro other mem
    rcases List.mem_append.mp mem with mem | mem
    · exact still other (List.mem_append_left _ mem)
    · rcases List.mem_cons.mp mem with rfl | mem
      · rw [CssidItem.ies_update]
        split
        · exact elements
        · exact still item (List.mem_append_right _ List.mem_cons_self)
      · exact still other (List.mem_append_right _ (List.mem_cons_of_mem _ mem))
  · have still := left.sound sound
    rw [StoredFrame.storedIes, unknown] at elements
    rw [stored, addItem]
    split
    · exact still
    · split
      · exact still
      · intro other mem
        rcases List.mem_cons.mp mem with rfl | mem
        · exact elements
        · exact still other mem

theorem within_storeCssid (name : frame.isKnown items = false → frame.networkId.length ≤ maxSsidLen)
    (now : BitVec 64) (memory : Memory) :
    ∀ access ∈ (storeCssid ageLimit now memory frame items).2, access.Within := by
  rcases storeCssid_cases ageLimit now memory frame items with
    ⟨before, item, behind, -, -, -, -, stored⟩ | ⟨kept, -, -, unknown, stored⟩
  · intro access mem
    rw [stored] at mem
    simp only [CssidItem.update] at mem
    split at mem
    · rw [List.mem_singleton.mp mem, Access.Within, StoredFrame.length_updatedIes]
    · cases mem
  · intro access mem
    have short := name unknown
    rw [stored, addItem] at mem
    split at mem
    · cases mem
    · split at mem
      · rw [List.mem_singleton.mp mem]
        exact short
      · rcases List.mem_pair.mp mem with rfl | rfl
        · exact short
        · exact Nat.le_refl _

theorem storesWithin_iff_fits (sound : Sound items) (frame : StoredFrame) :
    StoresWithin ageLimit channelMap items frame ↔ frame.Fits items := by
  constructor
  · intro within
    obtain ⟨store, read⟩ := within 0 ⟨true, true, 0⟩
    refine ⟨?_, ?_⟩
    · intro unknown
      rcases storeCssid_cases ageLimit 0 ⟨true, true, 0⟩ frame items with
        ⟨before, item, behind, -, -, -, known, -⟩ | ⟨kept, -, -, -, stored⟩
      · rw [unknown] at known
        cases known
      · rw [stored] at store
        exact store ⟨maxSsidLen, frame.networkId.length⟩ List.mem_cons_self
    · obtain ⟨before, item, behind, stored, others, own, ies⟩ :=
        @stored_of_granted ageLimit ⟨true, true, 0⟩ rfl rfl 0 frame items
      rw [← own] at others
      rw [← ies]
      refine ⟨?_, ?_, ?_⟩
      · intro op search
        have reached := read 0 (.channelInfo item.bssid fun _ => 0)
        rw [stored] at reached
        simp only [Reading.run, findChannelInfoForBssid,
          readElement_append others search] at reached
        have long := (within_element_iff op _).mp (reached _ List.mem_cons_self)
        omega
      · intro caps search
        have reached := read 0 (.pageSlicing item.bssid fun _ => 0)
        rw [stored] at reached
        simp only [Reading.run, isPageSlicingEnabledOnBss,
          readElement_append others search] at reached
        have long := (within_element_iff caps _).mp (reached _ List.mem_cons_self)
        omega
      · intro caps search
        have reached := read 0 (.s1gCaps item.bssid)
        rw [stored] at reached
        simp only [Reading.run, findS1gCapsForBssid,
          readElement_append others search] at reached
        exact reached ⟨s1gCapLength, caps.data.val.length⟩ List.mem_cons_self
  · intro fits now memory
    refine ⟨within_storeCssid ageLimit fits.name now memory, ?_⟩
    intro later reading
    exact Reading.within channelMap (sound_storeCssid ageLimit sound fits now memory) later
      reading

/-! ## Runs -/

/-- A frame that is stored fits, at the time. -/
def Operation.Fits (items : List CssidItem) : Operation → Prop
  | .store frame _ => frame.Fits items
  | _ => True

/-- Every frame that is stored fits. -/
def AllFit (items : List CssidItem) : List (BitVec 64 × Operation) → Prop
  | [] => True
  | (now, operation) :: rest =>
    operation.Fits items ∧ AllFit (operation.run ageLimit channelMap now items).1 rest

variable {operation : Operation}

theorem Operation.kept (other : ∀ frame memory, operation ≠ .store frame memory) (now : BitVec 64)
    (items : List CssidItem) :
    Kept items (operation.run ageLimit channelMap now items).1 := by
  cases operation with
  | store frame memory => exact absurd rfl (other frame memory)
  | read reading => exact reading.kept channelMap now items
  | meshPeerKnown bssid => exact kept_findCssidItemForBssid ageLimit now bssid items
  | bssBw bssid => exact kept_findBssid now bssid items
  | beacon bssid fcBssBw beaconInt =>
    have kept := kept_findBssid now bssid items
    simp only [Operation.run, setBeacon]
    rw [Located.items] at kept
    split
    · next item behind found =>
        rw [found, Kept, List.map_append] at kept
        rw [Kept, List.map_append]
        exact kept
    · next found =>
        rw [found] at kept
        exact kept
  | meshNeighbors beaconInt => exact List.filter_sublist.map _
  | delMeshPeer bssid => exact List.eraseP_sublist.map _
  | clearList => exact List.nil_sublist _

theorem Operation.oneEach (oneEach : OneEach items) (now : BitVec 64) (operation : Operation) :
    OneEach (operation.run ageLimit channelMap now items).1 := by
  by_cases stores : ∃ frame memory, operation = .store frame memory
  · obtain ⟨frame, memory, rfl⟩ := stores
    exact oneEach_storeCssid ageLimit oneEach now memory frame
  · have other : ∀ frame memory, operation ≠ .store frame memory :=
      fun frame memory same => stores ⟨frame, memory, same⟩
    exact (Operation.kept ageLimit channelMap other now items).oneEach oneEach

theorem Operation.within (sound : Sound items) (fits : operation.Fits items) (now : BitVec 64) :
    Sound (operation.run ageLimit channelMap now items).1 ∧
      ∀ access ∈ (operation.run ageLimit channelMap now items).2, access.Within := by
  by_cases stores : ∃ frame memory, operation = .store frame memory
  · obtain ⟨frame, memory, rfl⟩ := stores
    have stored : frame.Fits items := fits
    exact ⟨sound_storeCssid ageLimit sound stored now memory,
      within_storeCssid ageLimit stored.name now memory⟩
  · have other : ∀ frame memory, operation ≠ .store frame memory :=
      fun frame memory same => stores ⟨frame, memory, same⟩
    refine ⟨(Operation.kept ageLimit channelMap other now items).sound sound, ?_⟩
    intro access mem
    cases operation with
    | store frame memory => exact absurd rfl (other frame memory)
    | read reading => exact reading.within channelMap sound now access mem
    | meshPeerKnown bssid => cases mem
    | bssBw bssid => cases mem
    | beacon bssid fcBssBw beaconInt => cases mem
    | meshNeighbors beaconInt => cases mem
    | delMeshPeer bssid => cases mem
    | clearList => cases mem

theorem oneEach_runAll (operations : List (BitVec 64 × Operation)) (oneEach : OneEach items) :
    OneEach (runAll ageLimit channelMap items operations).1 := by
  induction operations generalizing items with
  | nil => exact oneEach
  | cons timed rest ih =>
    exact ih (Operation.oneEach ageLimit channelMap oneEach timed.1 timed.2)

theorem within_runAll (operations : List (BitVec 64 × Operation)) (sound : Sound items)
    (fit : AllFit ageLimit channelMap items operations) :
    Sound (runAll ageLimit channelMap items operations).1 ∧
      ∀ access ∈ (runAll ageLimit channelMap items operations).2, access.Within := by
  induction operations generalizing items with
  | nil =>
    refine ⟨sound, ?_⟩
    intro access mem
    cases mem
  | cons timed rest ih =>
    obtain ⟨first, later⟩ := fit
    obtain ⟨after, within⟩ := Operation.within ageLimit channelMap sound first timed.1
    obtain ⟨last, others⟩ := ih after later
    refine ⟨last, ?_⟩
    intro access mem
    rcases List.mem_append.mp mem with mem | mem
    · exact within access mem
    · exact others access mem

/-- However the list is used, there is at most one entry of each network.  While the frames
that are stored fit, all accesses stay within the fields and elements, and the next frame
is stored and read within them if and only if it fits. -/
theorem storesWithin_iff (operations : List (BitVec 64 × Operation)) :
    OneEach (runAll ageLimit channelMap [] operations).1 ∧
      (AllFit ageLimit channelMap [] operations →
        (∀ access ∈ (runAll ageLimit channelMap [] operations).2, access.Within) ∧
          ∀ frame : StoredFrame,
            StoresWithin ageLimit channelMap (runAll ageLimit channelMap [] operations).1 frame ↔
              frame.Fits (runAll ageLimit channelMap [] operations).1) := by
  refine ⟨oneEach_runAll ageLimit channelMap operations List.nodup_nil, ?_⟩
  intro fit
  have empty : Sound [] := by
    intro item mem
    cases mem
  obtain ⟨sound, within⟩ := within_runAll ageLimit channelMap operations empty fit
  exact ⟨within, storesWithin_iff_fits ageLimit channelMap sound⟩

/-! ## Which elements are found -/

theorem content_storeCssid (now : BitVec 64) (memory : Memory) (frame : StoredFrame)
    (mem : item ∈ (storeCssid ageLimit now memory frame items).1)
    (other : item.bssid ≠ frame.bssid) : item.content ∈ items.map CssidItem.content := by
  rcases storeCssid_cases ageLimit now memory frame items with
    ⟨before, own, behind, kept, same, -, -, stored⟩ | ⟨left, kept, -, -, stored⟩
  · rw [stored] at mem
    apply kept.subset
    apply List.mem_map_of_mem
    rcases List.mem_append.mp mem with there | there
    · exact List.mem_append_left _ there
    · rcases List.mem_cons.mp there with rfl | there
      · exact absurd rfl other
      · exact List.mem_append_right _ (List.mem_cons_of_mem _ there)
  · rw [stored, addItem] at mem
    apply kept.subset
    apply List.mem_map_of_mem
    split at mem
    · exact mem
    · split at mem
      · exact mem
      · exact (List.mem_cons.mp mem).resolve_left fun same => other (congrArg _ same)

theorem content_runAll (operations : List (BitVec 64 × Operation))
    (others : ∀ timed ∈ operations, ∀ frame memory, timed.2 = .store frame memory →
      frame.bssid ≠ bssid)
    (mem : item ∈ (runAll ageLimit channelMap items operations).1) (own : item.bssid = bssid) :
    item.content ∈ items.map CssidItem.content := by
  induction operations generalizing items with
  | nil => exact List.mem_map_of_mem mem
  | cons timed rest ih =>
    obtain ⟨first, others⟩ := List.forall_mem_cons.mp others
    obtain ⟨middle, there, same⟩ := List.mem_map.mp (ih others mem)
    rw [← same]
    by_cases stores : ∃ frame memory, timed.2 = .store frame memory
    · obtain ⟨frame, memory, store⟩ := stores
      rw [store] at there
      have middleOwn : middle.bssid = bssid := (congrArg Prod.fst same).trans own
      exact content_storeCssid ageLimit timed.1 memory frame there
        fun equal => first frame memory store (equal.symm.trans middleOwn)
    · have kept := Operation.kept ageLimit channelMap
        (fun frame memory same => stores ⟨frame, memory, same⟩) timed.1 items
      exact kept.subset (List.mem_map_of_mem there)

/-- However the list was used before a frame is stored, and is used after it without a frame of
the same network, the entry of the network, while there is one, has the elements that were to be
stored. -/
theorem ies_of_latest (earlier later : List (BitVec 64 × Operation)) (now : BitVec 64)
    (memory : Memory) (frame : StoredFrame) (itemGranted : memory.itemGranted = true)
    (iesGranted : memory.iesGranted = true)
    (others : ∀ timed ∈ later, ∀ stored memory, timed.2 = .store stored memory →
      stored.bssid ≠ frame.bssid) :
    let items := (runAll ageLimit channelMap [] earlier).1
    ∀ item ∈ (runAll ageLimit channelMap (storeCssid ageLimit now memory frame items).1 later).1,
      item.bssid = frame.bssid → item.ies = frame.storedIes items := by
  intro items item mem own
  have once : OneEach items := oneEach_runAll ageLimit channelMap earlier List.nodup_nil
  have once := oneEach_storeCssid ageLimit once now memory frame
  obtain ⟨old, there, same⟩ := List.mem_map.mp
    (content_runAll ageLimit channelMap later others mem own)
  obtain ⟨before, stored, behind, split, -, storedOwn, ies⟩ :=
    stored_of_granted ageLimit itemGranted iesGranted now frame items
  have found : stored ∈ (storeCssid ageLimit now memory frame items).1 := by
    rw [split]
    exact List.mem_append_right _ List.mem_cons_self
  have oldOwn : old.bssid = stored.bssid :=
    ((congrArg Prod.fst same).trans own).trans storedOwn.symm
  obtain rfl := List.inj_on_of_nodup_map once there found oldOwn
  rw [← ies]
  exact (congrArg Prod.snd same).symm

end Operations

/-! ## Two probe responses -/

/-- A probe response with these elements. -/
def probeResponse (bssid : BitVec 48) (s1gIes : List (BitVec 8)) : StoredFrame where
  mask := Contents.empty.parse s1gIes
  capabInfo := 1
  s1gIes := s1gIes
  bssid := bssid
  vals := ⟨none, none, 0⟩

/-- Entries that last a minute of 250 jiffies a second. -/
def minuteLimit : Bool → BitVec 32 := fun _ => 60 * 250

/-- A region with one channel. -/
def oneChannelMap : ChannelMap where
  channelToFreqKhz := fun _ => 915000
  prim1mhzChanLocToIdx := fun _ _ _ _ _ => 0

/-- An element with so many octets of zeros. -/
def zeroElement (eid : Eid) (count : Nat) (fits : count < 256) : Element :=
  ⟨eid, ⟨List.replicate count 0, by rw [List.length_replicate]; exact fits⟩⟩

variable {eid : Eid} {count : Nat}

theorem parse_zeroElement (fits : count < 256) (other : eid ≠ wlanEidExtension) :
    parse (zeroElement eid count fits).octets = ([zeroElement eid count fits], .done) := by
  have plain : isFilsSession (BitVec.ofFin eid)
      ((zeroElement eid count fits).data.val ++ []) = false := by
    rw [isFilsSession, decide_eq_false other, Bool.false_and]
  have whole := parse_octets (zeroElement eid count fits) [] plain
  rw [List.append_nil] at whole
  rw [whole, parse]

theorem findIe_zeroElement (fits : count < 256) (sought : Eid) :
    findIe sought (zeroElement eid count fits).octets =
      if eid = sought then some (zeroElement eid count fits) else none := by
  have whole := walk_octets (zeroElement eid count fits) []
  rw [List.append_nil, walk] at whole
  rw [findIe, whole, List.find?_cons]
  by_cases same : eid = sought
  · rw [if_pos same]
    simp only [zeroElement, same, decide_true]
  · rw [if_neg same]
    simp only [zeroElement, same, decide_false, List.find?_nil]

theorem operationLength_lt : 6 < 256 := by decide

/-- A network with an element for its operation of six octets. -/
def operatingResponse : StoredFrame :=
  probeResponse 1 (zeroElement wlanEidS1gOperation 6 operationLength_lt).octets

theorem fits_operatingResponse : operatingResponse.Fits [] := by
  have ies : operatingResponse.storedIes [] =
      (zeroElement wlanEidS1gOperation 6 (by decide)).octets := rfl
  refine ⟨?_, ?_, ?_, ?_⟩
  · simp only [operatingResponse, probeResponse, StoredFrame.networkId, Contents.parse,
      parse_zeroElement (by decide : 6 < 256) (by decide : wlanEidS1gOperation ≠ _)]
    decide
  · intro op search
    rw [ies, findIe_zeroElement] at search
    obtain rfl := Option.some.inj search
    decide
  · intro caps search
    rw [ies, findIe_zeroElement] at search
    cases search
  · intro caps search
    rw [ies, findIe_zeroElement] at search
    cases search

theorem storesWithin_operating :
    ∀ access ∈ (runAll minuteLimit oneChannelMap []
        [(0, .store operatingResponse ⟨true, true, 0⟩),
          (1, .read (.channelInfo 1 fun _ => 0))]).2,
      access.Within := by
  apply ((storesWithin_iff minuteLimit oneChannelMap _).2 _).1
  exact ⟨fits_operatingResponse, trivial, trivial⟩

/-- A probe response whose network has a name of 33 octets is parsed to its end, and storing
it writes beyond the field for the name. -/
theorem not_storesWithin_longName :
    (parse (zeroElement wlanEidSsid 33 (by decide)).octets).2 = .done ∧
      ¬ StoresWithin minuteLimit oneChannelMap []
        (probeResponse 1 (zeroElement wlanEidSsid 33 (by decide)).octets) := by
  have parsed := parse_zeroElement (by decide : 33 < 256) (by decide : wlanEidSsid ≠ _)
  refine ⟨congrArg Prod.snd parsed, ?_⟩
  intro within
  have short := ((within 0 ⟨true, true, 0⟩).1) _ List.mem_cons_self
  simp only [Access.Within, probeResponse, StoredFrame.networkId, Contents.parse, parsed]
    at short
  revert short
  decide

/-- Between two networks, the first has its elements still. -/
theorem ies_of_latest_two :
    ∃ items, items = (runAll minuteLimit oneChannelMap
        (storeCssid minuteLimit 0 ⟨true, true, 0⟩ operatingResponse []).1
        [(1, .store (probeResponse 2 []) ⟨true, true, 0⟩), (2, .meshNeighbors 100)]).1 ∧
      ∀ item ∈ items,
        item.bssid = operatingResponse.bssid → item.ies = operatingResponse.storedIes [] := by
  refine ⟨_, rfl, ies_of_latest minuteLimit oneChannelMap [] _ 0 ⟨true, true, 0⟩
    operatingResponse rfl rfl ?_⟩
  intro timed mem stored memory same
  rcases List.mem_cons.mp mem with rfl | mem
  · cases same
    decide
  · obtain rfl := List.mem_singleton.mp mem
    cases same

end Cssid
end Morse
