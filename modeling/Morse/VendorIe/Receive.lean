import Morse.VendorIe.Filters
import Morse.S1g.BeaconFields

/-!
# Vendor elements of received frames

The elements of a received frame are searched for vendor elements, and user space is told of those
whose OUI is in the filter.  After an element the search goes on behind it, with the length of all
elements.
-/

namespace Morse
namespace VendorIe

open S1g

/-- A received frame, in front of whatever else is in memory.  Its length was in 16 bits of the
header from the chip. -/
structure RxFrame where
  memory : Nat → BitVec 8
  len : Nat
  fits : len < 2 ^ 16

/-- The frame control, without its version. -/
def RxFrame.frameControl (frame : RxFrame) : BitVec 16 := frame.memory 1 ++ frame.memory 0

/-- The type and subtype of a frame. -/
def RxFrame.stype (frame : RxFrame) : BitVec 16 := frame.frameControl &&& 0xFC

/-- The kind of a frame, and where `morse_vendor_ie_process_rx_mgmt` takes its elements to be. -/
def RxFrame.rxElements (frame : RxFrame) : Option (MgmtType × Nat) :=
  if frame.stype = 0x1C then
    some (.beacon, if frame.frameControl &&& fcNextTbtt ≠ 0 then 18 else 15)
  else if frame.stype = 0x40 then some (.probeReq, 24)
  else if frame.stype = 0x50 then some (.probeResp, 36)
  else if frame.stype = 0x00 ∨ frame.stype = 0x20 then some (.assocReq, 28)
  else if frame.stype = 0x10 ∨ frame.stype = 0x30 then some (.assocResp, 28)
  else none

/-- Where `morse_mac_get_ie_pos` finds the elements of such a frame: behind all optional fields of
a beacon, and behind the address that a reassociation request has. -/
def RxFrame.iesPos (frame : RxFrame) (offset : Nat) : Nat :=
  if frame.stype = 0x1C then
    15 + (if frame.frameControl &&& fcNextTbtt ≠ 0 then 3 else 0) +
      (if frame.frameControl &&& fcCompressSsid ≠ 0 then 4 else 0) +
      (if frame.frameControl &&& fcAno ≠ 0 then 1 else 0)
  else if frame.stype = 0x20 then 34
  else offset

/-- Where an element ends. -/
def elementEnd (memory : Nat → BitVec 8) (place : Nat) : Nat :=
  place + 2 + (memory (place + 1)).toNat

/-- The complete elements in front of an end. -/
def elements (memory : Nat → BitVec 8) (stop : Nat) : Nat → Nat → List Nat
  | 0, _ => []
  | fuel + 1, place =>
    if place + 2 ≤ stop ∧ elementEnd memory place ≤ stop then
      place :: elements memory stop fuel (elementEnd memory place)
    else []

/-- The complete elements of a region. -/
def elementsIn (memory : Nat → BitVec 8) (place length : Nat) : List Nat :=
  elements memory (place + length) length place

/-- The documented behaviour of `cfg80211_find_ie`, which may read all of the region. -/
def Finds (findIe : (Nat → BitVec 8) → Nat → Nat → Option Nat) : Prop :=
  ∀ memory place length, findIe memory place length =
    (elementsIn memory place length).find? fun element => decide (memory element = 221)

section Receive

variable (findIe : (Nat → BitVec 8) → Nat → Nat → Option Nat) (onVendorIeMatch : Nat → Int)
  (items : List FilterItem) (memory : Nat → BitVec 8)

/-- The OUI of a vendor element. -/
def ouiAt (vie : Nat) : BitVec 24 := memory (vie + 2) ++ memory (vie + 3) ++ memory (vie + 4)

/-- An item of the filter is for an element. -/
def Matches (type : MgmtType) (vie : Nat) (item : FilterItem) : Bool :=
  decide (item.oui = ouiAt memory vie ∧ item.mgmtTypeMask &&& type.flag ≠ 0)

/-- The regions that are read, and the elements for which the function is called. -/
structure RxScan where
  reads : List (Nat × Nat)
  calls : List Nat
  deriving DecidableEq

/-- The loop over the filter, with the calls and what the last one returns. -/
def notify (type : MgmtType) (vie : Nat) : List FilterItem → List Nat × Int
  | [] => ([], 0)
  | item :: rest =>
    if Matches memory type vie item then
      if onVendorIeMatch vie ≠ 0 then ([vie], onVendorIeMatch vie)
      else (vie :: (notify type vie rest).1, (notify type vie rest).2)
    else notify type vie rest

/-- `morse_vendor_ie_process_rx_ies`. -/
def processRxIes (type : MgmtType) (stop length : Nat) : Nat → Nat → Option RxScan
  | 0, _ => none
  | fuel + 1, pos =>
    if stop ≤ pos then some ⟨[], []⟩
    else
      match findIe memory pos length with
      | none => some ⟨[(pos, length)], []⟩
      | some vie =>
        let told :=
          if 4 ≤ (memory (vie + 1)).toNat then notify onVendorIeMatch memory type vie items
          else ([], 0)
        let rest :=
          if told.2 ≠ 0 then some ⟨[], []⟩
          else processRxIes type stop length fuel (elementEnd memory vie)
        rest.map fun rest =>
          ⟨(pos, length) :: (vie, elementEnd memory vie - vie) :: rest.reads,
            told.1 ++ rest.calls⟩

/-- `morse_vendor_ie_process_rx_mgmt`; the length of the elements is computed in 16 bits. -/
def processRxMgmt (frame : RxFrame) (fuel : Nat) : Option RxScan :=
  if items = [] then some ⟨[], []⟩
  else
    match frame.rxElements with
    | none => some ⟨[(0, 2)], []⟩
    | some (type, offset) =>
      let length := (frame.len + 2 ^ 16 - offset) % 2 ^ 16
      (processRxIes findIe onVendorIeMatch items frame.memory type (offset + length) length fuel
        offset).map fun scan => ⟨(0, 2) :: scan.reads, scan.calls⟩

/-- Elements up to the first one for which the function fails. -/
def untilError : List Nat → List Nat
  | [] => []
  | vie :: rest => if onVendorIeMatch vie ≠ 0 then [vie] else vie :: untilError rest

/-- A vendor element, with an OUI and a type, whose OUI is in the filter. -/
def Watched (type : MgmtType) (vie : Nat) : Bool :=
  decide (memory vie = 221) && decide (4 ≤ (memory (vie + 1)).toNat) &&
    items.any (Matches memory type vie)

/-- The watched elements of a frame from a place on. -/
def watchedFrom (frame : RxFrame) (type : MgmtType) (place : Nat) : List Nat :=
  untilError onVendorIeMatch ((elementsIn frame.memory place (frame.len - place)).filter
    (Watched items frame.memory type))

/-- The scan ends, reads the frame only, and reports each watched element of the frame. -/
def Reports (frame : RxFrame) : Prop :=
  ∃ fuel scan, processRxMgmt findIe onVendorIeMatch items frame fuel = some scan ∧
    (∀ read ∈ scan.reads, read.1 + read.2 ≤ frame.len) ∧
    scan.calls = match frame.rxElements with
      | none => []
      | some (type, offset) => watchedFrom onVendorIeMatch items frame type (frame.iesPos offset)

/-- There is no vendor element, or the first one ends the frame or is one for which the function
fails. -/
def LastVendor (frame : RxFrame) (type : MgmtType) (place : Nat) : Prop :=
  ∀ vie, ((elementsIn frame.memory place (frame.len - place)).find? fun element =>
      decide (frame.memory element = 221)) = some vie →
    elementEnd frame.memory vie = frame.len ∨
      Watched items frame.memory type vie = true ∧ onVendorIeMatch vie ≠ 0

/-- When vendor elements are reported as they should be. -/
def Reportable (frame : RxFrame) : Prop :=
  items ≠ [] → 2 ≤ frame.len ∧ ∀ type offset, frame.rxElements = some (type, offset) →
    offset ≤ frame.len ∧ LastVendor onVendorIeMatch items frame type offset ∧
      watchedFrom onVendorIeMatch items frame type (frame.iesPos offset) =
        watchedFrom onVendorIeMatch items frame type offset

end Receive

variable {findIe : (Nat → BitVec 8) → Nat → Nat → Option Nat} {onVendorIeMatch : Nat → Int}
  {items : List FilterItem} {memory : Nat → BitVec 8} {type : MgmtType}

theorem elements_split (split : elements memory stop fuel place = front ++ vie :: back) :
    place ≤ vie ∧ elementEnd memory vie ≤ stop ∧ (elementEnd memory vie = stop → back = []) := by
  induction fuel generalizing place front with
  | zero => cases front <;> cases split
  | succ fuel ih =>
    rw [elements] at split
    split at split
    case isFalse => cases front <;> cases split
    case isTrue whole =>
      cases front with
      | nil =>
        obtain ⟨rfl, rfl⟩ := List.cons.inj split
        refine ⟨Nat.le_refl _, whole.2, fun last => ?_⟩
        cases fuel with
        | zero => rfl
        | succ fuel => exact if_neg fun more => by omega
      | cons first front =>
        obtain ⟨-, rest⟩ := List.cons.inj split
        obtain ⟨after, within, last⟩ := ih rest
        refine ⟨?_, within, last⟩
        unfold elementEnd at after
        omega

theorem notify_eq (distinct : (items.map FilterItem.oui).Nodup) (vie : Nat) :
    notify onVendorIeMatch memory type vie items =
      if items.any (Matches memory type vie) then ([vie], onVendorIeMatch vie) else ([], 0) := by
  induction items with
  | nil => rfl
  | cons item rest ih =>
    rw [List.map_cons, List.nodup_cons] at distinct
    rw [notify, ih distinct.2, List.any_cons]
    cases same : Matches memory type vie item with
    | false => rw [if_neg Bool.false_ne_true, Bool.false_or]
    | true =>
      have others : rest.any (Matches memory type vie) = false := by
        rw [List.any_eq_false]
        intro other isIn also
        refine distinct.1 (List.mem_map.mpr ⟨other, isIn, ?_⟩)
        exact (of_decide_eq_true also).1.trans (of_decide_eq_true same).1.symm
      rw [if_pos rfl, others, Bool.or_false, if_neg Bool.false_ne_true, if_pos rfl]
      split
      · rfl
      case isFalse fine => rw [not_not.mp fine]

theorem told_eq (distinct : (items.map FilterItem.oui).Nodup) (vendor : memory vie = 221) :
    (if 4 ≤ (memory (vie + 1)).toNat then notify onVendorIeMatch memory type vie items
      else ([], 0)) =
      if Watched items memory type vie then ([vie], onVendorIeMatch vie) else ([], 0) := by
  rw [notify_eq distinct]
  simp only [Watched, vendor, decide_true, Bool.true_and, Bool.and_eq_true, decide_eq_true_eq]
  split <;> simp_all

theorem mem_reads_processRxIes
    (done : processRxIes findIe onVendorIeMatch items memory type stop length fuel pos = some scan)
    (more : pos < stop) :
    (pos, length) ∈ scan.reads := by
  cases fuel with
  | zero => cases done
  | succ fuel =>
    rw [processRxIes, if_neg (Nat.not_le.mpr more)] at done
    split at done
    · cases done
      exact List.mem_singleton_self _
    · obtain ⟨rest, -, rfl⟩ := Option.map_eq_some_iff.mp done
      exact List.mem_cons_self

theorem processRxIes_spec (finds : Finds findIe) (distinct : (items.map FilterItem.oui).Nodup)
    {frame : RxFrame} {place : Nat} (begins : place ≤ frame.len) :
    (LastVendor onVendorIeMatch items frame type place → ∃ scan,
      processRxIes findIe onVendorIeMatch items frame.memory type frame.len (frame.len - place) 2
        place = some scan) ∧
    ∀ fuel scan, processRxIes findIe onVendorIeMatch items frame.memory type frame.len
        (frame.len - place) fuel place = some scan →
      ((∀ read ∈ scan.reads, read.1 + read.2 ≤ frame.len) ↔
        LastVendor onVendorIeMatch items frame type place) ∧
      (LastVendor onVendorIeMatch items frame type place →
        scan.calls = watchedFrom onVendorIeMatch items frame type place) := by
  unfold LastVendor watchedFrom
  have search := finds frame.memory place (frame.len - place)
  cases found : (elementsIn frame.memory place (frame.len - place)).find? fun element =>
      decide (frame.memory element = 221) with
  | none =>
    have unwatched : (elementsIn frame.memory place (frame.len - place)).filter
        (Watched items frame.memory type) = [] := by
      rw [List.filter_eq_nil_iff]
      intro element isIn watched
      refine List.find?_eq_none.mp found element isIn ?_
      simp only [Watched, Bool.and_eq_true] at watched
      exact watched.1.1
    rw [found] at search
    rw [unwatched]
    have scans (fuel : Nat) : ∃ reads,
        processRxIes findIe onVendorIeMatch items frame.memory type frame.len
          (frame.len - place) (fuel + 1) place = some ⟨reads, []⟩ ∧
        ∀ read ∈ reads, read.1 + read.2 ≤ frame.len := by
      rw [processRxIes, search]
      split
      · exact ⟨[], rfl, by simp⟩
      · refine ⟨[(place, frame.len - place)], rfl, ?_⟩
        rw [List.forall_mem_singleton]
        omega
    refine ⟨fun _ => ?_, fun fuel scan done => ?_⟩
    · obtain ⟨reads, is, -⟩ := scans 1
      exact ⟨_, is⟩
    · cases fuel with
      | zero => cases done
      | succ fuel =>
        obtain ⟨reads, is, inside⟩ := scans fuel
        obtain rfl := Option.some.inj (is.symm.trans done)
        refine ⟨iff_of_true inside ?_, fun _ => rfl⟩
        intro vie some
        cases some
  | some vie =>
    obtain ⟨isVendor, front, back, split, others⟩ := List.find?_eq_some_iff_append.mp found
    obtain ⟨after, within, last⟩ := elements_split split
    rw [Nat.add_sub_cancel' begins] at within last
    have vendor := of_decide_eq_true isVendor
    have unwatched : front.filter (Watched items frame.memory type) = [] := by
      rw [List.filter_eq_nil_iff]
      intro element isIn watched
      have other := others element isIn
      simp only [Watched, Bool.and_eq_true] at watched
      rw [watched.1.1] at other
      cases other
    have long : vie + 2 ≤ elementEnd frame.memory vie := Nat.le_add_right _ _
    rw [found] at search
    generalize isTold : (if Watched items frame.memory type vie then ([vie], onVendorIeMatch vie)
      else ([], 0)) = told
    have turn (fuel : Nat) : processRxIes findIe onVendorIeMatch items frame.memory type frame.len
        (frame.len - place) (fuel + 1) place =
        (if told.2 ≠ 0 then some ⟨[], []⟩
          else processRxIes findIe onVendorIeMatch items frame.memory type frame.len
            (frame.len - place) fuel (elementEnd frame.memory vie)).map fun rest =>
          ⟨(place, frame.len - place) :: (vie, elementEnd frame.memory vie - vie) :: rest.reads,
            told.1 ++ rest.calls⟩ := by
      rw [processRxIes, if_neg (by omega), search]
      dsimp only
      rw [told_eq distinct vendor, isTold]
    have inside : ∀ read ∈ [(place, frame.len - place), (vie, elementEnd frame.memory vie - vie)],
        read.1 + read.2 ≤ frame.len := by
      simp only [List.forall_mem_cons, List.not_mem_nil, false_implies, implies_true, and_true]
      omega
    rw [split, List.filter_append, unwatched, List.nil_append, List.filter_cons]
    by_cases stops : told.2 ≠ 0
    · have fails : Watched items frame.memory type vie = true ∧ onVendorIeMatch vie ≠ 0 := by
        subst isTold
        split at stops
        case isTrue watched => exact ⟨watched, stops⟩
        · exact absurd rfl stops
      rw [if_pos fails.1] at isTold ⊢
      subst isTold
      have ends (fuel : Nat) := (turn fuel).trans (congrArg _ (if_pos stops))
      refine ⟨fun _ => ⟨_, ends 1⟩, fun fuel scan done => ?_⟩
      cases fuel with
      | zero => cases done
      | succ fuel =>
        obtain rfl := Option.some.inj ((ends fuel).symm.trans done)
        refine ⟨iff_of_true inside ?_, fun _ => ?_⟩
        · rintro _ ⟨⟩
          exact .inr fails
        · exact (if_pos stops).symm
    · have goesOn (fuel : Nat) := (turn fuel).trans (congrArg _ (if_neg stops))
      have allowed : ¬(Watched items frame.memory type vie = true ∧ onVendorIeMatch vie ≠ 0) := by
        rintro ⟨watched, fails⟩
        rw [if_pos watched] at isTold
        subst isTold
        exact stops fails
      by_cases ends : elementEnd frame.memory vie = frame.len
      · have atEnd (fuel : Nat) : processRxIes findIe onVendorIeMatch items frame.memory type
            frame.len (frame.len - place) (fuel + 1) (elementEnd frame.memory vie) =
            some ⟨[], []⟩ := by
          rw [processRxIes, if_pos (Nat.le_of_eq ends.symm)]
        refine ⟨fun _ => ⟨_, (goesOn 1).trans (congrArg _ (atEnd 0))⟩, fun fuel scan done => ?_⟩
        cases fuel with
        | zero => cases done
        | succ fuel =>
          rw [goesOn] at done
          cases fuel with
          | zero => cases done
          | succ fuel =>
            rw [atEnd] at done
            obtain rfl := Option.some.inj done
            refine ⟨iff_of_true inside ?_, fun _ => ?_⟩
            · rintro _ ⟨⟩
              exact .inl ends
            · rw [last ends]
              subst isTold
              split
              case isTrue watched =>
                rw [untilError, if_neg fun fails => allowed ⟨watched, fails⟩]
                rfl
              · rfl
      · have never : ¬∀ other, some vie = some other →
            elementEnd frame.memory other = frame.len ∨
              Watched items frame.memory type other = true ∧ onVendorIeMatch other ≠ 0 := by
          intro last
          exact (last vie rfl).elim ends allowed
        refine ⟨fun last => absurd last never, fun fuel scan done => ?_⟩
        refine ⟨iff_of_false (fun inside => ?_) never, fun last => absurd last never⟩
        cases fuel with
        | zero => cases done
        | succ fuel =>
          rw [goesOn] at done
          obtain ⟨rest, next, rfl⟩ := Option.map_eq_some_iff.mp done
          have again := mem_reads_processRxIes next (by omega)
          have beyond := inside _ (List.mem_cons_of_mem _ (List.mem_cons_of_mem _ again))
          omega

theorem watchedFrom_nil (frame : RxFrame) (place : Nat) :
    watchedFrom onVendorIeMatch [] frame type place = [] := by
  have none : (elementsIn frame.memory place (frame.len - place)).filter
      (Watched [] frame.memory type) = [] := by
    simp [Watched]
  rw [watchedFrom, none]
  rfl

theorem offset_le {frame : RxFrame} (is : frame.rxElements = some (type, offset)) :
    offset ≤ 36 := by
  have bound : ∀ found, frame.rxElements = some found → found.2 ≤ 36 := by
    unfold RxFrame.rxElements
    split
    · split <;> decide
    · repeat' split
      all_goals
        try decide
  exact bound _ is

/-- Vendor elements are reported as they should be exactly if there is no filter, or the frame has
its fixed fields, the elements found are those of the frame, and none of the first vendor
elements is followed by a search. -/
theorem reports_iff_reportable (finds : Finds findIe) (distinct : (items.map FilterItem.oui).Nodup)
    (frame : RxFrame) :
    Reports findIe onVendorIeMatch items frame ↔ Reportable onVendorIeMatch items frame := by
  unfold Reports Reportable processRxMgmt
  by_cases empty : items = []
  · subst empty
    refine iff_of_true ⟨0, ⟨[], []⟩, rfl, by simp, ?_⟩ fun absent => absurd rfl absent
    split
    · rfl
    · exact (watchedFrom_nil frame _).symm
  · simp only [ne_eq, empty, not_false_eq_true, true_implies]
    cases kind : frame.rxElements with
    | none =>
      constructor
      · rintro ⟨fuel, scan, done, inside, -⟩
        obtain rfl := Option.some.inj done
        refine ⟨inside (0, 2) (List.mem_singleton_self _), fun _ _ is => ?_⟩
        cases is
      · rintro ⟨long, -⟩
        refine ⟨0, _, rfl, ?_, rfl⟩
        rw [List.forall_mem_singleton]
        exact long
    | some found =>
      obtain ⟨type, offset⟩ := found
      have small := offset_le kind
      have fits := frame.fits
      dsimp only
      by_cases begins : offset ≤ frame.len
      · have length : (frame.len + 2 ^ 16 - offset) % 2 ^ 16 = frame.len - offset := by omega
        obtain ⟨ends, spec⟩ := @processRxIes_spec findIe onVendorIeMatch items type finds distinct
          frame offset begins
        rw [length, Nat.add_sub_cancel' begins]
        constructor
        · rintro ⟨fuel, scan, done, inside, calls⟩
          obtain ⟨scanned, is, rfl⟩ := Option.map_eq_some_iff.mp done
          obtain ⟨long, inside⟩ := List.forall_mem_cons.mp inside
          have last := (spec fuel scanned is).1.mp inside
          refine ⟨long, fun _ _ same => ?_⟩
          obtain ⟨rfl, rfl⟩ := Prod.mk.inj (Option.some.inj same)
          exact ⟨begins, last, calls.symm.trans ((spec fuel scanned is).2 last)⟩
        · rintro ⟨long, reportable⟩
          obtain ⟨-, last, same⟩ := reportable type offset rfl
          obtain ⟨scan, is⟩ := ends last
          refine ⟨2, ⟨(0, 2) :: scan.reads, scan.calls⟩, by rw [is]; rfl, ?_, ?_⟩
          · exact List.forall_mem_cons.mpr ⟨long, (spec 2 scan is).1.mpr last⟩
          · rw [same]
            exact (spec 2 scan is).2 last
      · refine iff_of_false ?_ fun reportable => begins (reportable.2 type offset rfl).1
        rintro ⟨fuel, scan, done, inside, -⟩
        obtain ⟨scanned, is, rfl⟩ := Option.map_eq_some_iff.mp done
        have beyond := inside _ (List.mem_cons_of_mem _ (mem_reads_processRxIes is (by omega)))
        omega

/-- A function that behaves like `cfg80211_find_ie`. -/
def findVendorIe (memory : Nat → BitVec 8) (place length : Nat) : Option Nat :=
  (elementsIn memory place length).find? fun element => decide (memory element = 221)

/-- A probe request with the elements given. -/
def probeRequest (elements : List (BitVec 8)) (fits : elements.length < 2 ^ 15) : RxFrame where
  memory := fun place => (0x40 :: List.replicate 23 0 ++ elements).getD place 0
  len := 24 + elements.length
  fits := by omega

theorem reports_vendorLast :
    Reports findVendorIe (fun _ => 0) [⟨0x0CBF74, 2⟩]
      (probeRequest [0, 0, 221, 4, 0x0C, 0xBF, 0x74, 1] (by decide)) := by
  refine (reports_iff_reportable (fun _ _ _ => rfl) (by decide) _).mpr fun _ => ⟨by decide, ?_⟩
  intro type offset is
  obtain ⟨rfl, rfl⟩ :=
    Prod.mk.inj (Option.some.inj ((by decide : some (.probeReq, 24) = _).trans is))
  refine ⟨by decide, fun vie found => .inl ?_, rfl⟩
  obtain rfl := Option.some.inj ((by decide : some 26 = _).trans found)
  decide

/-- A vendor element in front of another element is followed by a search behind the frame. -/
theorem not_reports_vendorFirst :
    ¬Reports findVendorIe (fun _ => 0) [⟨0x0CBF74, 2⟩]
      (probeRequest [221, 4, 0x0C, 0xBF, 0x74, 1, 0, 0] (by decide)) := by
  rintro ⟨fuel, scan, done, inside, -⟩
  obtain ⟨scanned, is, rfl⟩ := Option.map_eq_some_iff.mp done
  have spec := @processRxIes_spec findVendorIe (fun _ => 0) [⟨0x0CBF74, 2⟩] .probeReq
    (fun _ _ _ => rfl) (by decide) (probeRequest [221, 4, 0x0C, 0xBF, 0x74, 1, 0, 0] (by decide)) 24
    (by decide)
  have last := (spec.2 fuel scanned is).1.mp (List.forall_mem_cons.mp inside).2
  obtain ends | ⟨-, fails⟩ := last 24 (by decide)
  · exact absurd ends (by decide)
  · exact fails rfl

end VendorIe
end Morse
