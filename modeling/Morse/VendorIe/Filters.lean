import Morse.VendorIe.Defs
import Morse.Lib.Bits

/-!
# The filter for vendor elements

An interface reports vendor elements of received frames whose OUI is in its filter, which user
space fills.  An OUI is watched for in some kinds of frames.  The firmware is told the OUIs that
are watched for in beacons, which may fail.
-/

namespace Morse
namespace VendorIe

open Lib

/-- `struct vendor_ie_oui_filter_list_item`.  There is one function that is called for all
matches. -/
structure FilterItem where
  oui : BitVec 24
  mgmtTypeMask : BitVec 16
  deriving DecidableEq

/-- The filter of an interface, and what the firmware was told last, if that is certain. -/
structure Filters where
  items : List FilterItem
  nOuiFilters : Nat
  told : Option (List (BitVec 24))
  deriving DecidableEq

/-- `MAX_NUM_OUI_FILTERS`, and `MORSE_CMD_MAX_OUI_FILTERS`. -/
def maxNumOuiFilters : Nat := 5

/-- The first item of an OUI is changed or removed. -/
def atOui (oui : BitVec 24) (change : FilterItem → Option FilterItem) :
    List FilterItem → List FilterItem
  | [] => []
  | item :: rest =>
    if item.oui = oui then (change item).toList ++ rest else item :: atOui oui change rest

/-- `try_remove_oui` for an item, which is removed if nothing is left of it. -/
def tryRemoveOui (mask : BitVec 16) (item : FilterItem) : Option FilterItem :=
  let item :=
    if item.mgmtTypeMask &&& mask ≠ 0 then
      { item with mgmtTypeMask := item.mgmtTypeMask &&& ~~~mask }
    else item
  if item.mgmtTypeMask = 0 then none else some item

/-- With each item that is removed the number of items goes down, unless it is 0. -/
def Filters.left (filters : Filters) (items : List FilterItem) : Filters :=
  { filters with
    items := items
    nOuiFilters := filters.nOuiFilters - (filters.items.length - items.length) }

/-- The OUIs that are watched for in beacons. -/
def Filters.beaconOuis (filters : Filters) : List (BitVec 24) :=
  (filters.items.filter fun item =>
    decide (item.mgmtTypeMask &&& MgmtType.beacon.flag ≠ 0)).map FilterItem.oui

/-- `morse_cmd_update_beacon_vendor_ie_oui_filter` with what `morse_cmd_tx` returns. -/
def updateBeaconFilter (status : Int) (filters : Filters) : Filters :=
  { filters with
    told := if status = 0 then some (filters.beaconOuis.take maxNumOuiFilters) else none }

/-- The end of `morse_vendor_ie_add_oui_to_filter` when there was no error. -/
def tellBeacons (status : Int) (mask : BitVec 16) (oui : BitVec 24) (filters : Filters) :
    Filters × Int :=
  if mask &&& MgmtType.beacon.flag = 0 then (filters, 0)
  else
    let filters := updateBeaconFilter status filters
    if status = 0 then (filters, 0)
    else (filters.left (atOui oui (tryRemoveOui mask) filters.items), status)

/-- `morse_vendor_ie_add_oui_to_filter`. -/
def addOuiToFilter
    (alloc : Bool)
    (status : Int)
    (mask : BitVec 16)
    (oui : BitVec 24)
    (filters : Filters) :
    Filters × Int :=
  match filters.items.find? fun item => decide (item.oui = oui) with
  | none =>
    if maxNumOuiFilters ≤ filters.nOuiFilters then (filters, -28)
    else if !alloc then (filters, -12)
    else
      tellBeacons status mask oui { filters with
        items := filters.items ++ [⟨oui, 0 ||| mask⟩]
        nOuiFilters := (filters.nOuiFilters + 1) % 2 ^ 8 }
  | some item =>
    let merged := { filters with
      items := atOui oui (fun item =>
        some { item with mgmtTypeMask := item.mgmtTypeMask ||| mask }) filters.items }
    if item.mgmtTypeMask &&& mask ≠ 0 then (merged, -17)
    else tellBeacons status mask oui merged

/-- `morse_vendor_ie_clear_oui_filter`. -/
def clearOuiFilter (status : Int) (mask : BitVec 16) (filters : Filters) : Filters × Int :=
  let cleared := filters.left (filters.items.filterMap (tryRemoveOui mask))
  if filters.items ≠ [] ∧ mask &&& MgmtType.beacon.flag ≠ 0 then
    (updateBeaconFilter status cleared, status)
  else (cleared, 0)

/-- The commands for the filter, and whether there is memory and what the firmware answers. -/
inductive FilterCommand
  | addFilter (mask dataSize : BitVec 16) (oui : BitVec 24) (alloc : Bool) (status : Int)
  | clearFilters (mask : BitVec 16) (status : Int)
  deriving DecidableEq

/-- The masks that `morse_vendor_ie_handle_config_cmd` supports. -/
def Supported (mask : BitVec 16) : Prop := ¬(mask = 0 ∨ mask &&& ~~~0b11111 ≠ 0)

instance (mask : BitVec 16) : Decidable (Supported mask) := inferInstanceAs (Decidable ¬_)

/-- `morse_vendor_ie_handle_config_cmd` for the filter. -/
def handleFilterCmd (filters : Filters) : FilterCommand → Filters × Int
  | .addFilter mask dataSize oui alloc status =>
    if ¬Supported mask then (filters, -524)
    else if dataSize ≠ 3 then (filters, -22)
    else addOuiToFilter alloc status mask oui filters
  | .clearFilters mask status =>
    if ¬Supported mask then (filters, -524) else clearOuiFilter status mask filters

/-- A command is handled. -/
def filterStep (filters : Filters) (command : FilterCommand) : Option Filters :=
  some (handleFilterCmd filters command).1

/-- The number of items is right and limited, OUIs differ, and no item is without frames. -/
structure Filters.Kept (filters : Filters) : Prop where
  count : filters.nOuiFilters = filters.items.length
  limit : filters.items.length ≤ maxNumOuiFilters
  distinct : (filters.items.map FilterItem.oui).Nodup
  nonzero : ∀ item ∈ filters.items, item.mgmtTypeMask ≠ 0

/-- An OUI is watched for in a kind of frames. -/
def Filters.Watches (filters : Filters) (oui : BitVec 24) (kind : Nat) : Prop :=
  ∃ item ∈ filters.items, item.oui = oui ∧ item.mgmtTypeMask.getLsbD kind = true

/-- An OUI is added or else nothing changes, and the firmware is told if it is for beacons. -/
def AddsAtomically
    (filters : Filters)
    (mask dataSize : BitVec 16)
    (oui : BitVec 24)
    (alloc : Bool)
    (status : Int) :
    Prop :=
  let done := handleFilterCmd filters (.addFilter mask dataSize oui alloc status)
  (done.2 ≠ 0 → ∀ watched kind, done.1.Watches watched kind ↔ filters.Watches watched kind) ∧
    (done.2 = 0 → mask &&& MgmtType.beacon.flag ≠ 0 → done.1.told = some done.1.beaconOuis)

/-- An OUI is there already for some of the frames, but not for all of them. -/
def Filters.Overlaps (filters : Filters) (mask : BitVec 16) (oui : BitVec 24) : Prop :=
  ∃ item ∈ filters.items, item.oui = oui ∧ item.mgmtTypeMask &&& mask ≠ 0 ∧
    mask &&& ~~~item.mgmtTypeMask ≠ 0

/-! ## Items -/

variable {item : FilterItem}

theorem atOui_append (change : FilterItem → Option FilterItem)
    (apart : ∀ other ∈ front, other.oui ≠ item.oui) (back : List FilterItem) :
    atOui item.oui change (front ++ item :: back) = front ++ ((change item).toList ++ back) := by
  induction front with
  | nil => exact if_pos rfl
  | cons other rest ih =>
    obtain ⟨differs, others⟩ := List.forall_mem_cons.mp apart
    rw [List.cons_append, atOui, if_neg differs, ih others]
    rfl

theorem tryRemoveOui_merged {mask present : BitVec 16} (given : mask ≠ 0)
    (apart : present &&& mask = 0) :
    tryRemoveOui mask ⟨oui, present ||| mask⟩ =
      if present = 0 then none else some ⟨oui, present⟩ := by
  have taken : (present ||| mask) &&& mask ≠ 0 := fun clear =>
    given (by rw [← BitVec.and_self (x := mask), ((or_and_eq_zero_iff _ _ _).mp clear).2])
  have left : (present ||| mask) &&& ~~~mask = present := by
    ext bit inside
    have clear := congrArg (fun vector => vector[bit]) apart
    revert clear
    simp only [BitVec.getElem_and, BitVec.getElem_or, BitVec.getElem_not]
    cases present[bit] <;> cases mask[bit] <;> simp
  simp only [tryRemoveOui, if_pos taken, left]

/-! ## Commands -/

variable {filters : Filters} {front back : List FilterItem} {mask : BitVec 16} {oui : BitVec 24}

theorem Filters.Kept.unique (kept : filters.Kept) (isIn : item ∈ filters.items)
    (also : other ∈ filters.items) (same : item.oui = other.oui) :
    item = other :=
  List.inj_on_of_nodup_map kept.distinct isIn also same

theorem Filters.Kept.replace (kept : filters.Kept) (items : filters.items = front ++ item :: back)
    (present : merged ≠ 0) :
    Filters.Kept { filters with items := front ++ ⟨item.oui, merged⟩ :: back } := by
  obtain ⟨count, limit, distinct, nonzero⟩ := kept
  rw [items] at count limit distinct nonzero
  rw [List.map_append] at distinct
  refine ⟨by simpa using count, by simpa using limit, ?_, ?_⟩
  · rw [List.map_append]
    exact distinct
  · simp only [List.forall_mem_append, List.forall_mem_cons] at nonzero ⊢
    exact ⟨nonzero.1, present, nonzero.2.2⟩

theorem Filters.Kept.append (kept : filters.Kept) (fresh : ∀ item ∈ filters.items, item.oui ≠ oui)
    (room : filters.nOuiFilters < maxNumOuiFilters) (present : mask ≠ 0) :
    Filters.Kept { filters with
      items := filters.items ++ [⟨oui, mask⟩]
      nOuiFilters := (filters.nOuiFilters + 1) % 2 ^ 8 } := by
  obtain ⟨count, limit, distinct, nonzero⟩ := kept
  unfold maxNumOuiFilters at limit room
  refine ⟨?_, ?_, ?_, ?_⟩
  · simp only [List.length_append, List.length_singleton]
    omega
  · simp only [List.length_append, List.length_singleton, maxNumOuiFilters]
    omega
  · rw [List.map_append, List.nodup_append]
    refine ⟨distinct, List.nodup_singleton _, ?_⟩
    simpa using fresh
  · rw [List.forall_mem_append]
    exact ⟨nonzero, List.forall_mem_singleton.mpr present⟩

theorem Filters.Kept.clear (kept : filters.Kept) (mask : BitVec 16) :
    (filters.left (filters.items.filterMap (tryRemoveOui mask))).Kept := by
  obtain ⟨count, limit, distinct, nonzero⟩ := kept
  have fewer := List.length_filterMap_le (tryRemoveOui mask) filters.items
  have removes {item after : FilterItem} (left : tryRemoveOui mask item = some after) :
      after.oui = item.oui ∧ after.mgmtTypeMask ≠ 0 := by
    obtain ⟨present, is⟩ := Option.ite_none_left_eq_some.mp left
    obtain rfl := Option.some.inj is
    refine ⟨?_, present⟩
    split
    · rfl
    · rfl
  refine ⟨?_, fewer.trans limit, ?_, ?_⟩
  · dsimp only [Filters.left]
    omega
  · rw [List.Nodup, List.pairwise_map] at distinct ⊢
    refine distinct.filterMap _ fun item other differ after left another next => ?_
    rw [(removes left).1, (removes next).1]
    exact differ
  · intro after isIn
    obtain ⟨item, -, left⟩ := List.mem_filterMap.mp isIn
    exact (removes left).2

theorem tellBeacons_spec {before : Filters} (status : Int) (kept : filters.Kept)
    (items : filters.items = front ++ ⟨oui, present ||| mask⟩ :: back)
    (apart : ∀ other ∈ front, other.oui ≠ oui)
    (was : before.items = front ++ ((tryRemoveOui mask ⟨oui, present ||| mask⟩).toList ++ back))
    (count : before.nOuiFilters = before.items.length) :
    let done := tellBeacons status mask oui filters
    (done.2 ≠ 0 ∧ done.1.items = before.items ∧ done.1.nOuiFilters = before.nOuiFilters) ∨
      done.2 = 0 ∧ done.1.Kept ∧
        (mask &&& MgmtType.beacon.flag ≠ 0 → done.1.told = some done.1.beaconOuis) := by
  unfold tellBeacons
  split
  case isTrue other => exact .inr ⟨rfl, kept, absurd other⟩
  · split
    case isTrue sent =>
      refine .inr ⟨rfl, ⟨kept.count, kept.limit, kept.distinct, kept.nonzero⟩, fun _ => ?_⟩
      have fits : filters.beaconOuis.length ≤ maxNumOuiFilters := by
        rw [Filters.beaconOuis, List.length_map]
        exact (List.length_filter_le _ _).trans kept.limit
      rw [updateBeaconFilter, if_pos sent, List.take_of_length_le fits]
      rfl
    case isFalse failed =>
      have again : atOui oui (tryRemoveOui mask) filters.items = before.items := by
        rw [items, was]
        exact @atOui_append ⟨oui, present ||| mask⟩ _ _ apart back
      refine .inl ⟨failed, again, ?_⟩
      have most : before.items.length ≤ filters.items.length := by
        rw [items, was]
        cases tryRemoveOui mask ⟨oui, present ||| mask⟩ <;> simp
      have counted := kept.count
      simp only [Filters.left, updateBeaconFilter, again]
      omega

theorem addOuiToFilter_spec (alloc : Bool) (status : Int) (oui : BitVec 24) (kept : filters.Kept)
    (given : mask ≠ 0) :
    let done := addOuiToFilter alloc status mask oui filters
    ((∀ item ∈ filters.items, item.oui = oui → item.mgmtTypeMask &&& mask = 0) ∧
      ((done.2 ≠ 0 ∧ done.1.items = filters.items ∧ done.1.nOuiFilters = filters.nOuiFilters) ∨
        done.2 = 0 ∧ done.1.Kept ∧
          (mask &&& MgmtType.beacon.flag ≠ 0 → done.1.told = some done.1.beaconOuis))) ∨
      ∃ front item back, filters.items = front ++ item :: back ∧ item.oui = oui ∧
        item.mgmtTypeMask &&& mask ≠ 0 ∧ done = ({ filters with
          items := front ++ ⟨item.oui, item.mgmtTypeMask ||| mask⟩ :: back }, -17) := by
  unfold addOuiToFilter
  split
  case h_1 none =>
    have fresh : ∀ item ∈ filters.items, item.oui ≠ oui := by
      simpa using List.find?_eq_none.mp none
    have absent : ∀ item ∈ filters.items, item.oui = oui → item.mgmtTypeMask &&& mask = 0 :=
      fun item isIn is => absurd is (fresh item isIn)
    split
    · exact .inl ⟨absent, .inl ⟨(by decide : (-28 : Int) ≠ 0), rfl, rfl⟩⟩
    case isFalse room =>
      split
      · exact .inl ⟨absent, .inl ⟨(by decide : (-12 : Int) ≠ 0), rfl, rfl⟩⟩
      · have alone : 0 ||| mask = mask := BitVec.zero_or
        have added := kept.append fresh (Nat.not_le.mp room) (alone ▸ given)
        refine .inl ⟨absent, tellBeacons_spec status added rfl fresh ?_ kept.count⟩
        rw [@tryRemoveOui_merged oui mask 0 given BitVec.zero_and]
        exact (List.append_nil _).symm
  case h_2 item found =>
    obtain ⟨is, front, back, items, apart⟩ := List.find?_eq_some_iff_append.mp found
    obtain rfl := of_decide_eq_true is
    have others : ∀ other ∈ front, other.oui ≠ item.oui := by
      simpa using apart
    have within : item ∈ filters.items := items ▸ List.mem_append_right _ List.mem_cons_self
    have nonzero := kept.nonzero item within
    have merged : item.mgmtTypeMask ||| mask ≠ 0 := fun clear =>
      given (BitVec.or_eq_zero_iff.mp clear).2
    have replaced := kept.replace items merged
    have changed := atOui_append (fun item : FilterItem =>
      some { item with mgmtTypeMask := item.mgmtTypeMask ||| mask }) others back
    rw [← items] at changed
    rw [changed]
    split
    case isTrue meets => exact .inr ⟨front, item, back, items, rfl, meets, rfl⟩
    case isFalse disjoint =>
      refine .inl ⟨fun other isIn is => ?_,
        tellBeacons_spec status replaced rfl others ?_ kept.count⟩
      · rw [kept.unique isIn within is]
        exact not_not.mp disjoint
      · rw [tryRemoveOui_merged given (not_not.mp disjoint), if_neg nonzero]
        exact items

theorem Filters.Kept.handle (kept : filters.Kept) (command : FilterCommand) :
    (handleFilterCmd filters command).1.Kept := by
  cases command with
  | addFilter mask dataSize oui alloc status =>
    rw [handleFilterCmd]
    split
    · exact kept
    case isFalse supported =>
      split
      · exact kept
      · have given : mask ≠ 0 := fun zero => (not_not.mp supported) (.inl zero)
        obtain ⟨-, ⟨-, items, count⟩ | ⟨-, after, -⟩⟩ | ⟨front, item, back, items, -, -, is⟩ :=
          addOuiToFilter_spec alloc status oui kept given
        · obtain ⟨counted, limit, distinct, nonzero⟩ := kept
          rw [← items] at counted limit distinct nonzero
          exact ⟨count.trans counted, limit, distinct, nonzero⟩
        · exact after
        · rw [is]
          exact kept.replace items fun clear => given (BitVec.or_eq_zero_iff.mp clear).2
  | clearFilters mask status =>
    rw [handleFilterCmd]
    split
    · exact kept
    · obtain ⟨count, limit, distinct, nonzero⟩ := kept.clear mask
      unfold clearOuiFilter
      split
      · exact ⟨count, limit, distinct, nonzero⟩
      · exact ⟨count, limit, distinct, nonzero⟩

/-- In every run the filter is kept, and adding an OUI is atomic exactly if the OUI is not in the
filter for a part of the frames. -/
theorem addsAtomically_iff_of_reaches
    (reaches : Reaches filterStep (fun _ _ => True) ⟨[], 0, none⟩ filters) :
    filters.Kept ∧ ∀ mask dataSize oui alloc status,
      AddsAtomically filters mask dataSize oui alloc status ↔
        ¬(Supported mask ∧ dataSize = 3 ∧ filters.Overlaps mask oui) := by
  have kept : filters.Kept := by
    refine reaches.invariant ⟨rfl, by decide, by decide, ?_⟩ fun holds _ taken => ?_
    · simp
    · obtain rfl := Option.some.inj taken
      exact holds.handle _
  refine ⟨kept, fun mask dataSize oui alloc status => ?_⟩
  unfold AddsAtomically
  rw [handleFilterCmd]
  split
  case isTrue unsupported =>
    exact iff_of_true ⟨fun _ _ _ => Iff.rfl, fun zero => absurd zero (by decide : (-524 : Int) ≠ 0)⟩
      fun overlaps => unsupported overlaps.1
  split
  case isTrue size =>
    exact iff_of_true ⟨fun _ _ _ => Iff.rfl, fun zero => absurd zero (by decide : (-22 : Int) ≠ 0)⟩
      fun overlaps => size overlaps.2.1
  case isFalse supported size =>
    have given : mask ≠ 0 := fun zero => (not_not.mp supported) (.inl zero)
    obtain ⟨apart, outcome⟩ | ⟨front, item, back, items, is, meets, done⟩ :=
      addOuiToFilter_spec alloc status oui kept given
    · refine iff_of_true ?_ ?_
      · obtain ⟨failed, same, -⟩ | ⟨succeeded, -, told⟩ := outcome
        · refine ⟨fun _ watched kind => ?_, fun succeeded => absurd succeeded failed⟩
          rw [Filters.Watches, same]
          exact Iff.rfl
        · exact ⟨fun failed => absurd succeeded failed, fun _ => told⟩
      · rintro ⟨-, -, item, isIn, is, meets, -⟩
        exact meets (apart item isIn is)
    · have within : item ∈ filters.items := items ▸ List.mem_append_right _ List.mem_cons_self
      subst is
      rw [done]
      by_cases whole : mask &&& ~~~item.mgmtTypeMask = 0
      · have same : item.mgmtTypeMask ||| mask = item.mgmtTypeMask := by
          ext bit inside
          have clear := congrArg (fun vector => vector[bit]) whole
          revert clear
          simp only [BitVec.getElem_and, BitVec.getElem_or, BitVec.getElem_not]
          cases item.mgmtTypeMask[bit] <;> cases mask[bit] <;> simp
        refine iff_of_true ⟨fun _ watched kind => ?_,
          fun zero => absurd zero (by decide : (-17 : Int) ≠ 0)⟩ ?_
        · rw [Filters.Watches, Filters.Watches, same, items]
        · rintro ⟨-, -, other, isIn, is, -, more⟩
          obtain rfl := kept.unique isIn within is
          exact more whole
      · refine iff_of_false ?_ fun fails =>
          fails ⟨not_not.mp supported, not_not.mp size, item, within, rfl, meets, whole⟩
        rintro ⟨unchanged, -⟩
        obtain ⟨kind, -, more⟩ := exists_getLsbD_of_ne_zero whole
        rw [BitVec.getLsbD_and, Bool.and_eq_true] at more
        obtain ⟨other, isIn, is, has⟩ :=
          (unchanged (by decide : (-17 : Int) ≠ 0) item.oui kind).mp
            ⟨⟨item.oui, _⟩, List.mem_append_right _ List.mem_cons_self, rfl,
              by rw [BitVec.getLsbD_or, more.1, Bool.or_true]⟩
        obtain rfl := kept.unique isIn within is
        simp [BitVec.getLsbD_not, has] at more

theorem addsAtomically_addFilter :
    ∃ filters, run filterStep ⟨[], 0, none⟩ [.addFilter 1 3 7 true 0] = some filters ∧
      filters.Kept ∧ AddsAtomically filters 4 3 7 true 0 := by
  have reaches : Reaches filterStep (fun _ _ => True) ⟨[], 0, none⟩ ⟨[⟨7, 1⟩], 1, some [7]⟩ :=
    .of_run [.addFilter 1 3 7 true 0] (guarded_true _ _) (by decide)
  have sound := addsAtomically_iff_of_reaches reaches
  refine ⟨_, by decide, sound.1, (sound.2 4 3 7 true 0).mpr ?_⟩
  rintro ⟨-, -, item, isIn, -, meets, -⟩
  obtain rfl := List.mem_singleton.mp isIn
  exact meets (by decide)

/-- An OUI that is watched for in beacons is refused for beacons and probe responses, but is
watched for in probe responses from then on. -/
theorem not_addsAtomically_addFilter :
    ∃ filters, run filterStep ⟨[], 0, none⟩ [.addFilter 1 3 7 true 0] = some filters ∧
      ¬AddsAtomically filters 5 3 7 true 0 := by
  refine ⟨⟨[⟨7, 1⟩], 1, some [7]⟩, by decide, fun atomic => ?_⟩
  obtain ⟨item, isIn, -, has⟩ := (atomic.1 (by decide) 7 2).mp
    ⟨⟨7, 5⟩, List.mem_singleton_self _, rfl, by decide⟩
  obtain rfl := List.mem_singleton.mp isIn
  cases has

end VendorIe
end Morse
