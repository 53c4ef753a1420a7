import Morse.VendorIe.Defs
import Mathlib.Algebra.Order.BigOperators.Group.List
import Mathlib.Tactic.Ring

/-!
# How much of a frame vendor elements take

What the elements of a frame take is limited for all kinds of frames at once when an
element is added.  The length of the added element is kept in an octet for that, together
with its header, and clearing a kind of frames drops elements that are meant for others.
-/

namespace Morse
namespace VendorIe

open Lib Ies

variable {items : List ListItem} {mask other : BitVec 16}

/-! ## Sizes -/

/-- The octets of an element, with its identifier and its length. -/
def ListItem.size (item : ListItem) : Nat := 2 + item.len.toNat

/-- The octets of the elements for some kinds of frames. -/
def total (items : List ListItem) (mask : BitVec 16) : Nat :=
  ((items.filter (·.isFor mask)).map ListItem.size).sum

theorem total_append (items others : List ListItem) (mask : BitVec 16) :
    total (items ++ others) mask = total items mask + total others mask := by
  rw [total, List.filter_append, List.map_append, List.sum_append]
  rfl

theorem total_singleton (item : ListItem) (mask : BitVec 16) :
    total [item] mask = if item.isFor mask then item.size else 0 := by
  rw [total, List.filter_cons]
  split
  · exact Nat.add_zero item.size
  · rfl

theorem ListItem.isFor_of_subset {item : ListItem} (subset : other &&& mask = other)
    (isFor : item.isFor other = true) :
    item.isFor mask = true := by
  rw [ListItem.isFor, decide_eq_true_eq] at isFor ⊢
  intro apart
  refine isFor ?_
  rw [← subset, BitVec.and_comm other, ← BitVec.and_assoc, apart]
  exact BitVec.zero_and

theorem total_le_of_subset (items : List ListItem) (subset : other &&& mask = other) :
    total items other ≤ total items mask := by
  have fewer : (items.filter (·.isFor other)).Sublist (items.filter (·.isFor mask)) :=
    List.monotone_filter_right items fun _ => ListItem.isFor_of_subset subset
  exact (fewer.map ListItem.size).sum_le_sum fun _ _ => Nat.zero_le _

theorem toNat_getIesLength (items : List ListItem) (present : mask ≠ 0) :
    (getIesLength items mask).toNat = total items mask % 2 ^ 16 := by
  have general : ∀ start : BitVec 16, (items.foldl (fun length item =>
      if item.isFor mask then length + 1 + 1 + item.len.setWidth 16 else length) start).toNat =
        (start.toNat + total items mask) % 2 ^ 16 := by
    induction items with
    | nil =>
      intro start
      exact (Nat.mod_eq_of_lt start.isLt).symm
    | cons item rest ih =>
      intro start
      rw [List.foldl_cons, ih, ← List.singleton_append, total_append, total_singleton]
      have one : BitVec.toNat (1 : BitVec 16) = 1 := rfl
      split
      · simp only [BitVec.toNat_add, BitVec.toNat_setWidth, one, ListItem.size]
        omega
      · rw [Nat.zero_add]
  rw [getIesLength, if_neg present, general]
  simp

/-! ## What is appended to a frame -/

/-- The octets of the elements of an identifier. -/
def slotSize (slot : Slot) : Nat :=
  (if slot.head.ptr = .null then 0 else 2 + slot.head.len.toNat) +
    (slot.next.map fun node => 2 + node.element.len.toNat).sum

/-- The octets of the vendor elements of a frame. -/
def vendorSize (mask : IesMask) : Nat := slotSize (mask.ies vendorSpecificEid)

theorem modify_append_singleton {Item : Type} (items : List Item) (item : Item)
    (change : Item → Item) :
    (items ++ [item]).modify items.length change = items ++ [change item] := by
  induction items with
  | nil => rfl
  | cons first rest ih =>
    rw [List.cons_append, List.length_cons, List.modify_succ_cons, ih, List.cons_append]

theorem vendorSize_create (memory : Nat → Bool) (mask : IesMask) (len : BitVec 8) :
    (∃ created, iesCreateIeElement memory mask vendorSpecificEid len.toNat false false =
        (none, created) ∧ vendorSize created = vendorSize mask) ∨
      ∃ place created, iesCreateIeElement memory mask vendorSpecificEid len.toNat false false =
        (some place, created) ∧
          vendorSize (created.modify vendorSpecificEid place fun element =>
            { element with ptr := .borrowed }) = vendorSize mask + (2 + len.toNat) := by
  rw [iesCreateIeElement, createPlace]
  by_cases empty : (mask.ies vendorSpecificEid).head.ptr = .null
  · rw [if_pos empty]
    refine .inr ⟨_, _, rfl, ?_⟩
    simp [IesMask.modify, Slot.modify, vendorSize, slotSize, empty]
    omega
  · rw [if_neg empty]
    by_cases granted : memory mask.asked = true
    · rw [if_pos granted]
      refine .inr ⟨_, _, rfl, ?_⟩
      simp [IesMask.modify, Slot.modify, vendorSize, slotSize, empty, modify_append_singleton]
      omega
    · rw [if_neg granted]
      exact .inl ⟨_, rfl, rfl⟩

theorem vendorSize_addEach (memory : Nat → Bool) (items : List ListItem) (mask : IesMask) :
    vendorSize (addEach memory items mask).2 ≤
      vendorSize mask + (items.map ListItem.size).sum := by
  induction items generalizing mask with
  | nil => exact Nat.le_refl _
  | cons item rest ih =>
    rw [addEach, List.map_cons, List.sum_cons, ListItem.size]
    obtain ⟨created, refused, same⟩ | ⟨place, created, made, larger⟩ :=
      vendorSize_create memory mask item.len
    · rw [refused]
      dsimp only
      omega
    · rw [made]
      have later := ih (created.modify vendorSpecificEid place fun element =>
        { element with ptr := .borrowed })
      dsimp only
      omega

theorem vendorSize_addIes (memory : Nat → Bool) (items : List ListItem) (kinds : BitVec 16)
    (mask : IesMask) :
    vendorSize (addIes memory items kinds mask).2 ≤ vendorSize mask + total items kinds := by
  rw [addIes]
  split
  · exact Nat.le_add_right _ _
  · exact vendorSize_addEach memory _ mask

/-! ## Commands -/

/-- The elements for a kind of frames, without what else they are for. -/
def elementsFor (vif : Option (List ListItem)) (kind : MgmtType) :
    List (BitVec 8 × List (BitVec 8)) :=
  ((vif.getD []).filter (·.isFor kind.flag)).map fun item => (item.len, item.oui)

/-- Some kinds of frames have no elements left, and the others have those that they had. -/
def ClearsOnly (kinds : BitVec 16) (before after : Option (List ListItem)) : Prop :=
  ∀ kind : MgmtType,
    (kinds &&& kind.flag ≠ 0 → elementsFor after kind = []) ∧
      (kinds &&& kind.flag = 0 → elementsFor after kind = elementsFor before kind)

/-- The elements for each kind of frames are within the limit. -/
def Within (maxTotalVendorIeBytes : Nat) (vif : Option (List ListItem)) : Prop :=
  ∀ kind : MgmtType, total (vif.getD []) kind.flag ≤ maxTotalVendorIeBytes

/-- An element of so many octets fits into every kind of frames that it is meant for. -/
def Fits (maxTotalVendorIeBytes : Nat) (items : List ListItem) (kinds : BitVec 16) (len : Nat) :
    Prop :=
  ∀ kind : MgmtType, kinds &&& kind.flag ≠ 0 →
    total items kind.flag + (2 + len) ≤ maxTotalVendorIeBytes

/-- An element of so many octets is too long, or does not fit in with lengths of 16 and of
8 bits either. -/
def Refused (maxTotalVendorIeBytes : Nat) (items : List ListItem) (kinds : BitVec 16) (len : Nat) :
    Prop :=
  maxVendorIeSize < len ∨ maxTotalVendorIeBytes < total items kinds % 2 ^ 16 + (len + 2) % 2 ^ 8

/-- An element is added whose length with its header is within an octet, next to elements
whose lengths are within 16 bits, or which fits or is refused anyway.  What is cleared is not
meant for other kinds of frames. -/
def Admits (maxTotalVendorIeBytes : Nat) (vif : Option (List ListItem)) (action : Action) : Prop :=
  match action.cfg.opcode with
  | .addElement =>
    (action.cfg.dataSize.toNat ≤ 253 ∧ total (vif.getD []) action.cfg.mgmtTypeMask < 2 ^ 16) ∨
      Fits maxTotalVendorIeBytes (vif.getD []) action.cfg.mgmtTypeMask
        action.cfg.dataSize.toNat ∨
      Refused maxTotalVendorIeBytes (vif.getD []) action.cfg.mgmtTypeMask
        action.cfg.dataSize.toNat
  | .clearElements =>
    ∀ item ∈ vif.getD [], item.isFor action.cfg.mgmtTypeMask = true →
      ∀ kind : MgmtType, item.isFor kind.flag = true → action.cfg.mgmtTypeMask &&& kind.flag ≠ 0

/-- The bit of a kind of frames. -/
def MgmtType.bit : MgmtType → Nat
  | .beacon => 0
  | .probeReq => 1
  | .probeResp => 2
  | .assocReq => 3
  | .assocResp => 4

theorem MgmtType.flag_eq (kind : MgmtType) : kind.flag = BitVec.twoPow 16 kind.bit := by
  cases kind with
  | beacon | probeReq | probeResp | assocReq | assocResp => rfl

variable {kinds : BitVec 16}

theorem and_flag {kind : MgmtType} (meets : kinds &&& kind.flag ≠ 0) :
    kind.flag &&& kinds = kind.flag := by
  rw [MgmtType.flag_eq] at meets ⊢
  rw [BitVec.and_twoPow] at meets
  rw [BitVec.and_comm, BitVec.and_twoPow]
  split
  · rfl
  · next apart =>
      rw [if_neg apart] at meets
      exact absurd rfl meets

theorem fits_of_narrow (short : len ≤ 253) (narrow : total items kinds < 2 ^ 16)
    (accepted : total items kinds % 2 ^ 16 + (len + 2) % 2 ^ 8 ≤ maxTotalVendorIeBytes) :
    Fits maxTotalVendorIeBytes items kinds len := by
  intro kind meets
  have fewer := total_le_of_subset items (and_flag meets)
  omega

variable {maxTotalVendorIeBytes : Nat} {vif : Option (List ListItem)}

theorem Within.addToIeList (within : Within maxTotalVendorIeBytes vif) (alloc : Bool)
    (present : kinds ≠ 0) (data : List (BitVec 8))
    (admits : (dataLen.toNat ≤ 253 ∧ total (vif.getD []) kinds < 2 ^ 16) ∨
      Fits maxTotalVendorIeBytes (vif.getD []) kinds dataLen.toNat ∨
      Refused maxTotalVendorIeBytes (vif.getD []) kinds dataLen.toNat) :
    Within maxTotalVendorIeBytes
      (addToIeList maxTotalVendorIeBytes alloc vif kinds data dataLen).2 := by
  unfold VendorIe.addToIeList
  split
  · exact within
  · next bounds =>
      rw [not_or, not_lt] at bounds
      cases vif with
      | none => exact within
      | some items =>
        dsimp only
        split
        · exact within
        · next room =>
            split
            · exact within
            · have full : ((dataLen + 1 + 1).setWidth 8).toNat = (dataLen.toNat + 2) % 2 ^ 8 := by
                have one : BitVec.toNat (1 : BitVec 16) = 1 := rfl
                simp only [BitVec.toNat_setWidth, BitVec.toNat_add, one]
                omega
              rw [toNat_getIesLength items present, full, not_lt] at room
              have fits : Fits maxTotalVendorIeBytes items kinds dataLen.toNat := by
                rcases admits with ⟨short, narrow⟩ | fits | tooLong | crowded
                · exact fits_of_narrow short narrow room
                · exact fits
                · exact absurd tooLong (not_lt.mpr bounds.2)
                · exact absurd crowded (not_lt.mpr room)
              intro kind
              have before : total items kind.flag ≤ maxTotalVendorIeBytes := within kind
              have len : (dataLen.setWidth 8).toNat = dataLen.toNat := by
                rw [BitVec.toNat_setWidth, Nat.mod_eq_of_lt]
                exact Nat.lt_succ_of_le bounds.2
              rw [Option.getD_some, total_append, total_singleton]
              split
              · next meets =>
                  have enough := fits kind (of_decide_eq_true meets)
                  rw [ListItem.size, len]
                  exact enough
              · exact before

theorem total_filter_le (items : List ListItem) (keep : ListItem → Bool) (kinds : BitVec 16) :
    total (items.filter keep) kinds ≤ total items kinds := by
  have fewer : ((items.filter keep).filter (·.isFor kinds)).Sublist
      (items.filter (·.isFor kinds)) := List.Sublist.filter _ List.filter_sublist
  exact (fewer.map ListItem.size).sum_le_sum fun _ _ => Nat.zero_le _

theorem Within.clearIeList (within : Within maxTotalVendorIeBytes vif) (kinds : BitVec 16) :
    Within maxTotalVendorIeBytes (clearIeList vif kinds).2 := by
  intro kind
  cases vif with
  | none => exact within kind
  | some items => exact (total_filter_le items _ kind.flag).trans (within kind)

theorem Within.step (within : Within maxTotalVendorIeBytes vif)
    (admits : Admits maxTotalVendorIeBytes vif action)
    (taken : step maxTotalVendorIeBytes vif action = some next) :
    Within maxTotalVendorIeBytes next := by
  cases taken
  rw [handleConfigCmd]
  split
  · exact within
  · next known =>
      rw [not_or] at known
      rw [Admits] at admits
      cases opcode : action.cfg.opcode with
      | addElement =>
        rw [opcode] at admits
        exact within.addToIeList action.alloc known.1 action.cfg.data admits
      | clearElements => exact within.clearIeList action.cfg.mgmtTypeMask

theorem clearsOnly_clearIeList
    (apart : ∀ item ∈ vif.getD [], item.isFor kinds = true →
      ∀ kind : MgmtType, item.isFor kind.flag = true → kinds &&& kind.flag ≠ 0) :
    ClearsOnly kinds vif (clearIeList vif kinds).2 := by
  have left : (clearIeList vif kinds).2.getD [] =
      (vif.getD []).filter fun item => !item.isFor kinds := by
    cases vif with
    | none => rfl
    | some items => rfl
  intro kind
  rw [elementsFor, left]
  refine ⟨fun meets => ?_, fun missed => ?_⟩
  · rw [List.map_eq_nil_iff, List.filter_eq_nil_iff]
    intro item member isFor
    have kept := (List.mem_filter.mp member).2
    rw [ListItem.isFor_of_subset (and_flag meets) isFor] at kept
    cases kept
  · congr 1
    rw [List.filter_filter]
    refine List.filter_congr fun item member => ?_
    cases isFor : item.isFor kind.flag with
    | false => rw [Bool.false_and]
    | true =>
      cases cleared : item.isFor kinds with
      | false => rfl
      | true => exact absurd missed (apart item member cleared kind isFor)

theorem unchanged_of_ne_ok
    (failed : (handleConfigCmd maxTotalVendorIeBytes alloc vif cfg).1 ≠ .ok) :
    (handleConfigCmd maxTotalVendorIeBytes alloc vif cfg).2 = vif := by
  rw [handleConfigCmd] at failed ⊢
  split
  · rfl
  · next known =>
      rw [if_neg known] at failed
      cases opcode : cfg.opcode with
      | clearElements =>
        rw [opcode] at failed
        exact absurd rfl failed
      | addElement =>
        rw [opcode] at failed
        dsimp only at failed ⊢
        unfold addToIeList at failed ⊢
        split
        · rfl
        · next bounds =>
            rw [if_neg bounds] at failed
            cases vif with
            | none => rfl
            | some items =>
              dsimp only at failed ⊢
              split
              · rfl
              · next room =>
                  rw [if_neg room] at failed
                  split
                  · rfl
                  · next granted =>
                      rw [if_neg granted] at failed
                      exact absurd rfl failed

/-! ## Runs -/

/-- After every sequence of admitted commands, the elements appended to a frame are within the
limit, a command that fails changes nothing, and what an admitted command clears is cleared
and nothing else. -/
theorem appendedWithin_of_reaches {maxTotalVendorIeBytes : Nat} {vif : Option (List ListItem)}
    (reaches : Reaches (step maxTotalVendorIeBytes) (Admits maxTotalVendorIeBytes) (some []) vif) :
    (∀ (kind : MgmtType) (memory : Nat → Bool) (mask : IesMask),
      vendorSize (addIes memory (vif.getD []) kind.flag mask).2 ≤
        vendorSize mask + maxTotalVendorIeBytes) ∧
    (∀ cfg alloc, (handleConfigCmd maxTotalVendorIeBytes alloc vif cfg).1 ≠ .ok →
      (handleConfigCmd maxTotalVendorIeBytes alloc vif cfg).2 = vif) ∧
    ∀ cfg alloc, cfg.opcode = .clearElements → Admits maxTotalVendorIeBytes vif ⟨cfg, alloc⟩ →
      (handleConfigCmd maxTotalVendorIeBytes alloc vif cfg).1 = .ok →
        ClearsOnly cfg.mgmtTypeMask vif
          (handleConfigCmd maxTotalVendorIeBytes alloc vif cfg).2 := by
  have within : Within maxTotalVendorIeBytes vif := by
    refine @Reaches.invariant _ _ (step maxTotalVendorIeBytes) (Admits maxTotalVendorIeBytes)
      (some []) vif (Within maxTotalVendorIeBytes) (fun _ => Nat.zero_le _) ?_ reaches
    intro before action after holds admits taken
    exact holds.step admits taken
  refine ⟨fun kind memory mask => ?_, fun cfg alloc failed => unchanged_of_ne_ok failed, ?_⟩
  · exact (vendorSize_addIes memory _ kind.flag mask).trans (Nat.add_le_add_left (within kind) _)
  · intro cfg alloc opcode admits done
    rw [handleConfigCmd] at done ⊢
    rw [Admits, opcode] at admits
    split
    · next unknown =>
        rw [if_pos unknown] at done
        cases done
    · rw [opcode]
      exact clearsOnly_clearIeList admits

/-- An element of so many octets is added to some kinds of frames. -/
def addAction (kinds : BitVec 16) (len : Nat) : Action where
  cfg := ⟨BitVec.ofNat 16 (len + 4), .addElement, kinds, List.replicate len 0⟩
  alloc := true

/-- Some kinds of frames are cleared. -/
def clearAction (kinds : BitVec 16) : Action where
  cfg := ⟨4, .clearElements, kinds, []⟩
  alloc := true

theorem appendedWithin_of_reaches_short :
    ∃ vif, run (step 514) (some []) [addAction 0b00011 4, clearAction 0b00111] = some vif ∧
      ∀ (kind : MgmtType) (memory : Nat → Bool) (mask : IesMask),
        vendorSize (addIes memory (vif.getD []) kind.flag mask).2 ≤ vendorSize mask + 514 := by
  refine ⟨some [], rfl, ?_⟩
  refine (appendedWithin_of_reaches (@Reaches.of_run _ _ (step 514) (Admits 514) (some []) _
    [addAction 0b00011 4, clearAction 0b00111]
    ⟨.inl ⟨by decide, by decide⟩, ?_, trivial⟩ rfl)).1
  intro item member _ kind
  rw [List.mem_singleton.mp member]
  cases kind with
  | beacon | probeReq | probeResp | assocReq | assocResp => decide

/-- Three elements of 254 octets take more of a beacon than is allowed, and clearing beacons
takes an element from probe requests. -/
theorem not_appendedWithin_long :
    (∃ vif, run (step 514) (some [])
        [addAction 0b00001 254, addAction 0b00001 254, addAction 0b00001 254] = some vif ∧
      514 < vendorSize (addIes (fun _ => true) (vif.getD []) MgmtType.beacon.flag
        IesMask.empty).2) ∧
    ∃ before, run (step 514) (some []) [addAction 0b00011 4] = some before ∧
      (handleConfigCmd 514 true before (clearAction 0b00001).cfg).1 = .ok ∧
        ¬ ClearsOnly 0b00001 before
          (handleConfigCmd 514 true before (clearAction 0b00001).cfg).2 := by
  refine ⟨⟨_, rfl, by decide +kernel⟩, _, rfl, rfl, fun only => ?_⟩
  have kept := (only .probeReq).2 rfl
  exact absurd kept (by decide)

end VendorIe
end Morse
