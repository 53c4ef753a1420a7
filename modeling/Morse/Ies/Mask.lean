import Morse.Lib.Ledger
import Morse.Lib.Transition

/-!
# The elements of a frame and who owns them

The elements of a frame are kept by their identifiers.  The first of an identifier is
part of the table, the others are in a list.  Data is borrowed from the frame or was
allocated for the element, which is what a flag of the element says.
-/

namespace Morse
namespace Ies

open Lib

/-! ## Elements -/

/-- An element identifier, of which there are `DOT11AH_MAX_EID`. -/
abbrev Eid := Fin 256

/-- Identifiers are written as numbers. -/
instance (number : Nat) : OfNat Eid number := Fin.instOfNat

/-- The data of an element. -/
inductive Ptr
  | null
  /-- What `kzalloc` returns for no octets, which `kfree` ignores. -/
  | zeroSize
  /-- Octets of a frame. -/
  | borrowed
  | allocated (id : Nat)
  deriving DecidableEq, Repr

/-- What can be freed: the mask, what it allocated, and what it did not allocate. -/
inductive Block
  | mask
  | allocated (id : Nat)
  | foreign
  deriving DecidableEq, Repr

/-- `struct ie_element` without its link. -/
structure IeElement where
  ptr : Ptr
  len : BitVec 8
  needsFree : Bool
  deriving DecidableEq, Repr

/-- An element as `kzalloc` and `memset` leave it. -/
def IeElement.zero : IeElement := ⟨.null, 0, false⟩

/-- An element in a list, with its own memory. -/
structure IeNode where
  id : Nat
  element : IeElement
  deriving DecidableEq, Repr

/-- The elements of an identifier: the first, and those that hang on it. -/
structure Slot where
  head : IeElement
  next : List IeNode
  deriving DecidableEq, Repr

/-- `struct dot11ah_ies_mask`.  Noted are whether it exists, how often memory was asked
for, what was freed, and what the elements of an identifier were left like each time they
were cleared. -/
structure IesMask where
  ies : Eid → Slot
  moreThanOneIe : Eid → Bool
  filsData : Option (List (BitVec 8))
  alive : Bool
  asked : Nat
  freed : Multiset Block
  cleared : List Slot

/-- `morse_dot11ah_ies_mask_alloc`. -/
def IesMask.empty : IesMask where
  ies := fun _ => ⟨IeElement.zero, []⟩
  moreThanOneIe := fun _ => false
  filsData := none
  alive := true
  asked := 0
  freed := 0
  cleared := []

/-! ## Operations -/

/-- `kfree`. -/
def kfree : Ptr → Multiset Block
  | .null => 0
  | .zeroSize => 0
  | .borrowed => {.foreign}
  | .allocated id => {.allocated id}

/-- The data of an element is freed where that is needed. -/
def IeElement.kfree (element : IeElement) : Multiset Block :=
  if element.needsFree then Ies.kfree element.ptr else 0

/-- `free_eid_ies_list`. -/
def freeEidIesList : List IeNode → Multiset Block
  | [] => 0
  | node :: rest => node.element.kfree + {.allocated node.id} + freeEidIesList rest

/-- `morse_dot11_clear_eid_from_ies_mask`. -/
def clearEidFromIesMask (mask : IesMask) (eid : Eid) : IesMask :=
  let slot := mask.ies eid
  let cleared := { slot with head := { slot.head with ptr := .null, len := 0 } }
  { mask with
    ies := Function.update mask.ies eid cleared
    freed := mask.freed + freeEidIesList slot.next + slot.head.kfree
    cleared := cleared :: mask.cleared }

/-- What the mask frees of its elements, where the bitmap says which lists there are. -/
def iesMaskFreed (mask : IesMask) : Multiset Block :=
  (∑ eid, if mask.moreThanOneIe eid then freeEidIesList (mask.ies eid).next else 0) +
    ∑ eid, (mask.ies eid).head.kfree

/-- `morse_dot11ah_ies_mask_free`. -/
def iesMaskFree (mask : IesMask) : IesMask :=
  { mask with
    alive := false
    freed := mask.freed + iesMaskFreed mask + {.mask} }

/-- `morse_dot11ah_ies_mask_clear`. -/
def iesMaskClear (mask : IesMask) : IesMask :=
  { mask with
    ies := fun _ => ⟨IeElement.zero, []⟩
    moreThanOneIe := fun _ => false
    filsData := none
    freed := mask.freed + iesMaskFreed mask }

/-- The element that was created, which is the first or one that hangs on it. -/
inductive Place
  | head
  | extra (index : Nat)
  deriving DecidableEq, Repr

/-- An element is changed. -/
def Slot.modify (slot : Slot) (place : Place) (change : IeElement → IeElement) : Slot :=
  match place with
  | .head => { slot with head := change slot.head }
  | .extra index =>
    { slot with
      next := slot.next.modify index fun node => { node with element := change node.element } }

/-- An element of an identifier is changed. -/
def IesMask.modify (mask : IesMask) (eid : Eid) (place : Place) (change : IeElement → IeElement) :
    IesMask :=
  { mask with ies := Function.update mask.ies eid ((mask.ies eid).modify place change) }

section Memory

/- Which of the requests for memory are granted. -/
variable (memory : Nat → Bool)

/-- `kzalloc`, whose result is null where there is no memory. -/
def kzalloc (mask : IesMask) (length : Nat) : Ptr × IesMask :=
  if length = 0 then (.zeroSize, mask)
  else
    (if memory mask.asked then .allocated mask.asked else .null,
      { mask with asked := mask.asked + 1 })

/-- Where the element goes: into the table, or at the end of the list. -/
def createPlace (mask : IesMask) (eid : Eid) (onlyOne : Bool) : Option Place × IesMask :=
  if (mask.ies eid).head.ptr = .null then (some .head, mask)
  else if onlyOne then (some .head, clearEidFromIesMask mask eid)
  else if memory mask.asked then
    (some (.extra (mask.ies eid).next.length),
      { mask with
        ies := Function.update mask.ies eid
          { mask.ies eid with
            next := (mask.ies eid).next ++ [⟨mask.asked, IeElement.zero⟩] }
        moreThanOneIe := Function.update mask.moreThanOneIe eid true
        asked := mask.asked + 1 })
  else (none, { mask with asked := mask.asked + 1 })

/-- The data of the element is set up, if it can be. -/
def createData (mask : IesMask) (eid : Eid) (place : Place) (length : Nat) (alloc : Bool) :
    Option Place × IesMask :=
  if alloc then
    match kzalloc memory mask length with
    | (.null, asked) => (none, asked.modify eid place fun element => { element with ptr := .null })
    | (ptr, asked) =>
      (some place, asked.modify eid place fun _ => ⟨ptr, BitVec.ofNat 8 length, true⟩)
  else
    (some place, mask.modify eid place fun element =>
      { element with needsFree := false, len := BitVec.ofNat 8 length })

/-- `morse_dot11_ies_create_ie_element`. -/
def iesCreateIeElement (mask : IesMask) (eid : Eid) (length : Nat) (alloc onlyOne : Bool) :
    Option Place × IesMask :=
  match createPlace memory mask eid onlyOne with
  | (some place, placed) => createData memory placed eid place length alloc
  | (none, placed) => (none, placed)

/-- An element is created for octets that are borrowed. -/
def createBorrowed (mask : IesMask) (eid : Eid) (length : Nat) (onlyOne : Bool) : IesMask :=
  match iesCreateIeElement memory mask eid length false onlyOne with
  | (some place, created) =>
    created.modify eid place fun element => { element with ptr := .borrowed }
  | (none, created) => created

/-- `morse_dot11ah_insert_element`. -/
def insertElement (mask : IesMask) (eid : Eid) (length : Nat) : IesMask :=
  (iesCreateIeElement memory mask eid length true true).2

/-- `WLAN_EID_EXTENSION`. -/
def wlanEidExtension : Eid := 255

/-- `WLAN_EID_EXT_FILS_SESSION`. -/
def wlanEidExtFilsSession : BitVec 8 := 4

/-- How parsing ends. -/
inductive ParseResult
  | ok
  /-- `-EINVAL`. -/
  | invalid
  /-- `-ENOMEM`. -/
  | noMemory
  deriving DecidableEq, Repr

/-- The octets from here on are those of a FILS session element. -/
def isFilsSession (id : BitVec 8) (rest : List (BitVec 8)) : Bool :=
  decide (id.toFin = wlanEidExtension) && decide (rest.head? = some wlanEidExtFilsSession)

/-- `morse_dot11ah_parse_ies`. -/
def parseIes (mask : IesMask) : List (BitVec 8) → ParseResult × IesMask
  | id :: elen :: rest =>
    if isFilsSession id rest then (.ok, { mask with filsData := some (id :: elen :: rest) })
    else if rest.length < elen.toNat then (.invalid, mask)
    else
      match iesCreateIeElement memory mask id.toFin elen.toNat false false with
      | (some place, created) =>
        parseIes
          (created.modify id.toFin place fun element => { element with ptr := .borrowed })
          (rest.drop elen.toNat)
      | (none, created) => (.noMemory, created)
  | [] => (.ok, mask)
  | [_] => (.invalid, mask)
termination_by octets => octets.length
decreasing_by
  simp only [List.length_drop, List.length_cons]
  omega

end Memory

/-- The elements that are not needed in frames that are sent. -/
def maskedEids (maskExtCap isBeacon : Bool) : List Eid :=
  [3, 42, 50, 45, 61, 1, 191, 192, 195, 214, 217, 232, 213] ++
    (if maskExtCap then [127] else []) ++ (if isBeacon then [48, 244, 59] else [])

/-- `morse_dot11ah_mask_ies`. -/
def maskIes (mask : IesMask) (maskExtCap isBeacon : Bool) : IesMask :=
  (maskedEids maskExtCap isBeacon).foldl clearEidFromIesMask mask

/-! ## Runs -/

/-- What can be done with a mask. -/
inductive MaskAction
  | parse (octets : List (BitVec 8))
  /-- An element is created for data that is allocated, or for data that is not; that
  the caller then borrows, or does not. -/
  | create (eid : Eid) (length : Nat) (alloc onlyOne : Bool)
  | borrow (eid : Eid) (length : Nat) (onlyOne : Bool)
  | insert (eid : Eid) (length : Nat)
  | clearEid (eid : Eid)
  | maskIes (maskExtCap isBeacon : Bool)
  | clear
  | free
  deriving DecidableEq, Repr

/-- One operation on a mask that exists. -/
def maskStep (memory : Nat → Bool) (mask : IesMask) (action : MaskAction) : Option IesMask :=
  if mask.alive then
    match action with
    | .parse octets => some (parseIes memory mask octets).2
    | .create eid length alloc onlyOne =>
      some (iesCreateIeElement memory mask eid length alloc onlyOne).2
    | .borrow eid length onlyOne => some (createBorrowed memory mask eid length onlyOne)
    | .insert eid length => some (insertElement memory mask eid length)
    | .clearEid eid => some (clearEidFromIesMask mask eid)
    | .maskIes maskExtCap isBeacon => some (maskIes mask maskExtCap isBeacon)
    | .clear => some (iesMaskClear mask)
    | .free => some (iesMaskFree mask)
  else none

/-! ## Ownership -/

/-- What the data of an element takes. -/
def Ptr.blocks : Ptr → Multiset Block
  | .allocated id => {.allocated id}
  | _ => 0

/-- What a list of elements takes. -/
def nodeBlocks (nodes : List IeNode) : Multiset Block :=
  (nodes.map fun node => node.element.ptr.blocks + {.allocated node.id}).sum

/-- What the elements of an identifier take. -/
def Slot.blocks (slot : Slot) : Multiset Block := slot.head.ptr.blocks + nodeBlocks slot.next

/-- What can be reached from a mask that exists, itself included. -/
def IesMask.reachable (mask : IesMask) : Multiset Block :=
  if mask.alive then holdings Slot.blocks mask.ies + {.mask} else 0

/-- What was allocated. -/
def issued (memory : Nat → Bool) (asked : Nat) : Multiset Block :=
  Block.mask ::ₘ ((List.range asked).filter memory).map Block.allocated

/-- The mask owns what it allocated: it frees that and nothing else, nothing twice and
nothing that can still be reached, and what was allocated is freed or can be reached;
and where an identifier was cleared, no element was left. -/
structure IesMask.Owns (memory : Nat → Bool) (mask : IesMask) : Prop where
  once : mask.freed.Nodup
  own : ∀ block ∈ mask.freed, block ∈ issued memory mask.asked
  live : ∀ block ∈ mask.reachable, block ∉ mask.freed
  kept : ∀ block ∈ issued memory mask.asked, block ∈ mask.freed ∨ block ∈ mask.reachable
  cleared : ∀ slot ∈ mask.cleared, slot.head.ptr = .null ∧ slot.next = []

/-- No identifier with more than one element is cleared, and no element of one is
overridden. -/
def SingleCleared (mask : IesMask) : MaskAction → Prop
  | .create eid _ _ onlyOne | .borrow eid _ onlyOne =>
    onlyOne = true → (mask.ies eid).head.ptr ≠ .null → (mask.ies eid).next = []
  | .insert eid _ => (mask.ies eid).head.ptr ≠ .null → (mask.ies eid).next = []
  | .clearEid eid => (mask.ies eid).next = []
  | .maskIes maskExtCap isBeacon =>
    ∀ eid ∈ maskedEids maskExtCap isBeacon, (mask.ies eid).next = []
  | _ => True

end Ies
end Morse
