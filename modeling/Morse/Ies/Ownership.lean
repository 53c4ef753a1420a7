import Morse.Ies.Mask

/-!
# What the element table allocated is freed once

What was freed and what can be reached from the table make up what was allocated.  Each
operation keeps this as long as no identifier with more than one element is cleared.
-/

namespace Morse
namespace Ies

open Lib

/-! ## Elements and lists of them -/

/-- An element says truly whether its data is to be freed. -/
structure IeElement.Ok (element : IeElement) : Prop where
  owned : ∀ id, element.ptr = .allocated id → element.needsFree = true
  lent : element.needsFree = true → element.ptr ≠ .borrowed

variable {element : IeElement}

theorem IeElement.ok_of_null (null : element.ptr = .null) :
    element.Ok := by
  refine ⟨fun id same => ?_, fun _ same => ?_⟩
  · rw [null] at same
    cases same
  · rw [null] at same
    cases same

theorem IeElement.Ok.kfree (ok : element.Ok) :
    element.kfree = element.ptr.blocks := by
  rw [IeElement.kfree]
  cases ptr : element.ptr with
  | null => exact ite_self _
  | zeroSize => exact ite_self _
  | borrowed =>
    cases needsFree : element.needsFree with
    | false => rfl
    | true => exact absurd ptr (ok.lent needsFree)
  | allocated id => exact if_pos (ok.owned id ptr)

/-- All elements of an identifier say truly whether their data is to be freed. -/
structure Slot.Ok (slot : Slot) : Prop where
  head : slot.head.Ok
  next : ∀ node ∈ slot.next, node.element.Ok

@[simp] theorem nodeBlocks_nil : nodeBlocks [] = 0 := rfl

@[simp] theorem nodeBlocks_cons (node : IeNode) (rest : List IeNode) :
    nodeBlocks (node :: rest) =
      node.element.ptr.blocks + {.allocated node.id} + nodeBlocks rest := by
  simp only [nodeBlocks, List.map_cons, List.sum_cons]

variable {nodes : List IeNode}

theorem freeEidIesList_eq (ok : ∀ node ∈ nodes, node.element.Ok) :
    freeEidIesList nodes = nodeBlocks nodes := by
  induction nodes with
  | nil => rfl
  | cons node rest ih =>
    rw [freeEidIesList, nodeBlocks_cons, (ok node List.mem_cons_self).kfree,
      ih fun other member => ok other (List.mem_cons_of_mem _ member)]

theorem nodeBlocks_concat (nodes : List IeNode) (id : Nat) :
    nodeBlocks (nodes ++ [⟨id, IeElement.zero⟩]) = nodeBlocks nodes + {.allocated id} := by
  induction nodes with
  | nil => rfl
  | cons node rest ih =>
    rw [List.cons_append, nodeBlocks_cons, nodeBlocks_cons, ih, ← add_assoc]

/-- The element at a place. -/
def Slot.element? (slot : Slot) : Place → Option IeElement
  | .head => some slot.head
  | .extra index => slot.next[index]?.map IeNode.element

theorem nodeBlocks_modify (found : nodes[index]?.map IeNode.element = some element)
    (change : IeElement → IeElement) :
    nodeBlocks (nodes.modify index fun node => { node with element := change node.element }) +
        element.ptr.blocks =
      nodeBlocks nodes + (change element).ptr.blocks := by
  induction nodes generalizing index with
  | nil => cases found
  | cons node rest ih =>
    cases index with
    | zero =>
      cases found
      rw [List.modify_zero_cons, nodeBlocks_cons, nodeBlocks_cons]
      abel
    | succ index =>
      have later := ih found
      rw [List.modify_succ_cons, nodeBlocks_cons, nodeBlocks_cons, add_assoc, later, ← add_assoc]

variable {slot : Slot} {place : Place}

theorem Slot.blocks_modify (found : slot.element? place = some element)
    (change : IeElement → IeElement) :
    (slot.modify place change).blocks + element.ptr.blocks =
      slot.blocks + (change element).ptr.blocks := by
  cases place with
  | head =>
    cases found
    simp only [Slot.modify, Slot.blocks]
    abel
  | extra index =>
    simp only [Slot.modify, Slot.blocks, add_assoc]
    rw [nodeBlocks_modify found]

variable {change : IeElement → IeElement}

theorem Slot.Ok.modify (ok : slot.Ok) (found : slot.element? place = some element)
    (changed : (change element).Ok) :
    (slot.modify place change).Ok := by
  cases place with
  | head =>
    cases found
    exact ⟨changed, ok.next⟩
  | extra index =>
    refine ⟨ok.head, fun node member => ?_⟩
    obtain ⟨position, bound, rfl⟩ := List.getElem_of_mem member
    have inside : position < slot.next.length := by
      rwa [Slot.modify, List.length_modify] at bound
    simp only [Slot.modify, List.getElem_modify]
    split
    · next same =>
        subst same
        rw [Slot.element?, List.getElem?_eq_getElem inside] at found
        cases found
        exact changed
    · exact ok.next _ (List.getElem_mem inside)

theorem Slot.next_modify (slot : Slot) (place : Place) (change : IeElement → IeElement) :
    (slot.modify place change).next = [] ↔ slot.next = [] := by
  cases place with
  | head => rfl
  | extra index =>
    rw [← List.length_eq_zero_iff, ← List.length_eq_zero_iff, Slot.modify, List.length_modify]

/-! ## The account -/

variable {memory : Nat → Bool} {mask : IesMask} {eid : Eid}

theorem issued_succ (memory : Nat → Bool) (asked : Nat) :
    issued memory (asked + 1) =
      issued memory asked + if memory asked then {.allocated asked} else 0 := by
  rw [issued, issued, List.range_succ, List.filter_append, List.map_append, ← Multiset.coe_add,
    Multiset.cons_add]
  cases granted : memory asked with
  | false => simp only [List.filter_cons, granted, Bool.false_eq_true, if_false, List.filter_nil,
      List.map_nil, Multiset.coe_nil]
  | true => simp only [List.filter_cons, granted, if_true, List.filter_nil, List.map_cons,
      List.map_nil, Multiset.coe_singleton]

theorem nodup_issued (memory : Nat → Bool) (asked : Nat) : (issued memory asked).Nodup := by
  refine Multiset.nodup_cons.mpr ⟨fun member => ?_, ?_⟩
  · obtain ⟨id, -, same⟩ := List.mem_map.mp (Multiset.mem_coe.mp member)
    cases same
  · refine Multiset.coe_nodup.mpr (List.Nodup.map ?_ (List.nodup_range.filter _))
    exact fun first second same => Block.allocated.inj same

/-- What holds between operations. -/
structure IesMask.Kept (memory : Nat → Bool) (mask : IesMask) : Prop where
  balance : Balanced (Ies.issued memory mask.asked) mask.freed mask.reachable
  ok : ∀ eid, (mask.ies eid).Ok
  more : ∀ eid, (mask.ies eid).next ≠ [] → mask.moreThanOneIe eid = true
  cleared : ∀ slot ∈ mask.cleared, slot.head.ptr = .null ∧ slot.next = []

theorem IesMask.Kept.owns (kept : mask.Kept memory) : mask.Owns memory where
  once := kept.balance.nodup_returned (nodup_issued memory mask.asked)
  own := fun _ freed => kept.balance.mem_issued freed
  live := fun _ reached => kept.balance.notMem_returned (nodup_issued memory mask.asked) reached
  kept := fun _ allocated => kept.balance.mem_or_mem allocated
  cleared := kept.cleared

theorem IesMask.reachable_of_alive (alive : mask.alive = true) :
    mask.reachable = holdings Slot.blocks mask.ies + {.mask} :=
  if_pos alive

variable {next : IesMask}

theorem IesMask.Kept.replace (kept : mask.Kept memory) (alive : mask.alive = true)
    (stays : next.alive = true) (ies : next.ies = Function.update mask.ies eid slot)
    (account : next.freed + slot.blocks + issued memory mask.asked =
      mask.freed + (mask.ies eid).blocks + issued memory next.asked)
    (ok : slot.Ok)
    (more : slot.next ≠ [] → next.moreThanOneIe eid = true)
    (others : ∀ other, other ≠ eid → next.moreThanOneIe other = mask.moreThanOneIe other)
    (cleared : ∀ slot ∈ next.cleared, slot.head.ptr = .null ∧ slot.next = []) :
    next.Kept memory := by
  have balance := kept.balance
  rw [IesMask.reachable_of_alive alive] at balance
  refine ⟨?_, fun other => ?_, fun other some => ?_, cleared⟩
  · rw [IesMask.reachable_of_alive stays, ies]
    exact balance.update eid slot account
  · by_cases same : other = eid
    · rw [ies, same, Function.update_self]
      exact ok
    · rw [ies, Function.update_of_ne same]
      exact kept.ok other
  · by_cases same : other = eid
    · rw [ies, same, Function.update_self] at some
      rw [same]
      exact more some
    · rw [ies, Function.update_of_ne same] at some
      rw [others other same]
      exact kept.more other some

/-! ## Operations -/

theorem IesMask.Kept.clearEid (kept : mask.Kept memory) (alive : mask.alive = true)
    (single : (mask.ies eid).next = []) :
    (clearEidFromIesMask mask eid).Kept memory := by
  have ok := kept.ok eid
  refine kept.replace alive alive rfl ?_ ⟨IeElement.ok_of_null rfl, ok.next⟩ (kept.more eid)
    (fun _ _ => rfl) ?_
  · simp only [clearEidFromIesMask, Slot.blocks, single, freeEidIesList, ok.head.kfree,
      nodeBlocks_nil, Ptr.blocks, add_zero]
  · intro slot member
    rcases List.mem_cons.mp member with rfl | earlier
    · exact ⟨rfl, single⟩
    · exact kept.cleared slot earlier

theorem next_clearEid (mask : IesMask) (eid other : Eid) :
    ((clearEidFromIesMask mask eid).ies other).next = (mask.ies other).next := by
  by_cases same : other = eid
  · simp only [clearEidFromIesMask, same, Function.update_self]
  · simp only [clearEidFromIesMask, Function.update_of_ne same]

theorem IesMask.Kept.clearEids (eids : List Eid) (kept : mask.Kept memory)
    (alive : mask.alive = true) (single : ∀ eid ∈ eids, (mask.ies eid).next = []) :
    (eids.foldl clearEidFromIesMask mask).Kept memory := by
  induction eids generalizing mask with
  | nil => exact kept
  | cons eid rest ih =>
    refine ih (kept.clearEid alive (single eid List.mem_cons_self)) alive ?_
    intro other member
    rw [next_clearEid]
    exact single other (List.mem_cons_of_mem _ member)

theorem IesMask.Kept.modify {asked : Nat} (kept : mask.Kept memory) (alive : mask.alive = true)
    (found : (mask.ies eid).element? place = some element) (changed : (change element).Ok)
    (account : (change element).ptr.blocks + issued memory mask.asked =
      element.ptr.blocks + issued memory asked) :
    { mask.modify eid place change with asked := asked }.Kept memory := by
  refine kept.replace alive alive rfl ?_ ((kept.ok eid).modify found changed) (fun some => ?_)
    (fun _ _ => rfl) kept.cleared
  · have blocks := Slot.blocks_modify found change
    refine add_right_cancel (b := element.ptr.blocks) ?_
    calc mask.freed + ((mask.ies eid).modify place change).blocks + issued memory mask.asked +
          element.ptr.blocks
        = mask.freed + (((mask.ies eid).modify place change).blocks + element.ptr.blocks) +
            issued memory mask.asked := by abel
      _ = mask.freed + (mask.ies eid).blocks +
            ((change element).ptr.blocks + issued memory mask.asked) := by rw [blocks]; abel
      _ = mask.freed + (mask.ies eid).blocks + issued memory asked + element.ptr.blocks := by
          rw [account]; abel
  · exact kept.more eid fun none => some ((Slot.next_modify _ _ _).mpr none)

theorem IesMask.Kept.refused (kept : mask.Kept memory) (refused : memory mask.asked = false) :
    { mask with asked := mask.asked + 1 }.Kept memory := by
  refine ⟨?_, kept.ok, kept.more, kept.cleared⟩
  have same : issued memory (mask.asked + 1) = issued memory mask.asked := by
    rw [issued_succ, refused, if_neg Bool.false_ne_true, add_zero]
  rw [same]
  exact kept.balance

/-- What `iesCreateIeElement` makes room for. -/
structure IesMask.Room (memory : Nat → Bool) (mask placed : IesMask) (eid : Eid)
    (place : Option Place) : Prop where
  kept : placed.Kept memory
  alive : placed.alive = true
  found : ∀ at_, place = some at_ → ∃ element, (placed.ies eid).element? at_ = some element ∧
    element.ptr = .null

variable {onlyOne : Bool}

theorem IesMask.Kept.createPlace (kept : mask.Kept memory) (alive : mask.alive = true)
    (single : onlyOne = true → (mask.ies eid).head.ptr ≠ .null → (mask.ies eid).next = []) :
    mask.Room memory (createPlace memory mask eid onlyOne).2 eid
      (createPlace memory mask eid onlyOne).1 := by
  rw [Ies.createPlace]
  split
  · next free =>
      refine ⟨kept, alive, fun place same => ?_⟩
      cases same
      exact ⟨_, rfl, free⟩
  · next taken =>
      split
      · next overrides =>
          refine ⟨kept.clearEid alive (single overrides taken), alive, fun place same => ?_⟩
          cases same
          refine ⟨_, rfl, ?_⟩
          simp only [clearEidFromIesMask, Function.update_self]
      · split
        · next granted =>
            refine ⟨?_, alive, fun place same => ?_⟩
            · have ok := kept.ok eid
              refine kept.replace alive alive rfl ?_ ⟨ok.head, fun node member => ?_⟩
                (fun _ => Function.update_self _ _ _)
                (fun other differ => Function.update_of_ne differ _ _) kept.cleared
              · simp only [Slot.blocks, nodeBlocks_concat, issued_succ, granted, if_true]
                abel
              · rcases List.mem_append.mp member with earlier | new
                · exact ok.next node earlier
                · rw [List.mem_singleton.mp new]
                  exact IeElement.ok_of_null rfl
            · cases same
              refine ⟨IeElement.zero, ?_, rfl⟩
              simp only [Function.update_self, Slot.element?, List.getElem?_concat_length,
                Option.map_some]
        · next refused =>
            exact ⟨kept.refused (Bool.eq_false_iff.mpr refused), alive, fun place same => by
              cases same⟩

theorem IesMask.Kept.createData (kept : mask.Kept memory) (alive : mask.alive = true)
    (found : (mask.ies eid).element? place = some element) (empty : element.ptr = .null)
    (length : Nat) (alloc : Bool) :
    (createData memory mask eid place length alloc).2.Kept memory := by
  rw [Ies.createData]
  cases alloc with
  | false =>
    exact kept.modify alive found (IeElement.ok_of_null empty) rfl
  | true =>
    rw [kzalloc]
    by_cases none : length = 0
    · rw [if_pos none]
      exact kept.modify alive found
        ⟨(fun _ same => by cases same), (fun _ same => by cases same)⟩ (by rw [empty]; rfl)
    · rw [if_neg none]
      cases granted : memory mask.asked with
      | false =>
        exact (kept.refused granted).modify alive found (IeElement.ok_of_null rfl)
          (by rw [empty])
      | true =>
        refine kept.modify alive found ⟨fun _ _ => rfl, (fun _ same => by cases same)⟩ ?_
        rw [empty, issued_succ, granted]
        exact (add_comm _ _).trans (zero_add _).symm

theorem createData_alive (mask : IesMask) (eid : Eid) (place : Place) (length : Nat)
    (alloc : Bool) :
    (createData memory mask eid place length alloc).2.alive = mask.alive := by
  rw [createData]
  cases alloc with
  | false => rfl
  | true =>
    rw [kzalloc]
    by_cases none : length = 0
    · rw [if_pos none]
      rfl
    · rw [if_neg none]
      cases memory mask.asked with
      | false => rfl
      | true => rfl

theorem IesMask.Kept.create (kept : mask.Kept memory) (alive : mask.alive = true)
    (single : onlyOne = true → (mask.ies eid).head.ptr ≠ .null → (mask.ies eid).next = [])
    (length : Nat) (alloc : Bool) :
    (iesCreateIeElement memory mask eid length alloc onlyOne).2.Kept memory ∧
      (iesCreateIeElement memory mask eid length alloc onlyOne).2.alive = true := by
  have room := kept.createPlace alive single
  rw [iesCreateIeElement]
  split
  · next place placed made =>
      rw [made] at room
      obtain ⟨element, found, empty⟩ := room.found place rfl
      exact ⟨room.kept.createData room.alive found empty length alloc,
        (createData_alive placed eid place length alloc).trans room.alive⟩
  · next placed made =>
      rw [made] at room
      exact ⟨room.kept, room.alive⟩

theorem Slot.modify_modify (slot : Slot) (place : Place) (before after : IeElement → IeElement) :
    (slot.modify place before).modify place after =
      slot.modify place fun element => after (before element) := by
  cases place with
  | head => rfl
  | extra index =>
    simp only [Slot.modify, List.modify_modify_eq]
    rfl

theorem IesMask.modify_modify (mask : IesMask) (eid : Eid) (place : Place)
    (before after : IeElement → IeElement) :
    (mask.modify eid place before).modify eid place after =
      mask.modify eid place fun element => after (before element) := by
  simp only [IesMask.modify, Function.update_self, Function.update_idem, Slot.modify_modify]

theorem IesMask.Kept.borrow (kept : mask.Kept memory) (alive : mask.alive = true)
    (single : onlyOne = true → (mask.ies eid).head.ptr ≠ .null → (mask.ies eid).next = [])
    (made : iesCreateIeElement memory mask eid length false onlyOne = (some place, created)) :
    (created.modify eid place fun element => { element with ptr := .borrowed }).Kept memory ∧
      created.alive = true := by
  have room := kept.createPlace alive single
  rw [iesCreateIeElement] at made
  split at made
  · next first placed given =>
      rw [given] at room
      obtain ⟨element, found, empty⟩ := room.found first rfl
      cases made
      rw [IesMask.modify_modify]
      refine ⟨room.kept.modify room.alive found
        ⟨(fun _ same => by cases same), (fun needsFree => by cases needsFree)⟩ ?_, room.alive⟩
      rw [empty]
      rfl
  · cases made

theorem IesMask.Kept.createBorrowed (kept : mask.Kept memory) (alive : mask.alive = true)
    (single : onlyOne = true → (mask.ies eid).head.ptr ≠ .null → (mask.ies eid).next = [])
    (length : Nat) :
    (createBorrowed memory mask eid length onlyOne).Kept memory := by
  rw [Ies.createBorrowed]
  split
  · next place created made => exact (kept.borrow alive single made).1
  · next created made =>
      have spec := kept.create alive single length false
      rw [made] at spec
      exact spec.1

theorem IesMask.Kept.parseIes (octets : List (BitVec 8)) (kept : mask.Kept memory)
    (alive : mask.alive = true) :
    (parseIes memory mask octets).2.Kept memory := by
  induction mask, octets using parseIes.induct memory with
  | case1 mask id elen rest fils =>
    rw [Ies.parseIes, if_pos fils]
    exact ⟨kept.balance, kept.ok, kept.more, kept.cleared⟩
  | case2 mask id elen rest fils short =>
    rw [Ies.parseIes, if_neg fils, if_pos short]
    exact kept
  | case3 mask id elen rest fils long place created made ih =>
    rw [Ies.parseIes, if_neg fils, if_neg long, made]
    have spec := kept.borrow alive (fun only => by cases only) made
    exact ih spec.1 spec.2
  | case4 mask id elen rest fils long created made =>
    rw [Ies.parseIes, if_neg fils, if_neg long, made]
    have spec := @IesMask.Kept.create memory mask id.toFin false kept alive
      (fun only => by cases only) elen.toNat false
    rw [made] at spec
    exact spec.1
  | case5 mask =>
    rw [Ies.parseIes]
    exact kept
  | case6 mask last =>
    rw [Ies.parseIes]
    exact kept

theorem IesMask.Kept.freed (kept : mask.Kept memory) :
    iesMaskFreed mask = holdings Slot.blocks mask.ies := by
  rw [iesMaskFreed, ← Finset.sum_add_distrib]
  refine Finset.sum_congr rfl fun eid _ => ?_
  rw [(kept.ok eid).head.kfree, add_comm]
  congr 1
  split
  · exact freeEidIesList_eq (kept.ok eid).next
  · next single =>
      have empty : (mask.ies eid).next = [] := by
        by_contra some
        exact single (kept.more eid some)
      rw [empty]
      rfl

theorem holdings_zero : holdings Slot.blocks (fun _ : Eid => ⟨IeElement.zero, []⟩) = 0 :=
  Finset.sum_const_zero

theorem IesMask.Kept.clear (kept : mask.Kept memory) (alive : mask.alive = true) :
    (iesMaskClear mask).Kept memory := by
  have balance := kept.balance
  refine ⟨?_, fun _ => ⟨IeElement.ok_of_null rfl, fun _ member => by cases member⟩,
    fun _ some => absurd rfl some, kept.cleared⟩
  rw [IesMask.reachable_of_alive alive] at balance
  have stays : (iesMaskClear mask).alive = true := alive
  have same : (iesMaskClear mask).reachable = 0 + {.mask} := by
    rw [IesMask.reachable_of_alive stays, ← holdings_zero]
    rfl
  rw [same, iesMaskClear, kept.freed]
  calc mask.freed + holdings Slot.blocks mask.ies + (0 + {.mask})
      = mask.freed + (holdings Slot.blocks mask.ies + {.mask}) := by rw [zero_add, add_assoc]
    _ = issued memory mask.asked := balance

theorem IesMask.Kept.free (kept : mask.Kept memory) (alive : mask.alive = true) :
    (iesMaskFree mask).Kept memory := by
  have balance := kept.balance
  refine ⟨?_, kept.ok, kept.more, kept.cleared⟩
  rw [IesMask.reachable_of_alive alive] at balance
  rw [iesMaskFree, kept.freed]
  calc mask.freed + holdings Slot.blocks mask.ies + {.mask} + 0
      = mask.freed + (holdings Slot.blocks mask.ies + {.mask}) := by rw [add_zero, add_assoc]
    _ = issued memory mask.asked := balance

/-! ## Runs -/

theorem IesMask.empty_kept : IesMask.empty.Kept memory := by
  refine ⟨?_, fun _ => ⟨IeElement.ok_of_null rfl, fun _ member => by cases member⟩,
    fun _ some => absurd rfl some, fun _ member => by cases member⟩
  have same : IesMask.empty.reachable = 0 + {.mask} := by
    rw [← holdings_zero]
    rfl
  rw [same]
  rfl

theorem IesMask.Kept.step (kept : mask.Kept memory) (single : SingleCleared mask action)
    (taken : maskStep memory mask action = some next) :
    next.Kept memory := by
  rw [maskStep.eq_def] at taken
  split at taken
  · next alive =>
      cases action with
      | parse octets =>
        cases taken
        exact kept.parseIes octets alive
      | create eid length alloc onlyOne =>
        cases taken
        exact (kept.create alive single length alloc).1
      | borrow eid length onlyOne =>
        cases taken
        exact kept.createBorrowed alive single length
      | insert eid length =>
        cases taken
        exact (kept.create alive (fun _ => single) length true).1
      | clearEid eid =>
        cases taken
        exact kept.clearEid alive single
      | maskIes maskExtCap isBeacon =>
        cases taken
        exact kept.clearEids _ alive single
      | clear =>
        cases taken
        exact kept.clear alive
      | free =>
        cases taken
        exact kept.free alive
  · cases taken

/-- In every sequence of operations that clears or overrides no identifier with more than
one element, the mask owns what it allocated. -/
theorem owns_of_reaches (memory : Nat → Bool) {mask : IesMask}
    (reaches : Reaches (maskStep memory) SingleCleared IesMask.empty mask) :
    mask.Owns memory := by
  refine IesMask.Kept.owns ?_
  refine @Reaches.invariant _ _ (maskStep memory) SingleCleared IesMask.empty mask
    (IesMask.Kept memory) IesMask.empty_kept ?_ reaches
  intro before action after kept single taken
  exact kept.step single taken

theorem owns_of_reaches_two :
    ∃ mask, Reaches (maskStep fun _ => true) SingleCleared IesMask.empty mask ∧
      mask.Owns (fun _ => true) ∧ mask.alive = false := by
  have reaches : Reaches (maskStep fun _ => true) SingleCleared IesMask.empty _ :=
    @Reaches.of_run _ _ (maskStep fun _ => true) SingleCleared IesMask.empty _
      [.borrow 221 1 false, .borrow 221 1 false, .insert 48 2, .clearEid 48, .free]
      ⟨(fun only => by cases only), (fun only => by cases only), (fun _ => rfl), rfl, trivial,
        trivial⟩ rfl
  exact ⟨_, reaches, owns_of_reaches _ reaches, rfl⟩

/-- A frame with two RSN elements, which are cleared. -/
def clearTwo : List MaskAction := [.borrow 48 1 false, .borrow 48 1 false, .clearEid 48]

/-- Where an identifier with more than one element is cleared, elements are left. -/
theorem not_owns_of_reaches :
    ¬ ∀ (memory : Nat → Bool) (mask : IesMask),
      Reaches (maskStep memory) (fun _ _ => True) IesMask.empty mask → mask.Owns memory := by
  intro holds
  have reaches : Reaches (maskStep fun _ => true) (fun _ _ => True) IesMask.empty _ :=
    @Reaches.of_run _ _ (maskStep fun _ => true) (fun _ _ => True) IesMask.empty _ clearTwo
      (guarded_true _ _) rfl
  have none := ((holds _ _ reaches).cleared _ List.mem_cons_self).2
  cases none

end Ies
end Morse
