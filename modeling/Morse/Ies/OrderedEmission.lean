import Morse.Ies.Order

/-!
# Elements that are written in order

Elements are read into the element table and written from it in the order of a table.
Written are those of the identifiers that are listed, in this order, and of one identifier
in the order in which they came, if those of one identifier are all empty or none is.
-/

namespace Morse
namespace Ies

/-! ## What is expected -/

/-- The elements of an identifier that are to be written: empty ones only as wild cards. -/
def expectedElements (elements : List Element) (eid : Eid) : List Element :=
  elements.filter fun element =>
    decide (element.eid = eid) && (isWildcard eid || decide (element.data.val.length ≠ 0))

/-- Elements that are read into an empty table are written as expected, followed in a frame
of mesh peering by the block at its end, and the length that is returned without writing is
the number of octets written. -/
def WritesInOrder
    (mpmAmpeLen : Skb → Nat)
    (octets : List (BitVec 8))
    (skb : Skb)
    (frameControl : BitVec 16) : Prop :=
  ∀ table ∈ orderTable frameControl skb,
    (insertOrderedIesFromIesMask mpmAmpeLen true skb (Contents.empty.parse octets)
        frameControl).1 =
      (table.flatMap (expectedElements (parse octets).1)).flatMap Element.octets ++
        skb.last (ampeLen mpmAmpeLen frameControl skb) ∧
    (insertOrderedIesFromIesMask mpmAmpeLen false skb (Contents.empty.parse octets)
        frameControl).2 =
      (insertOrderedIesFromIesMask mpmAmpeLen true skb (Contents.empty.parse octets)
        frameControl).1.length

/-- The elements of an identifier are written as expected: they may be empty, or none is, or
all are. -/
def Uniform (octets : List (BitVec 8)) (eid : Eid) : Prop :=
  isWildcard eid = true ∨ (∀ data ∈ dataOf eid (parse octets).1, data.val.length ≠ 0) ∨
    ∀ data ∈ dataOf eid (parse octets).1, data.val.length = 0

/-! ## Lengths -/

theorem Element.length_octets (element : Element) :
    element.octets.length = element.data.val.length + 2 := rfl

theorem foldl_extras (eid : Eid) (extras : List Data) (length : Nat) :
    extras.foldl (fun length extra => length + (extra.val.length + 2)) length =
      length + ((extras.map (Element.mk eid)).flatMap Element.octets).length := by
  induction extras generalizing length with
  | nil => rfl
  | cons extra rest ih =>
    rw [List.foldl_cons, ih, List.map_cons, List.flatMap_cons, List.length_append,
      Element.length_octets]
    dsimp only
    omega

theorem orderedLength_eq (mask : Contents) (eid : Eid) :
    orderedLength mask eid = ((orderedElements mask eid).flatMap Element.octets).length := by
  cases head : (mask eid).head with
  | none => simp only [orderedLength, orderedElements, head, List.flatMap_nil, List.length_nil]
  | some data =>
    simp only [orderedLength, orderedElements, head]
    split
    · rfl
    · rw [foldl_extras eid, List.flatMap_cons, List.length_append, Element.length_octets]

theorem foldl_orderedLength (mask : Contents) (table : List Eid) (length : Nat) :
    table.foldl (fun length eid => length + orderedLength mask eid) length =
      ((table.flatMap (orderedElements mask)).flatMap Element.octets).length + length := by
  induction table generalizing length with
  | nil => exact (Nat.zero_add length).symm
  | cons eid rest ih =>
    rw [List.foldl_cons, ih, List.flatMap_cons, List.flatMap_append,
      List.length_append, orderedLength_eq]
    omega

theorem Skb.length_last (skb : Skb) (count : Nat) : (skb.last count).length = count := by
  rw [Skb.last, List.length_map, List.length_range]

theorem insertOrdered_length (mpmAmpeLen : Skb → Nat) (skb : Skb) (mask : Contents)
    (frameControl : BitVec 16) :
    (insertOrderedIesFromIesMask mpmAmpeLen false skb mask frameControl).2 =
      (insertOrderedIesFromIesMask mpmAmpeLen true skb mask frameControl).1.length := by
  rw [insertOrderedIesFromIesMask, insertOrderedIesFromIesMask]
  cases orderTable frameControl skb with
  | none => rfl
  | some table =>
    simp only [if_true, List.length_append, Skb.length_last, foldl_orderedLength]

/-! ## Elements in octets -/

theorem walk_flatMap (elements : List Element) :
    walk (elements.flatMap Element.octets) = elements := by
  induction elements with
  | nil => rw [List.flatMap_nil, walk]
  | cons element rest ih => rw [List.flatMap_cons, walk_octets, ih]

theorem flatMap_octets_injective {first second : List Element}
    (same : first.flatMap Element.octets = second.flatMap Element.octets) :
    first = second := by
  rw [← walk_flatMap first, same, walk_flatMap]

variable {table : List Eid}

theorem flatMap_eq_flatMap_iff {first second : Eid → List Element}
    (firstKeyed : ∀ eid, ∀ element ∈ first eid, element.eid = eid)
    (secondKeyed : ∀ eid, ∀ element ∈ second eid, element.eid = eid) (nodup : table.Nodup) :
    table.flatMap first = table.flatMap second ↔ ∀ eid ∈ table, first eid = second eid := by
  have own : ∀ (lists : Eid → List Element),
      (∀ eid, ∀ element ∈ lists eid, element.eid = eid) →
        ∀ (eid : Eid) (rest : List Eid), eid ∉ rest →
          (lists eid ++ rest.flatMap lists).filter (fun element => element.eid = eid) =
            lists eid := by
    intro lists keyed eid rest apart
    rw [List.filter_append, List.filter_eq_self.mpr, List.filter_eq_nil_iff.mpr,
      List.append_nil]
    · intro element mem
      obtain ⟨other, there, found⟩ := List.mem_flatMap.mp mem
      rw [decide_eq_true_eq, keyed other element found]
      rintro rfl
      exact apart there
    · intro element mem
      exact decide_eq_true (keyed eid element mem)
  induction table with
  | nil => simp only [List.flatMap_nil, List.not_mem_nil, false_implies, implies_true]
  | cons eid rest ih =>
    obtain ⟨apart, others⟩ := List.nodup_cons.mp nodup
    rw [List.flatMap_cons, List.flatMap_cons, List.forall_mem_cons]
    constructor
    · intro same
      have here : first eid = second eid := by
        rw [← own first firstKeyed eid rest apart, same, own second secondKeyed eid rest apart]
      rw [here] at same
      exact ⟨here, (ih others).mp (List.append_cancel_left same)⟩
    · rintro ⟨here, later⟩
      rw [here, (ih others).mpr later]

/-! ## The elements of an identifier -/

/-- What is written of the data of an identifier: nothing, if the first is empty and is no
wild card. -/
def writtenElements (eid : Eid) : List Data → List Element
  | [] => []
  | data :: rest =>
    if data.val.length = 0 ∧ isWildcard eid = false then []
    else (data :: rest).map (Element.mk eid)

theorem orderedElements_parse (octets : List (BitVec 8)) (eid : Eid) :
    orderedElements (Contents.empty.parse octets) eid =
      writtenElements eid (dataOf eid (parse octets).1) := by
  obtain ⟨all, -⟩ := Contents.all_parse Contents.empty eid (fun _ => rfl) octets
  have none : (Contents.empty eid).all = [] := rfl
  rw [none, List.nil_append] at all
  rw [orderedElements, ← all, Cell.all]
  cases (Contents.empty.parse octets eid).head with
  | none => rfl
  | some data => rfl

theorem eid_of_mem_writtenElements (mem : element ∈ writtenElements eid listed) :
    element.eid = eid := by
  cases listed with
  | nil => cases mem
  | cons data rest =>
    rw [writtenElements] at mem
    split at mem
    · cases mem
    · obtain ⟨written, -, rfl⟩ := List.mem_map.mp mem
      rfl

theorem expectedElements_eq (elements : List Element) (eid : Eid) :
    expectedElements elements eid =
      ((dataOf eid elements).filter fun data =>
        isWildcard eid || decide (data.val.length ≠ 0)).map (Element.mk eid) := by
  induction elements with
  | nil => rfl
  | cons element rest ih =>
    rw [expectedElements, dataOf] at ih ⊢
    by_cases own : element.eid = eid
    · subst own
      rw [List.filter_cons, List.filter_cons_of_pos (by simp only [decide_true]), List.map_cons,
        List.filter_cons]
      simp only [decide_true, Bool.true_and]
      split
      · rw [List.map_cons, ih]
      · exact ih
    · rw [List.filter_cons_of_neg (by simp only [own, decide_false, Bool.false_and,
          Bool.false_eq_true, not_false_eq_true]),
        List.filter_cons_of_neg (by simp only [own, decide_false, Bool.false_eq_true,
          not_false_eq_true])]
      exact ih

theorem mk_injective (eid : Eid) : Function.Injective (Element.mk eid) := by
  intro first second same
  injection same

theorem orderedElements_eq_iff (octets : List (BitVec 8)) (eid : Eid) :
    orderedElements (Contents.empty.parse octets) eid =
        expectedElements (parse octets).1 eid ↔ Uniform octets eid := by
  rw [orderedElements_parse, expectedElements_eq, Uniform]
  cases wild : isWildcard eid with
  | true =>
    simp only [Bool.true_or, List.filter_true, true_or, iff_true]
    cases dataOf eid (parse octets).1 with
    | nil => rfl
    | cons data rest => simp only [writtenElements, wild, Bool.true_eq_false, and_false, if_false]
  | false =>
    simp only [Bool.false_or, Bool.false_eq_true, false_or]
    cases listed : dataOf eid (parse octets).1 with
    | nil => simp [writtenElements]
    | cons data rest =>
      simp only [List.forall_mem_cons, writtenElements, wild, and_true]
      by_cases empty : data.val.length = 0
      · rw [if_pos empty, List.filter_cons_of_neg (by simp only [empty, ne_eq,
          not_true_eq_false, decide_false, Bool.false_eq_true, not_false_eq_true]), eq_comm,
          List.map_eq_nil_iff, List.filter_eq_nil_iff]
        simp only [ne_eq, empty, not_true_eq_false, false_and, true_and, false_or,
          decide_not, Bool.not_eq_true', decide_eq_false_iff_not, not_not]
      · rw [if_neg empty, (List.map_injective_iff.mpr (mk_injective eid)).eq_iff,
          eq_comm, List.filter_eq_self]
        simp only [List.forall_mem_cons, ne_eq, empty, not_false_eq_true, true_and,
          decide_eq_true_eq, false_and, or_false]

/-! ## Order tables -/

variable {frameControl : BitVec 16} {skb : Skb}

theorem orderTable_nodup (chosen : orderTable frameControl skb = some table) :
    table.Nodup := by
  have shortBeacon : morseExtS1gShortBeaconIesOrder.Nodup := by decide
  have beacon : morseExtS1gBeaconIesOrder.Nodup := by decide
  have probeRequest : morseMgmtProbeRequestIesOrder.Nodup := by decide
  have probeResponse : morseMgmtProbeResponseIesOrder.Nodup := by decide
  have assocRequest : morseMgmtAssocRequestIesOrder.Nodup := by decide
  have assocResponse : morseMgmtAssocResponseIesOrder.Nodup := by decide
  have meshPeering : morseMgmtMeshPeeringMgmtIesOrder.Nodup := by decide
  have known : table ∈ [morseExtS1gShortBeaconIesOrder, morseExtS1gBeaconIesOrder,
      morseMgmtProbeRequestIesOrder, morseMgmtProbeResponseIesOrder,
      morseMgmtAssocRequestIesOrder, morseMgmtAssocResponseIesOrder,
      morseMgmtMeshPeeringMgmtIesOrder] := by
    unfold orderTable at chosen
    grind
  simp only [List.mem_cons, List.not_mem_nil, or_false] at known
  rcases known with rfl | rfl | rfl | rfl | rfl | rfl | rfl
  all_goals assumption

theorem insertOrdered_eq_iff (chosen : orderTable frameControl skb = some table)
    (mpmAmpeLen : Skb → Nat) (octets : List (BitVec 8)) :
    (insertOrderedIesFromIesMask mpmAmpeLen true skb (Contents.empty.parse octets)
        frameControl).1 =
        (table.flatMap (expectedElements (parse octets).1)).flatMap Element.octets ++
          skb.last (ampeLen mpmAmpeLen frameControl skb) ↔
      ∀ eid ∈ table, Uniform octets eid := by
  have each : table.flatMap (orderedElements (Contents.empty.parse octets)) =
      table.flatMap (expectedElements (parse octets).1) ↔
        ∀ eid ∈ table, Uniform octets eid := by
    rw [flatMap_eq_flatMap_iff _ _ (orderTable_nodup chosen)]
    · exact forall₂_congr fun eid _ => orderedElements_eq_iff octets eid
    · intro eid element mem
      rw [orderedElements_parse] at mem
      exact eid_of_mem_writtenElements mem
    · intro eid element mem
      rw [expectedElements_eq] at mem
      obtain ⟨data, -, rfl⟩ := List.mem_map.mp mem
      rfl
  have written : (insertOrderedIesFromIesMask mpmAmpeLen true skb (Contents.empty.parse octets)
      frameControl).1 =
        (table.flatMap (orderedElements (Contents.empty.parse octets))).flatMap Element.octets ++
          skb.last (ampeLen mpmAmpeLen frameControl skb) := by
    rw [insertOrderedIesFromIesMask, chosen]
    rfl
  rw [← each, written, List.append_left_inj]
  constructor
  · exact flatMap_octets_injective
  · exact congrArg _

/-- Elements are written in order if and only if, for every identifier of the order table
but those of wild cards, all are empty or none is. -/
theorem writesInOrder_iff (mpmAmpeLen : Skb → Nat) (octets : List (BitVec 8)) (skb : Skb)
    (frameControl : BitVec 16) :
    WritesInOrder mpmAmpeLen octets skb frameControl ↔
      ∀ table ∈ orderTable frameControl skb, ∀ eid ∈ table, Uniform octets eid := by
  refine forall₂_congr ?_
  intro table chosen
  rw [insertOrdered_eq_iff chosen mpmAmpeLen octets,
    and_iff_left (insertOrdered_length mpmAmpeLen skb _ frameControl)]

/-! ## Two vendor specific elements -/

/-- A vendor specific element without data. -/
def emptyVendorElement : Element := ⟨wlanEidVendorSpecific, noData⟩

/-- A vendor specific element with an octet. -/
def shortVendorElement : Element := ⟨wlanEidVendorSpecific, ⟨[7], by decide⟩⟩

/-- The octets of both. -/
def vendorOctets : List (BitVec 8) := emptyVendorElement.octets ++ shortVendorElement.octets

theorem parse_vendorOctets :
    parse vendorOctets = ([emptyVendorElement, shortVendorElement], .done) := by
  have last := parse_octets shortVendorElement [] rfl
  rw [List.append_nil, parse] at last
  rw [vendorOctets, parse_octets emptyVendorElement shortVendorElement.octets rfl, last]

/-- In a probe request the second element is left out because the first is empty. -/
theorem not_writesInOrder_vendor :
    (parse vendorOctets).2 = .done ∧
      ¬ WritesInOrder (fun _ => 0) vendorOctets ⟨0, fun _ => 0⟩ 0x0040 := by
  refine ⟨congrArg Prod.snd parse_vendorOctets, ?_⟩
  intro ordered
  have chosen : orderTable 0x0040 ⟨0, fun _ => 0⟩ = some morseMgmtProbeRequestIesOrder := by
    decide +kernel
  obtain ⟨written, -⟩ := ordered _ chosen
  have uniform := (insertOrdered_eq_iff chosen _ _).mp written wlanEidVendorSpecific
    (by decide +kernel)
  rw [Uniform] at uniform
  revert uniform
  decide +kernel

end Ies
end Morse
