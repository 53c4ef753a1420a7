import Morse.Ies.OrderedEmission

/-!
# Where an element is in octets

A search leads to the place where the first element of an identifier starts.  In the octets
of elements that is behind those in front of it, and octets that are changed there are
those of its data.
-/

namespace Morse
namespace Ies

/-! ## Searching -/

/-- The place that `cfg80211_find_ie` leads to. -/
def ieOffset (eid : Eid) : List (BitVec 8) → Option Nat
  | id :: elen :: rest =>
    if rest.length < elen.toNat then none
    else if id.toFin = eid then some 0
    else (ieOffset eid (rest.drop elen.toNat)).map fun offset => offset + (2 + elen.toNat)
  | [] => none
  | [_] => none
termination_by octets => octets.length
decreasing_by
  simp only [List.length_drop, List.length_cons]
  omega

/-- The data of the first element of an identifier. -/
def firstData (eid : Eid) (elements : List Element) : Option Data :=
  (elements.find? fun element => element.eid = eid).map Element.data

/-- The octets in front of the first element of an identifier. -/
def startOf (eid : Eid) : List Element → Nat
  | [] => 0
  | element :: rest =>
    if element.eid = eid then 0 else element.octets.length + startOf eid rest

/-- The first element of an identifier ends in so many octets. -/
def EndsWithin (limit : Nat) (elements : List Element) (eid : Eid) : Prop :=
  ∃ data ∈ firstData eid elements, startOf eid elements + (2 + data.val.length) ≤ limit

/-- Octets are changed at some places, one after the other. -/
def setAll (octets : List (BitVec 8)) (changes : List (Nat × BitVec 8)) : List (BitVec 8) :=
  changes.foldl (fun octets change => octets.set change.1 change.2) octets

theorem length_setAll (octets : List (BitVec 8)) (changes : List (Nat × BitVec 8)) :
    (setAll octets changes).length = octets.length := by
  induction changes generalizing octets with
  | nil => rfl
  | cons change rest ih =>
    apply (ih _).trans
    exact List.length_set

/-- Data of which octets are changed. -/
def Data.setAll (data : Data) (changes : List (Nat × BitVec 8)) : Data :=
  ⟨Ies.setAll data.val changes, by
    rw [length_setAll]
    exact data.property⟩

/-- The data of the first element of an identifier is changed. -/
def modifyFirst (eid : Eid) (change : Data → Data) : List Element → List Element
  | [] => []
  | element :: rest =>
    if element.eid = eid then { element with data := change element.data } :: rest
    else element :: modifyFirst eid change rest

/-- The places of changes, counted from further in front. -/
def shifted (offset : Nat) (changes : List (Nat × BitVec 8)) : List (Nat × BitVec 8) :=
  changes.map fun change => (offset + change.1, change.2)

/-! ## The first element of an identifier -/

variable {eid other : Eid}

theorem firstData_cons (eid : Eid) (element : Element) (rest : List Element) :
    firstData eid (element :: rest) =
      if element.eid = eid then some element.data else firstData eid rest := by
  rw [firstData, List.find?_cons]
  by_cases own : element.eid = eid
  · rw [if_pos own, decide_eq_true own]
    rfl
  · rw [if_neg own, decide_eq_false own]
    rfl

theorem firstData_append (eid : Eid) (front behind : List Element) :
    firstData eid (front ++ behind) = (firstData eid front).or (firstData eid behind) := by
  rw [firstData, List.find?_append, Option.map_or]
  rfl

variable {elements : List Element}

theorem firstData_eq_none (omits : ∀ element ∈ elements, element.eid ≠ eid) :
    firstData eid elements = none := by
  rw [firstData, Option.map_eq_none_iff, List.find?_eq_none]
  intro element member
  rw [decide_eq_true_eq]
  exact omits element member

theorem firstData_flatMap {elements : Eid → List Element}
    (keyed : ∀ name, ∀ element ∈ elements name, element.eid = name) {names : List Eid}
    (listed : eid ∈ names) :
    firstData eid (names.flatMap elements) = firstData eid (elements eid) := by
  induction names with
  | nil => cases listed
  | cons name rest ih =>
    rw [List.flatMap_cons, firstData_append]
    by_cases own : name = eid
    · subst own
      cases found : firstData name (elements name) with
      | some data => rfl
      | none =>
        rw [Option.none_or]
        by_cases again : name ∈ rest
        · rw [ih again, found]
        · apply firstData_eq_none
          intro element member same
          obtain ⟨other, there, within⟩ := List.mem_flatMap.mp member
          have key := keyed other element within
          rw [same] at key
          exact again (key ▸ there)
    · have none : firstData eid (elements name) = none := by
        apply firstData_eq_none
        intro element member same
        exact own ((keyed name element member).symm.trans same)
      have later : eid ∈ rest := (List.mem_cons.mp listed).resolve_left (Ne.symm own)
      rw [none, Option.none_or, ih later]

/-! ## A change of data -/

theorem firstData_modifyFirst_self (eid : Eid) (change : Data → Data) (elements : List Element) :
    firstData eid (modifyFirst eid change elements) = (firstData eid elements).map change := by
  induction elements with
  | nil => rfl
  | cons element rest ih =>
    rw [modifyFirst, firstData_cons]
    by_cases own : element.eid = eid
    · rw [if_pos own, if_pos own, firstData_cons]
      exact if_pos own
    · rw [if_neg own, if_neg own, firstData_cons, if_neg own, ih]

theorem firstData_modifyFirst_of_ne (differs : eid ≠ other) (change : Data → Data)
    (elements : List Element) :
    firstData eid (modifyFirst other change elements) = firstData eid elements := by
  induction elements with
  | nil => rfl
  | cons element rest ih =>
    rw [modifyFirst, firstData_cons]
    by_cases changed : element.eid = other
    · have notOwn : element.eid ≠ eid := by
        rw [changed]
        exact Ne.symm differs
      rw [if_pos changed, if_neg notOwn, firstData_cons]
      exact if_neg notOwn
    · rw [if_neg changed, firstData_cons, ih]

variable {change : Data → Data}

theorem startOf_modifyFirst (kept : ∀ data, (change data).val.length = data.val.length)
    (eid other : Eid) (elements : List Element) :
    startOf eid (modifyFirst other change elements) = startOf eid elements := by
  induction elements with
  | nil => rfl
  | cons element rest ih =>
    rw [modifyFirst]
    by_cases changed : element.eid = other
    · rw [if_pos changed, startOf, startOf, Element.length_octets, Element.length_octets]
      rw [kept]
    · rw [if_neg changed, startOf, startOf, ih]

theorem length_setAll_data (changes : List (Nat × BitVec 8)) (data : Data) :
    (data.setAll changes).val.length = data.val.length :=
  length_setAll data.val changes

theorem length_modifyFirst (kept : ∀ data, (change data).val.length = data.val.length) (eid : Eid)
    (elements : List Element) :
    ((modifyFirst eid change elements).flatMap Element.octets).length =
      (elements.flatMap Element.octets).length := by
  induction elements with
  | nil => rfl
  | cons element rest ih =>
    rw [modifyFirst]
    by_cases own : element.eid = eid
    · rw [if_pos own, List.flatMap_cons, List.flatMap_cons, List.length_append,
        List.length_append, Element.length_octets, Element.length_octets]
      rw [kept]
    · rw [if_neg own, List.flatMap_cons, List.flatMap_cons, List.length_append,
        List.length_append, ih]

theorem modifyFirst_modifyFirst (first second : Data → Data) (elements : List Element) :
    modifyFirst eid second (modifyFirst eid first elements) =
      modifyFirst eid (fun data => second (first data)) elements := by
  induction elements with
  | nil => rfl
  | cons element rest ih =>
    rw [modifyFirst, modifyFirst]
    by_cases own : element.eid = eid
    · rw [if_pos own, if_pos own]
      exact if_pos own
    · rw [if_neg own, if_neg own, modifyFirst, if_neg own, ih]

theorem modifyFirst_comm (differs : eid ≠ other) (first second : Data → Data)
    (elements : List Element) :
    modifyFirst eid first (modifyFirst other second elements) =
      modifyFirst other second (modifyFirst eid first elements) := by
  induction elements with
  | nil => rfl
  | cons element rest ih =>
    by_cases own : element.eid = eid
    · have notOther : element.eid ≠ other := by
        rw [own]
        exact differs
      simp only [modifyFirst, if_pos own, if_neg notOther]
    · by_cases changed : element.eid = other
      · simp only [modifyFirst, if_pos changed, if_neg own]
      · simp only [modifyFirst, if_neg changed, if_neg own, ih]

/-! ## The octets of an element among others -/

variable {data : Data}

theorem drop_startOf (found : firstData eid elements = some data) :
    ∃ behind, (elements.flatMap Element.octets).drop (startOf eid elements) =
      (Element.mk eid data).octets ++ behind := by
  induction elements with
  | nil => cases found
  | cons element rest ih =>
    rw [firstData_cons] at found
    rw [List.flatMap_cons, startOf]
    by_cases own : element.eid = eid
    · rw [if_pos own] at found
      cases found
      refine ⟨rest.flatMap Element.octets, ?_⟩
      rw [if_pos own, List.drop_zero, ← own]
    · rw [if_neg own] at found
      rw [if_neg own, List.drop_append, List.drop_eq_nil_of_le (Nat.le_add_right _ _),
        Nat.add_sub_cancel_left]
      exact ih found

variable {index : Nat}

theorem getD_startOf (found : firstData eid elements = some data)
    (inside : index < data.val.length) :
    (elements.flatMap Element.octets).getD (startOf eid elements + (2 + index)) 0 =
      data.val.getD index 0 := by
  obtain ⟨behind, whole⟩ := drop_startOf found
  have there := congrArg (fun octets : List (BitVec 8) => octets.getD (2 + index) 0) whole
  simp only [List.getD_eq_getElem?_getD, List.getElem?_drop] at there
  rw [List.getD_eq_getElem?_getD, List.getD_eq_getElem?_getD, there, Nat.add_comm 2 index]
  simp only [Element.octets, List.cons_append, List.getElem?_cons_succ]
  rw [List.getElem?_append_left inside]

theorem getD_startOf_length (found : firstData eid elements = some data) :
    ((elements.flatMap Element.octets).getD (startOf eid elements + 1) 0).toNat =
      data.val.length := by
  obtain ⟨behind, whole⟩ := drop_startOf found
  have there := congrArg (fun octets : List (BitVec 8) => octets.getD 1 0) whole
  simp only [List.getD_eq_getElem?_getD, List.getElem?_drop] at there
  rw [List.getD_eq_getElem?_getD, there]
  exact Nat.mod_eq_of_lt data.property

theorem take_drop_startOf (found : firstData eid elements = some data) :
    ((elements.flatMap Element.octets).drop (startOf eid elements + 2)).take data.val.length =
      data.val := by
  obtain ⟨behind, whole⟩ := drop_startOf found
  rw [← List.drop_drop, whole]
  exact List.take_left

theorem set_startOf (found : firstData eid elements = some data) (inside : index < data.val.length)
    (octet : BitVec 8) :
    (elements.flatMap Element.octets).set (startOf eid elements + (2 + index)) octet =
      (modifyFirst eid (fun data => data.setAll [(index, octet)]) elements).flatMap
        Element.octets := by
  induction elements with
  | nil => cases found
  | cons element rest ih =>
    rw [firstData_cons] at found
    rw [List.flatMap_cons, startOf, modifyFirst]
    by_cases own : element.eid = eid
    · rw [if_pos own] at found
      cases found
      rw [if_pos own, if_pos own, List.flatMap_cons, Nat.zero_add, Nat.add_comm 2 index,
        Element.octets, Element.octets, List.cons_append, List.cons_append,
        List.set_cons_succ, List.set_cons_succ, List.set_append_left _ _ inside,
        length_setAll_data]
      rfl
    · rw [if_neg own] at found
      rw [if_neg own, if_neg own, List.flatMap_cons, Nat.add_assoc,
        List.set_append_right _ _ (Nat.le_add_right _ _), Nat.add_sub_cancel_left,
        ih found]

theorem setAll_startOf (found : firstData eid elements = some data)
    (inside : ∀ change ∈ changes, change.1 < data.val.length) :
    setAll (elements.flatMap Element.octets)
        (shifted (startOf eid elements) (shifted 2 changes)) =
      (modifyFirst eid (fun data => data.setAll changes) elements).flatMap Element.octets := by
  induction changes generalizing elements data with
  | nil =>
    have same : modifyFirst eid (fun data => data.setAll []) elements = elements := by
      clear found
      induction elements with
      | nil => rfl
      | cons element rest ih =>
        rw [modifyFirst, ih]
        exact ite_self _
    rw [same]
    rfl
  | cons change rest ih =>
    obtain ⟨index, octet⟩ := change
    obtain ⟨here, later⟩ := List.forall_mem_cons.mp inside
    have next := firstData_modifyFirst_self eid (fun data => data.setAll [(index, octet)])
      elements
    rw [found] at next
    have kept := startOf_modifyFirst (length_setAll_data [(index, octet)]) eid eid elements
    have one := set_startOf found here octet
    have others := ih next (by
      intro change member
      rw [length_setAll_data]
      exact later change member)
    rw [kept, modifyFirst_modifyFirst, ← one] at others
    exact others

theorem setAll_append (octets : List (BitVec 8)) (firsts lasts : List (Nat × BitVec 8)) :
    setAll (setAll octets firsts) lasts = setAll octets (firsts ++ lasts) :=
  (List.foldl_append).symm

theorem setAll_setAll_setAll {inner : Data} (differs : eid ≠ other)
    (found : firstData eid elements = some data) (foundOther : firstData other elements = some inner)
    {firsts changes lasts : List (Nat × BitVec 8)}
    (firstsInside : ∀ change ∈ firsts, change.1 < data.val.length)
    (inside : ∀ change ∈ changes, change.1 < inner.val.length)
    (lastsInside : ∀ change ∈ lasts, change.1 < data.val.length) :
    setAll (setAll (setAll (elements.flatMap Element.octets)
        (shifted (startOf eid elements) (shifted 2 firsts)))
        (shifted (startOf other elements) (shifted 2 changes)))
        (shifted (startOf eid elements) (shifted 2 lasts)) =
      (modifyFirst eid (fun data => data.setAll (firsts ++ lasts))
        (modifyFirst other (fun data => data.setAll changes) elements)).flatMap Element.octets := by
  have afterFirsts : firstData other
      (modifyFirst eid (fun data => data.setAll firsts) elements) = some inner := by
    rw [firstData_modifyFirst_of_ne (Ne.symm differs), foundOther]
  have afterChanges : firstData eid (modifyFirst other (fun data => data.setAll changes)
      (modifyFirst eid (fun data => data.setAll firsts) elements)) =
        some (data.setAll firsts) := by
    rw [firstData_modifyFirst_of_ne differs, firstData_modifyFirst_self, found]
    rfl
  have second := setAll_startOf afterFirsts inside
  have third := setAll_startOf afterChanges (by
    intro change member
    rw [length_setAll_data]
    exact lastsInside change member)
  rw [startOf_modifyFirst (length_setAll_data firsts)] at second
  rw [startOf_modifyFirst (length_setAll_data changes),
    startOf_modifyFirst (length_setAll_data firsts)] at third
  rw [setAll_startOf found firstsInside, second, third,
    modifyFirst_comm (Ne.symm differs), modifyFirst_modifyFirst]
  congr 3
  funext data
  exact Subtype.ext (setAll_append data.val firsts lasts)

/-! ## A search in the octets of elements -/

theorem ieOffset_octets (eid : Eid) (element : Element) (behind : List (BitVec 8)) :
    ieOffset eid (element.octets ++ behind) =
      if element.eid = eid then some 0
      else (ieOffset eid behind).map fun offset => offset + element.octets.length := by
  obtain ⟨name, data, fits⟩ := element
  have length : (BitVec.ofNat 8 data.length).toNat = data.length := by
    exact Nat.mod_eq_of_lt fits
  have whole : ¬ (data ++ behind).length < (BitVec.ofNat 8 data.length).toNat := by
    rw [List.length_append]
    omega
  simp only [Element.octets, List.cons_append, List.length_cons]
  rw [ieOffset, if_neg whole, length, List.drop_left, Nat.add_comm 2]

variable {limit : Nat}

theorem ieOffset_take_of_lt (eid : Eid) (element : Element) (behind : List (BitVec 8))
    (short : limit < element.octets.length) :
    ieOffset eid ((element.octets ++ behind).take limit) = none := by
  obtain ⟨name, data, fits⟩ := element
  rw [List.take_append_of_le_length (Nat.le_of_lt short)]
  rw [Element.length_octets] at short
  rw [Element.octets]
  rcases limit with _ | _ | limit
  · rw [List.take_zero, ieOffset]
  · rw [List.take_succ_cons, List.take_zero, ieOffset]
  · have cut : (data.take limit).length < (BitVec.ofNat 8 data.length).toNat := by
      rw [BitVec.toNat_ofNat, List.length_take]
      dsimp only at short
      omega
    rw [List.take_succ_cons, List.take_succ_cons, ieOffset, if_pos cut]

theorem ieOffset_take (eid : Eid) (elements : List Element) (limit : Nat) :
    ieOffset eid ((elements.flatMap Element.octets).take limit) =
      (firstData eid elements).bind fun data =>
        if startOf eid elements + (2 + data.val.length) ≤ limit then
          some (startOf eid elements)
        else none := by
  induction elements generalizing limit with
  | nil =>
    rw [List.flatMap_nil, List.take_nil, ieOffset]
    rfl
  | cons element rest ih =>
    have octets := Element.length_octets element
    rw [List.flatMap_cons, firstData_cons, startOf]
    by_cases cut : limit < element.octets.length
    · rw [ieOffset_take_of_lt eid element _ cut]
      by_cases own : element.eid = eid
      · have long : ¬ 0 + (2 + element.data.val.length) ≤ limit := by omega
        rw [if_pos own, if_pos own, Option.bind_some, if_neg long]
      · rw [if_neg own, if_neg own]
        cases firstData eid rest with
        | none => rfl
        | some data =>
          have long : ¬ element.octets.length + startOf eid rest + (2 + data.val.length) ≤
              limit := by omega
          rw [Option.bind_some, if_neg long]
    · have enough : element.octets.length ≤ limit := Nat.not_lt.mp cut
      rw [List.take_append, List.take_of_length_le enough, ieOffset_octets, ih]
      by_cases own : element.eid = eid
      · have short : 0 + (2 + element.data.val.length) ≤ limit := by omega
        rw [if_pos own, if_pos own, if_pos own, Option.bind_some, if_pos short]
      · rw [if_neg own, if_neg own, if_neg own]
        cases firstData eid rest with
        | none => rfl
        | some data =>
          rw [Option.bind_some, Option.bind_some]
          by_cases ends : startOf eid rest + (2 + data.val.length) ≤
              limit - element.octets.length
          · have whole : element.octets.length + startOf eid rest + (2 + data.val.length) ≤
                limit := by omega
            rw [if_pos ends, if_pos whole, Option.map_some, Nat.add_comm]
          · have long : ¬ element.octets.length + startOf eid rest +
                (2 + data.val.length) ≤ limit := by omega
            rw [if_neg ends, if_neg long, Option.map_none]

theorem ieOffset_take_of_endsWithin (ends : EndsWithin limit elements eid) :
    ieOffset eid ((elements.flatMap Element.octets).take limit) =
      some (startOf eid elements) := by
  obtain ⟨data, found, within⟩ := ends
  rw [ieOffset_take, found, Option.bind_some, if_pos within]

theorem ieOffset_take_of_not (ends : ¬ EndsWithin limit elements eid) :
    ieOffset eid ((elements.flatMap Element.octets).take limit) = none := by
  rw [ieOffset_take]
  cases found : firstData eid elements with
  | none => rfl
  | some data =>
    apply if_neg
    intro within
    exact ends ⟨data, found, within⟩

theorem ieOffset_eq_none_iff (eid : Eid) (octets : List (BitVec 8)) :
    ieOffset eid octets = none ↔ findIe eid octets = none := by
  induction octets using walk.induct with
  | case1 id elen rest short =>
    rw [ieOffset, findIe, walk, if_pos short, if_pos short]
    exact iff_of_true rfl rfl
  | case2 id elen rest whole ih =>
    rw [ieOffset, findIe, walk, if_neg whole, if_neg whole, List.find?_cons]
    by_cases own : id.toFin = eid
    · rw [if_pos own, decide_eq_true own]
      exact iff_of_false (Option.some_ne_none _) (Option.some_ne_none _)
    · rw [if_neg own, decide_eq_false own, Option.map_eq_none_iff, ih]
      rfl
  | case3 =>
    rw [ieOffset, findIe, walk]
    exact iff_of_true rfl rfl
  | case4 last =>
    rw [ieOffset, findIe, walk]
    exact iff_of_true rfl rfl

variable {octets : List (BitVec 8)} {element : Element}

theorem octets_of_ieOffset (place : ieOffset eid octets = some offset)
    (found : findIe eid octets = some element) :
    ∃ front behind, octets = front ++ (element.octets ++ behind) ∧ front.length = offset := by
  induction octets using walk.induct generalizing offset with
  | case1 id elen rest short =>
    rw [ieOffset, if_pos short] at place
    cases place
  | case2 id elen rest whole ih =>
    have enough : elen.toNat ≤ rest.length := Nat.not_lt.mp whole
    have split : id :: elen :: rest =
        (Element.mk id.toFin (takeData rest elen)).octets ++ rest.drop elen.toNat := by
      have length : BitVec.ofNat 8 (takeData rest elen).val.length = elen := by
        rw [takeData, List.length_take, Nat.min_eq_left enough]
        apply BitVec.eq_of_toNat_eq
        exact Nat.mod_eq_of_lt elen.isLt
      rw [Element.octets, length, takeData, List.cons_append, List.cons_append,
        List.take_append_drop]
    rw [ieOffset, if_neg whole] at place
    rw [findIe, walk, if_neg whole, List.find?_cons] at found
    by_cases own : id.toFin = eid
    · rw [if_pos own] at place
      rw [decide_eq_true own] at found
      cases place
      cases found
      exact ⟨[], _, split, rfl⟩
    · rw [if_neg own] at place
      rw [decide_eq_false own] at found
      obtain ⟨later, there, rfl⟩ := Option.map_eq_some_iff.mp place
      obtain ⟨front, behind, rest', length⟩ := ih there found
      refine ⟨(Element.mk id.toFin (takeData rest elen)).octets ++ front, behind, ?_, ?_⟩
      · rw [split, rest', List.append_assoc]
      · rw [List.length_append, Element.length_octets, takeData, List.length_take]
        omega
  | case3 =>
    rw [ieOffset] at place
    cases place
  | case4 last =>
    rw [ieOffset] at place
    cases place

theorem getD_of_ieOffset (place : ieOffset eid octets = some offset)
    (found : findIe eid octets = some element) (inside : index < element.data.val.length) :
    offset + 2 + index < octets.length ∧
      octets.getD (offset + 2 + index) 0 = element.data.val.getD index 0 := by
  obtain ⟨front, behind, rfl, rfl⟩ := octets_of_ieOffset place found
  rw [Element.octets, List.cons_append, List.cons_append]
  constructor
  · rw [List.length_append, List.length_cons, List.length_cons, List.length_append]
    omega
  · rw [List.getD_eq_getElem?_getD, List.getD_eq_getElem?_getD, Nat.add_assoc,
      List.getElem?_append_right (Nat.le_add_right _ _), Nat.add_sub_cancel_left,
      Nat.add_comm 2 index, List.getElem?_cons_succ, List.getElem?_cons_succ,
      List.getElem?_append_left inside]

end Ies
end Morse
