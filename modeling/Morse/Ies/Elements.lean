import Morse.Ies.Mask
import Mathlib.Data.List.Count
import Mathlib.Data.List.FinRange

/-!
# Elements in octets and in the element table

The octets of a frame are walked in two ways.  A search goes from element to element as
long as the next one is whole; parsing also stops at a FILS session element and says
whether it came to the end.  What is parsed is sorted by identifiers.
-/

namespace Morse
namespace Ies

/-! ## Elements in octets -/

/-- The data of an element, whose length is held in an octet. -/
abbrev Data := { data : List (BitVec 8) // data.length < 256 }

/-- No data. -/
def noData : Data := ⟨[], by decide⟩

/-- An element. -/
structure Element where
  eid : Eid
  data : Data
  deriving DecidableEq

/-- An element as it stands in a frame. -/
def Element.octets (element : Element) : List (BitVec 8) :=
  BitVec.ofFin element.eid :: BitVec.ofNat 8 element.data.val.length :: element.data.val

/-- So many octets of data. -/
def takeData (rest : List (BitVec 8)) (elen : BitVec 8) : Data :=
  ⟨rest.take elen.toNat, by
    have octet := elen.isLt
    rw [List.length_take]
    omega⟩

/-- The elements that `for_each_element` comes to. -/
def walk : List (BitVec 8) → List Element
  | id :: elen :: rest =>
    if rest.length < elen.toNat then []
    else ⟨id.toFin, takeData rest elen⟩ :: walk (rest.drop elen.toNat)
  | [] => []
  | [_] => []
termination_by octets => octets.length
decreasing_by
  simp only [List.length_drop, List.length_cons]
  omega

/-- `cfg80211_find_ie`. -/
def findIe (eid : Eid) (octets : List (BitVec 8)) : Option Element :=
  (walk octets).find? fun element => element.eid = eid

/-- Where parsing stops. -/
inductive Tail
  | done
  /-- At a FILS session element, from which on octets are not looked at. -/
  | fils (octets : List (BitVec 8))
  | invalid
  deriving DecidableEq, Repr

/-- The elements that `morse_dot11ah_parse_ies` comes to. -/
def parse : List (BitVec 8) → List Element × Tail
  | id :: elen :: rest =>
    if isFilsSession id rest then ([], .fils (id :: elen :: rest))
    else if rest.length < elen.toNat then ([], .invalid)
    else
      (⟨id.toFin, takeData rest elen⟩ :: (parse (rest.drop elen.toNat)).1,
        (parse (rest.drop elen.toNat)).2)
  | [] => ([], .done)
  | [_] => ([], .invalid)
termination_by octets => octets.length
decreasing_by
  all_goals
    simp only [List.length_drop, List.length_cons]
    omega

theorem walk_octets (element : Element) (rest : List (BitVec 8)) :
    walk (element.octets ++ rest) = element :: walk rest := by
  obtain ⟨eid, data, fits⟩ := element
  have length : (BitVec.ofNat 8 data.length).toNat = data.length := by
    exact Nat.mod_eq_of_lt fits
  have whole : ¬ (data ++ rest).length < (BitVec.ofNat 8 data.length).toNat := by
    rw [List.length_append]
    omega
  simp only [Element.octets, List.cons_append]
  rw [walk, if_neg whole]
  congr 2
  · exact Subtype.ext (by simp only [takeData, length, List.take_left])
  · rw [length, List.drop_left]

theorem parse_octets (element : Element) (rest : List (BitVec 8))
    (plain : isFilsSession (BitVec.ofFin element.eid) (element.data.val ++ rest) = false) :
    parse (element.octets ++ rest) = (element :: (parse rest).1, (parse rest).2) := by
  obtain ⟨eid, data, fits⟩ := element
  have length : (BitVec.ofNat 8 data.length).toNat = data.length := by
    exact Nat.mod_eq_of_lt fits
  have whole : ¬ (data ++ rest).length < (BitVec.ofNat 8 data.length).toNat := by
    rw [List.length_append]
    omega
  simp only [Element.octets, List.cons_append]
  rw [parse, plain, if_neg Bool.false_ne_true, if_neg whole]
  have taken : takeData (data ++ rest) (BitVec.ofNat 8 data.length) = ⟨data, fits⟩ :=
    Subtype.ext (by simp only [takeData, length, List.take_left])
  rw [taken, length, List.drop_left]

theorem parse_append (parsed : parse octets = (elements, .done))
    (plain : behind.head? ≠ some wlanEidExtFilsSession) :
    parse (octets ++ behind) = (elements ++ (parse behind).1, (parse behind).2) := by
  induction octets using parse.induct generalizing elements with
  | case1 id elen rest fils =>
    rw [parse, if_pos fils] at parsed
    cases parsed
  | case2 id elen rest fils short =>
    rw [parse, if_neg fils, if_pos short] at parsed
    cases parsed
  | case3 id elen rest fils whole ih =>
    rw [parse, if_neg fils, if_neg whole] at parsed
    obtain ⟨first, last⟩ := Prod.mk.inj parsed
    have longer : ¬ (rest ++ behind).length < elen.toNat := by
      rw [List.length_append]
      omega
    have enough : elen.toNat ≤ rest.length := Nat.not_lt.mp whole
    have taken : takeData (rest ++ behind) elen = takeData rest elen :=
      Subtype.ext (List.take_append_of_le_length enough)
    have still : isFilsSession id (rest ++ behind) = false := by
      cases rest with
      | nil =>
        rw [isFilsSession, List.nil_append, decide_eq_false plain, Bool.and_false]
      | cons octet more => exact Bool.eq_false_iff.mpr fils
    rw [List.cons_append, List.cons_append, parse, still, if_neg Bool.false_ne_true,
      if_neg longer, taken, List.drop_append_of_le_length enough,
      ih (Prod.ext rfl last), ← first, List.cons_append]
  | case4 =>
    rw [parse] at parsed
    cases parsed
    rfl
  | case5 last =>
    rw [parse] at parsed
    cases parsed

/-! ## The element table by contents -/

/-- The elements of an identifier: the first, if it is there, and those that hang on it. -/
structure Cell where
  head : Option Data
  extras : List Data
  deriving DecidableEq

/-- The elements by their identifiers. -/
abbrev Contents := Eid → Cell

/-- No element is there. -/
def Contents.empty : Contents := fun _ => ⟨none, []⟩

/-- Another element of an identifier. -/
def Cell.add (cell : Cell) (data : Data) : Cell :=
  match cell.head with
  | none => { cell with head := some data }
  | some _ => { cell with extras := cell.extras ++ [data] }

/-- What `morse_dot11_insert_ie_from_ies_mask` writes for an identifier. -/
def Cell.all (cell : Cell) : List Data :=
  match cell.head with
  | none => []
  | some data => data :: cell.extras

/-- The first element of an identifier is replaced. -/
def Contents.setHead (contents : Contents) (eid : Eid) (head : Option Data) : Contents :=
  Function.update contents eid { contents eid with head := head }

/-- Another element is put into the table. -/
def Contents.add (contents : Contents) (element : Element) : Contents :=
  Function.update contents element.eid ((contents element.eid).add element.data)

/-- What `morse_dot11ah_parse_ies` leaves in a table. -/
def Contents.parse (contents : Contents) (octets : List (BitVec 8)) : Contents :=
  (Ies.parse octets).1.foldl Contents.add contents

/-- The data of the elements of an identifier. -/
def dataOf (eid : Eid) (elements : List Element) : List Data :=
  (elements.filter fun element => element.eid = eid).map Element.data

/-- A cell is in order if nothing hangs on an element that is missing. -/
def Cell.Headed (cell : Cell) : Prop := cell.head = none → cell.extras = []

theorem Cell.headed_add (cell : Cell) (data : Data) : (cell.add data).Headed := by
  intro none
  cases head : cell.head with
  | none => simp only [Cell.add, head] at none; cases none
  | some first => simp only [Cell.add, head] at none; cases none

theorem Cell.all_add {cell : Cell} (headed : cell.Headed) (data : Data) :
    (cell.add data).all = cell.all ++ [data] := by
  cases head : cell.head with
  | none => simp only [Cell.add, Cell.all, head, headed head, List.nil_append]
  | some first => simp only [Cell.add, Cell.all, head, List.cons_append]

theorem Contents.all_foldl (elements : List Element) (contents : Contents) (eid : Eid)
    (headed : (contents eid).Headed) :
    (elements.foldl Contents.add contents eid).all =
        (contents eid).all ++ dataOf eid elements ∧
      (elements.foldl Contents.add contents eid).Headed := by
  induction elements generalizing contents with
  | nil => exact ⟨(List.append_nil _).symm, headed⟩
  | cons element rest ih =>
    by_cases same : element.eid = eid
    · subst same
      have added : contents.add element element.eid = (contents element.eid).add element.data :=
        Function.update_self _ _ _
      obtain ⟨all, still⟩ := ih (contents.add element) (by
        rw [added]
        exact Cell.headed_add _ _)
      refine ⟨?_, still⟩
      rw [List.foldl_cons, all, added, Cell.all_add headed, List.append_assoc, dataOf, dataOf,
        List.filter_cons_of_pos (by simp only [decide_true]), List.map_cons,
        List.singleton_append]
    · have kept : contents.add element eid = contents eid :=
        Function.update_of_ne (Ne.symm same) _ _
      obtain ⟨all, still⟩ := ih (contents.add element) (by
        rw [kept]
        exact headed)
      refine ⟨?_, still⟩
      rw [List.foldl_cons, all, kept, dataOf, dataOf,
        List.filter_cons_of_neg (by simp only [same, decide_false, Bool.false_eq_true,
          not_false_eq_true])]

theorem Contents.all_parse (contents : Contents) (eid : Eid) (headed : (contents eid).Headed)
    (octets : List (BitVec 8)) :
    (contents.parse octets eid).all =
        (contents eid).all ++ dataOf eid (Ies.parse octets).1 ∧
      (contents.parse octets eid).Headed :=
  Contents.all_foldl _ contents eid headed

theorem Cell.all_eq_nil_iff (cell : Cell) : cell.all = [] ↔ cell.head = none := by
  cases head : cell.head with
  | none => simp only [Cell.all, head]
  | some first => simp only [Cell.all, head, reduceCtorEq]

end Ies
end Morse
