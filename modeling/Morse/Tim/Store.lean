import Mathlib.Data.List.Sort
import Morse.Lib.Bits
import Morse.Tim.Defs

/-!
# Storing AIDs in a TIM

`storeAidIntoTim` fixes the bitmap offset at the first AID it is given and
refuses any later AID that lies before it.  The invariant `TimIe.Lists` says
that a TIM holds exactly the AIDs stored so far; storing an ascending list of
AIDs keeps it and refuses none of them.
-/

namespace Morse
namespace Tim

open Lib

/-- The even octet at which a virtual map starts that begins with an octet. -/
def evenOctet (octetNumber : Nat) : Nat := octetNumber / 2 * 2

theorem evenOctet_le (octetNumber : Nat) : evenOctet octetNumber ≤ octetNumber :=
  Nat.div_mul_le_self octetNumber 2

theorem sub_evenOctet_lt (octetNumber : Nat) : octetNumber - evenOctet octetNumber < 2 := by
  unfold evenOctet
  omega

/-- The octet that the virtual map starts at once the AID is stored. -/
def TimIe.originFor (tim : TimIe) (aid : Nat) : Nat :=
  if tim.Fresh then evenOctet (aid / 8) else tim.bitmapOffset

/-- The AID is within the limit and not before the start of the virtual map. -/
def TimIe.Accepts (tim : TimIe) (aid : Nat) : Prop :=
  aid ≤ aidLimit ∧ tim.originFor aid ≤ aid / 8

instance (tim : TimIe) (aid : Nat) : Decidable (tim.Accepts aid) := by
  unfold TimIe.Accepts
  infer_instance

theorem and_even_toNat :
    ∀ octet : Octet, (octet &&& 0xFE#8).toNat = evenOctet octet.toNat := by
  decide

private theorem ofNat_even_toNat {octetNumber : Nat} (small : octetNumber < 256) :
    (BitVec.ofNat 8 octetNumber &&& 0xFE#8).toNat = evenOctet octetNumber := by
  rw [and_even_toNat, BitVec.toNat_ofNat, Nat.mod_eq_of_lt small]

/-- Once the bitmap control has no offset, the offset put in is the one read back. -/
private theorem bitmapOffset_or {tim : TimIe} (blank : tim.bitmapOffset = 0) {octetNumber : Nat}
    (small : octetNumber < 256) :
    ({ tim with
        bitmapCtrl := tim.bitmapCtrl ||| (BitVec.ofNat 8 octetNumber &&& 0xFE#8) } :
      TimIe).bitmapOffset = evenOctet octetNumber := by
  have none : tim.bitmapCtrl &&& 0xFE#8 = 0#8 := BitVec.eq_of_toNat_eq blank
  have kept : (tim.bitmapCtrl ||| (BitVec.ofNat 8 octetNumber &&& 0xFE#8)) &&& 0xFE#8 =
      BitVec.ofNat 8 octetNumber &&& 0xFE#8 := by
    rw [BitVec.and_comm, BitVec.and_or_distrib_left, BitVec.and_comm, none, BitVec.zero_or,
      BitVec.and_comm, BitVec.and_assoc, BitVec.and_self]
  rw [TimIe.bitmapOffset, kept, ofNat_even_toNat small]

/-- The effect of an AID stored on the offset and on the virtual map. -/
structure StoredAt (tim tim' : TimIe) (origin aid : Nat) : Prop where
  bitmapOffset_eq : tim'.bitmapOffset = origin
  virtualMap_eq : tim'.virtualMap = Function.update tim.virtualMap (aid / 8 - origin)
    (tim.virtualMap (aid / 8 - origin) ||| (1#8 <<< (aid % 8)))

theorem storeAidIntoTim_accepts (blank : tim.Fresh → tim.bitmapOffset = 0)
    (accepts : tim.Accepts aid) :
    ∃ tim', storeAidIntoTim tim aid = some (tim', aid / 8 - tim.originFor aid) ∧
      StoredAt tim tim' (tim.originFor aid) aid := by
  obtain ⟨limit, behind⟩ := accepts
  have shifted : aid >>> 3 = aid / 8 := Nat.shiftRight_eq_div_pow aid 3
  have position : aid &&& 0x07 = aid % 8 := Nat.and_two_pow_sub_one_eq_mod aid 3
  have small : aid / 8 < 256 := by
    unfold aidLimit at limit
    omega
  have room : ¬ dot11MaxTimVirtualMapLength ≤ aid / 8 - tim.originFor aid := by
    unfold aidLimit at limit
    unfold dot11MaxTimVirtualMapLength
    omega
  unfold storeAidIntoTim
  rw [if_neg (Nat.not_lt.mpr limit)]
  simp only [shifted]
  by_cases fresh : tim.Fresh
  · have origin : tim.originFor aid = evenOctet (aid / 8) := if_pos fresh
    rw [origin] at room behind ⊢
    rw [if_pos fresh, ofNat_even_toNat small, storeAtOffset, if_neg room, position]
    exact ⟨_, rfl, bitmapOffset_or (blank fresh) small, rfl⟩
  · have origin : tim.originFor aid = tim.bitmapOffset := if_neg fresh
    rw [origin] at room behind ⊢
    rw [if_neg fresh, if_neg (Nat.not_lt.mpr behind), storeAtOffset, if_neg room, position]
    exact ⟨_, rfl, rfl, rfl⟩

theorem storeAidIntoTim_refuses (refused : ¬ tim.Accepts aid) :
    storeAidIntoTim tim aid = none := by
  unfold storeAidIntoTim
  by_cases limit : aidLimit < aid
  · rw [if_pos limit]
  · have shifted : aid >>> 3 = aid / 8 := Nat.shiftRight_eq_div_pow aid 3
    have before : aid / 8 < tim.originFor aid := by
      by_contra behind
      exact refused ⟨Nat.not_lt.mp limit, Nat.not_lt.mp behind⟩
    rw [if_neg limit]
    simp only [shifted]
    by_cases fresh : tim.Fresh
    · rw [TimIe.originFor, if_pos fresh] at before
      exact absurd (evenOctet_le (aid / 8)) (Nat.not_le.mpr before)
    · rw [TimIe.originFor, if_neg fresh] at before
      rw [if_neg fresh, if_pos before]

/-! ## The AIDs stored so far -/

/-- The octet at which the virtual map starts that a list of AIDs is stored in. -/
def originOf : List Nat → Nat
  | [] => 0
  | first :: _ => evenOctet (first / 8)

@[simp] theorem originOf_cons (first : Nat) (rest : List Nat) :
    originOf (first :: rest) = evenOctet (first / 8) := rfl

theorem originOf_append (stored : aids ≠ []) (more : List Nat) :
    originOf (aids ++ more) = originOf aids := by
  cases aids with
  | nil => exact absurd rfl stored
  | cons first rest => rfl

/-- The TIM holds exactly the AIDs of the list, and its largest octet number is
at most `timLen`. -/
structure TimIe.Lists (tim : TimIe) (timLen : Nat) (aids : List Nat) : Prop where
  bitmapOffset_eq : tim.bitmapOffset = originOf aids
  bits : ∀ index bit, bit < 8 →
    ((tim.virtualMap index).getLsbD bit = true ↔ 8 * (originOf aids + index) + bit ∈ aids)
  reached : ∀ aid ∈ aids, originOf aids ≤ aid / 8 ∧ aid / 8 - originOf aids ≤ timLen

theorem TimIe.lists_nil {tim : TimIe} (offset : tim.bitmapOffset = 0)
    (zero : ∀ index, tim.virtualMap index = 0) (timLen : Nat) :
    tim.Lists timLen [] where
  bitmapOffset_eq := offset
  bits := by
    intro index bit _
    simp [zero index]
  reached := by simp

theorem TimIe.Lists.fresh_iff {tim : TimIe} (lists : tim.Lists timLen aids) :
    tim.Fresh ↔ aids = [] := by
  have listed (index : Nat) : tim.virtualMap index = 0 ↔
      ∀ bit, bit < 8 → 8 * (originOf aids + index) + bit ∉ aids := by
    rw [eq_zero_iff_getLsbD]
    refine forall_congr' fun bit => forall_congr' fun inside => ?_
    rw [← lists.bits index bit inside, Bool.not_eq_true]
  constructor
  · rintro ⟨zero, one⟩
    cases aids with
    | nil => rfl
    | cons first rest =>
      have near := sub_evenOctet_lt (first / 8)
      have behind := evenOctet_le (first / 8)
      have position := Nat.mod_lt first (show 0 < 8 by decide)
      have spelled (index : Nat) (at_index : first / 8 - evenOctet (first / 8) = index) :
          8 * (originOf (first :: rest) + index) + first % 8 = first := by
        rw [originOf_cons]
        omega
      obtain at_zero | at_one : first / 8 - evenOctet (first / 8) = 0 ∨
          first / 8 - evenOctet (first / 8) = 1 := by omega
      · have absent := (listed 0).mp zero (first % 8) position
        rw [spelled 0 at_zero] at absent
        exact absurd List.mem_cons_self absent
      · have absent := (listed 1).mp one (first % 8) position
        rw [spelled 1 at_one] at absent
        exact absurd List.mem_cons_self absent
  · rintro rfl
    refine ⟨(listed 0).mpr ?_, (listed 1).mpr ?_⟩ <;> simp

theorem TimIe.Lists.originFor_eq {tim : TimIe} (lists : tim.Lists timLen aids) (aid : Nat) :
    tim.originFor aid = originOf (aids ++ [aid]) := by
  unfold TimIe.originFor
  by_cases fresh : tim.Fresh
  · rw [if_pos fresh, lists.fresh_iff.mp fresh]
    rfl
  · rw [if_neg fresh, lists.bitmapOffset_eq,
      originOf_append (fun none => fresh (lists.fresh_iff.mpr none))]

theorem TimIe.Lists.store (lists : tim.Lists timLen aids) (limit : aid ≤ aidLimit)
    (behind : originOf (aids ++ [aid]) ≤ aid / 8) :
    ∃ tim' octetNumber, storeAidIntoTim tim aid = some (tim', octetNumber) ∧
      tim'.Lists (if timLen < octetNumber then octetNumber else timLen) (aids ++ [aid]) := by
  have blank : tim.Fresh → tim.bitmapOffset = 0 := by
    intro fresh
    rw [lists.bitmapOffset_eq, lists.fresh_iff.mp fresh]
    rfl
  have origin := lists.originFor_eq aid
  obtain ⟨tim', stores, storedAt⟩ :=
    storeAidIntoTim_accepts blank ⟨limit, by rwa [origin]⟩
  rw [origin] at stores storedAt
  have same : aids ≠ [] → originOf (aids ++ [aid]) = originOf aids :=
    fun stored => originOf_append stored [aid]
  refine ⟨tim', _, stores, storedAt.bitmapOffset_eq, ?_, ?_⟩
  · intro index bit inside
    have old : (tim.virtualMap index).getLsbD bit = true ↔
        8 * (originOf (aids ++ [aid]) + index) + bit ∈ aids := by
      cases aids with
      | nil => simpa using lists.bits index bit inside
      | cons first rest => exact lists.bits index bit inside
    rw [storedAt.virtualMap_eq, getLsbD_update_or _ _ _ _ inside, Bool.or_eq_true, old,
      List.mem_append, List.mem_singleton, decide_eq_true_eq]
    refine or_congr_right ?_
    omega
  · intro other listed
    rw [List.mem_append, List.mem_singleton] at listed
    obtain listed | rfl := listed
    · have before := lists.reached other listed
      rw [← same (List.ne_nil_of_mem listed)] at before
      split <;> omega
    · split <;> omega

/-- Store AIDs one after the other, up to the first that is refused, keeping
the largest octet number. -/
def storeAids : List Nat → TimIe → Nat → Except Stop (TimIe × Nat)
  | [], tim, timLen => .ok (tim, timLen)
  | aid :: aids, tim, timLen =>
    match storeAidIntoTim tim aid with
    | some (tim, octetNumber) =>
      storeAids aids tim (if timLen < octetNumber then octetNumber else timLen)
    | none => .error (.refused tim)

theorem storeAids_append (first second : List Nat) (tim : TimIe) (timLen : Nat) :
    storeAids (first ++ second) tim timLen =
      (storeAids first tim timLen).bind fun stored => storeAids second stored.1 stored.2 := by
  induction first generalizing tim timLen with
  | nil => rfl
  | cons aid first inductionHypothesis =>
    simp only [List.cons_append, storeAids]
    cases storeAidIntoTim tim aid with
    | none => rfl
    | some stored => exact inductionHypothesis _ _

theorem TimIe.Lists.storeAids (lists : tim.Lists timLen aids)
    (ascending : (aids ++ more).Pairwise (· < ·)) (limit : ∀ aid ∈ more, aid ≤ aidLimit) :
    ∃ tim' timLen', Tim.storeAids more tim timLen = .ok (tim', timLen') ∧
      tim'.Lists timLen' (aids ++ more) := by
  induction more generalizing tim timLen aids with
  | nil => exact ⟨tim, timLen, rfl, by simpa using lists⟩
  | cons aid more inductionHypothesis =>
    have behind : originOf (aids ++ [aid]) ≤ aid / 8 := by
      cases aids with
      | nil => exact evenOctet_le (aid / 8)
      | cons first rest =>
        have later : first < aid := by
          rw [List.cons_append, List.pairwise_cons] at ascending
          exact ascending.1 aid (by simp)
        exact le_trans (evenOctet_le (first / 8)) (Nat.div_le_div_right (le_of_lt later))
    obtain ⟨tim', octetNumber, stores, lists'⟩ :=
      lists.store (limit aid List.mem_cons_self) behind
    have regrouped : aids ++ aid :: more = aids ++ [aid] ++ more := by simp
    rw [regrouped] at ascending ⊢
    obtain ⟨tim'', timLen', stored, lists''⟩ :=
      inductionHypothesis lists' ascending
        fun other listed => limit other (List.mem_cons_of_mem aid listed)
    refine ⟨tim'', timLen', ?_, lists''⟩
    rw [Tim.storeAids, stores]
    exact stored

theorem TimIe.Lists.hasAid_iff {tim : TimIe} (lists : tim.Lists timLen aids) (aid : Nat) :
    tim.HasAid (timLen + 1) aid ↔ aid ∈ aids := by
  have position := Nat.mod_lt aid (show 0 < 8 by decide)
  unfold TimIe.HasAid
  rw [lists.bitmapOffset_eq, lists.bits _ _ position]
  constructor
  · rintro ⟨behind, _, listed⟩
    have spelled : 8 * (originOf aids + (aid / 8 - originOf aids)) + aid % 8 = aid := by omega
    rwa [spelled] at listed
  · intro listed
    obtain ⟨behind, within⟩ := lists.reached aid listed
    have spelled : 8 * (originOf aids + (aid / 8 - originOf aids)) + aid % 8 = aid := by omega
    refine ⟨behind, by omega, ?_⟩
    rwa [spelled]

end Tim
end Morse
