import Mathlib.Algebra.Group.Nat.Defs
import Mathlib.Order.Lattice
import Mathlib.Tactic.Common

/-!
# Listen intervals

A station tells its access point in sixteen bits for how many beacon intervals it may
sleep.  Under S1G the two upper bits are the unified scale factor, which the lower
fourteen bits are multiplied with.  The driver scales what Linux sends and unscales what
is received.
-/

namespace Morse
namespace S1g

/-- Where the unified scale factor of a listen interval lies. -/
def listenIntervalUsf : BitVec 16 :=
  0xC000#16

/-- Where the unscaled interval lies. -/
def listenIntervalUnscaled : BitVec 16 :=
  0x3FFF#16

/-- The clipping macro, which converts to the narrower type before it compares. -/
def minU16 (value : BitVec 32) (limit : BitVec 16) : BitVec 16 :=
  if value.setWidth 16 < limit then value.setWidth 16 else limit

/-- `morse_dot11ah_s1g_to_listen_interval`: a received interval without its scale. -/
def s1gToListenInterval (s1gLi : BitVec 16) : BitVec 16 :=
  let usf := (s1gLi &&& listenIntervalUsf) >>> 14
  let unscaled := s1gLi &&& listenIntervalUnscaled
  let li := unscaled.setWidth 32
  let li :=
    match usf.toNat with
    | 1 => li * 10#32
    | 2 => li * 1000#32
    | 3 => li * 10000#32
    | _ => li
  minU16 li 0xFFFF#16

/-- `morse_dot11ah_listen_interval_to_s1g`: the scaled form of an interval to be sent.
Only the factors one and ten are used. -/
def listenIntervalToS1g (li : BitVec 16) : BitVec 16 :=
  if 0x3FFF#16 < li ∨ li % 10#16 = 0#16 then
    (li / 10#16) ||| (1#16 <<< 14)
  else
    li

/-! ## What a scaled interval says -/

/-- The factor that a unified scale factor stands for. -/
def usfFactor : Nat → Nat
  | 1 => 10
  | 2 => 1000
  | 3 => 10000
  | _ => 1

/-- The number of beacon intervals that a scaled interval announces. -/
def announced (s1gLi : BitVec 16) : Nat :=
  s1gLi.toNat % 2 ^ 14 * usfFactor (s1gLi.toNat / 2 ^ 14)

theorem unscaled_toNat (s1gLi : BitVec 16) :
    (s1gLi &&& listenIntervalUnscaled).toNat = s1gLi.toNat % 2 ^ 14 := by
  exact Nat.and_two_pow_sub_one_eq_mod _ 14

theorem usf_toNat (s1gLi : BitVec 16) :
    ((s1gLi &&& listenIntervalUsf) >>> 14).toNat = s1gLi.toNat / 2 ^ 14 := by
  have shifted : (s1gLi &&& listenIntervalUsf) >>> 14 = s1gLi >>> 14 := by
    rw [BitVec.ushiftRight_and_distrib]
    apply BitVec.eq_of_getLsbD_eq
    intro bit inside
    have upper : (listenIntervalUsf >>> 14).getLsbD bit = decide (bit < 2) := by
      have all : ∀ place : Fin 16,
          (listenIntervalUsf >>> 14).getLsbD place = decide (place.val < 2) := by
        decide
      exact all ⟨bit, inside⟩
    rw [BitVec.getLsbD_and, upper]
    by_cases low : bit < 2
    · simp [low]
    · have beyond : (s1gLi >>> 14).getLsbD bit = false := by
        rw [BitVec.getLsbD_ushiftRight]
        exact BitVec.getLsbD_of_ge _ _ (by omega)
      simp [beyond]
  rw [shifted, BitVec.toNat_ushiftRight, Nat.shiftRight_eq_div_pow]

theorem announced_lt (s1gLi : BitVec 16) : announced s1gLi < 2 ^ 32 := by
  have unscaled : s1gLi.toNat % 2 ^ 14 ≤ 16383 := by omega
  have factor : usfFactor (s1gLi.toNat / 2 ^ 14) ≤ 10000 := by
    unfold usfFactor
    split <;> decide
  have product := Nat.mul_le_mul unscaled factor
  unfold announced
  omega

theorem s1gToListenInterval_eq (s1gLi : BitVec 16) :
    s1gToListenInterval s1gLi = minU16 (BitVec.ofNat 32 (announced s1gLi)) 0xFFFF#16 := by
  unfold s1gToListenInterval announced
  simp only [usf_toNat]
  have widened :
      (s1gLi &&& listenIntervalUnscaled).setWidth 32 =
        BitVec.ofNat 32 (s1gLi.toNat % 2 ^ 14) := by
    apply BitVec.eq_of_toNat_eq
    rw [BitVec.toNat_setWidth, unscaled_toNat, BitVec.toNat_ofNat]
  rw [widened]
  unfold usfFactor
  split <;> simp [BitVec.ofNat_mul]

theorem minU16_toNat (value : BitVec 32) :
    (minU16 value 0xFFFF#16).toNat = value.toNat % 2 ^ 16 := by
  unfold minU16
  split
  · rw [BitVec.toNat_setWidth]
  · rename_i notBelow
    rw [BitVec.lt_def, BitVec.toNat_setWidth] at notBelow
    have top : (0xFFFF#16).toNat = 65535 := by decide
    omega

theorem s1gToListenInterval_toNat (s1gLi : BitVec 16) :
    (s1gToListenInterval s1gLi).toNat = announced s1gLi % 2 ^ 16 := by
  rw [s1gToListenInterval_eq, minU16_toNat, BitVec.toNat_ofNat,
    Nat.mod_eq_of_lt (announced_lt s1gLi)]

/-! ## There and back -/

/-- The nearest interval not above a given one that the two factors in use can say. -/
def sayable (li : Nat) : Nat :=
  if li ≤ 16383 then li else li / 10 * 10

variable {li : Nat}

theorem sayable_of_le (small : li ≤ 16383) :
    sayable li = li :=
  if_pos small

theorem sayable_of_dvd (multiple : 10 ∣ li) :
    sayable li = li := by
  unfold sayable
  split
  · rfl
  · exact Nat.div_mul_cancel multiple

theorem sayable_isGreatest (large : 16383 < li) :
    10 ∣ sayable li ∧ sayable li ≤ li ∧
      ∀ multiple, 10 ∣ multiple → multiple ≤ li → multiple ≤ sayable li := by
  have scaled : sayable li = li / 10 * 10 := if_neg (by omega)
  rw [scaled]
  refine ⟨Nat.dvd_mul_left 10 _, Nat.div_mul_le_self li 10, ?_⟩
  omega

theorem announced_tens (fits : tens.toNat < 2 ^ 14) :
    announced (tens ||| (1#16 <<< 14)) = tens.toNat * 10 := by
  have value : (tens ||| (1#16 <<< 14)).toNat = 2 ^ 14 + tens.toNat := by
    rw [BitVec.toNat_or, Nat.or_comm]
    exact (Nat.two_pow_add_eq_or_of_lt fits 1).symm
  unfold announced
  rw [value]
  have upper : (2 ^ 14 + tens.toNat) / 2 ^ 14 = 1 := by omega
  have lower : (2 ^ 14 + tens.toNat) % 2 ^ 14 = tens.toNat := by omega
  rw [upper, lower, usfFactor]

theorem announced_listenIntervalToS1g (li : BitVec 16) :
    announced (listenIntervalToS1g li) = sayable li.toNat := by
  have tenToNat : (10#16).toNat = 10 := by decide
  unfold listenIntervalToS1g
  split
  · rename_i scaled
    have fits : (li / 10#16).toNat < 2 ^ 14 := by
      rw [BitVec.toNat_udiv, tenToNat]
      omega
    rw [announced_tens fits, BitVec.toNat_udiv, tenToNat]
    unfold sayable
    split
    · rcases scaled with large | tens
      · have above : (0x3FFF#16).toNat < li.toNat := large
        have top : (0x3FFF#16).toNat = 16383 := by decide
        omega
      · have remainder := congrArg BitVec.toNat tens
        rw [BitVec.toNat_umod, tenToNat] at remainder
        have zero : (0#16).toNat = 0 := by decide
        omega
    · rfl
  · rename_i unscaled
    have top : (0x3FFF#16).toNat = 16383 := by decide
    have small : li.toNat ≤ 16383 := by
      by_contra large
      apply unscaled
      rw [BitVec.lt_def]
      omega
    have upper : li.toNat / 2 ^ 14 = 0 := by omega
    have lower : li.toNat % 2 ^ 14 = li.toNat := by omega
    have factor : usfFactor 0 = 1 := by decide
    rw [sayable_of_le small, announced, upper, lower, factor, Nat.mul_one]

theorem s1gToListenInterval_listenIntervalToS1g (li : BitVec 16) :
    (s1gToListenInterval (listenIntervalToS1g li)).toNat = sayable li.toNat := by
  rw [s1gToListenInterval_toNat, announced_listenIntervalToS1g]
  unfold sayable
  split <;> omega

/-! ## What a station is recorded with -/

/-- An interval is received as it should be: whatever is sent comes back as the nearest
sayable one, and what was received is recorded as announced, up to the largest number
that the record holds. -/
def ConvertsListenInterval (s1gLi : BitVec 16) : Prop :=
  (∀ li : BitVec 16,
    let back := (s1gToListenInterval (listenIntervalToS1g li)).toNat
    (li.toNat ≤ 16383 ∨ 10 ∣ li.toNat → back = li.toNat) ∧
      (¬(li.toNat ≤ 16383 ∨ 10 ∣ li.toNat) →
        10 ∣ back ∧ back ≤ li.toNat ∧
          ∀ multiple, 10 ∣ multiple → multiple ≤ li.toNat → multiple ≤ back)) ∧
    (s1gToListenInterval s1gLi).toNat = min (announced s1gLi) 65535

theorem announced_mod_ne (beyond : 65535 < announced s1gLi) :
    announced s1gLi % 2 ^ 16 ≠ 65535 := by
  unfold announced at beyond ⊢
  unfold usfFactor at beyond ⊢
  split at beyond <;> omega

/-- A received interval is converted as it should be exactly if the record holds it:
a longer one loses its upper bits, as it is narrowed before it is clipped. -/
theorem convertsListenInterval_iff (s1gLi : BitVec 16) :
    ConvertsListenInterval s1gLi ↔ announced s1gLi ≤ 65535 := by
  constructor
  · rintro ⟨-, recorded⟩
    by_contra beyond
    rw [s1gToListenInterval_toNat, Nat.min_eq_right (by omega)] at recorded
    exact announced_mod_ne (by omega) recorded
  · intro holds
    refine ⟨?_, ?_⟩
    · intro li
      simp only [s1gToListenInterval_listenIntervalToS1g]
      refine ⟨?_, ?_⟩
      · rintro (small | multiple)
        · exact sayable_of_le small
        · exact sayable_of_dvd multiple
      · intro neither
        have large : 16383 < li.toNat := by
          by_contra small
          exact neither (Or.inl (by omega))
        exact sayable_isGreatest large
    · rw [s1gToListenInterval_toNat, Nat.min_eq_left holds]
      exact Nat.mod_eq_of_lt (by omega)

/-- A station that announces 163830 beacon intervals is recorded with 32758. -/
theorem not_convertsListenInterval : ¬∀ s1gLi, ConvertsListenInterval s1gLi := by
  intro always
  have recorded := (always 0x7FFF#16).2
  have found : (s1gToListenInterval 0x7FFF#16).toNat = 32758 := by decide
  have expected : min (announced 0x7FFF#16) 65535 = 65535 := by decide
  omega

end S1g
end Morse
