import Mathlib.Algebra.Order.Ring.Int
import Mathlib.Data.Int.Init
import Mathlib.Tactic.Ring

/-!
# Numbers in digits and in bits

A row of a table is numbered by four digits, the last of which has no bound.  A number is put into
memory of some width.  One way of doing so drops what does not fit, another refuses it.  Both leave
a number alone that fits, which is all that a computation without overflow uses.
-/

namespace Lib

/-- The number of four digits, the lowest of base `g`, the next two of bases `b` and
`s`. -/
def fromDigits (g b s lowest second third highest : Nat) : Nat :=
  lowest + second * g + third * (g * b) + highest * (b * s * g)

variable {g b s : Nat}

theorem fromDigits_digits (g b s number : Nat) :
    fromDigits g b s (number % g) (number % (b * g) / g) (number % (b * s * g) / (b * g))
      (number / (b * s * g)) = number := by
  have low : number % (b * g) % g = number % g := Nat.mod_mod_of_dvd number ⟨b, Nat.mul_comm b g⟩
  have third : number % (b * s * g) % (b * g) = number % (b * g) :=
    Nat.mod_mod_of_dvd number ⟨s, by rw [Nat.mul_right_comm]⟩
  have lower := Nat.div_add_mod (number % (b * g)) g
  have middle := Nat.div_add_mod (number % (b * s * g)) (b * g)
  have upper := Nat.div_add_mod number (b * s * g)
  rw [fromDigits, Nat.mul_comm (number % (b * g) / g) g,
    Nat.mul_comm (number % (b * s * g) / (b * g)) (g * b), Nat.mul_comm g b,
    Nat.mul_comm (number / (b * s * g)) (b * s * g)]
  omega

theorem digit_inj (below : digit < g) (below' : digit' < g)
    (same : digit + g * above = digit' + g * above') :
    digit = digit' ∧ above = above' := by
  have low : digit = digit' := by
    have residues := congrArg (· % g) same
    rwa [Nat.add_mul_mod_self_left, Nat.add_mul_mod_self_left, Nat.mod_eq_of_lt below,
      Nat.mod_eq_of_lt below'] at residues
  subst low
  refine ⟨rfl, Nat.eq_of_mul_eq_mul_left (Nat.zero_lt_of_lt below) ?_⟩
  omega

theorem fromDigits_inj (lowestBelow : lowest < g) (secondBelow : second < b)
    (thirdBelow : third < s) (lowestBelow' : lowest' < g) (secondBelow' : second' < b)
    (thirdBelow' : third' < s)
    (same : fromDigits g b s lowest second third highest =
      fromDigits g b s lowest' second' third' highest') :
    lowest = lowest' ∧ second = second' ∧ third = third' ∧ highest = highest' := by
  have nested : ∀ lowest second third highest : Nat,
      fromDigits g b s lowest second third highest =
        lowest + g * (second + b * (third + s * highest)) := by
    intro lowest second third highest
    unfold fromDigits
    ring
  rw [nested, nested] at same
  obtain ⟨first, same⟩ := digit_inj lowestBelow lowestBelow' same
  obtain ⟨second, same⟩ := digit_inj secondBelow secondBelow' same
  obtain ⟨third, same⟩ := digit_inj thirdBelow thirdBelow' same
  exact ⟨first, second, third, same⟩

/-! ## Widths -/

/-- A way to put a number into so many bits. -/
abbrev Store := Nat → Int → Option Nat

/-- What does not fit is dropped. -/
def wrapping : Store := fun width value => some (value % 2 ^ width).toNat

/-- A number that fits is left alone. -/
def Faithful (store : Store) : Prop :=
  ∀ (width value : Nat), value < 2 ^ width → store width value = some value

theorem faithful_wrapping : Faithful wrapping := by
  intro width value fits
  have same : (value : Int) % 2 ^ width = value := by
    refine Int.emod_eq_of_lt (Int.natCast_nonneg value) ?_
    exact_mod_cast fits
  rw [wrapping, same, Int.toNat_natCast]

/-- A number with a sign, which is put into memory from the least one on. -/
def signed (store : Store) (width : Nat) (value : Int) : Option Int :=
  (store width (value + 2 ^ (width - 1))).map fun raised : Nat => (raised : Int) - 2 ^ (width - 1)

/-- Division, which is not defined by zero. -/
def divide (dividend divisor : Nat) : Option Nat :=
  if divisor = 0 then none else some (dividend / divisor)

end Lib
