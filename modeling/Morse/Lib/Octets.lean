import Mathlib.Data.List.Basic
import Mathlib.Data.Nat.ModEq
import Mathlib.Tactic.Ring

/-!
# Numbers as octets in memory

A number is laid out in memory by its octets, the least significant first, and
read back from an offset.  Headers are laid out field after field, so that what
stands behind some fields is found by dropping them.
-/

namespace Lib

/-- The octets of a number, of which so many are kept. -/
def natOctets : Nat → Nat → List (BitVec 8)
  | 0, _ => []
  | count + 1, value => BitVec.ofNat 8 value :: natOctets count (value / 256)

/-- The number that octets hold. -/
def octetsNat : List (BitVec 8) → Nat
  | [] => 0
  | octet :: rest => octet.toNat + 256 * octetsNat rest

@[simp] theorem length_natOctets (count value : Nat) :
    (natOctets count value).length = count := by
  induction count generalizing value with
  | zero => rfl
  | succ count ih => rw [natOctets, List.length_cons, ih]

theorem octetsNat_natOctets (count value : Nat) :
    octetsNat (natOctets count value) = value % 256 ^ count := by
  induction count generalizing value with
  | zero => rw [natOctets, octetsNat, Nat.pow_zero, Nat.mod_one]
  | succ count ih =>
    have octet : (BitVec.ofNat 8 value).toNat = value % 256 := BitVec.toNat_ofNat value 8
    rw [natOctets, octetsNat, ih, octet, Nat.pow_succ', Nat.mod_mul]

theorem octetsNat_lt (octets : List (BitVec 8)) : octetsNat octets < 256 ^ octets.length := by
  induction octets with
  | nil => exact Nat.one_pos
  | cons octet rest ih =>
    rw [octetsNat, List.length_cons]
    omega

variable {w : Nat}

/-- A number of `w` bits, laid out. -/
def leOctets (count : Nat) (value : BitVec w) : List (BitVec 8) := natOctets count value.toNat

/-- The number of `w` bits that stands first. -/
def headNumber (w count : Nat) (octets : List (BitVec 8)) : BitVec w :=
  BitVec.ofNat w (octetsNat (octets.take count))

/-- The number of `w` bits at an offset. -/
def numberAt (w count offset : Nat) (octets : List (BitVec 8)) : BitVec w :=
  headNumber w count (octets.drop offset)

@[simp] theorem length_leOctets (count : Nat) (value : BitVec w) :
    (leOctets count value).length = count :=
  length_natOctets _ _

theorem headNumber_append (wide : w ≤ 8 * count) (value : BitVec w) (rest : List (BitVec 8)) :
    headNumber w count (leOctets count value ++ rest) = value := by
  have kept : (leOctets count value ++ rest).take count = leOctets count value := by
    rw [List.take_append_of_le_length (Nat.le_of_eq (length_leOctets count value).symm)]
    exact List.take_of_length_le (Nat.le_of_eq (length_leOctets count value))
  have holds : value.toNat < 256 ^ count := by
    calc value.toNat < 2 ^ w := value.isLt
      _ ≤ 2 ^ (8 * count) := Nat.pow_le_pow_right Nat.two_pos wide
      _ = 256 ^ count := by rw [Nat.pow_mul]
  rw [headNumber, kept, leOctets, octetsNat_natOctets, Nat.mod_eq_of_lt holds]
  exact BitVec.ofNat_toNat w value |>.trans (BitVec.setWidth_eq value)

theorem drop_leOctets_append (behind : count ≤ offset) (value : BitVec w) (rest : List (BitVec 8)) :
    (leOctets count value ++ rest).drop offset = rest.drop (offset - count) := by
  have short : (leOctets count value).length ≤ offset := by
    rw [length_leOctets]
    exact behind
  rw [List.drop_append, length_leOctets, List.drop_of_length_le short, List.nil_append]

theorem numberAt_zero (wide : w ≤ 8 * count) (value : BitVec w) (rest : List (BitVec 8)) :
    numberAt w count 0 (leOctets count value ++ rest) = value :=
  headNumber_append wide value rest

theorem numberAt_behind (behind : count ≤ offset) (width : Nat) (value : BitVec v)
    (rest : List (BitVec 8)) :
    numberAt w width offset (leOctets count value ++ rest) =
      numberAt w width (offset - count) rest := by
  rw [numberAt, numberAt, drop_leOctets_append behind]

end Lib
