import Mathlib.Data.List.TakeWhile

/-!
# The MAC address of the device

Whenever the firmware is loaded the MAC address is chosen again.  The suffix that the user may give
is a module parameter, and its separators are overwritten while it is read.
-/

namespace Morse
namespace Firmware
namespace MacAddress

abbrev Octet := BitVec 8

/-- The string in a buffer ends at the first octet that is zero. -/
def cString (buffer : List Octet) : List Octet := buffer.takeWhile (· ≠ 0)

/-- The separator is a colon. -/
def IsPart (char : Octet) : Bool := char ≠ 0x3A

/-! ## Numbers -/

/-- The value of a hexadecimal digit. -/
def hexDigit (char : Octet) : Option Nat :=
  if 0x30 ≤ char.toNat ∧ char.toNat ≤ 0x39 then some (char.toNat - 0x30)
  else if 0x41 ≤ char.toNat ∧ char.toNat ≤ 0x46 then some (char.toNat - 0x41 + 10)
  else if 0x61 ≤ char.toNat ∧ char.toNat ≤ 0x66 then some (char.toNat - 0x61 + 10)
  else none

/-- `_kstrtoull` with base 16: the digits may follow `0x`, and a line may end after them. -/
def kstrtoull (text : List Octet) : Option Nat :=
  let text :=
    if text.take 2 = [0x30, 0x78] ∨ text.take 2 = [0x30, 0x58] then text.drop 2 else text
  let digits := text.takeWhile fun char => (hexDigit char).isSome
  if digits = [] then none
  else if text.drop digits.length = [] ∨ text.drop digits.length = [0x0A] then
    some (digits.foldl (fun value char => 16 * value + (hexDigit char).getD 0) 0)
  else none

/-- `kstrtoint` with base 16. -/
def kstrtoint (text : List Octet) : Option Int :=
  let value : Option Int :=
    if text.head? = some 0x2D then (kstrtoull text.tail).map fun value => -(value : Int)
    else (kstrtoull (if text.head? = some 0x2B then text.tail else text)).map Int.ofNat
  value.filter fun value => -0x80000000 ≤ value ∧ value < 0x80000000

/-! ## The suffix -/

/-- `strsep` with the place where it stands in a buffer: the token, the buffer whose next
separator is overwritten, and the place behind that. -/
def strsep (buffer : List Octet) : Option Nat → Option (List Octet) × List Octet × Option Nat
  | none => (none, buffer, none)
  | some place =>
    let text := cString (buffer.drop place)
    let token := text.takeWhile IsPart
    if 0x3A ∈ text then
      (some token, buffer.set (place + token.length) 0, some (place + token.length + 1))
    else (some token, buffer, none)

/-- The loop over the octets of the suffix. -/
def parseSuffix : Nat → List Octet → Option Nat → Option (List Octet) × List Octet
  | 0, buffer, _ => (some [], buffer)
  | count + 1, buffer, place =>
    let parted := strsep buffer place
    match parted.1.bind kstrtoint with
    | none => (none, parted.2.1)
    | some res =>
      let rest := parseSuffix count parted.2.1 parted.2.2
      (rest.1.map (BitVec.ofInt 8 res :: ·), rest.2)

/-- `morse_oui`. -/
def morseOui : List Octet := [0x0C, 0xBF, 0x74]

/-- `MORSE_RANDOMISE_OCTETS`, "00:00:00". -/
def randomiseOctets : List Octet := [0x30, 0x30, 0x3A, 0x30, 0x30, 0x3A, 0x30, 0x30]

/-- Where the address comes from. -/
inductive Source
  | firmware
  | user
  | random
  deriving DecidableEq

/-- The address that is chosen, and the parameter behind that. -/
structure Chosen where
  source : Source
  macaddr : List Octet
  macaddrSuffix : List Octet
  deriving DecidableEq

/-- The parameter is parsed unless it is equal to the default, as far as it goes. -/
def parsed (macaddrSuffix : List Octet) : Option (List Octet) × List Octet :=
  if (cString macaddrSuffix).isPrefixOf randomiseOctets then (none, macaddrSuffix)
  else parseSuffix 3 macaddrSuffix (some 0)

/-- `set_mac_addr` with the octets that `get_random_bytes` yields. -/
def setMacAddr
    (macaddrOctet : Octet)
    (fwMacAddr : Vector Octet 6)
    (randomBytes : Octet × Octet × Octet)
    (macaddrSuffix : List Octet) :
    Chosen :=
  if fwMacAddr ≠ Vector.replicate 6 0 then ⟨.firmware, fwMacAddr.toList, macaddrSuffix⟩
  else
    match (parsed macaddrSuffix).1 with
    | some octets => ⟨.user, morseOui ++ octets, (parsed macaddrSuffix).2⟩
    | none =>
      ⟨.random, morseOui ++ [randomBytes.1, randomBytes.2.1,
        if macaddrOctet ≠ 0xFF then macaddrOctet else randomBytes.2.2],
        (parsed macaddrSuffix).2⟩

/-- What the calls choose one after the other. -/
def chosen
    (macaddrOctet : Octet)
    (fwMacAddr : Vector Octet 6)
    (randomBytes : Nat → Octet × Octet × Octet)
    (macaddrSuffix : List Octet) :
    Nat → Chosen
  | 0 => setMacAddr macaddrOctet fwMacAddr (randomBytes 0) macaddrSuffix
  | call + 1 =>
    setMacAddr macaddrOctet fwMacAddr (randomBytes (call + 1))
      (chosen macaddrOctet fwMacAddr randomBytes macaddrSuffix call).macaddrSuffix

/-! ## What is expected -/

/-- Two hexadecimal digits spell an octet. -/
def Spells (high low octet : Octet) : Prop :=
  ∃ tens ones, hexDigit high = some tens ∧ hexDigit low = some ones ∧
    octet = BitVec.ofNat 8 (16 * tens + ones)

/-- A suffix in the form XX:XX:XX for three octets. -/
def Valid (text octets : List Octet) : Prop :=
  ∃ a b c d e f x y z, text = [a, b, 0x3A, c, d, 0x3A, e, f] ∧ octets = [x, y, z] ∧
    Spells a b x ∧ Spells c d y ∧ Spells e f z

/-- All calls choose the same source, and a valid suffix that is not the default is used in each
call when the chip has no address. -/
def Stable (macaddrOctet : Octet) (fwMacAddr : Vector Octet 6) (macaddrSuffix : List Octet) :
    Prop :=
  ∀ (randomBytes : Nat → Octet × Octet × Octet) (call : Nat),
    (chosen macaddrOctet fwMacAddr randomBytes macaddrSuffix call).source =
      (chosen macaddrOctet fwMacAddr randomBytes macaddrSuffix 0).source ∧
    ∀ octets, fwMacAddr = Vector.replicate 6 0 → Valid (cString macaddrSuffix) octets →
      cString macaddrSuffix ≠ randomiseOctets →
        (chosen macaddrOctet fwMacAddr randomBytes macaddrSuffix call).macaddr =
          morseOui ++ octets

/-! ## What parsing leaves -/

theorem cString_set (buffer : List Octet) (place : Nat) :
    cString (buffer.set place 0) = (cString buffer).take place := by
  induction buffer generalizing place with
  | nil => exact List.take_nil.symm
  | cons char rest ih =>
    cases place with
    | zero => simp [cString]
    | succ place =>
      have tail := ih place
      unfold cString at tail ⊢
      rw [List.set_cons_succ, List.takeWhile_cons, List.takeWhile_cons, tail]
      split
      · rfl
      · rfl

variable {buffer : List Octet}

theorem cString_drop (within : place ≤ (cString buffer).length) :
    cString (buffer.drop place) = (cString buffer).drop place := by
  induction buffer generalizing place with
  | nil => rw [List.drop_nil, cString, List.takeWhile_nil, List.drop_nil]
  | cons char rest ih =>
    cases place with
    | zero => rfl
    | succ place =>
      unfold cString at ih within ⊢
      rw [List.takeWhile_cons] at within ⊢
      split at within
      · rw [List.drop_succ_cons, ih (Nat.le_of_succ_le_succ within), if_pos ‹_›,
          List.drop_succ_cons]
      · exact absurd within (Nat.not_succ_le_zero _)

/-- The parts of the string from a place on. -/
def parts (buffer : List Octet) : Option Nat → List (List Octet)
  | none => []
  | some place => (cString (buffer.drop place)).splitOn 0x3A

theorem takeWhile_isPart (whole : 0x3A ∉ token) (rest : List Octet) :
    (token ++ 0x3A :: rest).takeWhile IsPart = token := by
  have all : ∀ char ∈ token, IsPart char = true := by
    intro char isIn
    exact decide_eq_true fun colon => whole (colon ▸ isIn)
  rw [List.takeWhile_append_of_pos all, List.takeWhile_cons_of_neg (by decide), List.append_nil]

theorem strsep_parts (buffer : List Octet) (place : Option Nat) :
    (strsep buffer place).1 = (parts buffer place).head? ∧
      parts (strsep buffer place).2.1 (strsep buffer place).2.2 = (parts buffer place).tail := by
  cases place with
  | none => exact ⟨rfl, rfl⟩
  | some place =>
    by_cases separated : 0x3A ∈ cString (buffer.drop place)
    · obtain ⟨token, rest, is, whole⟩ := List.eq_append_cons_of_mem separated
      have next : cString (buffer.drop (place + token.length + 1)) = rest := by
        rw [Nat.add_assoc, ← List.drop_drop, cString_drop (by rw [is]; simp), is]
        simp
      simp only [strsep, parts, if_pos separated]
      rw [is, takeWhile_isPart whole, List.splitOn_append_cons_self_of_not_mem whole,
        List.drop_set_of_lt (by omega), next]
      exact ⟨rfl, rfl⟩
    · have all : ∀ char ∈ cString (buffer.drop place), IsPart char = true := by
        intro char isIn
        exact decide_eq_true fun colon => separated (colon ▸ isIn)
      simp only [strsep, parts, if_neg separated]
      rw [List.takeWhile_eq_self_iff.mpr all, List.splitOn_eq_singleton separated]
      exact ⟨rfl, rfl⟩

theorem parseSuffix_isSome_iff (count : Nat) (buffer : List Octet) (place : Option Nat) :
    (parseSuffix count buffer place).1.isSome ↔
      count ≤ (parts buffer place).length ∧
        ∀ part ∈ (parts buffer place).take count, (kstrtoint part).isSome := by
  induction count generalizing buffer place with
  | zero => simp [parseSuffix]
  | succ count ih =>
    obtain ⟨token, others⟩ := strsep_parts buffer place
    have rest := ih (strsep buffer place).2.1 (strsep buffer place).2.2
    rw [others] at rest
    unfold parseSuffix
    dsimp only
    rw [token]
    generalize parts buffer place = all at rest
    cases all with
    | nil => simp
    | cons part following =>
      cases value : kstrtoint part with
      | none => simp [value]
      | some res => simpa [value] using rest

theorem cString_parseSuffix (count : Nat)
    (behind : ∀ start, place = some start → (cString buffer).length ≤ start) :
    cString (parseSuffix count buffer place).2 = cString buffer := by
  induction count generalizing buffer place with
  | zero => rfl
  | succ count ih =>
    have parted : cString (strsep buffer place).2.1 = cString buffer ∧
        ∀ start, (strsep buffer place).2.2 = some start → (cString buffer).length ≤ start := by
      unfold strsep
      split
      · exact ⟨rfl, behind⟩
      case h_2 start =>
        have reached := behind start rfl
        dsimp only
        split
        · refine ⟨?_, fun next is => ?_⟩
          · rw [cString_set, List.take_of_length_le (by omega)]
          · have further := Option.some.inj is
            omega
        · refine ⟨rfl, fun next is => ?_⟩
          cases is
    unfold parseSuffix
    dsimp only
    split
    · exact parted.1
    · refine (ih ?_).trans parted.1
      rw [parted.1]
      exact parted.2

theorem not_mem_cString_parsed (other : ¬(cString macaddrSuffix).isPrefixOf randomiseOctets) :
    0x3A ∉ cString (parsed macaddrSuffix).2 := by
  have first : 0x3A ∉ cString (strsep macaddrSuffix (some 0)).2.1 ∧
      ∀ start, (strsep macaddrSuffix (some 0)).2.2 = some start →
        (cString (strsep macaddrSuffix (some 0)).2.1).length ≤ start := by
    by_cases separated : 0x3A ∈ cString macaddrSuffix
    · obtain ⟨token, rest, is, whole⟩ := List.eq_append_cons_of_mem separated
      have cut : cString (macaddrSuffix.set token.length 0) = token := by
        rw [cString_set, is, List.take_left]
      simp only [strsep, List.drop_zero, if_pos separated]
      rw [is, takeWhile_isPart whole, Nat.zero_add, cut]
      refine ⟨whole, fun start next => ?_⟩
      rw [← Option.some.inj next]
      exact Nat.le_succ _
    · simp only [strsep, List.drop_zero, if_neg separated]
      refine ⟨separated, fun start none => ?_⟩
      cases none
  rw [parsed, if_neg other, parseSuffix]
  split
  · exact first.1
  · rw [cString_parseSuffix 2 first.2]
    exact first.1

theorem parsed_again
    (again : (parsed macaddrSuffix).1 = none ∨
      ¬(cString macaddrSuffix).isPrefixOf randomiseOctets) :
    (parsed (parsed macaddrSuffix).2).1 = none := by
  by_cases default : (cString macaddrSuffix).isPrefixOf randomiseOctets
  · have same : (parsed macaddrSuffix).2 = macaddrSuffix := by
      rw [parsed, if_pos default]
    rw [same]
    exact again.resolve_right (not_not.mpr default)
  · have whole := not_mem_cString_parsed default
    generalize (parsed macaddrSuffix).2 = left at whole
    unfold parsed
    split
    · rfl
    · have alone : parts left (some 0) = [cString left] := by
        rw [parts, List.drop_zero, List.splitOn_eq_singleton whole]
      refine Option.not_isSome_iff_eq_none.mp ?_
      rw [parseSuffix_isSome_iff, alone]
      exact fun enough => absurd enough.1 (Nat.not_succ_le_self 1 ∘ Nat.le_of_succ_le)

/-! ## Calls -/

/-- Three numbers between colons, at least, that are not the beginning of the default. -/
def Numbers (text : List Octet) : Prop :=
  ¬text <+: randomiseOctets ∧ 3 ≤ (text.splitOn 0x3A).length ∧
    ∀ part ∈ (text.splitOn 0x3A).take 3, (kstrtoint part).isSome

theorem parsed_isSome_iff (macaddrSuffix : List Octet) :
    (parsed macaddrSuffix).1.isSome ↔ Numbers (cString macaddrSuffix) := by
  have parses := parseSuffix_isSome_iff 3 macaddrSuffix (some 0)
  rw [parts] at parses
  rw [Numbers, parsed]
  split
  · simp_all
  · simp_all

theorem hexDigit_bounds (is : hexDigit char = some value) :
    value < 16 ∧ 0x30 ≤ char.toNat ∧ char.toNat ≤ 0x66 ∧ char.toNat ≠ 0x3A ∧ char.toNat ≠ 0x58 := by
  unfold hexDigit at is
  split at is
  · cases is
    omega
  · split at is
    · cases is
      omega
    · split at is
      · cases is
        omega
      · cases is

theorem Spells.number (spells : Spells high low octet) :
    (kstrtoint [high, low]).isSome ∧ 0x3A ∉ [high, low] := by
  obtain ⟨tens, ones, isHigh, isLow, -⟩ := spells
  obtain ⟨tensBound, highLeast, highMost, highPart, -⟩ := hexDigit_bounds isHigh
  obtain ⟨onesBound, lowLeast, lowMost, lowPart, lowOther⟩ := hexDigit_bounds isLow
  have differs {char : Octet} {number : Nat} (other : char.toNat ≠ number) (small : number < 256) :
      char ≠ BitVec.ofNat 8 number := by
    rintro rfl
    exact other (by rw [BitVec.toNat_ofNat, Nat.mod_eq_of_lt small])
  have whole : (kstrtoull [high, low]) = some (16 * tens + ones) := by
    simp [kstrtoull, isHigh, isLow, differs (show low.toNat ≠ 0x78 by omega) (by decide),
      differs lowOther (by decide)]
  constructor
  · have sign {char : Octet} (other : high ≠ char) : [high, low].head? ≠ some char :=
      fun is => other (Option.some.inj is)
    have minus : [high, low].head? ≠ some 0x2D :=
      sign (differs (show high.toNat ≠ 0x2D by omega) (by decide))
    have plus : [high, low].head? ≠ some 0x2B :=
      sign (differs (show high.toNat ≠ 0x2B by omega) (by decide))
    have fits : -0x80000000 ≤ Int.ofNat (16 * tens + ones) ∧
        Int.ofNat (16 * tens + ones) < 0x80000000 := by
      rw [Int.ofNat_eq_natCast]
      omega
    rw [kstrtoint, if_neg minus, if_neg plus, whole, Option.map_some, Option.filter_some,
      if_pos (decide_eq_true fits)]
    rfl
  · simp [(differs highPart (by decide)).symm, (differs lowPart (by decide)).symm]

theorem Valid.numbers (valid : Valid text octets) (other : text ≠ randomiseOctets) :
    Numbers text := by
  obtain ⟨a, b, c, d, e, f, x, y, z, rfl, -, first, second, third⟩ := valid
  have split : [a, b, 0x3A, c, d, 0x3A, e, f].splitOn 0x3A = [[a, b], [c, d], [e, f]] :=
    List.splitOn_intercalate 0x3A (show ∀ part ∈ [[a, b], [c, d], [e, f]], 0x3A ∉ part
      by simp only [List.forall_mem_cons, first.number.2, second.number.2, third.number.2,
        not_false_eq_true, List.not_mem_nil, false_implies, implies_true, and_self])
      (List.cons_ne_nil _ _)
  refine ⟨fun shorter => other (shorter.eq_of_length rfl), ?_, ?_⟩
  · rw [split]
    exact Nat.le_refl 3
  · rw [split]
    simp [first.number.1, second.number.1, third.number.1]

variable {macaddrOctet : Octet} {fwMacAddr : Vector Octet 6} {macaddrSuffix : List Octet}

theorem random_chosen (randomBytes : Nat → Octet × Octet × Octet)
    (idle : (parsed macaddrSuffix).1 = none) (call : Nat) :
    (chosen macaddrOctet (Vector.replicate 6 0) randomBytes macaddrSuffix call).source = .random ∧
      (parsed (chosen macaddrOctet (Vector.replicate 6 0) randomBytes macaddrSuffix
        call).macaddrSuffix).1 = none := by
  have chooses (bytes : Octet × Octet × Octet) {suffix : List Octet}
      (idle : (parsed suffix).1 = none) :
      (setMacAddr macaddrOctet (Vector.replicate 6 0) bytes suffix).source = .random ∧
        (setMacAddr macaddrOctet (Vector.replicate 6 0) bytes suffix).macaddrSuffix =
          (parsed suffix).2 := by
    rw [setMacAddr, idle]
    exact ⟨rfl, rfl⟩
  induction call with
  | zero =>
    have last := chooses (randomBytes 0) idle
    rw [chosen, last.2]
    exact ⟨last.1, parsed_again (.inl idle)⟩
  | succ call ih =>
    have last := chooses (randomBytes (call + 1)) ih.2
    rw [chosen, last.2]
    exact ⟨last.1, parsed_again (.inl ih.2)⟩

/-- The calls are stable exactly if the chip has an address or the suffix is not taken. -/
theorem stable_iff :
    Stable macaddrOctet fwMacAddr macaddrSuffix ↔
      fwMacAddr ≠ Vector.replicate 6 0 ∨ ¬Numbers (cString macaddrSuffix) := by
  constructor
  · intro stable
    by_contra neither
    obtain ⟨unset, numbers⟩ := not_or.mp neither
    obtain rfl := not_not.mp unset
    have taken := (parsed_isSome_iff macaddrSuffix).mpr (not_not.mp numbers)
    obtain ⟨octets, value⟩ := Option.isSome_iff_exists.mp taken
    have first : setMacAddr macaddrOctet (Vector.replicate 6 0) (0, 0, 0) macaddrSuffix =
        ⟨.user, morseOui ++ octets, (parsed macaddrSuffix).2⟩ := by
      rw [setMacAddr, if_neg (not_not.mpr rfl), value]
    have idle := parsed_again (.inr fun default => (not_not.mp numbers).1
      (List.isPrefixOf_iff_prefix.mp default))
    have same : (setMacAddr macaddrOctet (Vector.replicate 6 0) (0, 0, 0)
        (setMacAddr macaddrOctet (Vector.replicate 6 0) (0, 0, 0)
          macaddrSuffix).macaddrSuffix).source =
          (setMacAddr macaddrOctet (Vector.replicate 6 0) (0, 0, 0) macaddrSuffix).source :=
      (stable (fun _ => (0, 0, 0)) 1).1
    rw [first, setMacAddr, idle] at same
    cases same
  · intro fine randomBytes call
    by_cases unset : fwMacAddr = Vector.replicate 6 0
    · subst unset
      have idle := fine.resolve_left (not_not.mpr rfl)
      have none := Option.not_isSome_iff_eq_none.mp ((parsed_isSome_iff _).not.mpr idle)
      refine ⟨?_, fun octets _ valid other => absurd (valid.numbers other) idle⟩
      rw [(random_chosen randomBytes none call).1, (random_chosen randomBytes none 0).1]
    · have always (call : Nat) :
          (chosen macaddrOctet fwMacAddr randomBytes macaddrSuffix call).source = .firmware := by
        cases call with
        | zero => rw [chosen, setMacAddr, if_pos unset]
        | succ call => rw [chosen, setMacAddr, if_pos unset]
      exact ⟨(always call).trans (always 0).symm, fun _ zero => absurd zero unset⟩

/-- The suffix "AB:CD:EF" is used by the first call only. -/
theorem not_stable_suffix :
    ¬Stable 0xFF (Vector.replicate 6 0)
      [0x41, 0x42, 0x3A, 0x43, 0x44, 0x3A, 0x45, 0x46, 0] := by
  intro stable
  cases (stable (fun _ => (0, 0, 0)) 1).1

end MacAddress
end Firmware
end Morse
