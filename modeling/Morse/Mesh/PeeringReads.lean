import Morse.Mesh.PeeringFrames

/-!
# Peering frames that are read within their octets

The octets that are left of an RSN element are counted in one octet.  As long as the lists of
suites are whole, the count is right, and once it is wrong the next read is outside of the
element.
-/

namespace Morse
namespace Mesh

open Ies Lib

variable {data : List (BitVec 8)} {element : Element} {frame : MpmFrame}

/-! ## Numbers in memory -/

theorem exists_le16 :
    (∃ value, le16 (Lib.Memory.ofList data) position = some value) ↔
      position + 2 ≤ data.length := by
  rw [le16]
  constructor
  · rintro ⟨value, read⟩
    obtain ⟨low, -, rest⟩ := Option.bind_eq_some_iff.mp read
    obtain ⟨high, found, -⟩ := Option.map_eq_some_iff.mp rest
    obtain ⟨inside, -⟩ := List.getElem?_eq_some_iff.mp found
    exact inside
  · intro inside
    have first : (Lib.Memory.ofList data) position = some data[position] :=
      List.getElem?_eq_getElem (by omega)
    have second : (Lib.Memory.ofList data) (position + 1) = some data[position + 1] :=
      List.getElem?_eq_getElem inside
    rw [first, second]
    exact ⟨_, rfl⟩

theorem le16_eq_none (outside : data.length < position + 2) :
    le16 (Lib.Memory.ofList data) position = none := by
  cases read : le16 (Lib.Memory.ofList data) position with
  | none => rfl
  | some value =>
    have inside := exists_le16.mp ⟨value, read⟩
    omega

theorem le16_octets (element : Element) (position : Nat) :
    le16 (Lib.Memory.ofList element.octets) (position + 2) =
      le16 (Lib.Memory.ofList element.data.val) position := by
  rfl

/-! ## Suites -/

section Suites

variable {position : Nat} {count : BitVec 16}

variable {memory : Lib.Memory (BitVec 8)} {left : BitVec 8}

theorem skipSuites_of_many (read : le16 memory position = some count)
    (many : left.toNat < count.toNat * 4) :
    skipSuites memory position left = some none := by
  rw [skipSuites, read, Option.map_some, if_pos many]

theorem skipSuites_of_whole (left : BitVec 8) (read : le16 memory position = some count)
    (whole : 2 + count.toNat * 4 ≤ left.toNat) :
    skipSuites memory position left =
        some (some (position + (2 + count.toNat * 4),
          left - BitVec.ofNat 8 (2 + count.toNat * 4))) ∧
      (left - BitVec.ofNat 8 (2 + count.toNat * 4)).toNat =
        left.toNat - (2 + count.toNat * 4) := by
  have small : (BitVec.ofNat 8 (2 + count.toNat * 4)).toNat = 2 + count.toNat * 4 := by
    exact Nat.mod_eq_of_lt (by omega)
  refine ⟨?_, ?_⟩
  · rw [skipSuites, read, Option.map_some, if_neg (by omega)]
  · rw [BitVec.toNat_sub]
    omega

theorem skipSuites_of_cut (left : BitVec 8) (read : le16 memory position = some count)
    (enough : count.toNat * 4 ≤ left.toNat) (cut : left.toNat < 2 + count.toNat * 4) :
    ∃ wrapped : BitVec 8, 2 ≤ wrapped.toNat ∧
      skipSuites memory position left =
        some (some (position + (2 + count.toNat * 4), wrapped)) := by
  have small : (BitVec.ofNat 8 (2 + count.toNat * 4)).toNat = 2 + count.toNat * 4 := by
    exact Nat.mod_eq_of_lt (by omega)
  refine ⟨left - BitVec.ofNat 8 (2 + count.toNat * 4), ?_, ?_⟩
  · rw [BitVec.toNat_sub]
    omega
  · rw [skipSuites, read, Option.map_some, if_neg (by omega)]

theorem skipSuites_of_missing (missing : le16 memory position = none) :
    skipSuites memory position left = none := by
  rw [skipSuites, missing, Option.map_none]

end Suites

/-! ## Capabilities -/

theorem getRsnCaps_of_long (long : 6 ≤ element.data.val.length) :
    ∃ left : BitVec 8, left.toNat = element.data.val.length - 6 ∧
      getRsnCaps (Lib.Memory.ofList element.octets) =
        ((skipSuites (Lib.Memory.ofList element.octets) 8 left).bind
          (nextCaps (Lib.Memory.ofList element.octets))).map some := by
  obtain ⟨eid, data, fits⟩ := element
  dsimp only at long ⊢
  have length : (BitVec.ofNat 8 data.length).toNat = data.length := by
    exact Nat.mod_eq_of_lt fits
  have two : (BitVec.ofNat 8 data.length - 2).toNat = data.length - 2 := by
    rw [BitVec.toNat_sub, length]
    change (2 ^ 8 - 2 + data.length) % 2 ^ 8 = data.length - 2
    omega
  have six : (BitVec.ofNat 8 data.length - 2 - 4).toNat = data.length - 6 := by
    rw [BitVec.toNat_sub, two]
    change (2 ^ 8 - 4 + (data.length - 2)) % 2 ^ 8 = data.length - 6
    omega
  refine ⟨BitVec.ofNat 8 data.length - 2 - 4, six, ?_⟩
  have second : (Lib.Memory.ofList (Element.octets ⟨eid, data, fits⟩)) 1 =
      some (BitVec.ofNat 8 data.length) := rfl
  rw [getRsnCaps, second, Option.bind_some, if_neg (by omega), if_neg (by omega)]

theorem getRsnCaps_of_short (short : element.data.val.length < 6) :
    getRsnCaps (Lib.Memory.ofList element.octets) = some none ∨
      getRsnCaps (Lib.Memory.ofList element.octets) = some (some 0) := by
  obtain ⟨eid, data, fits⟩ := element
  dsimp only at short
  have length : (BitVec.ofNat 8 data.length).toNat = data.length := by
    exact Nat.mod_eq_of_lt fits
  have second : (Lib.Memory.ofList (Element.octets ⟨eid, data, fits⟩)) 1 =
      some (BitVec.ofNat 8 data.length) := rfl
  rw [getRsnCaps, second, Option.bind_some]
  by_cases none : (BitVec.ofNat 8 data.length).toNat < 2
  · exact Or.inl (if_pos none)
  · have two : (BitVec.ofNat 8 data.length - 2).toNat = data.length - 2 := by
      rw [BitVec.toNat_sub, length]
      change (2 ^ 8 - 2 + data.length) % 2 ^ 8 = data.length - 2
      omega
    rw [if_neg none, if_pos (by omega)]
    exact Or.inr rfl

theorem IsCapsOf.positions (field : IsCapsOf data caps) :
    ∃ pairwise akm : BitVec 16,
      le16 (Lib.Memory.ofList data) 6 = some pairwise ∧
      le16 (Lib.Memory.ofList data) (8 + pairwise.toNat * 4) = some akm ∧
      le16 (Lib.Memory.ofList data) (10 + pairwise.toNat * 4 + akm.toNat * 4) = some caps ∧
      12 + pairwise.toNat * 4 + akm.toNat * 4 ≤ data.length := by
  obtain ⟨pairwise, akm, first, second, third⟩ := field
  have last := exists_le16.mp ⟨caps, third⟩
  exact ⟨pairwise, akm, first, second, third, by omega⟩

/-- What is told of an element whose reads are within it. -/
structure Told (data : List (BitVec 8)) (result : Option (BitVec 16)) : Prop where
  sound : ∀ caps, result = some caps → caps = 0 ∨ IsCapsOf data caps
  complete : ∀ caps, IsCapsOf data caps → result = some caps

theorem told_of_no_field (zero : result = none ∨ result = some 0)
    (without : ∀ caps, ¬ IsCapsOf data caps) :
    Told data result := by
  refine ⟨?_, fun caps field => absurd field (without caps)⟩
  intro caps told
  rcases zero with missing | zero
  · rw [missing] at told
    cases told
  · rw [zero] at told
    cases told
    exact Or.inl rfl

theorem nextCaps_of_fits (readPairs : le16 (Lib.Memory.ofList element.data.val) 6 = some pairwise)
    (counted : left.toNat = element.data.val.length - (8 + pairwise.toNat * 4))
    (whole : 8 + pairwise.toNat * 4 ≤ element.data.val.length)
    (readAkm : le16 (Lib.Memory.ofList element.data.val) (8 + pairwise.toNat * 4) = some akm)
    (fits : element.data.val.length - (8 + pairwise.toNat * 4) < akm.toNat * 4 ∨
      10 + pairwise.toNat * 4 + akm.toNat * 4 ≤ element.data.val.length) :
    ∃ caps, nextCaps (Lib.Memory.ofList element.octets) (some (10 + pairwise.toNat * 4, left)) =
        some caps ∧
      Told element.data.val (some caps) := by
  have read : le16 (Lib.Memory.ofList element.octets) (10 + pairwise.toNat * 4) = some akm := by
    rw [← readAkm, ← le16_octets]
    congr 1
    omega
  have same {caps : BitVec 16} (field : IsCapsOf element.data.val caps) :
      le16 (Lib.Memory.ofList element.data.val) (10 + pairwise.toNat * 4 + akm.toNat * 4) =
          some caps ∧
        12 + pairwise.toNat * 4 + akm.toNat * 4 ≤ element.data.val.length := by
    obtain ⟨first, second, pairs, akms, found, inside⟩ := field.positions
    rw [readPairs] at pairs
    cases pairs
    rw [readAkm] at akms
    cases akms
    exact ⟨found, inside⟩
  rcases fits with many | within
  · refine ⟨0, ?_, ?_⟩
    · rw [nextCaps, skipSuites_of_many read (by omega)]
      rfl
    · apply told_of_no_field (Or.inr rfl)
      intro caps field
      have inside := (same field).2
      omega
  · obtain ⟨skipped, remaining⟩ := skipSuites_of_whole left read (by omega)
    rw [nextCaps, skipped, Option.bind_some, lastCaps, remaining]
    by_cases few : left.toNat - (2 + akm.toNat * 4) < 2
    · refine ⟨0, if_pos few, ?_⟩
      apply told_of_no_field (Or.inr rfl)
      intro caps field
      have inside := (same field).2
      omega
    · have behind := le16_octets element
        (10 + pairwise.toNat * 4 + akm.toNat * 4)
      have moved : 10 + pairwise.toNat * 4 + (2 + akm.toNat * 4) =
          10 + pairwise.toNat * 4 + akm.toNat * 4 + 2 := by
        omega
      obtain ⟨caps, found⟩ := exists_le16.mpr
        (show 10 + pairwise.toNat * 4 + akm.toNat * 4 + 2 ≤ element.data.val.length by omega)
      refine ⟨caps, ?_, ?_, ?_⟩
      · rw [if_neg few, moved, behind, found]
      · intro other told
        cases told
        exact Or.inr ⟨pairwise, akm, readPairs, readAkm, found⟩
      · intro other field
        rw [← (same field).1, found]

theorem getRsnCaps_of_fits (fits : RsnFits element.data.val) :
    ∃ result, getRsnCaps (Lib.Memory.ofList element.octets) = some result ∧
      Told element.data.val result := by
  by_cases short : element.data.val.length < 6
  · have without (caps : BitVec 16) : ¬ IsCapsOf element.data.val caps := by
      intro field
      obtain ⟨pairwise, akm, -, -, -, inside⟩ := field.positions
      omega
    rcases getRsnCaps_of_short short with missing | zero
    · exact ⟨none, missing, told_of_no_field (Or.inl rfl) without⟩
    · exact ⟨some 0, zero, told_of_no_field (Or.inr rfl) without⟩
  · obtain ⟨left, counted, reads⟩ := getRsnCaps_of_long (Nat.not_lt.mp short)
    rcases fits with few | ⟨pairwise, readPairs, fits⟩
    · exact absurd few short
    · have read : le16 (Lib.Memory.ofList element.octets) 8 = some pairwise := by
        rw [← readPairs]
        exact le16_octets element 6
      rw [reads]
      rcases fits with many | ⟨whole, akm, readAkm, fits⟩
      · refine ⟨some 0, ?_, ?_⟩
        · rw [skipSuites_of_many read (by omega)]
          rfl
        · apply told_of_no_field (Or.inr rfl)
          intro caps field
          obtain ⟨first, second, pairs, -, -, inside⟩ := field.positions
          rw [readPairs] at pairs
          cases pairs
          omega
      · obtain ⟨skipped, remaining⟩ := skipSuites_of_whole left read (by omega)
        have rest : (left - BitVec.ofNat 8 (2 + pairwise.toNat * 4)).toNat =
            element.data.val.length - (8 + pairwise.toNat * 4) := by
          omega
        obtain ⟨caps, next, told⟩ := nextCaps_of_fits readPairs rest whole readAkm fits
        have place : 8 + (2 + pairwise.toNat * 4) = 10 + pairwise.toNat * 4 := by omega
        refine ⟨some caps, ?_, told⟩
        rw [skipped, Option.bind_some, place, next]
        rfl

theorem getRsnCaps_of_not_fits (unfit : ¬ RsnFits element.data.val) :
    getRsnCaps (Lib.Memory.ofList element.octets) = none := by
  rw [RsnFits, not_or] at unfit
  obtain ⟨long, unfit⟩ := unfit
  obtain ⟨left, counted, reads⟩ := getRsnCaps_of_long (Nat.not_lt.mp long)
  rw [reads, Option.map_eq_none_iff]
  cases readPairs : le16 (Lib.Memory.ofList element.data.val) 6 with
  | none =>
    have missing : le16 (Lib.Memory.ofList element.octets) 8 = none := by
      rw [← readPairs]
      exact le16_octets element 6
    rw [skipSuites_of_missing missing]
    rfl
  | some pairwise =>
    have read : le16 (Lib.Memory.ofList element.octets) 8 = some pairwise := by
      rw [← readPairs]
      exact le16_octets element 6
    have enough : ¬ element.data.val.length - 6 < pairwise.toNat * 4 := by
      intro many
      exact unfit ⟨pairwise, readPairs, Or.inl many⟩
    by_cases whole : 8 + pairwise.toNat * 4 ≤ element.data.val.length
    · obtain ⟨skipped, remaining⟩ := skipSuites_of_whole left read (by omega)
      have behind := le16_octets element (8 + pairwise.toNat * 4)
      have moved : 8 + (2 + pairwise.toNat * 4) = 8 + pairwise.toNat * 4 + 2 := by omega
      rw [skipped, Option.bind_some, nextCaps, moved]
      cases readAkm : le16 (Lib.Memory.ofList element.data.val) (8 + pairwise.toNat * 4) with
      | none =>
        rw [skipSuites_of_missing (behind.trans readAkm)]
        rfl
      | some akm =>
        have lacks : ¬ (element.data.val.length - (8 + pairwise.toNat * 4) < akm.toNat * 4 ∨
            10 + pairwise.toNat * 4 + akm.toNat * 4 ≤ element.data.val.length) := by
          intro fits
          exact unfit ⟨pairwise, readPairs, Or.inr ⟨whole, akm, readAkm, fits⟩⟩
        obtain ⟨wrapped, large, cut⟩ := skipSuites_of_cut
          (left - BitVec.ofNat 8 (2 + pairwise.toNat * 4))
          (behind.trans readAkm) (by omega) (by omega)
        rw [cut, Option.bind_some, lastCaps, if_neg (by omega)]
        have outside := le16_octets element
          (10 + pairwise.toNat * 4 + akm.toNat * 4)
        have place : 8 + pairwise.toNat * 4 + 2 + (2 + akm.toNat * 4) =
            10 + pairwise.toNat * 4 + akm.toNat * 4 + 2 := by
          omega
        rw [place, outside]
        exact le16_eq_none (by omega)
    · obtain ⟨wrapped, large, cut⟩ := skipSuites_of_cut left read (by omega) (by omega)
      have outside := le16_octets element (8 + pairwise.toNat * 4)
      have place : 8 + (2 + pairwise.toNat * 4) = 8 + pairwise.toNat * 4 + 2 := by omega
      rw [cut, Option.bind_some, nextCaps, place,
        skipSuites_of_missing (outside.trans (le16_eq_none (by omega)))]
      rfl

/-! ## Frames -/

theorem MpmFrame.kinds (frame : MpmFrame) :
    frame.isMpmOpenFrame = true ∧ frame.isMpmConfirmFrame = false ∧ frame.headerLength = 28 ∨
      frame.isMpmOpenFrame = false ∧ frame.isMpmConfirmFrame = true ∧
        frame.headerLength = 30 := by
  rw [MpmFrame.isMpmOpenFrame, MpmFrame.headerLength, MpmFrame.isMpmConfirmFrame]
  rcases frame.action with initial | answer
  · rw [initial]
    exact Or.inl ⟨rfl, rfl, rfl⟩
  · rw [answer]
    exact Or.inr ⟨rfl, rfl, rfl⟩

theorem getMpmAmpeLen_of_not_private (header : 28 ≤ frame.octets.length) (plain : ¬ Private frame) :
    frame.getMpmAmpeLen = some 0 := by
  obtain ⟨capInfo, read⟩ := exists_le16.mpr header
  rw [MpmFrame.getMpmAmpeLen, read]
  by_cases clear : capInfo &&& 0x10 = 0
  · exact if_pos clear
  · exact absurd ⟨capInfo, read, clear⟩ plain

theorem getMpmAmpeLen_of_confirm (confirm : frame.isMpmConfirmFrame = true)
    (privacy : Private frame) :
    frame.getMpmAmpeLen = some 70 := by
  obtain ⟨capInfo, read, set⟩ := privacy
  rcases frame.kinds with ⟨-, other, -⟩ | ⟨other, -, -⟩
  · rw [other] at confirm
    cases confirm
  · rw [MpmFrame.getMpmAmpeLen, read, Option.bind_some, if_neg set, other, confirm]
    rfl

theorem getMpmAmpeLen_of_open (initial : frame.isMpmOpenFrame = true) (privacy : Private frame) :
    frame.getMpmAmpeLen = frame.openAmpeLen := by
  obtain ⟨capInfo, read, set⟩ := privacy
  rw [MpmFrame.getMpmAmpeLen, read, Option.bind_some, if_neg set, if_pos initial]

theorem openAmpeLen_of_fits (found : frame.rsnIe = some element) (fits : RsnFits element.data.val) :
    frame.openAmpeLen = some 122 ∧ Protects element.data.val ∨
      frame.openAmpeLen = some 98 ∧ ¬ Protects element.data.val := by
  obtain ⟨result, read, told⟩ := getRsnCaps_of_fits fits
  rw [MpmFrame.openAmpeLen, found]
  dsimp only
  rw [read, Option.map_some]
  by_cases both : MpmFrame.bothMfp (result.getD 0) = true
  · refine Or.inl ⟨by rw [if_pos both], ?_⟩
    cases result with
    | none => exact absurd both (by decide)
    | some caps =>
      rcases told.sound caps rfl with zero | field
      · rw [zero] at both
        exact absurd both (by decide)
      · exact ⟨caps, field, both⟩
  · refine Or.inr ⟨by rw [if_neg both], ?_⟩
    rintro ⟨caps, field, set⟩
    rw [told.complete caps field] at both
    exact both set

theorem openAmpeLen_of_not_fits (found : frame.rsnIe = some element)
    (unfit : ¬ RsnFits element.data.val) :
    frame.openAmpeLen = none := by
  rw [MpmFrame.openAmpeLen, found]
  dsimp only
  rw [getRsnCaps_of_not_fits unfit, Option.map_none]

theorem s1gToMpmFrame_of_long {ampeLen : Nat} (inserted : List Element → List (BitVec 8))
    (computed : frame.getMpmAmpeLen = some ampeLen)
    (long : frame.headerLength + ampeLen ≤ frame.octets.length) :
    ∃ octets, frame.s1gToMpmFrame inserted = some octets := by
  have header : frame.copy 0 frame.headerLength =
      some ((frame.octets.drop (0 : Int).toNat).take frame.headerLength) := by
    rw [MpmFrame.copy, if_pos]
    omega
  rw [MpmFrame.s1gToMpmFrame, computed, Option.bind_some, header, Option.bind_some]
  by_cases without : ampeLen = 0
  · exact ⟨_, if_pos without⟩
  · rw [if_neg without, MpmFrame.copy, if_pos (by omega)]
    exact ⟨_, rfl⟩

theorem frameFits_of_inside (inside : Inside inserted frame) :
    FrameFits frame := by
  obtain ⟨ampeLen, computed, long⟩ := inside.computed
  refine ⟨by omega, ?_, ?_, ?_⟩
  · intro confirm privacy
    rw [getMpmAmpeLen_of_confirm confirm privacy] at computed
    cases computed
    rcases frame.kinds with ⟨-, other, -⟩ | ⟨-, -, header⟩
    · rw [other] at confirm
      cases confirm
    · omega
  · intro initial privacy
    rw [getMpmAmpeLen_of_open initial privacy] at computed
    have header : frame.headerLength = 28 := by
      rcases frame.kinds with ⟨-, -, header⟩ | ⟨other, -, -⟩
      · exact header
      · rw [other] at initial
        cases initial
    cases found : frame.rsnIe with
    | none =>
      rw [MpmFrame.openAmpeLen, found] at computed
      cases computed
      omega
    | some element =>
      by_cases fits : RsnFits element.data.val
      · rcases openAmpeLen_of_fits found fits with ⟨length, -⟩ | ⟨length, -⟩
        · rw [length] at computed
          cases computed
          omega
        · rw [length] at computed
          cases computed
          omega
      · rw [openAmpeLen_of_not_fits found fits] at computed
        cases computed
  · intro initial privacy element found
    rw [getMpmAmpeLen_of_open initial privacy] at computed
    have header : frame.headerLength = 28 := by
      rcases frame.kinds with ⟨-, -, header⟩ | ⟨other, -, -⟩
      · exact header
      · rw [other] at initial
        cases initial
    by_cases fits : RsnFits element.data.val
    · refine ⟨fits, ?_⟩
      intro protects
      rcases openAmpeLen_of_fits found fits with ⟨length, -⟩ | ⟨-, without⟩
      · rw [length] at computed
        cases computed
        omega
      · exact absurd protects without
    · rw [openAmpeLen_of_not_fits found fits] at computed
      cases computed

theorem computed_of_frameFits (fits : FrameFits frame) :
    ∃ ampeLen, frame.getMpmAmpeLen = some ampeLen ∧
      frame.headerLength + ampeLen ≤ frame.octets.length := by
  have header := fits.header
  by_cases privacy : Private frame
  · rcases frame.kinds with ⟨initial, -, length⟩ | ⟨-, confirm, length⟩
    · rw [getMpmAmpeLen_of_open initial privacy, length]
      have plain := fits.plain initial privacy
      cases found : frame.rsnIe with
      | none =>
        refine ⟨98, ?_, plain⟩
        rw [MpmFrame.openAmpeLen, found]
      | some element =>
        obtain ⟨within, long⟩ := fits.element initial privacy element found
        rcases openAmpeLen_of_fits found within with ⟨told, protects⟩ | ⟨told, -⟩
        · exact ⟨122, told, long protects⟩
        · exact ⟨98, told, plain⟩
    · rw [length]
      exact ⟨70, getMpmAmpeLen_of_confirm confirm privacy, fits.confirm confirm privacy⟩
  · have reaches : 28 ≤ frame.octets.length := by
      rcases frame.kinds with ⟨-, -, length⟩ | ⟨-, -, length⟩
      · omega
      · omega
    exact ⟨0, getMpmAmpeLen_of_not_private reaches privacy, header⟩

/-- An open frame with privacy that ends behind its capabilities. -/
def cutFrame : MpmFrame where
  octets := List.replicate 24 0 ++ [15, 1, 0x10, 0]
  reaches := by decide
  unprotected := ⟨0, rfl, rfl⟩
  category := rfl
  action := Or.inl rfl

/-- An element with a group suite and nothing behind it. -/
def groupElement : Element := ⟨48, ⟨[1, 0, 0, 0x0F, 0xAC, 4], by decide⟩⟩

end Mesh
end Morse
