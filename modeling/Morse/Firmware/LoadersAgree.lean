import Morse.Firmware.Loaders

/-!
# Agreement of the two loaders

The loaders agree on a file exactly when both find what they look for or neither does, and then
take sections with the same contents and a board configuration of whole words.  A file with a
single board configuration has to have the regulatory domain behind it for that.
-/

namespace Morse
namespace Firmware

open Lib

/-! ## When they agree -/

section Agrees

variable {image : Image} {country : List (BitVec 8)} {setByOtp : Bool}
variable {stray : Nat → BitVec 8} {address : Nat}

theorem length_padded (octets : List (BitVec 8)) :
    (padded octets).length = roundSizeToWord octets.length := by
  have above := le_roundSizeToWord octets.length
  rw [padded, List.length_append, List.length_replicate]
  omega

theorem behind_add (word : base < 2 ^ 32) (small : distance < 2 ^ 32) :
    behind base ((base + distance) % 2 ^ 32) = distance := by
  rw [behind]
  omega

theorem sameImage_iff {config regdom toolConfig toolRegdom base : Nat} (word : address < 2 ^ 32)
    (toolWord : base < 2 ^ 32) (small : roundSizeToWord (image.target config).size < 2 ^ 32)
    (toolSmall : (image.target toolConfig).size < 2 ^ 32) :
    SameImage address
        [(address, padded (image.content config)),
          ((address + roundSizeToWord (image.target config).size) % 2 ^ 32,
            padded (image.content regdom))]
        base
        [(base, image.content toolConfig),
          ((base + (image.target toolConfig).size) % 2 ^ 32, image.content toolRegdom)] ↔
      (image.target toolConfig).size % 4 = 0 ∧
        padded (image.content config) = padded (image.content toolConfig) ∧
        padded (image.content regdom) = padded (image.content toolRegdom) := by
  have start : behind address address = behind base base := by
    rw [behind, behind]
    omega
  have rounded : padded (image.content config) = padded (image.content toolConfig) →
      roundSizeToWord (image.target config).size =
        roundSizeToWord (image.target toolConfig).size := by
    intro same
    have lengths := congrArg List.length same
    rwa [length_padded, length_padded, Image.content, Image.content, length_segment,
      length_segment] at lengths
  simp only [SameImage, List.forall₂_cons, behind_add word small, behind_add toolWord toolSmall,
    start, true_and]
  constructor
  · rintro ⟨sameConfig, ⟨next, sameRegdom⟩, -⟩
    refine ⟨?_, sameConfig, sameRegdom⟩
    rw [← next, roundSizeToWord]
    omega
  · rintro ⟨whole, sameConfig, sameRegdom⟩
    refine ⟨sameConfig, ⟨?_, sameRegdom⟩, List.Forall₂.nil⟩
    rw [rounded sameConfig, roundSizeToWord]
    omega

/-- On a well-formed file that has the country, within the limits, the two loaders agree exactly
when the file is alike for them. -/
theorem loadersAgree_iff (wellFormed : WellFormed image) (present : Present image country)
    (limits : WithinLimits image country) (word : address < 2 ^ 32) :
    LoadersAgree image country setByOtp stray address ↔ Alike image country := by
  obtain ⟨toolConfig, toolRegdom, kept⟩ := exists_kept wellFormed present
  have toolSmall : (image.target toolConfig).size < 2 ^ 32 := by
    have inside := kept.config_inside
    have limit := image.size_lt
    omega
  have toolWord : sectionAddr image.memory (fileHeader image.memory) toolConfig < 2 ^ 32 :=
    number_lt image.memory 4 _
  by_cases ordered : ∃ config regdom, image.Ordered country config regdom
  · obtain ⟨config, regdom, order⟩ := ordered
    have fits := limits.database config regdom order
    obtain ⟨accepted, writes⟩ := @bcfLoad_accepts image country setByOtp address wellFormed config
      regdom order fits
    by_cases filled : image.Filled country toolConfig toolRegdom
    · have loaded := @loadElf_accepts image country stray wellFormed.magic toolConfig toolRegdom
        kept filled limits.flash
      have found := findSections_eq filled.config_eq filled.regdom_eq
      have same := @sameImage_iff image address config regdom toolConfig toolRegdom _ word toolWord
        (by omega) toolSmall
      constructor
      · intro agree
        have images := agree.sameImage accepted (congrArg Recorded.value loaded)
        rw [writes, loaded, found] at images
        refine ⟨iff_of_true ⟨config, regdom, order⟩ ⟨toolConfig, toolRegdom, filled⟩, ?_⟩
        intro config' regdom' toolConfig' toolRegdom' order' filled'
        obtain ⟨rfl, rfl⟩ := filled'.kept kept
        obtain rfl := Option.some.inj (order.1.symm.trans order'.1)
        obtain rfl := Option.some.inj (order.2.symm.trans order'.2)
        exact same.mp images
      · intro alike
        refine ⟨iff_of_true accepted (congrArg Recorded.value loaded), fun _ _ => ?_⟩
        rw [writes, loaded, found]
        exact same.mpr (alike.same config regdom toolConfig toolRegdom order filled)
    · have refused := @loadElf_refuses image country stray wellFormed toolConfig toolRegdom kept
        filled
      refine iff_of_false (fun agree => refused (agree.accept.mp accepted)) fun alike => ?_
      obtain ⟨_, _, other⟩ := alike.found.mp ⟨config, regdom, order⟩
      obtain ⟨rfl, rfl⟩ := other.kept kept
      exact filled other
  · have refused := @bcfLoad_refuses image country setByOtp address wellFormed.magic ordered
    have nonzero : (bcfLoad image (willing setByOtp country) address).value ≠ 0 := by
      rw [refused]
      decide
    by_cases filled : image.Filled country toolConfig toolRegdom
    · have loaded := @loadElf_accepts image country stray wellFormed.magic toolConfig toolRegdom
        kept filled limits.flash
      exact iff_of_false
        (fun agree => nonzero (agree.accept.mpr (congrArg Recorded.value loaded)))
        fun alike => ordered (alike.found.mpr ⟨toolConfig, toolRegdom, filled⟩)
    · have toolRefused := @loadElf_refuses image country stray wellFormed toolConfig toolRegdom
        kept filled
      refine iff_of_true ⟨iff_of_false nonzero toolRefused, fun accepted => absurd accepted nonzero⟩
        ⟨iff_of_false ordered ?_, fun config regdom _ _ order => absurd ⟨config, regdom, order⟩
          ordered⟩
      rintro ⟨_, _, other⟩
      obtain ⟨rfl, rfl⟩ := other.kept kept
      exact filled other

end Agrees

/-! ## A file -/

/-- A section header. -/
def sectionOctets (name addr offset size : Nat) : List (BitVec 8) :=
  natOctets 4 name ++ natOctets 8 0 ++ natOctets 4 addr ++ natOctets 4 offset ++
    natOctets 4 size ++ natOctets 16 0

/-- A board configuration of so many octets, with a regulatory domain for `AU`. -/
def boardFile (configSize : Nat) : List (BitVec 8) :=
  [0x7f, 0x45, 0x4c, 0x46, 1, 1] ++ natOctets 26 0 ++ natOctets 4 88 ++ natOctets 10 0 ++
    natOctets 2 40 ++ natOctets 2 3 ++ natOctets 2 0 ++
    ([0] ++ boardConfigName ++ regPrefix ++ [0x41, 0x55, 0]) ++
    [1, 2, 3, 4, 5, 6, 7, 8, 9, 0] ++
    sectionOctets 0 0 52 26 ++ sectionOctets 1 0x80100000 78 configSize ++
    sectionOctets 15 0 83 4

/-- The file in memory. -/
def boardImage (configSize : Nat) : Image where
  memory index := (boardFile configSize).getD index 0
  size := 208
  size_lt := by decide

/-- `AU`. -/
def australia : List (BitVec 8) := [0x41, 0x55]

theorem wellFormed_boardImage (sizes : size = 4 ∨ size = 5) :
    WellFormed (boardImage size) where
  magic := by rcases sizes with rfl | rfl <;> decide +kernel
  tables := by
    refine ⟨show 52 ≤ 208 by decide, ?_, ?_⟩
    · rcases sizes with rfl | rfl <;> decide +kernel
    · rintro index (below | rfl)
      · revert index
        rcases sizes with rfl | rfl <;> decide +kernel
      · rcases sizes with rfl | rfl <;> decide +kernel
  names := by
    have ends : ∀ index, index < (fileHeader (boardImage size).memory).shnum →
        ∃ length, length < 16 ∧ (boardImage size).strings +
          ((boardImage size).target index).name + length < (boardImage size).size ∧
          (boardImage size).memory ((boardImage size).strings +
            ((boardImage size).target index).name + length) = 0 := by
      rcases sizes with rfl | rfl <;> decide +kernel
    intro index below
    obtain ⟨length, -, ended⟩ := ends index below
    exact ⟨length, ended⟩
  inside := by rcases sizes with rfl | rfl <;> decide +kernel
  configured := ⟨1, by rcases sizes with rfl | rfl <;> decide +kernel⟩

theorem present_boardImage (sizes : size = 4 ∨ size = 5) :
    Present (boardImage size) australia where
  letters := by decide
  listed := ⟨2, by rcases sizes with rfl | rfl <;> decide +kernel⟩

theorem ordered_boardImage (sizes : size = 4 ∨ size = 5) :
    (boardImage size).Ordered australia 1 2 := by
  rcases sizes with rfl | rfl
  · exact ⟨by decide +kernel, by decide +kernel⟩
  · exact ⟨by decide +kernel, by decide +kernel⟩

theorem filled_boardImage (sizes : size = 4 ∨ size = 5) :
    (boardImage size).Filled australia 1 2 := by
  rcases sizes with rfl | rfl
  · exact ⟨by decide +kernel, by decide +kernel, by decide +kernel, by decide +kernel,
      by decide +kernel⟩
  · exact ⟨by decide +kernel, by decide +kernel, by decide +kernel, by decide +kernel,
      by decide +kernel⟩

theorem withinLimits_boardImage (sizes : size = 4 ∨ size = 5) :
    WithinLimits (boardImage size) australia where
  database := by
    intro config regdom order
    have ordered := ordered_boardImage sizes
    obtain rfl := Option.some.inj (ordered.1.symm.trans order.1)
    obtain rfl := Option.some.inj (ordered.2.symm.trans order.2)
    rcases sizes with rfl | rfl <;> decide +kernel
  flash := by
    rcases sizes with rfl | rfl <;> decide +kernel

theorem loadersAgree_whole :
    LoadersAgree (boardImage 4) australia false (fun _ => 0) 0x80100000 := by
  refine (loadersAgree_iff (wellFormed_boardImage (Or.inl rfl)) (present_boardImage (Or.inl rfl))
    (withinLimits_boardImage (Or.inl rfl)) (by decide)).mpr ?_
  have ordered := ordered_boardImage (Or.inl (rfl : 4 = 4))
  have filled := filled_boardImage (Or.inl (rfl : 4 = 4))
  refine ⟨iff_of_true ⟨1, 2, ordered⟩ ⟨1, 2, filled⟩, ?_⟩
  intro config regdom toolConfig toolRegdom order fill
  obtain rfl := Option.some.inj (ordered.1.symm.trans order.1)
  obtain rfl := Option.some.inj (ordered.2.symm.trans order.2)
  obtain rfl := Option.some.inj (filled.config_eq.symm.trans fill.config_eq)
  obtain rfl := Option.some.inj (filled.regdom_eq.symm.trans fill.regdom_eq)
  exact ⟨by decide +kernel, rfl, rfl⟩

/-- Behind a board configuration of five octets the driver leaves three octets that the host tool
does not. -/
theorem not_loadersAgree_odd :
    WellFormed (boardImage 5) ∧ Present (boardImage 5) australia ∧
      WithinLimits (boardImage 5) australia ∧
      ¬ LoadersAgree (boardImage 5) australia false (fun _ => 0) 0x80100000 := by
  have odd : 5 = 4 ∨ 5 = 5 := Or.inr rfl
  have wellFormed := wellFormed_boardImage odd
  have limits := withinLimits_boardImage odd
  have ordered := ordered_boardImage odd
  have filled := filled_boardImage odd
  have present := present_boardImage odd
  obtain ⟨config, regdom, kept⟩ := exists_kept wellFormed present
  obtain ⟨rfl, rfl⟩ := filled.kept kept
  obtain ⟨accepted, writes⟩ := @bcfLoad_accepts _ _ false 0x80100000 wellFormed 1 2 ordered
    (limits.database 1 2 ordered)
  have loaded := @loadElf_accepts _ _ (fun _ => 0) wellFormed.magic 1 2 kept filled limits.flash
  refine ⟨wellFormed, present, limits, fun agree => ?_⟩
  have images := agree.sameImage accepted (congrArg Recorded.value loaded)
  rw [writes, loaded] at images
  have whole := ((sameImage_iff (by decide) (number_lt _ 4 _) (by decide +kernel)
    (by decide +kernel)).mp images).1
  exact absurd whole (by decide +kernel)

end Firmware
end Morse
