import Morse.Lib.SetBits
import Morse.Lib.Transition

/-!
# Association identifiers in use

An access point keeps the identifiers of its stations in a bitmap, their number and
the largest of them beside it.  The stations climb and descend through four states;
the bitmap is changed on one step up and on another step down.
-/

namespace Morse
namespace Ap

open Lib

universe u

/-! ## The bookkeeping -/

/-- `AID_LIMIT`. -/
def aidLimit : Nat := 2007

/-- `MORSE_AP_AID_BITMAP_SIZE`. -/
def aidBitmapSize : Nat := aidLimit + 1

/-- An association identifier. -/
abbrev Aid := Fin aidBitmapSize

/-- The identifiers of `struct morse_ap`. -/
structure MorseAp where
  numStas : BitVec 16
  largestAid : BitVec 16
  aidBitmap : BitVec aidBitmapSize
  deriving DecidableEq, Repr

/-- `find_last_bit`, which is the size of a bitmap without a bit. -/
def findLastBit {w : Nat} (bitmap : BitVec w) : Nat := (lastBelow bitmap.getLsbD w).getD w

/-- `morse_aid_bitmap_update`. -/
def aidBitmapUpdate (ap : MorseAp) : MorseAp :=
  let largestAid := BitVec.ofNat 16 (findLastBit ap.aidBitmap)
  { ap with largestAid := if largestAid = BitVec.ofNat 16 aidBitmapSize then 0 else largestAid }

/-- `enum ieee80211_sta_state`. -/
inductive StaState
  | notExist
  | none
  | auth
  | assoc
  | authorized
  deriving DecidableEq, Repr

/-- The value of a state. -/
def StaState.rank : StaState → Nat
  | .notExist => 0
  | .none => 1
  | .auth => 2
  | .assoc => 3
  | .authorized => 4

/-- The part of `morse_mac_ops_sta_state` for a station that has associated. -/
def associated (ap : MorseAp) (aid : Aid) : MorseAp :=
  aidBitmapUpdate
    (if ap.aidBitmap.getLsbD aid then ap
    else
      { ap with
        aidBitmap := ap.aidBitmap ||| (BitVec.ofNat aidBitmapSize 1 <<< aid.val)
        numStas := ap.numStas + 1 })

/-- The part of `morse_mac_ops_sta_state` for a station that has disassociated. -/
def disassociated (ap : MorseAp) (aid : Aid) : MorseAp :=
  aidBitmapUpdate
    (if ap.aidBitmap.getLsbD aid then
      { ap with
        aidBitmap := ap.aidBitmap &&& ~~~(BitVec.ofNat aidBitmapSize 1 <<< aid.val)
        numStas := ap.numStas - 1 }
    else ap)

/-- `morse_mac_ops_sta_state` on an access point or a mesh interface, and whether it
succeeds.  The firmware may refuse the state; a step down does not fail. -/
def opsStaState (ap : MorseAp) (aid : Aid) (oldState newState : StaState) (accepted : Bool) :
    MorseAp × Bool :=
  if (oldState = .notExist ∧ newState = .none) ∨ (oldState = .none ∧ newState = .notExist) then
    (ap, true)
  else
    let ap :=
      if newState.rank > oldState.rank ∧ newState = .assoc then associated ap aid else ap
    let ap :=
      if newState.rank < oldState.rank ∧ newState = .none then disassociated ap aid else ap
    (ap, accepted || decide (newState.rank < oldState.rank))

/-! ## Stations -/

/-- A station of the interface: its state, its identifier, and whether it has
associated and not gone back since. -/
structure Station where
  state : StaState
  aid : Aid
  hasAssociated : Bool
  deriving DecidableEq, Repr

/-- An access point and its stations. -/
structure Network (Address : Type u) where
  ap : MorseAp
  station : Address → Station

/-- What is done to a station. -/
inductive StaAction (Address : Type u)
  /-- The station goes one state up or down. -/
  | move (address : Address) (newState : StaState) (accepted : Bool)
  /-- The station is given an identifier. -/
  | assign (address : Address) (aid : Aid)

section Steps

variable {Address : Type u} [DecidableEq Address]

/-- An interface without stations. -/
def Network.initial : Network Address where
  ap := ⟨0, 0, 0⟩
  station := fun _ => ⟨.notExist, ⟨0, Nat.succ_pos _⟩, false⟩

/-- A station that went to a state. -/
def Station.moved (station : Station) (newState : StaState) : Station :=
  { station with
    state := newState
    hasAssociated :=
      match newState with
      | .assoc => true
      | .none => false
      | _ => station.hasAssociated }

/-- One step.  A station whose step up is refused stays in its state. -/
def staStep (network : Network Address) : StaAction Address → Option (Network Address)
  | .move address newState accepted =>
    let station := network.station address
    if newState.rank = station.state.rank + 1 ∨ station.state.rank = newState.rank + 1 then
      let result := opsStaState network.ap station.aid station.state newState accepted
      some
        { ap := result.1
          station :=
            if result.2 then
              Function.update network.station address (station.moved newState)
            else network.station }
    else none
  | .assign address aid =>
    if (network.station address).state = .notExist then none
    else
      some { network with
        station := Function.update network.station address
          { network.station address with aid := aid } }

end Steps

/-! ## Number and largest -/

/-- The number of identifiers and the largest are those of the bitmap. -/
structure Counted (ap : MorseAp) : Prop where
  number : ap.numStas.toNat = popCount ap.aidBitmap
  highest : ∀ bit, ap.aidBitmap.getLsbD bit = true → bit ≤ ap.largestAid.toNat
  largest : ap.aidBitmap = 0 ∧ ap.largestAid = 0 ∨
    ap.aidBitmap.getLsbD ap.largestAid.toNat = true

section Counting

variable {ap : MorseAp}

theorem counted_aidBitmapUpdate (number : ap.numStas.toNat = popCount ap.aidBitmap) :
    Counted (aidBitmapUpdate ap) := by
  have sizeOf : (BitVec.ofNat 16 aidBitmapSize).toNat = 2008 := rfl
  cases found : lastBelow ap.aidBitmap.getLsbD aidBitmapSize with
  | none =>
    have size : findLastBit ap.aidBitmap = aidBitmapSize := by
      rw [findLastBit, found]
      rfl
    have empty : ap.aidBitmap = 0 :=
      (eq_zero_iff_getLsbD _).mpr (lastBelow_eq_none_iff.mp found)
    unfold aidBitmapUpdate
    rw [size]
    refine ⟨number, ?_, .inl ⟨empty, rfl⟩⟩
    intro bit set
    rw [empty] at set
    cases set.symm.trans BitVec.getLsbD_zero
  | some last =>
    obtain ⟨inside, set, highest⟩ := lastBelow_eq_some found
    have last_eq : findLastBit ap.aidBitmap = last := by
      rw [findLastBit, found]
      rfl
    have below : last < 2008 := inside
    have value : (BitVec.ofNat 16 last).toNat = last := by
      rw [BitVec.toNat_ofNat]
      omega
    have other : BitVec.ofNat 16 last ≠ BitVec.ofNat 16 aidBitmapSize := by
      intro same
      have equal := congrArg BitVec.toNat same
      omega
    unfold aidBitmapUpdate
    rw [last_eq]
    dsimp only
    rw [if_neg other]
    refine ⟨number, ?_, .inr ?_⟩
    · intro bit holds
      rw [value]
      refine highest bit ?_ holds
      by_contra outside
      rw [BitVec.getLsbD_of_ge _ _ (Nat.le_of_not_lt outside)] at holds
      cases holds
    · rw [value]
      exact set

theorem Counted.associated (counted : Counted ap) (aid : Aid) : Counted (associated ap aid) := by
  refine counted_aidBitmapUpdate ?_
  split
  · exact counted.number
  · next clear =>
      have more := popCount_or aid.isLt (Bool.not_eq_true _ ▸ clear)
      have most : popCount ap.aidBitmap + 1 ≤ aidBitmapSize := more ▸ popCount_le _
      have small : popCount ap.aidBitmap + 1 < 2 ^ 16 := Nat.lt_of_le_of_lt most (by decide)
      rw [more, BitVec.toNat_add, counted.number]
      exact Nat.mod_eq_of_lt small

theorem Counted.disassociated (counted : Counted ap) (aid : Aid) :
    Counted (disassociated ap aid) := by
  refine counted_aidBitmapUpdate ?_
  split
  · next set =>
      have fewer := popCount_and_not aid.isLt set
      have one : (1 : BitVec 16) ≤ ap.numStas := by
        rw [BitVec.le_def, counted.number, ← fewer]
        exact Nat.le_add_left 1 _
      rw [BitVec.toNat_sub_of_le one, counted.number]
      exact (Nat.eq_sub_of_add_eq fewer).symm
  · exact counted.number

end Counting

/-! ## One step -/

section Moves

variable {ap : MorseAp} {aid : Aid} {oldState newState : StaState} {accepted : Bool}

theorem opsStaState_cases
    (adjacent : newState.rank = oldState.rank + 1 ∨ oldState.rank = newState.rank + 1) :
    (oldState = .auth ∧ newState = .assoc ∧
        opsStaState ap aid oldState newState accepted = (associated ap aid, accepted)) ∨
      (oldState = .auth ∧ newState = .none ∧
        opsStaState ap aid oldState newState accepted = (disassociated ap aid, true)) ∨
      ((newState = .none → oldState = .notExist) ∧
        (opsStaState ap aid oldState newState accepted).1 = ap) := by
  revert adjacent
  cases oldState <;> cases newState <;> simp [StaState.rank, opsStaState]

theorem getLsbD_associated (bit : Aid) :
    (associated ap aid).aidBitmap.getLsbD bit = true ↔
      ap.aidBitmap.getLsbD bit = true ∨ bit = aid := by
  unfold associated aidBitmapUpdate
  split
  · next set =>
      refine ⟨.inl, ?_⟩
      rintro (holds | rfl)
      · exact holds
      · exact set
  · rw [BitVec.getLsbD_or, getLsbD_one_shiftLeft bit.isLt, Bool.or_eq_true, decide_eq_true_eq,
      Fin.val_inj]

theorem getLsbD_disassociated (bit : Aid) :
    (disassociated ap aid).aidBitmap.getLsbD bit = true ↔
      ap.aidBitmap.getLsbD bit = true ∧ bit ≠ aid := by
  unfold disassociated aidBitmapUpdate
  split
  · rw [BitVec.getLsbD_and, BitVec.getLsbD_not, getLsbD_one_shiftLeft bit.isLt]
    simp [Fin.val_inj]
  · next clear =>
      refine ⟨fun holds => ⟨holds, ?_⟩, And.left⟩
      rintro rfl
      exact clear holds

end Moves

/-! ## Whole runs -/

section Runs

variable {Address : Type u} [DecidableEq Address] {network next : Network Address}

/-- A station that has associated and not gone back has an identifier. -/
def Network.HasAid (network : Network Address) (address : Address) (aid : Aid) : Prop :=
  (network.station address).hasAssociated = true ∧ (network.station address).aid = aid

/-- Every bit is the identifier of a station that has associated and not gone back. -/
structure InUse (network : Network Address) : Prop where
  owned : ∀ aid : Aid, network.ap.aidBitmap.getLsbD aid = true →
    ∃ address, network.HasAid address aid
  climbed : ∀ address, (network.station address).hasAssociated = true →
    2 ≤ (network.station address).state.rank

/-- A station is refused its association only where some station has its identifier;
and a station whose identifier is in use is given another one only where some other
station has the former. -/
def KeepsAids (network : Network Address) : StaAction Address → Prop
  | .move address newState accepted =>
    (network.station address).state = .auth → newState = .assoc → accepted = false →
      ∃ other, network.HasAid other (network.station address).aid
  | .assign address aid =>
    network.ap.aidBitmap.getLsbD (network.station address).aid = true →
      (network.station address).hasAssociated = true →
        aid ≠ (network.station address).aid →
          ∃ other, other ≠ address ∧ network.HasAid other (network.station address).aid

/-- The number of stations is that of the identifiers in use, the largest is kept, and
each identifier in use is that of a station. -/
structure BookKept (network : Network Address) : Prop where
  counted : Counted network.ap
  inUse : InUse network

variable {action : StaAction Address}

theorem counted_staStep (counted : Counted network.ap)
    (taken : staStep network action = some next) :
    Counted next.ap := by
  cases action with
  | move address newState accepted =>
    simp only [staStep] at taken
    split at taken
    · next adjacent =>
        cases taken
        rcases @opsStaState_cases network.ap (network.station address).aid _ _ accepted adjacent
          with ⟨-, -, result⟩ | ⟨-, -, result⟩ | ⟨-, result⟩
        · rw [result]
          exact counted.associated _
        · rw [result]
          exact counted.disassociated _
        · rw [result]
          exact counted
    · cases taken
  | assign address aid =>
    simp only [staStep] at taken
    split at taken
    · cases taken
    · cases taken
      exact counted

theorem Network.HasAid.of_other {ap : MorseAp} (hasAid : network.HasAid other aid)
    (apart : other ≠ address) :
    Network.HasAid ⟨ap, Function.update network.station address changed⟩ other aid := by
  unfold Network.HasAid
  dsimp only
  rw [Function.update_of_ne apart]
  exact hasAid

theorem Network.HasAid.of_moved {ap : MorseAp} (hasAid : network.HasAid other aid)
    (onward : newState ≠ .none) :
    Network.HasAid ⟨ap, Function.update network.station address
      ((network.station address).moved newState)⟩ other aid := by
  by_cases same : other = address
  · subst same
    unfold Network.HasAid Station.moved
    dsimp only
    rw [Function.update_self]
    refine ⟨?_, hasAid.2⟩
    cases newState with
    | none => exact absurd rfl onward
    | assoc => rfl
    | notExist => exact hasAid.1
    | auth => exact hasAid.1
    | authorized => exact hasAid.1
  · exact hasAid.of_other same

theorem climbed_move
    (climbed : ∀ address, (network.station address).hasAssociated = true →
      2 ≤ (network.station address).state.rank)
    (adjacent : newState.rank = (network.station address).state.rank + 1 ∨
      (network.station address).state.rank = newState.rank + 1)
    (other : Address)
    (hasAssociated : (Function.update network.station address
      ((network.station address).moved newState) other).hasAssociated = true) :
    2 ≤ (Function.update network.station address
      ((network.station address).moved newState) other).state.rank := by
  by_cases same : other = address
  · subst same
    rw [Function.update_self] at hasAssociated ⊢
    have before := climbed other
    show 2 ≤ newState.rank
    cases newState with
    | none => cases hasAssociated
    | assoc => decide
    | notExist =>
      have climbed := before hasAssociated
      rcases adjacent with up | down
      · cases up
      · rw [down] at climbed
        exact absurd climbed (by decide)
    | auth => decide
    | authorized => decide
  · rw [Function.update_of_ne same] at hasAssociated ⊢
    exact climbed other hasAssociated

theorem inUse_staStep (inUse : InUse network) (keeps : KeepsAids network action)
    (taken : staStep network action = some next) :
    InUse next := by
  cases action with
  | move address newState accepted =>
    simp only [staStep] at taken
    split at taken
    · next adjacent =>
        cases taken
        refine ⟨?_, ?_⟩
        · intro aid set
          rcases @opsStaState_cases network.ap (network.station address).aid _ _ accepted adjacent
            with ⟨old, new, result⟩ | ⟨old, new, result⟩ | ⟨only, result⟩
          · rw [result] at set ⊢
            rw [getLsbD_associated] at set
            cases accepted with
            | false =>
              rcases set with set | rfl
              · exact inUse.owned aid set
              · exact keeps old new rfl
            | true =>
              rcases set with set | rfl
              · obtain ⟨other, hasAid⟩ := inUse.owned aid set
                exact ⟨other, hasAid.of_moved (by rw [new]; decide)⟩
              · refine ⟨address, ?_⟩
                unfold Network.HasAid Station.moved
                dsimp only
                rw [if_pos rfl, Function.update_self, new]
                exact ⟨rfl, rfl⟩
          · rw [result] at set ⊢
            rw [getLsbD_disassociated] at set
            obtain ⟨other, hasAid⟩ := inUse.owned aid set.1
            have apart : other ≠ address := by
              rintro rfl
              exact set.2 hasAid.2.symm
            exact ⟨other, hasAid.of_other apart⟩
          · rw [result] at set
            obtain ⟨other, hasAid⟩ := inUse.owned aid set
            refine ⟨other, ?_⟩
            split
            · by_cases none : newState = .none
              · have apart : other ≠ address := by
                  rintro rfl
                  have climbed := inUse.climbed other hasAid.1
                  rw [only none] at climbed
                  exact absurd climbed (by decide)
                exact hasAid.of_other apart
              · exact hasAid.of_moved none
            · exact hasAid
        · intro other hasAssociated
          split at hasAssociated
          · next done =>
              rw [if_pos done]
              exact climbed_move inUse.climbed adjacent other hasAssociated
          · next refused =>
              rw [if_neg refused]
              exact inUse.climbed other hasAssociated
    · cases taken
  | assign address aid =>
    simp only [staStep] at taken
    split at taken
    · cases taken
    · cases taken
      refine ⟨?_, ?_⟩
      · intro bit set
        obtain ⟨owner, hasAid⟩ := inUse.owned bit set
        by_cases same : owner = address
        · subst same
          by_cases unchanged : aid = (network.station owner).aid
          · refine ⟨owner, ?_⟩
            unfold Network.HasAid
            dsimp only
            rw [Function.update_self, unchanged]
            exact hasAid
          · have former : network.ap.aidBitmap.getLsbD (network.station owner).aid = true := by
              rw [hasAid.2]
              exact set
            obtain ⟨other, apart, others⟩ := keeps former hasAid.1 unchanged
            rw [hasAid.2] at others
            exact ⟨other, others.of_other apart⟩
        · exact ⟨owner, hasAid.of_other same⟩
      · intro other hasAssociated
        by_cases same : other = address
        · subst same
          dsimp only at hasAssociated ⊢
          rw [Function.update_self] at hasAssociated ⊢
          exact inUse.climbed other hasAssociated
        · dsimp only at hasAssociated ⊢
          rw [Function.update_of_ne same] at hasAssociated ⊢
          exact inUse.climbed other hasAssociated

omit [DecidableEq Address] in
theorem bookKept_initial : BookKept (Network.initial : Network Address) := by
  have clear : ∀ bit, (0 : BitVec aidBitmapSize).getLsbD bit ≠ true := by
    intro bit set
    cases set.symm.trans BitVec.getLsbD_zero
  exact
    { counted :=
        { number := popCount_zero.symm
          highest := fun bit set => absurd set (clear bit)
          largest := .inl ⟨rfl, rfl⟩ }
      inUse := ⟨fun bit set => absurd set (clear bit), by rintro _ ⟨⟩⟩ }

/-- In every state reached by steps that keep identifiers, the books are kept. -/
theorem bookKept_of_reaches
    (reaches : Reaches staStep KeepsAids (Network.initial : Network Address) network) :
    BookKept network := by
  refine @Reaches.invariant _ _ staStep KeepsAids (Network.initial : Network Address) network
    BookKept bookKept_initial ?_ reaches
  intro before action after kept keeps taken
  exact ⟨counted_staStep kept.counted taken, inUse_staStep kept.inUse keeps taken⟩

end Runs

/-- A station that associates, and associates again without going all the way back. -/
def associatesTwice (second : Aid) : List (StaAction Unit) :=
  [.move () .none true, .assign () ⟨1, by decide⟩, .move () .auth true, .move () .assoc true,
    .move () .auth true, .assign () second, .move () .assoc true]

theorem bookKept_associatesTwice :
    ∃ network, Reaches staStep KeepsAids (Network.initial : Network Unit) network ∧
      network.ap.aidBitmap.getLsbD 1 = true ∧ BookKept network := by
  have reaches := @Reaches.of_run _ _ staStep KeepsAids (Network.initial : Network Unit) _
    (associatesTwice ⟨1, by decide⟩) ⟨by rintro ⟨⟩, fun _ => by rintro ⟨⟩, fun _ => by rintro ⟨⟩,
      fun _ _ => by rintro ⟨⟩, fun _ => by rintro ⟨⟩, fun _ _ different => absurd rfl different,
      fun _ _ => by rintro ⟨⟩, trivial⟩ rfl
  refine ⟨_, reaches, ?_, bookKept_of_reaches reaches⟩
  exact (getLsbD_associated ⟨1, by decide⟩).mpr (.inr rfl)

/-- With another identifier, the first stays in use. -/
theorem not_bookKept_associatesTwice :
    ¬ ∀ network, Reaches staStep (fun _ _ => True) (Network.initial : Network Unit) network →
      BookKept network := by
  intro claim
  have kept := claim _ (@Reaches.of_run _ _ staStep (fun _ _ => True)
    (Network.initial : Network Unit) _ (associatesTwice ⟨2, by decide⟩) (guarded_true _ _) rfl)
  obtain ⟨address, -, aid⟩ := kept.inUse.owned ⟨1, by decide⟩
    ((getLsbD_associated _).mpr (.inl ((getLsbD_associated _).mpr (.inr rfl))))
  have same : (⟨2, by decide⟩ : Aid) = ⟨1, by decide⟩ := aid
  cases congrArg Fin.val same

end Ap
end Morse
