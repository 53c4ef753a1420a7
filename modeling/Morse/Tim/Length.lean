import Morse.Tim.Requests
import Mathlib.Data.List.TakeWhile

/-!
# The length of a decoded TIM

The decoder keeps the largest octet number in an octet of its own.  A single AID that is refused
is entered there as `-EINVAL`, and a refusal in a bitmap returns the length of a TIM whose map
has one octet, whatever was stored before.
-/

namespace Morse
namespace Tim

open Lib

/-! ## What becomes of the requests -/

/-- What became of some requests: the AIDs that were stored, in their order, whether a single
AID was refused, and whether a refusal was the end. -/
structure Account where
  stored : List Nat
  refusedSingle : Bool
  stopped : Bool
  deriving DecidableEq, Repr

/-- Nothing was asked for. -/
def Account.blank : Account := ⟨[], false, false⟩

/-- The AID can be stored after others: it is within the limit, and not before the octet that the
first of them put the start of the map to. -/
def Admits (stored : List Nat) (aid : Nat) : Prop :=
  aid ≤ aidLimit ∧ originOf (stored ++ [aid]) ≤ aid / 8

instance (stored : List Nat) (aid : Nat) : Decidable (Admits stored aid) := by
  unfold Admits
  infer_instance

/-- What becomes of requests. -/
def account : List Request → Account → Account
  | [], before => before
  | ⟨asking, aid⟩ :: rest, before =>
    if Admits before.stored aid then
      account rest { before with stored := before.stored ++ [aid] }
    else
      match asking with
      | .bitmap => { before with stopped := true }
      | .single => account rest { before with refusedSingle := true }
      | .ade => account rest before

/-- The largest octet number of some AIDs. -/
def highest (stored : List Nat) : Nat :=
  (stored.map fun aid => aid / 8 - originOf stored).foldl max 0

/-- The largest octet number that the decoder knows of. -/
def Account.timLen (after : Account) : Nat :=
  max (highest after.stored) (if after.refusedSingle then einvalOctet else 0)

theorem highest_append (stored : List Nat) (aid : Nat) :
    highest (stored ++ [aid]) =
      max (highest stored) (aid / 8 - originOf (stored ++ [aid])) := by
  cases stored with
  | nil => rfl
  | cons first rest =>
    rw [highest, List.map_append,
      List.foldl_append]
    rfl

theorem le_foldl_max {numbers : List Nat} (bound : number ≤ start ∨ number ∈ numbers) :
    number ≤ numbers.foldl max start := by
  induction numbers generalizing start with
  | nil => simpa using bound
  | cons first rest ih =>
    apply ih
    rw [List.mem_cons] at bound
    rcases bound with before | same | later
    · exact Or.inl (by omega)
    · exact Or.inl (by omega)
    · exact Or.inr later

theorem foldl_max_mem (numbers : List Nat) (start : Nat) :
    numbers.foldl max start = start ∨ numbers.foldl max start ∈ numbers := by
  induction numbers generalizing start with
  | nil => exact Or.inl rfl
  | cons first rest ih =>
    rw [List.foldl_cons, List.mem_cons]
    rcases ih (max start first) with same | found
    · omega
    · exact Or.inr (Or.inr found)

theorem le_highest (found : aid ∈ stored) :
    aid / 8 - originOf stored ≤ highest stored :=
  le_foldl_max (Or.inr (List.mem_map.mpr ⟨aid, found, rfl⟩))

theorem highest_reached (stored : List Nat) :
    highest stored = 0 ∨ ∃ aid ∈ stored, aid / 8 - originOf stored = highest stored := by
  rcases foldl_max_mem (stored.map fun aid => aid / 8 - originOf stored) 0 with none | found
  · exact Or.inl none
  · exact Or.inr (List.mem_map.mp found)

/-! ## The decoder accounts for the requests -/

theorem Asking.reach_eq_max {asking : Asking} (looks : asking ≠ .ade) (timLen octetNumber : Nat) :
    asking.reach timLen octetNumber = max timLen octetNumber := by
  cases asking with
  | ade => exact absurd rfl looks
  | bitmap =>
    rw [Asking.reach]
    split
    · omega
    · omega
  | single =>
    rw [Asking.reach]
    split
    · omega
    · omega

section Serving

variable {tim : TimIe} {stored : List Nat}

theorem TimIe.Lists.storeAid (lists : tim.Lists (highest stored) stored)
    (admits : Admits stored aid) :
    ∃ tim', storeAidIntoTim tim aid = some (tim', aid / 8 - originOf (stored ++ [aid])) ∧
      tim'.Lists (highest (stored ++ [aid])) (stored ++ [aid]) := by
  have blank : tim.Fresh → tim.bitmapOffset = 0 := by
    intro fresh
    rw [lists.bitmapOffset_eq, lists.fresh_iff.mp fresh]
    rfl
  have origin := lists.originFor_eq aid
  obtain ⟨tim', octetNumber, stores, after⟩ := lists.store admits.1 admits.2
  obtain ⟨other, same, -⟩ := storeAidIntoTim_accepts blank ⟨admits.1, by
    rw [origin]
    exact admits.2⟩
  rw [stores, origin] at same
  obtain ⟨rfl, rfl⟩ := Prod.mk.inj (Option.some.inj same)
  refine ⟨tim', stores, ?_⟩
  have reach : highest (stored ++ [aid]) =
      if highest stored < aid / 8 - originOf (stored ++ [aid]) then
        aid / 8 - originOf (stored ++ [aid])
      else highest stored := by
    rw [highest_append]
    split
    · omega
    · omega
  rwa [reach]

theorem TimIe.Lists.refuseAid (lists : tim.Lists (highest stored) stored)
    (refused : ¬Admits stored aid) :
    storeAidIntoTim tim aid = none := by
  apply storeAidIntoTim_refuses
  rwa [TimIe.Accepts, lists.originFor_eq]

theorem serve_account (requests : List Request)
    (small : ∀ request ∈ requests, request.asking = .ade → request.aid ≤ adeAidLimit)
    {before : Account} (lists : tim.Lists (highest before.stored) before.stored)
    (going : before.stopped = false) :
    let after := account requests before
    ∃ tim', tim'.Lists (highest after.stored) after.stored ∧
      serve requests tim before.timLen =
        if after.stopped then .error (.refused tim') else .ok (tim', after.timLen) := by
  induction requests generalizing tim before with
  | nil => exact ⟨tim, lists, by rw [account, going]; rfl⟩
  | cons request rest ih =>
    obtain ⟨asking, aid⟩ := request
    have others := fun other found => small other (List.mem_cons_of_mem _ found)
    by_cases admits : Admits before.stored aid
    · obtain ⟨tim', stores, after⟩ := lists.storeAid admits
      have reach : asking.reach before.timLen
          (aid / 8 - originOf (before.stored ++ [aid])) =
            Account.timLen { before with stored := before.stored ++ [aid] } := by
        rw [Account.timLen, Account.timLen, highest_append]
        dsimp only
        cases asking with
        | bitmap =>
          rw [Asking.reach_eq_max (by decide)]
          omega
        | single =>
          rw [Asking.reach_eq_max (by decide)]
          omega
        | ade =>
          have first : aid ≤ adeAidLimit := small ⟨.ade, aid⟩ List.mem_cons_self rfl
          rw [Asking.reach]
          unfold adeAidLimit at first
          omega
      simp only [account, serve, if_pos admits, stores, reach]
      exact ih others after going
    · simp only [account, serve, if_neg admits, lists.refuseAid admits]
      cases asking with
      | bitmap => exact ⟨tim, lists, rfl⟩
      | single =>
        have reach : Asking.single.reach before.timLen einvalOctet =
            Account.timLen { before with refusedSingle := true } := by
          rw [Asking.reach_eq_max (by decide)]
          simp only [Account.timLen, if_true]
          split
          · omega
          · omega
        simp only [reach]
        exact ih others lists going
      | ade => exact ih others lists going

end Serving

/-! ## The requests of an element -/

theorem bitmapRequests_asking (octets : Nat → Octet) (inverseBitmap : Bool)
    (octetNumbers : List Nat) (index : Nat) :
    ∀ request ∈ bitmapRequests octets inverseBitmap octetNumbers index,
      request.asking = .bitmap := by
  induction octetNumbers generalizing index with
  | nil => exact fun _ none => by cases none
  | cons octetNumber rest ih =>
    intro request found
    rcases List.mem_append.mp found with here | later
    · obtain ⟨aid, -, rfl⟩ := List.mem_map.mp here
      rfl
    · exact ih _ request later

theorem adeRequests_le (octets : Nat → Octet) (blockOffset pageIndex : Nat) (inverseBitmap : Bool) :
    ∀ request ∈ (adeRequests octets blockOffset pageIndex inverseBitmap).1,
      request.aid ≤ adeAidLimit := by
  have first : ∀ aid ∈ List.range 8, aid ≤ adeAidLimit := by
    intro aid found
    exact Nat.le_of_lt_succ (List.mem_range.mp found)
  rw [adeRequests]
  split
  · split
    · intro request found
      obtain ⟨aid, inside, rfl⟩ := List.mem_map.mp found
      exact first aid inside
    · exact fun _ none => by cases none
  · split
    · split
      · intro request found
        obtain ⟨aid, inside, rfl⟩ := List.mem_map.mp found
        exact first aid (List.mem_of_mem_filter inside)
      · exact fun _ none => by cases none
    · intro request found
      obtain ⟨aid, inside, rfl⟩ := List.mem_map.mp found
      have within := List.mem_takeWhile_imp inside
      exact of_decide_eq_true within

theorem blockRequests_ade (octets : Nat → Octet) (control : Octet) (pageIndex : Nat) :
    ∀ request ∈ (blockRequests octets control pageIndex).1,
      request.asking = .ade → request.aid ≤ adeAidLimit := by
  intro request found ade
  have bitmap (inverseBitmap : Bool) (octetNumbers : List Nat) (index : Nat)
      (among : request ∈ bitmapRequests octets inverseBitmap octetNumbers index) :
      request.aid ≤ adeAidLimit := by
    have asking := bitmapRequests_asking octets inverseBitmap octetNumbers index request among
    rw [ade] at asking
    cases asking
  rw [blockRequests] at found
  split at found
  · exact bitmap _ _ _ found
  · split at found
    · cases found
    · rw [List.mem_singleton] at found
      subst found
      cases ade
  · exact bitmap _ _ _ found
  · exact adeRequests_le _ _ _ _ request found
  · cases found

theorem elementRequests_ade (octets : Nat → Octet) (blockInfoLen pageIndex fuel index : Nat) :
    ∀ request ∈ elementRequests octets blockInfoLen pageIndex fuel index,
      request.asking = .ade → request.aid ≤ adeAidLimit := by
  induction fuel generalizing index with
  | zero => exact fun _ none => by cases none
  | succ fuel ih =>
    intro request found
    rw [elementRequests] at found
    split at found
    · rcases List.mem_append.mp found with here | later
      · exact blockRequests_ade _ _ _ request here
      · exact ih _ request later
    · cases found

/-- What becomes of what an element asks for. -/
def elementAccount (octets : Nat → Octet) (totalLen : Nat) : Account :=
  account
    (elementRequests (fun index => octets (3 + index)) (totalLen - 3)
      ((octets 2 &&& 0xC0#8) >>> 6).toNat (totalLen - 3) 0) .blank

theorem preparedTim_lists (octets : Nat → Octet) (timLen : Nat) :
    (preparedTim .zeroed octets).Lists timLen [] := by
  refine TimIe.lists_nil ?_ (fun index => ?_) timLen
  · have bits : ∀ octet : Octet, ((octet &&& 0x01#8) &&& 0xFE#8).toNat = 0 := by decide
    exact bits (octets 2)
  · change Function.update TimIe.zeroed.virtualMap 0 0 index = 0
    rw [Function.update_apply]
    split
    · rfl
    · rfl

theorem s1gToTim_account (octets : Nat → Octet) (long : 3 ≤ totalLen) :
    let after := elementAccount octets totalLen
    ∃ tim, tim.Lists (highest after.stored) after.stored ∧
      s1gToTim .zeroed (Memory.ofFun octets) totalLen =
        some (tim, sizeofTimIe + if after.stopped then 0 else after.timLen) := by
  by_cases some : 3 < totalLen
  · obtain ⟨tim, lists, served⟩ := @serve_account (preparedTim .zeroed octets)
      (elementRequests (fun index => octets (3 + index)) (totalLen - 3)
        ((octets 2 &&& 0xC0#8) >>> 6).toNat (totalLen - 3) 0)
      (elementRequests_ade _ _ _ _ _) .blank (preparedTim_lists octets 0) rfl
    have none : Account.blank.timLen = 0 := rfl
    rw [none] at served
    refine ⟨tim, lists, ?_⟩
    rw [@s1gToTim_eq_finish .zeroed octets totalLen some (Memory.ofFun octets) fun _ _ => rfl,
      shift_ofFun, parseEncodedBlocks_serve, served,
      elementAccount]
    split
    · rfl
    · rfl
  · obtain rfl : totalLen = 3 := by omega
    have whole : s1gToTim .zeroed (Memory.ofFun octets) 3 =
        if ((octets 2 &&& 0x3E#8) >>> 1).toNat = s1gTimPageSliceEntirePage then
          Option.some ({ preparedTim .zeroed octets with bitmapCtrl := 0 }, sizeofTimIe)
        else Option.some (preparedTim .zeroed octets, sizeofTimIe) := rfl
    rw [whole]
    split
    · refine ⟨_, ?_, rfl⟩
      have lists := preparedTim_lists octets 0
      have offset : ((0 : Octet) &&& 0xFE#8).toNat = 0 := by decide
      exact ⟨offset, lists.bits, lists.reached⟩
    · exact ⟨_, preparedTim_lists octets 0, rfl⟩

/-! ## The length -/

/-- The index is that of the last octet of the map that is not zero, or zero if there is
none. -/
structure IsHighest (virtualMap : Nat → Octet) (index : Nat) : Prop where
  reached : index = 0 ∨ virtualMap index ≠ 0
  above : ∀ other, index < other → virtualMap other = 0

theorem IsHighest.unique (first : IsHighest virtualMap index)
    (second : IsHighest virtualMap other) :
    index = other := by
  rcases Nat.lt_trichotomy index other with below | same | above
  · rcases second.reached with zero | nonzero
    · omega
    · exact absurd (first.above other below) nonzero
  · exact same
  · rcases first.reached with zero | nonzero
    · omega
    · exact absurd (second.above index above) nonzero

theorem TimIe.Lists.isHighest {tim : TimIe} (lists : tim.Lists (highest stored) stored) :
    IsHighest tim.virtualMap (highest stored) := by
  constructor
  · rcases highest_reached stored with none | ⟨aid, found, same⟩
    · exact Or.inl none
    · refine Or.inr fun zero => ?_
      have position := Nat.mod_lt aid (show 0 < 8 by decide)
      have behind := (lists.reached aid found).1
      have spelled : 8 * (originOf stored + highest stored) + aid % 8 = aid := by omega
      have set := (lists.bits (highest stored) (aid % 8) position).mpr (by rwa [spelled])
      rw [zero] at set
      simp at set
  · intro other above
    rw [eq_zero_iff_getLsbD]
    intro bit inside
    by_contra set
    rw [Bool.not_eq_false, lists.bits other bit inside] at set
    have reach := le_highest set
    omega

/-- Decoding the element returns the length of a TIM up to the last octet of the map that is
not zero. -/
def LengthExact (octets : Nat → Octet) (totalLen : Nat) : Prop :=
  ∃ tim ret last, s1gToTim .zeroed (Memory.ofFun octets) totalLen = some (tim, ret) ∧
    IsHighest tim.virtualMap last ∧ ret = sizeofTimIe + last

/-- No AID past the first octet of the map was stored if a refusal was the end; otherwise, if a
single AID was refused, an AID was stored as far as `-EINVAL` reaches. -/
def Account.Exact (after : Account) : Prop :=
  if after.stopped then highest after.stored = 0
  else after.refusedSingle = true → einvalOctet ≤ highest after.stored

instance (after : Account) : Decidable after.Exact := by
  unfold Account.Exact
  infer_instance

/--
The length that the decoder returns is exact exactly when no refusal in a bitmap follows an AID
past the first octet of the map, and, without such a refusal, no single AID is refused unless an
AID is stored in octet 234 or behind it.
-/
theorem lengthExact_iff (octets : Nat → Octet) (totalLen : Nat) (long : 3 ≤ totalLen) :
    LengthExact octets totalLen ↔ (elementAccount octets totalLen).Exact := by
  obtain ⟨tim, lists, decoded⟩ := s1gToTim_account octets long
  have last := lists.isHighest
  have exactly : LengthExact octets totalLen ↔
      (if (elementAccount octets totalLen).stopped then 0
        else (elementAccount octets totalLen).timLen) =
          highest (elementAccount octets totalLen).stored := by
    constructor
    · rintro ⟨other, ret, index, same, isHighest, length⟩
      rw [decoded] at same
      obtain ⟨rfl, rfl⟩ := Prod.mk.inj (Option.some.inj same)
      have index := isHighest.unique last
      omega
    · intro same
      exact ⟨tim, _, _, decoded, last, by rw [same]⟩
  rw [exactly, Account.Exact]
  split
  · exact eq_comm
  · rw [Account.timLen]
    cases (elementAccount octets totalLen).refusedSingle with
    | false => simp
    | true =>
      simp only [if_true, true_implies]
      omega

/-- The octets of an element: a bitmap control, and what its blocks are. -/
def elementOf (blocks : List Octet) : Nat → Octet :=
  fun index => ([0, 1, 0] ++ blocks).getD index 0

/-- A single AID, 100, and then one before the octet that the map starts at. -/
theorem not_lengthExact_refusedSingle :
    ¬LengthExact (elementOf [0x09, 36, 0x01, 5]) 7 := by
  rintro ⟨tim, ret, last, decoded, isHighest, length⟩
  have first : (s1gToTim .zeroed (Memory.ofFun (elementOf [0x09, 36, 0x01, 5])) 7).map
      (fun result => (result.1.virtualMap 234, result.2)) = some (0, 238) := by decide
  rw [decoded] at first
  obtain ⟨zero, rfl⟩ := Prod.mk.inj (Option.some.inj first)
  obtain rfl : last = 234 := by
    unfold sizeofTimIe at length
    omega
  rcases isHighest.reached with none | nonzero
  · cases none
  · exact nonzero zero

theorem lengthExact_iff_twoBlocks :
    LengthExact (elementOf [0x08, 0x02, 0x81, 0x09, 36]) 8 ↔
      (elementAccount (elementOf [0x08, 0x02, 0x81, 0x09, 36]) 8).Exact :=
  lengthExact_iff (elementOf [0x08, 0x02, 0x81, 0x09, 36]) 8 (by decide)

end Tim
end Morse
