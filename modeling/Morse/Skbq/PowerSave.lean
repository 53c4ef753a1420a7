import Morse.Lib.Serial
import Morse.Skbq.Runs

/-!
# Frames returned by a sleeping peer

The chip returns frames whose peer went to sleep.  For a station the driver puts
them back among the frames that wait for transmission, by packet identifier.
The packet identifiers of a queue are a 32-bit count, so their order is that of
their age from the oldest identifier in use.

Nothing is lost exactly when the returned frames fit, and the order is kept
exactly when no comparison looks across the wrap of the count.
-/

namespace Morse
namespace Skbq

open Lib

/-! ## What is put back -/

/-- The status concerns the queue of that kind. -/
def TxStatusFor (kind : QueueKind) (txSts : TxStatus) : Prop :=
  txSts.matchSkbq.map .toChip = some kind

instance (kind : QueueKind) (txSts : TxStatus) : Decidable (TxStatusFor kind txSts) :=
  inferInstanceAs (Decidable (_ = _))

/-- The frames that a look-up leaves on the pending list. -/
def lookupKeeps (jiffies : BitVec 64) (pktId : BitVec 32) : List SkBuff → List SkBuff
  | [] => []
  | pfirst :: rest =>
    if pfirst.pktId = pktId then pfirst :: rest
    else if pfirst.pktId < pktId ∧ hasPendingTxSkbTimedOut jiffies pfirst = true then
      lookupKeeps jiffies pktId rest
    else pfirst :: lookupKeeps jiffies pktId rest

/-- The frame that a status finds. -/
def TxStatus.find (txSts : TxStatus) (pending : List SkBuff) : Option SkBuff :=
  pending.find? fun skb => skb.pktId = txSts.pktId

/-- The frames that a status leaves on the pending list. -/
def statusLeaves (jiffies : BitVec 64) (kind : QueueKind) (pending : List SkBuff)
    (txSts : TxStatus) : List SkBuff :=
  if ¬ TxStatusFor kind txSts then pending
  else
    match TxStatus.find txSts pending with
    | none => lookupKeeps jiffies txSts.pktId pending
    | some skb => removeKey SkBuff.address skb.address (lookupKeeps jiffies txSts.pktId pending)

/-- The frame that a status has put back, if any. -/
def statusBack (driver : Driver) (kind : QueueKind) (pending : List SkBuff)
    (txSts : TxStatus) : List SkBuff :=
  if TxStatusFor kind txSts ∧ Refilters driver txSts then (TxStatus.find txSts pending).toList
  else []

/-- The pending frames that the statuses have put back, in their order. -/
def refilled (driver : Driver) (jiffies : BitVec 64) (kind : QueueKind) :
    List SkBuff → List TxStatus → List SkBuff
  | _, [] => []
  | pending, txSts :: rest =>
    statusBack driver kind pending txSts ++
      refilled driver jiffies kind (statusLeaves jiffies kind pending txSts) rest

/-- Some status reports on the frame. -/
def Reported (kind : QueueKind) (statuses : List TxStatus) (skb : SkBuff) : Prop :=
  ∃ txSts ∈ statuses, TxStatusFor kind txSts ∧ txSts.pktId = skb.pktId

/-- Every reported frame is back on the `skbq` list or was freed, exactly once;
what was freed was counted; and the `skbq` list is in strict order of the packet
identifiers, seen from `base`. -/
structure Refiltered (base : BitVec 32) (before after : Skbq) (statuses : List TxStatus) :
    Prop where
  placed : ∀ skb ∈ before.pending.skbs, Reported before.kind statuses skb →
    keyCount SkBuff.address skb.address after.skbq.skbs +
      keyCount SkBuff.address skb.address after.freed = 1
  counted : ∃ dropped, after.freed = before.freed ++ dropped ∧
    after.txStatusDropped = before.txStatusDropped + BitVec.ofNat 32 dropped.length
  ordered : Ascending SkBuff.pktId base after.skbq.skbs

/-- The queue was in order, all the frames that are put back fit, and none of
them is compared across the wrap of the packet identifiers. -/
def Refillable (driver : Driver) (jiffies : BitVec 64) (base : BitVec 32) (mq : Skbq)
    (statuses : List TxStatus) : Prop :=
  let back := refilled driver jiffies mq.kind mq.pending.skbs statuses
  Ascending SkBuff.pktId base mq.skbq.skbs ∧
    mq.skbqSize.toNat + bytes back ≤ morseSkbqSize.toNat ∧
      PlainSafeRun SkBuff.pktId base mq.skbq.skbs back

instance (driver : Driver) (jiffies : BitVec 64) (base : BitVec 32) (mq : Skbq)
    (statuses : List TxStatus) : Decidable (Refillable driver jiffies base mq statuses) := by
  unfold Refillable
  infer_instance

/-! ## The pending list -/

theorem lookupKeeps_sublist (jiffies : BitVec 64) (pktId : BitVec 32) (pending : List SkBuff) :
    (lookupKeeps jiffies pktId pending).Sublist pending := by
  induction pending with
  | nil => exact .refl _
  | cons pfirst rest ih =>
    simp only [lookupKeeps]
    split
    · exact .refl _
    split
    · exact ih.cons pfirst
    · exact ih.cons_cons pfirst

theorem mem_lookupKeeps_of_find (jiffies : BitVec 64) {pending : List SkBuff}
    (found : pending.find? (fun skb => skb.pktId = pktId) = some skb) :
    skb ∈ lookupKeeps jiffies pktId pending := by
  induction pending with
  | nil => cases found
  | cons pfirst rest ih =>
    simp only [lookupKeeps]
    split
    · next same =>
        rw [List.find?_cons_of_pos (by simpa using same)] at found
        cases found
        exact List.mem_cons_self
    · next different =>
        rw [List.find?_cons_of_neg (by simpa using different)] at found
        split
        · exact ih found
        · exact List.mem_cons_of_mem pfirst (ih found)

theorem pktId_of_find {pending : List SkBuff} (found : TxStatus.find txSts pending = some skb) :
    txSts.pktId = skb.pktId := by
  have same := List.find?_some found
  rw [decide_eq_true_eq] at same
  exact same.symm

theorem statusLeaves_sublist
    (jiffies : BitVec 64) (kind : QueueKind) (pending : List SkBuff) (txSts : TxStatus) :
    (statusLeaves jiffies kind pending txSts).Sublist pending := by
  have kept := lookupKeeps_sublist jiffies txSts.pktId pending
  unfold statusLeaves
  split
  · exact .refl _
  split
  · exact kept
  · exact List.eraseP_sublist.trans kept

theorem find_lookupKeeps_perm {pending : List SkBuff}
    (single : ∀ address, keyCount SkBuff.address address pending ≤ 1) (jiffies : BitVec 64)
    (found : TxStatus.find txSts pending = some skb) :
    (skb :: removeKey SkBuff.address skb.address
        (lookupKeeps jiffies txSts.pktId pending)).Perm
      (lookupKeeps jiffies txSts.pktId pending) := by
  apply perm_removeKey SkBuff.address (mem_lookupKeeps_of_find jiffies found)
  have kept := lookupKeeps_sublist jiffies txSts.pktId pending
  exact ((kept.map SkBuff.address).count_le _).trans (single skb.address)

variable {pending : List SkBuff}

theorem statusBack_append_subperm (single : ∀ address, keyCount SkBuff.address address pending ≤ 1)
    (driver : Driver) (jiffies : BitVec 64) (kind : QueueKind) (txSts : TxStatus) :
    (statusBack driver kind pending txSts ++ statusLeaves jiffies kind pending txSts).Subperm
      pending := by
  have kept := lookupKeeps_sublist jiffies txSts.pktId pending
  unfold statusBack
  split
  · next refilters =>
      unfold statusLeaves
      rw [if_neg (not_not.mpr refilters.1)]
      split
      · next none =>
          rw [none]
          exact kept.subperm
      · next skb found =>
          rw [found]
          exact (find_lookupKeeps_perm single jiffies found).subperm.trans kept.subperm
  · exact (statusLeaves_sublist jiffies kind pending txSts).subperm

theorem refilled_subperm (single : ∀ address, keyCount SkBuff.address address pending ≤ 1)
    (driver : Driver) (jiffies : BitVec 64) (kind : QueueKind) (statuses : List TxStatus) :
    (refilled driver jiffies kind pending statuses).Subperm pending := by
  induction statuses generalizing pending with
  | nil => exact List.nil_subperm
  | cons txSts rest ih =>
    have leaves := statusLeaves_sublist jiffies kind pending txSts
    have others := @ih (statusLeaves jiffies kind pending txSts) fun address =>
      ((leaves.map SkBuff.address).count_le address).trans (single address)
    exact ((List.subperm_append_left _).mpr others).trans
      (statusBack_append_subperm single driver jiffies kind txSts)

theorem reported_of_mem_refilled {pending : List SkBuff} {kind : QueueKind}
    (member : skb ∈ refilled driver jiffies kind pending statuses) :
    Reported kind statuses skb := by
  induction statuses generalizing pending with
  | nil => cases member
  | cons txSts rest ih =>
    rcases List.mem_append.mp member with here | later
    · unfold statusBack at here
      split at here
      · next refilters =>
          rw [Option.mem_toList] at here
          exact ⟨txSts, List.mem_cons_self, refilters.1, pktId_of_find here⟩
      · cases here
    · obtain ⟨other, listed, reports⟩ := ih later
      exact ⟨other, List.mem_cons_of_mem txSts listed, reports⟩

theorem pktId_ne_of_mem_statusLeaves {pending : List SkBuff} {kind : QueueKind}
    (single : ∀ address, keyCount SkBuff.address address pending ≤ 1)
    (distinct : (pending.map SkBuff.pktId).Nodup) (concerns : TxStatusFor kind txSts)
    (member : skb ∈ statusLeaves jiffies kind pending txSts) :
    txSts.pktId ≠ skb.pktId := by
  intro same
  have pendingMember := (statusLeaves_sublist jiffies kind pending txSts).subset member
  unfold statusLeaves at member
  rw [if_neg (not_not.mpr concerns)] at member
  split at member
  · next none =>
      have other := List.find?_eq_none.mp none skb pendingMember
      rw [decide_eq_true_eq] at other
      exact other same.symm
  · next found result =>
      have kept := lookupKeeps_sublist jiffies txSts.pktId pending
      have once := ((find_lookupKeeps_perm single jiffies result).map SkBuff.pktId).nodup_iff.mpr
        ((kept.map SkBuff.pktId).nodup distinct)
      have equal : found.pktId = skb.pktId := (pktId_of_find result).symm.trans same
      rw [List.map_cons, List.nodup_cons, equal] at once
      exact once.1 (List.mem_map_of_mem member)

theorem foldl_statusLeaves_sublist (jiffies : BitVec 64) (kind : QueueKind) (pending : List SkBuff)
    (statuses : List TxStatus) :
    (statuses.foldl (statusLeaves jiffies kind) pending).Sublist pending := by
  induction statuses generalizing pending with
  | nil => exact .refl _
  | cons txSts rest ih =>
    exact (ih _).trans (statusLeaves_sublist jiffies kind pending txSts)

theorem not_reported_of_mem_foldl_statusLeaves {pending : List SkBuff} {kind : QueueKind}
    (single : ∀ address, keyCount SkBuff.address address pending ≤ 1)
    (distinct : (pending.map SkBuff.pktId).Nodup)
    (member : skb ∈ statuses.foldl (statusLeaves jiffies kind) pending) :
    ¬ Reported kind statuses skb := by
  induction statuses generalizing pending with
  | nil =>
    rintro ⟨_, none, _⟩
    cases none
  | cons txSts rest ih =>
    have leaves := statusLeaves_sublist jiffies kind pending txSts
    rintro ⟨other, listed, concerns, same⟩
    rcases List.mem_cons.mp listed with rfl | listed
    · have here := (foldl_statusLeaves_sublist jiffies kind _ rest).subset member
      exact pktId_ne_of_mem_statusLeaves single distinct concerns here same
    · have fewer (address : Nat) : keyCount SkBuff.address address
          (statusLeaves jiffies kind pending txSts) ≤ 1 :=
        ((leaves.map SkBuff.address).count_le address).trans (single address)
      exact ih fewer ((leaves.map SkBuff.pktId).nodup distinct) member
        ⟨other, listed, concerns, same⟩

/-! ## What a step of the status handling does -/

/-- A step that puts back some frames, of which those that do not fit are
lost. -/
structure Outcome (before after : Skbq) (back lost : List SkBuff) : Prop where
  conserves : Conserves before after [] lost
  kind : after.kind = before.kind
  reported : after.reported = before.reported
  counted : ∃ dropped, after.freed = before.freed ++ dropped ∧
    after.txStatusDropped = before.txStatusDropped + BitVec.ofNat 32 dropped.length
  pending : after.pending.skbs.Sublist before.pending.skbs
  lost_subset : ∀ skb ∈ lost, skb ∈ back
  fits : lost = [] ↔ before.skbqSize.toNat + bytes back ≤ morseSkbqSize.toNat
  requeued : lost = [] →
    after.skbqSize.toNat = before.skbqSize.toNat + bytes back ∧
      after.skbq.skbs =
        back.foldl (fun skbs skb => insertPlain SkBuff.pktId skb skbs) before.skbq.skbs

theorem Outcome.of_dropped (consistent : before.Consistent)
    (conserves : Conserves before after [] []) (kind : after.kind = before.kind)
    (reported : after.reported = before.reported)
    (counted : ∃ dropped, after.freed = before.freed ++ dropped ∧
      after.txStatusDropped = before.txStatusDropped + BitVec.ofNat 32 dropped.length)
    (pending : after.pending.skbs.Sublist before.pending.skbs)
    (skbqSize : after.skbqSize = before.skbqSize)
    (skbq : after.skbq = before.skbq) :
    Outcome before after [] [] where
  conserves := conserves
  kind := kind
  reported := reported
  counted := counted
  pending := pending
  lost_subset := fun _ member => member
  fits := iff_of_true rfl consistent.size_le
  requeued := fun _ => ⟨by rw [skbqSize]; rfl, by rw [skbq]; rfl⟩

theorem Outcome.refl (consistent : mq.Consistent) : Outcome mq mq [] [] :=
  .of_dropped consistent (consistent.conserves []) rfl rfl
    ⟨[], (List.append_nil _).symm, (BitVec.add_zero _).symm⟩ (.refl _) rfl rfl

theorem Outcome.trans (first : Outcome before middle firstBack firstLost)
    (second : Outcome middle after secondBack secondLost) :
    Outcome before after (firstBack ++ secondBack) (firstLost ++ secondLost) where
  conserves := first.conserves.trans second.conserves fun _ => by
    rw [keyCount_append, keyCount_nil]
    omega
  kind := second.kind.trans first.kind
  reported := second.reported.trans first.reported
  counted := by
    obtain ⟨earlier, firstFreed, firstCount⟩ := first.counted
    obtain ⟨later, secondFreed, secondCount⟩ := second.counted
    refine ⟨earlier ++ later, ?_, ?_⟩
    · rw [secondFreed, firstFreed, List.append_assoc]
    · rw [secondCount, firstCount, List.length_append, BitVec.ofNat_add, BitVec.add_assoc]
  pending := second.pending.trans first.pending
  lost_subset := by
    intro skb member
    rcases List.mem_append.mp member with earlier | later
    · exact List.mem_append_left _ (first.lost_subset skb earlier)
    · exact List.mem_append_right _ (second.lost_subset skb later)
  fits := by
    rw [List.append_eq_nil_iff, bytes_append]
    constructor
    · rintro ⟨firstFits, secondFits⟩
      have size := (first.requeued firstFits).1
      have bound := second.fits.mp secondFits
      omega
    · intro bound
      have firstFits := first.fits.mpr (by omega)
      have size := (first.requeued firstFits).1
      exact ⟨firstFits, second.fits.mpr (by omega)⟩
  requeued := by
    intro nothing
    obtain ⟨firstFits, secondFits⟩ := List.append_eq_nil_iff.mp nothing
    obtain ⟨firstSize, firstSkbs⟩ := first.requeued firstFits
    obtain ⟨secondSize, secondSkbs⟩ := second.requeued secondFits
    refine ⟨?_, ?_⟩
    · rw [bytes_append]
      omega
    · rw [List.foldl_append, ← firstSkbs, secondSkbs]

theorem Outcome.congr (outcome : Outcome before after back lost)
    (accounts : other.accounts = after.accounts) (kind : other.kind = after.kind)
    (dropped : other.txStatusDropped = after.txStatusDropped) :
    Outcome before other back lost := by
  have conserves := outcome.conserves.congr accounts
  simp only [Skbq.accounts, Prod.mk.injEq] at accounts
  obtain ⟨skbqSize, skbq, pending, freed, reported, -⟩ := accounts
  refine ⟨conserves, kind.trans outcome.kind, reported.trans outcome.reported, ?_, ?_,
    outcome.lost_subset, outcome.fits, ?_⟩
  · rw [freed, dropped]
    exact outcome.counted
  · rw [pending]
    exact outcome.pending
  · rw [skbqSize, skbq]
    exact outcome.requeued

theorem dropPendingSkb_outcome (consistent : mq.Consistent) (member : skb ∈ mq.pending.skbs) :
    Outcome mq (mq.dropPendingSkb skb) [] [] :=
  .of_dropped consistent (dropPendingSkb_conserves consistent member) rfl rfl ⟨[skb], rfl, rfl⟩
    List.eraseP_sublist rfl
    (without_skbq_of_mem_pending consistent (keyCount_pos_of_mem _ member))

theorem getPendingWalk_outcome {kept walk : List SkBuff} {mq : Skbq} (consistent : mq.Consistent)
    (onList : mq.pending.skbs = kept ++ walk) :
    Outcome mq (getPendingWalk jiffies pktId walk mq).2 [] [] ∧
      (getPendingWalk jiffies pktId walk mq).2.pending.skbs =
        kept ++ lookupKeeps jiffies pktId walk := by
  induction walk generalizing kept mq with
  | nil => exact ⟨.refl consistent, onList⟩
  | cons pfirst rest ih =>
    simp only [getPendingWalk, lookupKeeps]
    split
    · exact ⟨.refl consistent, onList⟩
    split
    · have member : pfirst ∈ mq.pending.skbs := by
        rw [onList]
        exact List.mem_append_right kept List.mem_cons_self
      have dropped : Outcome mq (mq.flushPendingSkb pfirst) [] [] :=
        (dropPendingSkb_outcome consistent member).congr rfl rfl rfl
      have remaining : (mq.flushPendingSkb pfirst).pending.skbs = kept ++ rest := by
        have single := keyCount_pending_le consistent pfirst.address
        rw [onList, keyCount_append, keyCount_cons, if_pos rfl] at single
        have first : keyCount SkBuff.address pfirst.address kept = 0 := by omega
        have without := @removeKey_append_cons _ _ _ SkBuff.address kept rest pfirst first
        rw [← onList] at without
        exact without
      obtain ⟨others, left⟩ := ih dropped.conserves.consistent remaining
      exact ⟨dropped.trans others, left⟩
    · have passed : mq.pending.skbs = (kept ++ [pfirst]) ++ rest := by
        rw [onList, List.append_assoc]
        rfl
      obtain ⟨others, left⟩ := ih consistent passed
      refine ⟨others, ?_⟩
      rw [left, List.append_assoc]
      rfl

/-! ## Reinsertion -/

theorem insertWalk_skbs (front : List SkBuff)
    (single : ∀ address, keyCount SkBuff.address address mq.skbq.skbs ≤ 1)
    (onList : mq.skbq.skbs = front ++ walk) (bounded : ∃ other ∈ walk, skb.pktId ≤ other.pktId)
    (fits : skb.len ≤ mq.space) :
    (insertWalk skb skb.pktId walk mq).skbq.skbs =
      front ++ placeBefore SkBuff.pktId skb walk := by
  induction walk generalizing front with
  | nil =>
    obtain ⟨_, none, _⟩ := bounded
    cases none
  | cons pfirst rest ih =>
    simp only [insertWalk, placeBefore]
    split
    · have first := single pfirst.address
      rw [onList, keyCount_append, keyCount_cons, if_pos rfl] at first
      simp only [putIgnored, put, if_pos fits, Option.getD_some, SkBuffHead.insert, onList]
      exact insertBefore_append_cons SkBuff.address (by omega) skb
    · next smaller =>
        have passed : mq.skbq.skbs = (front ++ [pfirst]) ++ rest := by
          rw [onList, List.append_assoc]
          rfl
        have later : ∃ other ∈ rest, skb.pktId ≤ other.pktId := by
          obtain ⟨other, member, above⟩ := bounded
          rcases List.mem_cons.mp member with rfl | member
          · exact absurd above smaller
          · exact ⟨other, member, above⟩
        rw [ih _ passed later, List.append_assoc]
        rfl

theorem insertPendingSkbToSkbq_skbs {mq : Skbq} (consistent : mq.Consistent)
    (member : skb ∈ mq.pending.skbs) (fits : skb.len ≤ mq.space) :
    (mq.insertPendingSkbToSkbq skb skb.pktId).skbq.skbs =
      insertPlain SkBuff.pktId skb mq.skbq.skbs := by
  have untouched : (mq.unlink .pending skb).skbq = mq.skbq :=
    without_skbq_of_mem_pending consistent (keyCount_pos_of_mem _ member)
  have room : skb.len ≤ (mq.unlink .pending skb).space := fits
  have appended : ((mq.unlink .pending skb).putIgnored .skbq skb .tail).skbq.skbs =
      mq.skbq.skbs ++ [skb] := by
    simp only [putIgnored, put, if_pos room, Option.getD_some, SkBuffHead.insert, untouched]
  cases last : mq.skbq.skbs.getLast? with
  | none =>
    simp only [insertPendingSkbToSkbq, insertPlain, last, appended]
    rw [List.getLast?_eq_none_iff.mp last]
    rfl
  | some tail =>
    simp only [insertPendingSkbToSkbq, insertPlain, last]
    split
    · exact appended
    · next larger =>
        rw [untouched]
        exact insertWalk_skbs [] (by rw [untouched]; exact keyCount_skbq_le consistent)
          (by rw [untouched]; rfl)
          ⟨tail, List.mem_of_getLast? last, BitVec.le_of_lt (BitVec.not_le.mp larger)⟩ room

theorem insertPendingSkbToSkbq_eq_unlink {mq : Skbq} (consistent : mq.Consistent)
    (member : skb ∈ mq.pending.skbs) (full : ¬ skb.len ≤ mq.space) (insertionId : BitVec 32) :
    mq.insertPendingSkbToSkbq skb insertionId = mq.unlink .pending skb := by
  obtain ⟨place, same⟩ := insertPendingSkbToSkbq_eq_put consistent member insertionId
  have refused : ¬ skb.len ≤ (mq.unlink .pending skb).space := full
  simp only [same, putIgnored, put, if_neg refused, Option.getD_none]

theorem insertPendingSkbToSkbq_pending {mq : Skbq} (consistent : mq.Consistent)
    (member : skb ∈ mq.pending.skbs) (insertionId : BitVec 32) :
    (mq.insertPendingSkbToSkbq skb insertionId).pending = (mq.unlink .pending skb).pending ∧
      (mq.insertPendingSkbToSkbq skb insertionId).kind = mq.kind ∧
      (mq.insertPendingSkbToSkbq skb insertionId).reported = mq.reported ∧
      (mq.insertPendingSkbToSkbq skb insertionId).freed = mq.freed ∧
      (mq.insertPendingSkbToSkbq skb insertionId).txStatusDropped = mq.txStatusDropped := by
  obtain ⟨place, same⟩ := insertPendingSkbToSkbq_eq_put consistent member insertionId
  rw [same]
  simp only [putIgnored, put]
  split
  · exact ⟨rfl, rfl, rfl, rfl, rfl⟩
  · exact ⟨rfl, rfl, rfl, rfl, rfl⟩

theorem insertPendingSkbToSkbq_outcome (consistent : mq.Consistent)
    (member : skb ∈ mq.pending.skbs) :
    Outcome mq (mq.insertPendingSkbToSkbq skb skb.pktId) [skb]
      (if skb.len ≤ mq.space then [] else [skb]) := by
  obtain ⟨pending, kind, reported, freed, dropped⟩ :=
    insertPendingSkbToSkbq_pending consistent member skb.pktId
  have space := toNat_space consistent
  have size := consistent.size_le
  have room : skb.len ≤ mq.space ↔
      mq.skbqSize.toNat + bytes [skb] ≤ morseSkbqSize.toNat := by
    rw [BitVec.le_def] at size ⊢
    rw [bytes_cons, bytes_nil]
    omega
  have counted : ∃ dropped, (mq.insertPendingSkbToSkbq skb skb.pktId).freed =
      mq.freed ++ dropped ∧ (mq.insertPendingSkbToSkbq skb skb.pktId).txStatusDropped =
        mq.txStatusDropped + BitVec.ofNat 32 dropped.length :=
    ⟨[], by rw [freed, List.append_nil], by rw [dropped]; exact (BitVec.add_zero _).symm⟩
  have shrinks : (mq.insertPendingSkbToSkbq skb skb.pktId).pending.skbs.Sublist
      mq.pending.skbs := by
    rw [pending]
    exact List.eraseP_sublist
  split
  · next fits =>
      have conserves := insertPendingSkbToSkbq_conserves consistent member fits skb.pktId
      have skbs := insertPendingSkbToSkbq_skbs consistent member fits
      refine ⟨conserves, kind, reported, counted, shrinks, fun _ none => (by cases none),
        iff_of_true rfl (room.mp fits), fun _ => ⟨?_, skbs⟩⟩
      rw [conserves.consistent.size_eq, skbs,
        bytes_congr (perm_insertPlain skb mq.skbq.skbs), bytes_cons, bytes_cons, bytes_nil,
        consistent.size_eq]
      omega
  · next full =>
      have same := insertPendingSkbToSkbq_eq_unlink consistent member full skb.pktId
      refine ⟨?_, kind, reported, counted, shrinks, fun _ lost => lost,
        iff_of_false (by simp) fun bound => full (room.mpr bound), fun none => (by cases none)⟩
      rw [same]
      exact unlink_pending_conserves consistent (keyCount_pos_of_mem _ member)

theorem txStatusApply_outcome (driver : Driver) (consistent : mq.Consistent)
    (member : skb ∈ mq.pending.skbs) (reports : txSts.pktId = skb.pktId)
    (filtered : txSts.flags &&& txStatusFlagsPsFiltered ≠ 0) :
    ∃ lost, Outcome mq (txStatusApply driver mq skb txSts)
        (if Refilters driver txSts then [skb] else []) lost ∧
      (txStatusApply driver mq skb txSts).pending.skbs =
        removeKey SkBuff.address skb.address mq.pending.skbs := by
  have dropped := dropPendingSkb_outcome consistent member
  unfold txStatusApply
  split
  · next invalid =>
      rw [if_neg fun refilters => invalid refilters.1]
      exact ⟨[], dropped.congr rfl rfl rfl, rfl⟩
  next valid =>
  split
  · next refused =>
      rw [if_neg fun refilters => refused refilters.2.1]
      exact ⟨[], dropped.congr rfl rfl rfl, rfl⟩
  next allowed =>
  by_cases supported : txSts.supportsPsFilter driver = true
  · have station : (!driver.fullmac && !txSts.isStation) = false := by
      unfold TxStatus.supportsPsFilter at supported
      rw [Bool.and_eq_true] at supported
      rw [supported.2, Bool.not_true, Bool.and_false]
    have inserts : txSkbIsPsFiltered driver mq skb txSts =
        (true, mq.insertPendingSkbToSkbq skb txSts.pktId) := by
      simp only [txSkbIsPsFiltered, supported, station, Bool.not_true, Bool.false_eq_true,
        if_false]
    rw [inserts, if_pos ⟨filtered, rfl⟩,
      if_pos ⟨not_not.mp valid, not_not.mp allowed, filtered, supported⟩, reports]
    obtain ⟨pending, -⟩ := insertPendingSkbToSkbq_pending consistent member skb.pktId
    exact ⟨_, insertPendingSkbToSkbq_outcome consistent member, by rw [pending]; rfl⟩
  · have drops : txSkbIsPsFiltered driver mq skb txSts = (true, mq.dropPendingSkb skb) := by
      simp only [txSkbIsPsFiltered, Bool.not_eq_true _ ▸ supported, Bool.not_false, if_true]
    rw [drops, if_pos ⟨filtered, rfl⟩, if_neg fun refilters => supported refilters.2.2.2]
    exact ⟨[], dropped, rfl⟩

theorem txStatusOne_outcome (driver : Driver) (jiffies : BitVec 64) (consistent : mq.Consistent)
    (filtered : TxStatusFor mq.kind txSts → txSts.flags &&& txStatusFlagsPsFiltered ≠ 0) :
    ∃ lost, Outcome mq (txStatusOne driver jiffies mq txSts)
        (statusBack driver mq.kind mq.pending.skbs txSts) lost ∧
      (txStatusOne driver jiffies mq txSts).pending.skbs =
        statusLeaves jiffies mq.kind mq.pending.skbs txSts := by
  by_cases concerns : TxStatusFor mq.kind txSts
  · obtain ⟨queue, matched, toChip⟩ := Option.map_eq_some_iff.mp concerns
    obtain ⟨looked, kept⟩ := @getPendingWalk_outcome jiffies txSts.pktId [] _ mq consistent rfl
    have first := getPendingWalk_fst jiffies txSts.pktId mq.pending.skbs mq
    have mine : ¬ mq.kind ≠ .toChip queue := not_not.mpr toChip.symm
    unfold txStatusOne statusBack statusLeaves
    simp only [matched, if_neg mine, getPendingById, concerns, not_true_eq_false, if_false,
      true_and]
    rw [List.nil_append] at kept
    cases found : TxStatus.find txSts mq.pending.skbs with
    | none =>
      rw [show mq.pending.skbs.find? _ = none from found] at first
      split
      · next after result =>
          rw [result] at looked kept
          refine ⟨[], ?_, kept⟩
          rw [Option.toList_none, ite_self]
          exact looked
      · next result =>
          rw [result] at first
          cases first
    | some skb =>
      rw [show mq.pending.skbs.find? _ = some skb from found] at first
      split
      · next result =>
          rw [result] at first
          cases first
      · next txSkb after result =>
          rw [result] at looked kept first
          cases first
          have member : skb ∈ after.pending.skbs := by
            rw [show after.pending.skbs = _ from kept]
            exact mem_lookupKeeps_of_find jiffies found
          obtain ⟨lost, applied, left⟩ := txStatusApply_outcome driver
            looked.conserves.consistent member (pktId_of_find found) (filtered concerns)
          refine ⟨lost, looked.trans applied, ?_⟩
          rw [left, show after.pending.skbs = _ from kept]
  · have skipped : txStatusOne driver jiffies mq txSts = mq := by
      unfold txStatusOne
      split
      · rfl
      · next queue matched =>
          rw [if_pos]
          intro toChip
          apply concerns
          rw [TxStatusFor, matched, toChip]
          rfl
    refine ⟨[], ?_, ?_⟩
    · rw [skipped, statusBack, if_neg fun refilters => concerns refilters.1]
      exact .refl consistent
    · rw [skipped, statusLeaves, if_pos concerns]

theorem txStatusProcess_outcome (driver : Driver) (jiffies : BitVec 64) (consistent : mq.Consistent)
    (filtered : ∀ txSts ∈ statuses, TxStatusFor mq.kind txSts →
      txSts.flags &&& txStatusFlagsPsFiltered ≠ 0) :
    ∃ lost, Outcome mq (txStatusProcess driver jiffies mq statuses)
        (refilled driver jiffies mq.kind mq.pending.skbs statuses) lost ∧
      (txStatusProcess driver jiffies mq statuses).pending.skbs =
        statuses.foldl (statusLeaves jiffies mq.kind) mq.pending.skbs := by
  induction statuses generalizing mq with
  | nil => exact ⟨[], .refl consistent, rfl⟩
  | cons txSts rest ih =>
    obtain ⟨firstLost, first, left⟩ :=
      txStatusOne_outcome driver jiffies consistent (filtered txSts List.mem_cons_self)
    obtain ⟨otherLost, others, remaining⟩ := @ih (txStatusOne driver jiffies mq txSts)
      first.conserves.consistent fun other listed concerns =>
        filtered other (List.mem_cons_of_mem txSts listed) (first.kind ▸ concerns)
    rw [first.kind, left] at others remaining
    exact ⟨firstLost ++ otherLost, first.trans others, remaining⟩

/-- Returned frames are put back in order or dropped with a count, none of them
lost, exactly when those that are put back fit and are not compared across the
wrap of the packet identifiers. -/
theorem refiltered_iff (driver : Driver) (jiffies : BitVec 64) (base : BitVec 32) (mq : Skbq)
    (statuses : List TxStatus) (consistent : mq.Consistent)
    (distinct : ((mq.pending.skbs ++ mq.skbq.skbs).map SkBuff.pktId).Nodup)
    (filtered : ∀ txSts ∈ statuses, TxStatusFor mq.kind txSts →
      txSts.flags &&& txStatusFlagsPsFiltered ≠ 0) :
    Refiltered base mq (txStatusProcess driver jiffies mq statuses) statuses ↔
      Refillable driver jiffies base mq statuses := by
  obtain ⟨lost, outcome, left⟩ := txStatusProcess_outcome driver jiffies consistent filtered
  have single := keyCount_pending_le consistent
  have subperm := refilled_subperm single driver jiffies mq.kind statuses
  have distinctBack :
      ((refilled driver jiffies mq.kind mq.pending.skbs statuses ++ mq.skbq.skbs).map
        SkBuff.pktId).Nodup := by
    obtain ⟨chosen, permutation, sublist⟩ := subperm
    have whole := ((permutation.append_right mq.skbq.skbs).map SkBuff.pktId).nodup_iff
    exact whole.mp (((sublist.append_right mq.skbq.skbs).map SkBuff.pktId).nodup distinct)
  have distinctPending : (mq.pending.skbs.map SkBuff.pktId).Nodup :=
    ((List.sublist_append_left _ mq.skbq.skbs).map SkBuff.pktId).nodup distinct
  constructor
  · intro refiltered
    have nothingLost : lost = [] := by
      apply List.eq_nil_iff_forall_not_mem.mpr
      intro skb lostMember
      have back := outcome.lost_subset skb lostMember
      have placed := refiltered.placed skb (subperm.subset back) (reported_of_mem_refilled back)
      have balance := outcome.conserves.balance skb.address
      have occurs := keyCount_pos_of_mem SkBuff.address lostMember
      have once := consistent.single skb.address
      rw [keyCount_nil] at balance
      unfold tally at balance once
      omega
    obtain ⟨-, skbs⟩ := outcome.requeued nothingLost
    have final := refiltered.ordered
    rw [skbs] at final
    have initial : Ascending SkBuff.pktId base mq.skbq.skbs :=
      final.sublist (sublist_foldl_insertPlain _ _)
    exact ⟨initial, outcome.fits.mp nothingLost,
      (ascending_foldl_insertPlain_iff initial distinctBack).mp final⟩
  · rintro ⟨initial, fits, safe⟩
    have nothingLost := outcome.fits.mpr fits
    obtain ⟨-, skbs⟩ := outcome.requeued nothingLost
    refine ⟨?_, outcome.counted, ?_⟩
    · intro skb pending reports
      have balance := outcome.conserves.balance skb.address
      have once := consistent.single skb.address
      have occurs := keyCount_pos_of_mem SkBuff.address pending
      have gone : keyCount SkBuff.address skb.address
          (txStatusProcess driver jiffies mq statuses).pending.skbs = 0 := by
        by_contra present
        obtain ⟨other, listed, same⟩ := List.mem_map.mp
          (List.count_pos_iff.mp (Nat.pos_of_ne_zero present))
        rw [left] at listed
        have earlier := (foldl_statusLeaves_sublist jiffies mq.kind _ statuses).subset listed
        have equal := eq_of_key_eq SkBuff.address pending earlier (single _) same
        rw [equal] at listed
        exact not_reported_of_mem_foldl_statusLeaves single distinctPending listed reports
      rw [nothingLost] at balance
      have unreported := outcome.reported
      unfold tally at balance once
      rw [unreported] at balance
      omega
    · rw [skbs]
      exact (ascending_foldl_insertPlain_iff initial distinctBack).mpr safe

/-- The report that a data frame of a station was filtered. -/
def filteredStatus (pktId : BitVec 32) : TxStatus where
  flags := txStatusFlagsPsFiltered
  pktId := pktId
  tid := 6
  channel := .data
  isStation := true

/-- Two data frames are sent while a third waits. -/
def twoSent : List Operation :=
  [.alloc (System.plainSkb .data 1 1500), .skbTx (System.plainSkb .data 1 1500) none true,
    .alloc (System.plainSkb .data 2 1500), .skbTx (System.plainSkb .data 2 1500) none true,
    .alloc (System.plainSkb .data 3 1500), .skbTx (System.plainSkb .data 3 1500) none true,
    .deqNumItems 2,
    .txComplete 0 [{ System.plainSkb .data 1 1500 with pktId := 0 },
      { System.plainSkb .data 2 1500 with pktId := 1 }]]

theorem refiltered_iff_twoSent :
    ∃ system,
      run (System.step System.defaultDriver) (System.init (.toChip (.data .vo))) twoSent =
        some system ∧
      Refiltered 0 system.mq
        (txStatusProcess System.defaultDriver 0 system.mq [filteredStatus 1, filteredStatus 0])
        [filteredStatus 1, filteredStatus 0] := by
  have reaches : Reaches (System.step System.defaultDriver) (System.Guard System.defaultDriver)
      (System.init (.toChip (.data .vo))) _ :=
    Reaches.of_run twoSent ⟨trivial, trivial, trivial, trivial, trivial, trivial, trivial,
      trivial, trivial⟩ rfl
  refine ⟨_, rfl, ?_⟩
  exact (refiltered_iff System.defaultDriver 0 0 _ _ (System.kept_of_reaches reaches).consistent
    (by decide) (by decide)).mpr (by decide)

/-- One data frame is sent, and the queue then filled with long ones. -/
def nearlyFull : List Operation :=
  [.alloc (System.plainSkb .data 1 5000), .skbTx (System.plainSkb .data 1 5000) none true,
    .deqNumItems 1, .txComplete 0 [System.plainSkb .data 1 5000]] ++
  (List.range 8).flatMap fun number =>
    [.alloc (System.plainSkb .data (number + 2) 65000),
      .skbTx (System.plainSkb .data (number + 2) 65000) none true]

/-- The frame that was sent is returned, does not fit, and is lost. -/
theorem not_refiltered_of_nearlyFull :
    ∃ system,
      run (System.step System.defaultDriver) (System.init (.toChip (.data .vo))) nearlyFull =
        some system ∧
      system.mq.skbqSize = 520000 ∧
      ¬ Refiltered 0 system.mq
        (txStatusProcess System.defaultDriver 0 system.mq [filteredStatus 0])
        [filteredStatus 0] := by
  refine ⟨_, rfl, rfl, ?_⟩
  intro refiltered
  have placed := refiltered.placed { System.plainSkb .data 1 5000 with txStatusExpiry := 1500 }
    (by decide) ⟨filteredStatus 0, List.mem_cons_self, by decide, rfl⟩
  exact absurd placed (by decide)

end Skbq
end Morse
