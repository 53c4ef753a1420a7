import Morse.Twt.Defs
import Mathlib.Tactic.Common

/-!
# Replayed management frames

The driver processes TWT setup and teardown frames itself, and so it compares their packet numbers
with the last one of the station.  That number starts again when a pairwise key is installed, and is
part of what is kept of a station while it is away.
-/

namespace Morse
namespace Twt
namespace Replay

open Lib

/-! ## Frames -/

/-- The octets of a received frame. -/
abbrev RxFrame := Nat → BitVec 8

/-- A protected action frame. -/
def IsProtectedAction (frame : RxFrame) : Prop :=
  frame 0 &&& 0xFC = 0xD0 ∧ frame 1 &&& 0x40 ≠ 0

instance (frame : RxFrame) : Decidable (IsProtectedAction frame) :=
  inferInstanceAs (Decidable (_ ∧ _))

/-- `ieee80211_get_hdrlen_from_skb` of a management frame. -/
def hdrLen (frame : RxFrame) : Nat := if frame 1 &&& 0x80 ≠ 0 then 28 else 24

/-- The category of an action frame behind a CCMP header. -/
def category (frame : RxFrame) : BitVec 8 := frame 32

/-- The action code of an action frame behind a CCMP header. -/
def actionCode (frame : RxFrame) : BitVec 8 := frame 33

/-- `WLAN_S1G_PROTECTED_TWT_SETUP` or `WLAN_S1G_PROTECTED_TWT_TEARDOWN`. -/
def HasTwtCode (frame : RxFrame) : Prop := actionCode frame = 4 ∨ actionCode frame = 5

instance (frame : RxFrame) : Decidable (HasTwtCode frame) := inferInstanceAs (Decidable (_ ∨ _))

/-- A protected TWT setup or teardown frame. -/
def IsTwt (frame : RxFrame) : Prop := category frame = 23 ∧ HasTwtCode frame

instance (frame : RxFrame) : Decidable (IsTwt frame) := inferInstanceAs (Decidable (_ ∧ _))

/-- The packet number in the CCMP header, in six octets around the octet for the key. -/
def packetNumber (frame : RxFrame) : Nat :=
  let octet (place : Nat) := frame (hdrLen frame + place)
  (octet 7 ++ octet 6 ++ octet 5 ++ octet 4 ++ octet 1 ++ octet 0).toNat

/-- The frames whose number is compared. -/
def IsCompared (frame : RxFrame) : Prop := ¬(category frame ≠ 23 ∧ ¬HasTwtCode frame)

instance (frame : RxFrame) : Decidable (IsCompared frame) := inferInstanceAs (Decidable ¬_)

/-- `morse_rx_mgmt_ccmp_replay_check`: whether a replay is detected, and the last number. -/
def replayCheck (frame : RxFrame) (last : Nat) : Bool × Nat :=
  if ¬IsCompared frame then (false, last)
  else if packetNumber frame ≤ last then (true, last)
  else (false, packetNumber frame)

/-! ## Stations -/

/-- What counts of `struct morse_sta`. -/
structure MorseSta where
  assocReqCount : BitVec 8
  timeout : BitVec 64
  lastRxMgmtPn : Nat
  deriving DecidableEq

/-- A station in the table: whether its management frames are protected, whether it has a pairwise
key, and the numbers of the TWT frames that were accepted under it, the last one first. -/
structure Peer where
  sta : MorseSta
  mfp : Bool
  key : Bool
  accepted : List Nat

/-- An interface, with its stations and their backups. -/
structure Iface where
  peers : Addr → Option Peer
  backups : List (Addr × MorseSta)

/-- An empty slot. -/
def noBackup : Addr × MorseSta := (0, ⟨0, 0, 0⟩)

/-- `morse_mac_save_sta_backup`, where `msecs_to_jiffies(STA_PRIV_TIMEOUT_MSEC)` is `lifetime`. -/
def saveStaBackup (lifetime jiffies : BitVec 64) (addr : Addr) (sta : MorseSta) :
    List (Addr × MorseSta) → List (Addr × MorseSta)
  | [] => []
  | slot :: rest =>
    if slot.2.assocReqCount = 0 ∨ (slot.2.timeout - jiffies).msb then
      (addr, { sta with timeout := jiffies + lifetime }) :: rest
    else slot :: saveStaBackup lifetime jiffies addr sta rest

/-- `morse_mac_restore_sta_backup`. -/
def restoreStaBackup (addr : Addr) :
    List (Addr × MorseSta) → Option (MorseSta × List (Addr × MorseSta))
  | [] => none
  | slot :: rest =>
    if 0 < slot.2.assocReqCount ∧ slot.1 = addr then some (slot.2, noBackup :: rest)
    else (restoreStaBackup addr rest).map fun found => (found.1, slot :: found.2)

/-- `enum ieee80211_sta_state`, in its order. -/
inductive StaState
  | notexist
  | none
  | auth
  | assoc
  | authorized
  deriving DecidableEq

/-- The place of a state in the order. -/
def StaState.rank : StaState → Nat
  | notexist => 0
  | none => 1
  | auth => 2
  | assoc => 3
  | authorized => 4

/-- `morse_mac_ops_sta_state` for the private data of a station and the backups. -/
def staState
    (lifetime jiffies : BitVec 64)
    (old new : StaState)
    (addr : Addr)
    (sta : MorseSta)
    (backups : List (Addr × MorseSta)) :
    MorseSta × List (Addr × MorseSta) :=
  if old.rank + new.rank = 1 then (sta, backups)
  else
    let backups :=
      if StaState.none.rank < old.rank ∧ new.rank ≤ StaState.none.rank ∧ 1 < sta.assocReqCount then
        saveStaBackup lifetime jiffies addr sta backups
      else backups
    let sta := if StaState.assoc.rank < new.rank then { sta with assocReqCount := 0 } else sta
    if old.rank < new.rank ∧ new = .assoc then (restoreStaBackup addr backups).getD (sta, backups)
    else (sta, backups)

/-- The check of `morse_mac_process_s1g_mgmt` for a frame of a station, and whether the frame is
accepted. -/
def Peer.receive (peer : Peer) (frame : RxFrame) : Peer × Bool :=
  if IsProtectedAction frame ∧ peer.mfp then
    let checked := replayCheck frame peer.sta.lastRxMgmtPn
    if checked.1 then (peer, false)
    else
      ({ peer with
        sta := { peer.sta with lastRxMgmtPn := checked.2 }
        accepted :=
          if IsTwt frame then packetNumber frame :: peer.accepted else peer.accepted }, true)
  else (peer, true)

/-- What happens at an interface.  Setting a key comes with what `morse_cmd_install_key` returns;
where it fails mac80211 uses the key in software. -/
inductive Action
  | add (addr : Addr) (mfp : Bool)
  | remove (addr : Addr)
  | assocReq (addr : Addr)
  | setKey (addr : Addr) (ret : Int)
  | disableKey (addr : Addr)
  | staState (addr : Addr) (old new : StaState) (jiffies : BitVec 64)
  | receive (addr : Addr) (frame : RxFrame)

/-- A station of an interface changes. -/
def Iface.put (iface : Iface) (addr : Addr) (peer : Option Peer) : Iface :=
  { iface with peers := Function.update iface.peers addr peer }

/-- `morse_mac_ops_set_key` for a pairwise key. -/
def Peer.setKey (peer : Peer) (ret : Int) : Peer :=
  { peer with
    sta := if ret = 0 then { peer.sta with lastRxMgmtPn := 0 } else peer.sta
    key := true
    accepted := [] }

/-- A step of an interface. -/
def step (lifetime : BitVec 64) (iface : Iface) : Action → Option Iface
  | .add addr mfp => some (iface.put addr (some ⟨⟨0, 0, 0⟩, mfp, false, []⟩))
  | .remove addr => some (iface.put addr none)
  | .assocReq addr => (iface.peers addr).map fun peer =>
    iface.put addr (some { peer with
      sta := { peer.sta with assocReqCount := peer.sta.assocReqCount + 1 } })
  | .setKey addr ret => (iface.peers addr).map fun peer => iface.put addr (some (peer.setKey ret))
  | .disableKey addr => (iface.peers addr).map fun peer =>
    iface.put addr (some { peer with
      sta := { peer.sta with lastRxMgmtPn := 0 }, key := false, accepted := [] })
  | .staState addr old new jiffies => (iface.peers addr).map fun peer =>
    let done := Replay.staState lifetime jiffies old new addr peer.sta iface.backups
    { iface.put addr (some { peer with sta := done.1 }) with backups := done.2 }
  | .receive addr frame => (iface.peers addr).map fun peer =>
    iface.put addr (some (peer.receive frame).1)

/-- At the start there are no stations, and all slots are empty. -/
def start : Iface := ⟨fun _ => none, List.replicate 10 noBackup⟩

/-- Frames under one key are accepted in the order of their numbers, other frames do not count, a
rejected frame changes nothing, and the first one under a key is accepted.  Numbers begin with 1
under a key. -/
structure Peer.Sound (peer : Peer) : Prop where
  increasing : peer.key = true → peer.accepted.Pairwise (· > ·)
  others : ∀ frame, ¬IsProtectedAction frame → (peer.receive frame).1 = peer
  rejected : ∀ frame, (peer.receive frame).2 = false → (peer.receive frame).1 = peer
  first : peer.key = true → peer.accepted = [] → ∀ frame, IsTwt frame → 0 < packetNumber frame →
    (peer.receive frame).2 = true

/-- All stations of an interface are sound. -/
def Iface.Sound (iface : Iface) : Prop := ∀ addr peer, iface.peers addr = some peer → peer.Sound

/-- The chip takes each pairwise key, no backup is restored while there is a key, and frames whose
number is compared are TWT frames. -/
def Iface.Regular (iface : Iface) : Action → Prop
  | .setKey _ ret => ret = 0
  | .staState addr old new _ =>
    old.rank < new.rank → new = .assoc → (restoreStaBackup addr iface.backups).isSome →
      ∀ peer, iface.peers addr = some peer → peer.key = false
  | .receive _ frame => IsProtectedAction frame → IsCompared frame → IsTwt frame
  | _ => True

/-- Under a key the last number is that of the last accepted frame, if there is one. -/
def Peer.Kept (peer : Peer) : Prop :=
  peer.key = true → peer.accepted.Pairwise (· > ·) ∧
    peer.sta.lastRxMgmtPn = peer.accepted.headD 0

theorem Peer.Kept.sound {peer : Peer} (kept : peer.Kept) :
    peer.Sound := by
  refine ⟨fun key => (kept key).1, fun frame other => ?_, fun frame rejected => ?_,
    fun key unused frame twt positive => ?_⟩
  · rw [Peer.receive, if_neg fun both => other both.1]
  · unfold Peer.receive at rejected ⊢
    dsimp only at rejected ⊢
    split at rejected
    case isTrue counts =>
      split at rejected
      case isTrue replayed => rw [if_pos counts, if_pos replayed]
      · cases rejected
    · cases rejected
  · have last := (kept key).2
    rw [unused, List.headD_nil] at last
    have compared : IsCompared frame := fun skipped => skipped.1 twt.1
    unfold Peer.receive replayCheck
    rw [last, if_neg (Nat.not_le.mpr positive)]
    split
    · rfl
    · rfl

theorem Peer.Kept.receive {peer : Peer} (kept : peer.Kept)
    (regular : IsProtectedAction frame → IsCompared frame → IsTwt frame) :
    (peer.receive frame).1.Kept := by
  unfold Peer.receive replayCheck
  split
  case isFalse => exact kept
  case isTrue counts =>
    by_cases compared : IsCompared frame
    · rw [if_neg (not_not.mpr compared), if_pos (regular counts.1 compared)]
      by_cases replayed : packetNumber frame ≤ peer.sta.lastRxMgmtPn
      · rw [if_pos replayed]
        exact kept
      · have newer := Nat.not_le.mp replayed
        rw [if_neg replayed]
        intro key
        obtain ⟨increasing, last⟩ := kept key
        refine ⟨List.pairwise_cons.mpr ⟨fun number isIn => ?_, increasing⟩, rfl⟩
        rw [last] at newer
        generalize peer.accepted = accepted at increasing newer isIn
        cases accepted with
        | nil => cases isIn
        | cons head rest =>
          obtain rfl | before := List.mem_cons.mp isIn
          · exact newer
          · exact Nat.lt_trans (List.rel_of_pairwise_cons increasing before) newer
    · have other : ¬IsTwt frame := fun twt => compared fun skipped => skipped.1 twt.1
      rw [if_pos compared, if_neg other]
      exact kept

theorem staState_lastRxMgmtPn (lifetime jiffies : BitVec 64) (sta : MorseSta)
    (unrestored : old.rank < new.rank → new = .assoc → restoreStaBackup addr backups = none) :
    (staState lifetime jiffies old new addr sta backups).1.lastRxMgmtPn = sta.lastRxMgmtPn := by
  have same : (if StaState.assoc.rank < new.rank then { sta with assocReqCount := 0 }
      else sta).lastRxMgmtPn = sta.lastRxMgmtPn := by
    split
    · rfl
    · rfl
  unfold staState
  split
  · rfl
  · dsimp only
    split
    case isTrue up =>
      have stays : ¬(StaState.none.rank < old.rank ∧ new.rank ≤ StaState.none.rank ∧
          1 < sta.assocReqCount) := by
        omega
      rw [if_neg stays, unrestored up.1 up.2]
      exact same
    · exact same

/-- In every run whose steps are regular all stations are sound. -/
theorem replaySound_of_reaches {lifetime : BitVec 64} {iface : Iface}
    (reaches : Reaches (step lifetime) Iface.Regular start iface) :
    iface.Sound := by
  have kept : ∀ addr peer, iface.peers addr = some peer → peer.Kept := by
    refine @Reaches.invariant _ _ _ _ _ _
      (fun iface : Iface => ∀ addr peer, iface.peers addr = some peer → peer.Kept) ?_ ?_ reaches
    · intro addr peer none
      cases none
    · intro before action after kept regular taken
      have put {target : Addr} {changed : Option Peer}
          (good : ∀ peer, changed = some peer → peer.Kept) :
          ∀ addr peer, (before.put target changed).peers addr = some peer → peer.Kept := by
        intro addr peer found
        dsimp only [Iface.put] at found
        by_cases same : addr = target
        · subst same
          exact good peer (by rwa [Function.update_self] at found)
        · exact kept addr peer (by rwa [Function.update_of_ne same] at found)
      have change {target : Addr} {next : Peer → Iface} {changed : Peer → Peer}
          (done : (before.peers target).map next = some after)
          (peers : ∀ peer, (next peer).peers = (before.put target (some (changed peer))).peers)
          (good : ∀ peer, before.peers target = some peer → peer.Kept → (changed peer).Kept) :
          ∀ addr peer, after.peers addr = some peer → peer.Kept := by
        obtain ⟨peer, found, rfl⟩ := Option.map_eq_some_iff.mp done
        rw [peers]
        refine put fun other is => ?_
        rw [← Option.some.inj is]
        exact good peer found (kept target peer found)
      cases action with
      | add addr mfp =>
        cases taken
        refine put fun peer is => ?_
        obtain rfl := Option.some.inj is
        intro key
        cases key
      | remove addr =>
        cases taken
        refine put fun peer is => ?_
        cases is
      | assocReq addr => exact change taken (fun _ => rfl) fun _ _ good => good
      | setKey addr ret =>
        refine change taken (fun _ => rfl) fun peer _ _ _ => ⟨.nil, ?_⟩
        rw [Peer.setKey, if_pos (show ret = 0 from regular)]
        rfl
      | disableKey addr =>
        refine change taken (fun _ => rfl) fun peer _ _ key => ?_
        cases key
      | staState addr old new jiffies =>
        refine change taken (fun _ => rfl) fun peer found good key => ?_
        refine ⟨(good key).1, (staState_lastRxMgmtPn lifetime jiffies peer.sta ?_).trans
          (good key).2⟩
        intro up isAssoc
        by_contra restored
        have keyless := regular up isAssoc (Option.isSome_iff_ne_none.mpr restored) peer found
        rw [keyless] at key
        cases key
      | receive addr frame =>
        exact change taken (fun _ => rfl) fun peer _ good => good.receive regular
  exact fun addr peer found => (kept addr peer found).sound

/-- A protected TWT setup frame with a packet number below 256. -/
def twtFrame (number : BitVec 8) : RxFrame := fun place =>
  if place = 0 then 0xD0 else if place = 1 then 0x40 else if place = 24 then number
  else if place = 32 then 23 else if place = 33 then 4 else 0

/-- A station gets a key, sends a frame that is then sent again by another one, goes, comes back
and gets another key. -/
def rekeyed : List Action :=
  [.add 1 true, .assocReq 1, .assocReq 1, .setKey 1 0, .receive 1 (twtFrame 5),
    .receive 1 (twtFrame 5), .disableKey 1, .staState 1 .auth .none 0, .staState 1 .auth .assoc 0,
    .setKey 1 0, .receive 1 (twtFrame 1)]

theorem sound_rekeyed : ∃ iface, run (step 2000) start rekeyed = some iface ∧ iface.Sound := by
  refine ⟨_, rfl, replaySound_of_reaches (.of_run rekeyed ?_ rfl)⟩
  refine ⟨trivial, trivial, trivial, rfl, fun _ _ => by decide, fun _ _ => by decide, trivial,
    fun up => absurd up (by decide), fun _ _ _ peer is => ?_, rfl, fun _ _ => by decide, trivial⟩
  obtain rfl := Option.some.inj is
  rfl

/-- The first frame under a new key is taken for a replay when the chip does not take the key, and
when a backup is restored behind the key. -/
theorem not_sound_of_last :
    (∃ iface, run (step 2000) start [.add 1 true, .setKey 1 0, .receive 1 (twtFrame 5),
      .setKey 1 (-95)] = some iface ∧ ¬iface.Sound) ∧
    ∃ iface, run (step 2000) start [.add 1 true, .assocReq 1, .assocReq 1, .setKey 1 0,
      .receive 1 (twtFrame 5), .staState 1 .auth .none 0, .setKey 1 0,
      .staState 1 .auth .assoc 0] = some iface ∧ ¬iface.Sound := by
  refine ⟨⟨_, rfl, fun sound => ?_⟩, ⟨_, rfl, fun sound => ?_⟩⟩
  · have first := (sound 1 _ rfl).first rfl rfl (twtFrame 1) (by decide) (by decide)
    exact absurd first (by decide)
  · have first := (sound 1 _ rfl).first rfl rfl (twtFrame 1) (by decide) (by decide)
    exact absurd first (by decide)

end Replay
end Twt
end Morse
