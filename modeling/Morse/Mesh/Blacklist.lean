import Morse.Mesh.Decisions
import Mathlib.Data.Nat.ModEq

/-!
# Peers that are kept away

Beside the interface stand the peers that were asked to leave, with the time and with the shortest
time out that has been in force since.  In a run in which no peer leaves at a time that is kept as
0 and no time out is too long for a word of milliseconds, none of their beacons, probe responses
and peering frames is passed on before the time out.
-/

namespace Morse
namespace Mesh

open Lib

/-! ## Runs -/

/-- A peer that was asked to leave, when, and for how many seconds. -/
structure Exile where
  peer : Addr
  since : Nat
  timeout : Nat
  deriving DecidableEq

/-- An interface, the ticks so far, and the peers that were asked to leave. -/
structure Node where
  iface : Interface
  now : Nat
  exiles : List Exile
  deriving DecidableEq

/-- What happens at a mesh interface. -/
inductive Event
  | receive (frame : RxMgmt) (sent : Bool)
  | dynamicPeering (conf : DynamicPeeringConfig)
  | activity (active : Bool)
  | stations (stations : StaTable) (numStas : Nat)
  | pass (ticks : Nat)

/-- An exile lasts no longer than a time out that is asked for meanwhile. -/
def Exile.limited (timeout : Nat) (exile : Exile) : Exile :=
  { exile with timeout := min exile.timeout timeout }

/-- Who is told to leave is an exile from then on. -/
def Node.exiled (node : Node) (sent : Bool) (asked : Option Addr) : List Exile :=
  match asked with
  | none => node.exiles
  | some peer =>
    if sent then ⟨peer, node.now, node.iface.mesh.blacklistTimeout.toNat⟩ :: node.exiles
    else node.exiles

section Steps

variable (clock : Clock) (vif : Nat)

/-- What an event leads to. -/
def step (node : Node) : Event → Option Node
  | .receive frame sent =>
    (processMeshRxMgmt clock vif node.now sent frame node.iface).map fun result =>
      { node with iface := result.1, exiles := node.exiled sent result.2.asked }
  | .dynamicPeering conf =>
    some
      { node with
        iface := { node.iface with mesh := node.iface.mesh.peered conf }
        exiles :=
          if conf.enabled = 0 then []
          else node.exiles.map (Exile.limited conf.blacklistTimeout.toNat) }
  | .activity active =>
    some
      { node with
        iface := { node.iface with mesh := { node.iface.mesh with isMeshActive := active } } }
  | .stations stations numStas =>
    some { node with iface := { node.iface with stations := stations, numStas := numStas } }
  | .pass ticks => some { node with now := node.now + ticks }

/-- A time out in milliseconds fits a word. -/
def Fits (timeout : BitVec 32) : Prop := timeout.toNat * 1000 < 4294967296

/-- No peer leaves at a time that is kept as 0, and time outs in milliseconds fit a word. -/
def Timely (node : Node) : Event → Prop
  | .receive frame _ =>
    ∀ sta, Chosen clock vif node.now frame node.iface sta → node.now % 4294967296 ≠ 0
  | .dynamicPeering conf => Fits conf.blacklistTimeout
  | _ => True

/-- The time out of an exile is not over. -/
def Exile.Lasts (now : Nat) (exile : Exile) : Prop :=
  clock.msecsPerJiffy * (now - exile.since) < exile.timeout * 1000

/-- A peer is to be kept away. -/
def Node.KeptAway (node : Node) (peer : Addr) : Prop :=
  ∃ exile ∈ node.exiles, exile.peer = peer ∧ exile.Lasts clock node.now

end Steps

/-- A beacon, a probe response, or a peering frame. -/
def RxMgmt.announces (frame : RxMgmt) : Bool :=
  frame.isS1gBeacon ∨ frame.stype = stypeProbeResp ∨
    (frame.stype = stypeAction ∧ frame.isPeering)

variable {clock : Clock} {vif now : Nat} {sent : Bool} {frame : RxMgmt} {iface : Interface}
  {node next start : Node} {exile : Exile}

/-! ## Time -/

theorem toNat_elapsedMsecs (past : since ≤ now) :
    (clock.elapsedMsecs now (BitVec.ofNat 32 (clock.jiffies since))).toNat =
      clock.msecsPerJiffy * (now - since) % 4294967296 := by
  obtain ⟨words, wide⟩ := clock.wide
  have stamp : (BitVec.ofNat 32 (clock.jiffies since)).toNat = since % 4294967296 := by
    rw [BitVec.toNat_ofNat, Clock.jiffies, Nat.mod_mod_of_dvd _ clock.wide]
  have ticks : (clock.jiffies now + clock.longModulus -
      (BitVec.ofNat 32 (clock.jiffies since)).toNat) % clock.longModulus % 4294967296 =
        (now - since) % 4294967296 := by
    have turns := Nat.mod_add_div now clock.longModulus
    have enough : 0 < words := by
      rcases Nat.eq_zero_or_pos words with rfl | positive
      · have bounded := clock.bounded
        omega
      · exact positive
    rw [Nat.mod_mod_of_dvd _ clock.wide, Clock.jiffies]
    have whole : clock.longModulus * (now / clock.longModulus) =
        4294967296 * (words * (now / clock.longModulus)) := by
      rw [wide, Nat.mul_assoc]
    omega
  exact Nat.ModEq.mul_left _ ticks

theorem released_of_lasts {mesh : MorseMesh} (past : exile.since ≤ now)
    (lasts : exile.Lasts clock now)
    (stamp : mesh.kickoutTs = BitVec.ofNat 32 (clock.jiffies exile.since))
    (within : exile.timeout ≤ mesh.blacklistTimeout.toNat) (fits : Fits mesh.blacklistTimeout) :
    mesh.released clock now = mesh := by
  rw [MorseMesh.released, if_neg]
  rintro ⟨-, expired⟩
  rw [BitVec.le_def, stamp, toNat_elapsedMsecs past, BitVec.toNat_mul] at expired
  rw [Exile.Lasts] at lasts
  have product : mesh.blacklistTimeout.toNat * (1000 : BitVec 32).toNat % 2 ^ 32 =
      mesh.blacklistTimeout.toNat * 1000 := Nat.mod_eq_of_lt fits
  omega

/-! ## What a frame does to the interface -/

theorem processMeshRxMgmt_mesh
    (taken : processMeshRxMgmt clock vif now sent frame iface = some (after, verdict)) :
    ((verdict.asked = none ∨ sent = false) ∧
        (after.mesh = iface.mesh ∨ after.mesh = iface.mesh.released clock now)) ∨
      ∃ sta, Chosen clock vif now frame iface sta ∧ verdict.asked = some sta.addr ∧ sent = true ∧
        after.mesh =
          { iface.mesh.released clock now with
            kickoutPeerAddr := sta.addr
            kickoutTs := BitVec.ofNat 32 (clock.jiffies now) } := by
  by_cases listened : Listened frame iface
  · by_cases blocked : Blocked clock now frame iface
    · rw [processMeshRxMgmt_of_blocked listened blocked] at taken
      cases taken
      exact Or.inl ⟨Or.inl rfl, Or.inr rfl⟩
    · rw [processMeshRxMgmt_of_heard listened blocked] at taken
      cases peerings : frame.noOfPeerings with
      | none =>
        rw [peerings] at taken
        cases taken
      | some count =>
        rw [peerings, Option.bind_some] at taken
        by_cases examined : Examined clock vif now frame iface
        · have zero := examined.2.2.1
          rw [peerings] at zero
          cases zero
          rw [hear_of_examined examined] at taken
          obtain ⟨flags, octet, result⟩ := Option.map_eq_some_iff.mp taken
          cases result
          cases asked : selectPeer vif frame (iface.released clock now) flags with
          | none => exact Or.inl ⟨Or.inl rfl, Or.inr rfl⟩
          | some peer =>
            cases sent with
            | false => exact Or.inl ⟨Or.inr rfl, Or.inr rfl⟩
            | true =>
              obtain ⟨sta, chosen, rfl⟩ :=
                (selectPeer_released_eq_some listened blocked examined octet).mp asked
              exact Or.inr ⟨sta, chosen, rfl, rfl, rfl⟩
        · obtain ⟨heard, leads, mesh⟩ := hear_of_not_examined peerings examined
          rw [leads] at taken
          cases taken
          exact Or.inl ⟨Or.inl rfl, Or.inr mesh⟩
  · obtain ⟨returned, processed⟩ := processMeshRxMgmt_of_not_listened listened
    rw [processed] at taken
    cases taken
    exact Or.inl ⟨Or.inl rfl, Or.inl rfl⟩

/-! ## Exiles are kept away -/

/-- The interface keeps an exile away. -/
structure Kept (clock : Clock) (mesh : MorseMesh) (exile : Exile) : Prop where
  peering : mesh.dynamicPeering = true
  addr : mesh.kickoutPeerAddr = exile.peer
  stamp : mesh.kickoutTs = BitVec.ofNat 32 (clock.jiffies exile.since)
  marked : mesh.kickoutTs ≠ 0
  within : exile.timeout ≤ mesh.blacklistTimeout.toNat

/-- Time outs fit, and exiles are from the past and are kept away as long as they last. -/
structure Held (clock : Clock) (node : Node) : Prop where
  fits : Fits node.iface.mesh.blacklistTimeout
  past : ∀ exile ∈ node.exiles, exile.since ≤ node.now
  kept : ∀ exile ∈ node.exiles, exile.Lasts clock node.now → Kept clock node.iface.mesh exile

theorem Held.released (held : Held clock node) (listed : exile ∈ node.exiles)
    (lasts : exile.Lasts clock node.now) :
    node.iface.mesh.released clock node.now = node.iface.mesh := by
  have kept := held.kept exile listed lasts
  exact released_of_lasts (held.past exile listed) lasts kept.stamp kept.within held.fits

theorem ofNat_jiffies_ne_zero (marked : now % 4294967296 ≠ 0) :
    BitVec.ofNat 32 (clock.jiffies now) ≠ 0 := by
  intro zero
  apply marked
  have number := congrArg BitVec.toNat zero
  rw [BitVec.toNat_ofNat, Clock.jiffies, Nat.mod_mod_of_dvd _ clock.wide] at number
  exact number

theorem lasts_of_limited (lasts : (exile.limited timeout).Lasts clock now) :
    exile.Lasts clock now := by
  have shorter : (exile.limited timeout).timeout ≤ exile.timeout := Nat.min_le_left _ _
  exact Nat.lt_of_lt_of_le lasts (Nat.mul_le_mul_right _ shorter)

theorem lasts_of_later (lasts : exile.Lasts clock (now + ticks)) :
    exile.Lasts clock now := by
  rw [Exile.Lasts] at lasts ⊢
  have less : clock.msecsPerJiffy * (now - exile.since) ≤
      clock.msecsPerJiffy * (now + ticks - exile.since) :=
    Nat.mul_le_mul_left _ (by omega)
  omega

theorem exiled_of_nobody {asked : Option Addr} (nobody : asked = none ∨ sent = false) :
    node.exiled sent asked = node.exiles := by
  cases asked with
  | none => rfl
  | some peer =>
    rcases nobody with missing | rfl
    · cases missing
    · rfl

theorem Held.receive (held : Held clock node) (timely : Timely clock vif node (.receive frame sent))
    (taken : step clock vif node (.receive frame sent) = some next) :
    Held clock next := by
  obtain ⟨⟨after, verdict⟩, processed, rfl⟩ := Option.map_eq_some_iff.mp taken
  rcases processMeshRxMgmt_mesh processed with ⟨nobody, same⟩ | ⟨sta, chosen, asked, rfl, mesh⟩
  · have exiles : node.exiled sent verdict.asked = node.exiles := exiled_of_nobody nobody
    have fits : Fits after.mesh.blacklistTimeout := by
      rcases same with same | same
      · rw [same]
        exact held.fits
      · rw [same, (released_mesh clock node.now node.iface.mesh).2.2.2.2.2]
        exact held.fits
    refine ⟨fits, ?_, ?_⟩
    · rw [exiles]
      exact held.past
    · rw [exiles]
      intro exile listed lasts
      rcases same with same | same
      · rw [same]
        exact held.kept exile listed lasts
      · rw [same, held.released listed lasts]
        exact held.kept exile listed lasts
  · obtain ⟨plinks, margin, length, own, peering, timeout⟩ :=
      released_mesh clock node.now node.iface.mesh
    have exiles : node.exiled true verdict.asked =
        ⟨sta.addr, node.now, node.iface.mesh.blacklistTimeout.toNat⟩ :: node.exiles := by
      rw [asked]
      rfl
    refine ⟨?_, ?_, ?_⟩
    · rw [mesh, timeout]
      exact held.fits
    · rw [exiles]
      intro exile listed
      rcases List.mem_cons.mp listed with rfl | before
      · exact Nat.le_refl _
      · exact held.past exile before
    · rw [exiles]
      intro exile listed lasts
      rcases List.mem_cons.mp listed with rfl | before
      · have looked := chosen.1.2.2
        rw [listens, decide_eq_true_eq] at looked
        have marked : BitVec.ofNat 32 (clock.jiffies node.now) ≠ 0 :=
          ofNat_jiffies_ne_zero (timely sta chosen)
        rw [mesh]
        refine ⟨?_, rfl, rfl, marked, ?_⟩
        · rw [peering]
          exact looked.1
        · rw [timeout]
      · have free := chosen.2.2.1.2.1
        rw [held.released before lasts] at free
        exact absurd free (held.kept exile before lasts).marked

theorem Held.dynamicPeering (held : Held clock node) (fits : Fits conf.blacklistTimeout)
    (taken : step clock vif node (.dynamicPeering conf) = some next) :
    Held clock next := by
  cases taken
  by_cases off : conf.enabled = 0
  · refine ⟨fits, ?_, ?_⟩
    · rw [if_pos off]
      intro exile listed
      cases listed
    · rw [if_pos off]
      intro exile listed
      cases listed
  · refine ⟨fits, ?_, ?_⟩
    · rw [if_neg off]
      intro exile listed
      obtain ⟨former, before, rfl⟩ := List.mem_map.mp listed
      exact held.past former before
    · rw [if_neg off]
      intro exile listed lasts
      obtain ⟨former, before, rfl⟩ := List.mem_map.mp listed
      have kept := held.kept former before (lasts_of_limited lasts)
      refine ⟨?_, kept.addr, kept.stamp, kept.marked, ?_⟩
      · exact bne_iff_ne.mpr off
      · exact Nat.min_le_right _ _

theorem Held.step (held : Held clock node) (timely : Timely clock vif node event)
    (taken : step clock vif node event = some next) :
    Held clock next := by
  cases event with
  | receive frame sent => exact held.receive timely taken
  | dynamicPeering conf => exact held.dynamicPeering timely taken
  | activity active =>
    cases taken
    refine ⟨held.fits, held.past, ?_⟩
    intro exile listed lasts
    have kept := held.kept exile listed lasts
    exact ⟨kept.peering, kept.addr, kept.stamp, kept.marked, kept.within⟩
  | stations stations numStas =>
    cases taken
    exact ⟨held.fits, held.past, held.kept⟩
  | pass ticks =>
    cases taken
    refine ⟨held.fits, ?_, ?_⟩
    · intro exile listed
      exact Nat.le_trans (held.past exile listed) (Nat.le_add_right _ _)
    · intro exile listed lasts
      exact held.kept exile listed (lasts_of_later lasts)

/-! ## Frames of exiles -/

theorem stype_of_isS1gBeacon (beacon : frame.isS1gBeacon = true) :
    frame.stype = RxMgmt.stypeS1gBeacon := by
  rw [RxMgmt.isS1gBeacon, decide_eq_true_eq] at beacon
  have narrow : frame.stype = (frame.frameControl &&& 0xFC#16) &&& 0xF0#16 := by
    rw [BitVec.and_assoc]
    rfl
  rw [narrow, beacon]
  rfl

theorem isFrameAllowed_of_announces (announces : frame.announces = true) :
    frame.isFrameAllowed = false := by
  rw [RxMgmt.announces, decide_eq_true_eq] at announces
  rw [RxMgmt.isFrameAllowed]
  rcases announces with beacon | response | ⟨action, peering⟩
  · rw [if_pos (Or.inl (stype_of_isS1gBeacon beacon))]
  · rw [if_pos (Or.inr response)]
  · split
    · rfl
    · rw [if_pos ⟨action, peering⟩]

theorem listened_of_announces (announces : frame.announces = true)
    (active : iface.mesh.isMeshActive = true) (peering : iface.mesh.dynamicPeering = true) :
    Listened frame iface := by
  rw [RxMgmt.announces, decide_eq_true_eq] at announces
  refine ⟨active, ?_, ?_⟩
  · rintro ⟨-, request⟩
    rcases announces with beacon | response | ⟨action, -⟩
    · rw [stype_of_isS1gBeacon beacon] at request
      exact absurd request (by decide)
    · rw [response] at request
      exact absurd request (by decide)
    · rw [action] at request
      exact absurd request (by decide)
  · rw [listens, decide_eq_true_eq]
    refine ⟨peering, ?_⟩
    rcases announces with beacon | response | ⟨action, -⟩
    · exact Or.inl beacon
    · exact Or.inr (Or.inr response)
    · exact Or.inr (Or.inl action)

theorem Held.drops (held : Held clock node) (active : node.iface.mesh.isMeshActive = true)
    (announces : frame.announces = true) (away : node.KeptAway clock frame.source) :
    processMeshRxMgmt clock vif node.now sent frame node.iface =
      some (node.iface.released clock node.now, ⟨some .eacces, none⟩) := by
  obtain ⟨exile, listed, same, lasts⟩ := away
  have kept := held.kept exile listed lasts
  apply processMeshRxMgmt_of_blocked (listened_of_announces announces active kept.peering)
  refine ⟨?_, isFrameAllowed_of_announces announces⟩
  rw [held.released listed lasts, kept.addr, same]

/-- Frames are decided on rightly exactly when they are harmless, and in every timely run no
beacon, probe response or peering frame of a peer that is to be kept away is passed on. -/
theorem dynamicPeering_meets (clock : Clock) (vif : Nat) :
    (∀ now sent frame iface,
      Sound clock vif now sent frame iface ↔ Harmless clock vif now frame iface) ∧
    ∀ start node, start.exiles = [] → Fits start.iface.mesh.blacklistTimeout →
      Reaches (step clock vif) (Timely clock vif) start node →
      ∀ frame sent after verdict, node.iface.mesh.isMeshActive = true →
        frame.announces = true → node.KeptAway clock frame.source →
        processMeshRxMgmt clock vif node.now sent frame node.iface = some (after, verdict) →
        verdict.returned = some .eacces := by
  refine ⟨fun now sent frame iface => sound_iff, ?_⟩
  intro start node nobody fits reaches frame sent after verdict active announces away taken
  have initial : Held clock start := by
    refine ⟨fits, ?_, ?_⟩
    · rw [nobody]
      intro exile listed
      cases listed
    · rw [nobody]
      intro exile listed
      cases listed
  have held : Held clock node := reaches.invariant initial Held.step
  rw [held.drops active announces away] at taken
  cases taken
  rfl

/-! ## A full table and a stranger -/

/-- Ticks of a millisecond in a word of 64 bits. -/
def plainClock : Clock where
  longModulus := 18446744073709551616
  wide := by decide
  bounded := by decide
  msecsPerJiffy := 1
  positive := by decide

/-- An interface whose only place is taken by a weak peer with so many peerings. -/
def fullIface (peerings : BitVec 8) : Interface where
  mesh :=
    { meshInit with
      isMeshActive := true
      meshId := noMeshId.set 0 0x61#8
      meshIdLen := 1
      maxPlinks := 1
      dynamicPeering := true }
  numStas := 1
  stations := ⟨[⟨7, 0, -90, peerings⟩], List.nodup_singleton _⟩

/-- A beacon of a mesh station that is received well. -/
def plainBeacon (source : Addr) (meshConf : Option (List (BitVec 8))) : RxMgmt where
  frameControl := 0x1C#16
  da := source
  sa := 0
  category := 0
  actionCode := 0
  meshId := some [0x61#8]
  meshConf := meshConf
  signal := -50

/-- The mesh configuration of a station without peers that takes some. -/
def openConf : List (BitVec 8) := [1, 1, 0, 1, 0, 0, 1]

/-- The weak peer left, and its time out is over in a tick. -/
def keptNode : Node where
  iface :=
    { fullIface 2 with
      mesh := { (fullIface 2).mesh with kickoutPeerAddr := 7, kickoutTs := 1 } }
  now := 30000
  exiles := [⟨7, 1, 30⟩]

theorem dynamicPeering_meets_beacon :
    Sound plainClock 0 1 true (plainBeacon 9 (some openConf)) (fullIface 2) ∧
      run (step plainClock 0) ⟨fullIface 2, 1, []⟩
          [.receive (plainBeacon 9 (some openConf)) true, .pass 29999] = some keptNode ∧
        keptNode.KeptAway plainClock 7 ∧
        ∀ after verdict, processMeshRxMgmt plainClock 0 keptNode.now true
            (plainBeacon 7 (some openConf)) keptNode.iface = some (after, verdict) →
          verdict.returned = some .eacces := by
  constructor
  · refine ((dynamicPeering_meets plainClock 0).1 1 true _ _).mpr ⟨?_, ?_, ?_⟩
    · intro _ _ conf present
      cases present
      decide
    · intro _ _ _
      exact ⟨openConf, rfl, by decide⟩
    · intro sta chosen
      have listed := (mem_candidates.mp (List.argmin_mem chosen.2.2.2.2.1)).1
      rcases List.mem_singleton.mp listed with rfl
      decide
  · have finishes : run (step plainClock 0) ⟨fullIface 2, 1, []⟩
        [.receive (plainBeacon 9 (some openConf)) true, .pass 29999] = some keptNode := by
      decide
    have away : keptNode.KeptAway plainClock 7 := by
      refine ⟨⟨7, 1, 30⟩, List.mem_singleton.mpr rfl, rfl, ?_⟩
      unfold Exile.Lasts
      decide
    refine ⟨finishes, away, ?_⟩
    intro after verdict taken
    refine (dynamicPeering_meets plainClock 0).2 ⟨fullIface 2, 1, []⟩ keptNode rfl ?_
      (Reaches.of_run _ ?_ finishes) (plainBeacon 7 (some openConf)) true after verdict rfl rfl
      away taken
    · unfold Fits
      decide
    · refine ⟨?_, trivial, trivial⟩
      intro sta chosen
      decide

/-- A beacon without a mesh configuration is read beyond it, a peer without known peers is asked
to leave, and a time out of fifty days is over within a second. -/
theorem dynamicPeering_fails :
    ¬ Sound plainClock 0 1 true (plainBeacon 9 none) (fullIface 2) ∧
      ¬ Sound plainClock 0 1 true (plainBeacon 9 (some openConf)) (fullIface 0) ∧
      ∃ node, run (step plainClock 0) ⟨fullIface 2, 1, []⟩
          [.dynamicPeering ⟨1, 5, 4294968⟩, .receive (plainBeacon 9 (some openConf)) true,
            .pass 1000] = some node ∧
        node.KeptAway plainClock 7 ∧
        ∃ after, processMeshRxMgmt plainClock 0 node.now true (plainBeacon 7 (some openConf))
          node.iface = some (after, ⟨none, none⟩) := by
  refine ⟨?_, ?_, ?_⟩
  · rintro ⟨after, verdict, taken, -⟩
    cases taken
  · rintro ⟨after, verdict, taken, right⟩
    have asked : (processMeshRxMgmt plainClock 0 1 true (plainBeacon 9 (some openConf))
        (fullIface 0)).map (fun result => result.2.asked) = some (some 7) := by
      decide
    rw [taken, Option.map_some, Option.some_inj] at asked
    obtain ⟨sta, listed, -, -, more, -⟩ := (right 7 asked).weakest
    rcases List.mem_singleton.mp listed with rfl
    exact absurd more (by decide)
  · refine ⟨_, rfl, ⟨⟨7, 1, 4294968⟩, List.mem_singleton.mpr rfl, rfl, ?_⟩, ⟨_, rfl⟩⟩
    unfold Exile.Lasts
    decide

end Mesh
end Morse
