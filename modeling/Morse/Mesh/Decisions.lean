import Morse.Mesh.Peering

/-!
# When dynamic peering decides rightly

The iteration over the stations leaves the first of the weakest candidates.  A frame that is
looked at is read within its elements, and nobody is asked to leave without need, exactly when the
frame has the octets that are read and the weakest candidate has other peers.
-/

namespace Morse
namespace Mesh

variable {clock : Clock} {vif now : Nat} {sent : Bool} {frame : RxMgmt} {iface : Interface}

/-! ## The weakest peer -/

/-- What the iteration keeps of a station. -/
def MorseSta.asLowest (sta : MorseSta) : LowestPeer := ⟨sta.avgRssi, sta.addr⟩

theorem peerWithLowestRssi_eq (lowest : Option MorseSta) (sta : MorseSta) :
    peerWithLowestRssi vif (lowest.map MorseSta.asLowest) sta =
      if sta.vif = vif ∧ sta.meshNoOfPeerings ≠ 1 then
        (List.argAux (fun first second => first.avgRssi < second.avgRssi) lowest sta).map
          MorseSta.asLowest
      else lowest.map MorseSta.asLowest := by
  unfold peerWithLowestRssi
  by_cases own : sta.vif = vif
  · by_cases single : sta.meshNoOfPeerings = 1
    · rw [if_neg (not_not.mpr own), if_pos single, if_neg]
      exact fun both => both.2 single
    · rw [if_neg (not_not.mpr own), if_neg single, if_pos ⟨own, single⟩]
      cases lowest with
      | none => rfl
      | some found =>
        rw [List.argAux]
        dsimp only [Option.map_some, MorseSta.asLowest]
        split
        · rfl
        · rfl
  · rw [if_pos own, if_neg]
    exact fun both => own both.1

theorem foldl_peerWithLowestRssi (stations : List MorseSta) (lowest : Option MorseSta) :
    stations.foldl (peerWithLowestRssi vif) (lowest.map MorseSta.asLowest) =
      ((candidates vif stations).foldl
        (List.argAux fun first second => first.avgRssi < second.avgRssi) lowest).map
          MorseSta.asLowest := by
  induction stations generalizing lowest with
  | nil => rfl
  | cons sta rest ih =>
    rw [List.foldl_cons, peerWithLowestRssi_eq, candidates, List.filter_cons, ← candidates]
    by_cases candidate : sta.vif = vif ∧ sta.meshNoOfPeerings ≠ 1
    · rw [if_pos candidate, if_pos (decide_eq_true candidate), List.foldl_cons, ih]
    · rw [if_neg candidate, decide_eq_false candidate, if_neg Bool.false_ne_true, ih]

theorem lowestPeer_eq (stations : List MorseSta) :
    lowestPeer vif stations =
      ((candidates vif stations).argmin MorseSta.avgRssi).map MorseSta.asLowest :=
  foldl_peerWithLowestRssi stations none

theorem selectPeer_eq_some :
    selectPeer vif frame iface flags = some peer ↔
      flags &&& 1 ≠ 0 ∧
        ∃ sta ∈ (candidates vif iface.stations.entries).argmin MorseSta.avgRssi,
          sta.addr = peer ∧ sta.avgRssi + iface.mesh.rssiMargin.toNat < frame.signal := by
  rw [selectPeer, lowestPeer_eq]
  by_cases closed : flags &&& 1 = 0
  · rw [if_pos closed]
    constructor
    · intro some
      cases some
    · intro both
      exact absurd closed both.1
  · rw [if_neg closed]
    cases least : (candidates vif iface.stations.entries).argmin MorseSta.avgRssi with
    | none =>
      constructor
      · intro some
        cases some
      · rintro ⟨-, sta, chosen, -⟩
        cases chosen
    | some sta =>
      dsimp only [Option.map_some, MorseSta.asLowest]
      constructor
      · intro asked
        split at asked
        · next weaker =>
            cases asked
            exact ⟨closed, sta, rfl, rfl, weaker⟩
        · cases asked
      · rintro ⟨-, other, chosen, rfl, weaker⟩
        cases chosen
        rw [if_pos weaker]

theorem mem_candidates :
    sta ∈ candidates vif stations ↔
      sta ∈ stations ∧ sta.vif = vif ∧ sta.meshNoOfPeerings ≠ 1 := by
  rw [candidates, List.mem_filter, decide_eq_true_eq]

variable {stations : StaTable}

theorem StaTable.eq_of_key_eq (former : first ∈ stations.entries)
    (latter : second ∈ stations.entries) (same : first.key = second.key) :
    first = second :=
  List.inj_on_of_nodup_map stations.distinct former latter same

/-! ## Strangers -/

theorem findSta_eq_none :
    findSta vif addr stations = none ↔
      ∀ sta ∈ stations.entries, sta.vif = vif → sta.addr ≠ addr := by
  rw [findSta, List.find?_eq_none]
  constructor
  · intro none sta listed own same
    apply none sta listed
    rw [decide_eq_true_eq, MorseSta.key, own, same]
  · intro none sta listed found
    rw [decide_eq_true_eq, Prod.mk.injEq] at found
    exact none sta listed found.2 found.1

theorem notePeerings_of_findSta_eq_none (stranger : findSta vif addr stations = none)
    (peerings : BitVec 8) :
    notePeerings vif addr peerings stations = stations := by
  apply StaTable.ext
  refine (List.map_congr_left ?_).trans (List.map_id _)
  intro sta listed
  rw [noteFor, if_neg]
  · rfl
  · intro found
    rw [Prod.mk.injEq] at found
    exact findSta_eq_none.mp stranger sta listed found.2 found.1

/-! ## What a frame leads to -/

/-- The interface when nobody is kept away any longer whose time is over. -/
def Interface.released (clock : Clock) (now : Nat) (iface : Interface) : Interface :=
  { iface with mesh := iface.mesh.released clock now }

theorem released_mesh (clock : Clock) (now : Nat) (mesh : MorseMesh) :
    (mesh.released clock now).maxPlinks = mesh.maxPlinks ∧
      (mesh.released clock now).rssiMargin = mesh.rssiMargin ∧
      (mesh.released clock now).meshIdLen = mesh.meshIdLen ∧
      (mesh.released clock now).ownId = mesh.ownId ∧
      (mesh.released clock now).dynamicPeering = mesh.dynamicPeering ∧
      (mesh.released clock now).blacklistTimeout = mesh.blacklistTimeout := by
  rw [MorseMesh.released]
  split
  · exact ⟨rfl, rfl, rfl, rfl, rfl, rfl⟩
  · exact ⟨rfl, rfl, rfl, rfl, rfl, rfl⟩

theorem processMeshRxMgmt_of_not_listened (unheard : ¬ Listened frame iface) :
    ∃ returned, processMeshRxMgmt clock vif now sent frame iface =
      some (iface, ⟨returned, none⟩) := by
  rw [processMeshRxMgmt]
  by_cases active : iface.mesh.isMeshActive = false
  · exact ⟨_, if_pos active⟩
  · rw [if_neg active]
    by_cases request : iface.mesh.meshBeaconlessMode = true ∧ frame.stype = RxMgmt.stypeProbeReq
    · rw [if_pos request, processRxMeshProbeReq]
      split
      · exact ⟨_, rfl⟩
      · exact ⟨_, rfl⟩
    · rw [if_neg request]
      by_cases other : listens iface frame = false
      · exact ⟨_, if_pos other⟩
      · rw [Bool.not_eq_false] at active other
        exact absurd ⟨active, request, other⟩ unheard

theorem processMeshRxMgmt_of_listened (listened : Listened frame iface) :
    processMeshRxMgmt clock vif now sent frame iface =
      if (iface.mesh.released clock now).kickoutPeerAddr = frame.source ∧
          frame.isFrameAllowed = false then
        some (iface.released clock now, ⟨some .eacces, none⟩)
      else
        frame.noOfPeerings.bind (hear clock vif now sent frame (iface.released clock now)) := by
  obtain ⟨active, request, looked⟩ := listened
  rw [processMeshRxMgmt, active, if_neg request, looked]
  rfl

theorem processMeshRxMgmt_of_blocked (listened : Listened frame iface)
    (blocked : Blocked clock now frame iface) :
    processMeshRxMgmt clock vif now sent frame iface =
      some (iface.released clock now, ⟨some .eacces, none⟩) :=
  (processMeshRxMgmt_of_listened listened).trans (if_pos blocked)

theorem processMeshRxMgmt_of_heard (listened : Listened frame iface)
    (heard : ¬ Blocked clock now frame iface) :
    processMeshRxMgmt clock vif now sent frame iface =
      frame.noOfPeerings.bind (hear clock vif now sent frame (iface.released clock now)) :=
  (processMeshRxMgmt_of_listened listened).trans (if_neg heard)

theorem hear_of_examined (examined : Examined clock vif now frame iface) :
    hear clock vif now sent frame (iface.released clock now) 0 =
      (frame.confOctet 6).map fun flags =>
        ((iface.released clock now).kickedOut clock now sent
            (selectPeer vif frame (iface.released clock now) flags),
          ⟨none, selectPeer vif frame (iface.released clock now) flags⟩) := by
  obtain ⟨stranger, free, -, full, same⟩ := examined
  obtain ⟨plinks, -, length, own, -⟩ := released_mesh clock now iface.mesh
  have noted : (if frame.meshConf.isSome then
      { iface.released clock now with
        stations := notePeerings vif frame.source 0 (iface.released clock now).stations }
      else iface.released clock now) = iface.released clock now := by
    have unchanged : notePeerings vif frame.source 0 (iface.released clock now).stations =
        (iface.released clock now).stations :=
      notePeerings_of_findSta_eq_none stranger 0
    rw [unchanged]
    split
    · rfl
    · rfl
  have room : ¬ (iface.released clock now).numStas <
      (iface.released clock now).mesh.maxPlinks.toNat := by
    rw [Interface.released, plinks]
    exact Nat.not_lt.mpr full
  have named : sameMesh (iface.released clock now).mesh frame = true := by
    rw [sameMesh, Interface.released, length, own]
    exact same
  have looked : findSta vif frame.source (iface.released clock now).stations = none ∧
      (iface.released clock now).mesh.kickoutTs = 0 ∧ (0 : BitVec 8) = 0 :=
    ⟨stranger, free, rfl⟩
  rw [hear, noted, if_pos looked, checkForDynamicPeering, if_neg room, named,
    if_neg Bool.false_ne_true.symm, Option.map_map]
  rfl

theorem hear_of_not_examined (heard : frame.noOfPeerings = some peerings)
    (unexamined : ¬ Examined clock vif now frame iface) :
    ∃ next, hear clock vif now sent frame (iface.released clock now) peerings =
      some (next, ⟨none, none⟩) ∧ next.mesh = iface.mesh.released clock now := by
  have kept : (if frame.meshConf.isSome then
      { iface.released clock now with
        stations := notePeerings vif frame.source peerings (iface.released clock now).stations }
      else iface.released clock now).mesh = iface.mesh.released clock now := by
    split
    · rfl
    · rfl
  rw [hear]
  split
  · next looked =>
      obtain ⟨stranger, free, none'⟩ := looked
      obtain ⟨plinks, -, length, own, -⟩ := released_mesh clock now iface.mesh
      have passed (noted : Interface)
          (mesh : noted.mesh = iface.mesh.released clock now)
          (counted : noted.numStas = iface.numStas) :
          checkForDynamicPeering vif frame noted = some none := by
        rw [checkForDynamicPeering, mesh, counted]
        by_cases room : iface.numStas < (iface.mesh.released clock now).maxPlinks.toNat
        · exact if_pos room
        · rw [if_neg room]
          rw [plinks] at room
          by_cases same : sameMesh (iface.mesh.released clock now) frame = false
          · exact if_pos same
          · rw [Bool.not_eq_false, sameMesh, length, own] at same
            refine absurd ⟨stranger, free, ?_, Nat.not_lt.mp room, same⟩ unexamined
            rw [heard, none']
      refine ⟨_, congrArg (Option.map _) (passed _ kept ?_), kept⟩
      split
      · rfl
      · rfl
  · exact ⟨_, rfl, kept⟩

/-! ## Decisions -/

theorem selectPeer_released_eq_some (listened : Listened frame iface)
    (heard : ¬ Blocked clock now frame iface) (examined : Examined clock vif now frame iface)
    (octet : frame.confOctet 6 = some flags) :
    selectPeer vif frame (iface.released clock now) flags = some peer ↔
      ∃ sta, Chosen clock vif now frame iface sta ∧ sta.addr = peer := by
  have margin : (iface.released clock now).mesh.rssiMargin = iface.mesh.rssiMargin :=
    (released_mesh clock now iface.mesh).2.1
  rw [selectPeer_eq_some, margin]
  constructor
  · rintro ⟨accepts, sta, least, named, weaker⟩
    exact ⟨sta, ⟨listened, heard, examined, ⟨flags, octet, accepts⟩, least, weaker⟩, named⟩
  · rintro ⟨sta, ⟨-, -, -, ⟨own, same, accepts⟩, least, weaker⟩, named⟩
    rw [octet] at same
    cases same
    exact ⟨accepts, sta, least, named, weaker⟩

variable {sta : MorseSta}

theorem Chosen.justified (chosen : Chosen clock vif now frame iface sta)
    (connected : 1 < sta.meshNoOfPeerings) :
    Justified vif frame iface sta.addr := by
  obtain ⟨-, -, examined, accepts, least, weaker⟩ := chosen
  obtain ⟨stranger, -, -, full, same⟩ := examined
  rw [sameMesh, decide_eq_true_eq] at same
  have listed := mem_candidates.mp (List.argmin_mem least)
  refine ⟨full, findSta_eq_none.mp stranger, same.2, accepts, sta, listed.1, listed.2.1, rfl,
    connected, ?_, Int.le_of_lt weaker⟩
  intro other entered own more
  have single : other.meshNoOfPeerings ≠ 1 := by
    intro one
    rw [one] at more
    exact absurd more (by decide)
  exact List.le_of_mem_argmin (mem_candidates.mpr ⟨entered, own, single⟩) least

theorem Chosen.connected (chosen : Chosen clock vif now frame iface sta)
    (justified : Justified vif frame iface sta.addr) :
    1 < sta.meshNoOfPeerings := by
  obtain ⟨other, entered, own, named, more, -⟩ := justified.weakest
  have listed := mem_candidates.mp (List.argmin_mem chosen.2.2.2.2.1)
  have same : other = sta := by
    apply StaTable.eq_of_key_eq entered listed.1
    rw [MorseSta.key, MorseSta.key, named, own, listed.2.1]
  rw [← same]
  exact more

theorem sound_of_examined (listened : Listened frame iface)
    (heard : ¬ Blocked clock now frame iface) (examined : Examined clock vif now frame iface) :
    Sound clock vif now sent frame iface ↔
      (∃ flags, frame.confOctet 6 = some flags) ∧
        ∀ sta, Chosen clock vif now frame iface sta → 1 < sta.meshNoOfPeerings := by
  have processed : processMeshRxMgmt clock vif now sent frame iface =
      (frame.confOctet 6).map fun flags =>
        ((iface.released clock now).kickedOut clock now sent
            (selectPeer vif frame (iface.released clock now) flags),
          ⟨none, selectPeer vif frame (iface.released clock now) flags⟩) := by
    rw [processMeshRxMgmt_of_heard listened heard, examined.2.2.1, Option.bind_some,
      hear_of_examined examined]
  rw [Sound, processed]
  cases octet : frame.confOctet 6 with
  | none =>
    constructor
    · rintro ⟨next, verdict, taken, -⟩
      cases taken
    · rintro ⟨⟨flags, read⟩, -⟩
      cases read
  | some flags =>
    constructor
    · rintro ⟨next, verdict, taken, right⟩
      cases taken
      refine ⟨⟨flags, rfl⟩, ?_⟩
      intro sta chosen
      apply chosen.connected
      apply right
      exact (selectPeer_released_eq_some listened heard examined octet).mpr ⟨sta, chosen, rfl⟩
    · rintro ⟨-, connected⟩
      refine ⟨_, _, rfl, ?_⟩
      intro peer asked
      obtain ⟨sta, chosen, rfl⟩ :=
        (selectPeer_released_eq_some listened heard examined octet).mp asked
      exact chosen.justified (connected sta chosen)

theorem noOfPeerings_eq_none :
    frame.noOfPeerings = none ↔ ∃ conf, frame.meshConf = some conf ∧ conf.length < 6 := by
  rw [RxMgmt.noOfPeerings]
  cases frame.meshConf with
  | none =>
    constructor
    · intro none
      cases none
    · rintro ⟨conf, missing, -⟩
      cases missing
  | some conf =>
    rw [Option.map_eq_none_iff, List.getElem?_eq_none_iff]
    constructor
    · intro short
      exact ⟨conf, rfl, by omega⟩
    · rintro ⟨other, same, short⟩
      cases same
      omega

theorem exists_confOctet :
    (∃ flags, frame.confOctet 6 = some flags) ↔
      ∃ conf, frame.meshConf = some conf ∧ 7 ≤ conf.length := by
  rw [RxMgmt.confOctet]
  cases frame.meshConf with
  | none =>
    constructor
    · rintro ⟨flags, read⟩
      cases read
    · rintro ⟨conf, missing, -⟩
      cases missing
  | some conf =>
    constructor
    · rintro ⟨flags, read⟩
      obtain ⟨inside, -⟩ := List.getElem?_eq_some_iff.mp read
      exact ⟨conf, rfl, inside⟩
    · rintro ⟨other, same, long⟩
      cases same
      exact ⟨conf[6], List.getElem?_eq_getElem long⟩

theorem sound_iff :
    Sound clock vif now sent frame iface ↔ Harmless clock vif now frame iface := by
  by_cases listened : Listened frame iface
  · by_cases blocked : Blocked clock now frame iface
    · constructor
      · intro _
        exact ⟨fun _ heard => absurd blocked heard, fun _ heard => absurd blocked heard,
          fun sta chosen => absurd blocked chosen.2.1⟩
      · intro _
        refine ⟨_, _, processMeshRxMgmt_of_blocked listened blocked, ?_⟩
        intro peer asked
        cases asked
    · cases peerings : frame.noOfPeerings with
      | none =>
        obtain ⟨conf, present, short⟩ := noOfPeerings_eq_none.mp peerings
        constructor
        · rintro ⟨next, verdict, taken, -⟩
          rw [processMeshRxMgmt_of_heard listened blocked, peerings] at taken
          cases taken
        · intro harmless
          have long := harmless.formation listened blocked conf present
          omega
      | some count =>
        have formation (conf : List (BitVec 8)) (present : frame.meshConf = some conf) :
            6 ≤ conf.length := by
          by_contra short
          have missing := noOfPeerings_eq_none.mpr ⟨conf, present, Nat.not_le.mp short⟩
          rw [peerings] at missing
          cases missing
        by_cases examined : Examined clock vif now frame iface
        · rw [sound_of_examined listened blocked examined, exists_confOctet]
          constructor
          · rintro ⟨capability, connected⟩
            exact ⟨fun _ _ => formation, fun _ _ _ => capability, connected⟩
          · intro harmless
            exact ⟨harmless.capability listened blocked examined, harmless.connected⟩
        · constructor
          · intro _
            exact ⟨fun _ _ => formation, fun _ _ both => absurd both examined,
              fun sta chosen => absurd chosen.2.2.1 examined⟩
          · intro _
            obtain ⟨next, heard, -⟩ := hear_of_not_examined peerings examined
            refine ⟨next, ⟨none, none⟩, ?_, ?_⟩
            · rw [processMeshRxMgmt_of_heard listened blocked, peerings]
              exact heard
            · intro peer asked
              cases asked
  · constructor
    · intro _
      exact ⟨fun both => absurd both listened, fun both => absurd both listened,
        fun sta chosen => absurd chosen.1 listened⟩
    · intro _
      obtain ⟨returned, processed⟩ := processMeshRxMgmt_of_not_listened listened
      refine ⟨_, _, processed, ?_⟩
      intro peer asked
      cases asked

end Mesh
end Morse
