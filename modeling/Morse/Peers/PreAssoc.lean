import Mathlib.Data.List.Nodup
import Mathlib.Algebra.Group.Int.Defs
import Mathlib.Data.Nat.Basic
import Mathlib.Logic.Function.Basic
import Mathlib.Order.Basic
import Mathlib.Tactic.Common

/-!
# Peers before association

The driver remembers the bandwidth that it last received from stations that are not associated.
The list of them is searched under its lock, and entries that were not used for some time are
removed on the way.  An update that does not find its station releases the lock, and appends a new
entry later.
-/

namespace Morse
namespace Peers

/-- An address, whose first octet is the lowest. -/
abbrev Addr := BitVec 48

/-- `is_multicast_ether_addr`, which is true of the broadcast address. -/
def isMulticast (addr : Addr) : Bool := addr.getLsbD 0

/-- `struct morse_pre_assoc_peer` -/
structure Peer where
  addr : Addr
  lastRxBwMhz : Nat
  lastUsed : Nat
  deriving DecidableEq

/-- Where a thread is in `morse_pre_assoc_peer_update_rx_info`: outside, behind a search that found
nothing, or in front of the insertion of its new entry. -/
inductive Update where
  | idle
  | missed (addr : Addr) (bwMhz : Nat)
  | allocated (peer : Peer)

/-- `pre_assoc_peers`, the time, and the updates under way. -/
structure State where
  jiffies : Nat
  nIfacesUsing : Int
  list : List Peer
  updates : Nat → Update

/-- `has_peer_expired`, for words of 64 bits. -/
def hasPeerExpired (ageLimit : UInt32) (jiffies : Nat) (peer : Peer) : Bool :=
  decide (((peer.lastUsed + ageLimit.toNat : Int) - jiffies) % 2 ^ 64 ≥ 2 ^ 63)

/-- The loop over the list: what stays in front of the peer, and the peer with what is behind it. -/
def search
    (ageLimit : UInt32)
    (jiffies : Nat)
    (addr : Addr) : List Peer → List Peer × Option (Peer × List Peer)
  | [] => ([], none)
  | peer :: rest =>
    if peer.addr = addr then ([], some (peer, rest))
    else
      let (kept, found) := search ageLimit jiffies addr rest
      (if hasPeerExpired ageLimit jiffies peer then kept else peer :: kept, found)

/-- The list behind a search, with something in the place of the peer. -/
def replace (change : Peer → List Peer) : List Peer × Option (Peer × List Peer) → List Peer
  | (kept, none) => kept
  | (kept, some (peer, rest)) => kept ++ (change peer ++ rest)

/-- What is seen from outside: an update, the answer of a lookup, a deletion, or that the list was
freed. -/
inductive Event where
  | updated (addr : Addr) (bwMhz lastUsed : Nat)
  | lookedUp (addr : Addr) (jiffies : Nat) (bwMhz : Int)
  | deleted (addr : Addr)
  | freed
  deriving DecidableEq

/-- What happens next: time passes, an interface begins or ends to use the list, a peer is deleted
or looked up, or a thread searches for a peer to update, allocates a new one, or inserts it. -/
inductive Step where
  | tick (jiffies : Nat)
  | vifTake
  | vifRelease
  | delete (addr : Addr)
  | getLastRxBwMhz (addr : Addr)
  | search (thread : Nat) (addr : Addr) (bwMhz : Nat)
  | allocate (thread : Nat) (memory : Bool)
  | insert (thread : Nat)

/-- The state in which a search leaves the list. -/
def State.walked
    (state : State)
    (ageLimit : UInt32)
    (addr : Addr)
    (change : Peer → List Peer) : State :=
  { state with list := replace change (Peers.search ageLimit state.jiffies addr state.list) }

/-- The peer that a search finds. -/
def State.found (state : State) (ageLimit : UInt32) (addr : Addr) : Option Peer :=
  (Peers.search ageLimit state.jiffies addr state.list).2.map Prod.fst

/-- One step, with what is seen of it.  A step that its thread is not at does nothing. -/
def step (ageLimit : UInt32) (state : State) : Step → State × List Event
  | .tick jiffies => ({ state with jiffies := state.jiffies + jiffies }, [])
  | .vifTake => ({ state with nIfacesUsing := state.nIfacesUsing + 1 }, [])
  | .vifRelease =>
    if state.nIfacesUsing - 1 > 0 then
      ({ state with nIfacesUsing := state.nIfacesUsing - 1 }, [])
    else ({ state with nIfacesUsing := state.nIfacesUsing - 1, list := [] }, [.freed])
  | .delete addr => (state.walked ageLimit addr fun _ => [], [.deleted addr])
  | .getLastRxBwMhz addr =>
    if isMulticast addr then (state, [.lookedUp addr state.jiffies (-1)])
    else
      (state.walked ageLimit addr fun peer => [{ peer with lastUsed := state.jiffies }],
        [.lookedUp addr state.jiffies
          ((state.found ageLimit addr).elim (-1) fun peer => peer.lastRxBwMhz)])
  | .search thread addr bwMhz =>
    match state.updates thread with
    | .idle =>
      if isMulticast addr then (state, [])
      else
        let walked := state.walked ageLimit addr fun peer =>
          [{ peer with lastRxBwMhz := bwMhz, lastUsed := state.jiffies }]
        match state.found ageLimit addr with
        | some _ => (walked, [.updated addr bwMhz state.jiffies])
        | none =>
          ({ walked with
            updates := Function.update state.updates thread (.missed addr bwMhz) }, [])
    | _ => (state, [])
  | .allocate thread memory =>
    match state.updates thread with
    | .missed addr bwMhz =>
      ({ state with
        updates := Function.update state.updates thread
          (if memory then .allocated ⟨addr, bwMhz, state.jiffies⟩ else .idle) }, [])
    | _ => (state, [])
  | .insert thread =>
    match state.updates thread with
    | .allocated peer =>
      ({ state with
        list := state.list ++ [peer]
        updates := Function.update state.updates thread .idle },
        [.updated peer.addr peer.lastRxBwMhz peer.lastUsed])
    | _ => (state, [])

/-- A run from some state and what was seen before. -/
def runFrom (ageLimit : UInt32) : State × List Event → List Step → State × List Event
  | world, [] => world
  | (state, events), next :: steps =>
    runFrom ageLimit ((step ageLimit state next).1, events ++ (step ageLimit state next).2) steps

/-- A run from the empty list that no interface uses. -/
def run (ageLimit : UInt32) : List Step → State × List Event :=
  runFrom ageLimit (⟨0, 0, [], fun _ => .idle⟩, [])

/-! ## What the list is for -/

/-- The bandwidth of the most recent update of an address, and when that was used. -/
abbrev Cache := Addr → Option (Nat × Nat)

/-- What an event makes of the cache: only a lookup within the age limit counts as a use. -/
def Cache.after (ageLimit : UInt32) (cache : Cache) : Event → Cache
  | .updated addr bwMhz lastUsed => Function.update cache addr (some (bwMhz, lastUsed))
  | .lookedUp addr jiffies _ =>
    match cache addr with
    | some (bwMhz, lastUsed) =>
      if isMulticast addr = false ∧ jiffies ≤ lastUsed + ageLimit.toNat then
        Function.update cache addr (some (bwMhz, jiffies))
      else cache
    | none => cache
  | .deleted addr => Function.update cache addr none
  | .freed => fun _ => none

/-- The cache behind some events. -/
def cacheOf (ageLimit : UInt32) (events : List Event) : Cache :=
  events.foldl (Cache.after ageLimit) fun _ => none

/-- A lookup is answered with the bandwidth if that was used within the age limit, and else with
`-1`. -/
def Answered (ageLimit : UInt32) (cache : Cache) : Event → Prop
  | .lookedUp addr jiffies answer =>
    answer =
      match cache addr with
      | some (bwMhz, lastUsed) =>
        if isMulticast addr = false ∧ jiffies ≤ lastUsed + ageLimit.toNat then (bwMhz : Int)
        else -1
      | none => -1
  | _ => True

/-- Every lookup among the events was answered. -/
inductive AllAnswered (ageLimit : UInt32) : List Event → Prop where
  | nil : AllAnswered ageLimit []
  | snoc (events : List Event) (event : Event) :
      AllAnswered ageLimit events → Answered ageLimit (cacheOf ageLimit events) event →
        AllAnswered ageLimit (events ++ [event])

/-- Addresses are listed once, lookups are answered, a deleted address is not listed until it is
updated again, and the list is empty when no interface uses it. -/
structure Lawful (ageLimit : UInt32) (world : State × List Event) : Prop where
  once : (world.1.list.map Peer.addr).Nodup
  answered : AllAnswered ageLimit world.2
  deleted : ∀ before addr after, world.2 = before ++ .deleted addr :: after →
    (∀ bwMhz lastUsed, .updated addr bwMhz lastUsed ∉ after) →
      ∀ peer ∈ world.1.list, peer.addr ≠ addr
  unused : world.1.nIfacesUsing ≤ 0 → world.1.list = []

/-- A new entry is inserted into a list that is in use and does not have its address, and an entry
that is looked up was used within the age limit. -/
def Orderly (ageLimit : UInt32) (state : State) : Step → Prop
  | .insert thread => ∀ peer, state.updates thread = .allocated peer →
      0 < state.nIfacesUsing ∧ ∀ other ∈ state.list, other.addr ≠ peer.addr
  | .getLastRxBwMhz addr => ∀ peer ∈ state.list, peer.addr = addr →
      state.jiffies ≤ peer.lastUsed + ageLimit.toNat
  | _ => True

/-- Every step of a run from some state is orderly. -/
def OrderlyFrom (ageLimit : UInt32) : State × List Event → List Step → Prop
  | _, [] => True
  | (state, events), next :: steps =>
    Orderly ageLimit state next ∧
      OrderlyFrom ageLimit
        ((step ageLimit state next).1, events ++ (step ageLimit state next).2) steps

/-! ## The search -/

theorem replace_search_cons (change : Peer → List Peer) (peer : Peer) (rest : List Peer) :
    replace change (search ageLimit jiffies addr (peer :: rest)) =
      if peer.addr = addr then change peer ++ rest
      else if hasPeerExpired ageLimit jiffies peer then
        replace change (search ageLimit jiffies addr rest)
      else peer :: replace change (search ageLimit jiffies addr rest) := by
  rw [search]
  by_cases same : peer.addr = addr
  · simp [same, replace]
  · rcases searched : search ageLimit jiffies addr rest with ⟨kept, _ | ⟨found, behind⟩⟩ <;>
      by_cases expired : hasPeerExpired ageLimit jiffies peer <;> simp [same, expired, replace]

theorem addresses_replace (change : Peer → List Peer)
    (changed : ∀ peer, (change peer).map Peer.addr = [] ∨
      (change peer).map Peer.addr = [peer.addr])
    (list : List Peer) :
    ((replace change (search ageLimit jiffies addr list)).map Peer.addr).Sublist
      (list.map Peer.addr) := by
  induction list with
  | nil => exact List.Sublist.refl _
  | cons peer rest ih =>
    rw [replace_search_cons]
    split
    · rw [List.map_append]
      rcases changed peer with none | one
      · rw [none]
        exact List.sublist_cons_self ..
      · rw [one]
        exact List.Sublist.refl _
    · split
      · exact ih.cons _
      · exact ih.cons_cons _

theorem mem_of_replace (nodup : (list.map Peer.addr).Nodup)
    (mem : peer ∈ replace change (search ageLimit jiffies addr list)) :
    (∃ former ∈ list, former.addr = addr ∧ peer ∈ change former) ∨
      peer ∈ list ∧ peer.addr ≠ addr := by
  induction list with
  | nil => simp [search, replace] at mem
  | cons first rest ih =>
    rw [List.map_cons, List.nodup_cons] at nodup
    rw [replace_search_cons] at mem
    have later (mem : peer ∈ replace change (search ageLimit jiffies addr rest)) :
        (∃ former ∈ first :: rest, former.addr = addr ∧ peer ∈ change former) ∨
          peer ∈ first :: rest ∧ peer.addr ≠ addr := by
      rcases ih nodup.2 mem with ⟨former, inside, found⟩ | ⟨inside, differs⟩
      · exact .inl ⟨former, List.mem_cons_of_mem _ inside, found⟩
      · exact .inr ⟨List.mem_cons_of_mem _ inside, differs⟩
    split at mem
    case isTrue same =>
      rcases List.mem_append.mp mem with changed | behind
      · exact .inl ⟨first, List.mem_cons_self, same, changed⟩
      · refine .inr ⟨List.mem_cons_of_mem _ behind, fun again => nodup.1 ?_⟩
        rw [same, ← again]
        exact List.mem_map_of_mem behind
    case isFalse other =>
      split at mem
      · exact later mem
      · rcases List.mem_cons.mp mem with rfl | mem
        · exact .inr ⟨List.mem_cons_self, other⟩
        · exact later mem

theorem replace_of_mem (nodup : (list.map Peer.addr).Nodup) (mem : peer ∈ list) :
    (peer.addr = addr → ∀ other ∈ change peer,
      other ∈ replace change (search ageLimit jiffies addr list)) ∧
      (peer.addr ≠ addr → hasPeerExpired ageLimit jiffies peer = false →
        peer ∈ replace change (search ageLimit jiffies addr list)) := by
  induction list with
  | nil => cases mem
  | cons first rest ih =>
    rw [List.map_cons, List.nodup_cons] at nodup
    rw [replace_search_cons]
    by_cases same : first.addr = addr
    · rw [if_pos same]
      rcases List.mem_cons.mp mem with rfl | behind
      · exact ⟨fun _ other changed => List.mem_append_left _ changed,
          fun differs => absurd same differs⟩
      · refine ⟨fun again => absurd ?_ nodup.1, fun _ _ => List.mem_append_right _ behind⟩
        rw [same, ← again]
        exact List.mem_map_of_mem behind
    · rw [if_neg same]
      rcases List.mem_cons.mp mem with rfl | behind
      · refine ⟨fun again => absurd again same, fun _ fresh => ?_⟩
        rw [fresh]
        exact List.mem_cons_self
      · have later := ih nodup.2 behind
        split
        · exact later
        · exact ⟨fun again other changed => List.mem_cons_of_mem _ (later.1 again other changed),
            fun differs fresh => List.mem_cons_of_mem _ (later.2 differs fresh)⟩

theorem found_spec (state : State) (ageLimit : UInt32) (addr : Addr) :
    (∃ peer ∈ state.list, peer.addr = addr ∧ state.found ageLimit addr = some peer) ∨
      (∀ peer ∈ state.list, peer.addr ≠ addr) ∧ state.found ageLimit addr = none := by
  rw [State.found]
  induction state.list with
  | nil => exact .inr ⟨by simp, rfl⟩
  | cons first rest ih =>
    rw [search]
    by_cases same : first.addr = addr
    · exact .inl ⟨first, List.mem_cons_self, same, by rw [if_pos same]; rfl⟩
    · rw [if_neg same]
      rcases ih with ⟨peer, mem, again, found⟩ | ⟨absent, found⟩
      · exact .inl ⟨peer, List.mem_cons_of_mem _ mem, again, found⟩
      · exact .inr ⟨List.forall_mem_cons.mpr ⟨same, absent⟩, found⟩

theorem lt_of_hasPeerExpired (past : peer.lastUsed ≤ jiffies)
    (expired : hasPeerExpired ageLimit jiffies peer) :
    peer.lastUsed + ageLimit.toNat < jiffies := by
  have := ageLimit.toNat_lt
  simp only [hasPeerExpired, decide_eq_true_eq] at expired
  omega

/-! ## The list and the cache -/

/-- The list holds what the cache does, up to entries that are too old. -/
structure Stored (ageLimit : UInt32) (jiffies : Nat) (list : List Peer) (cache : Cache) : Prop where
  nodup : (list.map Peer.addr).Nodup
  past : ∀ peer ∈ list, peer.lastUsed ≤ jiffies
  recorded : ∀ peer ∈ list, cache peer.addr = some (peer.lastRxBwMhz, peer.lastUsed)
  kept : ∀ addr bwMhz lastUsed, cache addr = some (bwMhz, lastUsed) →
    (∃ peer ∈ list, peer.addr = addr) ∨ lastUsed + ageLimit.toNat < jiffies

theorem Stored.tick (stored : Stored ageLimit jiffies list cache) (later : jiffies ≤ jiffies') :
    Stored ageLimit jiffies' list cache where
  nodup := stored.nodup
  past peer mem := (stored.past peer mem).trans later
  recorded := stored.recorded
  kept addr bwMhz lastUsed found :=
    (stored.kept addr bwMhz lastUsed found).imp_right fun old => old.trans_le later

theorem Stored.walk (stored : Stored ageLimit jiffies list cache)
    (changed : ∀ peer, (change peer).map Peer.addr = [] ∨
      (change peer).map Peer.addr = [peer.addr])
    (recorded : ∀ former ∈ list, former.addr = addr → ∀ peer ∈ change former,
      peer.lastUsed ≤ jiffies ∧ cache' peer.addr = some (peer.lastRxBwMhz, peer.lastUsed))
    (others : ∀ other, other ≠ addr → cache' other = cache other)
    (kept : ∀ bwMhz lastUsed, cache' addr = some (bwMhz, lastUsed) →
      (∃ former ∈ list, former.addr = addr ∧ ∃ peer ∈ change former, peer.addr = addr) ∨
        lastUsed + ageLimit.toNat < jiffies) :
    Stored ageLimit jiffies (replace change (search ageLimit jiffies addr list)) cache' where
  nodup := stored.nodup.sublist (addresses_replace change changed list)
  past peer mem := by
    rcases mem_of_replace stored.nodup mem with ⟨former, inside, same, new⟩ | ⟨inside, _⟩
    · exact (recorded former inside same peer new).1
    · exact stored.past peer inside
  recorded peer mem := by
    rcases mem_of_replace stored.nodup mem with ⟨former, inside, same, new⟩ | ⟨inside, differs⟩
    · exact (recorded former inside same peer new).2
    · rw [others _ differs]
      exact stored.recorded peer inside
  kept other bwMhz lastUsed found := by
    by_cases same : other = addr
    · subst same
      rcases kept bwMhz lastUsed found with ⟨former, inside, same, peer, new, again⟩ | old
      · exact .inl ⟨peer, (replace_of_mem stored.nodup inside).1 same peer new, again⟩
      · exact .inr old
    · rw [others _ same] at found
      rcases stored.kept other bwMhz lastUsed found with ⟨peer, inside, rfl⟩ | old
      · have record := stored.recorded peer inside
        rw [found, Option.some.injEq, Prod.mk.injEq] at record
        by_cases expired : hasPeerExpired ageLimit jiffies peer
        · right
          rw [record.2]
          exact lt_of_hasPeerExpired (stored.past peer inside) expired
        · exact .inl ⟨peer, (replace_of_mem stored.nodup inside).2 same (by simpa using expired),
            rfl⟩
      · exact .inr old

theorem Stored.insert (stored : Stored ageLimit jiffies list cache) (past : peer.lastUsed ≤ jiffies)
    (absent : ∀ other ∈ list, other.addr ≠ peer.addr) :
    Stored ageLimit jiffies (list ++ [peer])
      (Function.update cache peer.addr (some (peer.lastRxBwMhz, peer.lastUsed))) where
  nodup := by
    rw [List.map_append, List.nodup_append]
    refine ⟨stored.nodup, List.nodup_singleton _, ?_⟩
    simpa using absent
  past other mem := by
    rcases List.mem_append.mp mem with inside | new
    · exact stored.past other inside
    · rw [List.mem_singleton.mp new]
      exact past
  recorded other mem := by
    rcases List.mem_append.mp mem with inside | new
    · rw [Function.update_of_ne (absent other inside)]
      exact stored.recorded other inside
    · rw [List.mem_singleton.mp new, Function.update_self]
  kept addr bwMhz lastUsed found := by
    by_cases same : addr = peer.addr
    · exact .inl ⟨peer, by simp, same.symm⟩
    · rw [Function.update_of_ne same] at found
      refine (stored.kept addr bwMhz lastUsed found).imp_left ?_
      rintro ⟨other, inside, found⟩
      exact ⟨other, List.mem_append_left _ inside, found⟩

theorem Stored.replace (stored : Stored ageLimit jiffies list cache)
    (changed : ∀ peer, (change peer).map Peer.addr = [peer.addr])
    (used : ∀ former ∈ list, former.addr = addr → change former = [⟨addr, bwMhz, jiffies⟩])
    (mem : peer ∈ list) (same : peer.addr = addr) :
    Stored ageLimit jiffies (Peers.replace change (search ageLimit jiffies addr list))
      (Function.update cache addr (some (bwMhz, jiffies))) := by
  refine stored.walk (fun peer => .inr (changed peer)) ?_
    (fun other differs => Function.update_of_ne differs ..)
    fun _ _ _ => .inl ⟨peer, mem, same, ⟨addr, bwMhz, jiffies⟩, by simp [used peer mem same], rfl⟩
  intro former inside again other new
  rw [used former inside again, List.mem_singleton] at new
  subst new
  exact ⟨le_rfl, Function.update_self ..⟩

theorem Stored.absent (stored : Stored ageLimit jiffies list cache)
    (changed : ∀ peer, (change peer).map Peer.addr = [peer.addr])
    (absent : ∀ peer ∈ list, peer.addr ≠ addr) :
    Stored ageLimit jiffies (Peers.replace change (search ageLimit jiffies addr list)) cache := by
  refine stored.walk (fun peer => .inr (changed peer))
    (fun former inside same => absurd same (absent former inside)) (fun _ _ => rfl) ?_
  intro bwMhz lastUsed found
  refine (stored.kept addr bwMhz lastUsed found).imp_left ?_
  rintro ⟨peer, mem, same⟩
  exact absurd same (absent peer mem)

theorem Stored.lookup {state : State} (stored : Stored ageLimit state.jiffies state.list cache)
    (addr : Addr) (unicast : isMulticast addr = false)
    (fresh : ∀ peer ∈ state.list, peer.addr = addr →
      state.jiffies ≤ peer.lastUsed + ageLimit.toNat) :
    let event := Event.lookedUp addr state.jiffies
      ((state.found ageLimit addr).elim (-1) fun peer => peer.lastRxBwMhz)
    Stored ageLimit state.jiffies
      (state.walked ageLimit addr fun peer => [{ peer with lastUsed := state.jiffies }]).list
      (cache.after ageLimit event) ∧ Answered ageLimit cache event := by
  intro event
  rcases found_spec state ageLimit addr with ⟨peer, mem, same, found⟩ | ⟨absent, found⟩
  · have record := stored.recorded peer mem
    rw [same] at record
    constructor
    · simp only [event, Cache.after, record, unicast, fresh peer mem same, and_self, if_true]
      refine stored.replace (fun _ => rfl) ?_ mem same
      intro former inside again
      have other := stored.recorded former inside
      rw [again, record, Option.some.injEq, Prod.mk.injEq] at other
      rw [other.1, ← again]
    · simp [event, Answered, record, unicast, fresh peer mem same, found]
  · have late : ∀ bwMhz lastUsed, cache addr = some (bwMhz, lastUsed) →
        ¬ state.jiffies ≤ lastUsed + ageLimit.toNat := by
      intro bwMhz lastUsed record
      rcases stored.kept addr bwMhz lastUsed record with ⟨peer, mem, same⟩ | old
      · exact absurd same (absent peer mem)
      · omega
    have remains : Stored ageLimit state.jiffies
        (state.walked ageLimit addr fun peer => [{ peer with lastUsed := state.jiffies }]).list
        cache := stored.absent (fun _ => rfl) absent
    rcases record : cache addr with _ | ⟨bwMhz, lastUsed⟩
    · exact ⟨by simpa [event, Cache.after, record] using remains,
        by simp [event, Answered, record, found]⟩
    · exact ⟨by simpa [event, Cache.after, record, late] using remains,
        by simp [event, Answered, record, late, found]⟩

theorem stored_nil (ageLimit : UInt32) (jiffies : Nat) :
    Stored ageLimit jiffies [] fun _ => none := by
  constructor <;> simp

/-! ## Runs -/

/-- The list agrees with the cache of what was seen, lookups were answered, the list is empty when
no interface uses it, and new entries are not from the future. -/
structure Kept (ageLimit : UInt32) (world : State × List Event) : Prop where
  stored : Stored ageLimit world.1.jiffies world.1.list (cacheOf ageLimit world.2)
  answered : AllAnswered ageLimit world.2
  unused : world.1.nIfacesUsing ≤ 0 → world.1.list = []
  allocated : ∀ thread peer, world.1.updates thread = .allocated peer →
    peer.lastUsed ≤ world.1.jiffies

theorem cacheOf_snoc (ageLimit : UInt32) (events : List Event) (event : Event) :
    cacheOf ageLimit (events ++ [event]) = (cacheOf ageLimit events).after ageLimit event :=
  List.foldl_concat ..

theorem walked_unused {state : State} (unused : state.list = []) :
    (state.walked ageLimit addr change).list = [] := by
  rw [State.walked, unused]
  rfl

theorem Kept.step (kept : Kept ageLimit (state, events)) (orderly : Orderly ageLimit state next) :
    Kept ageLimit ((step ageLimit state next).1, events ++ (step ageLimit state next).2) := by
  obtain ⟨stored, answered, unused, allocated⟩ := kept
  have same : Kept ageLimit (state, events ++ []) := by
    rw [List.append_nil]
    exact ⟨stored, answered, unused, allocated⟩
  cases next with
  | tick jiffies =>
    simp only [Peers.step, List.append_nil]
    exact ⟨stored.tick (Nat.le_add_right ..), answered, unused,
      fun thread peer found => (allocated thread peer found).trans (Nat.le_add_right ..)⟩
  | vifTake =>
    simp only [Peers.step, List.append_nil]
    exact ⟨stored, answered, fun unused' => unused (by simp only at unused' ⊢; omega), allocated⟩
  | vifRelease =>
    simp only [Peers.step]
    split
    case isTrue used =>
      rw [List.append_nil]
      exact ⟨stored, answered, fun unused' => absurd unused' (by simp only; omega), allocated⟩
    case isFalse last =>
      refine ⟨?_, .snoc _ _ answered trivial, fun _ => rfl, allocated⟩
      rw [cacheOf_snoc]
      exact stored_nil ..
  | delete addr =>
    refine ⟨?_, .snoc _ _ answered trivial, fun unused' => walked_unused (unused unused'),
      allocated⟩
    simp only [Peers.step, cacheOf_snoc, Cache.after]
    refine stored.walk (fun _ => .inl rfl) (by simp) (fun other differs => ?_) (by simp)
    exact Function.update_of_ne differs ..
  | getLastRxBwMhz addr =>
    simp only [Peers.step]
    split
    case isTrue multicast =>
      refine ⟨?_, .snoc _ _ answered ?_, unused, allocated⟩
      · rw [cacheOf_snoc]
        simp only [Cache.after, multicast, Bool.true_eq_false, false_and, if_false]
        split <;> exact stored
      · simp only [Answered, multicast, Bool.true_eq_false, false_and, if_false]
        split <;> rfl
    case isFalse unicast =>
      rw [Bool.not_eq_true] at unicast
      have outcome := stored.lookup addr unicast orderly
      refine ⟨?_, .snoc _ _ answered outcome.2, fun unused' => walked_unused (unused unused'),
        allocated⟩
      rw [cacheOf_snoc]
      exact outcome.1
  | search thread addr bwMhz =>
    simp only [Peers.step]
    split
    case h_2 => exact same
    case h_1 idle =>
      split
      · exact same
      · rcases found_spec state ageLimit addr with ⟨peer, mem, again, found⟩ | ⟨absent, found⟩
        · rw [found]
          refine ⟨?_, .snoc _ _ answered trivial, fun unused' => walked_unused (unused unused'),
            allocated⟩
          rw [cacheOf_snoc]
          exact stored.replace (fun _ => rfl) (fun _ _ same => by rw [same]) mem again
        · simp only [found, List.append_nil]
          refine ⟨stored.absent (fun _ => rfl) absent, answered, fun unused' => walked_unused
            (unused unused'),
            fun other peer found => ?_⟩
          by_cases own : other = thread
          · subst own
            simp at found
          · simp only [Function.update_of_ne own] at found
            exact allocated other peer found
  | allocate thread memory =>
    simp only [Peers.step]
    split
    case h_2 => exact same
    case h_1 =>
      rw [List.append_nil]
      refine ⟨stored, answered, unused, fun other peer found => ?_⟩
      by_cases own : other = thread
      · subst own
        simp only [Function.update_self] at found
        cases memory <;> cases found
        exact le_rfl
      · simp only [Function.update_of_ne own] at found
        exact allocated other peer found
  | insert thread =>
    simp only [Peers.step]
    split
    case h_2 => exact same
    case h_1 peer inserting =>
      obtain ⟨used, absent⟩ := orderly peer inserting
      refine ⟨?_, .snoc _ _ answered trivial, fun unused' => absurd unused' (by simp only; omega),
        fun other peer found => ?_⟩
      · rw [cacheOf_snoc]
        exact stored.insert (allocated thread peer inserting) absent
      · by_cases own : other = thread
        · subst own
          simp at found
        · simp only [Function.update_of_ne own] at found
          exact allocated other peer found

theorem cacheOf_deleted (untouched : ∀ bwMhz lastUsed, .updated addr bwMhz lastUsed ∉ after) :
    cacheOf ageLimit (before ++ .deleted addr :: after) addr = none := by
  rw [cacheOf, List.foldl_append, List.foldl_cons]
  generalize gone : Cache.after ageLimit _ (.deleted addr) = cache
  have empty : cache addr = none := by
    rw [← gone]
    exact Function.update_self ..
  clear gone
  induction after generalizing cache with
  | nil => exact empty
  | cons event after ih =>
    refine ih (fun bwMhz lastUsed mem => untouched bwMhz lastUsed (List.mem_cons_of_mem _ mem)) _ ?_
    cases event with
    | updated other bwMhz lastUsed =>
      have differs : addr ≠ other := by
        rintro rfl
        exact untouched bwMhz lastUsed List.mem_cons_self
      simpa [Cache.after, differs] using empty
    | lookedUp other jiffies answer =>
      by_cases same : addr = other
      · subst same
        simp [Cache.after, empty]
      · rcases found : cache other with _ | ⟨bwMhz, lastUsed⟩ <;> simp only [Cache.after, found]
        · exact empty
        · split
          · simpa [same] using empty
          · exact empty
    | deleted other =>
      by_cases same : addr = other <;> simp [Cache.after, same, empty]
    | freed => rfl

theorem Kept.lawful (kept : Kept ageLimit world) : Lawful ageLimit world where
  once := kept.stored.nodup
  answered := kept.answered
  unused := kept.unused
  deleted before addr after split untouched peer mem same := by
    have record := kept.stored.recorded peer mem
    rw [same, split, cacheOf_deleted untouched] at record
    cases record

theorem Kept.runFrom (kept : Kept ageLimit world) (orderly : OrderlyFrom ageLimit world steps) :
    Kept ageLimit (runFrom ageLimit world steps) := by
  induction steps generalizing world with
  | nil => exact kept
  | cons next steps ih => exact ih (kept.step orderly.1) orderly.2

theorem OrderlyFrom.of_append (orderly : OrderlyFrom ageLimit world (steps ++ more)) :
    OrderlyFrom ageLimit world steps := by
  induction steps generalizing world with
  | nil => trivial
  | cons next steps ih => exact ⟨orderly.1, ih orderly.2⟩

theorem kept_start (ageLimit : UInt32) : Kept ageLimit (⟨0, 0, [], fun _ => .idle⟩, []) where
  stored := stored_nil ..
  answered := .nil
  unused _ := rfl
  allocated thread peer found := by cases found

/-- Every state that a run of orderly steps reaches is lawful. -/
theorem lawful_of_orderly (ageLimit : UInt32) (steps : List Step)
    (orderly : OrderlyFrom ageLimit (⟨0, 0, [], fun _ => .idle⟩, []) steps) (reached : List Step)
    (prior : reached <+: steps) :
    Lawful ageLimit (run ageLimit reached) := by
  obtain ⟨more, rfl⟩ := prior
  exact ((kept_start ageLimit).runFrom orderly.of_append).lawful

theorem lawful_lookup :
    Lawful 100 (run 100
      [.vifTake, .search 0 2 8, .allocate 0 true, .insert 0, .tick 50, .getLastRxBwMhz 2]) := by
  refine lawful_of_orderly 100
    [.vifTake, .search 0 2 8, .allocate 0 true, .insert 0, .tick 50, .getLastRxBwMhz 2]
    ⟨trivial, trivial, trivial, ?_, trivial, ?_, trivial⟩ _ (List.prefix_refl _)
  · intro peer inserting
    exact ⟨by decide, fun other mem => absurd mem List.not_mem_nil⟩
  · intro peer mem _
    cases List.mem_singleton.mp mem
    decide

/-- Two updates of one station that both find nothing list it twice. -/
theorem not_lawful_twice :
    ¬ ∀ steps, Lawful 100 (run 100 steps) := fun lawful =>
  absurd (lawful [.vifTake, .search 0 2 8, .search 1 2 4, .allocate 0 true, .allocate 1 true,
    .insert 0, .insert 1]).once (by decide)

end Peers
end Morse
