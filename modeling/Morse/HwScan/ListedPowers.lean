import Morse.HwScan.Lists

/-!
# The powers of a scan

Each power is listed once and every channel points to its own.  The powers are no more than the
changes that were counted, so that the array is never left.
-/

namespace Morse
namespace HwScan

open Lib

/-! ## One power after the other -/

/-- A list of powers of some channels, without repeats. -/
structure PowerList.Ready (list : PowerList) (channels : List Channel) : Prop where
  counted : list.nPowers = list.powersQdbm.length
  nodup : list.powersQdbm.Nodup
  covered : ∀ power ∈ list.powersQdbm, ∃ channel ∈ channels, channel.powerQdbm = power

/-- There is room for the powers of the channels, and an index has 8 bits. -/
structure Enough (channels : List Channel) (coarse : Nat) : Prop where
  powers : ∀ powers : List Int, powers.Nodup →
    (∀ power ∈ powers, ∃ channel ∈ channels, channel.powerQdbm = power) → powers.length ≤ coarse
  octet : coarse < 256

theorem exists_listPower (enough : Enough channels coarse) (ready : list.Ready channels)
    (among : channel ∈ channels) :
    ∃ after j, listPower coarse list channel.powerQdbm = .ok (after, j) ∧ after.Ready channels ∧
      list.powersQdbm <+: after.powersQdbm ∧ after.powersQdbm[j]? = some channel.powerQdbm := by
  obtain ⟨powers, nPowers⟩ := list
  obtain ⟨counted, nodup, covered⟩ := ready
  dsimp only at counted nodup covered
  subst counted
  unfold listPower
  dsimp only
  rw [List.take_length]
  split
  case isTrue last =>
    have absent : channel.powerQdbm ∉ powers := by
      intro present
      have found := @List.findIdx_lt_length_of_exists _
        (fun listed => decide (listed = channel.powerQdbm)) powers
        ⟨_, present, decide_eq_true rfl⟩
      omega
    have longer : (powers ++ [channel.powerQdbm]).Nodup :=
      nodup.append (List.nodup_singleton _) (List.disjoint_singleton.mpr absent)
    have shown : ∀ power ∈ powers ++ [channel.powerQdbm],
        ∃ channel ∈ channels, channel.powerQdbm = power := by
      intro power listed
      rcases List.mem_append.mp listed with old | new
      · exact covered power old
      · exact ⟨channel, among, (List.mem_singleton.mp new).symm⟩
    have room := enough.powers _ longer shown
    have octet := enough.octet
    rw [List.length_append, List.length_singleton] at room
    rw [last, if_neg (by omega), if_neg (by omega), List.take_length,
      List.drop_of_length_le (Nat.le_succ _), Nat.mod_eq_of_lt (by omega)]
    refine ⟨_, _, rfl, ⟨?_, longer, shown⟩, List.prefix_append _ _, ?_⟩
    · rw [List.length_append, List.length_singleton]
    · exact List.getElem?_concat_length
  case isFalse inside =>
    refine ⟨_, _, rfl, ⟨rfl, nodup, covered⟩, List.prefix_refl _, ?_⟩
    have small : (powers.findIdx fun listed => decide (listed = channel.powerQdbm)) <
        powers.length := by
      have most := @List.findIdx_le_length _
        (fun listed => decide (listed = channel.powerQdbm)) powers
      omega
    rw [List.getElem?_eq_getElem small]
    exact congrArg some (of_decide_eq_true (List.findIdx_getElem (w := small)))

theorem exists_listPowers (enough : Enough channels coarse) {rest : List Channel}
    (among : ∀ channel ∈ rest, channel ∈ channels) {list : PowerList}
    (ready : list.Ready channels) :
    ∃ listed after, listPowers coarse rest list = .ok (listed, after) ∧ after.Ready channels ∧
      list.powersQdbm <+: after.powersQdbm ∧ listed.map ListedChannel.channel = rest ∧
      ∀ entry ∈ listed, after.powersQdbm[entry.powerIdx]? = some entry.channel.powerQdbm := by
  induction rest generalizing list with
  | nil =>
    exact ⟨[], list, rfl, ready, List.prefix_refl _, rfl,
      fun _ inside => absurd inside List.not_mem_nil⟩
  | cons channel rest ih =>
    obtain ⟨between, j, stepped, middle, grown, at_j⟩ :=
      exists_listPower enough ready (among channel List.mem_cons_self)
    obtain ⟨listed, after, listed_eq, final, grows, shown, found⟩ :=
      ih (fun other inside => among other (List.mem_cons_of_mem _ inside)) middle
    have small : j < 256 := by
      have inside := (List.getElem?_eq_some_iff.mp at_j).1
      have room := enough.powers _ middle.nodup middle.covered
      have octet := enough.octet
      omega
    refine ⟨⟨channel, j⟩ :: listed, after, ?_, final, grown.trans grows, ?_, ?_⟩
    · rw [listPowers, stepped]
      dsimp only
      rw [listed_eq]
      rw [Nat.mod_eq_of_lt small]
    · rw [List.map_cons, shown]
    · intro entry inside
      rcases List.mem_cons.mp inside with rfl | inside
      · obtain ⟨inside, _⟩ := List.getElem?_eq_some_iff.mp at_j
        obtain ⟨added, appended⟩ := grows
        rw [← appended, List.getElem?_append_left inside]
        exact at_j
      · exact found entry inside

/-! ## All the powers -/

theorem maxRegPower_ne_intMin (mapped : chan ∈ s1gChannels region) :
    chan.maxRegPower ≠ intMin := by
  revert chan
  cases region <;> decide

theorem enough_numPwrsCoarse (nodup : channels.Nodup)
    (mapped : ∀ channel ∈ channels, channel ∈ s1gChannels region) :
    Enough channels (numPwrsCoarse channels) where
  powers powers nodup covered := by
    apply @length_le_changes _ _ _ _ _ Channel.maxRegPower mbmToQdbm _ _ _ nodup
    intro power listed
    obtain ⟨channel, inside, same⟩ := covered power listed
    exact ⟨channel, inside, maxRegPower_ne_intMin (mapped channel inside), same⟩
  octet := by
    have counted := changes_le_length Channel.maxRegPower intMin channels
    have most := (nodup.subperm mapped).length_le
    have table := length_s1gChannels_le region
    unfold numPwrsCoarse
    omega

/-- The lists of a scan are right for the channels that are wanted: those and no others are
listed, once each, with the index of their power, and no power is listed twice. -/
structure ListsRight
    (wanted : Channel → Prop)
    (listed : List ListedChannel)
    (powers : PowerList) :
    Prop where
  nodup : (listed.map ListedChannel.channel).Nodup
  mem_iff : ∀ channel, channel ∈ listed.map ListedChannel.channel ↔ wanted channel
  index : ∀ entry ∈ listed, entry.powerIdx < powers.nPowers
  power : ∀ entry ∈ listed, powers.powersQdbm[entry.powerIdx]? = some entry.channel.powerQdbm
  counted : powers.nPowers = powers.powersQdbm.length
  nodup_powers : powers.powersQdbm.Nodup

/-- An initialisation that keeps to its arrays, and ends early only for want of memory. -/
structure Initialised.Sound
    (made : Initialised)
    (capacity : Nat)
    (wanted : Channel → Prop) :
    Prop where
  inserted : ∀ code ∈ made.inserted, code = 0
  inside : made.channels.length ≤ capacity
  lists : made.lists = .error .noMemory ∨
    ∃ listed powers, made.lists = .ok (listed, powers) ∧ ListsRight wanted listed powers

/-- Whatever is requested, the counts are enough, and the lists are those of the wanted channels
and their powers; they are there if there is memory for them. -/
theorem sound_initialised (region : Region) (survey : Bool) {chans : List Nat}
    (counted : chansToAllocate region survey chans < 65536)
    (channelsAllocated powersAllocated : Bool) :
    (hwScanInitialiseChannelAndPowerLists region survey chans channelsAllocated
        powersAllocated).Sound
      (chansToAllocate region survey chans) (Wanted region survey chans) ∧
    ((hwScanInitialiseChannelAndPowerLists region survey chans channelsAllocated
        powersAllocated).lists = .error .noMemory ↔
      ¬(channelsAllocated = true ∧ powersAllocated = true)) := by
  unfold hwScanInitialiseChannelAndPowerLists
  dsimp only
  rw [Nat.mod_eq_of_lt counted]
  cases channelsAllocated with
  | false =>
    refine ⟨⟨fun _ inside => absurd inside List.not_mem_nil, Nat.zero_le _, .inl rfl⟩, ?_⟩
    exact iff_of_true rfl (by rintro ⟨⟨⟩, _⟩)
  | true =>
    obtain ⟨filled, codes⟩ := @fillChannels_eq region survey chans
      ⟨some [], chansToAllocate region survey chans⟩ [] rfl (Nat.le_of_eq (Nat.zero_add _))
    have nodup := nodup_foldl_appendNew List.nodup_nil
      (chans.flatMap (channelsFor region survey))
    have mem (channel : Channel) :
        channel ∈ (chans.flatMap (channelsFor region survey)).foldl appendNew [] ↔
          Wanted region survey chans channel := by
      rw [mem_foldl_appendNew, mem_channelsFor_iff]
      exact or_iff_right List.not_mem_nil
    have inside : ((chans.flatMap (channelsFor region survey)).foldl appendNew []).length ≤
        chansToAllocate region survey chans := length_filled_le region survey chans
    rw [filled, Option.getD_some]
    cases powersAllocated with
    | false =>
      exact ⟨⟨codes, inside, .inl rfl⟩, iff_of_true rfl (by rintro ⟨_, ⟨⟩⟩)⟩
    | true =>
      have enough := enough_numPwrsCoarse nodup fun channel listed =>
        ((mem channel).mp listed).mapped
      obtain ⟨listed, powers, made, ready, _, shown, found⟩ :=
        @exists_listPowers _ _ enough _ (fun _ listed => listed) ⟨[], 0⟩
          ⟨rfl, List.nodup_nil, fun _ listed => absurd listed List.not_mem_nil⟩
      refine ⟨⟨codes, inside, .inr ⟨listed, powers, made, ?_⟩⟩, ?_⟩
      · constructor
        · rw [shown]
          exact nodup
        · intro channel
          rw [shown]
          exact mem channel
        · intro entry listed
          rw [ready.counted]
          exact (List.getElem?_eq_some_iff.mp (found entry listed)).1
        · exact found
        · exact ready.counted
        · exact ready.nodup
      · rw [made]
        exact iff_of_false (by rintro ⟨⟩) (not_not.mpr ⟨rfl, rfl⟩)

theorem sound_initialised_us :
    chansToAllocate .us false [42, 36] < 65536 ∧
    (hwScanInitialiseChannelAndPowerLists .us false [42, 36] true true).Sound
      (chansToAllocate .us false [42, 36]) (Wanted .us false [42, 36]) :=
  ⟨by decide, (sound_initialised .us false (by decide) true true).1⟩

/-! ## A survey, and too many requests -/

/-- What would be wanted if no wide channel were ever listed. -/
def NarrowWanted (region : Region) (survey : Bool) (chans : List Nat) (channel : Channel) : Prop :=
  ∃ chan5g ∈ chans, ∃ requested, lookupS1gChanFrom5gChan region chan5g = some requested ∧
    (requested.bw ≤ 2 ∧ channel = requested ∨
      Deconstructed survey requested ∧ channel ∈ s1gChannels region ∧
        IsPrimaryOf channel requested)

theorem chansToAllocate_replicate (count : Nat) :
    chansToAllocate .us false (List.replicate count 36) = count := by
  induction count with
  | zero => rfl
  | succ count ih =>
    rw [List.replicate_succ, chansToAllocate, ih]
    exact Nat.add_comm 1 count

theorem enomem_mem_fillChannels (chans : List Nat) :
    enomem ∈ (fillChannels .us false (36 :: chans) ⟨some [], 0⟩).2 := by
  exact List.mem_cons_self

/-- A survey lists a channel of 4 MHz itself, and 65536 requests of one channel are counted as
none. -/
theorem not_sound_narrowWanted :
    ¬(hwScanInitialiseChannelAndPowerLists .us true [42] true true).Sound
        (chansToAllocate .us true [42]) (NarrowWanted .us true [42]) ∧
    ¬(hwScanInitialiseChannelAndPowerLists .us false (List.replicate 65536 36) true true).Sound
        (chansToAllocate .us false (List.replicate 65536 36))
        (NarrowWanted .us false (List.replicate 65536 36)) := by
  constructor
  · intro sound
    rcases sound.lists with none | ⟨listed, powers, lists, right⟩
    · cases none
    · cases lists
      obtain ⟨chan5g, asked, requested, found, is⟩ :=
        (right.mem_iff (chans1ghz 8 906 0 ieee80211Chan4mhz 3600 42)).mp List.mem_cons_self
      rw [List.mem_singleton.mp asked] at found
      cases found
      rcases is with ⟨narrow, _⟩ | ⟨replaced, _⟩
      · exact absurd narrow (by decide)
      · exact absurd replaced (by decide)
  · intro sound
    have code := sound.inserted enomem
    unfold hwScanInitialiseChannelAndPowerLists at code
    rw [chansToAllocate_replicate, if_neg (by decide)] at code
    exact absurd (code (enomem_mem_fillChannels (List.replicate 65535 36))) (by decide)

end HwScan
end Morse
