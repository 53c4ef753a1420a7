import Morse.HwScan.Channels
import Morse.Lib.Distinct

/-!
# The lists of a scan

The channels of a scan and their powers are put into two arrays.  The one for the channels is as
long as a count over what is requested, the one for the powers as the count of changes from one
channel to the next.
-/

namespace Morse
namespace HwScan

open Lib

/-! ## Channels -/

/-- What is filled first of `struct morse_hw_scan_params`; the channels are NULL or those that were
inserted, `num_chans` in number. -/
structure ChannelParams where
  channels : Option (List Channel)
  allocatedChans : Nat

/-- Return codes: `-EFAULT`, `-ENOMEM`, `-EINVAL`. -/
def efault : Int := -14
@[inherit_doc efault] def enomem : Int := -12
@[inherit_doc efault] def einval : Int := -22

/-- The capacity is checked before the channel is looked for. -/
def insertChannelIntoHwScanList
    (params : ChannelParams)
    (chan : Option Channel) :
    ChannelParams × Int :=
  match params.channels, chan with
  | none, _ => (params, efault)
  | some _, none => (params, efault)
  | some channels, some chan =>
    if params.allocatedChans ≤ channels.length then (params, enomem)
    else if chan ∈ channels then (params, 0)
    else ({ params with channels := some (channels ++ [chan]) }, 0)

/-- The loops over the primary channels of a channel: one that is not defined is passed over, one
that cannot be inserted ends them. -/
def insertPrimaries
    (region : Region)
    (chan : Channel) :
    List (Nat × Nat) → ChannelParams → ChannelParams × Int
  | [], params => (params, 0)
  | place :: places, params =>
    match primaryAt region chan place with
    | none => insertPrimaries region chan places params
    | some s1gChan =>
      let inserted := insertChannelIntoHwScanList params (some s1gChan)
      if inserted.2 ≠ 0 then inserted
      else insertPrimaries region chan places inserted.1

/-- A channel wider than 2 MHz is replaced by its primary channels. -/
def deconstructScanChannelIntoScanList
    (region : Region)
    (params : ChannelParams)
    (chan : Option Channel) :
    ChannelParams × Int :=
  match chan with
  | none => (params, efault)
  | some chan =>
    if chan.bw ≤ 2 ∨ 8 < chan.bw then (params, einval)
    else insertPrimaries region chan (primaryPlaces chan.bw) params

/-- Whether a channel is deconstructed. -/
def Deconstructed (survey : Bool) (chan : Channel) : Prop := survey = false ∧ 2 < chan.bw

instance (survey : Bool) (chan : Channel) : Decidable (Deconstructed survey chan) :=
  inferInstanceAs (Decidable (_ ∧ _))

/-- How many places are counted for a requested channel. -/
def placesFor (region : Region) (survey : Bool) (chan5g : Nat) : Nat :=
  match lookupS1gChanFrom5gChan region chan5g with
  | none => 0
  | some chan => if Deconstructed survey chan then chan.bw / 1 + chan.bw / 2 else 1

/-- `chans_to_allocate` after its loop. -/
def chansToAllocate (region : Region) (survey : Bool) : List Nat → Nat
  | [] => 0
  | chan5g :: chans => placesFor region survey chan5g + chansToAllocate region survey chans

/-- The loop that fills the channels.  What the insertions return is dropped by the code; here it
is noted. -/
def fillChannels
    (region : Region)
    (survey : Bool) :
    List Nat → ChannelParams → ChannelParams × List Int
  | [], params => (params, [])
  | chan5g :: chans, params =>
    match lookupS1gChanFrom5gChan region chan5g with
    | none => fillChannels region survey chans params
    | some chan =>
      let inserted :=
        if Deconstructed survey chan then
          deconstructScanChannelIntoScanList region params (some chan)
        else insertChannelIntoHwScanList params (some chan)
      let filled := fillChannels region survey chans inserted.1
      (filled.1, inserted.2 :: filled.2)

/-! ## Powers -/

/-- An element of `params->channels` at the end. -/
structure ListedChannel where
  channel : Channel
  powerIdx : Nat
  deriving DecidableEq

/-- `params->powers_qdbm` with what has been written of it, and `params->n_powers`. -/
structure PowerList where
  powersQdbm : List Int
  nPowers : Nat
  deriving DecidableEq

/-- How the initialisation can end early: an allocation fails, the check of the number of powers
fails, or a power is written behind its array. -/
inductive Stop
  | noMemory
  | tooManyPowers
  | overrun
  deriving DecidableEq

/-- `INT_MIN`. -/
def intMin : Int := -2147483648

/-- `MBM_TO_QDBM`. -/
def mbmToQdbm (gain : Int) : Int := (gain * 4).tdiv 100

/-- The power of a channel in quarters of a dBm. -/
def Channel.powerQdbm (chan : Channel) : Int := mbmToQdbm chan.maxRegPower

/-- `num_pwrs_coarse` after its loop. -/
def numPwrsCoarse (channels : List Channel) : Nat := changes Channel.maxRegPower intMin channels

/-- A power is looked for, and else added at the end, which is counted in 8 bits.  The array is
written before the count is checked. -/
def listPower (coarse : Nat) (list : PowerList) (powerQdbm : Int) : Except Stop (PowerList × Nat) :=
  let j := (list.powersQdbm.take list.nPowers).findIdx fun listed => listed = powerQdbm
  if j = list.nPowers then
    if coarse ≤ j then .error .overrun
    else
      let nPowers := (list.nPowers + 1) % 256
      if coarse < nPowers then .error .tooManyPowers
      else
        .ok (⟨list.powersQdbm.take j ++ powerQdbm :: list.powersQdbm.drop (j + 1), nPowers⟩, j)
  else .ok (list, j)

/-- The loop that lists the powers and gives every channel its index, of 8 bits. -/
def listPowers (coarse : Nat) :
    List Channel → PowerList → Except Stop (List ListedChannel × PowerList)
  | [], list => .ok ([], list)
  | channel :: channels, list =>
    match listPower coarse list channel.powerQdbm with
    | .error stop => .error stop
    | .ok (list, j) =>
      match listPowers coarse channels list with
      | .error stop => .error stop
      | .ok (listed, list) => .ok (⟨channel, j % 256⟩ :: listed, list)

/-- What an initialisation leads to: what the insertions returned, the channels that were written,
and the lists. -/
structure Initialised where
  inserted : List Int
  channels : List Channel
  lists : Except Stop (List ListedChannel × PowerList)

/-- The lists for requested channels; whether there is memory for the two arrays is given.  The
number of allocated channels is kept in 16 bits. -/
def hwScanInitialiseChannelAndPowerLists
    (region : Region)
    (survey : Bool)
    (chans : List Nat)
    (channelsAllocated powersAllocated : Bool) :
    Initialised :=
  if channelsAllocated = false then ⟨[], [], .error .noMemory⟩
  else
    let allocatedChans := chansToAllocate region survey chans % 65536
    let filled := fillChannels region survey chans ⟨some [], allocatedChans⟩
    let channels := filled.1.channels.getD []
    if powersAllocated = false then ⟨filled.2, channels, .error .noMemory⟩
    else ⟨filled.2, channels, listPowers (numPwrsCoarse channels) channels ⟨[], 0⟩⟩

/-! ## The channels that are wanted -/

/-- The channels that are inserted for a requested one. -/
def channelsFor (region : Region) (survey : Bool) (chan5g : Nat) : List Channel :=
  match lookupS1gChanFrom5gChan region chan5g with
  | none => []
  | some chan =>
    if Deconstructed survey chan then
      (primaryPlaces chan.bw).filterMap (primaryAt region chan)
    else [chan]

/-- The primary channels of a requested channel are wanted in place of a wide one, unless this is
a survey. -/
def Wanted (region : Region) (survey : Bool) (chans : List Nat) (channel : Channel) : Prop :=
  ∃ chan5g ∈ chans, ∃ requested, lookupS1gChanFrom5gChan region chan5g = some requested ∧
    if Deconstructed survey requested then
      channel ∈ s1gChannels region ∧ IsPrimaryOf channel requested
    else channel = requested

variable {region : Region} {chan : Channel}

theorem mapped_of_lookup (found : lookupS1gChanFrom5gChan region chan5g = some chan) :
    chan ∈ s1gChannels region :=
  List.mem_of_find?_eq_some found

theorem mem_channelsFor_iff (region : Region) (survey : Bool) (chans : List Nat)
  (channel : Channel) :
    channel ∈ chans.flatMap (channelsFor region survey) ↔ Wanted region survey chans channel := by
  rw [List.mem_flatMap]
  apply exists_congr
  intro chan5g
  apply and_congr_right
  intro _
  unfold channelsFor
  cases found : lookupS1gChanFrom5gChan region chan5g with
  | none => simp
  | some requested =>
    have mapped := mapped_of_lookup found
    simp only [Option.some.injEq, exists_eq_left']
    split
    case isTrue wide => exact mem_primaries_iff mapped wide.2 channel
    case isFalse => exact List.mem_singleton

variable {survey : Bool} {chans : List Nat}

theorem Wanted.mapped (wanted : Wanted region survey chans channel) :
    channel ∈ s1gChannels region := by
  obtain ⟨chan5g, _, requested, found, is⟩ := wanted
  split at is
  · exact is.1
  · rw [is]
    exact mapped_of_lookup found

/-! ## The array of channels is long enough -/

variable {params : ChannelParams} {channels : List Channel}

theorem insertChannelIntoHwScanList_eq (allocated : params.channels = some channels)
    (room : channels.length < params.allocatedChans) (chan : Channel) :
    insertChannelIntoHwScanList params (some chan) =
      ({ params with channels := some (appendNew channels chan) }, 0) := by
  unfold insertChannelIntoHwScanList appendNew
  rw [allocated]
  dsimp only
  rw [if_neg (Nat.not_le.mpr room)]
  split
  · rw [← allocated]
  · rfl

theorem insertPrimaries_eq (allocated : params.channels = some channels)
    (room : channels.length + places.length ≤ params.allocatedChans) :
    insertPrimaries region chan places params =
      ({ params with
          channels := some ((places.filterMap (primaryAt region chan)).foldl appendNew channels) },
        0) := by
  induction places generalizing params channels with
  | nil =>
    rw [insertPrimaries, List.filterMap_nil, List.foldl_nil, ← allocated]
  | cons place places ih =>
    rw [List.length_cons] at room
    unfold insertPrimaries
    cases found : primaryAt region chan place with
    | none =>
      rw [ih allocated (by omega), List.filterMap_cons_none found]
    | some s1gChan =>
      have longer := length_appendNew_le channels s1gChan
      dsimp only
      rw [insertChannelIntoHwScanList_eq allocated (by omega)]
      rw [if_neg (not_not.mpr rfl), ih rfl (by dsimp only; omega),
        List.filterMap_cons_some found, List.foldl_cons]

theorem length_primaryPlaces (wide : opBw = 4 ∨ opBw = 8) :
    (primaryPlaces opBw).length = opBw / 1 + opBw / 2 := by
  rcases wide with rfl | rfl <;> rfl

theorem length_channelsFor_le (region : Region) (survey : Bool) (chan5g : Nat) :
    (channelsFor region survey chan5g).length ≤ placesFor region survey chan5g := by
  unfold channelsFor placesFor
  cases found : lookupS1gChanFrom5gChan region chan5g with
  | none => exact Nat.le_refl _
  | some chan =>
    dsimp only
    split
    case isTrue wide =>
      have is4or8 : chan.bw = 4 ∨ chan.bw = 8 := by
        have width := bw_of_mem (mapped_of_lookup found)
        have wider := wide.2
        omega
      rw [← length_primaryPlaces is4or8]
      exact List.length_filterMap_le _ _
    case isFalse => exact Nat.le_refl _

theorem length_filled_le (region : Region) (survey : Bool) (chans : List Nat) :
    ((chans.flatMap (channelsFor region survey)).foldl appendNew []).length ≤
      chansToAllocate region survey chans := by
  apply Nat.le_trans (length_foldl_appendNew_le _ _)
  rw [List.length_nil, Nat.zero_add]
  induction chans with
  | nil => exact Nat.le_refl _
  | cons chan5g chans ih =>
    rw [List.flatMap_cons, List.length_append]
    exact Nat.add_le_add (length_channelsFor_le region survey chan5g) ih

theorem fillChannels_eq (allocated : params.channels = some channels)
    (room : channels.length + chansToAllocate region survey chans ≤ params.allocatedChans) :
    (fillChannels region survey chans params).1.channels =
        some ((chans.flatMap (channelsFor region survey)).foldl appendNew channels) ∧
      ∀ code ∈ (fillChannels region survey chans params).2, code = 0 := by
  induction chans generalizing params channels with
  | nil => exact ⟨allocated, fun _ inside => absurd inside List.not_mem_nil⟩
  | cons chan5g chans ih =>
    rw [chansToAllocate] at room
    have fits := length_channelsFor_le region survey chan5g
    have longer := length_foldl_appendNew_le (channelsFor region survey chan5g) channels
    rw [List.flatMap_cons, List.foldl_append]
    -- One requested channel is inserted with all that stands for it.
    have one : ∀ chan, lookupS1gChanFrom5gChan region chan5g = some chan →
        (if Deconstructed survey chan then
            deconstructScanChannelIntoScanList region params (some chan)
          else insertChannelIntoHwScanList params (some chan)) =
        ({ params with
            channels := some ((channelsFor region survey chan5g).foldl appendNew channels) },
          0) := by
      intro chan found
      have counted : placesFor region survey chan5g =
          if Deconstructed survey chan then chan.bw / 1 + chan.bw / 2 else 1 := by
        rw [placesFor, found]
      unfold channelsFor
      rw [found]
      dsimp only
      split
      case isTrue wide =>
        rw [if_pos wide] at counted
        have width := bw_of_mem (mapped_of_lookup found)
        have wider := wide.2
        have places := @length_primaryPlaces chan.bw (by omega)
        have enough :
            channels.length + (primaryPlaces chan.bw).length ≤ params.allocatedChans := by omega
        unfold deconstructScanChannelIntoScanList
        dsimp only
        rw [if_neg (by omega), insertPrimaries_eq allocated enough]
      case isFalse narrow =>
        rw [if_neg narrow] at counted
        exact insertChannelIntoHwScanList_eq allocated (by omega) chan
    unfold fillChannels
    cases found : lookupS1gChanFrom5gChan region chan5g with
    | none =>
      have nothing : channelsFor region survey chan5g = [] := by rw [channelsFor, found]
      rw [nothing, List.foldl_nil]
      exact ih allocated (by omega)
    | some chan =>
      dsimp only
      rw [one chan found]
      obtain ⟨filled, codes⟩ := @ih
        { params with
          channels := some ((channelsFor region survey chan5g).foldl appendNew channels) }
        _ rfl (by dsimp only; omega)
      refine ⟨filled, ?_⟩
      intro code noted
      rcases List.mem_cons.mp noted with rfl | noted
      · rfl
      · exact codes code noted

end HwScan
end Morse
