import Mathlib.Algebra.Group.Nat.Defs
import Mathlib.Order.Basic

/-!
# The channels of a region

Every region has a table of sub-1-GHz channels.  A channel wider than 2 MHz is made of narrower
primary channels, and each table has all of them.
-/

namespace Morse
namespace HwScan

/-- The regions that have a table of channels. -/
inductive Region
  | au | ca | eu | gb | india | jp | kr | nz | sg | us
  deriving DecidableEq, Repr

/-- `struct morse_dot11ah_channel`, with the fields that are read of `ch`: frequencies in MHz and
kHz, the power in mBm. -/
structure Channel where
  centerFreq : Nat
  freqOffset : Nat
  hwValue : Nat
  flags : Nat
  maxRegPower : Int
  hwValueMap : Nat
  deriving DecidableEq, Repr

/-- `IEEE80211_CHAN_1MHZ`. -/
def ieee80211Chan1mhz : Nat := 2 ^ 14

/-- `IEEE80211_CHAN_2MHZ`. -/
def ieee80211Chan2mhz : Nat := 2 ^ 15

/-- `IEEE80211_CHAN_4MHZ`. -/
def ieee80211Chan4mhz : Nat := 2 ^ 16

/-- `IEEE80211_CHAN_8MHZ`. -/
def ieee80211Chan8mhz : Nat := 2 ^ 17

/-- `CHANNEL_FLAGS_BW_MASK`. -/
def channelFlagsBwMask : Nat := 0x7c000

/-- `CHANS1GHZ`. -/
def chans1ghz (channel frequency offset chflags : Nat) (power : Int) (ch5g : Nat) : Channel where
  centerFreq := frequency
  freqOffset := offset
  hwValue := channel
  flags := chflags
  maxRegPower := power
  hwValueMap := ch5g

/-! ## The tables -/

/-- The AU map. -/
def auS1gChannels : List Channel :=
  [chans1ghz 27 915 500 ieee80211Chan1mhz 3000 112,
   chans1ghz 29 916 500 ieee80211Chan1mhz 3000 116,
   chans1ghz 31 917 500 ieee80211Chan1mhz 3000 120,
   chans1ghz 33 918 500 ieee80211Chan1mhz 3000 124,
   chans1ghz 35 919 500 ieee80211Chan1mhz 3000 128,
   chans1ghz 37 920 500 ieee80211Chan1mhz 3000 149,
   chans1ghz 39 921 500 ieee80211Chan1mhz 3000 153,
   chans1ghz 41 922 500 ieee80211Chan1mhz 3000 157,
   chans1ghz 43 923 500 ieee80211Chan1mhz 3000 161,
   chans1ghz 45 924 500 ieee80211Chan1mhz 3000 165,
   chans1ghz 47 925 500 ieee80211Chan1mhz 3000 169,
   chans1ghz 49 926 500 ieee80211Chan1mhz 3000 173,
   chans1ghz 51 927 500 ieee80211Chan1mhz 3000 177,
   chans1ghz 30 917 0 ieee80211Chan2mhz 3000 118,
   chans1ghz 34 919 0 ieee80211Chan2mhz 3000 126,
   chans1ghz 38 921 0 ieee80211Chan2mhz 3000 151,
   chans1ghz 42 923 0 ieee80211Chan2mhz 3000 159,
   chans1ghz 46 925 0 ieee80211Chan2mhz 3000 167,
   chans1ghz 50 927 0 ieee80211Chan2mhz 3000 175,
   chans1ghz 32 918 0 ieee80211Chan4mhz 3000 122,
   chans1ghz 40 922 0 ieee80211Chan4mhz 3000 155,
   chans1ghz 48 926 0 ieee80211Chan4mhz 3000 171,
   chans1ghz 44 924 0 ieee80211Chan8mhz 3000 163]

/-- The CA map. -/
def caS1gChannels : List Channel :=
  [chans1ghz 1 902 500 ieee80211Chan1mhz 3600 132,
   chans1ghz 3 903 500 ieee80211Chan1mhz 3600 136,
   chans1ghz 5 904 500 ieee80211Chan1mhz 3600 36,
   chans1ghz 7 905 500 ieee80211Chan1mhz 3600 40,
   chans1ghz 9 906 500 ieee80211Chan1mhz 3600 44,
   chans1ghz 11 907 500 ieee80211Chan1mhz 3600 48,
   chans1ghz 13 908 500 ieee80211Chan1mhz 3600 52,
   chans1ghz 15 909 500 ieee80211Chan1mhz 3600 56,
   chans1ghz 17 910 500 ieee80211Chan1mhz 3600 60,
   chans1ghz 19 911 500 ieee80211Chan1mhz 3600 64,
   chans1ghz 21 912 500 ieee80211Chan1mhz 3600 100,
   chans1ghz 23 913 500 ieee80211Chan1mhz 3600 104,
   chans1ghz 25 914 500 ieee80211Chan1mhz 3600 108,
   chans1ghz 27 915 500 ieee80211Chan1mhz 3600 112,
   chans1ghz 29 916 500 ieee80211Chan1mhz 3600 116,
   chans1ghz 31 917 500 ieee80211Chan1mhz 3600 120,
   chans1ghz 33 918 500 ieee80211Chan1mhz 3600 124,
   chans1ghz 35 919 500 ieee80211Chan1mhz 3600 128,
   chans1ghz 37 920 500 ieee80211Chan1mhz 3600 149,
   chans1ghz 39 921 500 ieee80211Chan1mhz 3600 153,
   chans1ghz 41 922 500 ieee80211Chan1mhz 3600 157,
   chans1ghz 43 923 500 ieee80211Chan1mhz 3600 161,
   chans1ghz 45 924 500 ieee80211Chan1mhz 3600 165,
   chans1ghz 47 925 500 ieee80211Chan1mhz 3600 169,
   chans1ghz 49 926 500 ieee80211Chan1mhz 3600 173,
   chans1ghz 51 927 500 ieee80211Chan1mhz 3600 177,
   chans1ghz 2 903 0 ieee80211Chan2mhz 3600 134,
   chans1ghz 6 905 0 ieee80211Chan2mhz 3600 38,
   chans1ghz 10 907 0 ieee80211Chan2mhz 3600 46,
   chans1ghz 14 909 0 ieee80211Chan2mhz 3600 54,
   chans1ghz 18 911 0 ieee80211Chan2mhz 3600 62,
   chans1ghz 22 913 0 ieee80211Chan2mhz 3600 102,
   chans1ghz 26 915 0 ieee80211Chan2mhz 3600 110,
   chans1ghz 30 917 0 ieee80211Chan2mhz 3600 118,
   chans1ghz 34 919 0 ieee80211Chan2mhz 3600 126,
   chans1ghz 38 921 0 ieee80211Chan2mhz 3600 151,
   chans1ghz 42 923 0 ieee80211Chan2mhz 3600 159,
   chans1ghz 46 925 0 ieee80211Chan2mhz 3600 167,
   chans1ghz 50 927 0 ieee80211Chan2mhz 3600 175,
   chans1ghz 8 906 0 ieee80211Chan4mhz 3600 42,
   chans1ghz 16 910 0 ieee80211Chan4mhz 3600 58,
   chans1ghz 24 914 0 ieee80211Chan4mhz 3600 106,
   chans1ghz 32 918 0 ieee80211Chan4mhz 3600 122,
   chans1ghz 40 922 0 ieee80211Chan4mhz 3600 155,
   chans1ghz 48 926 0 ieee80211Chan4mhz 3600 171,
   chans1ghz 12 908 0 ieee80211Chan8mhz 3600 50,
   chans1ghz 28 916 0 ieee80211Chan8mhz 3600 114,
   chans1ghz 44 924 0 ieee80211Chan8mhz 3600 163]

/-- The EU map. -/
def euS1gChannels : List Channel :=
  [chans1ghz 1 863 500 ieee80211Chan1mhz 1613 132,
   chans1ghz 3 864 500 ieee80211Chan1mhz 1613 136,
   chans1ghz 5 865 500 ieee80211Chan1mhz 1613 36,
   chans1ghz 7 866 500 ieee80211Chan1mhz 1613 40,
   chans1ghz 9 867 500 ieee80211Chan1mhz 1613 44,
   chans1ghz 2 864 0 ieee80211Chan2mhz 1613 134,
   chans1ghz 6 866 0 ieee80211Chan2mhz 1613 38]

/-- The GB map. -/
def gbS1gChannels : List Channel :=
  [chans1ghz 1 863 500 ieee80211Chan1mhz 1613 132,
   chans1ghz 3 864 500 ieee80211Chan1mhz 1613 136,
   chans1ghz 5 865 500 ieee80211Chan1mhz 1613 36,
   chans1ghz 7 866 500 ieee80211Chan1mhz 1613 40,
   chans1ghz 9 867 500 ieee80211Chan1mhz 1613 44,
   chans1ghz 2 864 0 ieee80211Chan2mhz 1613 134,
   chans1ghz 6 866 0 ieee80211Chan2mhz 1613 38,
   chans1ghz 33 917 899 ieee80211Chan1mhz 1613 124,
   chans1ghz 35 918 899 ieee80211Chan1mhz 1613 128]

/-- The IN map. -/
def inS1gChannels : List Channel :=
  [chans1ghz 5 865 500 ieee80211Chan1mhz 1613 36,
   chans1ghz 7 866 500 ieee80211Chan1mhz 1613 40,
   chans1ghz 9 867 500 ieee80211Chan1mhz 1613 44]

/-- The JP map. -/
def jpS1gChannels : List Channel :=
  [chans1ghz 9 921 0 ieee80211Chan1mhz 1600 108,
   chans1ghz 13 923 0 ieee80211Chan1mhz 1600 36,
   chans1ghz 15 924 0 ieee80211Chan1mhz 1600 40,
   chans1ghz 17 925 0 ieee80211Chan1mhz 1600 44,
   chans1ghz 19 926 0 ieee80211Chan1mhz 1600 48,
   chans1ghz 21 927 0 ieee80211Chan1mhz 1600 64,
   chans1ghz 2 923 500 ieee80211Chan2mhz 1600 38,
   chans1ghz 4 924 500 ieee80211Chan2mhz 1600 54,
   chans1ghz 6 925 500 ieee80211Chan2mhz 1600 46,
   chans1ghz 8 926 500 ieee80211Chan2mhz 1600 62,
   chans1ghz 36 924 500 ieee80211Chan4mhz 1600 42,
   chans1ghz 38 925 500 ieee80211Chan4mhz 1600 58]

/-- The KR map. -/
def krS1gChannels : List Channel :=
  [chans1ghz 1 918 0 ieee80211Chan1mhz 477 132,
   chans1ghz 3 919 0 ieee80211Chan1mhz 477 136,
   chans1ghz 5 920 0 ieee80211Chan1mhz 477 36,
   chans1ghz 7 921 0 ieee80211Chan1mhz 477 40,
   chans1ghz 9 922 0 ieee80211Chan1mhz 1000 44,
   chans1ghz 11 923 0 ieee80211Chan1mhz 1000 48,
   chans1ghz 2 918 500 ieee80211Chan2mhz 477 134,
   chans1ghz 6 920 500 ieee80211Chan2mhz 477 38,
   chans1ghz 10 922 500 ieee80211Chan2mhz 1000 46,
   chans1ghz 8 921 500 ieee80211Chan4mhz 477 42,
   chans1ghz 18 926 500 ieee80211Chan1mhz 1700 62,
   chans1ghz 22 928 500 ieee80211Chan1mhz 1700 102,
   chans1ghz 24 929 500 ieee80211Chan1mhz 1700 106,
   chans1ghz 19 927 0 ieee80211Chan2mhz 2000 64,
   chans1ghz 23 929 0 ieee80211Chan2mhz 2000 104]

/-- The NZ map. -/
def nzS1gChannels : List Channel :=
  [chans1ghz 27 915 500 ieee80211Chan1mhz 3000 112,
   chans1ghz 29 916 500 ieee80211Chan1mhz 3000 116,
   chans1ghz 31 917 500 ieee80211Chan1mhz 3000 120,
   chans1ghz 33 918 500 ieee80211Chan1mhz 3000 124,
   chans1ghz 35 919 500 ieee80211Chan1mhz 3000 128,
   chans1ghz 37 920 500 ieee80211Chan1mhz 3600 149,
   chans1ghz 39 921 500 ieee80211Chan1mhz 3600 153,
   chans1ghz 41 922 500 ieee80211Chan1mhz 3600 157,
   chans1ghz 43 923 500 ieee80211Chan1mhz 3600 161,
   chans1ghz 45 924 500 ieee80211Chan1mhz 3600 165,
   chans1ghz 47 925 500 ieee80211Chan1mhz 3600 169,
   chans1ghz 49 926 500 ieee80211Chan1mhz 3600 173,
   chans1ghz 51 927 500 ieee80211Chan1mhz 3600 177,
   chans1ghz 30 917 0 ieee80211Chan2mhz 3000 118,
   chans1ghz 34 919 0 ieee80211Chan2mhz 3000 126,
   chans1ghz 38 921 0 ieee80211Chan2mhz 3600 151,
   chans1ghz 42 923 0 ieee80211Chan2mhz 3600 159,
   chans1ghz 46 925 0 ieee80211Chan2mhz 3600 167,
   chans1ghz 50 927 0 ieee80211Chan2mhz 3600 175,
   chans1ghz 32 918 0 ieee80211Chan4mhz 3000 122,
   chans1ghz 40 922 0 ieee80211Chan4mhz 3600 155,
   chans1ghz 48 926 0 ieee80211Chan4mhz 3600 171,
   chans1ghz 44 924 0 ieee80211Chan8mhz 3600 163]

/-- The SG map. -/
def sgS1gChannels : List Channel :=
  [chans1ghz 7 866 500 ieee80211Chan1mhz 2914 40,
   chans1ghz 9 867 500 ieee80211Chan1mhz 2914 44,
   chans1ghz 11 868 500 ieee80211Chan1mhz 2914 48,
   chans1ghz 37 920 500 ieee80211Chan1mhz 2215 149,
   chans1ghz 39 921 500 ieee80211Chan1mhz 2215 153,
   chans1ghz 41 922 500 ieee80211Chan1mhz 2215 157,
   chans1ghz 43 923 500 ieee80211Chan1mhz 2215 161,
   chans1ghz 45 924 500 ieee80211Chan1mhz 2215 165,
   chans1ghz 10 868 0 ieee80211Chan2mhz 2914 46,
   chans1ghz 38 921 0 ieee80211Chan2mhz 2215 151,
   chans1ghz 42 923 0 ieee80211Chan2mhz 2215 159,
   chans1ghz 40 922 0 ieee80211Chan4mhz 2215 155]

/-- The US map. -/
def usS1gChannels : List Channel :=
  [chans1ghz 1 902 500 ieee80211Chan1mhz 3600 132,
   chans1ghz 3 903 500 ieee80211Chan1mhz 3600 136,
   chans1ghz 5 904 500 ieee80211Chan1mhz 3600 36,
   chans1ghz 7 905 500 ieee80211Chan1mhz 3600 40,
   chans1ghz 9 906 500 ieee80211Chan1mhz 3600 44,
   chans1ghz 11 907 500 ieee80211Chan1mhz 3600 48,
   chans1ghz 13 908 500 ieee80211Chan1mhz 3600 52,
   chans1ghz 15 909 500 ieee80211Chan1mhz 3600 56,
   chans1ghz 17 910 500 ieee80211Chan1mhz 3600 60,
   chans1ghz 19 911 500 ieee80211Chan1mhz 3600 64,
   chans1ghz 21 912 500 ieee80211Chan1mhz 3600 100,
   chans1ghz 23 913 500 ieee80211Chan1mhz 3600 104,
   chans1ghz 25 914 500 ieee80211Chan1mhz 3600 108,
   chans1ghz 27 915 500 ieee80211Chan1mhz 3600 112,
   chans1ghz 29 916 500 ieee80211Chan1mhz 3600 116,
   chans1ghz 31 917 500 ieee80211Chan1mhz 3600 120,
   chans1ghz 33 918 500 ieee80211Chan1mhz 3600 124,
   chans1ghz 35 919 500 ieee80211Chan1mhz 3600 128,
   chans1ghz 37 920 500 ieee80211Chan1mhz 3600 149,
   chans1ghz 39 921 500 ieee80211Chan1mhz 3600 153,
   chans1ghz 41 922 500 ieee80211Chan1mhz 3600 157,
   chans1ghz 43 923 500 ieee80211Chan1mhz 3600 161,
   chans1ghz 45 924 500 ieee80211Chan1mhz 3600 165,
   chans1ghz 47 925 500 ieee80211Chan1mhz 3600 169,
   chans1ghz 49 926 500 ieee80211Chan1mhz 3600 173,
   chans1ghz 51 927 500 ieee80211Chan1mhz 3600 177,
   chans1ghz 2 903 0 ieee80211Chan2mhz 3600 134,
   chans1ghz 6 905 0 ieee80211Chan2mhz 3600 38,
   chans1ghz 10 907 0 ieee80211Chan2mhz 3600 46,
   chans1ghz 14 909 0 ieee80211Chan2mhz 3600 54,
   chans1ghz 18 911 0 ieee80211Chan2mhz 3600 62,
   chans1ghz 22 913 0 ieee80211Chan2mhz 3600 102,
   chans1ghz 26 915 0 ieee80211Chan2mhz 3600 110,
   chans1ghz 30 917 0 ieee80211Chan2mhz 3600 118,
   chans1ghz 34 919 0 ieee80211Chan2mhz 3600 126,
   chans1ghz 38 921 0 ieee80211Chan2mhz 3600 151,
   chans1ghz 42 923 0 ieee80211Chan2mhz 3600 159,
   chans1ghz 46 925 0 ieee80211Chan2mhz 3600 167,
   chans1ghz 50 927 0 ieee80211Chan2mhz 3600 175,
   chans1ghz 8 906 0 ieee80211Chan4mhz 3600 42,
   chans1ghz 16 910 0 ieee80211Chan4mhz 3600 58,
   chans1ghz 24 914 0 ieee80211Chan4mhz 3600 106,
   chans1ghz 32 918 0 ieee80211Chan4mhz 3600 122,
   chans1ghz 40 922 0 ieee80211Chan4mhz 3600 155,
   chans1ghz 48 926 0 ieee80211Chan4mhz 3600 171,
   chans1ghz 12 908 0 ieee80211Chan8mhz 3600 50,
   chans1ghz 28 916 0 ieee80211Chan8mhz 3600 114,
   chans1ghz 44 924 0 ieee80211Chan8mhz 3600 163]


/-- The channels that are mapped in a region. -/
def s1gChannels : Region → List Channel
  | .au => auS1gChannels
  | .ca => caS1gChannels
  | .eu => euS1gChannels
  | .gb => gbS1gChannels
  | .india => inS1gChannels
  | .jp => jpS1gChannels
  | .kr => krS1gChannels
  | .nz => nzS1gChannels
  | .sg => sgS1gChannels
  | .us => usS1gChannels

/-! ## Looking channels up -/

/-- The bandwidth in MHz that the flags of a channel say. -/
def chFlagToChanBw (flags : Nat) : Nat :=
  let bw := flags &&& channelFlagsBwMask
  if bw = ieee80211Chan1mhz then 1
  else if bw = ieee80211Chan2mhz then 2
  else if bw = ieee80211Chan4mhz then 4
  else if bw = ieee80211Chan8mhz then 8
  else 0

/-- The bandwidth of a channel in MHz. -/
def Channel.bw (chan : Channel) : Nat := chFlagToChanBw chan.flags

/-- In Japan some primary channels are mapped to several 5 GHz channels, of which the first is
kept. -/
def transformOverlapping5gChanJp (chan5g : Nat) : Nat :=
  if chan5g = 52 ∨ chan5g = 56 ∨ chan5g = 60 then chan5g - 12 else chan5g

/-- The channel that a 5 GHz channel stands for. -/
def lookupS1gChanFrom5gChan (region : Region) (chan5g : Nat) : Option Channel :=
  let chan5g := if region = .jp then transformOverlapping5gChanJp chan5g else chan5g
  (s1gChannels region).find? fun chan => chan5g = chan.hwValueMap

/-- The channel of a bandwidth with a centre frequency in Hz. -/
def s1gFreqToS1g (region : Region) (freq bw : Int) : Option Channel :=
  (s1gChannels region).find? fun chan =>
    freq = chan.centerFreq * 1000000 + chan.freqOffset * 1000 ∧ bw = chan.bw

/-- The centre frequency in kHz of a channel number. -/
def channelToFreqKhz (region : Region) (chan : Int) : Int :=
  match region with
  | .au | .ca | .nz | .us => 902000 + chan * 500
  | .eu | .gb => if chan < 31 then 863000 + chan * 500 else 901400 + chan * 500
  | .india => 863000 + chan * 500
  | .jp =>
    if chan ≤ 21 then
      if chan % 2 = 1 then 916500 + chan * 500 else 922500 + chan * 500
    else 906500 + chan * 500
  | .kr => 917500 + chan * 500
  | .sg => if chan < 31 then 863000 + chan * 500 else 902000 + chan * 500

/-- The number of a primary channel, from the channel that it is in and its place there. -/
def calculatePrimaryS1gChannelDefault
    (opBwMhz prBwMhz : Nat)
    (chanCentreFreqNum : Int)
    (pr1mhzChanIdx : Nat) :
    Int :=
  let chanLoc := pr1mhzChanIdx % 2
  if opBwMhz = 1 then chanCentreFreqNum
  else if opBwMhz = 2 then
    if prBwMhz = 1 then chanCentreFreqNum + if chanLoc = 0 then -1 else 1
    else chanCentreFreqNum
  else if opBwMhz = 4 then
    if prBwMhz = 1 then 2 * (pr1mhzChanIdx : Int) - 3 + chanCentreFreqNum
    else (pr1mhzChanIdx / 2 : Nat) * 4 - 2 + chanCentreFreqNum
  else if opBwMhz = 8 then
    if prBwMhz = 1 then 2 * (pr1mhzChanIdx : Int) - 7 + chanCentreFreqNum
    else (pr1mhzChanIdx / 2 : Nat) * 4 - 6 + chanCentreFreqNum
  else -22

/-- The number of a primary channel in Japan, which has no 8 MHz channel. -/
def calculatePrimaryS1gChannelJp
    (opBwMhz prBwMhz : Nat)
    (chanCentreFreqNum : Int)
    (pr1mhzChanIdx : Nat) :
    Int :=
  if opBwMhz = 1 then chanCentreFreqNum
  else if opBwMhz = 2 then
    if prBwMhz = 1 then chanCentreFreqNum + if pr1mhzChanIdx ≠ 0 then 13 else 11
    else chanCentreFreqNum
  else if opBwMhz = 4 then
    let offset : Int :=
      if prBwMhz = 1 then
        if pr1mhzChanIdx = 0 then 23
        else if pr1mhzChanIdx = 1 then 21
        else if pr1mhzChanIdx = 2 then 19
        else if pr1mhzChanIdx = 3 then 17
        else -1
      else if pr1mhzChanIdx = 0 ∨ pr1mhzChanIdx = 1 then 34
      else if pr1mhzChanIdx = 2 ∨ pr1mhzChanIdx = 3 then 30
      else -1
    if 0 < offset then chanCentreFreqNum - offset else -22
  else -2

/-- `morse_dot11ah_calc_prim_s1g_chan`. -/
def calcPrimS1gChan (region : Region) :=
  if region = .jp then calculatePrimaryS1gChannelJp else calculatePrimaryS1gChannelDefault

/-! ## Primary channels -/

/-- The primary channel at a place in a channel, if the table has it. -/
def primaryAt (region : Region) (chan : Channel) (place : Nat × Nat) : Option Channel :=
  let primChan := calcPrimS1gChan region chan.bw place.1 chan.hwValue place.2
  if primChan < 0 then none
  else s1gFreqToS1g region (channelToFreqKhz region primChan * 1000) place.1

/-- The places of primary channels as the loops go through them: the bandwidth and the index. -/
def primaryPlaces (opBw : Nat) : List (Nat × Nat) :=
  [1, 2].flatMap fun primBw =>
    ((List.range opBw).filter fun primIdx => primIdx % primBw = 0).map fun primIdx =>
      (primBw, primIdx)

/-- The centre frequency in kHz. -/
def Channel.centreKhz (chan : Channel) : Nat := chan.centerFreq * 1000 + chan.freqOffset

/-- A primary channel of a wider one: cut into slices of 1 or 2 MHz, one of the slices is the
channel. -/
def IsPrimaryOf (narrow wide : Channel) : Prop :=
  (narrow.bw = 1 ∨ narrow.bw = 2) ∧ ∃ slice, slice < wide.bw / narrow.bw ∧
    2 * narrow.centreKhz + 1000 * wide.bw =
      2 * wide.centreKhz + 1000 * narrow.bw * (2 * slice + 1)

instance (narrow wide : Channel) : Decidable (IsPrimaryOf narrow wide) :=
  inferInstanceAs (Decidable (_ ∧ _))

theorem length_s1gChannels_le (region : Region) : (s1gChannels region).length ≤ 48 := by
  cases region <;> decide

theorem bw_of_mem (mapped : chan ∈ s1gChannels region) :
    chan.bw = 1 ∨ chan.bw = 2 ∨ chan.bw = 4 ∨ chan.bw = 8 := by
  revert chan
  cases region <;> decide +kernel

variable {region : Region}

theorem mem_s1gChannels_of_primaryAt (found : primaryAt region chan place = some primary) :
    primary ∈ s1gChannels region := by
  unfold primaryAt at found
  dsimp only at found
  split at found
  · cases found
  · exact List.mem_of_find?_eq_some found

theorem mem_primaries_iff (mapped : wide ∈ s1gChannels region) (isWide : 2 < wide.bw)
    (narrow : Channel) :
    narrow ∈ (primaryPlaces wide.bw).filterMap (primaryAt region wide) ↔
      narrow ∈ s1gChannels region ∧ IsPrimaryOf narrow wide := by
  have exact : ∀ wide ∈ s1gChannels region, 2 < wide.bw →
      (∀ narrow ∈ (primaryPlaces wide.bw).filterMap (primaryAt region wide),
        IsPrimaryOf narrow wide) ∧
      ∀ narrow ∈ s1gChannels region, IsPrimaryOf narrow wide →
        narrow ∈ (primaryPlaces wide.bw).filterMap (primaryAt region wide) := by
    cases region <;> decide +kernel
  obtain ⟨sound, complete⟩ := exact wide mapped isWide
  constructor
  · intro found
    obtain ⟨place, _, at_place⟩ := List.mem_filterMap.mp found
    exact ⟨mem_s1gChannels_of_primaryAt at_place, sound narrow found⟩
  · rintro ⟨defined, primary⟩
    exact complete narrow defined primary

end HwScan
end Morse
