import Morse.Ies.Stored

/-!
# The order of elements in a frame

Before a management frame is sent, its elements are written from the element table in the
order that a table for the kind of frame gives.  An element of an identifier that the table
does not list is left out.
-/

namespace Morse
namespace Ies

/-! ## Identifiers

The identifiers of the kernel's `enum ieee80211_eid` and of the driver's headers that the
order tables list, besides those that translation looks at. -/

def wlanEidCountry : Eid := 7
def wlanEidQbssLoad : Eid := 11
def wlanEidEdcaParamSet : Eid := 12
def wlanEidPwrConstraint : Eid := 32
def wlanEidPwrCapability : Eid := 33
def wlanEidTpcReport : Eid := 35
def wlanEidSupportedChannels : Eid := 36
def wlanEidChannelSwitch : Eid := 37
def wlanEidQuiet : Eid := 40
def wlanEidIbssDfs : Eid := 41
def wlanEidQosCapa : Eid := 46
def wlanEidApChanReport : Eid := 51
def wlanEidNeighborReport : Eid := 52
def wlanEidRcpi : Eid := 53
def wlanEidMobilityDomain : Eid := 54
def wlanEidFastBssTransition : Eid := 55
def wlanEidTimeoutInterval : Eid := 56
def wlanEidDseRegisteredLocation : Eid := 58
def wlanEidSupportedRegulatoryClasses : Eid := 59
def wlanEidExtChanswitchAnn : Eid := 60
def wlanEidBssAvgAccessDelay : Eid := 63
def wlanEidAntennaInfo : Eid := 64
def wlanEidRsni : Eid := 65
def wlanEidMeasurementPilotTxInfo : Eid := 66
def wlanEidBssAvailableCapacity : Eid := 67
def wlanEidBssAcAccessDelay : Eid := 68
def wlanEidTimeAdvertisement : Eid := 69
def wlanEidRrmEnabledCapabilities : Eid := 70
def wlanEidMultipleBssid : Eid := 71
def wlanEidOverlapBssScanParam : Eid := 74
def wlanEidSsidList : Eid := 84
def wlanEidFmsDescriptor : Eid := 86
def wlanEidQosTrafficCapa : Eid := 89
def wlanEidBssMaxIdlePeriod : Eid := 90
def wlanEidTimBcastReq : Eid := 94
def wlanEidTimBcastResp : Eid := 95
def wlanEidChannelUsage : Eid := 97
def wlanEidTimeZone : Eid := 98
def wlanEidInterworking : Eid := 107
def wlanEidAdvertisementProtocol : Eid := 108
def wlanEidQosMapSet : Eid := 110
def wlanEidRoamingConsortium : Eid := 111
def wlanEidEmergencyAlert : Eid := 112
def wlanEidMeshConfig : Eid := 113
def wlanEidPeerMgmt : Eid := 117
def wlanEidChanSwitchParam : Eid := 118
def wlanEidMeshAwakeWindow : Eid := 119
def wlanEidBeaconTiming : Eid := 120
def wlanEidMccaopAdvert : Eid := 123
def wlanEidExtCapability : Eid := 127
def wlanEidMic : Eid := 140
def wlanEidMultiBand : Eid := 158
def wlanEidMultipleMacAddr : Eid := 170
def wlanEidMccaopAdvOverview : Eid := 174
def wlanEidQloadReport : Eid := 186
def wlanEidAntennaSectorIdPattern : Eid := 190
def wlanEidExtendedBssLoad : Eid := 193
def wlanEidChannelSwitchWrapper : Eid := 196
def wlanEidQuietChannel : Eid := 198
def wlanEidOpmodeNotif : Eid := 199
def wlanEidReducedNeighborReport : Eid := 201
def wlanEidS1gOpenLoopLinkMarginIdx : Eid := 207
def wlanEidS1gRps : Eid := 208
def wlanEidPageSlice : Eid := 209
def wlanEidAidRequest : Eid := 210
def wlanEidAidResponse : Eid := 211
def wlanEidS1gSectorOperation : Eid := 212
def wlanEidS1gBcnCompat : Eid := 213
def wlanEidS1gShortBcnInterval : Eid := 214
def wlanEidChangeSequence : Eid := 215
def wlanEidS1gTwt : Eid := 216
def wlanEidSubchannelSelectiveTransmission : Eid := 220
def wlanEidVendorSpecific : Eid := 221
def wlanEidS1gCac : Eid := 222
def wlanEidTsfTimerAccuracy : Eid := 223
def wlanEidS1gRelay : Eid := 224
def wlanEidReachableAddress : Eid := 225
def wlanEidS1gRelayDiscovery : Eid := 226
def wlanEidPv1ProbeResponseOption : Eid := 229
def wlanEidElOperation : Eid := 230
def wlanEidSectorizedGroupIdList : Eid := 231
def wlanEidHeaderCompression : Eid := 233
def wlanEidSstOperation : Eid := 234
def wlanEidS1gMaxAwayDuration : Eid := 235
def wlanEidS1gRelayActivation : Eid := 236
def wlanEidCagNumber : Eid := 237
def wlanEidApCsn : Eid := 239
def wlanEidFilsIndication : Eid := 240
def wlanEidDils : Eid := 241

/-! ## Order tables -/

/-- `morse_ext_s1g_beacon_ies_order`. -/
def morseExtS1gBeaconIesOrder : List Eid :=
  [wlanEidS1gBcnCompat, wlanEidTim, wlanEidFmsDescriptor, wlanEidS1gRps, wlanEidSstOperation,
    wlanEidSubchannelSelectiveTransmission, wlanEidS1gRelay, wlanEidPageSlice,
    wlanEidS1gSectorOperation, wlanEidS1gCac, wlanEidTsfTimerAccuracy, wlanEidS1gRelayDiscovery,
    wlanEidS1gCapabilities, wlanEidS1gOperation, wlanEidS1gShortBcnInterval, wlanEidMultipleBssid,
    wlanEidSsid, wlanEidRsn, wlanEidExtChanswitchAnn, wlanEidMeshId, wlanEidMeshConfig,
    wlanEidMeshAwakeWindow, wlanEidBeaconTiming, wlanEidChanSwitchParam,
    wlanEidChannelSwitchWrapper, wlanEidExtension, wlanEidVendorSpecific]

/-- `morse_ext_s1g_short_beacon_ies_order`. -/
def morseExtS1gShortBeaconIesOrder : List Eid :=
  [wlanEidTim, wlanEidFmsDescriptor, wlanEidS1gRps, wlanEidSubchannelSelectiveTransmission,
    wlanEidS1gRelay, wlanEidSsid]

/-- `morse_mgmt_probe_request_ies_order`. -/
def morseMgmtProbeRequestIesOrder : List Eid :=
  [wlanEidSsid, wlanEidSsidList, wlanEidChannelUsage, wlanEidInterworking, wlanEidMeshId,
    wlanEidMultipleMacAddr, wlanEidApCsn, wlanEidChangeSequence, wlanEidS1gRelayDiscovery,
    wlanEidPv1ProbeResponseOption, wlanEidExtCapability, wlanEidS1gCapabilities, wlanEidElOperation,
    wlanEidS1gMaxAwayDuration, wlanEidExtension, wlanEidVendorSpecific]

/-- `morse_mgmt_probe_response_ies_order`. -/
def morseMgmtProbeResponseIesOrder : List Eid :=
  [wlanEidSsid, wlanEidCountry, wlanEidPwrConstraint, wlanEidChannelSwitch, wlanEidQuiet,
    wlanEidIbssDfs, wlanEidTpcReport, wlanEidRsn, wlanEidMultipleBssid, wlanEidQbssLoad,
    wlanEidEdcaParamSet, wlanEidMeasurementPilotTxInfo, wlanEidRrmEnabledCapabilities,
    wlanEidApChanReport, wlanEidBssAvgAccessDelay, wlanEidAntennaInfo, wlanEidBssAvailableCapacity,
    wlanEidBssAcAccessDelay, wlanEidMobilityDomain, wlanEidDseRegisteredLocation,
    wlanEidExtChanswitchAnn, wlanEidSupportedRegulatoryClasses, wlanEidOverlapBssScanParam,
    wlanEidExtCapability, wlanEidQosTrafficCapa, wlanEidChannelUsage, wlanEidTimeAdvertisement,
    wlanEidTimeZone, wlanEidInterworking, wlanEidAdvertisementProtocol, wlanEidRoamingConsortium,
    wlanEidEmergencyAlert, wlanEidMeshId, wlanEidMeshConfig, wlanEidMeshAwakeWindow,
    wlanEidBeaconTiming, wlanEidMccaopAdvOverview, wlanEidMccaopAdvert, wlanEidChanSwitchParam,
    wlanEidQloadReport, wlanEidMultiBand, wlanEidMultipleMacAddr, wlanEidAntennaSectorIdPattern,
    wlanEidExtendedBssLoad, wlanEidChannelSwitchWrapper, wlanEidQuietChannel, wlanEidOpmodeNotif,
    wlanEidReducedNeighborReport, wlanEidCagNumber, wlanEidFilsIndication, wlanEidApCsn,
    wlanEidDils, wlanEidS1gRps, wlanEidPageSlice, wlanEidTsfTimerAccuracy, wlanEidS1gRelayDiscovery,
    wlanEidS1gCapabilities, wlanEidS1gOperation, wlanEidS1gMaxAwayDuration,
    wlanEidS1gShortBcnInterval, wlanEidS1gOpenLoopLinkMarginIdx, wlanEidS1gRelay, wlanEidRsnx,
    wlanEidVendorSpecific, wlanEidExtension, wlanEidS1gCac]

/-- `morse_mgmt_assoc_request_ies_order`. -/
def morseMgmtAssocRequestIesOrder : List Eid :=
  [wlanEidSsid, wlanEidPwrCapability, wlanEidSupportedChannels, wlanEidRsn, wlanEidQosCapa,
    wlanEidRrmEnabledCapabilities, wlanEidMobilityDomain, wlanEidSupportedRegulatoryClasses,
    wlanEidExtCapability, wlanEidQosTrafficCapa, wlanEidTimBcastReq, wlanEidInterworking,
    wlanEidMultiBand, wlanEidMultipleMacAddr, wlanEidOpmodeNotif, wlanEidS1gTwt, wlanEidAidRequest,
    wlanEidS1gCapabilities, wlanEidS1gOperation, wlanEidElOperation, wlanEidS1gRelay,
    wlanEidBssMaxIdlePeriod, wlanEidHeaderCompression, wlanEidS1gMaxAwayDuration,
    wlanEidReachableAddress, wlanEidS1gRelayActivation, wlanEidFastBssTransition, wlanEidRsnx,
    wlanEidExtension, wlanEidVendorSpecific]

/-- `morse_mgmt_assoc_response_ies_order`. -/
def morseMgmtAssocResponseIesOrder : List Eid :=
  [wlanEidEdcaParamSet, wlanEidRcpi, wlanEidRsni, wlanEidRrmEnabledCapabilities, wlanEidRsn,
    wlanEidMobilityDomain, wlanEidFastBssTransition, wlanEidDseRegisteredLocation,
    wlanEidTimeoutInterval, wlanEidOverlapBssScanParam, wlanEidExtCapability,
    wlanEidBssMaxIdlePeriod, wlanEidTimBcastResp, wlanEidQosMapSet, wlanEidMultiBand,
    wlanEidMultipleMacAddr, wlanEidNeighborReport, wlanEidOpmodeNotif, wlanEidS1gSectorOperation,
    wlanEidS1gTwt, wlanEidTsfTimerAccuracy, wlanEidS1gCapabilities, wlanEidS1gOperation,
    wlanEidAidResponse, wlanEidSectorizedGroupIdList, wlanEidS1gRelay, wlanEidHeaderCompression,
    wlanEidSstOperation, wlanEidS1gMaxAwayDuration, wlanEidS1gRelayActivation, wlanEidRsnx,
    wlanEidExtension, wlanEidVendorSpecific]

/-- `morse_mgmt_mesh_peering_mgmt_ies_order`. -/
def morseMgmtMeshPeeringMgmtIesOrder : List Eid :=
  [wlanEidVendorSpecific, wlanEidS1gCapabilities, wlanEidS1gOperation, wlanEidExtension, wlanEidRsn,
    wlanEidMeshId, wlanEidMeshConfig, wlanEidMeshAwakeWindow, wlanEidChanSwitchParam,
    wlanEidPeerMgmt, wlanEidMic]

/-! ## Kinds of frames -/

/-- The frame control has this type and subtype. -/
def isKind (frameControl kind : BitVec 16) : Bool :=
  decide (frameControl &&& (0x000c ||| 0x00f0) = kind)

/-- `ieee80211_is_s1g_beacon`. -/
def isS1gBeacon (frameControl : BitVec 16) : Bool := isKind frameControl (0x000c ||| 0x0010)

/-- `ieee80211_is_s1g_short_beacon`. -/
def isS1gShortBeacon (frameControl : BitVec 16) : Bool :=
  isS1gBeacon frameControl && decide (frameControl &&& 0x0100 ≠ 0)

/-- A buffer that holds a frame from zero on, with the memory around it. -/
structure Skb where
  len : Nat
  data : Int → BitVec 8

/-- `morse_dot11_is_mpm_frame`: an open or a confirm frame of mesh peering that is not
protected. -/
def Skb.isMpmFrame (skb : Skb) : Bool :=
  decide (skb.data 1 &&& 0x40 = 0) && decide (skb.data 24 = 15) &&
    (decide (skb.data 25 = 1) || decide (skb.data 25 = 2))

/-- `IEEE80211_FC_COMPRESS_SSID`. -/
def compressSsidBit : BitVec 16 := 0x0200

/-- The order table for a frame, if there is one. -/
def orderTable (frameControl : BitVec 16) (skb : Skb) : Option (List Eid) :=
  if isS1gShortBeacon frameControl || decide (frameControl &&& compressSsidBit ≠ 0) then
    some morseExtS1gShortBeaconIesOrder
  else if isS1gBeacon frameControl then some morseExtS1gBeaconIesOrder
  else if isKind frameControl 0x0040 then some morseMgmtProbeRequestIesOrder
  else if isKind frameControl 0x0050 then some morseMgmtProbeResponseIesOrder
  else if isKind frameControl 0x0000 || isKind frameControl 0x0020 then
    some morseMgmtAssocRequestIesOrder
  else if isKind frameControl 0x0010 || isKind frameControl 0x0030 then
    some morseMgmtAssocResponseIesOrder
  else if isKind frameControl 0x00d0 && skb.isMpmFrame then
    some morseMgmtMeshPeeringMgmtIesOrder
  else none

/-- The frame is one of mesh peering, and no other table was chosen for it. -/
def usesMeshPeeringTable (frameControl : BitVec 16) (skb : Skb) : Bool :=
  decide (frameControl &&& compressSsidBit = 0) && isKind frameControl 0x00d0 &&
    skb.isMpmFrame

/-! ## Writing -/

section Writing

variable (mpmAmpeLen : Skb → Nat)

/-- The length of the AMPE block that is at the end of a frame of mesh peering, as
`morse_dot11_get_mpm_ampe_len` says. -/
def ampeLen (frameControl : BitVec 16) (skb : Skb) : Nat :=
  if usesMeshPeeringTable frameControl skb then mpmAmpeLen skb else 0

/-- The last octets of a frame. -/
def Skb.last (skb : Skb) (count : Nat) : List (BitVec 8) :=
  (List.range count).map fun (index : Nat) => skb.data ((skb.len : Int) - count + index)

/-- An identifier whose elements may be empty, as wild cards. -/
def isWildcard (eid : Eid) : Bool := decide (eid = wlanEidSsid) || decide (eid = wlanEidMeshId)

/-- The elements that are written for an identifier. -/
def orderedElements (mask : Contents) (eid : Eid) : List Element :=
  match (mask eid).head with
  | none => []
  | some data =>
    if data.val.length = 0 ∧ isWildcard eid = false then []
    else ⟨eid, data⟩ :: (mask eid).extras.map (Element.mk eid)

/-- What an identifier adds to the length. -/
def orderedLength (mask : Contents) (eid : Eid) : Nat :=
  match (mask eid).head with
  | none => 0
  | some data =>
    if data.val.length = 0 ∧ isWildcard eid = false then 0
    else (mask eid).extras.foldl (fun length extra => length + (extra.val.length + 2))
      (data.val.length + 2)

/-- `morse_dot11_insert_ordered_ies_from_ies_mask`: what is written, if there is a place to
write to, and the length that is returned. -/
def insertOrderedIesFromIesMask
    (writes : Bool)
    (skb : Skb)
    (mask : Contents)
    (frameControl : BitVec 16) : List (BitVec 8) × Nat :=
  match orderTable frameControl skb with
  | none => ([], 0)
  | some table =>
    (if writes then
        (table.flatMap (orderedElements mask)).flatMap Element.octets ++
          skb.last (ampeLen mpmAmpeLen frameControl skb)
      else [],
      table.foldl (fun length eid => length + orderedLength mask eid)
        (ampeLen mpmAmpeLen frameControl skb))

end Writing

end Ies
end Morse
