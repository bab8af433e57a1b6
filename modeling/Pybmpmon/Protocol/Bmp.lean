import Pybmpmon.Python

/-!
# BMP message types

The enumerations and records of `protocol/bmp.py`. An enumeration call on an
integer outside it raises in the source; here it is `none`, and the caller says
what is raised.
-/
namespace Pybmpmon.Protocol.Bmp

open Pybmpmon.Lib.ByteString Pybmpmon.Python

inductive BMPMessageType where
  | routeMonitoring
  | statisticsReport
  | peerDownNotification
  | peerUpNotification
  | initiation
  | termination
  deriving DecidableEq, Repr

namespace BMPMessageType

def value : BMPMessageType → Nat
  | routeMonitoring => 0
  | statisticsReport => 1
  | peerDownNotification => 2
  | peerUpNotification => 3
  | initiation => 4
  | termination => 5

def ofNat? : Nat → Option BMPMessageType
  | 0 => some routeMonitoring
  | 1 => some statisticsReport
  | 2 => some peerDownNotification
  | 3 => some peerUpNotification
  | 4 => some initiation
  | 5 => some termination
  | _ => none

def name : BMPMessageType → String
  | routeMonitoring => "ROUTE_MONITORING"
  | statisticsReport => "STATISTICS_REPORT"
  | peerDownNotification => "PEER_DOWN_NOTIFICATION"
  | peerUpNotification => "PEER_UP_NOTIFICATION"
  | initiation => "INITIATION"
  | termination => "TERMINATION"

theorem ofNat?_value (t : BMPMessageType) : ofNat? t.value = some t := by cases t <;> rfl

theorem eq_value {n : Nat} {t : BMPMessageType} (h : ofNat? n = some t) : n = t.value := by
  unfold ofNat? at h
  split at h <;> cases h <;> rfl

end BMPMessageType

inductive BMPPeerType where
  | globalInstance
  | rdInstance
  | localInstance
  | locRibInstance
  deriving DecidableEq, Repr

def BMPPeerType.value : BMPPeerType → Nat
  | globalInstance => 0
  | rdInstance => 1
  | localInstance => 2
  | locRibInstance => 3

def BMPPeerType.ofNat? : Nat → Option BMPPeerType
  | 0 => some globalInstance
  | 1 => some rdInstance
  | 2 => some localInstance
  | 3 => some locRibInstance
  | _ => none

theorem BMPPeerType.ofNat?_value (t : BMPPeerType) : ofNat? t.value = some t := by cases t <;> rfl

theorem BMPPeerType.eq_value {n : Nat} {t : BMPPeerType} (h : ofNat? n = some t) : n = t.value := by
  unfold ofNat? at h
  split at h <;> cases h <;> rfl

/-- Bits of the peer flags octet. -/
def BMPPeerFlags.ipv6 : Nat := 0x80
def BMPPeerFlags.postPolicy : Nat := 0x40

inductive BMPPeerDownReason where
  | localNotification
  | localNoNotification
  | remoteNotification
  | remoteNoNotification
  | peerDeConfigured
  deriving DecidableEq, Repr

def BMPPeerDownReason.value : BMPPeerDownReason → Nat
  | localNotification => 1
  | localNoNotification => 2
  | remoteNotification => 3
  | remoteNoNotification => 4
  | peerDeConfigured => 5

def BMPPeerDownReason.ofNat? : Nat → Option BMPPeerDownReason
  | 1 => some localNotification
  | 2 => some localNoNotification
  | 3 => some remoteNotification
  | 4 => some remoteNoNotification
  | 5 => some peerDeConfigured
  | _ => none

theorem BMPPeerDownReason.ofNat?_value (r : BMPPeerDownReason) : ofNat? r.value = some r := by
  cases r <;> rfl

theorem BMPPeerDownReason.eq_value {n : Nat} {r : BMPPeerDownReason} (h : ofNat? n = some r) : n = r.value := by
  unfold ofNat? at h
  split at h <;> cases h <;> rfl

structure BMPHeader where
  version : Nat
  length : Nat
  msgType : BMPMessageType
  deriving DecidableEq, Repr

structure BMPPerPeerHeader where
  peerType : BMPPeerType
  peerFlags : Nat
  peerDistinguisher : Bytes
  peerAddress : IpAddress
  peerAsn : Nat
  peerBgpId : IPv4Address
  timestampSec : Nat
  timestampUsec : Nat
  deriving DecidableEq, Repr

structure BMPInfoTLV where
  infoType : Nat
  infoLength : Nat
  infoValue : Bytes
  deriving DecidableEq, Repr

structure BMPStatTLV where
  statType : Nat
  statLength : Nat
  statValue : Nat
  deriving DecidableEq, Repr

structure BMPInitiationMessage where
  header : BMPHeader
  informationTlvs : List BMPInfoTLV
  deriving DecidableEq, Repr

structure BMPTerminationMessage where
  header : BMPHeader
  informationTlvs : List BMPInfoTLV
  deriving DecidableEq, Repr

structure BMPRouteMonitoringMessage where
  header : BMPHeader
  perPeerHeader : BMPPerPeerHeader
  bgpUpdate : Bytes
  deriving DecidableEq, Repr

structure BMPStatisticsReportMessage where
  header : BMPHeader
  perPeerHeader : BMPPerPeerHeader
  statsCount : Nat
  statsTlvs : List BMPStatTLV
  deriving DecidableEq, Repr

structure BMPPeerDownMessage where
  header : BMPHeader
  perPeerHeader : BMPPerPeerHeader
  reason : BMPPeerDownReason
  data : Bytes
  deriving DecidableEq, Repr

structure BMPPeerUpMessage where
  header : BMPHeader
  perPeerHeader : BMPPerPeerHeader
  localAddress : IpAddress
  localPort : Nat
  remotePort : Nat
  sentOpenMessage : Bytes
  receivedOpenMessage : Bytes
  informationTlvs : List BMPInfoTLV
  deriving DecidableEq, Repr

/-- What `parse_bmp_message` returns: one of the six message records. -/
inductive BMPMessage where
  | initiation (m : BMPInitiationMessage)
  | termination (m : BMPTerminationMessage)
  | routeMonitoring (m : BMPRouteMonitoringMessage)
  | statisticsReport (m : BMPStatisticsReportMessage)
  | peerDown (m : BMPPeerDownMessage)
  | peerUp (m : BMPPeerUpMessage)
  deriving DecidableEq, Repr

def BMP_HEADER_SIZE : Nat := 6
def BMP_PER_PEER_HEADER_SIZE : Nat := 42
def BMP_CURRENT_VERSION : Nat := 3

end Pybmpmon.Protocol.Bmp
