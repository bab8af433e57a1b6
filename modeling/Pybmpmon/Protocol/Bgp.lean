import Pybmpmon.Python

/-!
# BGP message types

The enumerations and records of `protocol/bgp.py`. AFI, SAFI and segment types
stay raw integers in the source and are compared with the enumerations; a path
attribute type outside the enumeration is kept as the octet it was.
-/
namespace Pybmpmon.Protocol.Bgp

open Pybmpmon.Lib.ByteString Pybmpmon.Python

inductive BGPMessageType where
  | open_
  | update
  | notification
  | keepalive
  deriving DecidableEq, Repr

def BGPMessageType.ofNat? : Nat → Option BGPMessageType
  | 1 => some open_
  | 2 => some update
  | 3 => some notification
  | 4 => some keepalive
  | _ => none

def BGPMessageType.name : BGPMessageType → String
  | open_ => "OPEN"
  | update => "UPDATE"
  | notification => "NOTIFICATION"
  | keepalive => "KEEPALIVE"

inductive BGPPathAttributeType where
  | origin
  | asPath
  | nextHop
  | multiExitDisc
  | localPref
  | atomicAggregate
  | aggregator
  | communities
  | mpReachNlri
  | mpUnreachNlri
  | extendedCommunities
  | as4Path
  | as4Aggregator
  deriving DecidableEq, Repr

def BGPPathAttributeType.value : BGPPathAttributeType → Nat
  | origin => 1
  | asPath => 2
  | nextHop => 3
  | multiExitDisc => 4
  | localPref => 5
  | atomicAggregate => 6
  | aggregator => 7
  | communities => 8
  | mpReachNlri => 14
  | mpUnreachNlri => 15
  | extendedCommunities => 16
  | as4Path => 17
  | as4Aggregator => 18

def BGPPathAttributeType.ofNat? : Nat → Option BGPPathAttributeType
  | 1 => some origin
  | 2 => some asPath
  | 3 => some nextHop
  | 4 => some multiExitDisc
  | 5 => some localPref
  | 6 => some atomicAggregate
  | 7 => some aggregator
  | 8 => some communities
  | 14 => some mpReachNlri
  | 15 => some mpUnreachNlri
  | 16 => some extendedCommunities
  | 17 => some as4Path
  | 18 => some as4Aggregator
  | _ => none

theorem BGPPathAttributeType.ofNat?_value (t : BGPPathAttributeType) :
    ofNat? t.value = some t := by cases t <;> rfl

theorem BGPPathAttributeType.eq_value {n : Nat} {t : BGPPathAttributeType}
    (h : ofNat? n = some t) : n = t.value := by
  unfold ofNat? at h
  split at h <;> cases h <;> rfl

/-- `type_code` of an attribute: a known type, or the raw octet as a placeholder. -/
inductive TypeCode where
  | known (t : BGPPathAttributeType)
  | placeholder (raw : Nat)
  deriving DecidableEq, Repr

def TypeCode.ofRaw (raw : Nat) : TypeCode :=
  match BGPPathAttributeType.ofNat? raw with
  | some t => .known t
  | none => .placeholder raw

/-- The octet a type code was read from. -/
def TypeCode.raw : TypeCode → Nat
  | .known t => t.value
  | .placeholder raw => raw

theorem TypeCode.raw_ofRaw (raw : Nat) : (ofRaw raw).raw = raw := by
  unfold ofRaw
  split
  · exact (BGPPathAttributeType.eq_value ‹_›).symm
  · rfl

def BGPASPathSegmentType.asSet : Nat := 1
def BGPASPathSegmentType.asSequence : Nat := 2

theorem asSet_iff (segmentType : UInt8) :
    segmentType.toNat = BGPASPathSegmentType.asSet ↔ segmentType = 1 := by
  rw [← UInt8.toNat_inj]
  rfl

theorem asSequence_iff (segmentType : UInt8) :
    segmentType.toNat = BGPASPathSegmentType.asSequence ↔ segmentType = 2 := by
  rw [← UInt8.toNat_inj]
  rfl

def AddressFamilyIdentifier.ipv4 : Nat := 1
def AddressFamilyIdentifier.ipv6 : Nat := 2
def AddressFamilyIdentifier.l2vpn : Nat := 25

def SubsequentAddressFamilyIdentifier.unicast : Nat := 1
def SubsequentAddressFamilyIdentifier.evpn : Nat := 70

structure BGPHeader where
  marker : Bytes
  length : Nat
  msgType : BGPMessageType
  deriving DecidableEq, Repr

structure BGPPathAttribute where
  flags : Nat
  typeCode : TypeCode
  length : Nat
  value : Bytes
  deriving DecidableEq, Repr

structure BGPUpdateMessage where
  withdrawnRoutesLength : Nat
  withdrawnRoutes : Bytes
  totalPathAttrLength : Nat
  pathAttributes : List BGPPathAttribute
  nlri : Bytes
  deriving DecidableEq, Repr

/-- The dict `parse_evpn_nlri` returns. Only Type 2 routes have the keys `rd`,
`esi`, `mac_address` and `ip_address`; any other type has `route_type` alone. -/
inductive EvpnRouteInfo where
  | macIp (rd esi : String) (macAddress : Option String) (ipAddress : Option IpAddress)
  | other (routeType : Nat)
  deriving DecidableEq, Repr

namespace EvpnRouteInfo

/-- `route_info["route_type"]`. -/
def routeType : EvpnRouteInfo → Nat
  | macIp .. => 2
  | other t => t

/-- `route_info.get("rd", default)`. -/
def getRd (default : Option String) : EvpnRouteInfo → Option String
  | macIp rd _ _ _ => some rd
  | other _ => default

/-- `route_info.get("esi", default)`. -/
def getEsi (default : Option String) : EvpnRouteInfo → Option String
  | macIp _ esi _ _ => some esi
  | other _ => default

/-- `route_info.get("mac_address", default)`. -/
def getMacAddress (default : Option String) : EvpnRouteInfo → Option String
  | macIp _ _ mac _ => mac
  | other _ => default

/-- `route_info.get("ip_address")`. -/
def getIpAddress : EvpnRouteInfo → Option IpAddress
  | macIp _ _ _ ip => ip
  | other _ => none

end EvpnRouteInfo

/-- An element of `prefixes`: a CIDR string, or the dict of an EVPN route. -/
inductive PrefixEntry where
  | cidr (c : Cidr)
  | evpn (route : EvpnRouteInfo)
  deriving DecidableEq, Repr

structure ParsedBGPUpdate where
  afi : Option Nat
  safi : Option Nat
  prefixes : List PrefixEntry
  withdrawnPrefixes : List PrefixEntry
  isWithdrawal : Bool
  origin : Option Nat
  asPath : Option (List Nat)
  nextHop : Option IpAddress
  med : Option Nat
  localPref : Option Nat
  communities : Option (List String)
  extendedCommunities : Option (List String)
  evpnRouteType : Option Nat
  evpnRd : Option String
  evpnEsi : Option String
  macAddress : Option String
  deriving DecidableEq, Repr

def BGP_HEADER_SIZE : Nat := 19
def BGP_MARKER : Bytes := List.replicate 16 0xFF
def ATTR_FLAG_EXTENDED_LENGTH : Nat := 0x10

end Pybmpmon.Protocol.Bgp
