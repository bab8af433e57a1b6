import Pybmpmon.Protocol.Bgp

/-!
# The RouteUpdate record

The record of `models/route.py`. The two fields that hold a string out of a fixed
list are enumerations here: `_determine_family` returns four strings, and the
policy stage is one of two. Addresses and prefixes stay values: the record reads
back the texts it is given, and the columns they are written to store the value.
-/
namespace Pybmpmon.Models.Route

open Pybmpmon.Python

/-- Microseconds, as `TIMESTAMPTZ` keeps them. -/
abbrev Timestamp := Int

inductive Family where
  | ipv4Unicast
  | ipv6Unicast
  | evpn
  | unknown
  deriving DecidableEq, Repr

def Family.text : Family → String
  | .ipv4Unicast => "ipv4_unicast"
  | .ipv6Unicast => "ipv6_unicast"
  | .evpn => "evpn"
  | .unknown => "unknown"

inductive PolicyStage where
  | prePolicy
  | postPolicy
  deriving DecidableEq, Repr

structure RouteUpdate where
  time : Timestamp
  bmpPeerIp : IpAddress
  bmpPeerAsn : Option Nat
  bgpPeerIp : IpAddress
  bgpPeerAsn : Option Nat
  family : Family
  prefixCidr : Option Cidr
  nextHop : Option IpAddress
  asPath : Option (List Nat)
  communities : Option (List String)
  extendedCommunities : Option (List String)
  med : Option Nat
  localPref : Option Nat
  isWithdrawn : Bool
  policyStage : PolicyStage
  evpnRouteType : Option Nat
  evpnRd : Option String
  evpnEsi : Option String
  macAddress : Option String
  deriving DecidableEq, Repr

end Pybmpmon.Models.Route
