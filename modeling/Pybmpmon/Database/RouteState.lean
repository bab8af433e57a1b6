import Pybmpmon.Lib.KeyedTable
import Pybmpmon.Lib.Outcome
import Pybmpmon.Database.Schema

/-!
# The `route_state` table

The table, its two partial unique indexes and the function `update_route_state` of
migration 005. `SELECT … INTO` takes the first matching row and `UPDATE` all of them;
`FOUND` is false when no lookup ran. A write is refused when it leaves two rows with
one index key, or when a counter or the sum of the two, which an index of its own
computes for each row that is written, is outside `INTEGER`. A refused call has no effect.
-/
namespace Pybmpmon.Database.RouteState

open Pybmpmon.Python Pybmpmon.Models.Route Pybmpmon.Database.Schema

inductive DbError where
  | uniqueViolation
  | integerOutOfRange
  deriving DecidableEq, Repr

structure StateRow where
  bmpPeerIp : IpAddress
  bgpPeerIp : IpAddress
  family : Family
  prefixCidr : Option Cidr
  firstSeen : Timestamp
  lastSeen : Timestamp
  lastStateChange : Timestamp
  isWithdrawn : Bool
  policyStage : PolicyStage
  learnCount : Nat
  withdrawCount : Nat
  nextHop : Option IpAddress
  asPath : Option (List Nat)
  communities : Option (List String)
  extendedCommunities : Option (List String)
  med : Option Nat
  localPref : Option Nat
  evpnRouteType : Option Nat
  evpnRd : Option String
  evpnEsi : Option String
  macAddress : Option String
  deriving DecidableEq, Repr

abbrev Table := List StateRow

/-- The parameters of `update_route_state`, in their order. -/
structure StateCall where
  time : Timestamp
  bmpPeerIp : IpAddress
  bgpPeerIp : IpAddress
  family : Family
  prefixCidr : Option Cidr
  nextHop : Option IpAddress
  asPath : Option (List Nat)
  communities : Option (List String)
  extendedCommunities : Option (List String)
  med : Option Nat
  localPref : Option Nat
  isWithdrawn : Bool
  policyStage : PolicyStage
  evpnRouteType : Option Nat
  evpnRd : Option String
  evpnEsi : Option String
  macAddress : Option String
  deriving DecidableEq, Repr

/-- `family IN ('ipv4_unicast', 'ipv6_unicast')`. -/
def isIpFamily (family : Family) : Bool := family == .ipv4Unicast || family == .ipv6Unicast

/-- `COALESCE(text, '')`. -/
def coalesce (text : Option String) : String := text.getD ""

/-! ## The unique indexes -/

structure IpIndexKey where
  bmpPeerIp : IpAddress
  bgpPeerIp : IpAddress
  family : Family
  prefixCidr : Cidr
  policyStage : PolicyStage
  deriving DecidableEq, Repr

/-- `idx_route_state_ip_routes`: no entry for another family or a NULL prefix. -/
def ipIndexKey (r : StateRow) : Option IpIndexKey :=
  if isIpFamily r.family then
    r.prefixCidr.map fun p => ⟨r.bmpPeerIp, r.bgpPeerIp, r.family, p, r.policyStage⟩
  else none

structure EvpnIndexKey where
  bmpPeerIp : IpAddress
  bgpPeerIp : IpAddress
  family : Family
  evpnRd : String
  evpnEsi : String
  macAddress : String
  prefixCidr : Option Cidr
  policyStage : PolicyStage
  deriving DecidableEq, Repr

/-- `idx_route_state_evpn_routes`. The text of a prefix is never empty, so the coalesced
texts agree when the prefixes do, NULL among them. -/
def evpnIndexKey (r : StateRow) : Option EvpnIndexKey :=
  if r.family = .evpn then
    some ⟨r.bmpPeerIp, r.bgpPeerIp, r.family, coalesce r.evpnRd, coalesce r.evpnEsi,
      coalesce r.macAddress, r.prefixCidr, r.policyStage⟩
  else none

/-- What PostgreSQL checks of a written table. -/
def checkUnique (t : Table) : Except DbError Table :=
  if (t.filterMap ipIndexKey).Nodup ∧ (t.filterMap evpnIndexKey).Nodup then .ok t
  else .error .uniqueViolation

/-! ## update_route_state -/

/-- The lookup of an IP route. A comparison with a NULL prefix is never true. -/
def sameIpRoute (p : StateCall) (r : StateRow) : Bool :=
  r.bmpPeerIp == p.bmpPeerIp && r.bgpPeerIp == p.bgpPeerIp && r.family == p.family &&
    (r.prefixCidr.isSome && r.prefixCidr == p.prefixCidr) && r.policyStage == p.policyStage

def sameEvpnRoute (p : StateCall) (r : StateRow) : Bool :=
  r.bmpPeerIp == p.bmpPeerIp && r.bgpPeerIp == p.bgpPeerIp && r.family == p.family &&
    coalesce r.evpnRd == coalesce p.evpnRd && coalesce r.evpnEsi == coalesce p.evpnEsi &&
    coalesce r.macAddress == coalesce p.macAddress && r.prefixCidr == p.prefixCidr &&
    r.policyStage == p.policyStage

/-- A sum of two `INTEGER`s. -/
def addInteger (a b : Nat) : Except DbError Nat :=
  if fitsInteger (a + b : Nat) then .ok (a + b) else .error .integerOutOfRange

/-- The columns both `UPDATE`s set, and the index entry of the row they write. -/
def updateIpRoute (p : StateCall) (stateChanged : Bool) (r : StateRow) :
    Except DbError StateRow := do
  let learnCount ← addInteger r.learnCount (if stateChanged && !p.isWithdrawn then 1 else 0)
  let withdrawCount ← addInteger r.withdrawCount (if stateChanged && p.isWithdrawn then 1 else 0)
  -- the expression and the predicate of `idx_route_state_churn`
  let _churn ← addInteger learnCount withdrawCount
  .ok { r with
    lastSeen := p.time
    lastStateChange := if stateChanged then p.time else r.lastStateChange
    isWithdrawn := p.isWithdrawn
    learnCount := learnCount
    withdrawCount := withdrawCount
    nextHop := if !p.isWithdrawn then p.nextHop else r.nextHop
    asPath := if !p.isWithdrawn then p.asPath else r.asPath
    communities := if !p.isWithdrawn then p.communities else r.communities
    extendedCommunities := if !p.isWithdrawn then p.extendedCommunities else r.extendedCommunities
    med := if !p.isWithdrawn then p.med else r.med
    localPref := if !p.isWithdrawn then p.localPref else r.localPref }

/-- The `UPDATE` of an EVPN route sets four columns more. -/
def updateEvpnRoute (p : StateCall) (stateChanged : Bool) (r : StateRow) :
    Except DbError StateRow := do
  let r ← updateIpRoute p stateChanged r
  .ok { r with
    evpnRouteType := if !p.isWithdrawn then p.evpnRouteType else r.evpnRouteType
    evpnRd := if !p.isWithdrawn then p.evpnRd else r.evpnRd
    evpnEsi := if !p.isWithdrawn then p.evpnEsi else r.evpnEsi
    macAddress := if !p.isWithdrawn then p.macAddress else r.macAddress }

/-- The row of the `INSERT`. The sum of its counters is one. -/
def newRow (p : StateCall) : StateRow where
  bmpPeerIp := p.bmpPeerIp
  bgpPeerIp := p.bgpPeerIp
  family := p.family
  prefixCidr := p.prefixCidr
  policyStage := p.policyStage
  firstSeen := p.time
  lastSeen := p.time
  lastStateChange := p.time
  isWithdrawn := p.isWithdrawn
  learnCount := if p.isWithdrawn then 0 else 1
  withdrawCount := if p.isWithdrawn then 1 else 0
  nextHop := p.nextHop
  asPath := p.asPath
  communities := p.communities
  extendedCommunities := p.extendedCommunities
  med := p.med
  localPref := p.localPref
  evpnRouteType := p.evpnRouteType
  evpnRd := p.evpnRd
  evpnEsi := p.evpnEsi
  macAddress := p.macAddress

/-- `SELECT is_withdrawn INTO v_current_withdrawn`: `none` when nothing was `FOUND`. -/
def currentWithdrawn (p : StateCall) (t : Table) : Option Bool :=
  if isIpFamily p.family then (t.find? (sameIpRoute p)).map StateRow.isWithdrawn
  else if p.family = .evpn then (t.find? (sameEvpnRoute p)).map StateRow.isWithdrawn
  else none

/-- `UPDATE route_state SET … WHERE …`. -/
def updateWhere (selected : StateRow → Bool) (set : StateRow → Except DbError StateRow)
    (t : Table) : Except DbError Table := do
  let t ← t.mapM fun r => if selected r then set r else .ok r
  checkUnique t

/-- The statement after the lookup, which has found a row with this flag or nothing. -/
def writeRoute (p : StateCall) (found : Option Bool) (t : Table) : Except DbError Table :=
  match found with
  | some current =>
      let stateChanged := current != p.isWithdrawn
      if isIpFamily p.family then updateWhere (sameIpRoute p) (updateIpRoute p stateChanged) t
      else if p.family = .evpn then
        updateWhere (sameEvpnRoute p) (updateEvpnRoute p stateChanged) t
      else .ok t
  | none => checkUnique (t ++ [newRow p])

def updateRouteState (p : StateCall) (t : Table) : Except DbError Table :=
  writeRoute p (currentWithdrawn p t) t

end Pybmpmon.Database.RouteState
