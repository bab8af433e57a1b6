import Mathlib.Data.Nat.Bitwise
import Pybmpmon.Lib.Fold
import Pybmpmon.Protocol.BmpEncoding
import Pybmpmon.Protocol.AttributeEncoding
import Pybmpmon.Listener.RouteMonitoring

/-!
# From bytes to rows

A Route Monitoring message whose UPDATE carries routes in one place is queued as
one record for each route, in wire order, and every field of the record is the
message's own. The attributes may come in any order and under any flags.
-/
namespace Pybmpmon.Listener.BytesToRows

open Pybmpmon.Lib.ByteString Pybmpmon.Lib.Fold Pybmpmon.Python
open Pybmpmon.Protocol.Bmp Pybmpmon.Protocol.Bgp Pybmpmon.Protocol.BgpParser
open Pybmpmon.Protocol.BmpEncoding Pybmpmon.Protocol.UpdateEncoding
open Pybmpmon.Protocol.ValueEncoding Pybmpmon.Protocol.NlriEncoding
open Pybmpmon.Protocol.AttributeEncoding Pybmpmon.Protocol.UpdateWalk
open Pybmpmon.Models.Route Pybmpmon.Listener.RouteMonitoring

/-! ## What an UPDATE carries -/

/-- The place an UPDATE carries its routes in. -/
inductive RouteField where
  | nlri (prefixes : List Ipv4Prefix)
  | mpReach (nextHop : IpAddress) (linkLocal : Bytes) (reserved : UInt8) (routes : MpRoutes)
  | mpUnreach (routes : MpRoutes)

namespace RouteField

def mpAttribute : RouteField → Option Attribute
  | nlri _ => none
  | mpReach nextHop linkLocal reserved routes =>
      some (.mpReachNlri nextHop linkLocal reserved routes)
  | mpUnreach routes => some (.mpUnreachNlri routes)

/-- The classic NLRI field of the UPDATE. -/
def nlriPrefixes : RouteField → List (WirePrefix 32)
  | nlri ps => ps.map Ipv4Prefix.wire
  | _ => []

def routes : RouteField → MpRoutes
  | nlri ps => .ipv4 ps
  | mpReach _ _ _ r => r
  | mpUnreach r => r

def isWithdrawn : RouteField → Bool
  | mpUnreach _ => true
  | _ => false

/-- The routes of the multiprotocol attribute, if the routes are in one. -/
def mpRoutes : RouteField → Option MpRoutes
  | nlri _ => none
  | mpReach _ _ _ r => some r
  | mpUnreach r => some r

def Fits : RouteField → Prop
  | mpReach nextHop linkLocal _ routes => NextHopFits routes nextHop linkLocal
  | _ => True

end RouteField

/-- The attributes of an UPDATE besides the one that carries routes: at most one of each
interpreted type, and any others. -/
structure CarriedAttributes where
  origin : Option UInt8
  asPath : Option (List (WireSegment 4))
  nextHop : Option IPv4Address
  med : Option Nat
  localPref : Option Nat
  communities : Option (List WireCommunity)
  uninterpreted : List (UInt8 × Bytes)

namespace CarriedAttributes

def list (c : CarriedAttributes) : List Attribute :=
  c.origin.toList.map .origin ++ (c.asPath.toList.map .asPath ++
    (c.nextHop.toList.map .nextHopAttr ++ (c.med.toList.map .multiExitDisc ++
      (c.localPref.toList.map .localPref ++ (c.communities.toList.map .communities ++
        c.uninterpreted.map fun u => .uninterpreted u.1 u.2)))))

/-- The values fit their fields, AS paths are made of sequences and sets, and NEXT_HOP
goes with the classic NLRI field only. -/
structure Fits (c : CarriedAttributes) (field : RouteField) : Prop where
  attributes : ∀ a ∈ c.list, a.Fits
  segments : ∀ path ∈ c.asPath, ∀ g ∈ path, g.segmentType = 1 ∨ g.segmentType = 2
  nextHop : c.nextHop.isSome → ∃ ps, field = .nlri ps

theorem Fits.nextHop_none {c : CarriedAttributes} {field : RouteField} (h : c.Fits field)
    (hfield : ∀ ps, field ≠ .nlri ps) : c.nextHop = none := by
  cases hc : c.nextHop with
  | none => rfl
  | some a =>
    obtain ⟨ps, hps⟩ := h.nextHop (by simp [hc])
    exact absurd hps (hfield ps)

end CarriedAttributes

/-! ## The rows it stands for -/

/-- One route of an UPDATE. -/
inductive Route where
  | ipv4 (p : Ipv4Prefix)
  | ipv6 (p : Ipv6Prefix)
  | evpn (r : MacIpRoute)

/-- The prefix column: the prefix itself, or the host prefix of an EVPN route's address. -/
def Route.prefixCidr : Route → Option Cidr
  | ipv4 p => some p.cidr
  | ipv6 p => some p.cidr
  | evpn r => r.ipAddress.map fun a => ⟨a, a.width, Nat.le_refl _⟩

/-- The EVPN columns: a MAC/IP route has them, a prefix has none. -/
def Route.macIp : Route → Option MacIpRoute
  | evpn r => some r
  | _ => none

def routesOf : MpRoutes → List Route
  | .ipv4 ps => ps.map .ipv4
  | .ipv6 ps => ps.map .ipv6
  | .evpn rs => rs.map .evpn

def familyOf : MpRoutes → Family
  | .ipv4 _ => .ipv4Unicast
  | .ipv6 _ => .ipv6Unicast
  | .evpn _ => .evpn

/-- The next hop an announcement is stored with. -/
def storedNextHop (c : CarriedAttributes) : RouteField → Option IpAddress
  | .nlri _ => c.nextHop.map .v4
  | .mpReach nextHop _ _ _ => some nextHop
  | .mpUnreach _ => none

/-- An attribute of an announcement; a withdrawal is stored without attributes. -/
def announced {α : Type} (field : RouteField) (value : Option α) : Option α :=
  if field.isWithdrawn then none else value

/-- The record of one route. The L flag of the peer flags selects the policy stage. -/
def expectedRow (bmpPeerIp : IpAddress) (header : BMPPerPeerHeader) (c : CarriedAttributes)
    (field : RouteField) (route : Route) (time : Timestamp) : RouteUpdate where
  time := time
  bmpPeerIp := bmpPeerIp
  bmpPeerAsn := none
  bgpPeerIp := header.peerAddress
  bgpPeerAsn := some header.peerAsn
  family := familyOf field.routes
  prefixCidr := route.prefixCidr
  nextHop := storedNextHop c field
  asPath := announced field (c.asPath.map fun path => path.flatMap WireSegment.asNumbers)
  communities := announced field (c.communities.map fun cs => cs.map WireCommunity.text)
  extendedCommunities := none
  med := announced field c.med
  localPref := announced field c.localPref
  isWithdrawn := field.isWithdrawn
  policyStage := if header.peerFlags.testBit 6 then .postPolicy else .prePolicy
  evpnRouteType := route.macIp.map fun _ => 2
  evpnRd := route.macIp.map fun r => r.rd.text
  evpnEsi := route.macIp.map fun r => colonHex r.esi
  macAddress := route.macIp.map fun r => colonHex r.macAddress

/-! ## What the variables of the parser hold -/

def originOf : Attribute → Option Nat
  | .origin v => some v.toNat
  | _ => none

def asPathOf : Attribute → Option (List Nat)
  | .asPath segments => some (segments.flatMap WireSegment.counted)
  | _ => none

def nextHopOf : Attribute → Option IpAddress
  | .nextHopAttr a => some (.v4 a)
  | .mpReachNlri nextHop _ _ _ => some nextHop
  | _ => none

def medOf : Attribute → Option Nat
  | .multiExitDisc v => some v
  | _ => none

def localPrefOf : Attribute → Option Nat
  | .localPref v => some v
  | _ => none

def communitiesOf : Attribute → Option (List String)
  | .communities cs => some (cs.map WireCommunity.text)
  | _ => none

/-- The routes of a multiprotocol attribute. -/
def mpRoutesOf : Attribute → Option MpRoutes
  | .mpReachNlri _ _ _ routes => some routes
  | .mpUnreachNlri routes => some routes
  | _ => none

def firstMacIp : MpRoutes → Option MacIpRoute
  | .evpn rs => rs.head?
  | _ => none

def reachOf : Attribute → Option MpRoutes
  | .mpReachNlri _ _ _ routes => some routes
  | _ => none

def unreachOf : Attribute → Option MpRoutes
  | .mpUnreachNlri routes => some routes
  | _ => none

/-- The four EVPN variables are those of the first MAC/IP route, if there is one. -/
theorem firstRouteWrites_entries (r : MpRoutes) (v : UpdateVars) :
    firstRouteWrites r.afi r.safi r.entries v =
      match firstMacIp r with
      | none => v
      | some m => { v with
          evpnRouteType := some 2, evpnRd := some m.rd.text, evpnEsi := some (colonHex m.esi)
          macAddress := some (colonHex m.macAddress) } := by
  cases r with
  | ipv4 ps => rfl
  | ipv6 ps => rfl
  | evpn rs =>
    cases rs with
    | nil => rfl
    | cons m rs => rfl

def macIpOf (a : Attribute) : Option MacIpRoute := (mpRoutesOf a).bind firstMacIp

/-- What an attribute does to each variable of the parser. -/
theorem applied_eq (v : UpdateVars) (a : Attribute) :
    a.applied v =
      { afi := ((mpRoutesOf a).map MpRoutes.afi).or v.afi
        safi := ((mpRoutesOf a).map MpRoutes.safi).or v.safi
        prefixes := v.prefixes ++ ((reachOf a).map MpRoutes.entries).getD []
        withdrawnPrefixes := v.withdrawnPrefixes ++ ((unreachOf a).map MpRoutes.entries).getD []
        origin := (originOf a).or v.origin
        asPath := (asPathOf a).or v.asPath
        nextHop := (nextHopOf a).or v.nextHop
        med := (medOf a).or v.med
        localPref := (localPrefOf a).or v.localPref
        communities := (communitiesOf a).or v.communities
        extendedCommunities := v.extendedCommunities
        evpnRouteType := ((macIpOf a).map fun _ => 2).or v.evpnRouteType
        evpnRd := ((macIpOf a).map fun m => m.rd.text).or v.evpnRd
        evpnEsi := ((macIpOf a).map fun m => colonHex m.esi).or v.evpnEsi
        macAddress := ((macIpOf a).map fun m => colonHex m.macAddress).or v.macAddress
        hasMpUnreach := (unreachOf a).isSome || v.hasMpUnreach } := by
  cases a with
  | mpReachNlri nextHop linkLocal reserved routes =>
    simp only [Attribute.applied, MpReach.writes, firstRouteWrites_entries, macIpOf, mpRoutesOf,
      Option.bind_some]
    cases firstMacIp routes <;> simp [reachOf, unreachOf, originOf, asPathOf, nextHopOf,
      medOf, localPrefOf, communitiesOf]
  | mpUnreachNlri routes =>
    simp only [Attribute.applied, MpUnreach.writes, firstRouteWrites_entries, macIpOf, mpRoutesOf,
      Option.bind_some]
    cases firstMacIp routes <;> simp [reachOf, unreachOf, originOf, asPathOf, nextHopOf,
      medOf, localPrefOf, communitiesOf]
  | _ =>
    simp [Attribute.applied, macIpOf, mpRoutesOf, reachOf, unreachOf, originOf, asPathOf,
      nextHopOf, medOf, localPrefOf, communitiesOf]

/-- The variables after the loop over sent attributes. -/
def varsOf (l : List Attribute) : UpdateVars := l.foldl (fun v a => a.applied v) {}

section Carried

variable {field : RouteField} {c : CarriedAttributes} {l : List Attribute}

/-- A variable of which the UPDATE carries at most one value holds it, wherever it stands. -/
theorem var_carried {β : Type} (proj : UpdateVars → Option β) (get : Attribute → Option β)
    (hstep : ∀ v a, proj (Attribute.applied a v) = (get a).or (proj v)) (hinit : proj {} = none)
    (hperm : l.Perm (c.list ++ field.mpAttribute.toList)) {o : Option β}
    (h : (c.list ++ field.mpAttribute.toList).filterMap get = o.toList) :
    proj (varsOf l) = o := by
  have hl := hperm.filterMap get
  rw [h] at hl
  rw [varsOf, foldl_last proj get hstep, eq_of_perm_toList hl, getLast?_toList, hinit,
    Option.or_none]

/-- The same of a list of routes that one attribute carries. -/
theorem routes_carried (proj : UpdateVars → List PrefixEntry) (get : Attribute → Option MpRoutes)
    (hstep : ∀ v a, proj (Attribute.applied a v) =
      proj v ++ ((get a).map MpRoutes.entries).getD [])
    (hinit : proj {} = []) (hperm : l.Perm (c.list ++ field.mpAttribute.toList))
    {o : Option MpRoutes} (h : (c.list ++ field.mpAttribute.toList).filterMap get = o.toList) :
    proj (varsOf l) = (o.map MpRoutes.entries).getD [] := by
  have hl := hperm.filterMap get
  rw [h] at hl
  rw [varsOf, foldl_appended proj get MpRoutes.entries hstep, eq_of_perm_toList hl, hinit]
  cases o <;> simp

theorem filterMap_list {β : Type} (c : CarriedAttributes) (get : Attribute → Option β) :
    c.list.filterMap get =
      (c.origin.bind fun x => get (.origin x)).toList ++
      ((c.asPath.bind fun x => get (.asPath x)).toList ++
      ((c.nextHop.bind fun x => get (.nextHopAttr x)).toList ++
      ((c.med.bind fun x => get (.multiExitDisc x)).toList ++
      ((c.localPref.bind fun x => get (.localPref x)).toList ++
      ((c.communities.bind fun x => get (.communities x)).toList ++
      c.uninterpreted.filterMap fun u => get (.uninterpreted u.1 u.2)))))) := by
  simp only [CarriedAttributes.list, List.filterMap_append, List.filterMap_map, Function.comp_def,
    filterMap_toList]

variable (hperm : l.Perm (c.list ++ field.mpAttribute.toList))
include hperm

theorem vars_asPath : (varsOf l).asPath = c.asPath.map fun path => path.flatMap WireSegment.counted := by
  refine var_carried (fun v => v.asPath) asPathOf (fun v a => by rw [applied_eq]) rfl hperm ?_
  rw [List.filterMap_append, filterMap_list]
  cases field <;> simp [asPathOf, RouteField.mpAttribute, Option.map_eq_bind]

theorem vars_med : (varsOf l).med = c.med := by
  refine var_carried (fun v => v.med) medOf (fun v a => by rw [applied_eq]) rfl hperm ?_
  rw [List.filterMap_append, filterMap_list]
  cases field <;> simp [medOf, RouteField.mpAttribute]

theorem vars_localPref : (varsOf l).localPref = c.localPref := by
  refine var_carried (fun v => v.localPref) localPrefOf (fun v a => by rw [applied_eq]) rfl hperm ?_
  rw [List.filterMap_append, filterMap_list]
  cases field <;> simp [localPrefOf, RouteField.mpAttribute]

theorem vars_communities :
    (varsOf l).communities = c.communities.map fun cs => cs.map WireCommunity.text := by
  refine var_carried (fun v => v.communities) communitiesOf (fun v a => by rw [applied_eq]) rfl
    hperm ?_
  rw [List.filterMap_append, filterMap_list]
  cases field <;> simp [communitiesOf, RouteField.mpAttribute, Option.map_eq_bind]

theorem vars_extendedCommunities : (varsOf l).extendedCommunities = none :=
  var_carried (fun v => v.extendedCommunities) (fun _ => none) (fun v a => by rw [applied_eq]; rfl)
    rfl hperm (by simp)

theorem vars_nextHop (hfits : c.Fits field) : (varsOf l).nextHop = storedNextHop c field := by
  refine var_carried (fun v => v.nextHop) nextHopOf (fun v a => by rw [applied_eq]) rfl hperm ?_
  rw [List.filterMap_append, filterMap_list]
  cases field with
  | nlri ps => simp [nextHopOf, RouteField.mpAttribute, storedNextHop, Option.map_eq_bind]
  | mpReach nextHop linkLocal reserved routes =>
    have hnone : c.nextHop = none := hfits.nextHop_none fun _ h => by cases h
    simp [nextHopOf, RouteField.mpAttribute, storedNextHop, hnone]
  | mpUnreach routes =>
    have hnone : c.nextHop = none := hfits.nextHop_none fun _ h => by cases h
    simp [nextHopOf, RouteField.mpAttribute, storedNextHop, hnone]

theorem vars_afi : (varsOf l).afi = field.mpRoutes.map MpRoutes.afi := by
  refine var_carried (fun v => v.afi) (fun a => (mpRoutesOf a).map MpRoutes.afi)
    (fun v a => by rw [applied_eq]) rfl hperm ?_
  rw [List.filterMap_append, filterMap_list]
  cases field <;> simp [mpRoutesOf, RouteField.mpAttribute, RouteField.mpRoutes]

theorem vars_prefixes :
    (varsOf l).prefixes = ((field.mpAttribute.bind reachOf).map MpRoutes.entries).getD [] := by
  refine routes_carried (fun v => v.prefixes) reachOf (fun v a => by rw [applied_eq]) rfl hperm ?_
  rw [List.filterMap_append, filterMap_list]
  cases field <;> simp [reachOf, RouteField.mpAttribute]

theorem vars_withdrawnPrefixes :
    (varsOf l).withdrawnPrefixes =
      ((field.mpAttribute.bind unreachOf).map MpRoutes.entries).getD [] := by
  refine routes_carried (fun v => v.withdrawnPrefixes) unreachOf (fun v a => by rw [applied_eq]) rfl
    hperm ?_
  rw [List.filterMap_append, filterMap_list]
  cases field <;> simp [unreachOf, RouteField.mpAttribute]

/-- The EVPN variables are empty unless the routes are EVPN routes. -/
theorem vars_evpn (hnone : field.mpRoutes.bind firstMacIp = none) :
    (varsOf l).evpnRouteType = none ∧ (varsOf l).evpnRd = none ∧ (varsOf l).evpnEsi = none ∧
      (varsOf l).macAddress = none := by
  have hfield : (c.list ++ field.mpAttribute.toList).filterMap macIpOf = [] := by
    rw [List.filterMap_append, filterMap_list]
    cases field <;>
      simp_all [macIpOf, mpRoutesOf, RouteField.mpAttribute, RouteField.mpRoutes]
  have hmap : ∀ {β : Type} (f : MacIpRoute → β),
      (c.list ++ field.mpAttribute.toList).filterMap (fun a => (macIpOf a).map f) = [] := by
    intro β f
    rw [← List.map_filterMap, hfield, List.map_nil]
  refine ⟨?_, ?_, ?_, ?_⟩
  · exact var_carried (fun v => v.evpnRouteType) _ (fun v a => by rw [applied_eq]) rfl hperm
      (hmap fun _ => 2)
  · exact var_carried (fun v => v.evpnRd) _ (fun v a => by rw [applied_eq]) rfl hperm
      (hmap fun m => m.rd.text)
  · exact var_carried (fun v => v.evpnEsi) _ (fun v a => by rw [applied_eq]) rfl hperm
      (hmap fun m => colonHex m.esi)
  · exact var_carried (fun v => v.macAddress) _ (fun v a => by rw [applied_eq]) rfl hperm
      (hmap fun m => colonHex m.macAddress)

end Carried

/-! ## The records -/

theorem policyStageOf_testBit (peerFlags : Nat) :
    policyStageOf peerFlags = if peerFlags.testBit 6 then .postPolicy else .prePolicy := by
  have hmask : peerFlags &&& BMPPeerFlags.postPolicy = (peerFlags.testBit 6).toNat * 2 ^ 6 :=
    Nat.and_two_pow peerFlags 6
  rw [policyStageOf, hmask]
  cases peerFlags.testBit 6 <;> rfl

def Route.entry : Route → PrefixEntry
  | ipv4 p => .cidr p.cidr
  | ipv6 p => .cidr p.cidr
  | evpn r => .evpn r.info

theorem entries_routesOf (r : MpRoutes) : r.entries = (routesOf r).map Route.entry := by
  cases r <;> simp [MpRoutes.entries, routesOf, Route.entry]

theorem extractPrefixString_entry (route : Route) :
    extractPrefixString route.entry = route.prefixCidr := by
  cases route with
  | ipv4 p => rfl
  | ipv6 p => rfl
  | evpn r =>
    show r.ipAddress.map hostPrefix = _
    rw [Route.prefixCidr]
    cases r.ipAddress with
    | none => rfl
    | some a => cases a <;> rfl

theorem determineFamily_routes (r : MpRoutes) (safi : Option Nat) :
    determineFamily (some r.afi) safi = familyOf r := by cases r <;> rfl

theorem firstMacIp_none {r : MpRoutes} {route : Route} (h : route ∈ routesOf r)
    (hnone : route.macIp = none) : firstMacIp r = none := by
  cases r with
  | ipv4 ps => rfl
  | ipv6 ps => rfl
  | evpn rs =>
    obtain ⟨m, _, rfl⟩ := List.mem_map.mp h
    cases hnone

/-- A sequence or set counts all of its numbers. -/
theorem counted_carried {c : CarriedAttributes} {field : RouteField} (hfits : c.Fits field) :
    (c.asPath.map fun path => path.flatMap WireSegment.counted) =
      c.asPath.map fun path => path.flatMap WireSegment.asNumbers := by
  cases hp : c.asPath with
  | none => rfl
  | some path =>
    have hall : path.flatMap WireSegment.counted = path.flatMap WireSegment.asNumbers := by
      apply List.flatMap_congr
      intro g hg
      rw [WireSegment.counted, if_pos (hfits.segments path (by simp [hp]) g hg).symm]
    rw [Option.map_some, Option.map_some, hall]

section Rows

variable {field : RouteField} {c : CarriedAttributes} {l : List Attribute}

/-- A route that is not an EVPN route finds the EVPN variables empty. -/
theorem mpRoutes_no_macIp {route : Route} (hroute : route ∈ routesOf field.routes)
    (hnone : route.macIp = none) : field.mpRoutes.bind firstMacIp = none := by
  have hfirst := firstMacIp_none hroute hnone
  cases field with
  | nlri ps => rfl
  | mpReach nextHop linkLocal reserved routes => exact hfirst
  | mpUnreach routes => exact hfirst

/-- The record of an announced route, from the variables the attributes leave. -/
theorem announcedRoute_eq (hperm : l.Perm (c.list ++ field.mpAttribute.toList))
    (hfits : c.Fits field) (hreach : field.isWithdrawn = false) (bmpPeerIp : IpAddress)
    (header : BMPPerPeerHeader) {v : UpdateVars}
    (hv : ∃ afi safi prefixes, v = { varsOf l with afi := afi, safi := safi, prefixes := prefixes })
    {route : Route} (hroute : route ∈ routesOf field.routes) :
    announcedRoute bmpPeerIp header v.parsed (familyOf field.routes) route.entry =
      expectedRow bmpPeerIp header c field route := by
  obtain ⟨afi, safi, prefixes, rfl⟩ := hv
  funext time
  simp only [announcedRoute, expectedRow, UpdateVars.parsed, extractPrefixString_entry,
    policyStageOf_testBit, announced, hreach, vars_asPath hperm, counted_carried hfits,
    vars_med hperm, vars_localPref hperm, vars_communities hperm, vars_extendedCommunities hperm,
    vars_nextHop hperm hfits, Bool.false_eq_true, ↓reduceIte]
  cases route with
  | evpn r => rfl
  | ipv4 p =>
    obtain ⟨ht, hrd, hesi, hmac⟩ := vars_evpn hperm (mpRoutes_no_macIp hroute rfl)
    simp only [Route.entry, Route.macIp, ht, hrd, hesi, hmac, Option.map_none]
  | ipv6 p =>
    obtain ⟨ht, hrd, hesi, hmac⟩ := vars_evpn hperm (mpRoutes_no_macIp hroute rfl)
    simp only [Route.entry, Route.macIp, ht, hrd, hesi, hmac, Option.map_none]

theorem withdrawnRoute_eq (bmpPeerIp : IpAddress) (header : BMPPerPeerHeader)
    (c : CarriedAttributes) (routes : MpRoutes) (route : Route) :
    withdrawnRoute bmpPeerIp header (familyOf routes) route.entry =
      expectedRow bmpPeerIp header c (.mpUnreach routes) route := by
  funext time
  simp only [withdrawnRoute, expectedRow, extractPrefixString_entry, policyStageOf_testBit,
    announced, RouteField.isWithdrawn, storedNextHop, RouteField.routes, ↓reduceIte]
  cases route <;> rfl

end Rows

/-- The UPDATE a sender builds from the attributes, in the order they are sent. -/
def updateBytes (sent : List (UInt8 × Attribute)) (field : RouteField) : Bytes :=
  encodeUpdate [] (sent.map fun a => a.2.wire a.1) (encodePrefixes field.nlriPrefixes)

/-- A message that can be sent: the attributes are the carried ones and the one that holds
the routes, in any order and under any flags, and every length fits its field. -/
structure MessageFits (header : BMPPerPeerHeader) (c : CarriedAttributes) (field : RouteField)
    (sent : List (UInt8 × Attribute)) : Prop where
  headerFits : PerPeerHeaderFits header
  carriedFits : c.Fits field
  fieldFits : field.Fits
  order : (sent.map Prod.snd).Perm (c.list ++ field.mpAttribute.toList)
  lengths : UpdateFits [] (sent.map fun a => a.2.wire a.1) (encodePrefixes field.nlriPrefixes)

theorem sent_fits {header : BMPPerPeerHeader} {c : CarriedAttributes} {field : RouteField}
    {sent : List (UInt8 × Attribute)} (hfits : MessageFits header c field sent) :
    ∀ a ∈ sent, a.2.Fits := by
  intro a ha
  have hmem : a.2 ∈ c.list ++ field.mpAttribute.toList :=
    hfits.order.subset (List.mem_map_of_mem ha)
  rcases List.mem_append.mp hmem with hc | hf
  · exact hfits.carriedFits.attributes a.2 hc
  · have hfield := hfits.fieldFits
    cases field with
    | nlri ps => cases hf
    | mpReach nextHop linkLocal reserved routes =>
      have heq : a.2 = .mpReachNlri nextHop linkLocal reserved routes := by
        simpa [RouteField.mpAttribute] using hf
      rw [heq]
      exact hfield
    | mpUnreach routes =>
      have heq : a.2 = .mpUnreachNlri routes := by simpa [RouteField.mpAttribute] using hf
      rw [heq]
      trivial

/-- The records the handler queues for the message, before they are told apart. -/
theorem handle_sent (clock : Nat → Timestamp) (bmpPeerIp : IpAddress) {header : BMPPerPeerHeader}
    {c : CarriedAttributes} {field : RouteField} {sent : List (UInt8 × Attribute)}
    (hfits : MessageFits header c field sent) :
    handleRouteMonitoring recorder clock (encodeRouteMonitoring header (updateBytes sent field))
        bmpPeerIp [] =
      (.ok (), routeUpdates clock bmpPeerIp
        ⟨⟨3, 48 + (updateBytes sent field).length, .routeMonitoring⟩, header,
          updateBytes sent field⟩
        (nlriWrites field.nlriPrefixes (varsOf (sent.map Prod.snd))).parsed) := by
  have hlength := encodeUpdate_length [] (sent.map fun a => a.2.wire a.1)
    (encodePrefixes field.nlriPrefixes)
  have hsize := hfits.lengths.size
  have hparsed := parseRouteMonitoringMessage_encode (updateBytes sent field) hfits.headerFits
    (by rw [updateBytes]; omega)
  have hupdate := parseBgpUpdate_encode [] field.nlriPrefixes hfits.lengths
  have hwalk := walked_wire sent (sent_fits hfits) {}
  rw [List.map_map] at hupdate
  exact handleRouteMonitoring_recorder hparsed (hupdate.trans (by rw [varsOf, ← hwalk]; rfl))
    clock bmpPeerIp

/-- The handler queues one record for each route, in wire order, and nothing else. Each
record has the route's own prefix, the attributes and the peer of the message. -/
theorem bytes_to_rows (clock : Nat → Timestamp) (bmpPeerIp : IpAddress)
    (header : BMPPerPeerHeader) (c : CarriedAttributes) (field : RouteField)
    (sent : List (UInt8 × Attribute)) (hfits : MessageFits header c field sent) :
    handleRouteMonitoring recorder clock (encodeRouteMonitoring header (updateBytes sent field))
        bmpPeerIp [] =
      (.ok (), (routesOf field.routes).mapIdx fun k route =>
        expectedRow bmpPeerIp header c field route (clock k)) := by
  have hperm := hfits.order
  have hrow := announcedRoute_eq hperm hfits.carriedFits
  have hprefixes := vars_prefixes hperm
  have hwithdrawn := vars_withdrawnPrefixes hperm
  have hafi := vars_afi hperm
  rw [handle_sent clock bmpPeerIp hfits, ← built_map, routeUpdates]
  congr 2
  generalize sent.map Prod.snd = l at *
  cases field with
  | nlri ps =>
    have hentries : (ps.map Ipv4Prefix.wire).map (fun p => PrefixEntry.cidr p.ipv4) =
        (routesOf (.ipv4 ps)).map Route.entry := by
      simp only [List.map_map, Function.comp_def, Ipv4Prefix.wire_ipv4, routesOf, Route.entry]
    have hnone : (varsOf l).withdrawnPrefixes = [] := hwithdrawn
    have hempty : (varsOf l).prefixes = [] := hprefixes
    cases ps with
    | nil =>
      simp only [RouteField.nlriPrefixes, List.map_nil, nlriWrites, ↓reduceIte, UpdateVars.parsed,
        hnone, hempty, RouteField.routes, routesOf, List.append_nil]
    | cons p ps =>
      have hwrites : nlriWrites ((p :: ps).map Ipv4Prefix.wire) (varsOf l) =
          { varsOf l with
            afi := some 1, safi := some 1
            prefixes := (routesOf (.ipv4 (p :: ps))).map Route.entry } := by
        rw [nlriWrites, if_neg (by simp), hempty, hentries]
        rfl
      rw [RouteField.nlriPrefixes, hwrites]
      show ((routesOf (.ipv4 (p :: ps))).map Route.entry).map (announcedRoute bmpPeerIp header _
        .ipv4Unicast) ++ (varsOf l).withdrawnPrefixes.map _ = _
      rw [hnone, List.map_nil, List.append_nil, List.map_map]
      apply List.map_congr_left
      intro route hroute
      exact hrow rfl bmpPeerIp header ⟨_, _, _, rfl⟩ hroute
  | mpReach nextHop linkLocal reserved routes =>
    have hnone : (varsOf l).withdrawnPrefixes = [] := hwithdrawn
    have hentries : (varsOf l).prefixes = (routesOf routes).map Route.entry :=
      hprefixes.trans (entries_routesOf routes)
    have hfamily : determineFamily (varsOf l).afi (varsOf l).safi = familyOf routes := by
      rw [hafi]
      exact determineFamily_routes routes _
    show (varsOf l).prefixes.map (announcedRoute bmpPeerIp header (varsOf l).parsed
      (determineFamily (varsOf l).afi (varsOf l).safi)) ++ (varsOf l).withdrawnPrefixes.map _ = _
    rw [hfamily, hnone, hentries, List.map_nil, List.append_nil, List.map_map]
    apply List.map_congr_left
    intro route hroute
    exact hrow rfl bmpPeerIp header ⟨_, _, _, rfl⟩ hroute
  | mpUnreach routes =>
    have hnone : (varsOf l).prefixes = [] := hprefixes
    have hentries : (varsOf l).withdrawnPrefixes = (routesOf routes).map Route.entry :=
      hwithdrawn.trans (entries_routesOf routes)
    have hfamily : determineFamily (varsOf l).afi (varsOf l).safi = familyOf routes := by
      rw [hafi]
      exact determineFamily_routes routes _
    show (varsOf l).prefixes.map _ ++ (varsOf l).withdrawnPrefixes.map
      (withdrawnRoute bmpPeerIp header (determineFamily (varsOf l).afi (varsOf l).safi)) = _
    rw [hfamily, hnone, hentries, List.map_nil, List.nil_append, List.map_map]
    apply List.map_congr_left
    intro route _
    exact withdrawnRoute_eq bmpPeerIp header c routes route

/-- Of two numbers, the second of which takes four octets. -/
def sampleSegment : WireSegment 4 := ⟨2, [65001, 4200000000], by decide, by decide⟩

def sampleCarried : CarriedAttributes where
  origin := some 0
  asPath := some [sampleSegment]
  nextHop := some (.ofOctets 10 0 0 1)
  med := none
  localPref := none
  communities := none
  uninterpreted := []

/-- 10.0.0.0/8 and 10.64.0.0/10. -/
def sampleField : RouteField :=
  .nlri [samplePrefix, ⟨.ofOctets 10 64 0 0, 10, by decide, by decide⟩]

/-- The attributes out of order, the first with the extended-length flag. -/
def sampleSent : List (UInt8 × Attribute) :=
  [(0x50, .asPath [sampleSegment]), (0x40, .origin 0), (0x40, .nextHopAttr (.ofOctets 10 0 0 1))]

theorem sampleCarried_fits : sampleCarried.Fits sampleField where
  attributes := by
    intro a ha
    have hlist : sampleCarried.list =
        [.origin 0, .asPath [sampleSegment], .nextHopAttr (.ofOctets 10 0 0 1)] := rfl
    rw [hlist] at ha
    simp only [List.mem_cons, List.not_mem_nil, or_false] at ha
    rcases ha with rfl | rfl | rfl <;> trivial
  segments := by
    intro path hpath g hg
    have heq : path = [sampleSegment] := (Option.some.inj hpath).symm
    rw [heq] at hg
    rw [List.mem_singleton.mp hg]
    exact .inr rfl
  nextHop := fun _ => ⟨_, rfl⟩

theorem bytes_to_rows_ipv4 :
    handleRouteMonitoring recorder (fun k => k)
        (encodeRouteMonitoring samplePeer (updateBytes sampleSent sampleField))
        (.v4 (.ofOctets 192 0 2 1)) [] =
      (.ok (), (routesOf sampleField.routes).mapIdx fun k route =>
        expectedRow (.v4 (.ofOctets 192 0 2 1)) samplePeer sampleCarried sampleField route k) :=
  bytes_to_rows (fun k => k) _ samplePeer sampleCarried sampleField sampleSent
    ⟨samplePeer_fits, sampleCarried_fits, trivial, List.Perm.swap _ _ _, by decide, by decide⟩

end Pybmpmon.Listener.BytesToRows
