import Pybmpmon.Models.Route
import Pybmpmon.Protocol.BmpParser
import Pybmpmon.Protocol.BgpParser

/-!
# The Route Monitoring handler

`_handle_route_monitoring` of `listener.py`: it parses, builds one record for each
announced and then each withdrawn prefix, and hands them one by one to the batch
writer. The writer and the statistics are what the handler is given; a record is
built at the time of its own `datetime.now` call.
-/
namespace Pybmpmon.Listener.RouteMonitoring

open Pybmpmon.Lib.ByteString Pybmpmon.Python
open Pybmpmon.Protocol.Bmp Pybmpmon.Protocol.Bgp
open Pybmpmon.Protocol.BmpParser Pybmpmon.Protocol.BgpParser
open Pybmpmon.Models.Route

/-- A host prefix of the address: an IPv6 text has a colon, an IPv4 text has none. -/
def hostPrefix : IpAddress → Cidr
  | .v6 a => ⟨.v6 a, 128, Nat.le_refl _⟩
  | .v4 a => ⟨.v4 a, 32, Nat.le_refl _⟩

def extractPrefixString : PrefixEntry → Option Cidr
  | .cidr c => some c
  | .evpn route => route.getIpAddress.map hostPrefix

/-- The SAFI is passed and not looked at. -/
def determineFamily (afi _safi : Option Nat) : Family :=
  if afi = some AddressFamilyIdentifier.ipv4 then .ipv4Unicast
  else if afi = some AddressFamilyIdentifier.ipv6 then .ipv6Unicast
  else if afi = some AddressFamilyIdentifier.l2vpn then .evpn
  else .unknown

def policyStageOf (peerFlags : Nat) : PolicyStage :=
  if peerFlags &&& BMPPeerFlags.postPolicy != 0 then .postPolicy else .prePolicy

/-- The record of an announced prefix. The fields of an EVPN route override those
of the UPDATE, where the route has them. -/
def announcedRoute (bmpPeerIp : IpAddress) (header : BMPPerPeerHeader) (update : ParsedBGPUpdate)
    (family : Family) (entry : PrefixEntry) (time : Timestamp) : RouteUpdate where
  time := time
  bmpPeerIp := bmpPeerIp
  bmpPeerAsn := none
  bgpPeerIp := header.peerAddress
  bgpPeerAsn := some header.peerAsn
  family := family
  prefixCidr := extractPrefixString entry
  nextHop := update.nextHop
  asPath := update.asPath
  communities := update.communities
  extendedCommunities := update.extendedCommunities
  med := update.med
  localPref := update.localPref
  isWithdrawn := false
  policyStage := policyStageOf header.peerFlags
  evpnRouteType := match entry with
    | .evpn route => some route.routeType
    | .cidr _ => update.evpnRouteType
  evpnRd := match entry with
    | .evpn route => route.getRd update.evpnRd
    | .cidr _ => update.evpnRd
  evpnEsi := match entry with
    | .evpn route => route.getEsi update.evpnEsi
    | .cidr _ => update.evpnEsi
  macAddress := match entry with
    | .evpn route => route.getMacAddress update.macAddress
    | .cidr _ => update.macAddress

def withdrawnRoute (bmpPeerIp : IpAddress) (header : BMPPerPeerHeader) (family : Family)
    (entry : PrefixEntry) (time : Timestamp) : RouteUpdate where
  time := time
  bmpPeerIp := bmpPeerIp
  bmpPeerAsn := none
  bgpPeerIp := header.peerAddress
  bgpPeerAsn := some header.peerAsn
  family := family
  prefixCidr := extractPrefixString entry
  nextHop := none
  asPath := none
  communities := none
  extendedCommunities := none
  med := none
  localPref := none
  isWithdrawn := true
  policyStage := policyStageOf header.peerFlags
  evpnRouteType := match entry with
    | .evpn route => some route.routeType
    | .cidr _ => none
  evpnRd := match entry with
    | .evpn route => route.getRd none
    | .cidr _ => none
  evpnEsi := match entry with
    | .evpn route => route.getEsi none
    | .cidr _ => none
  macAddress := match entry with
    | .evpn route => route.getMacAddress none
    | .cidr _ => none

/-- Records built one after another, the `k`-th when the clock shows `clock k`. -/
def built (clock : Nat → Timestamp) (builders : List (Timestamp → RouteUpdate)) :
    List RouteUpdate := builders.mapIdx fun k build => build (clock k)

/-- The records of the two loops. -/
def routeUpdates (clock : Nat → Timestamp) (bmpPeerIp : IpAddress)
    (parsed : BMPRouteMonitoringMessage) (update : ParsedBGPUpdate) : List RouteUpdate :=
  let family := determineFamily update.afi update.safi
  built clock
    (update.prefixes.map (announcedRoute bmpPeerIp parsed.perPeerHeader update family) ++
      update.withdrawnPrefixes.map (withdrawnRoute bmpPeerIp parsed.perPeerHeader family))

/-- What the handler calls on the way: the writer's `add_route`, which may raise, and
the statistics' `increment_processed`. -/
structure Services (σ : Type) where
  addRoute : RouteUpdate → σ → Except PyErr Unit × σ
  incrementProcessed : IpAddress → Family → σ → σ

variable {σ : Type}

/-- A raise of `add_route` leaves the loop, and the rest is not queued. -/
def queueRoutes (services : Services σ) (bmpPeerIp : IpAddress) :
    List RouteUpdate → σ → Except PyErr Unit × σ
  | [], s => (.ok (), s)
  | route :: routes, s =>
      match services.addRoute route s with
      | (.error e, s) => (.error e, s)
      | (.ok (), s) =>
          queueRoutes services bmpPeerIp routes
            (services.incrementProcessed bmpPeerIp route.family s)

def handleRouteMonitoring (services : Services σ) (clock : Nat → Timestamp) (data : Bytes)
    (bmpPeerIp : IpAddress) (s : σ) : Except PyErr Unit × σ :=
  match parseRouteMonitoringMessage data with
  | .error e => (.error e, s)
  | .ok parsed =>
      match parseBgpUpdate parsed.bgpUpdate with
      | .error e => (.error e, s)
      | .ok update =>
          queueRoutes services bmpPeerIp (routeUpdates clock bmpPeerIp parsed update) s

theorem built_map {α : Type} (clock : Nat → Timestamp) (build : α → Timestamp → RouteUpdate)
    (l : List α) : built clock (l.map build) = l.mapIdx fun k a => build a (clock k) := by
  apply List.ext_getElem?
  intro k
  simp [built, Function.comp_def]

theorem built_append (clock : Nat → Timestamp) (a b : List (Timestamp → RouteUpdate)) :
    built clock (a ++ b) = built clock a ++ built (fun k => clock (k + a.length)) b :=
  List.mapIdx_append

theorem built_length (clock : Nat → Timestamp) (builders : List (Timestamp → RouteUpdate)) :
    (built clock builders).length = builders.length := List.length_mapIdx

theorem mem_built {clock : Nat → Timestamp} {builders : List (Timestamp → RouteUpdate)}
    {r : RouteUpdate} (h : r ∈ built clock builders) : ∃ b ∈ builders, ∃ t, r = b t := by
  rw [built, List.mem_mapIdx] at h
  obtain ⟨k, hk, rfl⟩ := h
  exact ⟨builders[k], List.getElem_mem hk, clock k, rfl⟩

theorem exists_built (clock : Nat → Timestamp) {builders : List (Timestamp → RouteUpdate)}
    {b : Timestamp → RouteUpdate} (h : b ∈ builders) : ∃ t, b t ∈ built clock builders := by
  obtain ⟨k, hk, rfl⟩ := List.mem_iff_getElem.mp h
  refine ⟨clock k, ?_⟩
  rw [built, List.mem_mapIdx]
  exact ⟨k, hk, rfl⟩

/-- What a record says apart from its time does not depend on the clock. -/
theorem built_view {β : Type} {view : RouteUpdate → β} {builders : List (Timestamp → RouteUpdate)}
    (h : ∀ build ∈ builders, ∀ t, view (build t) = view (build 0)) (clock : Nat → Timestamp) :
    (built clock builders).map view = builders.map fun build => view (build 0) := by
  apply List.ext_getElem?
  intro k
  rw [built, List.getElem?_map, List.getElem?_mapIdx, List.getElem?_map]
  cases hk : builders[k]? with
  | none => rfl
  | some build =>
    have hmem : build ∈ builders := List.mem_of_getElem? hk
    simp only [Option.map_some, h build hmem]

/-- The records of an UPDATE in a view of them that leaves out the time: the announced
entries and then the withdrawn ones. -/
theorem routeUpdates_view {β : Type} (view : RouteUpdate → β) (bmpPeerIp : IpAddress)
    (parsed : BMPRouteMonitoringMessage) (update : ParsedBGPUpdate) (announced withdrawn : PrefixEntry → β)
    (ha : ∀ entry t, view (announcedRoute bmpPeerIp parsed.perPeerHeader update
      (determineFamily update.afi update.safi) entry t) = announced entry)
    (hw : ∀ entry t, view (withdrawnRoute bmpPeerIp parsed.perPeerHeader
      (determineFamily update.afi update.safi) entry t) = withdrawn entry)
    (clock : Nat → Timestamp) :
    (routeUpdates clock bmpPeerIp parsed update).map view =
      update.prefixes.map announced ++ update.withdrawnPrefixes.map withdrawn := by
  rw [routeUpdates, built_view]
  · rw [List.map_append, List.map_map, List.map_map]
    congr 1
    · exact List.map_congr_left fun entry _ => ha entry 0
    · exact List.map_congr_left fun entry _ => hw entry 0
  · intro build hbuild t
    rcases List.mem_append.mp hbuild with hbuild | hbuild
    · obtain ⟨entry, _, rfl⟩ := List.mem_map.mp hbuild
      rw [ha, ha]
    · obtain ⟨entry, _, rfl⟩ := List.mem_map.mp hbuild
      rw [hw, hw]

/-- A writer that accepts every route and keeps the calls in order. -/
def recorder : Services (List RouteUpdate) where
  addRoute := fun route calls => (.ok (), calls ++ [route])
  incrementProcessed := fun _ _ calls => calls

theorem queueRoutes_recorder (bmpPeerIp : IpAddress) (routes calls : List RouteUpdate) :
    queueRoutes recorder bmpPeerIp routes calls = (.ok (), calls ++ routes) := by
  induction routes generalizing calls with
  | nil => simp [queueRoutes]
  | cons route routes ih =>
    simp only [queueRoutes, recorder]
    show queueRoutes recorder bmpPeerIp routes (calls ++ [route]) = _
    rw [ih, List.append_assoc, List.singleton_append]

/-- The calls a message makes when the parsers accept it and the writer accepts the routes. -/
theorem handleRouteMonitoring_recorder {data : Bytes} {parsed : BMPRouteMonitoringMessage}
    {update : ParsedBGPUpdate} (hparsed : parseRouteMonitoringMessage data = .ok parsed)
    (hupdate : parseBgpUpdate parsed.bgpUpdate = .ok update) (clock : Nat → Timestamp)
    (bmpPeerIp : IpAddress) :
    handleRouteMonitoring recorder clock data bmpPeerIp [] =
      (.ok (), routeUpdates clock bmpPeerIp parsed update) := by
  rw [handleRouteMonitoring, hparsed]
  simp only [hupdate]
  rw [queueRoutes_recorder, List.nil_append]

end Pybmpmon.Listener.RouteMonitoring
