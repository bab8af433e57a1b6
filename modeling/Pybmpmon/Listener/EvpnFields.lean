import Pybmpmon.Protocol.EvpnBounds
import Pybmpmon.Protocol.NlriAgreement
import Pybmpmon.Protocol.AttributePatches
import Pybmpmon.Protocol.BmpEncoding
import Pybmpmon.Listener.RouteMonitoring

/-!
# The EVPN columns of a queued route

A MAC/IP route has the columns in its own octets; the routes of other types have
none but their type. The handler fills what a route does not have from the first
route of the UPDATE's last EVPN attribute.
-/
namespace Pybmpmon.Listener.EvpnFields

open Pybmpmon.Lib.ByteString Pybmpmon.Lib.Outcome Pybmpmon.Lib.Scan Pybmpmon.Python
open Pybmpmon.Utils.Binary Pybmpmon.Utils.Windows
open Pybmpmon.Protocol.Bmp Pybmpmon.Protocol.Bgp Pybmpmon.Protocol.BmpParser
open Pybmpmon.Protocol.BgpParser Pybmpmon.Protocol.DecoderErrors Pybmpmon.Protocol.EvpnBounds
open Pybmpmon.Protocol.BmpEncoding Pybmpmon.Protocol.UpdateEncoding
open Pybmpmon.Protocol.AttributeEncoding Pybmpmon.Protocol.UpdateWalk
open Pybmpmon.Protocol.AttributePatches Pybmpmon.Protocol.Relocation
open Pybmpmon.Models.Route Pybmpmon.Listener.RouteMonitoring

/-! ## The columns are in the route's own octets -/

/-- An EVPN NLRI as it is sent: a MAC/IP route has its fixed fields, and a route of another
type any octets. -/
structure SentRoute where
  routeType : UInt8
  body : Bytes
  size : body.length < 256
  full : routeType = 2 → 33 ≤ body.length

namespace SentRoute

def encode (n : SentRoute) : Bytes := n.routeType :: UInt8.ofNat n.body.length :: n.body

/-- The columns that the NLRI gives when it is decoded on its own. -/
def fields (n : SentRoute) : RouteFields :=
  match parseEvpnNlri n.encode 0 with
  | .ok (some route, _) => ownFields route
  | _ => ⟨n.routeType.toNat, none, none, none⟩

end SentRoute

theorem parseEvpnNlri_eq {d s : Bytes} {offset : Nat} (n : SentRoute)
    (hat : At d offset (n.encode ++ s)) :
    parseEvpnNlri d offset =
      if n.routeType = 2 then
        (fun route => (some route, n.encode.length)) <$> evpnMacIpRoute d (offset + 2)
      else .ok (some (.other n.routeType.toNat), n.encode.length) := by
  have hn : n.encode.length = 2 + n.body.length := by
    simp only [SentRoute.encode, List.length_cons]
    omega
  simp only [SentRoute.encode, List.cons_append] at hat
  rw [parseEvpnNlri_whole hat n.size, hn]
  by_cases h2 : n.routeType = 2
  · rw [if_pos h2, if_pos h2, if_neg (Nat.not_lt.mpr (n.full h2))]
  · rw [if_neg h2, if_neg h2]

/-- Wherever the NLRI stands, the columns of its route are those of the NLRI on its own. -/
theorem parseEvpnNlri_sent {d s : Bytes} {offset : Nat} (n : SentRoute)
    (hat : At d offset (n.encode ++ s)) :
    ∃ route, parseEvpnNlri d offset = .ok (some route, n.encode.length) ∧
      ownFields route = n.fields ∧ (n.fields.rd = none ↔ n.routeType ≠ 2) := by
  have hown : At n.encode 0 (n.encode ++ []) := by
    rw [List.append_nil]
    exact at_zero _
  have hd := parseEvpnNlri_eq n hat
  have hn := parseEvpnNlri_eq n hown
  by_cases h2 : n.routeType = 2
  · have hown' : At n.encode 0 (n.routeType :: UInt8.ofNat n.body.length :: (n.body ++ [])) := hown
    simp only [SentRoute.encode, List.cons_append] at hat
    obtain ⟨rd, esi, mac, next, -, hbody⟩ := evpnMacIpRoute_body (n.full h2)
    -- only the IP address may be read from beyond the NLRI, and it is none of the columns
    obtain ⟨ip, hip⟩ := evpnIpAddress_returns d (n.body.getD next 0).toNat (offset + 2 + (next + 1))
    obtain ⟨ip', hip'⟩ :=
      evpnIpAddress_returns n.encode (n.body.getD next 0).toNat (0 + 2 + (next + 1))
    rw [if_pos h2, hbody hat.tail.tail, hip, ok_map, ok_map] at hd
    rw [if_pos h2, hbody hown'.tail.tail, hip', ok_map, ok_map] at hn
    refine ⟨_, hd, ?_, ?_⟩
    · rw [SentRoute.fields, hn]
      rfl
    · rw [SentRoute.fields, hn]
      simp [ownFields, EvpnRouteInfo.getRd, h2]
  · rw [if_neg h2] at hd hn
    refine ⟨_, hd, ?_, ?_⟩
    · rw [SentRoute.fields, hn]
    · rw [SentRoute.fields, hn]
      simp [ownFields, EvpnRouteInfo.getRd, h2]

theorem SentRoute.rd_none_iff (n : SentRoute) : n.fields.rd = none ↔ n.routeType ≠ 2 := by
  have hat : At n.encode 0 (n.encode ++ []) := by
    rw [List.append_nil]
    exact at_zero _
  obtain ⟨_, _, _, h⟩ := parseEvpnNlri_sent n hat
  exact h

/-- The routes of a list of NLRIs, in order. -/
theorem parseEvpnRoutes_sent {d : Bytes} :
    ∀ (ns : List SentRoute) (offset : Nat), At d offset (ns.flatMap SentRoute.encode) →
      ∃ routes : List EvpnRouteInfo, parseEvpnRoutes d offset = .ok (routes.map .evpn) ∧
        routes.map ownFields = ns.map SentRoute.fields := by
  intro ns
  induction ns with
  | nil =>
    intro offset hat
    have hl := hat.length
    rw [List.flatMap_nil, List.length_nil] at hl
    exact ⟨[], by rw [parseEvpnRoutes, scan_done (by omega)]; rfl, rfl⟩
  | cons n ns ih =>
    intro offset hat
    rw [List.flatMap_cons] at hat
    obtain ⟨route, hroute, hfields, -⟩ := parseEvpnNlri_sent n hat
    obtain ⟨routes, hroutes, hrest⟩ := ih _ hat.advance
    have hl := hat.length
    have hpos : 0 < n.encode.length := by simp [SentRoute.encode]
    rw [List.length_append] at hl
    refine ⟨route :: routes, ?_, by rw [List.map_cons, List.map_cons, hfields, hrest]⟩
    rw [parseEvpnRoutes] at hroutes ⊢
    rw [scan_step (evpnRound_advances d) (by omega), hroute, ok_bind]
    simp only [Option.toList_some, List.map_cons, List.map_nil, ok_bind]
    rw [if_neg (by omega)]
    simp only
    rw [hroutes, ok_bind]
    rfl

/-! ## What the handler fills in -/

/-- The four columns of a record. -/
def recordFields (route : RouteUpdate) : Option Nat × Option String × Option String × Option String :=
  (route.evpnRouteType, route.evpnRd, route.evpnEsi, route.macAddress)

/-- The columns the handler gives an announced route, under those of the UPDATE. -/
def filled (update : ParsedBGPUpdate) (route : EvpnRouteInfo) :
    Option Nat × Option String × Option String × Option String :=
  (some route.routeType, route.getRd update.evpnRd, route.getEsi update.evpnEsi,
    route.getMacAddress update.macAddress)

/-- The same for any announced entry: a prefix has the columns of the UPDATE. -/
def announcedFields (update : ParsedBGPUpdate) :
    PrefixEntry → Option Nat × Option String × Option String × Option String
  | .evpn route => filled update route
  | .cidr _ => (update.evpnRouteType, update.evpnRd, update.evpnEsi, update.macAddress)

/-- Nothing is filled in when there is nothing to fill in or nothing to fill it in from. -/
theorem filled_own_iff (update : ParsedBGPUpdate) (route : EvpnRouteInfo) :
    filled update route = (ownFields route).vars ↔
      (ownFields route).rd ≠ none ∨
        (update.evpnRd = none ∧ update.evpnEsi = none ∧ update.macAddress = none) := by
  cases route with
  | macIp rd esi mac ip =>
    exact iff_of_true rfl (.inl (by simp [ownFields, EvpnRouteInfo.getRd]))
  | other t =>
    simp [filled, ownFields, RouteFields.vars, EvpnRouteInfo.getRd, EvpnRouteInfo.getEsi,
      EvpnRouteInfo.getMacAddress]

theorem firstRoute_fields {afi safi : Nat} {routes : List PrefixEntry} {f : RouteFields}
    (h : firstRoute afi safi routes = some f) : ∃ route, f = ownFields route := by
  unfold firstRoute at h
  split at h
  · split at h
    · cases h
      exact ⟨_, rfl⟩
    · cases h
  · cases h

theorem fieldsOf_fields {attr : BGPPathAttribute} {f : RouteFields} (h : fieldsOf attr = some f) :
    ∃ route, f = ownFields route := by
  rw [fieldsOf, Option.or_eq_some_iff] at h
  rcases h with h | ⟨-, h⟩
  · obtain ⟨mp, -, hfirst⟩ := Option.bind_eq_some_iff.mp h
    exact firstRoute_fields hfirst
  · obtain ⟨mp, -, hfirst⟩ := Option.bind_eq_some_iff.mp h
    exact firstRoute_fields hfirst

/-- The columns of the UPDATE are unset when its last EVPN attribute starts with a route that
has none. -/
theorem unset_iff (attrs : List BGPPathAttribute) (v : UpdateVars)
    (hv : evpnVars v = ((attrs.filterMap fieldsOf).getLast?.map RouteFields.vars).getD
      (none, none, none, none)) :
    (v.evpnRd = none ∧ v.evpnEsi = none ∧ v.macAddress = none) ↔
      ∀ f, (attrs.filterMap fieldsOf).getLast? = some f → f.rd = none := by
  cases hlast : (attrs.filterMap fieldsOf).getLast? with
  | none =>
    rw [hlast] at hv
    simp only [evpnVars, Option.map_none, Option.getD_none, Prod.mk.injEq] at hv
    exact iff_of_true hv.2 (fun f hf => by cases hf)
  | some f =>
    rw [hlast] at hv
    simp only [evpnVars, Option.map_some, Option.getD_some, RouteFields.vars, Prod.mk.injEq] at hv
    obtain ⟨attr, -, hf⟩ := List.mem_filterMap.mp (List.mem_of_getLast? hlast)
    obtain ⟨route, rfl⟩ := fieldsOf_fields hf
    cases route <;>
      simp_all [ownFields, EvpnRouteInfo.getRd, EvpnRouteInfo.getEsi, EvpnRouteInfo.getMacAddress]

/-! ## The queue -/

/-- The value of an MP_REACH_NLRI attribute for the NLRIs. -/
def evpnReachValue (nextHop : Bytes) (reserved : UInt8) (ns : List SentRoute) : Bytes :=
  mpReachValue 25 70 nextHop reserved (ns.flatMap SentRoute.encode)

theorem reachOf_evpn {attr : BGPPathAttribute} {nextHop : Bytes} {reserved : UInt8}
    {ns : List SentRoute} (htype : attr.typeCode = .known .mpReachNlri)
    (hnext : nextHop.length < 256) (hvalue : attr.value = evpnReachValue nextHop reserved ns) :
    ∃ hop routes, reachOf attr = some ⟨25, 70, hop, List.map PrefixEntry.evpn routes⟩ ∧
      routes.map ownFields = ns.map SentRoute.fields := by
  obtain ⟨hop, hhop⟩ := mpNextHop_returns 25 nextHop
  have hat := mpReachValue_at 25 70 nextHop reserved (ns.flatMap SentRoute.encode)
  obtain ⟨routes, hroutes, hfields⟩ := parseEvpnRoutes_sent ns _ hat
  have hparse := parseMpReachNlri_value reserved (ns.flatMap SentRoute.encode)
    (show 25 < 2 ^ 16 by decide) (show 70 < 256 by decide) hnext
  rw [hhop, ok_bind, parseNlri, if_neg (by decide), if_neg (by decide), if_pos ⟨rfl, rfl⟩, hroutes,
    ok_bind] at hparse
  exact ⟨hop, routes, by rw [reachOf, if_pos htype, hvalue, evpnReachValue, hparse]; rfl, hfields⟩

/-- How many announced routes come before those of an attribute. -/
def announcedBefore (attrs : List BGPPathAttribute) : Nat :=
  ((attrs.filterMap reachOf).flatMap MpReach.prefixes).length

section Queue

variable {data : Bytes} {message : BMPRouteMonitoringMessage} {update : BGPUpdateMessage}
variable {parsed : ParsedBGPUpdate}

/-- The columns of the records queued for the routes of one attribute. -/
theorem queued_fields (hmessage : parseRouteMonitoringMessage data = .ok message)
    (hupdate : parseBgpUpdateStructure message.bgpUpdate = .ok update)
    (hparsed : parseBgpUpdate message.bgpUpdate = .ok parsed)
    {before after : List BGPPathAttribute} {attr : BGPPathAttribute}
    (hattrs : update.pathAttributes = before ++ attr :: after) {afi safi : Nat}
    {hop : Option IpAddress} {routes : List EvpnRouteInfo}
    (hreach : reachOf attr = some ⟨afi, safi, hop, List.map PrefixEntry.evpn routes⟩)
    (clock : Nat → Timestamp) (bmpPeerIp : IpAddress) :
    (((handleRouteMonitoring recorder clock data bmpPeerIp []).2.drop
      (announcedBefore before)).take routes.length).map recordFields = routes.map (filled parsed) := by
  obtain ⟨-, -, hvalue⟩ := parseBgpUpdate_accepted hupdate hparsed
  have hprefixes : parsed.prefixes = _ :=
    (congrArg ParsedBGPUpdate.prefixes hvalue).trans (prefixes_withClassic update.nlri _ _)
  have hview := routeUpdates_view recordFields bmpPeerIp message parsed
    (announcedFields parsed)
    (fun entry => recordFields (withdrawnRoute bmpPeerIp message.perPeerHeader
      (determineFamily parsed.afi parsed.safi) entry 0))
    (fun entry _ => by cases entry <;> rfl) (fun entry _ => rfl) clock
  rw [handleRouteMonitoring_recorder hmessage hparsed, List.map_take, List.map_drop, hview, hprefixes,
    hattrs, List.filterMap_append, List.filterMap_cons, hreach]
  simp only [List.flatMap_append, List.flatMap_cons, List.map_append, List.append_assoc]
  rw [List.drop_left' (by rw [List.length_map]; rfl), List.map_map,
    List.take_left' (by rw [List.length_map])]
  rfl

/-- The columns of the records queued for a list of EVPN NLRIs are those of the NLRIs exactly
when each of them is a MAC/IP route, or the UPDATE's last EVPN attribute starts with a route
that has no distinguisher. -/
theorem evpn_fields_own_iff (hmessage : parseRouteMonitoringMessage data = .ok message)
    (hupdate : parseBgpUpdateStructure message.bgpUpdate = .ok update)
    (hparsed : parseBgpUpdate message.bgpUpdate = .ok parsed)
    {before after : List BGPPathAttribute} {attr : BGPPathAttribute}
    (hattrs : update.pathAttributes = before ++ attr :: after)
    (htype : attr.typeCode = .known .mpReachNlri) {nextHop : Bytes} (hnext : nextHop.length < 256)
    {reserved : UInt8} (ns : List SentRoute) (hvalue : attr.value = evpnReachValue nextHop reserved ns)
    (clock : Nat → Timestamp) (bmpPeerIp : IpAddress) :
    (((handleRouteMonitoring recorder clock data bmpPeerIp []).2.drop
        (announcedBefore before)).take ns.length).map recordFields =
      ns.map (fun n => n.fields.vars) ↔
    (∀ n ∈ ns, n.routeType = 2) ∨
      ∀ f, (update.pathAttributes.filterMap fieldsOf).getLast? = some f → f.rd = none := by
  obtain ⟨hop, routes, hreach, hfields⟩ := reachOf_evpn htype hnext hvalue
  have hlength : routes.length = ns.length := by
    simpa only [List.length_map] using congrArg List.length hfields
  have hown : ns.map (fun n => n.fields.vars) = routes.map fun route => (ownFields route).vars := by
    have hvars := congrArg (List.map RouteFields.vars) hfields
    simpa only [List.map_map, Function.comp_def] using hvars.symm
  have hall : (∀ route ∈ routes, (ownFields route).rd ≠ none) ↔ ∀ n ∈ ns, n.routeType = 2 := by
    have hmapped : (∀ f ∈ routes.map ownFields, f.rd ≠ none) ↔ ∀ n ∈ ns, n.routeType = 2 := by
      rw [hfields, List.forall_mem_map]
      exact forall₂_congr fun n _ => (not_congr n.rd_none_iff).trans not_not
    rwa [List.forall_mem_map] at hmapped
  obtain ⟨-, -, hresult⟩ := parseBgpUpdate_accepted hupdate hparsed
  have hunset := unset_iff update.pathAttributes _
    ((withClassic_evpnVars update.nlri (fieldPrefixes update.nlri) _).trans
      (walked_evpnVars update.pathAttributes
        { withdrawnPrefixes := fieldPrefixes update.withdrawnRoutes }))
  have hfilled : (∀ route ∈ routes, filled parsed route = (ownFields route).vars) ↔
      (∀ route ∈ routes, (ownFields route).rd ≠ none) ∨
        (parsed.evpnRd = none ∧ parsed.evpnEsi = none ∧ parsed.macAddress = none) := by
    simp only [filled_own_iff]
    constructor
    · intro h
      by_cases hnothing : parsed.evpnRd = none ∧ parsed.evpnEsi = none ∧ parsed.macAddress = none
      · exact .inr hnothing
      · exact .inl fun route hroute => (h route hroute).resolve_right hnothing
    · rintro (h | h) route hroute
      · exact .inl (h route hroute)
      · exact .inr h
  rw [← hlength, queued_fields hmessage hupdate hparsed hattrs hreach, hown, List.map_inj_left,
    hfilled, hall, hresult]
  exact or_congr_right hunset

end Queue

/-- A MAC/IP route of distinguisher 65001:100. -/
def macIpRoute : SentRoute where
  routeType := 2
  body := [0, 0, 253, 233, 0, 0, 0, 100, 0, 0, 0, 0, 0, 0, 0, 0, 0, 0, 0, 0, 0, 0, 48, 2, 0, 0, 0, 0, 1,
    0, 0, 0, 16]
  size := by decide
  full := fun _ => by decide

/-- An Inclusive Multicast route of the same distinguisher. -/
def multicastRoute : SentRoute where
  routeType := 3
  body := [0, 0, 253, 233, 0, 0, 0, 100, 0, 0, 0, 0, 32, 10, 0, 0, 1]
  size := by decide
  full := by decide

/-- The UPDATE that announces the routes and has no other attribute. -/
def evpnUpdate (ns : List SentRoute) : Bytes :=
  encodeUpdate [] [⟨0x80, 14, evpnReachValue [10, 0, 0, 1] 0 ns⟩] []

def evpnAttribute (ns : List SentRoute) : BGPPathAttribute :=
  (WireAttribute.mk 0x80 14 (evpnReachValue [10, 0, 0, 1] 0 ns)).parsed

/-- The multicast route first. -/
def multicastFirst : List SentRoute := [multicastRoute, macIpRoute]

theorem evpn_fields_own_multicastFirst :
    (((handleRouteMonitoring recorder (fun k => k)
        (encodeRouteMonitoring samplePeer (evpnUpdate multicastFirst)) samplePeer.peerAddress []).2.drop
        (announcedBefore [])).take 2).map recordFields = [multicastRoute.fields.vars, macIpRoute.fields.vars] ↔
      (∀ n ∈ multicastFirst, n.routeType = 2) ∨
        ∀ f, ([evpnAttribute multicastFirst].filterMap fieldsOf).getLast? = some f → f.rd = none := by
  have hupdate : parseBgpUpdateStructure (evpnUpdate multicastFirst) =
      .ok ⟨0, [], 66, [evpnAttribute multicastFirst], []⟩ :=
    parseBgpUpdateStructure_encode ⟨by decide, by decide⟩
  have hattrs : [evpnAttribute multicastFirst] = [] ++ evpnAttribute multicastFirst :: [] := rfl
  have hnext : ([10, 0, 0, 1] : Bytes).length < 256 := by decide
  exact evpn_fields_own_iff (parseRouteMonitoringMessage_encode _ samplePeer_fits (by decide))
    hupdate (parseBgpUpdate_encode [] [] ⟨by decide, by decide⟩) hattrs rfl hnext multicastFirst rfl _ _

/-- A multicast route after a MAC/IP route is queued with the distinguisher of that one. -/
theorem multicast_route_filled :
    ¬ ∀ (data : Bytes) (message : BMPRouteMonitoringMessage) (update : BGPUpdateMessage)
      (before after : List BGPPathAttribute) (attr : BGPPathAttribute) (nextHop : Bytes)
      (reserved : UInt8) (ns : List SentRoute) (clock : Nat → Timestamp) (bmpPeerIp : IpAddress),
      parseRouteMonitoringMessage data = .ok message →
      parseBgpUpdateStructure message.bgpUpdate = .ok update →
      (parseBgpUpdate message.bgpUpdate).isOk →
      update.pathAttributes = before ++ attr :: after → attr.typeCode = .known .mpReachNlri →
      nextHop.length < 256 → attr.value = evpnReachValue nextHop reserved ns →
      (((handleRouteMonitoring recorder clock data bmpPeerIp []).2.drop
          (announcedBefore before)).take ns.length).map recordFields =
        ns.map (fun n => n.fields.vars) := by
  intro h
  have hqueue := h (encodeRouteMonitoring samplePeer (evpnUpdate [macIpRoute, multicastRoute])) _ _
    [] [] (evpnAttribute [macIpRoute, multicastRoute]) [10, 0, 0, 1] 0 [macIpRoute, multicastRoute]
    (fun k => k) samplePeer.peerAddress
    (parseRouteMonitoringMessage_encode _ samplePeer_fits (by decide))
    (parseBgpUpdateStructure_encode ⟨by decide, by decide⟩) (by decide) rfl rfl (by decide) rfl
  have hrd := congrArg (List.map fun columns => columns.2.1.isSome) hqueue
  revert hrd
  decide

end Pybmpmon.Listener.EvpnFields
