import Pybmpmon.Protocol.BmpEncoding
import Pybmpmon.Protocol.AttributeEncoding
import Pybmpmon.Protocol.Relocation
import Pybmpmon.Listener.RouteMonitoring

/-!
# The row an announcement and a withdrawal are for

An announcement and a withdrawal of one NLRI are sent in matching fields: the
classic NLRI field and the Withdrawn Routes field, or the two multiprotocol
attributes. Both records carry the columns by which the state table finds its
row. They agree for the multiprotocol attributes; the Withdrawn Routes field
leaves the address family unset, so its records are of the family `unknown`.
-/
namespace Pybmpmon.Listener.KeyAgreement

open Pybmpmon.Lib.ByteString Pybmpmon.Lib.Outcome Pybmpmon.Lib.Scan Pybmpmon.Python
open Pybmpmon.Utils.Binary Pybmpmon.Protocol.Bmp Pybmpmon.Protocol.Bgp
open Pybmpmon.Protocol.BgpParser Pybmpmon.Protocol.BmpEncoding Pybmpmon.Protocol.UpdateEncoding
open Pybmpmon.Protocol.ValueEncoding Pybmpmon.Protocol.AttributeEncoding
open Pybmpmon.Protocol.NlriEncoding (samplePrefix)
open Pybmpmon.Protocol.UpdateWalk Pybmpmon.Protocol.Relocation Pybmpmon.Protocol.DecoderErrors
open Pybmpmon.Models.Route Pybmpmon.Listener.RouteMonitoring

/-- The columns by which `update_route_state` finds the row of a record. -/
structure RowColumns where
  bmpPeerIp : IpAddress
  bgpPeerIp : IpAddress
  family : Family
  prefixCidr : Option Cidr
  policyStage : PolicyStage
  evpnRd : Option String
  evpnEsi : Option String
  macAddress : Option String
  deriving DecidableEq, Repr

def rowColumns (r : RouteUpdate) : RowColumns :=
  ⟨r.bmpPeerIp, r.bgpPeerIp, r.family, r.prefixCidr, r.policyStage, r.evpnRd, r.evpnEsi,
    r.macAddress⟩

/-- One NLRI with the pair of fields it is announced and withdrawn in. -/
inductive Nlri where
  | classic (p : WirePrefix 32)
  | mpIpv4 (p : WirePrefix 32)
  | mpIpv6 (p : WirePrefix 128)
  | mpEvpn (routeType : UInt8) (body : Bytes)

namespace Nlri

def isClassic : Nlri → Bool
  | classic _ => true
  | _ => false

/-- An EVPN route has a length octet, and a Type 2 route has all of its fixed fields. -/
def Fits : Nlri → Prop
  | mpEvpn routeType body => body.length < 256 ∧ (routeType = 2 → 33 ≤ body.length)
  | _ => True

def afi : Nlri → Nat
  | mpIpv6 _ => 2
  | mpEvpn .. => 25
  | _ => 1

def safi : Nlri → Nat
  | mpEvpn .. => 70
  | _ => 1

def bytes : Nlri → Bytes
  | classic p => p.encode
  | mpIpv4 p => p.encode
  | mpIpv6 p => p.encode
  | mpEvpn routeType body => routeType :: UInt8.ofNat body.length :: body

end Nlri

/-- What a sender is free to choose around the NLRI: the other attributes, before and after
the multiprotocol one, and the flags, the next hop and the reserved octet of that one. -/
structure Sending where
  before : List WireAttribute
  after : List WireAttribute
  flags : UInt8
  nextHop : Bytes
  reserved : UInt8

/-- The other attributes are not multiprotocol ones, and the next hop has a length octet. -/
structure Sending.Fits (s : Sending) : Prop where
  before : ∀ a ∈ s.before, a.typeByte ≠ 14 ∧ a.typeByte ≠ 15
  after : ∀ a ∈ s.after, a.typeByte ≠ 14 ∧ a.typeByte ≠ 15
  nextHop : s.nextHop.length < 256

theorem Sending.Fits.others {s : Sending} (hs : s.Fits) :
    ∀ a ∈ s.before ++ s.after, a.typeByte ≠ 14 ∧ a.typeByte ≠ 15 := by
  intro a ha
  rcases List.mem_append.mp ha with h | h
  · exact hs.before a h
  · exact hs.after a h

def reachAttribute (n : Nlri) (s : Sending) : WireAttribute :=
  ⟨s.flags, 14, mpReachValue n.afi n.safi s.nextHop s.reserved n.bytes⟩

def unreachAttribute (n : Nlri) (s : Sending) : WireAttribute :=
  ⟨s.flags, 15, mpUnreachValue n.afi n.safi n.bytes⟩

/-- The Withdrawn Routes, the attributes and the NLRI field of the UPDATE announcing only `n`. -/
def announceParts (n : Nlri) (s : Sending) :
    List (WirePrefix 32) × List WireAttribute × List (WirePrefix 32) :=
  match n with
  | .classic p => ([], s.before ++ s.after, [p])
  | n => ([], s.before ++ reachAttribute n s :: s.after, [])

/-- The parts of the UPDATE withdrawing only `n`. -/
def withdrawParts (n : Nlri) (s : Sending) :
    List (WirePrefix 32) × List WireAttribute × List (WirePrefix 32) :=
  match n with
  | .classic p => ([p], s.before ++ s.after, [])
  | n => ([], s.before ++ unreachAttribute n s :: s.after, [])

/-- The UPDATE of three parts. -/
def updateOf (parts : List (WirePrefix 32) × List WireAttribute × List (WirePrefix 32)) : Bytes :=
  encodeUpdate (encodePrefixes parts.1) parts.2.1 (encodePrefixes parts.2.2)

def PartsFit (parts : List (WirePrefix 32) × List WireAttribute × List (WirePrefix 32)) : Prop :=
  UpdateFits (encodePrefixes parts.1) parts.2.1 (encodePrefixes parts.2.2)

/-! ## One entry from the NLRI -/

/-- The EVPN variables of an attribute whose only entry is this one. -/
def ownWrites (entry : PrefixEntry) (v : UpdateVars) : UpdateVars :=
  match entry with
  | .cidr _ => v
  | .evpn route => { v with
      evpnRouteType := some route.routeType, evpnRd := route.getRd none
      evpnEsi := route.getEsi none, macAddress := route.getMacAddress none }

/-- The one entry of an EVPN NLRI. -/
theorem parseNlri_evpn {routeType : UInt8} {body : Bytes} {route : EvpnRouteInfo}
    (hroute : parseEvpnNlri (Nlri.mpEvpn routeType body).bytes 0 = .ok (some route, 2 + body.length)) :
    parseNlri 25 70 (Nlri.mpEvpn routeType body).bytes 0 = .ok [.evpn route] := by
  have hsize : (Nlri.mpEvpn routeType body).bytes.length = 2 + body.length := by
    simp only [Nlri.bytes, List.length_cons]
    omega
  rw [parseNlri, if_neg (by simp [AddressFamilyIdentifier.ipv4]),
    if_neg (by simp [AddressFamilyIdentifier.ipv6]), if_pos ⟨rfl, rfl⟩,
    parseEvpnRoutes, scan_step (evpnRound_advances _) (by omega), hroute]
  simp only [ok_bind, Option.toList_some, List.map_cons, List.map_nil, Nat.zero_add]
  rw [if_neg (by omega)]
  simp only
  rw [scan_done (by omega)]
  rfl

/-- The multiprotocol decoder returns one entry for an NLRI that fits, and one with the
fields of an EVPN route exactly for an EVPN NLRI. -/
theorem parseNlri_single (n : Nlri) (hn : n.Fits) (hmp : n.isClassic = false) :
    ∃ entry, parseNlri n.afi n.safi n.bytes 0 = .ok [entry] ∧
      ∀ v, firstRouteWrites n.afi n.safi [entry] v = ownWrites entry v := by
  cases n with
  | classic p => cases hmp
  | mpIpv4 p =>
    have hat : At p.encode 0 ([p].flatMap WirePrefix.encode) := by
      rw [List.flatMap_singleton]
      exact at_zero _
    refine ⟨.cidr p.ipv4, ?_, fun v => rfl⟩
    rw [parseNlri, if_pos ⟨rfl, rfl⟩]
    exact parseIpv4Prefixes_at [p] hat
  | mpIpv6 p =>
    have hat : At p.encode 0 ([p].flatMap WirePrefix.encode) := by
      rw [List.flatMap_singleton]
      exact at_zero _
    refine ⟨.cidr p.ipv6, ?_, fun v => rfl⟩
    rw [parseNlri, if_neg (by simp [Nlri.afi, AddressFamilyIdentifier.ipv4]), if_pos ⟨rfl, rfl⟩]
    exact parseIpv6Prefixes_at [p] hat
  | mpEvpn routeType body =>
    have hat := at_zero (Nlri.mpEvpn routeType body).bytes
    obtain ⟨route, hroute⟩ := parseEvpnNlri_returns (s := [])
      (by rw [List.append_nil]; exact hat) hn.1 hn.2
    exact ⟨.evpn route, parseNlri_evpn hroute, fun v => rfl⟩

/-! ## The columns of a record -/

/-- The columns of an entry: an EVPN route brings its own. -/
def columnsOf (bmpPeerIp : IpAddress) (header : BMPPerPeerHeader) (family : Family)
    (entry : PrefixEntry) : RowColumns where
  bmpPeerIp := bmpPeerIp
  bgpPeerIp := header.peerAddress
  family := family
  prefixCidr := extractPrefixString entry
  policyStage := policyStageOf header.peerFlags
  evpnRd := match entry with
    | .evpn route => route.getRd none
    | .cidr _ => none
  evpnEsi := match entry with
    | .evpn route => route.getEsi none
    | .cidr _ => none
  macAddress := match entry with
    | .evpn route => route.getMacAddress none
    | .cidr _ => none

theorem withdrawnRoute_columns (bmpPeerIp : IpAddress) (header : BMPPerPeerHeader)
    (family : Family) (entry : PrefixEntry) (time : Timestamp) :
    rowColumns (withdrawnRoute bmpPeerIp header family entry time) =
      columnsOf bmpPeerIp header family entry := by
  cases entry <;> rfl

/-- The UPDATE's own EVPN variables are those of its only entry. -/
def OwnVariables (entry : PrefixEntry) (v : UpdateVars) : Prop :=
  match entry with
  | .cidr _ => v.evpnRd = none ∧ v.evpnEsi = none ∧ v.macAddress = none
  | .evpn route => v.evpnRd = route.getRd none ∧ v.evpnEsi = route.getEsi none ∧
      v.macAddress = route.getMacAddress none

theorem announcedRoute_columns {v : UpdateVars} {entry : PrefixEntry} (hv : OwnVariables entry v)
    (bmpPeerIp : IpAddress) (header : BMPPerPeerHeader) (family : Family) (time : Timestamp) :
    rowColumns (announcedRoute bmpPeerIp header v.parsed family entry time) =
      columnsOf bmpPeerIp header family entry := by
  cases entry with
  | cidr c =>
    obtain ⟨hrd, hesi, hmac⟩ := hv
    simp only [rowColumns, announcedRoute, columnsOf, UpdateVars.parsed, hrd, hesi, hmac]
  | evpn route =>
    obtain ⟨hrd, hesi, hmac⟩ := hv
    cases route with
    | macIp rd esi mac ip => rfl
    | other t =>
      simp only [rowColumns, announcedRoute, columnsOf, UpdateVars.parsed, EvpnRouteInfo.getRd,
        EvpnRouteInfo.getEsi, EvpnRouteInfo.getMacAddress, hrd, hesi, hmac]

/-! ## The variables the two UPDATEs leave -/

theorem notMultiprotocol_parsed {a : WireAttribute} (h : a.typeByte ≠ 14 ∧ a.typeByte ≠ 15) :
    NotMultiprotocol a.parsed := by
  have hcode : ∀ t : BGPPathAttributeType, a.parsed.typeCode = .known t →
      a.typeByte.toNat = t.value := by
    intro t ht
    have hraw : TypeCode.ofRaw a.typeByte.toNat = .known t := ht
    rw [TypeCode.ofRaw] at hraw
    split at hraw
    · rename_i t' ht'
      cases hraw
      exact BGPPathAttributeType.eq_value ht'
    · cases hraw
  refine ⟨fun ht => h.1 ?_, fun ht => h.2 ?_⟩
  · exact UInt8.toNat_inj.mp (hcode _ ht)
  · exact UInt8.toNat_inj.mp (hcode _ ht)

theorem walked_others {attrs : List WireAttribute}
    (h : ∀ a ∈ attrs, a.typeByte ≠ 14 ∧ a.typeByte ≠ 15) (v : UpdateVars) :
    SameRoutes (walked (attrs.map WireAttribute.parsed) v) v := by
  apply walked_keeps_routes
  intro attr hattr
  obtain ⟨a, ha, rfl⟩ := List.mem_map.mp hattr
  exact notMultiprotocol_parsed (h a ha)

/-- Around an attribute, the others keep what it writes about routes. -/
theorem walked_around {s : Sending} (hs : s.Fits) (a : WireAttribute)
    {write : UpdateVars → UpdateVars} (ha : assigns a.parsed = .ok write) (v : UpdateVars) :
    ∃ v', SameRoutes v' v ∧
      SameRoutes (walked ((s.before ++ a :: s.after).map WireAttribute.parsed) v) (write v') := by
  refine ⟨walked (s.before.map WireAttribute.parsed) v, walked_others hs.before v, ?_⟩
  rw [List.map_append, List.map_cons, walked_append]
  have hafter := walked_others hs.after (write (walked (s.before.map WireAttribute.parsed) v))
  rwa [← written_ok ha] at hafter ⊢

theorem n_afi_lt (n : Nlri) : n.afi < 2 ^ 16 ∧ n.safi < 256 := by
  cases n <;> exact ⟨by simp [Nlri.afi], by simp [Nlri.safi]⟩

/-- What the two multiprotocol attributes write for one NLRI: the family and the same entry. -/
theorem assigns_reach {n : Nlri} {s : Sending} (hs : s.Fits) {entry : PrefixEntry}
    (hentry : parseNlri n.afi n.safi n.bytes 0 = .ok [entry]) :
    ∃ hop, assigns (reachAttribute n s).parsed =
      .ok (MpReach.writes ⟨n.afi, n.safi, hop, [entry]⟩) := by
  obtain ⟨hop, hhop⟩ := mpNextHop_returns n.afi s.nextHop
  have hat := mpReachValue_at n.afi n.safi s.nextHop s.reserved n.bytes
  have hshift := parseNlri_shift hat n.afi n.safi
  rw [hentry, same_ok_iff] at hshift
  have hparse := parseMpReachNlri_value s.reserved n.bytes (n_afi_lt n).1 (n_afi_lt n).2 hs.nextHop
  rw [hhop, ok_bind, hshift, ok_bind] at hparse
  refine ⟨hop, ?_⟩
  show MpReach.writes <$> parseMpReachNlri _ = _
  rw [reachAttribute, WireAttribute.parsed, hparse]
  rfl

theorem assigns_unreach {n : Nlri} (s : Sending) {entry : PrefixEntry}
    (hentry : parseNlri n.afi n.safi n.bytes 0 = .ok [entry]) :
    assigns (unreachAttribute n s).parsed =
      .ok (MpUnreach.writes ⟨n.afi, n.safi, [entry]⟩) := by
  have hat := mpUnreachValue_at n.afi n.safi n.bytes
  have hshift := parseNlri_shift hat n.afi n.safi
  rw [hentry, same_ok_iff] at hshift
  have hparse := parseMpUnreachNlri_value n.bytes (n_afi_lt n).1 (n_afi_lt n).2
  rw [hshift, ok_bind] at hparse
  show MpUnreach.writes <$> parseMpUnreachNlri _ = _
  rw [unreachAttribute, WireAttribute.parsed, hparse]
  rfl

/-! ## The records -/

theorem handle_parts {header : BMPPerPeerHeader} (hheader : PerPeerHeaderFits header)
    {parts : List (WirePrefix 32) × List WireAttribute × List (WirePrefix 32)}
    (hparts : PartsFit parts) (clock : Nat → Timestamp) (bmpPeerIp : IpAddress) :
    handleRouteMonitoring recorder clock (encodeRouteMonitoring header (updateOf parts))
        bmpPeerIp [] =
      (.ok (), routeUpdates clock bmpPeerIp
        ⟨⟨3, 48 + (updateOf parts).length, .routeMonitoring⟩, header, updateOf parts⟩
        (nlriWrites parts.2.2 (walked (parts.2.1.map WireAttribute.parsed)
          { withdrawnPrefixes := parts.1.map fun p => .cidr p.ipv4 })).parsed) := by
  have hlength := encodeUpdate_length (encodePrefixes parts.1) parts.2.1 (encodePrefixes parts.2.2)
  have hsize := hparts.size
  have hparsed := parseRouteMonitoringMessage_encode (updateOf parts) hheader
    (by rw [updateOf]; omega)
  exact handleRouteMonitoring_recorder hparsed (parseBgpUpdate_encode parts.1 parts.2.2 hparts)
    clock bmpPeerIp

/-- The record of an UPDATE that announces one entry. -/
theorem announced_single {header : BMPPerPeerHeader} {parsed : BMPRouteMonitoringMessage}
    (hheader : parsed.perPeerHeader = header) {v : UpdateVars} {entry : PrefixEntry}
    (hprefixes : v.prefixes = [entry]) (hwithdrawn : v.withdrawnPrefixes = [])
    (hown : OwnVariables entry v) (clock : Nat → Timestamp) (bmpPeerIp : IpAddress) :
    ∃ route, routeUpdates clock bmpPeerIp parsed v.parsed = [route] ∧
      rowColumns route = columnsOf bmpPeerIp header (determineFamily v.afi v.safi) entry := by
  subst hheader
  refine ⟨announcedRoute bmpPeerIp parsed.perPeerHeader v.parsed
    (determineFamily v.afi v.safi) entry (clock 0), ?_, announcedRoute_columns hown _ _ _ _⟩
  show built clock (v.prefixes.map _ ++ v.withdrawnPrefixes.map _) = _
  rw [hprefixes, hwithdrawn]
  rfl

/-- The record of an UPDATE that withdraws one entry. -/
theorem withdrawn_single {header : BMPPerPeerHeader} {parsed : BMPRouteMonitoringMessage}
    (hheader : parsed.perPeerHeader = header) {v : UpdateVars} {entry : PrefixEntry}
    (hprefixes : v.prefixes = []) (hwithdrawn : v.withdrawnPrefixes = [entry])
    (clock : Nat → Timestamp) (bmpPeerIp : IpAddress) :
    ∃ route, routeUpdates clock bmpPeerIp parsed v.parsed = [route] ∧
      rowColumns route = columnsOf bmpPeerIp header (determineFamily v.afi v.safi) entry := by
  subst hheader
  refine ⟨withdrawnRoute bmpPeerIp parsed.perPeerHeader
    (determineFamily v.afi v.safi) entry (clock 0), ?_, withdrawnRoute_columns _ _ _ _ _⟩
  show built clock (v.prefixes.map _ ++ v.withdrawnPrefixes.map _) = _
  rw [hprefixes, hwithdrawn]
  rfl

section Rows

variable {n : Nlri} {entry : PrefixEntry}

/-- After MP_REACH_NLRI the variables are those of its only entry. -/
theorem reach_single (hfirst : ∀ v, firstRouteWrites n.afi n.safi [entry] v = ownWrites entry v)
    (hop : Option IpAddress) {v v' : UpdateVars} (hinit : SameRoutes v {})
    (hv : SameRoutes v' (MpReach.writes ⟨n.afi, n.safi, hop, [entry]⟩ v)) :
    v'.afi = some n.afi ∧ v'.prefixes = [entry] ∧ v'.withdrawnPrefixes = [] ∧
      OwnVariables entry v' := by
  obtain ⟨hafi, _, hprefixes, hwithdrawn, _, hrd, hesi, hmac⟩ := hv
  obtain ⟨_, _, iprefixes, iwithdrawn, _, ird, iesi, imac⟩ := hinit
  simp only [MpReach.writes, hfirst] at hafi hprefixes hwithdrawn hrd hesi hmac
  cases entry with
  | cidr c =>
    cases hop <;>
      simp_all [ownWrites, OwnVariables]
  | evpn route =>
    cases hop <;>
      simp_all [ownWrites, OwnVariables]

/-- After MP_UNREACH_NLRI the entry is withdrawn under the family. -/
theorem unreach_single (hfirst : ∀ v, firstRouteWrites n.afi n.safi [entry] v = ownWrites entry v)
    {v v' : UpdateVars} (hinit : SameRoutes v {})
    (hv : SameRoutes v' (MpUnreach.writes ⟨n.afi, n.safi, [entry]⟩ v)) :
    v'.afi = some n.afi ∧ v'.prefixes = [] ∧ v'.withdrawnPrefixes = [entry] := by
  obtain ⟨hafi, _, hprefixes, hwithdrawn, _, _, _, _⟩ := hv
  obtain ⟨_, _, iprefixes, iwithdrawn, _, _, _, _⟩ := hinit
  simp only [MpUnreach.writes, hfirst] at hafi hprefixes hwithdrawn
  cases entry with
  | cidr c => simp_all [ownWrites]
  | evpn route => simp_all [ownWrites]

variable {header : BMPPerPeerHeader} (hheader : PerPeerHeaderFits header) {s : Sending}
variable (hs : s.Fits) (clock : Nat → Timestamp) (bmpPeerIp : IpAddress)

/-- What the handler queues for an UPDATE: one record, with the columns given. -/
def QueuesOne (header : BMPPerPeerHeader) (update : Bytes) (clock : Nat → Timestamp)
    (bmpPeerIp : IpAddress) (columns : RowColumns) : Prop :=
  ∃ route, handleRouteMonitoring recorder clock (encodeRouteMonitoring header update)
      bmpPeerIp [] = (.ok (), [route]) ∧ rowColumns route = columns

include hheader hs

theorem announce_mp (hmp : n.isClassic = false)
    (hentry : parseNlri n.afi n.safi n.bytes 0 = .ok [entry])
    (hfirst : ∀ v, firstRouteWrites n.afi n.safi [entry] v = ownWrites entry v)
    (hparts : PartsFit (announceParts n s)) :
    QueuesOne header (updateOf (announceParts n s)) clock bmpPeerIp
      (columnsOf bmpPeerIp header (determineFamily (some n.afi) none) entry) := by
  have hform : announceParts n s = ([], s.before ++ reachAttribute n s :: s.after, []) := by
    cases n with
    | classic p => cases hmp
    | _ => rfl
  obtain ⟨hop, hassigns⟩ := assigns_reach hs hentry
  obtain ⟨v, hinit, hwalk⟩ := walked_around hs (reachAttribute n s) hassigns {}
  obtain ⟨hafi, hprefixes, hwithdrawn, hown⟩ := reach_single hfirst hop hinit hwalk
  rw [hform] at hparts ⊢
  rw [QueuesOne, handle_parts hheader hparts]
  obtain ⟨route, hroute, hcolumns⟩ := announced_single rfl hprefixes hwithdrawn hown clock bmpPeerIp
  rw [hafi] at hcolumns
  exact ⟨route, congrArg (Prod.mk _) hroute, hcolumns⟩

theorem withdraw_mp (hmp : n.isClassic = false)
    (hentry : parseNlri n.afi n.safi n.bytes 0 = .ok [entry])
    (hfirst : ∀ v, firstRouteWrites n.afi n.safi [entry] v = ownWrites entry v)
    (hparts : PartsFit (withdrawParts n s)) :
    QueuesOne header (updateOf (withdrawParts n s)) clock bmpPeerIp
      (columnsOf bmpPeerIp header (determineFamily (some n.afi) none) entry) := by
  have hform : withdrawParts n s = ([], s.before ++ unreachAttribute n s :: s.after, []) := by
    cases n with
    | classic p => cases hmp
    | _ => rfl
  obtain ⟨v, hinit, hwalk⟩ :=
    walked_around hs (unreachAttribute n s) (assigns_unreach s hentry) {}
  obtain ⟨hafi, hprefixes, hwithdrawn⟩ := unreach_single hfirst hinit hwalk
  rw [hform] at hparts ⊢
  rw [QueuesOne, handle_parts hheader hparts]
  obtain ⟨route, hroute, hcolumns⟩ := withdrawn_single rfl hprefixes hwithdrawn clock bmpPeerIp
  rw [hafi] at hcolumns
  exact ⟨route, congrArg (Prod.mk _) hroute, hcolumns⟩

theorem announce_classic {p : WirePrefix 32} (hparts : PartsFit (announceParts (.classic p) s)) :
    QueuesOne header (updateOf (announceParts (.classic p) s)) clock bmpPeerIp
      (columnsOf bmpPeerIp header .ipv4Unicast (.cidr p.ipv4)) := by
  have hothers := hs.others
  obtain ⟨_, _, hprefixes, hwithdrawn, _, hrd, hesi, hmac⟩ := walked_others hothers {}
  rw [QueuesOne, handle_parts hheader hparts]
  have hown : OwnVariables (.cidr p.ipv4)
      (nlriWrites [p] (walked ((s.before ++ s.after).map WireAttribute.parsed) {})) :=
    ⟨hrd, hesi, hmac⟩
  have hnlri : (nlriWrites [p] (walked ((s.before ++ s.after).map WireAttribute.parsed)
      {})).prefixes = [.cidr p.ipv4] := by
    rw [nlriWrites, if_neg (List.cons_ne_nil p []), hprefixes]
    rfl
  obtain ⟨route, hroute, hcolumns⟩ := announced_single rfl hnlri hwithdrawn hown clock bmpPeerIp
  exact ⟨route, congrArg (Prod.mk _) hroute, hcolumns⟩

/-- The Withdrawn Routes field sets no address family. -/
theorem withdraw_classic {p : WirePrefix 32} (hparts : PartsFit (withdrawParts (.classic p) s)) :
    QueuesOne header (updateOf (withdrawParts (.classic p) s)) clock bmpPeerIp
      (columnsOf bmpPeerIp header .unknown (.cidr p.ipv4)) := by
  have hothers := hs.others
  obtain ⟨hafi, _, hprefixes, hwithdrawn, _, _, _, _⟩ :=
    walked_others hothers { withdrawnPrefixes := [.cidr p.ipv4] }
  rw [QueuesOne, handle_parts hheader hparts]
  obtain ⟨route, hroute, hcolumns⟩ := withdrawn_single rfl hprefixes hwithdrawn clock bmpPeerIp
  rw [hafi] at hcolumns
  exact ⟨route, congrArg (Prod.mk _) hroute, hcolumns⟩

end Rows

/-- The announcement and the withdrawal of one NLRI each queue one record, and the two records
are for the same row exactly when the NLRI travels in the multiprotocol attributes. -/
theorem same_row_iff_multiprotocol (n : Nlri) (hn : n.Fits) (header : BMPPerPeerHeader)
    (hheader : PerPeerHeaderFits header) (bmpPeerIp : IpAddress) (a w : Sending) (ha : a.Fits)
    (hw : w.Fits) (haparts : PartsFit (announceParts n a)) (hwparts : PartsFit (withdrawParts n w))
    (clockA clockW : Nat → Timestamp) :
    ∃ A W,
      handleRouteMonitoring recorder clockA
        (encodeRouteMonitoring header (updateOf (announceParts n a))) bmpPeerIp [] = (.ok (), [A]) ∧
      handleRouteMonitoring recorder clockW
        (encodeRouteMonitoring header (updateOf (withdrawParts n w))) bmpPeerIp [] = (.ok (), [W]) ∧
      (rowColumns A = rowColumns W ↔ n.isClassic = false) := by
  cases hmp : n.isClassic with
  | false =>
    obtain ⟨entry, hentry, hfirst⟩ := parseNlri_single n hn hmp
    obtain ⟨A, hA, hcA⟩ := announce_mp hheader ha clockA bmpPeerIp hmp hentry hfirst haparts
    obtain ⟨W, hW, hcW⟩ := withdraw_mp hheader hw clockW bmpPeerIp hmp hentry hfirst hwparts
    exact ⟨A, W, hA, hW, by simp [hcA, hcW]⟩
  | true =>
    cases n with
    | classic p =>
      obtain ⟨A, hA, hcA⟩ := announce_classic hheader ha clockA bmpPeerIp haparts
      obtain ⟨W, hW, hcW⟩ := withdraw_classic hheader hw clockW bmpPeerIp hwparts
      refine ⟨A, W, hA, hW, ?_⟩
      rw [hcA, hcW]
      simp [columnsOf]
    | _ => cases hmp

/-- ORIGIN, an empty AS_PATH and NEXT_HOP, which go with an announcement in the NLRI field. -/
def sampleSending : Sending where
  before := [⟨0x40, 1, [0]⟩, ⟨0x40, 2, []⟩, ⟨0x40, 3, [10, 0, 0, 1]⟩]
  after := []
  flags := 0x80
  nextHop := [10, 0, 0, 1]
  reserved := 0

theorem sampleSending_fits : sampleSending.Fits :=
  ⟨by decide, by decide, by decide⟩

def sampleWire : WirePrefix 32 := samplePrefix.wire

theorem same_row_iff_multiprotocol_ipv4 :
    ∃ A W,
      handleRouteMonitoring recorder (fun k => k)
        (encodeRouteMonitoring samplePeer (updateOf (announceParts (.mpIpv4 sampleWire)
          sampleSending))) samplePeer.peerAddress [] = (.ok (), [A]) ∧
      handleRouteMonitoring recorder (fun k => k)
        (encodeRouteMonitoring samplePeer (updateOf (withdrawParts (.mpIpv4 sampleWire)
          sampleSending))) samplePeer.peerAddress [] = (.ok (), [W]) ∧
      (rowColumns A = rowColumns W ↔ (Nlri.mpIpv4 sampleWire).isClassic = false) :=
  same_row_iff_multiprotocol (.mpIpv4 sampleWire) trivial samplePeer samplePeer_fits _
    sampleSending sampleSending sampleSending_fits sampleSending_fits ⟨by decide, by decide⟩
    ⟨by decide, by decide⟩ _ _

/-- 10.0.0.0/8 announced in the NLRI field and withdrawn in the Withdrawn Routes field: two
records that agree on everything but the family. -/
theorem classic_withdrawal_other_row :
    (handleRouteMonitoring recorder (fun k => k)
      (encodeRouteMonitoring samplePeer (updateOf (announceParts (.classic sampleWire)
        sampleSending))) samplePeer.peerAddress []).2.map rowColumns =
      [columnsOf samplePeer.peerAddress samplePeer .ipv4Unicast (.cidr sampleWire.ipv4)] ∧
    (handleRouteMonitoring recorder (fun k => k)
      (encodeRouteMonitoring samplePeer (updateOf (withdrawParts (.classic sampleWire)
        sampleSending))) samplePeer.peerAddress []).2.map rowColumns =
      [columnsOf samplePeer.peerAddress samplePeer .unknown (.cidr sampleWire.ipv4)] ∧
    columnsOf samplePeer.peerAddress samplePeer .ipv4Unicast (.cidr sampleWire.ipv4) ≠
      columnsOf samplePeer.peerAddress samplePeer .unknown (.cidr sampleWire.ipv4) := by
  decide

end Pybmpmon.Listener.KeyAgreement
