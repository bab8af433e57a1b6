import Pybmpmon.Lib.Fold
import Pybmpmon.Protocol.UpdateWalk

/-!
# What one attribute writes, as a record

Each attribute overwrites some of the variables of the attribute loop and appends
to two of them. The record of these writes is a function of the attribute alone;
the loop applies the records one after the other.
-/
namespace Pybmpmon.Protocol.AttributePatches

open Pybmpmon.Lib.ByteString Pybmpmon.Lib.Outcome Pybmpmon.Lib.Fold Pybmpmon.Python
open Pybmpmon.Utils.Binary Pybmpmon.Protocol.Bgp Pybmpmon.Protocol.BgpParser
open Pybmpmon.Protocol.UpdateWalk

/-- The four EVPN columns of a route, as its own bytes give them. -/
structure RouteFields where
  routeType : Nat
  rd : Option String
  esi : Option String
  macAddress : Option String
  deriving DecidableEq, Repr

def ownFields (route : EvpnRouteInfo) : RouteFields :=
  ⟨route.routeType, route.getRd none, route.getEsi none, route.getMacAddress none⟩

/-- The columns of the first route, when the attribute is an EVPN one and has a route. -/
def firstRoute (afi safi : Nat) (routes : List PrefixEntry) : Option RouteFields :=
  if afi = AddressFamilyIdentifier.l2vpn ∧ safi = SubsequentAddressFamilyIdentifier.evpn then
    match routes with
    | .evpn route :: _ => some (ownFields route)
    | _ => none
  else none

/-- The writes of one attribute: a value for every variable that is overwritten, and the
prefixes that are appended. -/
structure Patch where
  family : Option (Nat × Nat) := none
  origin : Option Nat := none
  asPath : Option (List Nat) := none
  nextHop : Option IpAddress := none
  med : Option Nat := none
  localPref : Option Nat := none
  communities : Option (List String) := none
  extendedCommunities : Option (List String) := none
  fields : Option RouteFields := none
  announced : Option (List PrefixEntry) := none
  withdrawn : Option (List PrefixEntry) := none

def Patch.apply (p : Patch) (v : UpdateVars) : UpdateVars where
  afi := (p.family.map Prod.fst).or v.afi
  safi := (p.family.map Prod.snd).or v.safi
  prefixes := v.prefixes ++ p.announced.getD []
  withdrawnPrefixes := v.withdrawnPrefixes ++ p.withdrawn.getD []
  origin := p.origin.or v.origin
  asPath := p.asPath.or v.asPath
  nextHop := p.nextHop.or v.nextHop
  med := p.med.or v.med
  localPref := p.localPref.or v.localPref
  communities := p.communities.or v.communities
  extendedCommunities := p.extendedCommunities.or v.extendedCommunities
  evpnRouteType := (p.fields.map RouteFields.routeType).or v.evpnRouteType
  evpnRd := (p.fields.map RouteFields.rd).getD v.evpnRd
  evpnEsi := (p.fields.map RouteFields.esi).getD v.evpnEsi
  macAddress := (p.fields.map RouteFields.macAddress).getD v.macAddress
  hasMpUnreach := p.withdrawn.isSome || v.hasMpUnreach

/-- What the attributes of one type supply: the decoded value, where it decodes. -/
def valueOf {α : Type} (t : BGPPathAttributeType) (decoder : Bytes → Except PyErr α)
    (attr : BGPPathAttribute) : Option α :=
  if attr.typeCode = .known t then (decoder attr.value).toOption else none

/-- The address of a NEXT_HOP attribute that has one. -/
def nextHopValue (attr : BGPPathAttribute) : Option IpAddress :=
  if attr.typeCode = .known .nextHop ∧ attr.value.length ≥ 4 then
    (ipv4Address (attr.value.take 4)).toOption.map .v4
  else none

/-- The next hop, from NEXT_HOP or from MP_REACH_NLRI. -/
def nextHopOf (attr : BGPPathAttribute) : Option IpAddress :=
  (nextHopValue attr).or ((reachOf attr).bind MpReach.nextHop)

/-- AFI and SAFI, from either multiprotocol attribute. -/
def familyOf (attr : BGPPathAttribute) : Option (Nat × Nat) :=
  ((reachOf attr).map fun mp => (mp.afi, mp.safi)).or
    ((unreachOf attr).map fun mp => (mp.afi, mp.safi))

/-- The first EVPN route of either multiprotocol attribute. -/
def fieldsOf (attr : BGPPathAttribute) : Option RouteFields :=
  ((reachOf attr).bind fun mp => firstRoute mp.afi mp.safi mp.prefixes).or
    ((unreachOf attr).bind fun mp => firstRoute mp.afi mp.safi mp.prefixes)

def patchOf (attr : BGPPathAttribute) : Patch where
  family := familyOf attr
  origin := valueOf .origin (readUint8 · 0) attr
  asPath := valueOf .asPath parseAsPath attr
  nextHop := nextHopOf attr
  med := valueOf .multiExitDisc (readUint32 · 0) attr
  localPref := valueOf .localPref (readUint32 · 0) attr
  communities := valueOf .communities parseCommunities attr
  extendedCommunities := valueOf .extendedCommunities parseExtendedCommunities attr
  fields := fieldsOf attr
  announced := (reachOf attr).map MpReach.prefixes
  withdrawn := (unreachOf attr).map MpUnreach.prefixes

theorem firstRouteWrites_fields (afi safi : Nat) (routes : List PrefixEntry) (v : UpdateVars) :
    firstRouteWrites afi safi routes v =
      ({ fields := firstRoute afi safi routes } : Patch).apply v := by
  unfold firstRouteWrites firstRoute
  split
  · match routes with
    | [] => simp [Patch.apply]
    | .cidr _ :: _ => simp [Patch.apply]
    | .evpn _ :: _ => simp [Patch.apply, ownFields]
  · simp [Patch.apply]

def reachPatch (mp : MpReach) : Patch where
  family := some (mp.afi, mp.safi)
  nextHop := mp.nextHop
  fields := firstRoute mp.afi mp.safi mp.prefixes
  announced := some mp.prefixes

def unreachPatch (mp : MpUnreach) : Patch where
  family := some (mp.afi, mp.safi)
  fields := firstRoute mp.afi mp.safi mp.prefixes
  withdrawn := some mp.prefixes

theorem reach_writes (mp : MpReach) (v : UpdateVars) :
    MpReach.writes mp v = (reachPatch mp).apply v := by
  unfold MpReach.writes
  cases hn : mp.nextHop with
  | none => simp [reachPatch, firstRouteWrites_fields, Patch.apply, hn]
  | some a => simp [reachPatch, firstRouteWrites_fields, Patch.apply, hn]

theorem unreach_writes (mp : MpUnreach) (v : UpdateVars) :
    MpUnreach.writes mp v = (unreachPatch mp).apply v := by
  simp [MpUnreach.writes, unreachPatch, firstRouteWrites_fields, Patch.apply]

section Written

attribute [local simp] patchOf valueOf nextHopOf nextHopValue familyOf fieldsOf reachOf unreachOf
attribute [local simp] Patch.apply Except.toOption

/-- An attribute writes its record, which is empty when its decoder raises. -/
theorem written_patch (attr : BGPPathAttribute) (v : UpdateVars) :
    written attr v = (patchOf attr).apply v := by
  cases hcode : attr.typeCode with
  | placeholder raw =>
    have hw : written attr v = v := by rw [written, assigns, hcode]; rfl
    simp [hw, hcode]
  | known t =>
    cases t with
    | origin =>
      rw [written_map (by rw [assigns, hcode]) v]
      cases hx : readUint8 attr.value 0 <;> simp [hcode, hx]
    | asPath =>
      rw [written_map (by rw [assigns, hcode]) v]
      cases hx : parseAsPath attr.value <;> simp [hcode, hx]
    | nextHop =>
      by_cases h4 : attr.value.length ≥ 4
      · rw [written_map (by simp only [assigns, hcode, h4, ↓reduceIte]; rfl) v]
        cases hx : ipv4Address (attr.value.take 4) <;> simp [hcode, h4, hx]
      · have hw : written attr v = v := by simp only [written, assigns, hcode, h4, ↓reduceIte]; rfl
        simp [hw, hcode, h4]
    | multiExitDisc =>
      rw [written_map (by rw [assigns, hcode]) v]
      cases hx : readUint32 attr.value 0 <;> simp [hcode, hx]
    | localPref =>
      rw [written_map (by rw [assigns, hcode]) v]
      cases hx : readUint32 attr.value 0 <;> simp [hcode, hx]
    | communities =>
      rw [written_map (by rw [assigns, hcode]) v]
      cases hx : parseCommunities attr.value <;> simp [hcode, hx]
    | extendedCommunities =>
      rw [written_map (by rw [assigns, hcode]) v]
      cases hx : parseExtendedCommunities attr.value <;> simp [hcode, hx]
    | mpReachNlri =>
      rw [written_map (by rw [assigns, hcode]) v]
      cases hx : parseMpReachNlri attr.value <;> simp [hcode, hx, reach_writes, reachPatch]
    | mpUnreachNlri =>
      rw [written_map (by rw [assigns, hcode]) v]
      cases hx : parseMpUnreachNlri attr.value <;> simp [hcode, hx, unreach_writes, unreachPatch]
    | atomicAggregate | aggregator | as4Path | as4Aggregator =>
      have hw : written attr v = v := by rw [written, assigns, hcode]; rfl
      simp [hw, hcode]

end Written

/-- The loop keeps what an attribute supplies, and nothing of one whose decoder raises. -/
theorem written_supplies (attr : BGPPathAttribute) (v : UpdateVars) :
    Supplies attr v (written attr v) := by
  rw [written_patch]
  exact ⟨rfl, rfl, rfl, rfl, rfl⟩

/-! ## What the whole loop leaves -/

theorem walked_patches (attrs : List BGPPathAttribute) (v : UpdateVars) :
    walked attrs v = attrs.foldl (fun v attr => (patchOf attr).apply v) v := by
  rw [walked]
  congr 1
  funext v attr
  exact written_patch attr v

theorem walked_med (attrs : List BGPPathAttribute) (v : UpdateVars) :
    (walked attrs v).med = (attrs.filterMap medOf).getLast?.or v.med :=
  foldl_last (fun v => v.med) medOf (fun v a => (written_supplies a v).med) attrs v

theorem walked_localPref (attrs : List BGPPathAttribute) (v : UpdateVars) :
    (walked attrs v).localPref = (attrs.filterMap localPrefOf).getLast?.or v.localPref :=
  foldl_last (fun v => v.localPref) localPrefOf (fun v a => (written_supplies a v).localPref)
    attrs v

theorem walked_asPath (attrs : List BGPPathAttribute) (v : UpdateVars) :
    (walked attrs v).asPath = (attrs.filterMap asPathOf).getLast?.or v.asPath :=
  foldl_last (fun v => v.asPath) asPathOf (fun v a => (written_supplies a v).asPath) attrs v

theorem walked_prefixes (attrs : List BGPPathAttribute) (v : UpdateVars) :
    (walked attrs v).prefixes =
      v.prefixes ++ (attrs.filterMap reachOf).flatMap MpReach.prefixes :=
  foldl_appended (fun v => v.prefixes) reachOf MpReach.prefixes
    (fun v a => (written_supplies a v).prefixes) attrs v

theorem walked_withdrawnPrefixes (attrs : List BGPPathAttribute) (v : UpdateVars) :
    (walked attrs v).withdrawnPrefixes =
      v.withdrawnPrefixes ++ (attrs.filterMap unreachOf).flatMap MpUnreach.prefixes :=
  foldl_appended (fun v => v.withdrawnPrefixes) unreachOf MpUnreach.prefixes
    (fun v a => (written_supplies a v).withdrawnPrefixes) attrs v

theorem walked_afi (attrs : List BGPPathAttribute) (v : UpdateVars) :
    (walked attrs v).afi =
      ((attrs.filterMap familyOf).getLast?.map fun f => some f.1).getD v.afi :=
  foldl_last_getD (fun v => v.afi) familyOf (fun f => some f.1) (fun v a => by
    rw [written_patch]
    cases h : familyOf a <;> simp [Patch.apply, patchOf, h]) attrs v

theorem walked_safi (attrs : List BGPPathAttribute) (v : UpdateVars) :
    (walked attrs v).safi =
      ((attrs.filterMap familyOf).getLast?.map fun f => some f.2).getD v.safi :=
  foldl_last_getD (fun v => v.safi) familyOf (fun f => some f.2) (fun v a => by
    rw [written_patch]
    cases h : familyOf a <;> simp [Patch.apply, patchOf, h]) attrs v

theorem walked_nextHop (attrs : List BGPPathAttribute) (v : UpdateVars) :
    (walked attrs v).nextHop = (attrs.filterMap nextHopOf).getLast?.or v.nextHop :=
  foldl_last (fun v => v.nextHop) nextHopOf (fun v a => by rw [written_patch]; rfl) attrs v

/-- The four EVPN variables, read together. -/
def evpnVars (v : UpdateVars) : Option Nat × Option String × Option String × Option String :=
  (v.evpnRouteType, v.evpnRd, v.evpnEsi, v.macAddress)

def RouteFields.vars (f : RouteFields) : Option Nat × Option String × Option String × Option String :=
  (some f.routeType, f.rd, f.esi, f.macAddress)

theorem walked_evpnVars (attrs : List BGPPathAttribute) (v : UpdateVars) :
    evpnVars (walked attrs v) =
      ((attrs.filterMap fieldsOf).getLast?.map RouteFields.vars).getD (evpnVars v) :=
  foldl_last_getD evpnVars fieldsOf RouteFields.vars (fun v a => by
    rw [written_patch]
    cases h : fieldsOf a <;> simp [Patch.apply, patchOf, evpnVars, RouteFields.vars, h]) attrs v

/-! ## The classic NLRI field -/

/-- What the classic NLRI field writes when its prefixes are decoded. -/
def withClassic (nlri : Bytes) (prefixes : List PrefixEntry) (v : UpdateVars) : UpdateVars :=
  if nlri = [] then v
  else { v with
    afi := some AddressFamilyIdentifier.ipv4
    safi := some SubsequentAddressFamilyIdentifier.unicast
    prefixes := v.prefixes ++ prefixes }

theorem withClassic_nextHop (nlri : Bytes) (prefixes : List PrefixEntry) (v : UpdateVars) :
    (withClassic nlri prefixes v).nextHop = v.nextHop := by
  rw [withClassic]
  split <;> rfl

theorem withClassic_evpnVars (nlri : Bytes) (prefixes : List PrefixEntry) (v : UpdateVars) :
    evpnVars (withClassic nlri prefixes v) = evpnVars v := by
  rw [withClassic]
  split <;> rfl

theorem parseClassicNlri_eq (nlri : Bytes) (v : UpdateVars) :
    parseClassicNlri nlri v =
      (fun prefixes => withClassic nlri prefixes v) <$> parsePrefixes parseIpv4Prefix nlri 0 := by
  rw [parseClassicNlri]
  cases nlri with
  | nil =>
    rw [if_neg (by simp), parsePrefixes, Lib.Scan.scan_done (by simp)]
    rfl
  | cons b nlri =>
    rw [if_pos (by simp)]
    cases parsePrefixes parseIpv4Prefix (b :: nlri) 0 with
    | error e => rfl
    | ok prefixes => rfl

/-- The prefixes of the Withdrawn Routes or the NLRI field. -/
def fieldPrefixes (field : Bytes) : List PrefixEntry :=
  (parsePrefixes parseIpv4Prefix field 0).toOption.getD []

theorem fieldPrefixes_nil : fieldPrefixes [] = [] := by
  rw [fieldPrefixes, parsePrefixes, Lib.Scan.scan_done (by simp)]
  rfl

theorem fieldPrefixes_ok {field : Bytes} {prefixes : List PrefixEntry}
    (h : parsePrefixes parseIpv4Prefix field 0 = .ok prefixes) : fieldPrefixes field = prefixes := by
  rw [fieldPrefixes, h]
  rfl

/-- The announced prefixes are those of the MP_REACH_NLRI attributes and then the classic ones. -/
theorem prefixes_withClassic (nlri : Bytes) (attrs : List BGPPathAttribute)
    (withdrawn : List PrefixEntry) :
    (withClassic nlri (fieldPrefixes nlri) (walked attrs { withdrawnPrefixes := withdrawn })).prefixes =
      (attrs.filterMap reachOf).flatMap MpReach.prefixes ++ fieldPrefixes nlri := by
  rw [withClassic]
  split
  · rename_i hnlri
    rw [walked_prefixes, hnlri, fieldPrefixes_nil, List.append_nil, List.nil_append]
  · show (walked attrs _).prefixes ++ _ = _
    rw [walked_prefixes, List.nil_append]

/-- The withdrawn ones are those of the Withdrawn Routes field and then of MP_UNREACH_NLRI. -/
theorem withdrawnPrefixes_withClassic (nlri : Bytes) (prefixes : List PrefixEntry)
    (attrs : List BGPPathAttribute) (withdrawn : List PrefixEntry) :
    (withClassic nlri prefixes (walked attrs { withdrawnPrefixes := withdrawn })).withdrawnPrefixes =
      withdrawn ++ (attrs.filterMap unreachOf).flatMap MpUnreach.prefixes := by
  rw [withClassic]
  split
  · exact walked_withdrawnPrefixes attrs _
  · exact walked_withdrawnPrefixes attrs _

/-- A field that is accepted and not empty has a prefix. -/
theorem fieldPrefixes_ne_nil {field : Bytes} {prefixes : List PrefixEntry}
    (h : parsePrefixes parseIpv4Prefix field 0 = .ok prefixes) :
    fieldPrefixes field ≠ [] ↔ field ≠ [] := by
  rw [fieldPrefixes_ok h]
  exact (DecoderErrors.parsePrefixes_ne_nil h).symm

/-- What an accepted UPDATE is parsed into: the withdrawn prefixes, then what the attributes
write, then the classic NLRI. -/
theorem parseBgpUpdate_accepted {d : Bytes} {update : BGPUpdateMessage} {parsed : ParsedBGPUpdate}
    (hupdate : parseBgpUpdateStructure d = .ok update) (h : parseBgpUpdate d = .ok parsed) :
    parsePrefixes parseIpv4Prefix update.withdrawnRoutes 0 =
        .ok (fieldPrefixes update.withdrawnRoutes) ∧
      parsePrefixes parseIpv4Prefix update.nlri 0 = .ok (fieldPrefixes update.nlri) ∧
      parsed = (withClassic update.nlri (fieldPrefixes update.nlri) (walked update.pathAttributes
        { withdrawnPrefixes := fieldPrefixes update.withdrawnRoutes })).parsed := by
  rw [parseBgpUpdate_eq, hupdate, ok_bind] at h
  obtain ⟨withdrawn, hwithdrawn, h⟩ := bind_ok_iff.mp h
  rw [parseClassicNlri_eq] at h
  obtain ⟨vars, hvars, h⟩ := bind_ok_iff.mp h
  obtain ⟨prefixes, hprefixes, rfl⟩ := map_ok_iff.mp hvars
  cases h
  rw [fieldPrefixes_ok hwithdrawn, fieldPrefixes_ok hprefixes]
  exact ⟨hwithdrawn, hprefixes, rfl⟩

end Pybmpmon.Protocol.AttributePatches
