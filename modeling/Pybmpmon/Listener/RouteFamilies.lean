import Pybmpmon.Protocol.AttributePatches
import Pybmpmon.Listener.KeyAgreement

/-!
# The family of a queued route

The routes of one UPDATE come from up to four fields, and each field says of which
family its routes are. The handler has one family for all of them: that of the
field that wrote `afi` last.
-/
namespace Pybmpmon.Listener.RouteFamilies

open Pybmpmon.Lib.ByteString Pybmpmon.Lib.Outcome Pybmpmon.Lib.Fold Pybmpmon.Python
open Pybmpmon.Protocol.Bmp Pybmpmon.Protocol.Bgp Pybmpmon.Protocol.BmpParser
open Pybmpmon.Protocol.BgpParser Pybmpmon.Protocol.BmpEncoding Pybmpmon.Protocol.UpdateEncoding
open Pybmpmon.Protocol.AttributeEncoding Pybmpmon.Protocol.UpdateWalk
open Pybmpmon.Protocol.AttributePatches Pybmpmon.Models.Route Pybmpmon.Listener.RouteMonitoring
open Pybmpmon.Listener.KeyAgreement

/-- A route of an UPDATE, with the family of the field it is read from. -/
structure Source where
  entry : PrefixEntry
  family : Family
  withdrawn : Bool

/-- The family of the routes of a multiprotocol attribute. -/
def familyOfAfi : Nat → Family
  | 1 => .ipv4Unicast
  | 2 => .ipv6Unicast
  | 25 => .evpn
  | _ => .unknown

theorem determineFamily_some (afi : Nat) (safi : Option Nat) :
    determineFamily (some afi) safi = familyOfAfi afi := by
  have h4 : some afi = some AddressFamilyIdentifier.ipv4 ↔ afi = 1 := by simp [AddressFamilyIdentifier.ipv4]
  have h6 : some afi = some AddressFamilyIdentifier.ipv6 ↔ afi = 2 := by simp [AddressFamilyIdentifier.ipv6]
  have h25 : some afi = some AddressFamilyIdentifier.l2vpn ↔ afi = 25 := by
    simp [AddressFamilyIdentifier.l2vpn]
  simp only [determineFamily, h4, h6, h25, familyOfAfi]
  split
  · subst afi
    rfl
  · split
    · subst afi
      rfl
    · split
      · subst afi
        rfl
      · split <;> first | rfl | contradiction

def reachSources (mp : MpReach) : List Source :=
  mp.prefixes.map fun entry => ⟨entry, familyOfAfi mp.afi, false⟩

def unreachSources (mp : MpUnreach) : List Source :=
  mp.prefixes.map fun entry => ⟨entry, familyOfAfi mp.afi, true⟩

/-- The routes of the four fields, announced ones first. -/
def sources (update : BGPUpdateMessage) : List Source :=
  ((update.pathAttributes.filterMap reachOf).flatMap reachSources ++
      (fieldPrefixes update.nlri).map fun entry => ⟨entry, .ipv4Unicast, false⟩) ++
    ((fieldPrefixes update.withdrawnRoutes).map (fun entry => ⟨entry, .ipv4Unicast, true⟩) ++
      (update.pathAttributes.filterMap unreachOf).flatMap unreachSources)

/-- The family every record of the UPDATE gets: IPv4 where the NLRI field is not empty, else
that of the last multiprotocol attribute that decodes. -/
def settledFamily (update : BGPUpdateMessage) : Family :=
  if update.nlri ≠ [] then .ipv4Unicast
  else match (update.pathAttributes.filterMap familyOf).getLast? with
    | some (afi, _) => familyOfAfi afi
    | none => .unknown

/-- What a record says of its route. -/
def described (route : RouteUpdate) : Option Cidr × Bool × Family :=
  (route.prefixCidr, route.isWithdrawn, route.family)

/-- What it should say. -/
def Source.described (s : Source) : Option Cidr × Bool × Family :=
  (extractPrefixString s.entry, s.withdrawn, s.family)

/-- The family of an accepted UPDATE is the settled one. -/
theorem determineFamily_settled (update : BGPUpdateMessage) (prefixes withdrawn : List PrefixEntry) :
    let v := withClassic update.nlri prefixes
      (walked update.pathAttributes { withdrawnPrefixes := withdrawn })
    determineFamily v.afi v.safi = settledFamily update := by
  simp only [withClassic, settledFamily]
  by_cases hnlri : update.nlri = []
  · simp only [hnlri, ↓reduceIte, ne_eq, not_true_eq_false]
    rw [walked_afi]
    cases (update.pathAttributes.filterMap familyOf).getLast? with
    | none => rfl
    | some f =>
      obtain ⟨afi, safi⟩ := f
      exact determineFamily_some afi _
  · simp only [hnlri, ↓reduceIte, ne_eq, not_false_eq_true]
    rfl

/-- The queue holds the routes of the four fields in order, all under the settled family. -/
theorem described_queue {data : Bytes} {message : BMPRouteMonitoringMessage}
    {update : BGPUpdateMessage} {parsed : ParsedBGPUpdate}
    (hmessage : parseRouteMonitoringMessage data = .ok message)
    (hupdate : parseBgpUpdateStructure message.bgpUpdate = .ok update)
    (hparsed : parseBgpUpdate message.bgpUpdate = .ok parsed) (clock : Nat → Timestamp)
    (bmpPeerIp : IpAddress) :
    (handleRouteMonitoring recorder clock data bmpPeerIp []).2.map described =
      (sources update).map fun s => (extractPrefixString s.entry, s.withdrawn, settledFamily update) := by
  obtain ⟨-, -, hvalue⟩ := parseBgpUpdate_accepted hupdate hparsed
  have hfamily : determineFamily parsed.afi parsed.safi = settledFamily update := by
    rw [hvalue]
    exact determineFamily_settled update _ _
  have hview := routeUpdates_view described bmpPeerIp message parsed
    (fun entry => (extractPrefixString entry, false, settledFamily update))
    (fun entry => (extractPrefixString entry, true, settledFamily update))
    (fun entry t => congrArg (fun f => (extractPrefixString entry, false, f)) hfamily)
    (fun entry t => congrArg (fun f => (extractPrefixString entry, true, f)) hfamily) clock
  have hprefixes : parsed.prefixes = _ :=
    (congrArg ParsedBGPUpdate.prefixes hvalue).trans (prefixes_withClassic update.nlri _ _)
  have hwithdrawn : parsed.withdrawnPrefixes = _ :=
    (congrArg ParsedBGPUpdate.withdrawnPrefixes hvalue).trans
      (withdrawnPrefixes_withClassic update.nlri _ _ _)
  rw [handleRouteMonitoring_recorder hmessage hparsed, hview, hprefixes, hwithdrawn, sources]
  simp only [List.map_append, List.map_flatMap, List.map_map, Function.comp_def, reachSources,
    unreachSources]

/-- The fields that carry routes are of the family that is settled on: the Withdrawn Routes
field is IPv4, and a multiprotocol attribute is of the family of its AFI. -/
structure OneFamily (update : BGPUpdateMessage) : Prop where
  withdrawnRoutes : update.withdrawnRoutes ≠ [] → settledFamily update = .ipv4Unicast
  reach : ∀ attr ∈ update.pathAttributes, ∀ mp, reachOf attr = some mp → mp.prefixes ≠ [] →
    familyOfAfi mp.afi = settledFamily update
  unreach : ∀ attr ∈ update.pathAttributes, ∀ mp, unreachOf attr = some mp → mp.prefixes ≠ [] →
    familyOfAfi mp.afi = settledFamily update

/-- The routes of a field are all of the field's family. -/
theorem field_family {field : Bytes} {prefixes : List PrefixEntry}
    (h : parsePrefixes parseIpv4Prefix field 0 = .ok prefixes) (withdrawn : Bool) (family : Family) :
    (∀ s ∈ (fieldPrefixes field).map fun entry => (⟨entry, .ipv4Unicast, withdrawn⟩ : Source),
      family = s.family) ↔ (field ≠ [] → family = .ipv4Unicast) := by
  rw [← fieldPrefixes_ne_nil h]
  cases fieldPrefixes field with
  | nil => simp
  | cons entry entries =>
    constructor
    · intro hall _
      exact hall ⟨entry, .ipv4Unicast, withdrawn⟩ (by simp)
    · intro hfamily s hs
      obtain ⟨_, _, rfl⟩ := List.mem_map.mp hs
      exact hfamily (by simp)

theorem flatMap_family {α : Type} (get : BGPPathAttribute → Option α) (prefixes : α → List PrefixEntry)
    (afi : α → Nat) (withdrawn : Bool) (attrs : List BGPPathAttribute) (family : Family) :
    (∀ s ∈ (attrs.filterMap get).flatMap fun mp => (prefixes mp).map fun entry =>
        (⟨entry, familyOfAfi (afi mp), withdrawn⟩ : Source), family = s.family) ↔
      ∀ attr ∈ attrs, ∀ mp, get attr = some mp → prefixes mp ≠ [] → familyOfAfi (afi mp) = family := by
  constructor
  · intro hall attr hattr mp hmp hne
    obtain ⟨entry, hentry⟩ := List.exists_mem_of_ne_nil _ hne
    exact (hall ⟨entry, familyOfAfi (afi mp), withdrawn⟩ (List.mem_flatMap.mpr
      ⟨mp, List.mem_filterMap.mpr ⟨attr, hattr, hmp⟩, List.mem_map.mpr ⟨entry, hentry, rfl⟩⟩)).symm
  · intro hall s hs
    obtain ⟨mp, hmp, hs⟩ := List.mem_flatMap.mp hs
    obtain ⟨attr, hattr, hget⟩ := List.mem_filterMap.mp hmp
    obtain ⟨entry, hentry, rfl⟩ := List.mem_map.mp hs
    exact (hall attr hattr mp hget (List.ne_nil_of_mem hentry)).symm

theorem sources_family {update : BGPUpdateMessage} {withdrawn prefixes : List PrefixEntry}
    (hwithdrawn : parsePrefixes parseIpv4Prefix update.withdrawnRoutes 0 = .ok withdrawn)
    (hnlri : parsePrefixes parseIpv4Prefix update.nlri 0 = .ok prefixes) :
    (∀ s ∈ sources update, settledFamily update = s.family) ↔ OneFamily update := by
  have hclassic : update.nlri ≠ [] → settledFamily update = .ipv4Unicast := fun h => if_pos h
  have hreach := flatMap_family reachOf MpReach.prefixes MpReach.afi false
    update.pathAttributes (settledFamily update)
  have hunreach := flatMap_family unreachOf MpUnreach.prefixes MpUnreach.afi true
    update.pathAttributes (settledFamily update)
  have hfield := field_family hwithdrawn true (settledFamily update)
  have hlast := (field_family hnlri false (settledFamily update)).mpr hclassic
  simp only [sources, List.forall_mem_append]
  constructor
  · rintro ⟨⟨h1, -⟩, h3, h4⟩
    exact ⟨hfield.mp h3, hreach.mp h1, hunreach.mp h4⟩
  · intro h
    exact ⟨⟨hreach.mpr h.reach, hlast⟩, hfield.mpr h.withdrawnRoutes, hunreach.mpr h.unreach⟩

/-- Every queued route has the family of the field it was read from exactly when all the
fields with routes are of the family that is settled on. -/
theorem queued_families_iff {data : Bytes} {message : BMPRouteMonitoringMessage}
    {update : BGPUpdateMessage} {parsed : ParsedBGPUpdate}
    (hmessage : parseRouteMonitoringMessage data = .ok message)
    (hupdate : parseBgpUpdateStructure message.bgpUpdate = .ok update)
    (hparsed : parseBgpUpdate message.bgpUpdate = .ok parsed) (clock : Nat → Timestamp)
    (bmpPeerIp : IpAddress) :
    (handleRouteMonitoring recorder clock data bmpPeerIp []).2.map described =
        (sources update).map Source.described ↔ OneFamily update := by
  obtain ⟨hwithdrawn, hnlri, -⟩ := parseBgpUpdate_accepted hupdate hparsed
  rw [described_queue hmessage hupdate hparsed, ← sources_family hwithdrawn hnlri, List.map_inj_left]
  refine forall₂_congr fun s _ => ?_
  simp only [Source.described, Prod.mk.injEq, true_and]

/-- The withdrawal of an IPv6 prefix in MP_UNREACH_NLRI. -/
def ipv6Withdrawal : Bytes := encodeUpdate [] [⟨0x80, 15, [0, 2, 1, 16, 32, 1]⟩] []

theorem queued_families_iff_ipv6 :
    (handleRouteMonitoring recorder (fun k => k) (encodeRouteMonitoring samplePeer ipv6Withdrawal)
        samplePeer.peerAddress []).2.map described =
      (sources ⟨0, [], 9, [⟨0x80, .known .mpUnreachNlri, 6, [0, 2, 1, 16, 32, 1]⟩], []⟩).map
        Source.described ↔
      OneFamily ⟨0, [], 9, [⟨0x80, .known .mpUnreachNlri, 6, [0, 2, 1, 16, 32, 1]⟩], []⟩ :=
  queued_families_iff
    (parseRouteMonitoringMessage_encode ipv6Withdrawal samplePeer_fits (by decide))
    (parseBgpUpdateStructure_encode ⟨by decide, by decide⟩)
    (parseBgpUpdate_encode [] [] ⟨by decide, by decide⟩) _ _

/-- 10.0.0.0/8 in the Withdrawn Routes field: its record is of the family `unknown`. -/
theorem withdrawal_family_unknown :
    ¬ ∀ (data : Bytes) (message : BMPRouteMonitoringMessage) (update : BGPUpdateMessage)
      (clock : Nat → Timestamp) (bmpPeerIp : IpAddress),
      parseRouteMonitoringMessage data = .ok message →
      parseBgpUpdateStructure message.bgpUpdate = .ok update →
      (parseBgpUpdate message.bgpUpdate).isOk →
      (handleRouteMonitoring recorder clock data bmpPeerIp []).2.map described =
        (sources update).map Source.described := by
  intro h
  have hqueue := h (encodeRouteMonitoring samplePeer (encodeUpdate [8, 10] [] [])) _ _ (fun k => k)
    samplePeer.peerAddress
    (parseRouteMonitoringMessage_encode _ samplePeer_fits (by decide))
    (parseBgpUpdateStructure_encode ⟨by decide, by decide⟩) (by decide)
  revert hqueue
  decide

end Pybmpmon.Listener.RouteFamilies
