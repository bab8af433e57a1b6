import Pybmpmon.Protocol.AsPathFields
import Pybmpmon.Protocol.BmpErrors
import Pybmpmon.Protocol.BmpEncoding
import Pybmpmon.Protocol.UpdateEncoding
import Pybmpmon.Protocol.AttributePatches
import Pybmpmon.Database.Schema
import Pybmpmon.Listener.RouteMonitoring

/-!
# Numbers on their way to signed columns

The peer AS number, the MED, the local preference and the AS path of a record are
unsigned 32-bit numbers of the message, and their columns are signed. A message
is storable exactly when none of the fields its records take a number from has
its top bit set.
-/
namespace Pybmpmon.Listener.Storable

open Pybmpmon.Lib.ByteString Pybmpmon.Lib.Outcome Pybmpmon.Lib.Scan Pybmpmon.Lib.Fold
open Pybmpmon.Python Pybmpmon.Utils.Binary Pybmpmon.Protocol.Bmp Pybmpmon.Protocol.Bgp
open Pybmpmon.Protocol.BmpParser Pybmpmon.Protocol.BgpParser Pybmpmon.Protocol.BmpEncoding
open Pybmpmon.Protocol.UpdateEncoding
open Pybmpmon.Protocol.BmpErrors (parsePerPeerHeader_asn)
open Pybmpmon.Protocol.DecoderErrors (parsePrefixes_ne_nil)
open Pybmpmon.Protocol.AttributePatches (walked_med walked_localPref walked_asPath walked_prefixes
  walked_withdrawnPrefixes)
open Pybmpmon.Protocol.UpdateWalk Pybmpmon.Protocol.AsPathFields Pybmpmon.Models.Route
open Pybmpmon.Database.Schema Pybmpmon.Listener.RouteMonitoring

/-- The four number columns of a record are in the range of their type. -/
def NumbersFit (r : RouteUpdate) : Prop :=
  fitsIntegerColumn r.bgpPeerAsn = true ∧ fitsIntegerColumn r.med = true ∧
    fitsIntegerColumn r.localPref = true ∧ fitsIntegerArray r.asPath = true

instance (r : RouteUpdate) : Decidable (NumbersFit r) := inferInstanceAs (Decidable (_ ∧ _))

/-! ## The fields of the message -/

/-- A field whose number is below `2 ^ 31`. -/
def Narrow (field : Bytes) : Prop := beNat field < 2 ^ 31

/-- The AS number field of the per-peer header. -/
def peerAsField (d : Bytes) : Bytes := (d.drop 32).take 4

/-- The four octets a MED or LOCAL_PREF is read from: those of the last attribute of the
type that is long enough. -/
def lastNumberField (t : BGPPathAttributeType) (attrs : List BGPPathAttribute) : Option Bytes :=
  ((attrs.filter fun a => a.typeCode == .known t && 4 ≤ a.value.length).getLast?).map
    fun a => a.value.take 4

/-- The value of the last AS_PATH that is well formed. -/
def lastAsPath (attrs : List BGPPathAttribute) : Option Bytes :=
  ((attrs.filter fun a => a.typeCode == .known .asPath && (parseAsPath a.value).isOk).getLast?).map
    BGPPathAttribute.value

/-- The UPDATE announces a route: in the NLRI field or in an MP_REACH_NLRI. -/
def Announces (u : BGPUpdateMessage) : Prop :=
  u.nlri ≠ [] ∨ ∃ a ∈ u.pathAttributes, ∃ mp, reachOf a = some mp ∧ mp.prefixes ≠ []

/-- The UPDATE withdraws a route: in the Withdrawn Routes or in an MP_UNREACH_NLRI. -/
def Withdraws (u : BGPUpdateMessage) : Prop :=
  u.withdrawnRoutes ≠ [] ∨ ∃ a ∈ u.pathAttributes, ∃ mp, unreachOf a = some mp ∧ mp.prefixes ≠ []

/-- No field a record takes a number from has its top bit set. -/
structure FieldsNarrow (d : Bytes) (u : BGPUpdateMessage) : Prop where
  peerAsn : Announces u ∨ Withdraws u → Narrow (peerAsField d)
  med : Announces u → ∀ f ∈ lastNumberField .multiExitDisc u.pathAttributes, Narrow f
  localPref : Announces u → ∀ f ∈ lastNumberField .localPref u.pathAttributes, Narrow f
  asPath : Announces u → ∀ value ∈ lastAsPath u.pathAttributes, ∀ f ∈ asFields value, Narrow f

/-! ## What the parsers make of the fields -/

theorem readUint32_zero_toOption (value : Bytes) :
    (readUint32 value 0).toOption =
      if 4 ≤ value.length then some (beNat (value.take 4)) else none := by
  by_cases h : 4 ≤ value.length
  · rw [if_pos h, readUint32_ok (by omega), List.drop_zero]
    rfl
  · rw [if_neg h, readUint32, if_pos (by omega)]
    rfl

theorem last_medOf (attrs : List BGPPathAttribute) :
    (attrs.filterMap medOf).getLast? = (lastNumberField .multiExitDisc attrs).map beNat := by
  have hget : ∀ a, medOf a =
      if a.typeCode == .known .multiExitDisc && 4 ≤ a.value.length then
        some (beNat (a.value.take 4)) else none := by
    intro a
    rw [medOf, readUint32_zero_toOption]
    by_cases ht : a.typeCode = .known .multiExitDisc <;> simp [ht]
  rw [filterMap_guard hget, List.getLast?_map, lastNumberField, Option.map_map]
  rfl

theorem last_localPrefOf (attrs : List BGPPathAttribute) :
    (attrs.filterMap localPrefOf).getLast? = (lastNumberField .localPref attrs).map beNat := by
  have hget : ∀ a, localPrefOf a =
      if a.typeCode == .known .localPref && 4 ≤ a.value.length then
        some (beNat (a.value.take 4)) else none := by
    intro a
    rw [localPrefOf, readUint32_zero_toOption]
    by_cases ht : a.typeCode = .known .localPref <;> simp [ht]
  rw [filterMap_guard hget, List.getLast?_map, lastNumberField, Option.map_map]
  rfl

theorem last_asPathOf (attrs : List BGPPathAttribute) :
    (attrs.filterMap asPathOf).getLast? =
      (lastAsPath attrs).map fun value => (asFields value).map beNat := by
  have hget : ∀ a, asPathOf a =
      if a.typeCode == .known .asPath && (parseAsPath a.value).isOk then
        some ((asFields a.value).map beNat) else none := by
    intro a
    rw [asPathOf]
    by_cases ht : a.typeCode = .known .asPath
    · cases hp : parseAsPath a.value with
      | error e => simp [ht, Except.toOption, Except.isOk, Except.toBool]
      | ok ns => simp [ht, Except.toOption, Except.isOk, Except.toBool, parseAsPath_fields hp]
    · simp [ht]
  rw [filterMap_guard hget, List.getLast?_map, lastAsPath, Option.map_map]
  rfl

/-- What an accepted UPDATE holds, in terms of its parts. -/
theorem parsed_parts {d : Bytes} {update : ParsedBGPUpdate} (h : parseBgpUpdate d = .ok update) :
    ∃ u, parseBgpUpdateStructure d = .ok u ∧
      update.med = (lastNumberField .multiExitDisc u.pathAttributes).map beNat ∧
      update.localPref = (lastNumberField .localPref u.pathAttributes).map beNat ∧
      update.asPath = (lastAsPath u.pathAttributes).map (fun value => (asFields value).map beNat) ∧
      (update.prefixes ≠ [] ↔ Announces u) ∧ (update.withdrawnPrefixes ≠ [] ↔ Withdraws u) := by
  rw [parseBgpUpdate_eq] at h
  obtain ⟨u, hu, h⟩ := bind_ok_iff.mp h
  obtain ⟨withdrawn, hwithdrawn, h⟩ := bind_ok_iff.mp h
  obtain ⟨vars, hvars, h⟩ := bind_ok_iff.mp h
  cases h
  have hmed := walked_med u.pathAttributes { withdrawnPrefixes := withdrawn }
  have hlocalPref := walked_localPref u.pathAttributes { withdrawnPrefixes := withdrawn }
  have hasPath := walked_asPath u.pathAttributes { withdrawnPrefixes := withdrawn }
  have hprefixes := walked_prefixes u.pathAttributes { withdrawnPrefixes := withdrawn }
  have hwithdrawnPrefixes :=
    walked_withdrawnPrefixes u.pathAttributes { withdrawnPrefixes := withdrawn }
  rw [last_medOf, Option.or_none] at hmed
  rw [last_localPrefOf, Option.or_none] at hlocalPref
  rw [last_asPathOf, Option.or_none] at hasPath
  rw [List.nil_append] at hprefixes
  generalize walked u.pathAttributes { withdrawnPrefixes := withdrawn } = v at *
  have hreach : v.prefixes ≠ [] ↔
      ∃ a ∈ u.pathAttributes, ∃ mp, reachOf a = some mp ∧ mp.prefixes ≠ [] := by
    rw [hprefixes]
    exact appended_ne_nil
  have hunreach : v.withdrawnPrefixes ≠ [] ↔ Withdraws u := by
    rw [hwithdrawnPrefixes, ne_eq, List.append_eq_nil_iff, not_and_or, ← ne_eq, ← ne_eq,
      appended_ne_nil, Withdraws, parsePrefixes_ne_nil hwithdrawn]
  rw [parseClassicNlri] at hvars
  by_cases hnlri : u.nlri = []
  · rw [if_neg (by simp [hnlri])] at hvars
    cases hvars
    refine ⟨u, hu, hmed, hlocalPref, hasPath, ?_, hunreach⟩
    exact hreach.trans (by simp [Announces, hnlri])
  · rw [if_pos (List.length_pos_iff.mpr hnlri)] at hvars
    obtain ⟨ps, hps, hvars⟩ := bind_ok_iff.mp hvars
    cases hvars
    refine ⟨u, hu, hmed, hlocalPref, hasPath, ?_, hunreach⟩
    have hne := (parsePrefixes_ne_nil hps).mp hnlri
    exact ⟨fun _ => .inl hnlri, fun _ => by simp [UpdateVars.parsed, hne]⟩

/-- The AS number of the records is the one in the per-peer header. -/
theorem peerAsn_field {d : Bytes} {parsed : BMPRouteMonitoringMessage}
    (h : parseRouteMonitoringMessage d = .ok parsed) :
    parsed.perPeerHeader.peerAsn = beNat (peerAsField d) := by
  rw [parseRouteMonitoringMessage] at h
  obtain ⟨header, _, h⟩ := bind_ok_iff.mp h
  split at h
  · cases h
  obtain ⟨perPeerHeader, hpeer, h⟩ := bind_ok_iff.mp h
  obtain ⟨bgpUpdate, _, h⟩ := bind_ok_iff.mp h
  cases h
  exact parsePerPeerHeader_asn hpeer

/-! ## The records -/

/-- A property the announced records share and one the withdrawn records share. -/
theorem forall_routeUpdates {P : RouteUpdate → Prop} {announced withdrawn : Prop}
    {clock : Nat → Timestamp} {bmpPeerIp : IpAddress} {parsed : BMPRouteMonitoringMessage}
    {update : ParsedBGPUpdate}
    (hannounced : ∀ family entry t, P (announcedRoute bmpPeerIp parsed.perPeerHeader update family
      entry t) ↔ announced)
    (hwithdrawn : ∀ family entry t, P (withdrawnRoute bmpPeerIp parsed.perPeerHeader family
      entry t) ↔ withdrawn) :
    (∀ r ∈ routeUpdates clock bmpPeerIp parsed update, P r) ↔
      (update.prefixes ≠ [] → announced) ∧ (update.withdrawnPrefixes ≠ [] → withdrawn) := by
  rw [routeUpdates]
  constructor
  · intro h
    refine ⟨fun hne => ?_, fun hne => ?_⟩
    · obtain ⟨entry, hentry⟩ := List.exists_mem_of_ne_nil _ hne
      obtain ⟨t, ht⟩ := exists_built clock (List.mem_append_left _ (List.mem_map_of_mem hentry))
      exact (hannounced _ _ _).mp (h _ ht)
    · obtain ⟨entry, hentry⟩ := List.exists_mem_of_ne_nil _ hne
      obtain ⟨t, ht⟩ := exists_built clock (List.mem_append_right _ (List.mem_map_of_mem hentry))
      exact (hwithdrawn _ _ _).mp (h _ ht)
  · rintro ⟨ha, hw⟩ r hr
    obtain ⟨b, hb, t, rfl⟩ := mem_built hr
    rcases List.mem_append.mp hb with hb | hb
    · obtain ⟨entry, hentry, rfl⟩ := List.mem_map.mp hb
      exact (hannounced _ _ _).mpr (ha (List.ne_nil_of_mem hentry))
    · obtain ⟨entry, hentry, rfl⟩ := List.mem_map.mp hb
      exact (hwithdrawn _ _ _).mpr (hw (List.ne_nil_of_mem hentry))

theorem fits_number (field : Option Bytes) :
    fitsIntegerColumn (field.map beNat) = true ↔ ∀ f ∈ field, Narrow f := by
  cases field <;> simp [fitsIntegerColumn, fitsInteger_natCast, Narrow]

theorem fits_path (value : Option Bytes) :
    fitsIntegerArray (value.map fun v => (asFields v).map beNat) = true ↔
      ∀ v ∈ value, ∀ f ∈ asFields v, Narrow f := by
  cases value <;> simp [fitsIntegerArray, fitsInteger_natCast, Narrow]

/-- The records of an accepted message fit their number columns exactly when no field they
take a number from has its top bit set. -/
theorem storable_iff_narrow (d : Bytes) (parsed : BMPRouteMonitoringMessage)
    (update : ParsedBGPUpdate) (hparsed : parseRouteMonitoringMessage d = .ok parsed)
    (hupdate : parseBgpUpdate parsed.bgpUpdate = .ok update) (clock : Nat → Timestamp)
    (bmpPeerIp : IpAddress) :
    ∃ u, parseBgpUpdateStructure parsed.bgpUpdate = .ok u ∧
      ((∀ r ∈ (handleRouteMonitoring recorder clock d bmpPeerIp []).2, NumbersFit r) ↔
        FieldsNarrow d u) := by
  obtain ⟨u, hu, hmed, hlocalPref, hasPath, hann, hwd⟩ := parsed_parts hupdate
  have hasn := peerAsn_field hparsed
  have hasnFits : fitsIntegerColumn (some parsed.perPeerHeader.peerAsn) = true ↔
      Narrow (peerAsField d) := by
    rw [hasn]
    simp [fitsIntegerColumn, fitsInteger_natCast, Narrow]
  have hannounced : ∀ family entry t, NumbersFit (announcedRoute bmpPeerIp parsed.perPeerHeader
      update family entry t) ↔ Narrow (peerAsField d) ∧
        (∀ f ∈ lastNumberField .multiExitDisc u.pathAttributes, Narrow f) ∧
        (∀ f ∈ lastNumberField .localPref u.pathAttributes, Narrow f) ∧
        (∀ v ∈ lastAsPath u.pathAttributes, ∀ f ∈ asFields v, Narrow f) := by
    intro family entry t
    simp only [NumbersFit, announcedRoute]
    rw [hasnFits, hmed, hlocalPref, hasPath, fits_number, fits_number, fits_path]
  have hwithdrawn : ∀ family entry t, NumbersFit (withdrawnRoute bmpPeerIp parsed.perPeerHeader
      family entry t) ↔ Narrow (peerAsField d) := by
    intro family entry t
    simp only [NumbersFit, withdrawnRoute]
    rw [hasnFits]
    simp [fitsIntegerColumn, fitsIntegerArray]
  refine ⟨u, hu, ?_⟩
  rw [handleRouteMonitoring_recorder hparsed hupdate]
  rw [forall_routeUpdates hannounced hwithdrawn, hann, hwd]
  constructor
  · rintro ⟨ha, hw⟩
    exact ⟨fun h => h.elim (fun h => (ha h).1) hw, fun h => (ha h).2.1, fun h => (ha h).2.2.1,
      fun h => (ha h).2.2.2⟩
  · rintro ⟨hpeer, hm, hl, hp⟩
    exact ⟨fun h => ⟨hpeer (.inl h), hm h, hl h, hp h⟩, fun h => hpeer (.inr h)⟩

/-- 10.0.0.0/8 with a MED of 5. -/
def medUpdate : Bytes := encodeUpdate [] [⟨0x80, 4, [0, 0, 0, 5]⟩] [8, 10]

theorem storable_iff_narrow_med :
    ∃ u, parseBgpUpdateStructure medUpdate = .ok u ∧
      ((∀ r ∈ (handleRouteMonitoring recorder (fun k => k)
          (encodeRouteMonitoring samplePeer medUpdate) samplePeer.peerAddress []).2, NumbersFit r) ↔
        FieldsNarrow (encodeRouteMonitoring samplePeer medUpdate) u) :=
  storable_iff_narrow (encodeRouteMonitoring samplePeer medUpdate)
    ⟨⟨3, 48 + medUpdate.length, .routeMonitoring⟩, samplePeer, medUpdate⟩
    { afi := some 1, safi := some 1, withdrawnPrefixes := [], isWithdrawal := false
      prefixes := [.cidr (.ofOctet 10)], origin := none, asPath := none
      nextHop := none, med := some 5, localPref := none, communities := none
      extendedCommunities := none, evpnRouteType := none, evpnRd := none, evpnEsi := none
      macAddress := none }
    (parseRouteMonitoringMessage_encode medUpdate samplePeer_fits (by decide)) (by decide) _ _

/-- A peer in the private-use AS 4200000000 announces 10.0.0.0/8. -/
theorem wide_as_not_storable :
    let data := encodeRouteMonitoring { samplePeer with peerAsn := 4200000000 } medUpdate
    (handleRouteMonitoring recorder (fun k => k) data samplePeer.peerAddress []).1 = .ok () ∧
    ∃ r ∈ (handleRouteMonitoring recorder (fun k => k) data samplePeer.peerAddress []).2,
      ¬NumbersFit r := by
  decide

end Pybmpmon.Listener.Storable
