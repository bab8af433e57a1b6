import Pybmpmon.Protocol.AttributePatches

/-!
# What an UPDATE is parsed into

The result of `parse_bgp_update` in closed form, for any bytes: of each variable the last
attribute that supplies it, and the routes in the order of the fields that carry them. An
attribute whose decoder raises supplies nothing.
-/
namespace Pybmpmon.Protocol.UpdateMeaning

open Pybmpmon.Lib.ByteString Pybmpmon.Lib.Outcome Pybmpmon.Lib.Fold Pybmpmon.Python
open Pybmpmon.Utils.Binary Pybmpmon.Protocol.Bgp Pybmpmon.Protocol.BgpParser
open Pybmpmon.Protocol.UpdateWalk Pybmpmon.Protocol.AttributePatches

/-- What the last of the attributes that supply it supplies. -/
def lastOf {α : Type} (supply : BGPPathAttribute → Option α) (attrs : List BGPPathAttribute) : Option α :=
  (attrs.filterMap supply).getLast?

def announced (update : BGPUpdateMessage) : List PrefixEntry :=
  (update.pathAttributes.filterMap reachOf).flatMap MpReach.prefixes ++ fieldPrefixes update.nlri

def withdrawn (update : BGPUpdateMessage) : List PrefixEntry :=
  fieldPrefixes update.withdrawnRoutes ++
    (update.pathAttributes.filterMap unreachOf).flatMap MpUnreach.prefixes

/-- AFI and SAFI: those of the NLRI field when it is not empty. -/
def settledFamily (update : BGPUpdateMessage) : Option (Nat × Nat) :=
  if update.nlri = [] then lastOf familyOf update.pathAttributes
  else some (AddressFamilyIdentifier.ipv4, SubsequentAddressFamilyIdentifier.unicast)

def meaning (update : BGPUpdateMessage) : ParsedBGPUpdate where
  afi := (settledFamily update).map Prod.fst
  safi := (settledFamily update).map Prod.snd
  prefixes := announced update
  withdrawnPrefixes := withdrawn update
  isWithdrawal := (withdrawn update).length > 0 ||
    ((lastOf unreachOf update.pathAttributes).isSome && (announced update).length == 0)
  origin := lastOf (valueOf .origin (readUint8 · 0)) update.pathAttributes
  asPath := lastOf (valueOf .asPath parseAsPath) update.pathAttributes
  nextHop := lastOf nextHopOf update.pathAttributes
  med := lastOf (valueOf .multiExitDisc (readUint32 · 0)) update.pathAttributes
  localPref := lastOf (valueOf .localPref (readUint32 · 0)) update.pathAttributes
  communities := lastOf (valueOf .communities parseCommunities) update.pathAttributes
  extendedCommunities := lastOf (valueOf .extendedCommunities parseExtendedCommunities) update.pathAttributes
  evpnRouteType := (lastOf fieldsOf update.pathAttributes).map RouteFields.routeType
  evpnRd := (lastOf fieldsOf update.pathAttributes).bind RouteFields.rd
  evpnEsi := (lastOf fieldsOf update.pathAttributes).bind RouteFields.esi
  macAddress := (lastOf fieldsOf update.pathAttributes).bind RouteFields.macAddress

/-! ## What the loop leaves -/

/-- A variable that no attribute has set before the loop. -/
theorem walked_last {α : Type} (proj : UpdateVars → Option α) (supply : BGPPathAttribute → Option α)
    (hstep : ∀ v attr, proj ((patchOf attr).apply v) = (supply attr).or (proj v))
    (attrs : List BGPPathAttribute) {v : UpdateVars} (hv : proj v = none) :
    proj (walked attrs v) = lastOf supply attrs := by
  rw [walked_patches, foldl_last proj supply hstep, hv, Option.or_none, lastOf]

theorem walked_family (attrs : List BGPPathAttribute) {v : UpdateVars} (hafi : v.afi = none)
    (hsafi : v.safi = none) :
    (walked attrs v).afi = (lastOf familyOf attrs).map Prod.fst ∧
      (walked attrs v).safi = (lastOf familyOf attrs).map Prod.snd := by
  rw [walked_afi, walked_safi, hafi, hsafi, lastOf]
  cases (attrs.filterMap familyOf).getLast? <;> exact ⟨rfl, rfl⟩

theorem walked_hasMpUnreach (attrs : List BGPPathAttribute) {v : UpdateVars} (hv : v.hasMpUnreach = false) :
    (walked attrs v).hasMpUnreach = (lastOf unreachOf attrs).isSome := by
  rw [walked_patches]
  induction attrs using List.reverseRecOn with
  | nil => exact hv
  | append_singleton attrs attr ih =>
    rw [List.foldl_concat, lastOf, List.filterMap_append, List.filterMap_cons, List.filterMap_nil]
    cases h : unreachOf attr with
    | none =>
      rw [List.append_nil, ← lastOf, ← ih]
      simp [Patch.apply, patchOf, h]
    | some mp => simp [Patch.apply, patchOf, h]

/-- The four EVPN variables are those of the last first route. -/
theorem walked_fields (attrs : List BGPPathAttribute) (prefixes : List PrefixEntry) :
    evpnVars (walked attrs { withdrawnPrefixes := prefixes }) =
      ((lastOf fieldsOf attrs).map RouteFields.routeType, (lastOf fieldsOf attrs).bind RouteFields.rd,
        (lastOf fieldsOf attrs).bind RouteFields.esi, (lastOf fieldsOf attrs).bind RouteFields.macAddress) := by
  rw [walked_evpnVars, lastOf]
  cases (attrs.filterMap fieldsOf).getLast? <;> rfl

/-! ## The whole message -/

theorem withClassic_family (nlri : Bytes) (prefixes : List PrefixEntry) (v : UpdateVars) :
    (withClassic nlri prefixes v).afi = (if nlri = [] then v.afi else some AddressFamilyIdentifier.ipv4) ∧
      (withClassic nlri prefixes v).safi =
        if nlri = [] then v.safi else some SubsequentAddressFamilyIdentifier.unicast := by
  rw [withClassic]
  split <;> exact ⟨rfl, rfl⟩

/-- The classic NLRI field writes to no other variable. -/
theorem withClassic_keeps {α : Type} (proj : UpdateVars → α)
    (h : ∀ v afi safi prefixes, proj { v with afi := afi, safi := safi, prefixes := prefixes } = proj v)
    (nlri : Bytes) (prefixes : List PrefixEntry) (v : UpdateVars) :
    proj (withClassic nlri prefixes v) = proj v := by
  rw [withClassic]
  split
  · rfl
  · exact h v _ _ _

theorem parsed_meaning (update : BGPUpdateMessage) :
    (withClassic update.nlri (fieldPrefixes update.nlri) (walked update.pathAttributes
      { withdrawnPrefixes := fieldPrefixes update.withdrawnRoutes })).parsed = meaning update := by
  obtain ⟨hafi, hsafi⟩ := withClassic_family update.nlri (fieldPrefixes update.nlri)
    (walked update.pathAttributes { withdrawnPrefixes := fieldPrefixes update.withdrawnRoutes })
  obtain ⟨hlastAfi, hlastSafi⟩ := walked_family update.pathAttributes
    (v := { withdrawnPrefixes := fieldPrefixes update.withdrawnRoutes }) rfl rfl
  have hsettled : (settledFamily update).map Prod.fst =
        (if update.nlri = [] then (lastOf familyOf update.pathAttributes).map Prod.fst
          else some AddressFamilyIdentifier.ipv4) ∧
      (settledFamily update).map Prod.snd =
        if update.nlri = [] then (lastOf familyOf update.pathAttributes).map Prod.snd
          else some SubsequentAddressFamilyIdentifier.unicast := by
    rw [settledFamily]
    split <;> exact ⟨rfl, rfl⟩
  have hfields := (withClassic_evpnVars update.nlri (fieldPrefixes update.nlri) _).trans
    (walked_fields update.pathAttributes (fieldPrefixes update.withdrawnRoutes))
  simp only [evpnVars, Prod.mk.injEq] at hfields
  obtain ⟨htype, hrd, hesi, hmac⟩ := hfields
  have hunreach := (withClassic_keeps UpdateVars.hasMpUnreach (fun _ _ _ _ => rfl) update.nlri
    (fieldPrefixes update.nlri) _).trans (walked_hasMpUnreach update.pathAttributes
      (v := { withdrawnPrefixes := fieldPrefixes update.withdrawnRoutes }) rfl)
  have hlast : ∀ {α : Type} (proj : UpdateVars → Option α) (supply : BGPPathAttribute → Option α),
      (∀ v afi safi prefixes, proj { v with afi := afi, safi := safi, prefixes := prefixes } = proj v) →
      (∀ v attr, proj ((patchOf attr).apply v) = (supply attr).or (proj v)) →
      proj { withdrawnPrefixes := fieldPrefixes update.withdrawnRoutes } = none →
        proj (withClassic update.nlri (fieldPrefixes update.nlri) (walked update.pathAttributes
          { withdrawnPrefixes := fieldPrefixes update.withdrawnRoutes })) =
            lastOf supply update.pathAttributes := by
    intro α proj supply hkeeps hstep hinit
    rw [withClassic_keeps proj hkeeps, walked_last proj supply hstep _ hinit]
  simp only [UpdateVars.parsed, meaning, hafi, hsafi, hlastAfi, hlastSafi, hsettled.1, hsettled.2,
    prefixes_withClassic, withdrawnPrefixes_withClassic, htype, hrd, hesi, hmac, hunreach, announced, withdrawn,
    hlast UpdateVars.origin _ (fun _ _ _ _ => rfl) (fun _ _ => rfl) rfl,
    hlast UpdateVars.asPath _ (fun _ _ _ _ => rfl) (fun _ _ => rfl) rfl,
    hlast UpdateVars.nextHop _ (fun _ _ _ _ => rfl) (fun _ _ => rfl) rfl,
    hlast UpdateVars.med _ (fun _ _ _ _ => rfl) (fun _ _ => rfl) rfl,
    hlast UpdateVars.localPref _ (fun _ _ _ _ => rfl) (fun _ _ => rfl) rfl,
    hlast UpdateVars.communities _ (fun _ _ _ _ => rfl) (fun _ _ => rfl) rfl,
    hlast UpdateVars.extendedCommunities _ (fun _ _ _ _ => rfl) (fun _ _ => rfl) rfl]
  rfl

/-- For any bytes: `parse_bgp_update` accepts them exactly when they have the structure of an UPDATE
whose Withdrawn Routes and NLRI are lists of IPv4 prefixes, whatever the attributes hold; and the result
is the meaning of the structure. -/
theorem parseBgpUpdate_meaning (d : Bytes) (parsed : ParsedBGPUpdate) :
    parseBgpUpdate d = .ok parsed ↔ ∃ update, parseBgpUpdateStructure d = .ok update ∧
      (∃ prefixes, parsePrefixes parseIpv4Prefix update.withdrawnRoutes 0 = .ok prefixes) ∧
      (∃ prefixes, parsePrefixes parseIpv4Prefix update.nlri 0 = .ok prefixes) ∧
      parsed = meaning update := by
  constructor
  · intro h
    have hstructure := h
    rw [parseBgpUpdate_eq] at hstructure
    obtain ⟨update, hupdate, -⟩ := bind_ok_iff.mp hstructure
    obtain ⟨hwithdrawn, hnlri, hparsed⟩ := parseBgpUpdate_accepted hupdate h
    exact ⟨update, hupdate, ⟨_, hwithdrawn⟩, ⟨_, hnlri⟩, hparsed.trans (parsed_meaning update)⟩
  · rintro ⟨update, hupdate, ⟨routes, hroutes⟩, ⟨prefixes, hprefixes⟩, rfl⟩
    rw [parseBgpUpdate_eq, hupdate, ok_bind, hroutes, ok_bind, parseClassicNlri_eq, hprefixes, ok_map, ok_bind,
      ← parsed_meaning, fieldPrefixes_ok hroutes, fieldPrefixes_ok hprefixes]

end Pybmpmon.Protocol.UpdateMeaning
