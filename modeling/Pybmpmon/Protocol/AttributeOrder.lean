import Pybmpmon.Protocol.AttributePatches
import Pybmpmon.Protocol.UpdateEncoding

/-!
# Attributes that are malformed, and attributes in another order

An attribute whose decoder raises writes nothing, so the UPDATE without it gives
the same. Attributes of different types may be put in any order as long as those
that write to one variable write the same to it: the next hop, the family and the
columns of the first EVPN route have two writers each.
-/
namespace Pybmpmon.Protocol.AttributeOrder

open Pybmpmon.Lib.ByteString Pybmpmon.Lib.Outcome Pybmpmon.Lib.Fold Pybmpmon.Python
open Pybmpmon.Utils.Binary Pybmpmon.Protocol.Bgp Pybmpmon.Protocol.BgpParser
open Pybmpmon.Protocol.DecoderErrors Pybmpmon.Protocol.UpdateWalk
open Pybmpmon.Protocol.AttributePatches Pybmpmon.Protocol.UpdateEncoding

/-! ## Malformed attributes -/

/-- The branch of the attribute raises. -/
def Malformed (attr : BGPPathAttribute) : Prop :=
  ∃ vars e, ((applyAttribute attr).run vars).1 = .error e

theorem written_malformed {attr : BGPPathAttribute} (h : Malformed attr) (v : UpdateVars) :
    written attr v = v := by
  obtain ⟨vars, e, hrun⟩ := h
  rw [applyAttribute_run] at hrun
  rw [written]
  cases ha : assigns attr with
  | ok write =>
    rw [ha] at hrun
    cases hrun
  | error e' => rfl

theorem walked_eraseIdx {attrs : List BGPPathAttribute} {i : Nat} (hi : i < attrs.length)
    (h : Malformed attrs[i]) (v : UpdateVars) : walked (attrs.eraseIdx i) v = walked attrs v := by
  have hsplit : attrs = attrs.take i ++ attrs[i] :: attrs.drop (i + 1) := by
    rw [List.getElem_cons_drop, List.take_append_drop]
  have hskip : walked (attrs[i] :: attrs.drop (i + 1)) (walked (attrs.take i) v) =
      walked (attrs.drop (i + 1)) (walked (attrs.take i) v) := by
    rw [walked, List.foldl_cons, written_malformed h]
    rfl
  rw [List.eraseIdx_eq_take_drop_succ, walked_append, ← hskip, ← walked_append, ← hsplit]

/-- An UPDATE with a malformed attribute is parsed as the same UPDATE without it. -/
theorem parseBgpUpdate_without_malformed {d d' : Bytes} {update update' : BGPUpdateMessage}
    (h : parseBgpUpdateStructure d = .ok update) (h' : parseBgpUpdateStructure d' = .ok update')
    {i : Nat} (hi : i < update.pathAttributes.length) (hmalformed : Malformed update.pathAttributes[i])
    (hattrs : update'.pathAttributes = update.pathAttributes.eraseIdx i)
    (hwithdrawn : update'.withdrawnRoutes = update.withdrawnRoutes)
    (hnlri : update'.nlri = update.nlri) : parseBgpUpdate d = parseBgpUpdate d' := by
  rw [parseBgpUpdate_eq, parseBgpUpdate_eq, h, h', ok_bind, ok_bind, hattrs, hwithdrawn, hnlri]
  simp only [walked_eraseIdx hi hmalformed]

/-- MP_REACH_NLRI with a prefix and then a length octet of 33, before ORIGIN. -/
theorem malformed_reach_skipped :
    parseBgpUpdate (encodeUpdate [] [⟨0x80, 14, [0, 1, 1, 4, 192, 0, 2, 1, 0, 8, 10, 33]⟩,
        ⟨0x40, 1, [0]⟩] [8, 11]) =
      parseBgpUpdate (encodeUpdate [] [⟨0x40, 1, [0]⟩] [8, 11]) :=
  parseBgpUpdate_without_malformed
    (parseBgpUpdateStructure_encode ⟨by decide, by decide⟩)
    (parseBgpUpdateStructure_encode ⟨by decide, by decide⟩)
    (i := 0) (by decide) ⟨{}, _, rfl⟩ rfl rfl rfl

/-! ## Attributes in another order -/

/-- Two records that may be applied in either order. -/
structure Compatible (p q : Patch) : Prop where
  family : Agreeing p.family q.family
  origin : Agreeing p.origin q.origin
  asPath : Agreeing p.asPath q.asPath
  nextHop : Agreeing p.nextHop q.nextHop
  med : Agreeing p.med q.med
  localPref : Agreeing p.localPref q.localPref
  communities : Agreeing p.communities q.communities
  extendedCommunities : Agreeing p.extendedCommunities q.extendedCommunities
  fields : Agreeing p.fields q.fields
  announced : Agreeing p.announced q.announced
  withdrawn : Agreeing p.withdrawn q.withdrawn

theorem Compatible.apply_comm {p q : Patch} (h : Compatible p q) (v : UpdateVars) :
    p.apply (q.apply v) = q.apply (p.apply v) := by
  simp only [Patch.apply, (h.family.map Prod.fst).or_swap, (h.family.map Prod.snd).or_swap,
    h.origin.or_swap, h.asPath.or_swap, h.nextHop.or_swap, h.med.or_swap, h.localPref.or_swap,
    h.communities.or_swap, h.extendedCommunities.or_swap,
    (h.fields.map RouteFields.routeType).or_swap, h.fields.getD_swap, h.announced.append_swap,
    h.withdrawn.append_swap, Bool.or_left_comm]

theorem agreeing_self {β : Type} (o : Option β) : Agreeing o o := by
  intro x y hx hy
  exact Option.some.inj (hx.symm.trans hy)

theorem agreeing_valueOf {α : Type} (t : BGPPathAttributeType) (decoder : Bytes → Except PyErr α)
    {a b : BGPPathAttribute} (h : a.typeCode = b.typeCode → a = b) :
    Agreeing (valueOf t decoder a) (valueOf t decoder b) := by
  by_cases ha : a.typeCode = .known t
  · by_cases hb : b.typeCode = .known t
    · rw [h (ha.trans hb.symm)]
      exact agreeing_self _
    · intro x y _ hy
      rw [valueOf, if_neg hb] at hy
      cases hy
  · intro x y hx _
    rw [valueOf, if_neg ha] at hx
    cases hx

/-- The variables without the family, which the classic NLRI field overwrites. -/
def withoutFamily (v : UpdateVars) : UpdateVars := { v with afi := none, safi := none }

theorem withClassic_withoutFamily {nlri : Bytes} (hnlri : nlri ≠ []) (prefixes : List PrefixEntry)
    (v : UpdateVars) : withClassic nlri prefixes (withoutFamily v) = withClassic nlri prefixes v := by
  rw [withClassic, withClassic, if_neg hnlri, if_neg hnlri]
  rfl

def dropFamily (p : Patch) : Patch := { p with family := none }

theorem withoutFamily_apply (p : Patch) (v : UpdateVars) :
    withoutFamily (p.apply v) = (dropFamily p).apply (withoutFamily v) := rfl

theorem withoutFamily_walked (attrs : List BGPPathAttribute) (v : UpdateVars) :
    withoutFamily (walked attrs v) =
      attrs.foldl (fun v attr => (dropFamily (patchOf attr)).apply v) (withoutFamily v) := by
  rw [walked_patches]
  induction attrs generalizing v with
  | nil => rfl
  | cons attr attrs ih => rw [List.foldl_cons, List.foldl_cons, ih, withoutFamily_apply]

/-- Attributes of different types meet in the family, the next hop and the EVPN columns only. -/
theorem compatible_withoutFamily {a b : BGPPathAttribute} (htypes : a.typeCode = b.typeCode → a = b)
    (hnextHop : Agreeing (nextHopOf a) (nextHopOf b)) (hfields : Agreeing (fieldsOf a) (fieldsOf b)) :
    Compatible (dropFamily (patchOf a)) (dropFamily (patchOf b)) where
  family := agreeing_self none
  origin := agreeing_valueOf .origin (readUint8 · 0) htypes
  asPath := agreeing_valueOf .asPath parseAsPath htypes
  nextHop := hnextHop
  med := agreeing_valueOf .multiExitDisc (readUint32 · 0) htypes
  localPref := agreeing_valueOf .localPref (readUint32 · 0) htypes
  communities := agreeing_valueOf .communities parseCommunities htypes
  extendedCommunities := agreeing_valueOf .extendedCommunities parseExtendedCommunities htypes
  fields := hfields
  announced := (agreeing_valueOf .mpReachNlri parseMpReachNlri htypes).map MpReach.prefixes
  withdrawn := (agreeing_valueOf .mpUnreachNlri parseMpUnreachNlri htypes).map MpUnreach.prefixes

theorem Compatible.withFamily {p q : Patch}
    (h : Compatible (dropFamily p) (dropFamily q))
    (hfamily : Agreeing p.family q.family) : Compatible p q :=
  ⟨hfamily, h.origin, h.asPath, h.nextHop, h.med, h.localPref, h.communities,
    h.extendedCommunities, h.fields, h.announced, h.withdrawn⟩

theorem foldl_apply_perm {patch : BGPPathAttribute → Patch} {attrs attrs' : List BGPPathAttribute}
    (hperm : attrs'.Perm attrs)
    (h : ∀ a ∈ attrs, ∀ b ∈ attrs, Compatible (patch a) (patch b)) (v : UpdateVars) :
    attrs'.foldl (fun v attr => (patch attr).apply v) v =
      attrs.foldl (fun v attr => (patch attr).apply v) v :=
  (hperm.symm.foldl_eq' (fun a ha b hb v => ((h a ha b hb).apply_comm v).symm) v).symm

/-- The conditions under which the order of the attributes makes no difference: those that
set the next hop set the same, and so for the family, where the classic NLRI field does not
set it again, and for the columns of the first EVPN route. -/
structure NoConflict (attrs : List WireAttribute) (nlri : Bytes) : Prop where
  nextHop : ∀ a ∈ attrs, ∀ b ∈ attrs, Agreeing (nextHopOf a.parsed) (nextHopOf b.parsed)
  family : nlri = [] → ∀ a ∈ attrs, ∀ b ∈ attrs, Agreeing (familyOf a.parsed) (familyOf b.parsed)
  fields : ∀ a ∈ attrs, ∀ b ∈ attrs, Agreeing (fieldsOf a.parsed) (fieldsOf b.parsed)

theorem updateFits_perm {withdrawn nlri : Bytes} {attrs attrs' : List WireAttribute}
    (hfits : UpdateFits withdrawn attrs nlri) (hperm : attrs'.Perm attrs) :
    UpdateFits withdrawn attrs' nlri := by
  have hlength : (encodeAttributes attrs').length = (encodeAttributes attrs).length :=
    (hperm.flatMap_right WireAttribute.encode).length_eq
  exact ⟨fun a ha => hfits.attributes a (hperm.mem_iff.mp ha), by rw [hlength]; exact hfits.size⟩

/-- A sent UPDATE is parsed into its withdrawn prefixes, the writes of its attributes and
its classic NLRI. -/
theorem parseBgpUpdate_sent {withdrawn nlri : Bytes} {attrs : List WireAttribute}
    (hfits : UpdateFits withdrawn attrs nlri) :
    parseBgpUpdate (encodeUpdate withdrawn attrs nlri) = (do
      let withdrawnPrefixes ← parsePrefixes parseIpv4Prefix withdrawn 0
      let prefixes ← parsePrefixes parseIpv4Prefix nlri 0
      .ok (withClassic nlri prefixes
        (walked (attrs.map WireAttribute.parsed) { withdrawnPrefixes })).parsed) := by
  rw [parseBgpUpdate_eq, parseBgpUpdateStructure_encode hfits, ok_bind]
  simp only [parseClassicNlri_eq]
  cases parsePrefixes parseIpv4Prefix withdrawn 0 with
  | error e => rfl
  | ok withdrawnPrefixes =>
    cases parsePrefixes parseIpv4Prefix nlri 0 with
    | error e => rfl
    | ok prefixes => rfl

/-- The octets tell the types apart. -/
theorem types_distinct {attrs : List WireAttribute}
    (hdistinct : (attrs.map WireAttribute.typeByte).Nodup) {a b : WireAttribute} (ha : a ∈ attrs)
    (hb : b ∈ attrs) (h : a.parsed.typeCode = b.parsed.typeCode) : a.parsed = b.parsed := by
  have hraw := congrArg TypeCode.raw h
  rw [WireAttribute.parsed, WireAttribute.parsed, TypeCode.raw_ofRaw, TypeCode.raw_ofRaw,
    UInt8.toNat_inj] at hraw
  rw [List.inj_on_of_nodup_map hdistinct ha hb hraw]

/-- Without a conflict the order of the attributes makes no difference to the variables. -/
theorem walked_perm {attrs attrs' : List WireAttribute} {nlri : Bytes}
    (hdistinct : (attrs.map WireAttribute.typeByte).Nodup) (h : NoConflict attrs nlri)
    (hperm : attrs'.Perm attrs) (prefixes : List PrefixEntry) (v : UpdateVars) :
    withClassic nlri prefixes (walked (attrs'.map WireAttribute.parsed) v) =
      withClassic nlri prefixes (walked (attrs.map WireAttribute.parsed) v) := by
  have hmap := hperm.map WireAttribute.parsed
  have hcompatible : ∀ a ∈ attrs.map WireAttribute.parsed, ∀ b ∈ attrs.map WireAttribute.parsed,
      Compatible (dropFamily (patchOf a)) (dropFamily (patchOf b)) := by
    intro a' ha' b' hb'
    obtain ⟨a, ha, rfl⟩ := List.mem_map.mp ha'
    obtain ⟨b, hb, rfl⟩ := List.mem_map.mp hb'
    exact compatible_withoutFamily (types_distinct hdistinct ha hb) (h.nextHop a ha b hb)
      (h.fields a ha b hb)
  by_cases hnlri : nlri = []
  · have hfamily : ∀ a ∈ attrs.map WireAttribute.parsed, ∀ b ∈ attrs.map WireAttribute.parsed,
        Compatible (patchOf a) (patchOf b) := by
      intro a' ha' b' hb'
      refine (hcompatible a' ha' b' hb').withFamily ?_
      obtain ⟨a, ha, rfl⟩ := List.mem_map.mp ha'
      obtain ⟨b, hb, rfl⟩ := List.mem_map.mp hb'
      exact h.family hnlri a ha b hb
    rw [walked_patches, walked_patches, foldl_apply_perm hmap hfamily]
  · rw [← withClassic_withoutFamily hnlri, ← withClassic_withoutFamily hnlri (v := walked _ v),
      withoutFamily_walked, withoutFamily_walked, foldl_apply_perm hmap hcompatible]

/-! ## What a conflict shows -/

theorem last_family {o o' : Option (Nat × Nat)}
    (hafi : (o.map fun f => some f.1).getD none = (o'.map fun f => some f.1).getD none)
    (hsafi : (o.map fun f => some f.2).getD none = (o'.map fun f => some f.2).getD none) : o = o' := by
  cases o <;> cases o' <;> simp_all [Prod.ext_iff]

theorem last_fields {o o' : Option RouteFields}
    (h : (o.map RouteFields.vars).getD (none, none, none, none) =
      (o'.map RouteFields.vars).getD (none, none, none, none)) : o = o' := by
  cases o with
  | none => cases o' with
    | none => rfl
    | some f => cases h
  | some f => cases o' with
    | none => cases h
    | some f' =>
      cases f
      cases f'
      cases h
      rfl

/-- Where every order gives the same result, there is no conflict. -/
theorem noConflict_of_same {attrs : List WireAttribute} {nlri : Bytes}
    (prefixes withdrawnPrefixes : List PrefixEntry)
    (h : ∀ attrs' : List WireAttribute, attrs'.Perm attrs →
      (withClassic nlri prefixes
        (walked (attrs'.map WireAttribute.parsed) { withdrawnPrefixes })).parsed =
      (withClassic nlri prefixes
        (walked (attrs.map WireAttribute.parsed) { withdrawnPrefixes })).parsed) :
    NoConflict attrs nlri := by
  constructor
  · refine agreeing_of_last
      (attrs.filterMap fun a => nextHopOf a.parsed).getLast? fun attrs' hperm => ?_
    have hsame := congrArg ParsedBGPUpdate.nextHop (h attrs' hperm)
    change (withClassic _ _ _).nextHop = (withClassic _ _ _).nextHop at hsame
    simpa only [withClassic_nextHop, walked_nextHop, List.filterMap_map, Function.comp_def,
      Option.or_none] using hsame
  · intro hnlri
    subst hnlri
    refine agreeing_of_last
      (attrs.filterMap fun a => familyOf a.parsed).getLast? fun attrs' hperm => ?_
    have hafi := congrArg ParsedBGPUpdate.afi (h attrs' hperm)
    have hsafi := congrArg ParsedBGPUpdate.safi (h attrs' hperm)
    change (walked _ _).afi = (walked _ _).afi at hafi
    change (walked _ _).safi = (walked _ _).safi at hsafi
    simp only [walked_afi, List.filterMap_map, Function.comp_def] at hafi
    simp only [walked_safi, List.filterMap_map, Function.comp_def] at hsafi
    exact last_family hafi hsafi
  · refine agreeing_of_last
      (attrs.filterMap fun a => fieldsOf a.parsed).getLast? fun attrs' hperm => ?_
    have hsame := congrArg (fun u : ParsedBGPUpdate =>
      (u.evpnRouteType, u.evpnRd, u.evpnEsi, u.macAddress)) (h attrs' hperm)
    change evpnVars (withClassic _ _ _) = evpnVars (withClassic _ _ _) at hsame
    simp only [withClassic_evpnVars, walked_evpnVars, List.filterMap_map, Function.comp_def] at hsame
    exact last_fields hsame

/-- A field of prefixes that cannot be decoded, so that the UPDATE is rejected. -/
def Undecodable (field : Bytes) : Prop := ∃ e, parsePrefixes parseIpv4Prefix field 0 = .error e

/-- The order of attributes of distinct types makes no difference exactly when the UPDATE is
rejected in any order or its attributes do not conflict. -/
theorem parseBgpUpdate_order_iff {withdrawn nlri : Bytes} {attrs : List WireAttribute}
    (hfits : UpdateFits withdrawn attrs nlri) (hdistinct : (attrs.map WireAttribute.typeByte).Nodup) :
    (∀ attrs' : List WireAttribute, attrs'.Perm attrs →
      parseBgpUpdate (encodeUpdate withdrawn attrs' nlri) =
        parseBgpUpdate (encodeUpdate withdrawn attrs nlri)) ↔
    Undecodable withdrawn ∨ Undecodable nlri ∨ NoConflict attrs nlri := by
  cases hw : parsePrefixes parseIpv4Prefix withdrawn 0 with
  | error e =>
    refine iff_of_true (fun attrs' hperm => ?_) (.inl ⟨e, hw⟩)
    rw [parseBgpUpdate_sent (updateFits_perm hfits hperm), parseBgpUpdate_sent hfits, hw, error_bind,
      error_bind]
  | ok withdrawnPrefixes =>
    cases hn : parsePrefixes parseIpv4Prefix nlri 0 with
    | error e =>
      refine iff_of_true (fun attrs' hperm => ?_) (.inr (.inl ⟨e, hn⟩))
      rw [parseBgpUpdate_sent (updateFits_perm hfits hperm), parseBgpUpdate_sent hfits, hw, ok_bind,
        ok_bind, hn, error_bind, error_bind]
    | ok prefixes =>
      have hresult : ∀ attrs' : List WireAttribute, attrs'.Perm attrs →
          parseBgpUpdate (encodeUpdate withdrawn attrs' nlri) = .ok (withClassic nlri prefixes
            (walked (attrs'.map WireAttribute.parsed) { withdrawnPrefixes })).parsed := by
        intro attrs' hperm
        rw [parseBgpUpdate_sent (updateFits_perm hfits hperm), hw, ok_bind, hn, ok_bind]
      have hdecodable : ∀ {field : Bytes} {ps : List PrefixEntry},
          parsePrefixes parseIpv4Prefix field 0 = .ok ps → ¬Undecodable field := by
        rintro field ps hok ⟨e, herror⟩
        rw [hok] at herror
        cases herror
      constructor
      · intro h
        refine .inr (.inr (noConflict_of_same prefixes withdrawnPrefixes fun attrs' hperm => ?_))
        have hsame := h attrs' hperm
        rw [hresult attrs' hperm, hresult attrs (List.Perm.refl _)] at hsame
        exact Except.ok.inj hsame
      · rintro (hbad | hbad | h)
        · exact absurd hbad (hdecodable hw)
        · exact absurd hbad (hdecodable hn)
        · intro attrs' hperm
          rw [hresult attrs' hperm, hresult attrs (List.Perm.refl _),
            walked_perm hdistinct h hperm]

/-- ORIGIN and NEXT_HOP before a classic prefix. -/
theorem origin_nextHop_order_iff :
    (∀ attrs' : List WireAttribute, attrs'.Perm [⟨0x40, 1, [0]⟩, ⟨0x40, 3, [192, 0, 2, 1]⟩] →
      parseBgpUpdate (encodeUpdate [] attrs' [8, 10]) =
        parseBgpUpdate (encodeUpdate [] [⟨0x40, 1, [0]⟩, ⟨0x40, 3, [192, 0, 2, 1]⟩] [8, 10])) ↔
    Undecodable [] ∨ Undecodable [8, 10] ∨
      NoConflict [⟨0x40, 1, [0]⟩, ⟨0x40, 3, [192, 0, 2, 1]⟩] [8, 10] :=
  parseBgpUpdate_order_iff ⟨by decide, by decide⟩ (by decide)

/-- NEXT_HOP and an MP_REACH_NLRI with another next hop: the later one wins. -/
theorem attribute_order_matters :
    ¬ ∀ (withdrawn nlri : Bytes) (attrs attrs' : List WireAttribute),
      UpdateFits withdrawn attrs nlri → (attrs.map WireAttribute.typeByte).Nodup →
      attrs'.Perm attrs →
      parseBgpUpdate (encodeUpdate withdrawn attrs' nlri) =
        parseBgpUpdate (encodeUpdate withdrawn attrs nlri) := by
  intro h
  have hswap := h [] [] [⟨0x40, 3, [192, 0, 2, 1]⟩, ⟨0x80, 14, [0, 1, 1, 4, 192, 0, 2, 2, 0, 8, 10]⟩]
    [⟨0x80, 14, [0, 1, 1, 4, 192, 0, 2, 2, 0, 8, 10]⟩, ⟨0x40, 3, [192, 0, 2, 1]⟩]
    ⟨by decide, by decide⟩ (by decide) (List.Perm.swap _ _ _)
  have hnextHop := congrArg (fun u => u.toOption.bind ParsedBGPUpdate.nextHop) hswap
  revert hnextHop
  decide

end Pybmpmon.Protocol.AttributeOrder
