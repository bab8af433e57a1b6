import Pybmpmon.Protocol.DecoderErrors

/-!
# The attribute loop is a fold

A branch of the loop decodes first and assigns after, so a branch that raises
has written nothing, and the loop over the attributes is the fold of what each
of them writes. No decoder diverges, so the fold is total.
-/
namespace Pybmpmon.Protocol.UpdateWalk

open Pybmpmon.Lib.ByteString Pybmpmon.Lib.Outcome Pybmpmon.Lib.Scan Pybmpmon.Python
open Pybmpmon.Utils.Binary Pybmpmon.Protocol.Bgp Pybmpmon.Protocol.BgpParser
open Pybmpmon.Protocol.DecoderErrors

/-- The four EVPN variables, taken from the first route of an EVPN attribute. -/
def firstRouteWrites (afi safi : Nat) (routes : List PrefixEntry) (v : UpdateVars) : UpdateVars :=
  if afi = AddressFamilyIdentifier.l2vpn ∧ safi = SubsequentAddressFamilyIdentifier.evpn then
    match routes with
    | .evpn route :: _ =>
        { v with evpnRouteType := some route.routeType, evpnRd := route.getRd none,
                 evpnEsi := route.getEsi none, macAddress := route.getMacAddress none }
    | _ => v
  else v

def MpReach.writes (mp : MpReach) (v : UpdateVars) : UpdateVars :=
  let v := { v with afi := some mp.afi, safi := some mp.safi }
  let v := if mp.nextHop.isSome then { v with nextHop := mp.nextHop } else v
  let v := firstRouteWrites mp.afi mp.safi mp.prefixes v
  { v with prefixes := v.prefixes ++ mp.prefixes }

def MpUnreach.writes (mp : MpUnreach) (v : UpdateVars) : UpdateVars :=
  let v := { v with afi := some mp.afi, safi := some mp.safi, hasMpUnreach := true }
  let v := firstRouteWrites mp.afi mp.safi mp.prefixes v
  { v with withdrawnPrefixes := v.withdrawnPrefixes ++ mp.prefixes }

/-- What the branch of an attribute assigns once its decoder has returned. -/
def assigns (attr : BGPPathAttribute) : Except PyErr (UpdateVars → UpdateVars) :=
  match attr.typeCode with
  | .known .origin => (fun n v => { v with origin := some n }) <$> readUint8 attr.value 0
  | .known .asPath => (fun p v => { v with asPath := some p }) <$> parseAsPath attr.value
  | .known .nextHop =>
      if attr.value.length ≥ 4 then
        (fun a v => { v with nextHop := some (.v4 a) }) <$> ipv4Address (attr.value.take 4)
      else .ok id
  | .known .multiExitDisc => (fun n v => { v with med := some n }) <$> readUint32 attr.value 0
  | .known .localPref => (fun n v => { v with localPref := some n }) <$> readUint32 attr.value 0
  | .known .communities =>
      (fun c v => { v with communities := some c }) <$> parseCommunities attr.value
  | .known .extendedCommunities =>
      (fun c v => { v with extendedCommunities := some c }) <$> parseExtendedCommunities attr.value
  | .known .mpReachNlri => MpReach.writes <$> parseMpReachNlri attr.value
  | .known .mpUnreachNlri => MpUnreach.writes <$> parseMpUnreachNlri attr.value
  | _ => .ok id

/-- The attribute types the loop has a branch for. -/
def interpretedTypes : List BGPPathAttributeType :=
  [.origin, .asPath, .nextHop, .multiExitDisc, .localPref, .communities, .extendedCommunities,
    .mpReachNlri, .mpUnreachNlri]

theorem assigns_uninterpreted {attr : BGPPathAttribute} {raw : Nat}
    (htype : attr.typeCode = TypeCode.ofRaw raw) (h : ∀ t ∈ interpretedTypes, raw ≠ t.value) :
    assigns attr = .ok id := by
  rw [assigns, htype, TypeCode.ofRaw]
  cases hraw : BGPPathAttributeType.ofNat? raw with
  | none => rfl
  | some t =>
    have hvalue := BGPPathAttributeType.eq_value hraw
    by_cases hmem : t ∈ interpretedTypes
    · exact absurd hvalue (h t hmem)
    · cases t <;> first | rfl | exact absurd (by decide) hmem

/-- The outcome of a branch on the variables, when it decodes and then assigns. -/
def branchResult (x : Except PyErr (UpdateVars → UpdateVars)) (v : UpdateVars) :
    Except PyErr Unit × UpdateVars :=
  match x with
  | .ok write => (.ok (), write v)
  | .error e => (.error e, v)

private theorem run_decode {α : Type} (x : Except PyErr α) (f : α → Branch Unit)
    (write : α → UpdateVars → UpdateVars) (v : UpdateVars)
    (hf : ∀ a, (f a).run v = (.ok (), write a v)) :
    ((decode x >>= f).run) v = branchResult (write <$> x) v := by
  cases x with
  | error e => rfl
  | ok a => exact hf a

private theorem run_modify (write : UpdateVars → UpdateVars) (v : UpdateVars) :
    (modify write : Branch Unit).run v = (.ok (), write v) := rfl

private theorem run_seq {x y : Branch Unit} {v v' : UpdateVars} (h : x.run v = (.ok (), v')) :
    (do x; y : Branch Unit).run v = y.run v' := by
  show ExceptT.bindCont (fun _ => y) (x.run v).1 (x.run v).2 = y.run v'
  rw [h]
  rfl

private theorem run_firstRoute (afi safi : Nat) (routes : List PrefixEntry) (v : UpdateVars) :
    (assignFirstRoute afi safi routes).run v = (.ok (), firstRouteWrites afi safi routes v) := by
  unfold assignFirstRoute firstRouteWrites
  split
  · match routes with
    | [] => rfl
    | .cidr _ :: _ => rfl
    | .evpn _ :: _ => rfl
  · rfl

/-- A branch that raises has written nothing; one that returns has written its assignments. -/
theorem applyAttribute_run (attr : BGPPathAttribute) (v : UpdateVars) :
    (applyAttribute attr).run v = branchResult (assigns attr) v := by
  unfold applyAttribute assigns
  cases attr.typeCode with
  | placeholder raw => rfl
  | known t =>
    cases t with
    | origin => exact run_decode _ _ _ v (fun _ => run_modify _ v)
    | asPath => exact run_decode _ _ _ v (fun _ => run_modify _ v)
    | nextHop =>
      simp only
      split
      · exact run_decode _ _ _ v (fun _ => run_modify _ v)
      · rfl
    | multiExitDisc => exact run_decode _ _ _ v (fun _ => run_modify _ v)
    | localPref => exact run_decode _ _ _ v (fun _ => run_modify _ v)
    | communities => exact run_decode _ _ _ v (fun _ => run_modify _ v)
    | extendedCommunities => exact run_decode _ _ _ v (fun _ => run_modify _ v)
    | mpReachNlri =>
      refine run_decode _ _ _ v (fun mp => ?_)
      rw [run_seq (run_modify _ v)]
      cases hn : mp.nextHop with
      | none =>
        simp only [Option.isSome_none, Bool.false_eq_true, ↓reduceIte]
        rw [run_seq (run_firstRoute mp.afi mp.safi mp.prefixes _), run_modify]
        simp only [MpReach.writes, hn, Option.isSome_none, Bool.false_eq_true, ↓reduceIte]
      | some a =>
        simp only [Option.isSome_some, ↓reduceIte]
        rw [run_seq (run_modify _ _), run_seq (run_firstRoute mp.afi mp.safi mp.prefixes _),
          run_modify]
        simp only [MpReach.writes, hn, Option.isSome_some, ↓reduceIte]
    | mpUnreachNlri =>
      refine run_decode _ _ _ v (fun mp => ?_)
      rw [run_seq (run_modify _ v), run_seq (run_firstRoute mp.afi mp.safi mp.prefixes _),
        run_modify]
      rfl
    | atomicAggregate => rfl
    | aggregator => rfl
    | as4Path => rfl
    | as4Aggregator => rfl

/-- No decoder of the loop diverges: what it raises is caught. -/
theorem caught_assigns (attr : BGPPathAttribute) : Raises Caught (assigns attr) := by
  unfold assigns
  split
  · exact raises_map (caught_readUint8 _ _)
  · exact raises_map (caught_parseAsPath _)
  · exact raises_ite (fun _ => raises_map (caught_ipv4Address _)) (fun _ => raises_ok _)
  · exact raises_map (caught_readUint32 _ _)
  · exact raises_map (caught_readUint32 _ _)
  · exact raises_map (caught_parseCommunities _)
  · exact raises_map (caught_parseExtendedCommunities _)
  · exact raises_map (caught_of_raises (parseMpReachNlri_raises _))
  · exact raises_map (caught_of_raises (parseMpUnreachNlri_raises _))
  · exact raises_ok _

/-- What an attribute writes: nothing when its decoder raises. -/
def written (attr : BGPPathAttribute) : UpdateVars → UpdateVars :=
  match assigns attr with
  | .ok write => write
  | .error _ => id

theorem written_ok {attr : BGPPathAttribute} {write : UpdateVars → UpdateVars}
    (h : assigns attr = .ok write) : written attr = write := by
  rw [written, h]

theorem tryAttribute_eq (v : UpdateVars) (attr : BGPPathAttribute) :
    tryAttribute v attr = .ok (written attr v) := by
  have hrun := applyAttribute_run attr v
  rw [tryAttribute, written]
  cases ha : assigns attr with
  | ok write =>
    rw [ha] at hrun
    rw [hrun]
    rfl
  | error e =>
    rw [ha] at hrun
    have he : e.isException = true := caught_assigns attr e ha
    rw [hrun]
    simp only [branchResult, he, ↓reduceIte, id]

def walked (attrs : List BGPPathAttribute) (v : UpdateVars) : UpdateVars :=
  attrs.foldl (fun v attr => written attr v) v

theorem walkAttributes_eq (attrs : List BGPPathAttribute) (v : UpdateVars) :
    walkAttributes attrs v = .ok (walked attrs v) := by
  induction attrs generalizing v with
  | nil => rfl
  | cons attr attrs ih =>
    rw [walkAttributes, tryAttribute_eq, ok_bind, ih]
    rfl

theorem walked_append (attrs rest : List BGPPathAttribute) (v : UpdateVars) :
    walked (attrs ++ rest) v = walked rest (walked attrs v) := List.foldl_append

/-- Two states of the variables that agree on everything about routes. -/
structure SameRoutes (v v' : UpdateVars) : Prop where
  afi : v.afi = v'.afi
  safi : v.safi = v'.safi
  prefixes : v.prefixes = v'.prefixes
  withdrawnPrefixes : v.withdrawnPrefixes = v'.withdrawnPrefixes
  evpnRouteType : v.evpnRouteType = v'.evpnRouteType
  evpnRd : v.evpnRd = v'.evpnRd
  evpnEsi : v.evpnEsi = v'.evpnEsi
  macAddress : v.macAddress = v'.macAddress

theorem SameRoutes.refl (v : UpdateVars) : SameRoutes v v :=
  ⟨rfl, rfl, rfl, rfl, rfl, rfl, rfl, rfl⟩

theorem SameRoutes.trans {u v w : UpdateVars} (h : SameRoutes u v) (h' : SameRoutes v w) :
    SameRoutes u w :=
  ⟨h.afi.trans h'.afi, h.safi.trans h'.safi, h.prefixes.trans h'.prefixes,
    h.withdrawnPrefixes.trans h'.withdrawnPrefixes, h.evpnRouteType.trans h'.evpnRouteType,
    h.evpnRd.trans h'.evpnRd, h.evpnEsi.trans h'.evpnEsi, h.macAddress.trans h'.macAddress⟩

/-- An attribute that is not one of the two multiprotocol ones. -/
def NotMultiprotocol (attr : BGPPathAttribute) : Prop :=
  attr.typeCode ≠ .known .mpReachNlri ∧ attr.typeCode ≠ .known .mpUnreachNlri

private theorem map_keeps {α : Type} {x : Except PyErr α} {f : α → UpdateVars → UpdateVars}
    {write : UpdateVars → UpdateVars} (h : f <$> x = .ok write)
    (hf : ∀ a v, SameRoutes (f a v) v) (v : UpdateVars) : SameRoutes (write v) v := by
  cases x with
  | error e => cases h
  | ok a =>
    cases h
    exact hf a v

/-- Only the two multiprotocol attributes write to the variables about routes. -/
theorem written_keeps_routes {attr : BGPPathAttribute} (h : NotMultiprotocol attr)
    (v : UpdateVars) : SameRoutes (written attr v) v := by
  rw [written]
  cases hw : assigns attr with
  | error e => exact SameRoutes.refl v
  | ok write =>
    unfold assigns at hw
    split at hw
    · exact map_keeps hw (fun _ _ => ⟨rfl, rfl, rfl, rfl, rfl, rfl, rfl, rfl⟩) v
    · exact map_keeps hw (fun _ _ => ⟨rfl, rfl, rfl, rfl, rfl, rfl, rfl, rfl⟩) v
    · split at hw
      · exact map_keeps hw (fun _ _ => ⟨rfl, rfl, rfl, rfl, rfl, rfl, rfl, rfl⟩) v
      · cases hw
        exact SameRoutes.refl v
    · exact map_keeps hw (fun _ _ => ⟨rfl, rfl, rfl, rfl, rfl, rfl, rfl, rfl⟩) v
    · exact map_keeps hw (fun _ _ => ⟨rfl, rfl, rfl, rfl, rfl, rfl, rfl, rfl⟩) v
    · exact map_keeps hw (fun _ _ => ⟨rfl, rfl, rfl, rfl, rfl, rfl, rfl, rfl⟩) v
    · exact map_keeps hw (fun _ _ => ⟨rfl, rfl, rfl, rfl, rfl, rfl, rfl, rfl⟩) v
    · rename_i heq
      exact absurd heq h.1
    · rename_i heq
      exact absurd heq h.2
    · cases hw
      exact SameRoutes.refl v

theorem walked_keeps_routes {attrs : List BGPPathAttribute}
    (h : ∀ attr ∈ attrs, NotMultiprotocol attr) (v : UpdateVars) :
    SameRoutes (walked attrs v) v := by
  induction attrs generalizing v with
  | nil => exact SameRoutes.refl v
  | cons attr attrs ih =>
    have hrest := ih (fun a ha => h a (by simp [ha])) (written attr v)
    exact hrest.trans (written_keeps_routes (h attr (by simp)) v)

/-! ## The values an attribute supplies -/

def medOf (attr : BGPPathAttribute) : Option Nat :=
  if attr.typeCode = .known .multiExitDisc then (readUint32 attr.value 0).toOption else none

def localPrefOf (attr : BGPPathAttribute) : Option Nat :=
  if attr.typeCode = .known .localPref then (readUint32 attr.value 0).toOption else none

def asPathOf (attr : BGPPathAttribute) : Option (List Nat) :=
  if attr.typeCode = .known .asPath then (parseAsPath attr.value).toOption else none

def reachOf (attr : BGPPathAttribute) : Option MpReach :=
  if attr.typeCode = .known .mpReachNlri then (parseMpReachNlri attr.value).toOption else none

def unreachOf (attr : BGPPathAttribute) : Option MpUnreach :=
  if attr.typeCode = .known .mpUnreachNlri then (parseMpUnreachNlri attr.value).toOption else none

/-- An attribute sets the MED, the local preference and the AS path it supplies, and
appends the prefixes it supplies. -/
structure Supplies (attr : BGPPathAttribute) (v v' : UpdateVars) : Prop where
  med : v'.med = (medOf attr).or v.med
  localPref : v'.localPref = (localPrefOf attr).or v.localPref
  asPath : v'.asPath = (asPathOf attr).or v.asPath
  prefixes : v'.prefixes = v.prefixes ++ ((reachOf attr).map MpReach.prefixes).getD []
  withdrawnPrefixes : v'.withdrawnPrefixes =
    v.withdrawnPrefixes ++ ((unreachOf attr).map MpUnreach.prefixes).getD []

theorem written_map {attr : BGPPathAttribute} {α : Type} {x : Except PyErr α}
    {f : α → UpdateVars → UpdateVars} (h : assigns attr = f <$> x) (v : UpdateVars) :
    written attr v = (x.toOption.map fun a => f a v).getD v := by
  rw [written, h]
  cases x <;> rfl

/-! ## The whole message -/

/-- `parse_bgp_update` without its exceptional plumbing: the structure, the withdrawn
prefixes, the fold over the attributes and the classic NLRI field. -/
theorem parseBgpUpdate_eq (d : Bytes) :
    parseBgpUpdate d = (do
      let update ← parseBgpUpdateStructure d
      let withdrawn ← parsePrefixes parseIpv4Prefix update.withdrawnRoutes 0
      let vars ← parseClassicNlri update.nlri
        (walked update.pathAttributes { withdrawnPrefixes := withdrawn })
      .ok vars.parsed) := by
  unfold parseBgpUpdate
  simp only [walkAttributes_eq, ok_bind]

end Pybmpmon.Protocol.UpdateWalk
