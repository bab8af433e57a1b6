import Pybmpmon.Protocol.RouteText
import Pybmpmon.Listener.KeyAgreement
import Pybmpmon.Database.StateRows

/-!
# EVPN routes and the rows they get

A row of `route_state` is found by the texts of a MAC/IP route, without its Ethernet Tag;
of the other route types the decoder keeps the type alone, which is no part of the key.
Two EVPN NLRIs get rows of their own exactly when the key tells them apart.
-/
namespace Pybmpmon.Listener.EvpnKeys

open Pybmpmon.Lib.ByteString Pybmpmon.Lib.Outcome Pybmpmon.Lib.KeyedTable Pybmpmon.Python
open Pybmpmon.Utils.Binary Pybmpmon.Protocol.Bmp Pybmpmon.Protocol.Bgp
open Pybmpmon.Protocol.BgpParser Pybmpmon.Protocol.BmpEncoding Pybmpmon.Protocol.NlriEncoding
open Pybmpmon.Protocol.RouteText
open Pybmpmon.Models.Route Pybmpmon.Listener.RouteMonitoring Pybmpmon.Listener.KeyAgreement
open Pybmpmon.Database.RouteState Pybmpmon.Database.BatchWriter Pybmpmon.Database.StateTable
open Pybmpmon.Database.StateRows

/-! ## EVPN NLRIs -/

/-- A MAC/IP Advertisement route of any distinguisher, with one or two labels. -/
structure MacIpNlri where
  rd : RdOctets
  esi : Bytes
  ethernetTag : Bytes
  macAddress : Bytes
  ipAddress : Option IpAddress
  labels : Bytes
  esi_size : esi.length = 10
  ethernetTag_size : ethernetTag.length = 4
  macAddress_size : macAddress.length = 6
  labels_size : labels.length = 3 ∨ labels.length = 6

def MacIpNlri.body (r : MacIpNlri) : Bytes :=
  r.rd.octets ++
    (r.esi ++ (r.ethernetTag ++ (48 :: (r.macAddress ++ (ipOctets r.ipAddress ++ r.labels)))))

/-- A well-formed EVPN NLRI; of the other types the body may be anything its length octet allows. -/
inductive EvpnNlri where
  | macIp (route : MacIpNlri)
  | other (routeType : UInt8) (body : Bytes) (type : routeType ≠ 2) (size : body.length < 256)

namespace EvpnNlri

def routeType : EvpnNlri → UInt8
  | macIp _ => 2
  | other routeType _ _ _ => routeType

def nlri : EvpnNlri → Nlri
  | macIp route => .mpEvpn 2 route.body
  | other routeType body _ _ => .mpEvpn routeType body

/-- What the decoder keeps. -/
def info : EvpnNlri → EvpnRouteInfo
  | macIp r => .macIp r.rd.text (colonHex r.esi) (some (colonHex r.macAddress)) r.ipAddress
  | other routeType _ _ _ => .other routeType.toNat

/-- Different routes: of different types, or MAC/IP routes that differ in what identifies one. -/
def Different : EvpnNlri → EvpnNlri → Prop
  | macIp r, macIp s => r.rd.octets ≠ s.rd.octets ∨ r.ethernetTag ≠ s.ethernetTag ∨
      r.macAddress ≠ s.macAddress ∨ r.ipAddress ≠ s.ipAddress
  | n, m => n.routeType ≠ m.routeType

/-- Routes the key has different values for: one is a MAC/IP route and the other is not, or they
differ in the Ethernet segment or an address, or in more of the distinguisher than its format. -/
def ToldApart : EvpnNlri → EvpnNlri → Prop
  | macIp r, macIp s => r.esi ≠ s.esi ∨ r.macAddress ≠ s.macAddress ∨ r.ipAddress ≠ s.ipAddress ∨
      r.rd.octets ≠ s.rd.octets ∧ ¬ RdOctets.SameNumbers r.rd s.rd
  | other .., other .. => False
  | _, _ => True

end EvpnNlri

theorem MacIpNlri.body_length (r : MacIpNlri) : 33 ≤ r.body.length ∧ r.body.length < 256 := by
  have hip := ipOctets_length r.ipAddress
  have hlabels := r.labels_size
  have hbody : r.body.length = 29 + (ipOctets r.ipAddress).length + r.labels.length := by
    simp only [body, List.length_append, List.length_cons, r.rd.octets_length, r.esi_size,
      r.ethernetTag_size, r.macAddress_size]
    omega
  omega

/-! ## The columns -/

/-- The decoder reads the whole NLRI and keeps `info`. -/
theorem parseEvpnNlri_nlri (n : EvpnNlri) :
    ∃ len, n.nlri.bytes.length = 2 + len ∧
      parseEvpnNlri n.nlri.bytes 0 = .ok (some n.info, 2 + len) := by
  cases n with
  | macIp r =>
    have hsize := r.body_length
    have hat := at_zero (EvpnNlri.macIp r).nlri.bytes
    have hbody := hat.tail.tail
    have hlength : (EvpnNlri.macIp r).nlri.bytes.length = 2 + r.body.length := by
      simp only [EvpnNlri.nlri, Nlri.bytes, List.length_cons]
      omega
    refine ⟨r.body.length, hlength, ?_⟩
    rw [parseEvpnNlri, if_neg (by omega), readUint8_at hat, ok_bind, readUint8_octet hat.tail hsize.2,
      ok_bind, if_neg (by omega), if_pos (by decide), if_neg (by omega),
      evpnMacIpRoute_fields r.ipAddress r.rd.octets_length r.esi_size r.ethernetTag_size
        r.macAddress_size (parseRouteDistinguisher_octets r.rd hbody) hbody, ok_bind]
    rfl
  | other routeType body type size =>
    have hat := at_zero (EvpnNlri.other routeType body type size).nlri.bytes
    have hlength : (EvpnNlri.other routeType body type size).nlri.bytes.length = 2 + body.length := by
      simp only [EvpnNlri.nlri, Nlri.bytes, List.length_cons]
      omega
    have htype : routeType.toNat ≠ 2 := fun h => type (UInt8.toNat_inj.mp h)
    refine ⟨body.length, hlength, ?_⟩
    rw [parseEvpnNlri, if_neg (by omega), readUint8_at hat, ok_bind, readUint8_octet hat.tail size,
      ok_bind, if_neg (by omega), if_neg htype]
    rfl

/-- The key of an EVPN route of a peer. -/
def keyOf (bmpPeerIp bgpPeerIp : IpAddress) (policyStage : PolicyStage) (route : EvpnRouteInfo) :
    RouteKey :=
  ⟨bmpPeerIp, bgpPeerIp, .evpn, route.getIpAddress.map hostPrefix, policyStage,
    coalesce (route.getRd none), coalesce (route.getEsi none), coalesce (route.getMacAddress none)⟩

/-- The key of the call for a record with the columns of an EVPN route. -/
theorem callKey_of_columns {route : RouteUpdate} {bmpPeerIp : IpAddress}
    {header : BMPPerPeerHeader} {info : EvpnRouteInfo}
    (h : rowColumns route = columnsOf bmpPeerIp header .evpn (.evpn info)) :
    callKey (stateCall (routeTuple route)) =
      keyOf bmpPeerIp header.peerAddress (policyStageOf header.peerFlags) info := by
  rw [rowColumns, columnsOf, RowColumns.mk.injEq] at h
  obtain ⟨hbmp, hbgp, hfamily, hcidr, hpolicy, hrd, hesi, hmac⟩ := h
  simp only [callKey, stateCall, routeTuple, evpnPart, hbmp, hbgp, hfamily, hcidr, hpolicy, hrd, hesi,
    hmac, if_pos]
  rfl

/-- The record queued for an announcement has the key of the route. -/
theorem announcement_key {header : BMPPerPeerHeader} (hheader : PerPeerHeaderFits header)
    (n : EvpnNlri) {s : Sending} (hs : s.Fits) (hparts : PartsFit (announceParts n.nlri s))
    (clock : Nat → Timestamp) (bmpPeerIp : IpAddress) :
    ∃ route, handleRouteMonitoring recorder clock
        (encodeRouteMonitoring header (updateOf (announceParts n.nlri s))) bmpPeerIp [] =
        (.ok (), [route]) ∧
      callKey (stateCall (routeTuple route)) =
        keyOf bmpPeerIp header.peerAddress (policyStageOf header.peerFlags) n.info := by
  obtain ⟨routeType, body, hn⟩ : ∃ routeType body, n.nlri = .mpEvpn routeType body := by
    cases n with
    | macIp r => exact ⟨2, r.body, rfl⟩
    | other routeType body type size => exact ⟨routeType, body, rfl⟩
  obtain ⟨len, hlen, hparse⟩ := parseEvpnNlri_nlri n
  rw [hn] at hlen hparse hparts ⊢
  have hbody : len = body.length := by
    simp only [Nlri.bytes, List.length_cons] at hlen
    omega
  subst hbody
  obtain ⟨route, hroute, hcolumns⟩ := @announce_mp (.mpEvpn routeType body) (.evpn n.info) header
    hheader s hs clock bmpPeerIp rfl (parseNlri_evpn hparse) (fun v => rfl) hparts
  exact ⟨route, hroute, callKey_of_columns hcolumns⟩

/-! ## What the key tells apart -/

theorem hostPrefix_inj {a b : IpAddress} (h : hostPrefix a = hostPrefix b) : a = b := by
  cases a with
  | v4 a =>
    cases b with
    | v4 b => exact congrArg Cidr.address h
    | v6 b => cases congrArg Cidr.address h
  | v6 a =>
    cases b with
    | v4 b => cases congrArg Cidr.address h
    | v6 b => exact congrArg Cidr.address h

theorem keyOf_eq_iff {bmpPeerIp bgpPeerIp : IpAddress} {policyStage : PolicyStage}
    {info info' : EvpnRouteInfo} :
    keyOf bmpPeerIp bgpPeerIp policyStage info = keyOf bmpPeerIp bgpPeerIp policyStage info' ↔
      info.getIpAddress.map hostPrefix = info'.getIpAddress.map hostPrefix ∧
        coalesce (info.getRd none) = coalesce (info'.getRd none) ∧
        coalesce (info.getEsi none) = coalesce (info'.getEsi none) ∧
        coalesce (info.getMacAddress none) = coalesce (info'.getMacAddress none) := by
  simp only [keyOf, RouteKey.mk.injEq, true_and]

theorem colonHex_eq_iff {a b : Bytes} {n : Nat} (ha : a.length = n + 1) (hb : b.length = n + 1) :
    colonHex a = colonHex b ↔ a = b := by
  have hne : ∀ {c : Bytes}, c.length = n + 1 → c ≠ [] := by
    rintro c hc rfl
    cases hc
  exact ⟨colonHex_inj (hne ha) (hne hb), congrArg colonHex⟩

/-- Two MAC/IP routes have one key exactly when they agree on the segment and the addresses and
their distinguishers have one text. -/
theorem macIp_key_iff (r s : MacIpNlri) (bmpPeerIp bgpPeerIp : IpAddress)
    (policyStage : PolicyStage) :
    keyOf bmpPeerIp bgpPeerIp policyStage (EvpnNlri.macIp r).info =
        keyOf bmpPeerIp bgpPeerIp policyStage (EvpnNlri.macIp s).info ↔
      r.ipAddress = s.ipAddress ∧
        (r.rd.octets = s.rd.octets ∨ RdOctets.SameNumbers r.rd s.rd) ∧ r.esi = s.esi ∧
        r.macAddress = s.macAddress := by
  have hip : r.ipAddress.map hostPrefix = s.ipAddress.map hostPrefix ↔
      r.ipAddress = s.ipAddress :=
    (Option.map_injective fun a b => hostPrefix_inj).eq_iff
  rw [keyOf_eq_iff, ← RdOctets.text_eq_iff, ← colonHex_eq_iff r.esi_size s.esi_size,
    ← colonHex_eq_iff r.macAddress_size s.macAddress_size, ← hip]
  rfl

/-- A MAC/IP route has a MAC address in its key, the other routes have none. -/
theorem macIp_other_key (r : MacIpNlri) (t : Nat) (bmpPeerIp bgpPeerIp : IpAddress)
    (policyStage : PolicyStage) :
    keyOf bmpPeerIp bgpPeerIp policyStage (EvpnNlri.macIp r).info ≠
      keyOf bmpPeerIp bgpPeerIp policyStage (.other t) := by
  intro h
  have hmac : colonHex r.macAddress = "" := (keyOf_eq_iff.mp h).2.2.2
  apply colonHex_ne_empty _ hmac
  intro hnil
  have hsize := r.macAddress_size
  rw [hnil] at hsize
  cases hsize

theorem key_ne_iff (n m : EvpnNlri) (bmpPeerIp bgpPeerIp : IpAddress)
    (policyStage : PolicyStage) :
    keyOf bmpPeerIp bgpPeerIp policyStage n.info ≠ keyOf bmpPeerIp bgpPeerIp policyStage m.info ↔
      EvpnNlri.ToldApart n m := by
  cases n with
  | macIp r =>
    cases m with
    | macIp s =>
      rw [Ne, macIp_key_iff, EvpnNlri.ToldApart]
      tauto
    | other => exact iff_of_true (macIp_other_key r _ _ _ _) trivial
  | other =>
    cases m with
    | macIp s => exact iff_of_true (macIp_other_key s _ _ _ _).symm trivial
    | other => exact iff_of_false (fun h => h rfl) id

/-! ## The rows -/

/-- A call of another key leaves the row of this one. -/
theorem row_other_call {p q : StateCall} (h : callKey p ≠ callKey q) (calls : List StateCall) :
    row rowKey (callKey p) (tableAfter (calls ++ [q])) =
      row rowKey (callKey p) (tableAfter calls) := by
  rw [tableAfter_concat]
  have hcases := call_cases (kept_tableAfter calls).nodup q
  generalize tableAfter calls = t at hcases ⊢
  rcases hcases with ⟨hinsert, _⟩ | ⟨_, a, r, b, rfl, hr, ⟨r', hupdate, hok⟩ | ⟨d, _, herror⟩⟩
  · have hnew : row rowKey (callKey p) [newRow q] = none := by
      apply row_eq_none.mpr
      intro x hx hk
      rw [List.mem_singleton.mp hx] at hk
      exact h hk.symm
    rw [applyCall, hinsert]
    simp only
    rw [row, List.find?_append]
    exact (congrArg _ hnew).trans Option.or_none
  · have hr' := writeRow_key hr hupdate
    rw [applyCall, hok]
    exact row_replace (fun hk => h (hk.symm.trans hr)) (fun hk => h (hk.symm.trans hr'))
  · rw [applyCall, herror]

/-- The two routes have different keys, and after any calls a call for one leaves the row of the
other as it was. -/
structure DifferentRows (p q : StateCall) : Prop where
  keys : callKey p ≠ callKey q
  left : ∀ calls, row rowKey (callKey p) (tableAfter (calls ++ [q])) =
    row rowKey (callKey p) (tableAfter calls)
  right : ∀ calls, row rowKey (callKey q) (tableAfter (calls ++ [p])) =
    row rowKey (callKey q) (tableAfter calls)

theorem differentRows_of_keys {p q : StateCall} (h : callKey p ≠ callKey q) : DifferentRows p q :=
  ⟨h, row_other_call h, row_other_call h.symm⟩

/-- Two EVPN NLRIs announced by one peer at one policy stage get different rows exactly when the
key tells them apart. -/
theorem differentRows_iff (n m : EvpnNlri) (headerN headerM : BMPPerPeerHeader)
    (hheaderN : PerPeerHeaderFits headerN) (hheaderM : PerPeerHeaderFits headerM)
    (hpeer : headerN.peerAddress = headerM.peerAddress)
    (hpolicy : policyStageOf headerN.peerFlags = policyStageOf headerM.peerFlags)
    (bmpPeerIp : IpAddress) (s t : Sending) (hs : s.Fits) (ht : t.Fits)
    (hpartsN : PartsFit (announceParts n.nlri s)) (hpartsM : PartsFit (announceParts m.nlri t))
    (clockN clockM : Nat → Timestamp) :
    ∃ N M,
      handleRouteMonitoring recorder clockN
        (encodeRouteMonitoring headerN (updateOf (announceParts n.nlri s))) bmpPeerIp [] =
        (.ok (), [N]) ∧
      handleRouteMonitoring recorder clockM
        (encodeRouteMonitoring headerM (updateOf (announceParts m.nlri t))) bmpPeerIp [] =
        (.ok (), [M]) ∧
      (DifferentRows (stateCall (routeTuple N)) (stateCall (routeTuple M)) ↔
        EvpnNlri.ToldApart n m) := by
  obtain ⟨N, hN, hkeyN⟩ := announcement_key hheaderN n hs hpartsN clockN bmpPeerIp
  obtain ⟨M, hM, hkeyM⟩ := announcement_key hheaderM m ht hpartsM clockM bmpPeerIp
  rw [← hpeer, ← hpolicy] at hkeyM
  have hkeys := key_ne_iff n m bmpPeerIp headerN.peerAddress (policyStageOf headerN.peerFlags)
  rw [← hkeyN, ← hkeyM] at hkeys
  exact ⟨N, M, hN, hM, fun h => hkeys.mp h.keys, fun h => differentRows_of_keys (hkeys.mpr h)⟩

/-- A MAC/IP route of the distinguisher 65000:100. -/
def sampleRoute (ethernetTag : Nat) : MacIpNlri where
  rd := .known (.twoOctetAs 65000 100) ⟨by decide, by decide⟩
  esi := List.replicate 10 0
  ethernetTag := beBytes 4 ethernetTag
  macAddress := [2, 0, 0, 0, 0, 1]
  ipAddress := none
  labels := [0, 16, 1]
  esi_size := rfl
  ethernetTag_size := beBytes_length 4 ethernetTag
  macAddress_size := rfl
  labels_size := Or.inl rfl

/-- An Inclusive Multicast Ethernet Tag route of the same distinguisher. -/
def sampleMulticast : EvpnNlri :=
  .other 3 [0, 0, 253, 232, 0, 0, 0, 100, 0, 0, 0, 0, 32, 10, 0, 0, 1] (by decide) (by decide)

/-- A MAC/IP route and the multicast route get different rows. -/
theorem differentRows_iff_types :
    ∃ N M,
      handleRouteMonitoring recorder (fun k => k)
        (encodeRouteMonitoring samplePeer (updateOf (announceParts
          (EvpnNlri.macIp (sampleRoute 0)).nlri sampleSending))) samplePeer.peerAddress [] =
        (.ok (), [N]) ∧
      handleRouteMonitoring recorder (fun k => k)
        (encodeRouteMonitoring samplePeer (updateOf (announceParts
          sampleMulticast.nlri sampleSending))) samplePeer.peerAddress [] = (.ok (), [M]) ∧
      DifferentRows (stateCall (routeTuple N)) (stateCall (routeTuple M)) := by
  obtain ⟨N, M, hN, hM, hrows⟩ := differentRows_iff (.macIp (sampleRoute 0)) sampleMulticast
    samplePeer samplePeer samplePeer_fits samplePeer_fits rfl rfl samplePeer.peerAddress
    sampleSending sampleSending sampleSending_fits sampleSending_fits ⟨by decide, by decide⟩
    ⟨by decide, by decide⟩ (fun k => k) (fun k => k)
  exact ⟨N, M, hN, hM, hrows.mpr trivial⟩

/-- Two routes that differ in the Ethernet Tag alone share a row. -/
theorem ethernetTags_one_row :
    EvpnNlri.Different (.macIp (sampleRoute 0)) (.macIp (sampleRoute 1)) ∧
    ∃ N M,
      handleRouteMonitoring recorder (fun k => k)
        (encodeRouteMonitoring samplePeer (updateOf (announceParts
          (EvpnNlri.macIp (sampleRoute 0)).nlri sampleSending))) samplePeer.peerAddress [] =
        (.ok (), [N]) ∧
      handleRouteMonitoring recorder (fun k => k)
        (encodeRouteMonitoring samplePeer (updateOf (announceParts
          (EvpnNlri.macIp (sampleRoute 1)).nlri sampleSending))) samplePeer.peerAddress [] =
        (.ok (), [M]) ∧
      ¬ DifferentRows (stateCall (routeTuple N)) (stateCall (routeTuple M)) := by
  obtain ⟨N, hN, hkeyN⟩ := announcement_key samplePeer_fits (.macIp (sampleRoute 0))
    sampleSending_fits ⟨by decide, by decide⟩ (fun k => k) samplePeer.peerAddress
  obtain ⟨M, hM, hkeyM⟩ := announcement_key samplePeer_fits (.macIp (sampleRoute 1))
    sampleSending_fits ⟨by decide, by decide⟩ (fun k => k) samplePeer.peerAddress
  constructor
  · exact Or.inr (Or.inl (by decide))
  · exact ⟨N, M, hN, hM, fun h => h.keys (hkeyN.trans hkeyM.symm)⟩

end Pybmpmon.Listener.EvpnKeys
