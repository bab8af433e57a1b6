import Pybmpmon.Protocol.NlriEncoding
import Pybmpmon.Protocol.UpdateEncoding
import Pybmpmon.Protocol.UpdateWalk

/-!
# Path attributes as values

The attributes the loop of `parse_bgp_update` interprets, as values, with their
wire form. The loop writes for each of them what the value says, and nothing for
an attribute of a type it does not interpret.
-/
namespace Pybmpmon.Protocol.AttributeEncoding

open Pybmpmon.Lib.ByteString Pybmpmon.Lib.Outcome Pybmpmon.Python Pybmpmon.Utils.Binary
open Pybmpmon.Protocol.Bgp Pybmpmon.Protocol.BgpParser Pybmpmon.Protocol.UpdateWalk
open Pybmpmon.Protocol.ValueEncoding Pybmpmon.Protocol.NlriEncoding
open Pybmpmon.Protocol.UpdateEncoding

/-! ## The multiprotocol attributes -/

def mpReachValue (afi safi : Nat) (nextHop : Bytes) (reserved : UInt8) (nlri : Bytes) : Bytes :=
  beBytes 2 afi ++ (UInt8.ofNat safi :: UInt8.ofNat nextHop.length ::
    (nextHop ++ (reserved :: nlri)))

def mpUnreachValue (afi safi : Nat) (nlri : Bytes) : Bytes :=
  beBytes 2 afi ++ (UInt8.ofNat safi :: nlri)

theorem mpReachValue_at (afi safi : Nat) (nextHop : Bytes) (reserved : UInt8) (nlri : Bytes) :
    At (mpReachValue afi safi nextHop reserved nlri) (4 + nextHop.length + 1) nlri :=
  ((at_zero (mpReachValue afi safi nextHop reserved nlri)).advance_of
    (beBytes_length 2 afi)).tail.tail.advance.tail

theorem mpUnreachValue_at (afi safi : Nat) (nlri : Bytes) :
    At (mpUnreachValue afi safi nlri) 3 nlri :=
  ((at_zero (mpUnreachValue afi safi nlri)).advance_of (beBytes_length 2 afi)).tail

/-- MP_REACH_NLRI: the next hop and the routes are decoded from their own bytes. -/
theorem parseMpReachNlri_value (reserved : UInt8) (nlri : Bytes) {afi safi : Nat}
    {nextHop : Bytes} (hafi : afi < 2 ^ 16) (hsafi : safi < 256) (hnext : nextHop.length < 256) :
    parseMpReachNlri (mpReachValue afi safi nextHop reserved nlri) = (do
      let hop ← mpNextHop afi nextHop.length nextHop
      let prefixes ← parseNlri afi safi (mpReachValue afi safi nextHop reserved nlri)
        (4 + nextHop.length + 1)
      .ok ⟨afi, safi, hop, prefixes⟩) := by
  have hend := (mpReachValue_at afi safi nextHop reserved nlri).length
  have hat := at_zero (mpReachValue afi safi nextHop reserved nlri)
  have hs := hat.advance_of (beBytes_length 2 afi)
  have hn := hs.tail
  rw [parseMpReachNlri, if_neg (by omega), readUint16_beBytes hat hafi, ok_bind,
    readUint8_octet hs hsafi, ok_bind, readUint8_octet hn hnext, ok_bind, if_neg (by omega),
    readBytes_at hn.tail rfl, ok_bind]

theorem parseMpUnreachNlri_value (nlri : Bytes) {afi safi : Nat} (hafi : afi < 2 ^ 16)
    (hsafi : safi < 256) :
    parseMpUnreachNlri (mpUnreachValue afi safi nlri) = (do
      let prefixes ← parseNlri afi safi (mpUnreachValue afi safi nlri) 3
      .ok ⟨afi, safi, prefixes⟩) := by
  have hend := (mpUnreachValue_at afi safi nlri).length
  have hat := at_zero (mpUnreachValue afi safi nlri)
  have hs := hat.advance_of (beBytes_length 2 afi)
  rw [parseMpUnreachNlri, if_neg (by omega), readUint16_beBytes hat hafi, ok_bind,
    readUint8_octet hs hsafi, ok_bind]

/-- The routes of one multiprotocol attribute, all of one family. -/
inductive MpRoutes where
  | ipv4 (prefixes : List Ipv4Prefix)
  | ipv6 (prefixes : List Ipv6Prefix)
  | evpn (routes : List MacIpRoute)

namespace MpRoutes

def afi : MpRoutes → Nat
  | ipv4 _ => 1
  | ipv6 _ => 2
  | evpn _ => 25

def safi : MpRoutes → Nat
  | evpn _ => 70
  | _ => 1

def encode : MpRoutes → Bytes
  | ipv4 ps => ps.flatMap fun p => p.wire.encode
  | ipv6 ps => ps.flatMap fun p => p.wire.encode
  | evpn rs => rs.flatMap MacIpRoute.encode

/-- What the decoders return for the routes. -/
def entries : MpRoutes → List PrefixEntry
  | ipv4 ps => ps.map fun p => .cidr p.cidr
  | ipv6 ps => ps.map fun p => .cidr p.cidr
  | evpn rs => rs.map fun r => .evpn r.info

theorem afi_lt (r : MpRoutes) : r.afi < 2 ^ 16 := by cases r <;> simp [afi]

theorem safi_lt (r : MpRoutes) : r.safi < 256 := by cases r <;> simp [safi]

end MpRoutes

theorem ipv4Prefixes_at (ps : List Ipv4Prefix) {d : Bytes} {offset : Nat}
    (hat : At d offset (ps.flatMap fun p => p.wire.encode)) :
    parsePrefixes parseIpv4Prefix d offset = .ok (ps.map fun p => .cidr p.cidr) := by
  have hwire : At d offset ((ps.map Ipv4Prefix.wire).flatMap WirePrefix.encode) := by
    rwa [List.flatMap_map]
  have hparse := parseIpv4Prefixes_at (ps.map Ipv4Prefix.wire) hwire
  simpa only [List.map_map, Function.comp_def, Ipv4Prefix.wire_ipv4] using hparse

theorem parseNlri_at (r : MpRoutes) {d : Bytes} {offset : Nat} (hat : At d offset r.encode) :
    parseNlri r.afi r.safi d offset = .ok r.entries := by
  rw [parseNlri]
  cases r with
  | ipv4 ps =>
    rw [if_pos ⟨rfl, rfl⟩]
    exact ipv4Prefixes_at ps hat
  | ipv6 ps =>
    rw [if_neg (by simp [MpRoutes.afi, AddressFamilyIdentifier.ipv4]), if_pos ⟨rfl, rfl⟩]
    have hwire : At d offset ((ps.map Ipv6Prefix.wire).flatMap WirePrefix.encode) := by
      rwa [List.flatMap_map]
    have hparse := parseIpv6Prefixes_at (ps.map Ipv6Prefix.wire) hwire
    simpa only [List.map_map, Function.comp_def, Ipv6Prefix.wire_ipv6, MpRoutes.entries]
      using hparse
  | evpn rs =>
    rw [if_neg (by simp [MpRoutes.afi, AddressFamilyIdentifier.ipv4]),
      if_neg (by simp [MpRoutes.afi, AddressFamilyIdentifier.ipv6]), if_pos ⟨rfl, rfl⟩]
    exact parseEvpnRoutes_at rs hat

/-- A next hop that goes with the routes: an IPv4 address for IPv4, an IPv6 address with
or without a link-local one behind it for IPv6, either for EVPN. -/
def NextHopFits (r : MpRoutes) (nextHop : IpAddress) (linkLocal : Bytes) : Prop :=
  match r, nextHop with
  | .ipv4 _, .v4 _ => linkLocal = []
  | .ipv6 _, .v6 _ => linkLocal.length = 0 ∨ linkLocal.length = 16
  | .evpn _, _ => linkLocal = []
  | _, _ => False

theorem mpNextHop_fits {r : MpRoutes} {nextHop : IpAddress} {linkLocal : Bytes}
    (h : NextHopFits r nextHop linkLocal) :
    mpNextHop r.afi (nextHop.packed ++ linkLocal).length (nextHop.packed ++ linkLocal) =
      .ok (some nextHop) := by
  rw [mpNextHop]
  cases r with
  | ipv4 ps =>
    cases nextHop with
    | v6 a => exact h.elim
    | v4 a =>
      have hnil : linkLocal = [] := h
      simp [MpRoutes.afi, AddressFamilyIdentifier.ipv4, IpAddress.packed, hnil, a.size,
        List.take_of_length_le, ipv4Address_ok]
  | ipv6 ps =>
    cases nextHop with
    | v4 a => exact h.elim
    | v6 a =>
      have htake : (a.packed ++ linkLocal).take 16 = a.packed := List.take_left' a.size
      simp [MpRoutes.afi, AddressFamilyIdentifier.ipv4, AddressFamilyIdentifier.ipv6,
        IpAddress.packed, a.size, htake, ipv6Address_ok]
  | evpn rs =>
    cases nextHop with
    | v4 a =>
      have hnil : linkLocal = [] := h
      simp [MpRoutes.afi, AddressFamilyIdentifier.ipv4, AddressFamilyIdentifier.ipv6,
        AddressFamilyIdentifier.l2vpn, IpAddress.packed, hnil, a.size, List.take_of_length_le,
        ipv4Address_ok]
    | v6 a =>
      have hnil : linkLocal = [] := h
      simp [MpRoutes.afi, AddressFamilyIdentifier.ipv4, AddressFamilyIdentifier.ipv6,
        AddressFamilyIdentifier.l2vpn, IpAddress.packed, hnil, a.size, List.take_of_length_le,
        ipv6Address_ok]

theorem nextHop_length {r : MpRoutes} {nextHop : IpAddress} {linkLocal : Bytes}
    (h : NextHopFits r nextHop linkLocal) : (nextHop.packed ++ linkLocal).length < 256 := by
  have hpacked : nextHop.packed.length ≤ 16 := by
    cases nextHop with
    | v4 a => simp [IpAddress.packed, a.size]
    | v6 a => simp [IpAddress.packed, a.size]
  have hlink : linkLocal.length ≤ 16 := by
    cases r with
    | ipv4 ps =>
      cases nextHop with
      | v4 a =>
        have hnil : linkLocal = [] := h
        simp [hnil]
      | v6 a => exact h.elim
    | ipv6 ps =>
      cases nextHop with
      | v4 a => exact h.elim
      | v6 a =>
        have hsize : linkLocal.length = 0 ∨ linkLocal.length = 16 := h
        omega
    | evpn rs =>
      have hnil : linkLocal = [] := by cases nextHop <;> exact h
      simp [hnil]
  rw [List.length_append]
  omega

/-! ## Attributes -/

inductive Attribute where
  | origin (value : UInt8)
  | asPath (segments : List (WireSegment 4))
  | nextHopAttr (address : IPv4Address)
  | multiExitDisc (value : Nat)
  | localPref (value : Nat)
  | communities (values : List WireCommunity)
  | mpReachNlri (nextHop : IpAddress) (linkLocal : Bytes) (reserved : UInt8) (routes : MpRoutes)
  | mpUnreachNlri (routes : MpRoutes)
  | uninterpreted (typeByte : UInt8) (value : Bytes)

namespace Attribute

def Fits : Attribute → Prop
  | multiExitDisc value => value < 2 ^ 32
  | localPref value => value < 2 ^ 32
  | mpReachNlri nextHop linkLocal _ routes => NextHopFits routes nextHop linkLocal
  | uninterpreted typeByte _ => ∀ t ∈ interpretedTypes, typeByte.toNat ≠ t.value
  | _ => True

def typeByte : Attribute → UInt8
  | origin _ => 1
  | asPath _ => 2
  | nextHopAttr _ => 3
  | multiExitDisc _ => 4
  | localPref _ => 5
  | communities _ => 8
  | mpReachNlri .. => 14
  | mpUnreachNlri _ => 15
  | uninterpreted t _ => t

def value : Attribute → Bytes
  | origin v => [v]
  | asPath segments => segments.flatMap WireSegment.encode
  | nextHopAttr a => a.packed
  | multiExitDisc v => beBytes 4 v
  | localPref v => beBytes 4 v
  | communities cs => encodeCommunities cs
  | mpReachNlri nextHop linkLocal reserved r =>
      mpReachValue r.afi r.safi (nextHop.packed ++ linkLocal) reserved r.encode
  | mpUnreachNlri r => mpUnreachValue r.afi r.safi r.encode
  | uninterpreted _ v => v

/-- The attribute under a flags octet. -/
def wire (flags : UInt8) (a : Attribute) : WireAttribute := ⟨flags, a.typeByte, a.value⟩

/-- What the attribute loop does for the attribute. -/
def applied (a : Attribute) (v : UpdateVars) : UpdateVars :=
  match a with
  | origin value => { v with origin := some value.toNat }
  | asPath segments => { v with asPath := some (segments.flatMap WireSegment.counted) }
  | nextHopAttr a => { v with nextHop := some (.v4 a) }
  | multiExitDisc value => { v with med := some value }
  | localPref value => { v with localPref := some value }
  | communities cs => { v with communities := some (cs.map WireCommunity.text) }
  | mpReachNlri nextHop _ _ r => MpReach.writes ⟨r.afi, r.safi, some nextHop, r.entries⟩ v
  | mpUnreachNlri r => MpUnreach.writes ⟨r.afi, r.safi, r.entries⟩ v
  | uninterpreted _ _ => v

end Attribute

/-- A value of four octets is read as its number. -/
theorem readUint32_value {value : Nat} (h : value < 2 ^ 32) :
    readUint32 (beBytes 4 value) 0 = .ok value := by
  have hat : At (beBytes 4 value) 0 (beBytes 4 value ++ []) := by
    rw [List.append_nil]
    exact at_zero _
  exact readUint32_beBytes hat h

theorem assigns_wire {a : Attribute} (hfits : a.Fits) (flags : UInt8) :
    assigns (a.wire flags).parsed = .ok a.applied := by
  cases a with
  | origin value =>
    show _ <$> readUint8 [value] 0 = _
    rw [readUint8_at (at_zero [value])]
    rfl
  | asPath segments =>
    show _ <$> parseAsPath (segments.flatMap WireSegment.encode) = _
    rw [parseAsPath_written fun _ _ _ => asSize_four (Nat.le_add_right _ _)]
    rfl
  | nextHopAttr address =>
    have htake : address.packed.take 4 = address.packed :=
      List.take_of_length_le (by rw [address.size])
    show (if address.packed.length ≥ 4 then _ <$> ipv4Address (address.packed.take 4)
      else .ok id) = _
    rw [if_pos (by rw [address.size]), htake, ipv4Address_ok address.size]
    rfl
  | multiExitDisc value =>
    show _ <$> readUint32 (beBytes 4 value) 0 = _
    rw [readUint32_value hfits]
    rfl
  | localPref value =>
    show _ <$> readUint32 (beBytes 4 value) 0 = _
    rw [readUint32_value hfits]
    rfl
  | communities values =>
    show _ <$> parseCommunities (encodeCommunities values) = _
    rw [parseCommunities_encode]
    rfl
  | mpReachNlri nextHop linkLocal reserved routes =>
    have hparse := parseMpReachNlri_value reserved routes.encode
      routes.afi_lt routes.safi_lt (nextHop_length hfits)
    rw [mpNextHop_fits hfits, ok_bind, parseNlri_at routes (mpReachValue_at _ _ _ _ _), ok_bind]
      at hparse
    show MpReach.writes <$> parseMpReachNlri _ = _
    rw [Attribute.wire, WireAttribute.parsed, Attribute.value, hparse]
    rfl
  | mpUnreachNlri routes =>
    have hparse := parseMpUnreachNlri_value routes.encode routes.afi_lt routes.safi_lt
    rw [parseNlri_at routes (mpUnreachValue_at _ _ _), ok_bind] at hparse
    show MpUnreach.writes <$> parseMpUnreachNlri _ = _
    rw [Attribute.wire, WireAttribute.parsed, Attribute.value, hparse]
    rfl
  | uninterpreted typeByte value => exact assigns_uninterpreted rfl hfits

/-- The loop over sent attributes does what the attributes say, one after the other. -/
theorem walked_wire (sent : List (UInt8 × Attribute)) (hfits : ∀ a ∈ sent, a.2.Fits)
    (v : UpdateVars) :
    walked (sent.map fun a => (a.2.wire a.1).parsed) v =
      (sent.map Prod.snd).foldl (fun v a => a.applied v) v := by
  induction sent generalizing v with
  | nil => rfl
  | cons a sent ih =>
    have hwritten := written_ok (assigns_wire (hfits a (by simp)) a.1)
    have hrest := ih (fun b hb => hfits b (by simp [hb])) (a.2.applied v)
    rw [walked] at hrest ⊢
    rw [List.map_cons, List.foldl_cons, hwritten, hrest, List.map_cons, List.foldl_cons]

/-! ## The whole message -/

def encodePrefixes (ps : List (WirePrefix 32)) : Bytes := ps.flatMap WirePrefix.encode

theorem parsePrefixes_encode (ps : List (WirePrefix 32)) :
    parsePrefixes parseIpv4Prefix (encodePrefixes ps) 0 = .ok (ps.map fun p => .cidr p.ipv4) :=
  parseIpv4Prefixes_at ps (at_zero _)

/-- What the classic NLRI field adds to the variables. -/
def nlriWrites (ps : List (WirePrefix 32)) (v : UpdateVars) : UpdateVars :=
  if ps = [] then v
  else { v with
    afi := some AddressFamilyIdentifier.ipv4
    safi := some SubsequentAddressFamilyIdentifier.unicast
    prefixes := v.prefixes ++ ps.map fun p => .cidr p.ipv4 }

theorem parseClassicNlri_encode (ps : List (WirePrefix 32)) (v : UpdateVars) :
    parseClassicNlri (encodePrefixes ps) v = .ok (nlriWrites ps v) := by
  rw [parseClassicNlri, nlriWrites]
  cases ps with
  | nil => rfl
  | cons p ps =>
    have hpos : (encodePrefixes (p :: ps)).length > 0 := by
      simp [encodePrefixes, WirePrefix.encode]
    rw [if_pos hpos, if_neg (List.cons_ne_nil p ps), parsePrefixes_encode, ok_bind]

/-- A well-formed UPDATE is accepted, and the result is what its parts write. -/
theorem parseBgpUpdate_encode (withdrawn nlri : List (WirePrefix 32)) {attrs : List WireAttribute}
    (hfits : UpdateFits (encodePrefixes withdrawn) attrs (encodePrefixes nlri)) :
    parseBgpUpdate (encodeUpdate (encodePrefixes withdrawn) attrs (encodePrefixes nlri)) =
      .ok (nlriWrites nlri (walked (attrs.map WireAttribute.parsed)
        { withdrawnPrefixes := withdrawn.map fun p => .cidr p.ipv4 })).parsed := by
  rw [parseBgpUpdate_eq, parseBgpUpdateStructure_encode hfits, ok_bind]
  simp only
  rw [parsePrefixes_encode, ok_bind, parseClassicNlri_encode, ok_bind]

end Pybmpmon.Protocol.AttributeEncoding
