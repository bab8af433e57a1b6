import Pybmpmon.Protocol.ValueEncoding

/-!
# Routes as values, and the attributes that carry them

Prefixes with zero host bits, EVPN MAC/IP routes and the two multiprotocol
attributes, as values a sender would start from. Each is written in one way and
read back as itself.
-/
namespace Pybmpmon.Protocol.NlriEncoding

open Pybmpmon.Lib.ByteString Pybmpmon.Lib.Outcome Pybmpmon.Lib.Scan Pybmpmon.Python
open Pybmpmon.Utils.Binary Pybmpmon.Protocol.Bgp Pybmpmon.Protocol.BgpParser
open Pybmpmon.Protocol.DecoderErrors Pybmpmon.Protocol.ValueEncoding

/-! ## Canonical prefixes -/

/-- With zero host bits, the octets that are not sent are zero. -/
theorem unsent_octets_zero {octets prefixLen : Nat} {packed : Bytes} (hsize : packed.length = octets)
    (hle : prefixLen ≤ 8 * octets) (hzero : beNat packed % 2 ^ (8 * octets - prefixLen) = 0) :
    packed.take ((prefixLen + 7) / 8) ++ List.replicate (octets - (prefixLen + 7) / 8) 0 =
      packed := by
  have hdvd : 256 ^ (packed.length - (prefixLen + 7) / 8) ∣ 2 ^ (8 * octets - prefixLen) := by
    rw [show 256 = 2 ^ 8 from rfl, ← Nat.pow_mul]
    exact Nat.pow_dvd_pow 2 (by omega)
  have htail : beNat packed % 256 ^ (packed.length - (prefixLen + 7) / 8) = 0 :=
    Nat.mod_eq_zero_of_dvd (hdvd.trans (Nat.dvd_of_mod_eq_zero hzero))
  have hdrop := drop_eq_zeros htail
  rw [hsize] at hdrop
  rw [← hdrop, List.take_append_drop]

theorem sent_octets_length {octets prefixLen : Nat} {packed : Bytes} (hsize : packed.length = octets)
    (hle : prefixLen ≤ 8 * octets) :
    (packed.take ((prefixLen + 7) / 8)).length = (prefixLen + 7) / 8 := by
  rw [List.length_take]
  omega

/-- An IPv4 prefix with zero host bits. -/
structure Ipv4Prefix where
  address : IPv4Address
  prefixLen : Nat
  fits : prefixLen ≤ 32
  canonical : beNat address.packed % 2 ^ (32 - prefixLen) = 0

namespace Ipv4Prefix

def cidr (p : Ipv4Prefix) : Cidr := ⟨.v4 p.address, p.prefixLen, p.fits⟩

/-- What is sent: the length and the octets that hold its bits. -/
def wire (p : Ipv4Prefix) : WirePrefix 32 :=
  ⟨p.prefixLen, p.address.packed.take ((p.prefixLen + 7) / 8), p.fits,
    sent_octets_length p.address.size p.fits⟩

theorem wire_ipv4 (p : Ipv4Prefix) : p.wire.ipv4 = p.cidr := by
  have h := unsent_octets_zero p.address.size p.fits p.canonical
  simp only [wire, WirePrefix.ipv4, cidr, h]

end Ipv4Prefix

/-- 10.0.0.0/8, for use in examples. -/
def samplePrefix : Ipv4Prefix := ⟨.ofOctets 10 0 0 0, 8, by decide, by decide⟩

/-- An IPv6 prefix with zero host bits. -/
structure Ipv6Prefix where
  address : IPv6Address
  prefixLen : Nat
  fits : prefixLen ≤ 128
  canonical : beNat address.packed % 2 ^ (128 - prefixLen) = 0

namespace Ipv6Prefix

def cidr (p : Ipv6Prefix) : Cidr := ⟨.v6 p.address, p.prefixLen, p.fits⟩

def wire (p : Ipv6Prefix) : WirePrefix 128 :=
  ⟨p.prefixLen, p.address.packed.take ((p.prefixLen + 7) / 8), p.fits,
    sent_octets_length p.address.size p.fits⟩

theorem wire_ipv6 (p : Ipv6Prefix) : p.wire.ipv6 = p.cidr := by
  have h := unsent_octets_zero p.address.size p.fits p.canonical
  simp only [wire, WirePrefix.ipv6, cidr, h]

end Ipv6Prefix

/-! ## EVPN MAC/IP routes -/

/-- The three route distinguisher formats, with their administrator and assigned fields. -/
inductive RouteDistinguisher where
  | twoOctetAs (admin assigned : Nat)
  | ipv4 (admin : IPv4Address) (assigned : Nat)
  | fourOctetAs (admin assigned : Nat)
  deriving DecidableEq, Repr

namespace RouteDistinguisher

def Fits : RouteDistinguisher → Prop
  | twoOctetAs admin assigned => admin < 2 ^ 16 ∧ assigned < 2 ^ 32
  | ipv4 _ assigned => assigned < 2 ^ 16
  | fourOctetAs admin assigned => admin < 2 ^ 32 ∧ assigned < 2 ^ 16

def encode : RouteDistinguisher → Bytes
  | twoOctetAs admin assigned => beBytes 2 0 ++ (beBytes 2 admin ++ beBytes 4 assigned)
  | ipv4 admin assigned => beBytes 2 1 ++ (admin.packed ++ beBytes 2 assigned)
  | fourOctetAs admin assigned => beBytes 2 2 ++ (beBytes 4 admin ++ beBytes 2 assigned)

def text : RouteDistinguisher → String
  | twoOctetAs admin assigned => s!"{admin}:{assigned}"
  | ipv4 admin assigned => s!"{admin.str}:{assigned}"
  | fourOctetAs admin assigned => s!"{admin}:{assigned}"

theorem encode_length (rd : RouteDistinguisher) : rd.encode.length = 8 := by
  cases rd with
  | ipv4 admin assigned => simp [encode, admin.size]
  | _ => simp [encode]

end RouteDistinguisher

theorem parseRouteDistinguisher_at {d s : Bytes} {offset : Nat} {rd : RouteDistinguisher}
    (hfits : rd.Fits) (hat : At d offset (rd.encode ++ s)) :
    parseRouteDistinguisher d offset = .ok rd.text := by
  have hl := hat.length
  rw [List.length_append, rd.encode_length] at hl
  rw [parseRouteDistinguisher, if_neg (by omega)]
  cases rd with
  | twoOctetAs admin assigned =>
    simp only [RouteDistinguisher.encode, List.append_assoc] at hat
    have hadmin := hat.advance_of (beBytes_length 2 0)
    rw [readUint16_beBytes hat (by decide), ok_bind, if_pos rfl,
      readUint16_beBytes hadmin hfits.1, ok_bind,
      readUint32_beBytes (hadmin.advance_of (beBytes_length 2 admin)) hfits.2, ok_bind]
    rfl
  | ipv4 admin assigned =>
    simp only [RouteDistinguisher.encode, List.append_assoc] at hat
    have hadmin := hat.advance_of (beBytes_length 2 1)
    rw [readUint16_beBytes hat (by decide), ok_bind, if_neg (by decide), if_pos rfl,
      show (4 : Int) = (4 : Nat) from rfl, readBytes_at hadmin admin.size, ok_bind,
      ipv4Address_ok admin.size, ok_bind,
      readUint16_beBytes (hadmin.advance_of admin.size) hfits, ok_bind]
    rfl
  | fourOctetAs admin assigned =>
    simp only [RouteDistinguisher.encode, List.append_assoc] at hat
    have hadmin := hat.advance_of (beBytes_length 2 2)
    rw [readUint16_beBytes hat (by decide), ok_bind, if_neg (by decide), if_neg (by decide),
      if_pos rfl, readUint32_beBytes hadmin hfits.1, ok_bind,
      readUint16_beBytes (hadmin.advance_of (beBytes_length 4 admin)) hfits.2, ok_bind]
    rfl

/-- The length octet of an address field, in bits, and its octets. -/
def ipOctets : Option IpAddress → Bytes
  | none => [0]
  | some (.v4 a) => 32 :: a.packed
  | some (.v6 a) => 128 :: a.packed

theorem ipOctets_length (ipAddress : Option IpAddress) :
    1 ≤ (ipOctets ipAddress).length ∧ (ipOctets ipAddress).length ≤ 17 := by
  unfold ipOctets
  cases ipAddress with
  | none => decide
  | some a =>
    cases a with
    | v4 a => simp [a.size]
    | v6 a => simp [a.size]

/-- A MAC/IP advertisement: the address is absent, IPv4 or IPv6, and one or two
three-octet labels follow it. -/
structure MacIpRoute where
  rd : RouteDistinguisher
  esi : Bytes
  ethernetTag : Bytes
  macAddress : Bytes
  ipAddress : Option IpAddress
  labels : Bytes
  rd_fits : rd.Fits
  esi_size : esi.length = 10
  ethernetTag_size : ethernetTag.length = 4
  macAddress_size : macAddress.length = 6
  labels_size : labels.length = 3 ∨ labels.length = 6

namespace MacIpRoute

def body (r : MacIpRoute) : Bytes :=
  r.rd.encode ++ (r.esi ++ (r.ethernetTag ++ (48 :: (r.macAddress ++ (ipOctets r.ipAddress ++ r.labels)))))

def encode (r : MacIpRoute) : Bytes := 2 :: UInt8.ofNat r.body.length :: r.body

/-- The dict the decoder returns for the route. -/
def info (r : MacIpRoute) : EvpnRouteInfo :=
  .macIp r.rd.text (colonHex r.esi) (some (colonHex r.macAddress)) r.ipAddress

theorem body_length (r : MacIpRoute) : 33 ≤ r.body.length ∧ r.body.length < 256 := by
  have hip := ipOctets_length r.ipAddress
  have hlabels := r.labels_size
  have hbody : r.body.length = 29 + (ipOctets r.ipAddress).length + r.labels.length := by
    simp only [body, List.length_append, List.length_cons, r.rd.encode_length, r.esi_size,
      r.ethernetTag_size, r.macAddress_size]
    omega
  omega

end MacIpRoute

theorem evpnIpAddress_at {d s : Bytes} {offset : Nat} (ipAddress : Option IpAddress)
    (hat : At d offset (ipOctets ipAddress ++ s)) :
    (do let ipLen ← readUint8 d offset
        evpnIpAddress d ipLen (offset + 1)) = .ok ipAddress := by
  cases ipAddress with
  | none =>
    rw [readUint8_at hat, ok_bind]
    rfl
  | some a =>
    cases a with
    | v4 a =>
      simp only [ipOctets, List.cons_append] at hat
      have hl := hat.tail.length
      rw [List.length_append, a.size] at hl
      rw [readUint8_at hat, ok_bind, evpnIpAddress, if_pos ⟨rfl, by omega⟩,
        show (4 : Int) = (4 : Nat) from rfl, readBytes_at hat.tail a.size, ok_bind,
        ipv4Address_ok a.size, ok_bind]
    | v6 a =>
      simp only [ipOctets, List.cons_append] at hat
      have hl := hat.tail.length
      rw [List.length_append, a.size] at hl
      rw [readUint8_at hat, ok_bind, evpnIpAddress, if_neg (by simp), if_pos ⟨rfl, by omega⟩,
        show (16 : Int) = (16 : Nat) from rfl, readBytes_at hat.tail a.size, ok_bind,
        ipv6Address_ok a.size, ok_bind]

/-- A MAC/IP body, whatever the distinguisher is read as. -/
theorem evpnMacIpRoute_fields {d s rd esi ethernetTag macAddress : Bytes} {offset : Nat}
    {text : String} (ipAddress : Option IpAddress) (hrd : rd.length = 8) (hesi : esi.length = 10)
    (htag : ethernetTag.length = 4) (hmac : macAddress.length = 6)
    (htext : parseRouteDistinguisher d offset = .ok text)
    (hat : At d offset (rd ++ (esi ++ (ethernetTag ++ (48 :: (macAddress ++
      (ipOctets ipAddress ++ s))))))) :
    evpnMacIpRoute d offset = .ok (.macIp text (colonHex esi) (some (colonHex macAddress)) ipAddress) := by
  have hesiAt := hat.advance_of hrd
  have htagAt := hesiAt.advance_of hesi
  have hmacLen := htagAt.advance_of htag
  have hmacAt := hmacLen.tail
  have hip := hmacAt.advance_of hmac
  have hl := hmacAt.length
  have hle := hesiAt.length
  rw [List.length_append, hmac] at hl
  rw [List.length_append, hesi] at hle
  rw [evpnMacIpRoute, htext, ok_bind]
  simp only
  rw [parseEthernetSegmentId, if_neg (by omega), show (10 : Int) = (10 : Nat) from rfl,
    readBytes_at hesiAt hesi, ok_bind, ok_bind, readUint8_at hmacLen, ok_bind,
    evpnMacAddress, if_pos ⟨rfl, by omega⟩, show (6 : Int) = (6 : Nat) from rfl,
    readBytes_at hmacAt hmac, ok_bind, ok_bind]
  simp only
  obtain ⟨ipLen, hlen, haddr⟩ := bind_ok_iff.mp (evpnIpAddress_at ipAddress hip)
  rw [hlen, ok_bind, haddr, ok_bind]

theorem evpnMacIpRoute_at {d s : Bytes} {offset : Nat} (r : MacIpRoute)
    (hat : At d offset (r.body ++ s)) : evpnMacIpRoute d offset = .ok r.info := by
  simp only [MacIpRoute.body, List.append_assoc, List.cons_append] at hat
  exact evpnMacIpRoute_fields r.ipAddress r.rd.encode_length r.esi_size r.ethernetTag_size
    r.macAddress_size (parseRouteDistinguisher_at r.rd_fits hat) hat

theorem parseEvpnNlri_at {d s : Bytes} {offset : Nat} (r : MacIpRoute)
    (hat : At d offset (r.encode ++ s)) :
    parseEvpnNlri d offset = .ok (some r.info, r.encode.length) := by
  have hl := hat.length
  have hb := r.body_length
  have hr : r.encode.length = 2 + r.body.length := by simp [MacIpRoute.encode]; omega
  rw [List.length_append] at hl
  rw [MacIpRoute.encode, List.cons_append, List.cons_append] at hat
  rw [parseEvpnNlri, if_neg (by omega), readUint8_at hat, ok_bind,
    readUint8_octet hat.tail hb.2, ok_bind, if_neg (by omega), if_pos (by decide),
    if_neg (by omega),
    evpnMacIpRoute_at r hat.tail.tail, ok_bind, hr]

theorem parseEvpnRoutes_at (rs : List MacIpRoute) {d : Bytes} {offset : Nat}
    (hat : At d offset (rs.flatMap MacIpRoute.encode)) :
    parseEvpnRoutes d offset = .ok (rs.map fun r => .evpn r.info) := by
  have hrounds : parseEvpnRoutes d offset = .ok (rs.flatMap fun r => [.evpn r.info]) :=
    scan_encoded (evpnRound_advances d) rs offset [] (by rwa [List.append_nil])
      hat.length (fun r _ => by simp [MacIpRoute.encode])
      (fun r _ o s hs _ => by
        rw [parseEvpnNlri_at r hs, ok_bind]
        simp [MacIpRoute.encode])
  rw [hrounds, List.map_eq_flatMap]

end Pybmpmon.Protocol.NlriEncoding
