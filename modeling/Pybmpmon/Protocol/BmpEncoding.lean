import Pybmpmon.Protocol.BmpParser

/-!
# BMP on the wire

The layout of the common header, the per-peer header and a Route Monitoring
message, written from the records the parsers return, and that each is read back
where a cursor stands on it.
-/
namespace Pybmpmon.Protocol.BmpEncoding

open Pybmpmon.Lib.ByteString Pybmpmon.Lib.Outcome Pybmpmon.Python Pybmpmon.Utils.Binary
open Pybmpmon.Protocol.Bmp Pybmpmon.Protocol.BmpParser

/-- The 16 octets of an address: an IPv4 address stands in the last four. -/
def addressField : IpAddress → Bytes
  | .v4 a => List.replicate 12 0 ++ a.packed
  | .v6 a => a.packed

/-- The addresses a field stands for under a flags octet. With the V flag clear an IPv6
address is one whose first 12 octets are not all zero. -/
def AddressFits (peerFlags : Nat) : IpAddress → Prop
  | .v4 _ => isIpv6 peerFlags = false
  | .v6 a => isIpv6 peerFlags = true ∨ (a.packed.take 12).any (· != 0) = true

theorem addressField_length (a : IpAddress) : (addressField a).length = 16 := by
  cases a with
  | v4 a => simp [addressField, a.size]
  | v6 a => exact a.size

theorem readIpAddress_at {d s : Bytes} {offset peerFlags : Nat} {a : IpAddress}
    (hfits : AddressFits peerFlags a) (h : At d offset (addressField a ++ s)) :
    readIpAddress d offset (isIpv6 peerFlags) = .ok a := by
  have hl := h.length
  have hf := addressField_length a
  rw [List.length_append] at hl
  rw [readIpAddress, if_neg (by omega), slice_nat, h.take hf]
  cases a with
  | v4 a =>
    have hv : isIpv6 peerFlags = false := hfits
    have hzero : ((addressField (.v4 a)).take 12).any (· != 0) = false := by
      rw [addressField, List.take_left' (by simp)]
      decide
    have hlast : slice (addressField (.v4 a)) 12 16 = a.packed := by
      rw [show (16 : Int) = (12 : Nat) + (4 : Nat) from rfl, slice_window, addressField,
        List.drop_left' (by simp), List.take_of_length_le (by rw [a.size])]
    simp only [hv, hzero, Bool.or_self, Bool.false_eq_true, ↓reduceIte, hlast,
      ipv4Address_ok a.size, ok_map]
  | v6 a =>
    have hv : (isIpv6 peerFlags || (a.packed.take 12).any (· != 0)) = true := by
      rcases hfits with hv | hv <;> simp [hv]
    simp only [addressField, hv, ↓reduceIte, ipv6Address_ok a.size, ok_map]

/-- The fields of a per-peer header fit their octets. -/
structure PerPeerHeaderFits (h : BMPPerPeerHeader) : Prop where
  peerFlags : h.peerFlags < 256
  peerDistinguisher : h.peerDistinguisher.length = 8
  peerAddress : AddressFits h.peerFlags h.peerAddress
  peerAsn : h.peerAsn < 2 ^ 32
  timestampSec : h.timestampSec < 2 ^ 32
  timestampUsec : h.timestampUsec < 2 ^ 32

def encodePerPeerHeader (h : BMPPerPeerHeader) : Bytes :=
  UInt8.ofNat h.peerType.value :: UInt8.ofNat h.peerFlags ::
    (h.peerDistinguisher ++ (addressField h.peerAddress ++ (beBytes 4 h.peerAsn ++
      (h.peerBgpId.packed ++ (beBytes 4 h.timestampSec ++ beBytes 4 h.timestampUsec)))))

theorem encodePerPeerHeader_length {h : BMPPerPeerHeader} (hfits : PerPeerHeaderFits h) :
    (encodePerPeerHeader h).length = 42 := by
  simp [encodePerPeerHeader, hfits.peerDistinguisher, addressField_length, h.peerBgpId.size]

/-- A peer at 10.0.0.1 in AS 65001, for use in examples. -/
def samplePeer : BMPPerPeerHeader where
  peerType := .globalInstance
  peerFlags := 0
  peerDistinguisher := List.replicate 8 0
  peerAddress := .v4 (.ofOctets 10 0 0 1)
  peerAsn := 65001
  peerBgpId := .ofOctets 10 0 0 1
  timestampSec := 0
  timestampUsec := 0

theorem samplePeer_fits : PerPeerHeaderFits samplePeer where
  peerFlags := by decide
  peerDistinguisher := rfl
  peerAddress := rfl
  peerAsn := by decide
  timestampSec := by decide
  timestampUsec := by decide

theorem peerType_value_lt (t : BMPPeerType) : t.value < 256 := by cases t <;> decide

theorem parsePerPeerHeader_at {d s : Bytes} {offset : Nat} {h : BMPPerPeerHeader}
    (hfits : PerPeerHeaderFits h) (hat : At d offset (encodePerPeerHeader h ++ s)) :
    parsePerPeerHeader d offset = .ok h := by
  have hl := hat.length
  rw [List.length_append, encodePerPeerHeader_length hfits] at hl
  simp only [encodePerPeerHeader, List.cons_append, List.append_assoc] at hat
  have hflags := hat.tail
  have hdist := hflags.tail
  have haddr := hdist.advance_of hfits.peerDistinguisher
  have hasn := haddr.advance_of (addressField_length h.peerAddress)
  have hid := hasn.advance_of (beBytes_length 4 h.peerAsn)
  have hsec := hid.advance_of h.peerBgpId.size
  have husec := hsec.advance_of (beBytes_length 4 h.timestampSec)
  rw [parsePerPeerHeader, if_neg (by rw [BMP_PER_PEER_HEADER_SIZE]; omega),
    exceptValueError_ok_iff, readUint8_octet hat (peerType_value_lt h.peerType), ok_bind,
    readUint8_octet hflags hfits.peerFlags, ok_bind, BMPPeerType.ofNat?_value]
  simp only
  rw [show (8 : Int) = (8 : Nat) from rfl, readBytes_at hdist hfits.peerDistinguisher, ok_bind,
    readIpAddress_at hfits.peerAddress haddr, ok_bind,
    readUint32_beBytes hasn hfits.peerAsn, ok_bind,
    readIpv4Address_at hid h.peerBgpId.size, ok_bind,
    readUint32_beBytes hsec hfits.timestampSec, ok_bind,
    readUint32_beBytes husec hfits.timestampUsec, ok_bind]

/-- A BMP message: version, total length, type and body. -/
def encodeBmp (msgType : BMPMessageType) (body : Bytes) : Bytes :=
  3 :: (beBytes 4 (6 + body.length) ++ (UInt8.ofNat msgType.value :: body))

theorem encodeBmp_length (msgType : BMPMessageType) (body : Bytes) :
    (encodeBmp msgType body).length = 6 + body.length := by
  simp [encodeBmp]
  omega

theorem parseBmpHeader_encode (msgType : BMPMessageType) {body : Bytes}
    (hsize : 6 + body.length < 2 ^ 32) :
    parseBmpHeader (encodeBmp msgType body) = .ok ⟨3, 6 + body.length, msgType⟩ := by
  have hat := at_zero (encodeBmp msgType body)
  have hl := encodeBmp_length msgType body
  have hlen := hat.tail
  have htype := hlen.advance_of (beBytes_length 4 (6 + body.length))
  have ht : msgType.value < 256 := by cases msgType <;> decide
  rw [parseBmpHeader, if_neg (by rw [BMP_HEADER_SIZE]; omega), exceptValueError_ok_iff,
    readUint8_at hat, ok_bind, if_neg (by decide), readUint32_beBytes hlen hsize, ok_bind,
    if_neg (by rw [BMP_HEADER_SIZE]; omega), readUint8_octet htype ht, ok_bind,
    BMPMessageType.ofNat?_value]
  rfl

/-- A Route Monitoring message: the per-peer header and the bytes of one UPDATE. -/
def encodeRouteMonitoring (h : BMPPerPeerHeader) (bgpUpdate : Bytes) : Bytes :=
  encodeBmp .routeMonitoring (encodePerPeerHeader h ++ bgpUpdate)

theorem parseRouteMonitoringMessage_encode {h : BMPPerPeerHeader} (bgpUpdate : Bytes)
    (hfits : PerPeerHeaderFits h) (hsize : 48 + bgpUpdate.length < 2 ^ 32) :
    parseRouteMonitoringMessage (encodeRouteMonitoring h bgpUpdate) =
      .ok ⟨⟨3, 48 + bgpUpdate.length, .routeMonitoring⟩, h, bgpUpdate⟩ := by
  have hp := encodePerPeerHeader_length hfits
  have hbody : (encodePerPeerHeader h ++ bgpUpdate).length = 42 + bgpUpdate.length := by
    rw [List.length_append, hp]
  have hfit : 6 + (encodePerPeerHeader h ++ bgpUpdate).length < 2 ^ 32 := by omega
  have hheader := parseBmpHeader_encode .routeMonitoring hfit
  have hat : At (encodeRouteMonitoring h bgpUpdate) 6 (encodePerPeerHeader h ++ bgpUpdate) :=
    ((at_zero _).tail.advance_of (beBytes_length 4 _)).tail
  have hupdate : At (encodeRouteMonitoring h bgpUpdate) 48 bgpUpdate := hat.advance_of hp
  rw [parseRouteMonitoringMessage, encodeRouteMonitoring, hheader, ok_bind,
    if_neg (not_not_intro rfl), BMP_HEADER_SIZE, BMP_PER_PEER_HEADER_SIZE]
  rw [encodeRouteMonitoring] at hat hupdate
  rw [parsePerPeerHeader_at hfits hat, ok_bind]
  have hlen : ((6 + (encodePerPeerHeader h ++ bgpUpdate).length : Nat) : Int) - (6 + 42 : Nat) =
      (bgpUpdate.length : Nat) := by omega
  simp only [hlen]
  rw [readBytes_rest hupdate rfl, ok_bind, hbody]
  congr 3
  omega

end Pybmpmon.Protocol.BmpEncoding
