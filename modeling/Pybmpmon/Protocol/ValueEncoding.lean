import Pybmpmon.Protocol.AsPathFields

/-!
# Attribute values and NLRI on the wire

How prefixes, EVPN MAC/IP routes, AS paths and communities are written, and what
their decoders return where a cursor stands on them.
-/
namespace Pybmpmon.Protocol.ValueEncoding

open Pybmpmon.Lib.ByteString Pybmpmon.Lib.Outcome Pybmpmon.Lib.Scan Pybmpmon.Python
open Pybmpmon.Utils.Binary Pybmpmon.Protocol.Bgp Pybmpmon.Protocol.BgpParser
open Pybmpmon.Protocol.DecoderErrors Pybmpmon.Protocol.AsPathFields

/-! ## Prefixes -/

/-- A prefix as it is sent: its length in bits and the octets that hold them. The bits
beyond the length are whatever the sender left there. -/
structure WirePrefix (width : Nat) where
  prefixLen : Nat
  bits : Bytes
  prefixLen_le : prefixLen ≤ width
  size : bits.length = (prefixLen + 7) / 8

def WirePrefix.encode {width : Nat} (p : WirePrefix width) : Bytes :=
  UInt8.ofNat p.prefixLen :: p.bits

theorem WirePrefix.encode_length {width : Nat} (p : WirePrefix width) :
    p.encode.length = 1 + (p.prefixLen + 7) / 8 := by
  simp [WirePrefix.encode, p.size]
  omega

theorem WirePrefix.padded_length {width octets : Nat} (p : WirePrefix width)
    (hw : width = 8 * octets) :
    (p.bits ++ List.replicate (octets - (p.prefixLen + 7) / 8) 0).length = octets := by
  have hle := p.prefixLen_le
  rw [List.length_append, p.size, List.length_replicate]
  omega

/-- The IPv4 prefix an NLRI stands for, its missing octets zero. -/
def WirePrefix.ipv4 (p : WirePrefix 32) : Cidr :=
  ⟨.v4 ⟨p.bits ++ List.replicate (4 - (p.prefixLen + 7) / 8) 0, p.padded_length rfl⟩,
    p.prefixLen, p.prefixLen_le⟩

def WirePrefix.ipv6 (p : WirePrefix 128) : Cidr :=
  ⟨.v6 ⟨p.bits ++ List.replicate (16 - (p.prefixLen + 7) / 8) 0, p.padded_length rfl⟩,
    p.prefixLen, p.prefixLen_le⟩

theorem parseIpv4Prefix_at {d s : Bytes} {offset : Nat} (p : WirePrefix 32)
    (hat : At d offset (p.encode ++ s)) :
    parseIpv4Prefix d offset = .ok (p.ipv4, p.encode.length) := by
  have hl := hat.length
  have hp := p.encode_length
  have hle := p.prefixLen_le
  rw [List.length_append] at hl
  rw [WirePrefix.encode, List.cons_append] at hat
  rw [parseIpv4Prefix, if_neg (by omega), readUint8_octet hat (by omega), ok_bind,
    dif_neg (by omega)]
  simp only
  rw [if_neg (by omega), readBytes_at hat.tail p.size, ok_bind,
    ipv4Address_ok (p.padded_length rfl), ok_bind, hp]
  rfl

theorem parseIpv6Prefix_at {d s : Bytes} {offset : Nat} (p : WirePrefix 128)
    (hat : At d offset (p.encode ++ s)) :
    parseIpv6Prefix d offset = .ok (p.ipv6, p.encode.length) := by
  have hl := hat.length
  have hp := p.encode_length
  have hle := p.prefixLen_le
  rw [List.length_append] at hl
  rw [WirePrefix.encode, List.cons_append] at hat
  rw [parseIpv6Prefix, if_neg (by omega), readUint8_octet hat (by omega), ok_bind,
    dif_neg (by omega)]
  simp only
  rw [if_neg (by omega), readBytes_at hat.tail p.size, ok_bind,
    ipv6Address_ok (p.padded_length rfl), ok_bind, hp]
  rfl

section Prefixes

variable {width : Nat} {parse : Bytes → Nat → Except PyErr (Cidr × Nat)}
variable {cidr : WirePrefix width → Cidr}

/-- A prefix loop returns the prefixes of the list, in order. -/
theorem parsePrefixes_at
    (hparse : ∀ p d s o, At d o (WirePrefix.encode p ++ s) →
      parse d o = .ok (cidr p, p.encode.length))
    (hpos : ∀ d o c consumed, parse d o = .ok (c, consumed) → 0 < consumed)
    (ps : List (WirePrefix width)) {d : Bytes} {offset : Nat}
    (hat : At d offset (ps.flatMap WirePrefix.encode)) :
    parsePrefixes parse d offset = .ok (ps.map fun p => .cidr (cidr p)) := by
  have hrounds : parsePrefixes parse d offset = .ok (ps.flatMap fun p => [.cidr (cidr p)]) :=
    scan_encoded (prefixRound_advances (hpos d)) ps offset [] (by rwa [List.append_nil])
      hat.length (fun p _ => by simp [WirePrefix.encode])
      (fun p _ o s hs _ => by rw [hparse p d s o hs]; rfl)
  rw [hrounds, List.map_eq_flatMap]

end Prefixes

theorem parseIpv4Prefixes_at (ps : List (WirePrefix 32)) {d : Bytes} {offset : Nat}
    (hat : At d offset (ps.flatMap WirePrefix.encode)) :
    parsePrefixes parseIpv4Prefix d offset = .ok (ps.map fun p => .cidr p.ipv4) :=
  parsePrefixes_at (fun p _ _ _ h => parseIpv4Prefix_at p h)
    (fun _ _ _ _ h => parseIpv4Prefix_consumes h) ps hat

theorem parseIpv6Prefixes_at (ps : List (WirePrefix 128)) {d : Bytes} {offset : Nat}
    (hat : At d offset (ps.flatMap WirePrefix.encode)) :
    parsePrefixes parseIpv6Prefix d offset = .ok (ps.map fun p => .cidr p.ipv6) :=
  parsePrefixes_at (fun p _ _ _ h => parseIpv6Prefix_at p h)
    (fun _ _ _ _ h => parseIpv6Prefix_consumes h) ps hat

/-! ## AS paths and communities -/

/-- A segment whose AS numbers take `octets` octets each: the count is an octet, and
every number fits its field. -/
structure WireSegment (octets : Nat) where
  segmentType : UInt8
  asNumbers : List Nat
  count_lt : asNumbers.length < 256
  asNumbers_lt : ∀ n ∈ asNumbers, n < 256 ^ octets

namespace WireSegment

variable {octets : Nat}

def encode (g : WireSegment octets) : Bytes :=
  g.segmentType :: UInt8.ofNat g.asNumbers.length :: g.asNumbers.flatMap (beBytes octets)

/-- The AS numbers of sequences and sets; those of other segments do not count. -/
def counted (g : WireSegment octets) : List Nat :=
  if g.segmentType = 2 ∨ g.segmentType = 1 then g.asNumbers else []

end WireSegment

/-- Numbers written in a row are read back from their fields. -/
theorem fieldsOf_written {octets : Nat} (s : Bytes) :
    ∀ ns : List Nat, (∀ n ∈ ns, n < 256 ^ octets) →
      (fieldsOf octets ns.length (ns.flatMap (beBytes octets) ++ s)).map beNat = ns := by
  intro ns
  induction ns with
  | nil => intro _; rfl
  | cons n ns ih =>
    intro hlt
    have htail := ih (fun m hm => hlt m (List.mem_cons_of_mem n hm))
    have hn : beNat (beBytes octets n) = n := beNat_beBytes (hlt n List.mem_cons_self)
    have hl := beBytes_length octets n
    rw [List.length_cons, fieldsOf, List.flatMap_cons, List.append_assoc,
      List.take_left' hl, List.drop_left' hl, List.map_cons, hn, htail]

/-- A segment that fits the buffer at the width it is taken for. -/
theorem asPathSegment_reads {d rest : Bytes} {offset : Nat} {segmentType count : UInt8}
    (hat : At d offset (segmentType :: count :: rest))
    (hfit : count.toNat * asSize rest.length count.toNat ≤ rest.length) :
    asPathSegment d offset = .ok
      ((if segmentType = 2 ∨ segmentType = 1
        then fieldsOf (asSize rest.length count.toNat) count.toNat rest else []).map beNat,
        some (offset + 2 + count.toNat * asSize rest.length count.toNat)) := by
  have hl := hat.length
  simp only [List.length_cons] at hl
  have hrest : d.length - (offset + 2) = rest.length := by omega
  rw [asPathSegment, if_neg (by omega), readUint8_at hat, ok_bind, readUint8_at hat.tail, ok_bind]
  simp only [hrest]
  rw [if_neg (by omega),
    segmentAsNumbers_fields segmentType (asSize_cases _ _) _ _ _ hat.tail.tail hfit, ok_bind]

/-- A segment that is taken for its own width is read whole. -/
theorem asPathSegment_written {octets : Nat} {d s : Bytes} {offset : Nat} (g : WireSegment octets)
    (hat : At d offset (g.encode ++ s))
    (hsize : asSize (g.asNumbers.length * octets + s.length) g.asNumbers.length = octets) :
    asPathSegment d offset = .ok (g.counted, some (offset + g.encode.length)) := by
  have hcount : (UInt8.ofNat g.asNumbers.length).toNat = g.asNumbers.length :=
    octet_toNat g.count_lt
  have hn := flatMap_beBytes_length octets g.asNumbers
  have hl : (g.asNumbers.flatMap (beBytes octets) ++ s).length =
      g.asNumbers.length * octets + s.length := by
    rw [List.length_append, hn]
  have hg : g.encode.length = 2 + g.asNumbers.length * octets := by
    simp only [WireSegment.encode, List.length_cons, hn]
    omega
  have hfields := fieldsOf_written s g.asNumbers g.asNumbers_lt
  simp only [WireSegment.encode, List.cons_append] at hat
  have hread := asPathSegment_reads hat (by rw [hcount, hl, hsize]; omega)
  rw [hcount, hl, hsize] at hread
  rw [hread, hg, WireSegment.counted, Nat.add_assoc]
  by_cases hcounts : g.segmentType = 2 ∨ g.segmentType = 1
  · rw [if_pos hcounts, if_pos hcounts, hfields]
  · rw [if_neg hcounts, if_neg hcounts, List.map_nil]

/-- An AS path whose segments are all taken for their own width is read as it was written. -/
theorem parseAsPath_written {octets : Nat} {segments : List (WireSegment octets)}
    (hsize : ∀ g ∈ segments, ∀ rest,
      asSize (g.asNumbers.length * octets + rest) g.asNumbers.length = octets) :
    parseAsPath (segments.flatMap WireSegment.encode) = .ok (segments.flatMap WireSegment.counted) :=
  scan_encoded (asPathSegment_advances _) segments 0 []
    (by rw [List.append_nil]; exact at_zero _) (Nat.zero_add _).symm
    (fun g _ => by simp [WireSegment.encode])
    fun g hg _ s hat _ => asPathSegment_written g hat (hsize g hg s.length)

/-- Four octets for each number are never taken for two. -/
theorem asSize_four {remainingBytes segmentLength : Nat} (h : segmentLength * 4 ≤ remainingBytes) :
    asSize remainingBytes segmentLength = 4 := by
  rw [asSize]
  split
  · rename_i hpos
    have hdiv : 4 ≤ remainingBytes / segmentLength :=
      (Nat.le_div_iff_mul_le hpos).mpr (by rw [Nat.mul_comm]; exact h)
    have hne : remainingBytes / segmentLength ≠ 2 := by omega
    simp only [hne, ↓reduceIte, ite_self]
  · rfl

/-- A community: the AS number and the value, of two octets each. -/
structure WireCommunity where
  asNum : Nat
  commValue : Nat
  asNum_lt : asNum < 2 ^ 16
  commValue_lt : commValue < 2 ^ 16
  deriving DecidableEq, Repr

def WireCommunity.encode (c : WireCommunity) : Bytes := beBytes 2 c.asNum ++ beBytes 2 c.commValue

def WireCommunity.text (c : WireCommunity) : String := s!"{c.asNum}:{c.commValue}"

theorem community_at {d s : Bytes} {offset : Nat} (c : WireCommunity)
    (hat : At d offset (c.encode ++ s)) :
    community d offset = .ok ([c.text], some (offset + c.encode.length)) := by
  rw [WireCommunity.encode, List.append_assoc] at hat
  rw [community, readUint16_beBytes hat c.asNum_lt, ok_bind,
    readUint16_beBytes (hat.advance_of (beBytes_length 2 _)) c.commValue_lt, ok_bind]
  simp [WireCommunity.text, WireCommunity.encode]

def encodeCommunities (communities : List WireCommunity) : Bytes :=
  communities.flatMap WireCommunity.encode

theorem encodeCommunities_length (communities : List WireCommunity) :
    (encodeCommunities communities).length = communities.length * 4 := by
  induction communities with
  | nil => rfl
  | cons c communities ih =>
    rw [encodeCommunities] at ih ⊢
    rw [List.flatMap_cons, List.length_append, ih, List.length_cons]
    simp [WireCommunity.encode]
    omega

theorem parseCommunities_encode (communities : List WireCommunity) :
    parseCommunities (encodeCommunities communities) =
      .ok (communities.map WireCommunity.text) := by
  have hl := encodeCommunities_length communities
  have hrounds : scan .diverges (community (encodeCommunities communities))
      (encodeCommunities communities).length 0 = .ok (communities.flatMap fun c => [c.text]) :=
    scan_encoded (community_advances _) communities 0 []
      (by rw [List.append_nil]; exact at_zero _) (Nat.zero_add _).symm
      (fun c _ => by simp [WireCommunity.encode, beBytes])
      (fun c _ _ _ hs _ => community_at c hs)
  rw [parseCommunities, if_neg (by omega), hrounds, List.map_eq_flatMap]

end Pybmpmon.Protocol.ValueEncoding
