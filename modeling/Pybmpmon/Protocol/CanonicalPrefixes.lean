import Pybmpmon.Protocol.DecoderErrors

/-!
# Prefixes and the bits beyond their length

The prefix parsers copy the octets of an NLRI as they stand. The bits of the last
octet that the length does not cover go into the address with the others.
-/
namespace Pybmpmon.Protocol.CanonicalPrefixes

open Pybmpmon.Lib.ByteString Pybmpmon.Lib.Outcome Pybmpmon.Python Pybmpmon.Utils.Binary
open Pybmpmon.Protocol.BgpParser

/-! ## What an encoding says -/

def lengthOctet (d : Bytes) (offset : Nat) : Nat := (d.getD offset 0).toNat

/-- The octets after the length octet that hold the bits of the prefix. -/
def prefixOctets (d : Bytes) (offset : Nat) : Bytes :=
  (d.drop (offset + 1)).take ((lengthOctet d offset + 7) / 8)

/-- The number of bits of those octets that the length does not cover. -/
def paddingWidth (d : Bytes) (offset : Nat) : Nat :=
  8 * ((lengthOctet d offset + 7) / 8) - lengthOctet d offset

/-- The bits the length covers, as a number. -/
def leadingBits (d : Bytes) (offset : Nat) : Nat :=
  beNat (prefixOctets d offset) / 2 ^ paddingWidth d offset

/-- The bits the length does not cover, as a number. -/
def paddingBits (d : Bytes) (offset : Nat) : Nat :=
  beNat (prefixOctets d offset) % 2 ^ paddingWidth d offset

theorem cidr_eq_of_packed {c c' : Cidr} (hwidth : c.address.width = c'.address.width)
    (hpacked : c.address.packed = c'.address.packed) (hlen : c.prefixLen = c'.prefixLen) :
    c = c' := by
  obtain ⟨address, prefixLen, fits⟩ := c
  obtain ⟨address', prefixLen', fits'⟩ := c'
  obtain rfl : prefixLen = prefixLen' := hlen
  have haddress : address = address' := by
    cases address with
    | v4 a => cases address' with
      | v4 b => cases a; cases b; simp_all [IpAddress.packed]
      | v6 b => cases hwidth
    | v6 a => cases address' with
      | v4 b => cases hwidth
      | v6 b => cases a; cases b; simp_all [IpAddress.packed]
  subst haddress
  rfl

/-- A prefix that was read at an offset: the octets there, and zeros up to the width. -/
structure ReadFrom (width : Nat) (d : Bytes) (offset : Nat) (c : Cidr) : Prop where
  prefixLen : c.prefixLen = lengthOctet d offset
  addressWidth : c.address.width = width
  size : (prefixOctets d offset).length = (lengthOctet d offset + 7) / 8
  packed : c.address.packed = prefixOctets d offset ++
    List.replicate (width / 8 - (lengthOctet d offset + 7) / 8) 0

theorem readUint8_getD {d : Bytes} {offset v : Nat} (h : readUint8 d offset = .ok v) :
    v = lengthOctet d offset := by
  unfold readUint8 index at h
  split at h
  · cases h
  · rw [lengthOctet, List.getD_eq_getElem?_getD]
    cases hget : d[offset]? with
    | none => rw [hget] at h; cases h
    | some b => rw [hget] at h; cases h; rfl

/-- The octets of a prefix that lies in the buffer, padded to an address of `size` octets. -/
theorem prefixOctets_padded {d : Bytes} {offset size : Nat}
    (hle : ¬lengthOctet d offset > 8 * size)
    (hfit : ¬d.length < offset + 1 + (lengthOctet d offset + 7) / 8) :
    (prefixOctets d offset).length = (lengthOctet d offset + 7) / 8 ∧
      (prefixOctets d offset ++
        List.replicate (size - (lengthOctet d offset + 7) / 8) 0).length = size := by
  have hsize : (prefixOctets d offset).length = (lengthOctet d offset + 7) / 8 :=
    window_length (by omega)
  refine ⟨hsize, ?_⟩
  rw [List.length_append, hsize, List.length_replicate]
  omega

theorem parseIpv4Prefix_readFrom {d : Bytes} {offset : Nat} {c : Cidr} {consumed : Nat}
    (h : parseIpv4Prefix d offset = .ok (c, consumed)) : ReadFrom 32 d offset c := by
  unfold parseIpv4Prefix at h
  split at h
  · cases h
  obtain ⟨prefixLen, hlen, h⟩ := bind_ok_iff.mp h
  obtain rfl := readUint8_getD hlen
  simp only at h
  split at h
  · cases h
  split at h
  · cases h
  rename_i hle hfit
  obtain ⟨hsize, hpadded⟩ := @prefixOctets_padded d offset 4 hle hfit
  rw [readBytes_ok (by omega), ok_bind, ← prefixOctets, ipv4Address_ok hpadded, ok_bind] at h
  cases h
  exact ⟨rfl, rfl, hsize, rfl⟩

theorem parseIpv6Prefix_readFrom {d : Bytes} {offset : Nat} {c : Cidr} {consumed : Nat}
    (h : parseIpv6Prefix d offset = .ok (c, consumed)) : ReadFrom 128 d offset c := by
  unfold parseIpv6Prefix at h
  split at h
  · cases h
  obtain ⟨prefixLen, hlen, h⟩ := bind_ok_iff.mp h
  obtain rfl := readUint8_getD hlen
  simp only at h
  split at h
  · cases h
  split at h
  · cases h
  rename_i hle hfit
  obtain ⟨hsize, hpadded⟩ := @prefixOctets_padded d offset 16 hle hfit
  rw [readBytes_ok (by omega), ok_bind, ← prefixOctets, ipv6Address_ok hpadded, ok_bind] at h
  cases h
  exact ⟨rfl, rfl, hsize, rfl⟩

/-! ## Host bits -/

section Read

variable {width : Nat} {d : Bytes} {offset : Nat} {c : Cidr}

/-- The host bits of a prefix that was read are its padding bits. -/
theorem ReadFrom.hostBitsZero_iff (h : ReadFrom width d offset c) (hbytes : width % 8 = 0) :
    c.hostBitsZero = true ↔ paddingBits d offset = 0 := by
  have hfits := c.fits
  rw [h.prefixLen, h.addressWidth] at hfits
  have hvalue : beNat c.address.packed = beNat (prefixOctets d offset) *
      2 ^ (8 * (width / 8 - (lengthOctet d offset + 7) / 8)) := by
    rw [h.packed, beNat_append, List.length_replicate, ← beBytes_zero, beNat_beBytes (Nat.pow_pos (by decide)),
      Nat.add_zero, Nat.pow_mul]
  have hhost : width - lengthOctet d offset =
      paddingWidth d offset + 8 * (width / 8 - (lengthOctet d offset + 7) / 8) := by
    rw [paddingWidth]
    omega
  rw [Cidr.hostBitsZero, h.prefixLen, h.addressWidth, hvalue, hhost, Nat.pow_add,
    Nat.mul_mod_mul_right, beq_iff_eq, paddingBits, Nat.mul_eq_zero]
  exact or_iff_left (Nat.two_pow_pos _).ne'

/-- The prefix is told by its length and its octets. -/
theorem ReadFrom.eq_iff {d' : Bytes} {offset' : Nat} {c' : Cidr} (h : ReadFrom width d offset c)
    (h' : ReadFrom width d' offset' c') (hlength : lengthOctet d offset = lengthOctet d' offset') :
    c = c' ↔ prefixOctets d offset = prefixOctets d' offset' := by
  constructor
  · intro hc
    have hpacked := h'.packed
    rw [← hc, h.packed, hlength] at hpacked
    exact List.append_cancel_right hpacked
  · intro hoctets
    have hpacked : c.address.packed = c'.address.packed := by
      rw [h.packed, h'.packed, hoctets, hlength]
    have hwidth := h.addressWidth.trans h'.addressWidth.symm
    have hlen := h.prefixLen.trans (hlength.trans h'.prefixLen.symm)
    exact cidr_eq_of_packed hwidth hpacked hlen

/-- Octets that agree on their leading bits are equal when they agree on the others. -/
theorem ReadFrom.prefixOctets_iff {d' : Bytes} {offset' : Nat} {c' : Cidr}
    (h : ReadFrom width d offset c) (h' : ReadFrom width d' offset' c')
    (hlength : lengthOctet d offset = lengthOctet d' offset')
    (hleading : leadingBits d offset = leadingBits d' offset') :
    prefixOctets d offset = prefixOctets d' offset' ↔
      paddingBits d offset = paddingBits d' offset' := by
  have hpad : paddingWidth d offset = paddingWidth d' offset' := by
    rw [paddingWidth, paddingWidth, hlength]
  constructor
  · intro hoctets
    rw [paddingBits, paddingBits, hoctets, hpad]
  · intro hpadding
    have hvalue : beNat (prefixOctets d offset) = beNat (prefixOctets d' offset') := by
      rw [← Nat.div_add_mod (beNat (prefixOctets d offset)) (2 ^ paddingWidth d offset),
        ← Nat.div_add_mod (beNat (prefixOctets d' offset')) (2 ^ paddingWidth d' offset')]
      change 2 ^ paddingWidth d offset * leadingBits d offset + paddingBits d offset =
        2 ^ paddingWidth d' offset' * leadingBits d' offset' + paddingBits d' offset'
      rw [hleading, hpadding, hpad]
    have hsize : (prefixOctets d offset).length = (prefixOctets d' offset').length := by
      rw [h.size, h'.size, hlength]
    rw [← beBytes_beNat (prefixOctets d offset), ← beBytes_beNat (prefixOctets d' offset'), hvalue,
      hsize]

end Read

/-! ## Both parsers -/

theorem readFrom_of_parse {parse : Bytes → Nat → Except PyErr (Cidr × Nat)}
    (hparse : parse = parseIpv4Prefix ∨ parse = parseIpv6Prefix) :
    ∃ width, width % 8 = 0 ∧ ∀ {d : Bytes} {offset : Nat} {c : Cidr} {consumed : Nat},
      parse d offset = .ok (c, consumed) → ReadFrom width d offset c := by
  rcases hparse with rfl | rfl
  · exact ⟨32, rfl, parseIpv4Prefix_readFrom⟩
  · exact ⟨128, rfl, parseIpv6Prefix_readFrom⟩

/-- A prefix comes out with no host bit set exactly when its padding bits are zero, and two
encodings of the same leading bits come out alike exactly when they have the same padding. -/
theorem parsePrefix_canonical_iff {parse : Bytes → Nat → Except PyErr (Cidr × Nat)}
    (hparse : parse = parseIpv4Prefix ∨ parse = parseIpv6Prefix) {d : Bytes} {offset : Nat}
    {c : Cidr} {consumed : Nat} (h : parse d offset = .ok (c, consumed)) :
    (c.hostBitsZero = true ↔ paddingBits d offset = 0) ∧
    ∀ (d' : Bytes) (offset' : Nat) (c' : Cidr) (consumed' : Nat),
      parse d' offset' = .ok (c', consumed') → lengthOctet d offset = lengthOctet d' offset' →
      leadingBits d offset = leadingBits d' offset' →
      (c = c' ↔ paddingBits d offset = paddingBits d' offset') := by
  obtain ⟨width, hbytes, hread⟩ := readFrom_of_parse hparse
  refine ⟨(hread h).hostBitsZero_iff hbytes, ?_⟩
  intro d' offset' c' consumed' h' hlength hleading
  exact ((hread h).eq_iff (hread h') hlength).trans
    ((hread h).prefixOctets_iff (hread h') hlength hleading)

/-- `240.0.0.0/4`, with four padding bits, against an octet of ones. -/
theorem parsePrefix_canonical_padded :
    let c : Cidr := ⟨.v4 (.ofOctets 240 0 0 0), 4, by decide⟩
    let c' : Cidr := ⟨.v4 (.ofOctets 255 0 0 0), 4, by decide⟩
    (c.hostBitsZero = true ↔ paddingBits [4, 240] 0 = 0) ∧
      (c = c' ↔ paddingBits [4, 240] 0 = paddingBits [4, 255] 0) := by
  intro c c'
  have hread : parseIpv4Prefix [4, 240] 0 = .ok (c, 2) := rfl
  obtain ⟨hcanonical, hequal⟩ := parsePrefix_canonical_iff (.inl rfl) hread
  exact ⟨hcanonical, hequal [4, 255] 0 c' 2 rfl (by decide) (by decide)⟩

/-- Length four and an octet of ones: `255.0.0.0/4`. -/
theorem prefix_not_canonical :
    ¬ ∀ (d : Bytes) (offset : Nat) (c : Cidr) (consumed : Nat),
      parseIpv4Prefix d offset = .ok (c, consumed) → c.hostBitsZero = true := by
  intro h
  have hread : parseIpv4Prefix [4, 255] 0 = .ok (⟨.v4 (.ofOctets 255 0 0 0), 4, by decide⟩, 2) := rfl
  exact absurd (h _ _ _ _ hread) (by decide)

end Pybmpmon.Protocol.CanonicalPrefixes
