import Pybmpmon.Protocol.UpdateEncoding

/-!
# What the UPDATE structure parser accepts

An accepted buffer starts with a written UPDATE, and the parser returns the parts it
was written from. So the parser accepts its grammar and nothing else, and what
follows the message does not matter.
-/
namespace Pybmpmon.Protocol.UpdateAccepted

open Pybmpmon.Lib.ByteString Pybmpmon.Lib.Outcome Pybmpmon.Lib.Scan Pybmpmon.Python
open Pybmpmon.Utils.Binary Pybmpmon.Protocol.Bgp Pybmpmon.Protocol.BgpParser
open Pybmpmon.Protocol.UpdateEncoding

/-! ## Records in wire order -/

/-- The length field of a record, as wide as its flags say. -/
def lengthField (flags length : Nat) : Bytes :=
  if isExtendedLength flags then beBytes 2 length else [UInt8.ofNat length]

def encodeAttribute (a : BGPPathAttribute) : Bytes :=
  UInt8.ofNat a.flags :: UInt8.ofNat a.typeCode.raw :: (lengthField a.flags a.length ++ a.value)

/-- The fields of an UPDATE record behind its header, whose length field is given. -/
def encodeStructure (length : Nat) (u : BGPUpdateMessage) : Bytes :=
  BGP_MARKER ++ (beBytes 2 length ++ (2 :: (beBytes 2 u.withdrawnRoutesLength ++
    (u.withdrawnRoutes ++ (beBytes 2 u.totalPathAttrLength ++
      (u.pathAttributes.flatMap encodeAttribute ++ u.nlri))))))

/-- The length field of the header. -/
def declaredLength (d : Bytes) : Nat := beNat ((d.drop 16).take 2)

/-- The record of an UPDATE that was written from its parts. -/
def structureOf (withdrawn : Bytes) (attrs : List WireAttribute) (nlri : Bytes) : BGPUpdateMessage :=
  ⟨withdrawn.length, withdrawn, (encodeAttributes attrs).length, attrs.map WireAttribute.parsed, nlri⟩

theorem encodeAttribute_parsed (a : WireAttribute) : encodeAttribute a.parsed = a.encode := by
  rw [encodeAttribute, WireAttribute.parsed, TypeCode.raw_ofRaw, UInt8.ofNat_toNat, UInt8.ofNat_toNat]
  rfl

theorem encodeStructure_structureOf (withdrawn : Bytes) (attrs : List WireAttribute) (nlri : Bytes) :
    encodeStructure (encodeUpdate withdrawn attrs nlri).length (structureOf withdrawn attrs nlri) =
      encodeUpdate withdrawn attrs nlri := by
  have hattrs : (attrs.map WireAttribute.parsed).flatMap encodeAttribute = encodeAttributes attrs := by
    rw [List.flatMap_map, encodeAttributes]
    exact congrArg (List.flatMap · attrs) (funext encodeAttribute_parsed)
  rw [encodeUpdate_length, encodeStructure, structureOf, hattrs, encodeUpdate]

theorem declaredLength_at {d rest withdrawn nlri : Bytes} {attrs : List WireAttribute}
    (hfits : UpdateFits withdrawn attrs nlri)
    (hat : At d 0 (encodeUpdate withdrawn attrs nlri ++ rest)) :
    declaredLength d = (encodeUpdate withdrawn attrs nlri).length := by
  have hmarker : BGP_MARKER.length = 16 := rfl
  simp only [encodeUpdate, List.append_assoc] at hat
  have hlength := At.advance_of (a := BGP_MARKER) hat hmarker
  have hfield := hlength.take (beBytes_length 2 _)
  rw [Nat.zero_add] at hfield
  rw [declaredLength, hfield, beNat_beBytes hfits.size, encodeUpdate_length]

/-! ## Inverted readers -/

theorem attributeLength_inv {d s : Bytes} {stop offset flags length valueOffset : Nat}
    (hat : At d (offset + 2) s)
    (h : attributeLength d stop offset flags = .ok (length, valueOffset)) :
    length < (if isExtendedLength flags then 2 ^ 16 else 256) ∧
      ∃ s', s = lengthField flags length ++ s' ∧ At d valueOffset s' := by
  unfold attributeLength at h
  unfold lengthField
  split at h
  · rename_i hext
    split at h
    · cases h
    obtain ⟨n, hn, h⟩ := bind_ok_iff.mp h
    obtain ⟨hlt, s', rfl, hat'⟩ := readUint16_inv hat hn
    cases h
    rw [if_pos hext, if_pos hext]
    exact ⟨hlt, s', rfl, hat'⟩
  · rename_i hext
    obtain ⟨n, hn, h⟩ := bind_ok_iff.mp h
    obtain ⟨hlt, s', rfl, hat'⟩ := readUint8_inv hat hn
    cases h
    rw [if_neg hext, if_neg hext]
    exact ⟨hlt, s', rfl, hat'⟩

theorem pathAttribute_inv {d s : Bytes} {stop offset : Nat} {items : List BGPPathAttribute}
    {next : Option Nat} (hat : At d offset s) (h : pathAttribute d stop offset = .ok (items, next)) :
    ∃ (a : { a : WireAttribute // a.Fits }) (o' : Nat) (s' : Bytes), items = [a.val.parsed] ∧
      next = some o' ∧ s = a.val.encode ++ s' ∧ At d o' s' ∧ o' ≤ stop := by
  unfold pathAttribute at h
  split at h
  · cases h
  obtain ⟨flags, hflags, h⟩ := bind_ok_iff.mp h
  obtain ⟨hf, s1, rfl, hat1⟩ := readUint8_inv hat hflags
  obtain ⟨raw, htype, h⟩ := bind_ok_iff.mp h
  obtain ⟨hr, s2, rfl, hat2⟩ := readUint8_inv hat1 htype
  obtain ⟨⟨length, valueOffset⟩, hlength, h⟩ := bind_ok_iff.mp h
  obtain ⟨hlt, s3, rfl, hat3⟩ := attributeLength_inv hat2 hlength
  simp only at h
  split at h
  · cases h
  obtain ⟨value, hvalue, h⟩ := bind_ok_iff.mp h
  obtain ⟨hsize, s4, rfl, hat4⟩ := readBytes_inv hat3 hvalue
  cases h
  subst hsize
  have hflag : (UInt8.ofNat flags).toNat = flags := octet_toNat hf
  have hraw : (UInt8.ofNat raw).toNat = raw := octet_toNat hr
  have hfits : WireAttribute.Fits ⟨UInt8.ofNat flags, UInt8.ofNat raw, value⟩ := by
    rw [WireAttribute.Fits, hflag]
    exact hlt
  refine ⟨⟨_, hfits⟩, _, s4, ?_, rfl, ?_, hat4, by omega⟩
  · rw [WireAttribute.parsed, hflag, hraw]
  · rw [WireAttribute.encode, WireAttribute.lengthField, hflag, lengthField]
    simp

theorem parsePathAttributes_inv {d s : Bytes} {start stop : Nat} {records : List BGPPathAttribute}
    (hat : At d start s) (hle : start ≤ stop) (h : parsePathAttributes d start stop = .ok records) :
    ∃ (attrs : List WireAttribute) (s' : Bytes), (∀ a ∈ attrs, a.Fits) ∧
      records = attrs.map WireAttribute.parsed ∧ s = encodeAttributes attrs ++ s' ∧ At d stop s' := by
  obtain ⟨attrs, s', hrecords, hs, hend⟩ := scan_reencoded (DecoderErrors.pathAttribute_advances d stop)
    (fun o s items next hat _ hround => pathAttribute_inv hat hround) start s records hat hle h
  refine ⟨attrs.map Subtype.val, s', ?_, ?_, ?_, hend⟩
  · intro a ha
    obtain ⟨b, _, rfl⟩ := List.mem_map.mp ha
    exact b.property
  · rw [hrecords, List.map_map, List.map_eq_flatMap]
    rfl
  · rw [hs, encodeAttributes, List.flatMap_map]

theorem parseBgpHeader_inv {d : Bytes} {header : BGPHeader} (h : parseBgpHeader d = .ok header)
    (htype : header.msgType = .update) :
    header.length < 2 ^ 16 ∧
      ∃ s, d = BGP_MARKER ++ (beBytes 2 header.length ++ (2 :: s)) ∧ At d 19 s := by
  unfold parseBgpHeader at h
  split at h
  · cases h
  obtain ⟨marker, hmarker, h⟩ := bind_ok_iff.mp h
  obtain ⟨_, s1, hs, hat1⟩ := readBytes_inv (n := 16) (at_zero d) hmarker
  split at h
  · cases h
  rename_i hsame
  obtain ⟨length, hlength, h⟩ := bind_ok_iff.mp h
  obtain ⟨hlt, s2, rfl, hat2⟩ := readUint16_inv hat1 hlength
  obtain ⟨raw, hraw, h⟩ := bind_ok_iff.mp h
  obtain ⟨_, s3, rfl, hat3⟩ := readUint8_inv hat2 hraw
  split at h
  · cases h
  rename_i t ht
  cases h
  have htwo : raw = 2 := by
    subst htype
    unfold BGPMessageType.ofNat? at ht
    split at ht <;> cases ht
    rfl
  subst htwo
  refine ⟨hlt, s3, ?_, hat3⟩
  rw [hs, not_not.mp hsame]
  rfl

/-- An accepted buffer starts with the UPDATE that is written from the parts returned. -/
theorem parseBgpUpdateStructure_inv {d : Bytes} {u : BGPUpdateMessage}
    (h : parseBgpUpdateStructure d = .ok u) :
    ∃ withdrawn attrs nlri rest, UpdateFits withdrawn attrs nlri ∧
      d = encodeUpdate withdrawn attrs nlri ++ rest ∧ u = structureOf withdrawn attrs nlri := by
  unfold parseBgpUpdateStructure at h
  obtain ⟨header, hheader, h⟩ := bind_ok_iff.mp h
  split at h
  · cases h
  rename_i htype
  obtain ⟨hlt, s1, hd, hat1⟩ := parseBgpHeader_inv hheader (not_not.mp htype)
  split at h
  · cases h
  rename_i hbuffer
  simp only at h
  split at h
  · cases h
  obtain ⟨wlen, hwlen, h⟩ := bind_ok_iff.mp h
  obtain ⟨_, s2, rfl, hat2⟩ := readUint16_inv hat1 hwlen
  split at h
  · cases h
  obtain ⟨withdrawn, hwithdrawn, h⟩ := bind_ok_iff.mp h
  obtain ⟨hw, s3, rfl, hat3⟩ := readBytes_inv hat2 hwithdrawn
  split at h
  · cases h
  obtain ⟨plen, hplen, h⟩ := bind_ok_iff.mp h
  obtain ⟨_, s4, rfl, hat4⟩ := readUint16_inv hat3 hplen
  split at h
  · cases h
  rename_i hend
  obtain ⟨records, hrecords, h⟩ := bind_ok_iff.mp h
  obtain ⟨attrs, s5, hfits, rfl, rfl, hat5⟩ := parsePathAttributes_inv hat4 (Nat.le_add_right _ _) hrecords
  obtain ⟨nlri, hnlri, h⟩ := bind_ok_iff.mp h
  cases h
  have hp : plen = (encodeAttributes attrs).length := by
    have h4 := hat4.length
    have h5 := hat5.length
    rw [List.length_append] at h4
    omega
  subst hw hp
  have hrest : (header.length : Int) -
      (BGP_HEADER_SIZE + 2 + withdrawn.length + 2 + (encodeAttributes attrs).length : Nat) =
        (header.length - (23 + withdrawn.length + (encodeAttributes attrs).length) : Nat) := by
    rw [BGP_HEADER_SIZE] at hend ⊢
    omega
  rw [hrest] at hnlri
  obtain ⟨hn, s6, rfl, _⟩ := readBytes_inv hat5 hnlri
  have hsize : 23 + withdrawn.length + (encodeAttributes attrs).length + nlri.length =
      header.length := by
    rw [BGP_HEADER_SIZE] at hend
    omega
  refine ⟨withdrawn, attrs, nlri, s6, ⟨hfits, by rw [hsize]; exact hlt⟩, ?_, rfl⟩
  rw [hd, encodeUpdate, hsize]
  simp

/-- The parser accepts its grammar and nothing else. An accepted buffer starts with the octets its
record is written in and is read the same whatever follows them, and every UPDATE that can be
written is accepted with its parts. -/
theorem parseBgpUpdateStructure_grammar :
    (∀ d u, parseBgpUpdateStructure d = .ok u →
      encodeStructure (declaredLength d) u = d.take (declaredLength d) ∧
        ∀ d', d'.take (declaredLength d) = d.take (declaredLength d) →
          parseBgpUpdateStructure d' = .ok u) ∧
      ∀ withdrawn attrs nlri, UpdateFits withdrawn attrs nlri →
        parseBgpUpdateStructure (encodeUpdate withdrawn attrs nlri) =
          .ok (structureOf withdrawn attrs nlri) := by
  constructor
  · intro d u h
    obtain ⟨withdrawn, attrs, nlri, rest, hfits, rfl, rfl⟩ := parseBgpUpdateStructure_inv h
    rw [declaredLength_at hfits (at_zero _), List.take_left]
    refine ⟨encodeStructure_structureOf withdrawn attrs nlri, fun d' hsame => ?_⟩
    have hd' : d' = encodeUpdate withdrawn attrs nlri ++
        d'.drop (encodeUpdate withdrawn attrs nlri).length := by
      conv_lhs => rw [← List.take_append_drop (encodeUpdate withdrawn attrs nlri).length d', hsame]
    apply parseBgpUpdateStructure_at hfits
    rw [← hd']
    exact at_zero d'
  · exact fun withdrawn attrs nlri hfits => parseBgpUpdateStructure_encode hfits

/-- An UPDATE with one attribute of unknown type 99. -/
theorem parseBgpUpdateStructure_grammar_unknown :
    UpdateFits [] [⟨0xC0, 99, [1, 2]⟩] [] ∧
      parseBgpUpdateStructure (encodeUpdate [] [⟨0xC0, 99, [1, 2]⟩] []) =
        .ok (structureOf [] [⟨0xC0, 99, [1, 2]⟩] []) := by
  have hfits : UpdateFits [] [⟨0xC0, 99, [1, 2]⟩] [] := by
    constructor
    · decide
    · decide
  exact ⟨hfits, parseBgpUpdateStructure_grammar.2 _ _ _ hfits⟩

end Pybmpmon.Protocol.UpdateAccepted
