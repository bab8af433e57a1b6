import Pybmpmon.Protocol.BgpParser

/-!
# How the BGP decoders fail

The decoders behind the attribute loop may raise any exception, since the loop
catches it; what matters is that each of their loops ends. The structure parser
and the classic prefix loops run outside the handler, so they must raise nothing
but `BGPParseError`.
-/
namespace Pybmpmon.Protocol.DecoderErrors

open Pybmpmon.Lib.ByteString Pybmpmon.Lib.Outcome Pybmpmon.Lib.Scan Pybmpmon.Python
open Pybmpmon.Utils.Binary Pybmpmon.Protocol.Bgp Pybmpmon.Protocol.BgpParser

/-- The outcome is an exception `except Exception` catches. -/
abbrev Caught (e : PyErr) : Prop := e.isException = true

/-- Only the parser's own error escapes. -/
abbrev OwnError (e : PyErr) : Prop := e.isBgpParseError = true

theorem caught_of_own {e : PyErr} (h : OwnError e) : Caught e := by
  cases e <;> first | rfl | cases h

theorem caught_of_raises {α : Type} {x : Except PyErr α} (h : Raises OwnError x) : Raises Caught x :=
  raises_mono (fun _ => caught_of_own) h

theorem caught_of_valueError {α : Type} {x : Except PyErr α}
    (h : Raises (fun e => e.isValueError) x) : Raises Caught x := by
  refine raises_mono (fun e he => ?_) h
  cases e <;> first | rfl | cases he

/-! ## Outside the handler -/

theorem parseBgpHeader_raises (d : Bytes) : Raises OwnError (parseBgpHeader d) := by
  rw [parseBgpHeader]
  refine raises_ite (fun _ => raises_error.mpr rfl) (fun hlen => ?_)
  simp only [BGP_HEADER_SIZE] at hlen
  refine raises_bind_ok (readBytes_ok (by omega : 0 + 16 ≤ d.length)) ?_
  refine raises_ite (fun _ => raises_error.mpr rfl) (fun _ => ?_)
  refine raises_bind_ok (readUint16_ok (by omega)) ?_
  refine raises_bind_ok (readUint8_ok (by omega)) ?_
  split
  · exact raises_error.mpr rfl
  · exact raises_ok _

theorem attributeLength_raises {d : Bytes} {stop offset : Nat} (flags : Nat)
    (hstop : stop ≤ d.length) (h3 : offset + 3 ≤ stop) :
    Raises OwnError (attributeLength d stop offset flags) := by
  rw [attributeLength]
  refine raises_ite (fun _ => ?_) (fun _ => ?_)
  · refine raises_ite (fun _ => raises_error.mpr rfl) (fun h4 => ?_)
    exact raises_bind_ok (readUint16_ok (by omega)) (raises_ok _)
  · exact raises_bind_ok (readUint8_ok (by omega)) (raises_ok _)

/-- The value starts past the three octets that every attribute header has. -/
theorem attributeLength_offset {d : Bytes} {stop offset flags length valueOffset : Nat}
    (h : attributeLength d stop offset flags = .ok (length, valueOffset)) :
    offset + 3 ≤ valueOffset := by
  rw [attributeLength] at h
  split at h
  · split at h
    · cases h
    obtain ⟨_, _, h⟩ := bind_ok_iff.mp h
    cases h
    omega
  · obtain ⟨_, _, h⟩ := bind_ok_iff.mp h
    cases h
    omega

theorem pathAttribute_raises {d : Bytes} {stop : Nat} (hstop : stop ≤ d.length) (offset : Nat) :
    Raises OwnError (pathAttribute d stop offset) := by
  rw [pathAttribute]
  refine raises_ite (fun _ => raises_error.mpr rfl) (fun h3 => ?_)
  refine raises_bind_ok (readUint8_ok (by omega)) ?_
  refine raises_bind_ok (readUint8_ok (by omega)) ?_
  refine raises_bind (attributeLength_raises _ hstop (by omega)) ?_
  rintro ⟨length, valueOffset⟩ _
  refine raises_ite (fun _ => raises_error.mpr rfl) (fun hend => ?_)
  exact raises_bind_ok (readBytes_ok (by omega)) (raises_ok _)

theorem pathAttribute_advances (d : Bytes) (stop : Nat) : Advances (pathAttribute d stop) := by
  intro offset items next h
  rw [pathAttribute] at h
  split at h
  · cases h
  obtain ⟨flags, _, h⟩ := bind_ok_iff.mp h
  obtain ⟨typeCodeRaw, _, h⟩ := bind_ok_iff.mp h
  obtain ⟨⟨length, valueOffset⟩, hl, h⟩ := bind_ok_iff.mp h
  have hoff := attributeLength_offset hl
  simp only at h
  split at h
  · cases h
  obtain ⟨value, _, h⟩ := bind_ok_iff.mp h
  cases h
  omega

theorem parsePathAttributes_raises {d : Bytes} {stop : Nat} (hstop : stop ≤ d.length)
    (start : Nat) : Raises OwnError (parsePathAttributes d start stop) :=
  raises_scan (pathAttribute_advances d stop) (fun _ _ => pathAttribute_raises hstop _) start

/-- Every read of the structure parser is below the header length, and the
header length is below the buffer. -/
theorem parseBgpUpdateStructure_raises (d : Bytes) :
    Raises OwnError (parseBgpUpdateStructure d) := by
  refine raises_bind (parseBgpHeader_raises d) (fun header _ => ?_)
  refine raises_ite (fun _ => raises_error.mpr rfl) (fun _ => ?_)
  refine raises_ite (fun _ => raises_error.mpr rfl) (fun hlen => ?_)
  refine raises_ite (fun _ => raises_error.mpr rfl) (fun h2 => ?_)
  refine raises_bind_ok (readUint16_ok (by omega)) ?_
  refine raises_ite (fun _ => raises_error.mpr rfl) (fun hw => ?_)
  refine raises_bind_ok (readBytes_ok (by omega)) ?_
  refine raises_ite (fun _ => raises_error.mpr rfl) (fun ht => ?_)
  refine raises_bind_ok (readUint16_ok (by omega)) ?_
  refine raises_ite (fun _ => raises_error.mpr rfl) (fun ha => ?_)
  refine raises_bind (parsePathAttributes_raises (by omega) _) (fun _ _ => ?_)
  exact raises_bind_ok (readBytes_upto (by omega)) (raises_ok _)

theorem parseIpv4Prefix_raises (d : Bytes) (offset : Nat) :
    Raises OwnError (parseIpv4Prefix d offset) := by
  rw [parseIpv4Prefix]
  refine raises_ite (fun _ => raises_error.mpr rfl) (fun hoff => ?_)
  refine raises_bind_ok (readUint8_ok (by omega)) ?_
  split
  · exact raises_error.mpr rfl
  rename_i h32
  refine raises_ite (fun _ => raises_error.mpr rfl) (fun hend => ?_)
  refine raises_bind_ok (readBytes_ok (by omega)) ?_
  have hpad : ((d.drop (offset + 1)).take ((d[offset].toNat + 7) / 8) ++
      List.replicate (4 - (d[offset].toNat + 7) / 8) 0).length = 4 := by
    rw [List.length_append, window_length (by omega), List.length_replicate]
    omega
  exact raises_bind_ok (ipv4Address_ok hpad) (raises_ok _)

theorem parseIpv6Prefix_raises (d : Bytes) (offset : Nat) :
    Raises OwnError (parseIpv6Prefix d offset) := by
  rw [parseIpv6Prefix]
  refine raises_ite (fun _ => raises_error.mpr rfl) (fun hoff => ?_)
  refine raises_bind_ok (readUint8_ok (by omega)) ?_
  split
  · exact raises_error.mpr rfl
  rename_i h128
  refine raises_ite (fun _ => raises_error.mpr rfl) (fun hend => ?_)
  refine raises_bind_ok (readBytes_ok (by omega)) ?_
  have hpad : ((d.drop (offset + 1)).take ((d[offset].toNat + 7) / 8) ++
      List.replicate (16 - (d[offset].toNat + 7) / 8) 0).length = 16 := by
    rw [List.length_append, window_length (by omega), List.length_replicate]
    omega
  exact raises_bind_ok (ipv6Address_ok hpad) (raises_ok _)

/-- An accepted prefix consumes at least its length octet. -/
theorem parseIpv4Prefix_consumes {d : Bytes} {offset consumed : Nat} {c : Cidr}
    (h : parseIpv4Prefix d offset = .ok (c, consumed)) : 0 < consumed := by
  rw [parseIpv4Prefix] at h
  split at h
  · cases h
  obtain ⟨prefixLen, _, h⟩ := bind_ok_iff.mp h
  split at h
  · cases h
  simp only at h
  split at h
  · cases h
  obtain ⟨_, _, h⟩ := bind_ok_iff.mp h
  obtain ⟨_, _, h⟩ := bind_ok_iff.mp h
  cases h
  omega

theorem parseIpv6Prefix_consumes {d : Bytes} {offset consumed : Nat} {c : Cidr}
    (h : parseIpv6Prefix d offset = .ok (c, consumed)) : 0 < consumed := by
  rw [parseIpv6Prefix] at h
  split at h
  · cases h
  obtain ⟨prefixLen, _, h⟩ := bind_ok_iff.mp h
  split at h
  · cases h
  simp only at h
  split at h
  · cases h
  obtain ⟨_, _, h⟩ := bind_ok_iff.mp h
  obtain ⟨_, _, h⟩ := bind_ok_iff.mp h
  cases h
  omega

section Prefixes

variable {parse : Bytes → Nat → Except PyErr (Cidr × Nat)}

/-- A prefix loop goes forward when its decoder consumes something. -/
theorem prefixRound_advances {d : Bytes}
    (hpos : ∀ offset c consumed, parse d offset = .ok (c, consumed) → 0 < consumed) :
    Advances (fun offset => do
      let (c, consumed) ← parse d offset
      .ok ([PrefixEntry.cidr c], some (offset + consumed))) := by
  intro offset items next h
  obtain ⟨⟨c, consumed⟩, hp, h⟩ := bind_ok_iff.mp h
  have := hpos offset c consumed hp
  cases h
  omega

theorem parsePrefixes_raises {p : PyErr → Prop} {d : Bytes}
    (hraise : ∀ offset, Raises p (parse d offset))
    (hpos : ∀ offset c consumed, parse d offset = .ok (c, consumed) → 0 < consumed)
    (offset : Nat) : Raises p (parsePrefixes parse d offset) :=
  raises_scan (prefixRound_advances hpos)
    (fun o _ => raises_bind (hraise o) (fun _ _ => raises_ok _)) offset

end Prefixes

theorem parseIpv4Prefixes_raises (d : Bytes) (offset : Nat) :
    Raises OwnError (parsePrefixes parseIpv4Prefix d offset) :=
  parsePrefixes_raises (parseIpv4Prefix_raises d) (fun _ _ _ => parseIpv4Prefix_consumes) offset

theorem parseIpv6Prefixes_raises (d : Bytes) (offset : Nat) :
    Raises OwnError (parsePrefixes parseIpv6Prefix d offset) :=
  parsePrefixes_raises (parseIpv6Prefix_raises d) (fun _ _ _ => parseIpv6Prefix_consumes) offset

/-- A prefix loop over something returns something. -/
theorem parsePrefixes_ne_nil {data : Bytes} {ps : List PrefixEntry}
    (h : parsePrefixes parseIpv4Prefix data 0 = .ok ps) : data ≠ [] ↔ ps ≠ [] := by
  cases data with
  | nil =>
    rw [parsePrefixes, scan_done (by simp)] at h
    cases h
    simp
  | cons b data =>
    rw [parsePrefixes, scan_step (prefixRound_advances
      fun _ _ _ hp => parseIpv4Prefix_consumes hp) (by simp)] at h
    obtain ⟨round, hround, h⟩ := bind_ok_iff.mp h
    obtain ⟨⟨c, consumed⟩, _, hround⟩ := bind_ok_iff.mp hround
    cases hround
    obtain ⟨rest, _, h⟩ := bind_ok_iff.mp h
    cases h
    simp

/-! ## Inside the handler -/

theorem caught_readUint8 (d : Bytes) (offset : Nat) : Raises Caught (readUint8 d offset) :=
  caught_of_valueError (raises_readUint8 d offset)

theorem caught_readUint16 (d : Bytes) (offset : Nat) : Raises Caught (readUint16 d offset) :=
  caught_of_valueError (raises_readUint16 d offset)

theorem caught_readUint32 (d : Bytes) (offset : Nat) : Raises Caught (readUint32 d offset) :=
  caught_of_valueError (raises_readUint32 d offset)

theorem caught_readBytes (d : Bytes) (offset : Nat) (length : Int) :
    Raises Caught (readBytes d offset length) :=
  caught_of_valueError (raises_readBytes d offset length)

theorem caught_ipv4Address (d : Bytes) : Raises Caught (ipv4Address d) :=
  caught_of_valueError (raises_ipv4Address d)

theorem caught_index (d : Bytes) (offset : Nat) : Raises Caught (index d offset) := by
  rw [index]
  split
  · exact raises_ok _
  · exact raises_error.mpr rfl

theorem caught_segmentAsNumbers (value : Bytes) (segmentType size count : Nat) :
    ∀ offset, Raises Caught (segmentAsNumbers value segmentType size count offset) := by
  induction count with
  | zero => exact fun _ => raises_ok _
  | succ count ih =>
    intro offset
    refine raises_bind ?_ (fun asNum _ => raises_bind (ih _) (fun rest _ => ?_))
    · exact raises_ite (fun _ => caught_readUint32 value _) (fun _ => caught_readUint16 value _)
    · exact raises_ite (fun _ => raises_ok _) (fun _ =>
        raises_ite (fun _ => raises_ok _) (fun _ => raises_ok _))

theorem caught_asPathSegment (value : Bytes) (offset : Nat) :
    Raises Caught (asPathSegment value offset) := by
  rw [asPathSegment]
  refine raises_ite (fun _ => raises_error.mpr rfl) (fun _ => ?_)
  refine raises_bind (caught_readUint8 value _) (fun segmentType _ => ?_)
  refine raises_bind (caught_readUint8 value _) (fun segmentLength _ => ?_)
  refine raises_ite (fun _ => raises_error.mpr rfl) (fun _ => ?_)
  exact raises_bind (caught_segmentAsNumbers value _ _ _ _) (fun _ _ => raises_ok _)

theorem asPathSegment_advances (value : Bytes) : Advances (asPathSegment value) := by
  intro offset items next h
  rw [asPathSegment] at h
  split at h
  · cases h
  obtain ⟨segmentType, _, h⟩ := bind_ok_iff.mp h
  obtain ⟨segmentLength, _, h⟩ := bind_ok_iff.mp h
  simp only at h
  split at h
  · cases h
  obtain ⟨asNumbers, _, h⟩ := bind_ok_iff.mp h
  cases h
  omega

theorem caught_parseAsPath (value : Bytes) : Raises Caught (parseAsPath value) :=
  raises_scan (asPathSegment_advances value) (fun _ _ => caught_asPathSegment value _) 0

theorem community_advances (value : Bytes) : Advances (community value) := by
  intro offset items next h
  obtain ⟨asNum, _, h⟩ := bind_ok_iff.mp h
  obtain ⟨commValue, _, h⟩ := bind_ok_iff.mp h
  cases h
  omega

theorem caught_parseCommunities (value : Bytes) : Raises Caught (parseCommunities value) := by
  refine raises_ite (fun _ => raises_error.mpr rfl) (fun _ => ?_)
  refine raises_scan (community_advances value) (fun offset _ => ?_) 0
  refine raises_bind (caught_readUint16 value _) (fun _ _ => ?_)
  exact raises_bind (caught_readUint16 value _) (fun _ _ => raises_ok _)

theorem caught_twoOctetAsCommunity (label : String) (value : Bytes) (offset : Nat) :
    Raises Caught (twoOctetAsCommunity label value offset) := by
  refine raises_bind (caught_readUint16 value _) (fun _ _ => ?_)
  exact raises_bind (caught_readUint32 value _) (fun _ _ => raises_ok _)

theorem caught_ipv4Community (label : String) (value : Bytes) (offset : Nat) :
    Raises Caught (ipv4Community label value offset) := by
  refine raises_bind (caught_readBytes value _ _) (fun _ _ => ?_)
  refine raises_bind (caught_ipv4Address _) (fun _ _ => ?_)
  exact raises_bind (caught_readUint16 value _) (fun _ _ => raises_ok _)

theorem caught_fourOctetAsCommunity (label : String) (value : Bytes) (offset : Nat) :
    Raises Caught (fourOctetAsCommunity label value offset) := by
  refine raises_bind (caught_readUint32 value _) (fun _ _ => ?_)
  exact raises_bind (caught_readUint16 value _) (fun _ _ => raises_ok _)

/-- A read followed by a text of it. -/
private theorem caught_bytesText (value : Bytes) (offset : Nat) (length : Int)
    (text : Bytes → String) :
    Raises Caught (do
      let b ← readBytes value offset length
      (.ok (text b) : Except PyErr String)) :=
  raises_bind (caught_readBytes value offset length) (fun _ _ => raises_ok _)

theorem caught_extendedCommunity (value : Bytes) (offset : Nat) :
    Raises Caught (extendedCommunity value offset) := by
  refine raises_bind (caught_readUint8 value _) (fun extType _ => ?_)
  refine raises_bind (caught_readUint8 value _) (fun extSubtype _ => ?_)
  refine raises_ite (fun _ => ?_) (fun _ => ?_)
  · refine raises_bind (caught_readBytes value _ _) (fun _ _ => ?_)
    exact raises_bind (caught_ipv4Address _) (fun _ _ => raises_ok _)
  refine raises_ite (fun _ => caught_twoOctetAsCommunity _ _ _) (fun _ => ?_)
  refine raises_ite (fun _ => caught_twoOctetAsCommunity _ _ _) (fun _ => ?_)
  refine raises_ite (fun _ => caught_ipv4Community _ _ _) (fun _ => ?_)
  refine raises_ite (fun _ => caught_ipv4Community _ _ _) (fun _ => ?_)
  refine raises_ite (fun _ => caught_fourOctetAsCommunity _ _ _) (fun _ => ?_)
  refine raises_ite (fun _ => caught_fourOctetAsCommunity _ _ _) (fun _ => ?_)
  refine raises_ite (fun _ => caught_bytesText _ _ _ _) (fun _ => ?_)
  refine raises_ite (fun _ => ?_) (fun _ => ?_)
  · refine raises_ite (fun _ => ?_) (fun _ => ?_)
    · refine raises_bind (caught_readUint8 value _) (fun _ _ => ?_)
      exact raises_bind (caught_readUint32 value _) (fun _ _ => raises_ok _)
    refine raises_ite (fun _ => ?_) (fun _ => ?_)
    · refine raises_bind (caught_readBytes value _ _) (fun labelBytes _ => ?_)
      refine raises_bind (caught_index labelBytes _) (fun _ _ => ?_)
      refine raises_bind (caught_index labelBytes _) (fun _ _ => ?_)
      exact raises_bind (caught_index labelBytes _) (fun _ _ => raises_ok _)
    exact raises_ite (fun _ => caught_bytesText _ _ _ _) (fun _ => caught_bytesText _ _ _ _)
  refine raises_ite (fun _ => caught_twoOctetAsCommunity _ _ _) (fun _ => ?_)
  exact caught_bytesText _ _ _ _

theorem extendedCommunity_advances (value : Bytes) :
    Advances (fun offset => do
      let text ← extendedCommunity value offset
      .ok ([text], some (offset + 8))) := by
  intro offset items next h
  obtain ⟨text, _, h⟩ := bind_ok_iff.mp h
  cases h
  omega

theorem caught_parseExtendedCommunities (value : Bytes) :
    Raises Caught (parseExtendedCommunities value) := by
  refine raises_ite (fun _ => raises_error.mpr rfl) (fun _ => ?_)
  exact raises_scan (extendedCommunity_advances value)
    (fun o _ => raises_bind (caught_extendedCommunity value o) (fun _ _ => raises_ok _)) 0

/-! ## EVPN routes that are long enough -/

theorem parseRouteDistinguisher_returns {value : Bytes} {offset : Nat}
    (h : offset + 8 ≤ value.length) : ∃ rd, parseRouteDistinguisher value offset = .ok rd := by
  have hip : ((value.drop (offset + 2)).take 4).length = 4 := window_length (by omega)
  rw [parseRouteDistinguisher, if_neg (by omega), readUint16_ok (by omega), ok_bind]
  split
  · exact ⟨_, by rw [readUint16_ok (by omega), ok_bind, readUint32_ok (by omega), ok_bind]⟩
  · split
    · exact ⟨_, by rw [show (4 : Int) = (4 : Nat) from rfl, readBytes_ok (by omega), ok_bind,
        ipv4Address_ok hip, ok_bind, readUint16_ok (by omega), ok_bind]⟩
    · split
      · exact ⟨_, by rw [readUint32_ok (by omega), ok_bind, readUint16_ok (by omega), ok_bind]⟩
      · exact ⟨_, by rw [show (8 : Int) = (8 : Nat) from rfl, readBytes_ok h, ok_bind]⟩

theorem parseEthernetSegmentId_returns {value : Bytes} {offset : Nat}
    (h : offset + 10 ≤ value.length) : ∃ esi, parseEthernetSegmentId value offset = .ok esi := by
  rw [parseEthernetSegmentId, if_neg (by omega), show (10 : Int) = (10 : Nat) from rfl,
    readBytes_ok h, ok_bind]
  exact ⟨_, rfl⟩

/-- Reading the MAC address moves by six octets at most. -/
theorem evpnMacAddress_returns (value : Bytes) (macLen routeOffset : Nat) :
    ∃ mac next, evpnMacAddress value macLen routeOffset = .ok (mac, next) ∧
      next ≤ routeOffset + 6 := by
  rw [evpnMacAddress]
  split
  · rename_i h
    rw [show (6 : Int) = (6 : Nat) from rfl, readBytes_ok (by omega), ok_bind]
    exact ⟨_, _, rfl, Nat.le_refl _⟩
  · exact ⟨_, _, rfl, by omega⟩

theorem evpnIpAddress_returns (value : Bytes) (ipLen routeOffset : Nat) :
    ∃ ip, evpnIpAddress value ipLen routeOffset = .ok ip := by
  rw [evpnIpAddress]
  split
  · rename_i h
    rw [show (4 : Int) = (4 : Nat) from rfl, readBytes_ok (by omega), ok_bind,
      ipv4Address_ok (window_length (by omega)), ok_bind]
    exact ⟨_, rfl⟩
  · split
    · rename_i h
      rw [show (16 : Int) = (16 : Nat) from rfl, readBytes_ok (by omega), ok_bind,
        ipv6Address_ok (window_length (by omega)), ok_bind]
      exact ⟨_, rfl⟩
    · exact ⟨_, rfl⟩

/-- A MAC/IP route of at least its fixed fields is decoded, whatever they hold. -/
theorem evpnMacIpRoute_returns {value : Bytes} {offset : Nat} (h : offset + 33 ≤ value.length) :
    ∃ route, evpnMacIpRoute value offset = .ok route := by
  obtain ⟨rd, hrd⟩ := parseRouteDistinguisher_returns (show offset + 8 ≤ value.length by omega)
  obtain ⟨esi, hesi⟩ :=
    parseEthernetSegmentId_returns (show offset + 8 + 10 ≤ value.length by omega)
  rw [evpnMacIpRoute, hrd, ok_bind]
  simp only
  rw [hesi, ok_bind, readUint8_ok (by omega), ok_bind]
  obtain ⟨mac, next, hmac, hnext⟩ := evpnMacAddress_returns value
    value[offset + 8 + 10 + 4].toNat (offset + 8 + 10 + 4 + 1)
  rw [hmac, ok_bind]
  simp only
  rw [readUint8_ok (by omega), ok_bind]
  obtain ⟨ip, hip⟩ := evpnIpAddress_returns value value[next].toNat (next + 1)
  rw [hip, ok_bind]
  exact ⟨_, rfl⟩

/-- An EVPN NLRI that stands whole in the buffer: only a Type 2 route is looked into. -/
theorem parseEvpnNlri_whole {d s : Bytes} {offset : Nat} {routeType : UInt8} {body : Bytes}
    (hat : At d offset (routeType :: UInt8.ofNat body.length :: (body ++ s)))
    (hlen : body.length < 256) :
    parseEvpnNlri d offset =
      if routeType = 2 then
        if body.length < 33 then .error (.bgpParseError "EVPN Type 2 NLRI too short")
        else (fun route => (some route, 2 + body.length)) <$> evpnMacIpRoute d (offset + 2)
      else .ok (some (.other routeType.toNat), 2 + body.length) := by
  have hl := hat.length
  simp only [List.length_cons, List.length_append] at hl
  have htwo : routeType.toNat = 2 ↔ routeType = 2 := by
    rw [← UInt8.toNat_inj]
    rfl
  rw [parseEvpnNlri, if_neg (by omega), readUint8_at hat, ok_bind, readUint8_octet hat.tail hlen,
    ok_bind, if_neg (by omega)]
  by_cases h2 : routeType = 2
  · rw [if_pos (htwo.mpr h2), if_pos h2]
    rfl
  · rw [if_neg (mt htwo.mp h2), if_neg h2]

/-- It is decoded, if a Type 2 route has its fixed fields. -/
theorem parseEvpnNlri_returns {d s : Bytes} {offset : Nat} {routeType : UInt8} {body : Bytes}
    (hat : At d offset (routeType :: UInt8.ofNat body.length :: (body ++ s)))
    (hlen : body.length < 256) (htype : routeType = 2 → 33 ≤ body.length) :
    ∃ route, parseEvpnNlri d offset = .ok (some route, 2 + body.length) := by
  have hl := hat.length
  simp only [List.length_cons, List.length_append] at hl
  rw [parseEvpnNlri_whole hat hlen]
  by_cases h2 : routeType = 2
  · have hbody := htype h2
    obtain ⟨route, hroute⟩ := evpnMacIpRoute_returns (show offset + 2 + 33 ≤ d.length by omega)
    rw [if_pos h2, if_neg (by omega), hroute]
    exact ⟨_, rfl⟩
  · rw [if_neg h2]
    exact ⟨_, rfl⟩

/-- The checks before a Type 2 route leave its decoder all the octets it reads, so only the
checks themselves fail. -/
theorem parseEvpnNlri_raises (value : Bytes) (offset : Nat) :
    Raises OwnError (parseEvpnNlri value offset) := by
  rw [parseEvpnNlri]
  refine raises_ite (fun _ => raises_ok _) (fun h2 => ?_)
  refine raises_bind_ok (readUint8_ok (by omega)) ?_
  refine raises_bind_ok (readUint8_ok (by omega)) ?_
  refine raises_ite (fun _ => raises_error.mpr rfl) (fun hfit => ?_)
  refine raises_ite (fun _ => ?_) (fun _ => raises_ok _)
  refine raises_ite (fun _ => raises_error.mpr rfl) (fun h33 => ?_)
  obtain ⟨route, hroute⟩ := evpnMacIpRoute_returns (show offset + 2 + 33 ≤ value.length by omega)
  exact raises_bind_ok hroute (raises_ok _)

/-- The loop breaks where nothing is consumed, so a round that goes on moves forward. -/
theorem evpnRound_advances (value : Bytes) :
    Advances (fun offset => do
      let (routeInfo, consumed) ← parseEvpnNlri value offset
      .ok (routeInfo.toList.map PrefixEntry.evpn,
        if consumed = 0 then none else some (offset + consumed))) := by
  intro offset items next h
  obtain ⟨⟨routeInfo, consumed⟩, _, h⟩ := bind_ok_iff.mp h
  by_cases h0 : consumed = 0
  · simp [h0] at h
  · simp only [h0, ↓reduceIte] at h
    cases h
    omega

theorem parseEvpnRoutes_raises (value : Bytes) (offset : Nat) :
    Raises OwnError (parseEvpnRoutes value offset) :=
  raises_scan (evpnRound_advances value)
    (fun _ _ => raises_bind (parseEvpnNlri_raises value _) (fun _ _ => raises_ok _)) offset

theorem parseNlri_raises (afi safi : Nat) (value : Bytes) (offset : Nat) :
    Raises OwnError (parseNlri afi safi value offset) := by
  rw [parseNlri]
  refine raises_ite (fun _ => parseIpv4Prefixes_raises value offset) (fun _ => ?_)
  refine raises_ite (fun _ => parseIpv6Prefixes_raises value offset) (fun _ => ?_)
  exact raises_ite (fun _ => parseEvpnRoutes_raises value offset) (fun _ => raises_ok _)

/-! ## Multiprotocol attributes -/

/-- No next hop makes MP_REACH_NLRI fail: one that is too short is left out. -/
theorem mpNextHop_returns (afi : Nat) (nextHop : Bytes) :
    ∃ hop, mpNextHop afi nextHop.length nextHop = .ok hop := by
  have h4 : ∀ {n : Nat}, n ≤ nextHop.length → (nextHop.take n).length = n := by
    intro n hn
    rw [List.length_take, Nat.min_eq_left hn]
  rw [mpNextHop]
  split
  · split
    · rename_i h
      exact ⟨_, by rw [ipv4Address_ok (h4 h), ok_bind]⟩
    · exact ⟨_, rfl⟩
  · split
    · split
      · rename_i h
        exact ⟨_, by rw [ipv6Address_ok (h4 h), ok_bind]⟩
      · exact ⟨_, rfl⟩
    · split
      · split
        · rename_i h
          exact ⟨_, by rw [ipv4Address_ok (h4 h.ge), ok_bind]⟩
        · split
          · rename_i h
            exact ⟨_, by rw [ipv6Address_ok (h4 h.ge), ok_bind]⟩
          · exact ⟨_, rfl⟩
      · exact ⟨_, rfl⟩

/-- The next hop is as long as it says. -/
theorem parseMpReachNlri_raises (value : Bytes) : Raises OwnError (parseMpReachNlri value) := by
  rw [parseMpReachNlri]
  refine raises_ite (fun _ => raises_error.mpr rfl) (fun h5 => ?_)
  refine raises_bind_ok (readUint16_ok (by omega)) ?_
  refine raises_bind_ok (readUint8_ok (by omega)) ?_
  refine raises_bind_ok (readUint8_ok (by omega)) ?_
  refine raises_ite (fun _ => raises_error.mpr rfl) (fun hfit => ?_)
  refine raises_bind_ok (readBytes_ok (by omega)) ?_
  have hlength := window_length (show 4 + value[3].toNat ≤ value.length by omega)
  obtain ⟨hop, hhop⟩ := mpNextHop_returns (beNat ((value.drop 0).take 2))
    ((value.drop 4).take value[3].toNat)
  rw [hlength] at hhop
  refine raises_bind_ok hhop ?_
  exact raises_bind (parseNlri_raises _ _ value _) (fun _ _ => raises_ok _)

theorem parseMpUnreachNlri_raises (value : Bytes) : Raises OwnError (parseMpUnreachNlri value) := by
  rw [parseMpUnreachNlri]
  refine raises_ite (fun _ => raises_error.mpr rfl) (fun h3 => ?_)
  refine raises_bind_ok (readUint16_ok (by omega)) ?_
  refine raises_bind_ok (readUint8_ok (by omega)) ?_
  exact raises_bind (parseNlri_raises _ _ value _) (fun _ _ => raises_ok _)

end Pybmpmon.Protocol.DecoderErrors
