import Pybmpmon.Utils.Windows
import Pybmpmon.Protocol.BmpErrors

/-!
# What the BMP parsers read, and when they accept

A read inside the message is the same whatever follows it. A message is accepted when
the buffer has the fields of its type; the fields of the common header and the TLVs are
the only ones that are checked against the declared length.
-/
namespace Pybmpmon.Protocol.BmpAcceptance

open Pybmpmon.Lib.ByteString Pybmpmon.Lib.Outcome Pybmpmon.Lib.Scan Pybmpmon.Python
open Pybmpmon.Utils.Binary Pybmpmon.Utils.Windows Pybmpmon.Protocol.Bmp
open Pybmpmon.Protocol.BmpParser Pybmpmon.Protocol.BmpErrors

/-! ## Parsers inside the message -/

section Append

variable {d : Bytes} (e : Bytes)

theorem parseBmpHeader_append (hd : 6 ≤ d.length) : parseBmpHeader (d ++ e) = parseBmpHeader d := by
  have hD : ¬(d ++ e).length < BMP_HEADER_SIZE := by
    rw [List.length_append, BMP_HEADER_SIZE]
    omega
  have hd' : ¬d.length < BMP_HEADER_SIZE := by
    rw [BMP_HEADER_SIZE]
    omega
  rw [parseBmpHeader, parseBmpHeader, if_neg hD, if_neg hd', readUint8_append e (by omega),
    readUint32_append e (by omega), readUint8_append e (by omega)]

theorem parsePerPeerHeader_append {offset : Nat} (hd : offset + 42 ≤ d.length) :
    parsePerPeerHeader (d ++ e) offset = parsePerPeerHeader d offset := by
  have hD : ¬(d ++ e).length < offset + BMP_PER_PEER_HEADER_SIZE := by
    rw [List.length_append, BMP_PER_PEER_HEADER_SIZE]
    omega
  have hd' : ¬d.length < offset + BMP_PER_PEER_HEADER_SIZE := by
    rw [BMP_PER_PEER_HEADER_SIZE]
    omega
  rw [parsePerPeerHeader, parsePerPeerHeader, if_neg hD, if_neg hd', readUint8_append e (by omega),
    readUint8_append e (by omega), show (8 : Int) = (8 : Nat) from rfl,
    readBytes_append e (by omega), readUint32_append e (by omega), readIpv4Address_append e (by omega),
    readUint32_append e (by omega), readUint32_append e (by omega)]
  simp only [readIpAddress_append e _ (show offset + 10 + 16 ≤ d.length by omega)]

/-- The TLV loop checks every read against `stop`. -/
theorem informationTlv_append {stop : Nat} (hstop : stop ≤ d.length) (pos : Nat) :
    informationTlv (d ++ e) stop pos = informationTlv d stop pos := by
  rw [informationTlv, informationTlv]
  by_cases hpos : pos + 4 > stop
  · rw [if_pos hpos, if_pos hpos]
  · rw [if_neg hpos, if_neg hpos, readUint16_append e (by omega), readUint16_append e (by omega)]
    congr 1
    refine bind_congr fun infoType => bind_congr fun infoLength => ?_
    by_cases hlen : pos + 4 + infoLength > stop
    · rw [if_pos hlen, if_pos hlen]
    · rw [if_neg hlen, if_neg hlen, readBytes_append e (by omega)]

theorem parseInformationTlvs_append {stop : Nat} (hstop : stop ≤ d.length) (offset : Nat) :
    parseInformationTlvs (d ++ e) offset stop = parseInformationTlvs d offset stop := by
  rw [parseInformationTlvs, parseInformationTlvs, funext (informationTlv_append e hstop)]

theorem readStatValue_append {offset statLength : Nat} (h : offset + statLength ≤ d.length) :
    readStatValue (d ++ e) offset statLength = readStatValue d offset statLength := by
  rw [readStatValue, readStatValue]
  by_cases h4 : statLength = 4
  · rw [if_pos h4, if_pos h4, readUint32_append e (by omega)]
  by_cases h8 : statLength = 8
  · rw [if_neg h4, if_neg h4, if_pos h8, if_pos h8, readUint32_append e (by omega),
      readUint32_append e (by omega)]
  · rw [if_neg h4, if_neg h4, if_neg h8, if_neg h8, readBytes_append e h]

theorem statTlv_append {stop : Nat} (hstop : stop ≤ d.length) (tlvOffset : Nat) :
    statTlv (d ++ e) stop tlvOffset = statTlv d stop tlvOffset := by
  rw [statTlv, statTlv]
  by_cases hoffset : tlvOffset + 4 > stop
  · rw [if_pos hoffset, if_pos hoffset]
  · rw [if_neg hoffset, if_neg hoffset, readUint16_append e (by omega), readUint16_append e (by omega)]
    congr 1
    refine bind_congr fun statType => bind_congr fun statLength => ?_
    by_cases hlen : tlvOffset + 4 + statLength > stop
    · rw [if_pos hlen, if_pos hlen]
    · rw [if_neg hlen, if_neg hlen, readStatValue_append e (by omega)]

theorem statsTlvs_append {stop : Nat} (hstop : stop ≤ d.length) (count : Nat) :
    ∀ tlvOffset, statsTlvs (d ++ e) stop count tlvOffset = statsTlvs d stop count tlvOffset := by
  induction count with
  | zero => exact fun _ => rfl
  | succ count ih =>
    intro tlvOffset
    rw [statsTlvs, statsTlvs, statTlv_append e hstop]
    refine bind_congr fun round => ?_
    simp only [ih round.2]

end Append

/-! ## When a parser accepts -/

/-- The 16-bit number at an offset. -/
def field16 (d : Bytes) (offset : Nat) : Nat := beNat ((d.drop offset).take 2)

theorem field16_append {d : Bytes} (e : Bytes) {offset : Nat} (h : offset + 2 ≤ d.length) :
    field16 (d ++ e) offset = field16 d offset := congrArg beNat (octets_append e h)

/-- The peer type octet of a message is one of the four types. -/
def KnownPeerType (d : Bytes) : Prop :=
  ∃ b, d[6]? = some b ∧ (BMPPeerType.ofNat? b.toNat).isSome

theorem parsePerPeerHeader_accepts {d : Bytes} :
    Returns (parsePerPeerHeader d 6) ↔ 48 ≤ d.length ∧ KnownPeerType d := by
  constructor
  · rintro ⟨p, hp⟩
    have hfits := parsePerPeerHeader_fits hp
    refine ⟨hfits, ?_⟩
    rw [parsePerPeerHeader] at hp
    split at hp
    · cases hp
    rw [exceptValueError_ok_iff] at hp
    obtain ⟨peerTypeRaw, htype, hp⟩ := bind_ok_iff.mp hp
    obtain ⟨peerFlags, _, hp⟩ := bind_ok_iff.mp hp
    rw [readUint8_ok (by omega)] at htype
    cases htype
    refine ⟨d[6], List.getElem?_eq_getElem (by omega), ?_⟩
    split at hp
    · cases hp
    · rename_i hsome
      rw [hsome]
      rfl
  · rintro ⟨hfits, b, hb, hsome⟩
    obtain ⟨peerType, htype⟩ := Option.isSome_iff_exists.mp hsome
    obtain ⟨hsix, rfl⟩ := List.getElem?_eq_some_iff.mp hb
    obtain ⟨address, haddress⟩ :=
      readIpAddress_returns (isIpv6 d[7].toNat) (show 16 + 16 ≤ d.length by omega)
    rw [parsePerPeerHeader, if_neg (by rw [BMP_PER_PEER_HEADER_SIZE]; omega),
      readUint8_ok (by omega), ok_bind, readUint8_ok (by omega), ok_bind, htype]
    simp only
    rw [show (8 : Int) = (8 : Nat) from rfl, readBytes_ok (by omega), ok_bind, haddress, ok_bind,
      readUint32_ok (by omega), ok_bind, readIpv4Address_ok (by omega), ok_bind,
      readUint32_ok (by omega), ok_bind, readUint32_ok (by omega), ok_bind, exceptValueError_ok]
    exact ⟨_, rfl⟩

theorem openMessage_ok {label : String} {d : Bytes} {offset : Nat} (h19 : offset + 19 ≤ d.length)
    (hlen : offset + field16 d (offset + 16) ≤ d.length) :
    openMessage label d offset = .ok ((d.drop offset).take (field16 d (offset + 16)),
      offset + field16 d (offset + 16)) := by
  rw [openMessage, if_neg (by omega), readUint16_ok (by omega), ok_bind, ← field16, if_neg (by omega),
    readBytes_ok hlen, ok_bind]

theorem openMessage_fits {label : String} {d : Bytes} {offset next : Nat} {message : Bytes}
    (h : openMessage label d offset = .ok (message, next)) :
    offset + 19 ≤ d.length ∧ next = offset + field16 d (offset + 16) ∧ next ≤ d.length := by
  rw [openMessage] at h
  split at h
  · cases h
  rename_i h19
  rw [readUint16_ok (by omega), ok_bind, ← field16] at h
  split at h
  · cases h
  rename_i hlen
  rw [readBytes_ok (by omega), ok_bind] at h
  cases h
  exact ⟨by omega, rfl, by omega⟩

theorem openMessage_append {d : Bytes} (e : Bytes) {label : String} {offset : Nat}
    (h19 : offset + 19 ≤ d.length) (hlen : offset + field16 d (offset + 16) ≤ d.length) :
    openMessage label (d ++ e) offset = openMessage label d offset := by
  have hfield := field16_append e (show offset + 16 + 2 ≤ d.length by omega)
  have hsize : (d ++ e).length = d.length + e.length := List.length_append
  rw [openMessage_ok (by omega) (by rw [hfield]; omega), openMessage_ok h19 hlen, hfield,
    octets_append e hlen]

/-- A check of the buffer that the message passes. -/
theorem check_passes {d : Bytes} (e : Bytes) {size : Nat} (hd : size ≤ d.length) :
    ¬(d ++ e).length < size ∧ ¬d.length < size := by
  rw [List.length_append]
  omega

/-- The length fields of the two OPEN messages of a Peer Up. -/
def sentLength (d : Bytes) : Nat := field16 d 84

def receivedLength (d : Bytes) : Nat := field16 d (84 + sentLength d)

/-- A buffer that starts with an accepted header and holds the declared length. -/
structure Begins (d : Bytes) (header : BMPHeader) : Prop where
  parsed : parseBmpHeader d = .ok header
  complete : header.length ≤ d.length

namespace Begins

variable {d : Bytes} {header : BMPHeader} (h : Begins d header)
include h

theorem routeMonitoring (htype : header.msgType = .routeMonitoring) :
    Returns (parseBmpMessage d) ↔ Returns (parsePerPeerHeader d 6) := by
  rw [parseBmpMessage, h.parsed, ok_bind, if_neg (Nat.not_lt.mpr h.complete), htype]
  simp only
  rw [returns_map, parseRouteMonitoringMessage, h.parsed, ok_bind, if_neg (not_not_intro htype)]
  constructor
  · intro hm
    obtain ⟨p, hp, -⟩ := returns_bind.mp hm
    exact ⟨p, hp⟩
  · rintro ⟨p, hp⟩
    exact returns_bind.mpr ⟨p, hp, returns_bind.mpr
      ⟨_, readBytes_upto h.complete, _, rfl⟩⟩

theorem peerDown (htype : header.msgType = .peerDownNotification) :
    Returns (parseBmpMessage d) ↔ Returns (parsePerPeerHeader d 6) ∧
      ∃ b, d[48]? = some b ∧ (BMPPeerDownReason.ofNat? b.toNat).isSome := by
  rw [parseBmpMessage, h.parsed, ok_bind, if_neg (Nat.not_lt.mpr h.complete), htype]
  simp only
  rw [returns_map, parsePeerDownMessage, h.parsed, ok_bind, if_neg (not_not_intro htype)]
  constructor
  · intro hm
    obtain ⟨p, hp, hm⟩ := returns_bind.mp hm
    obtain ⟨hlen, hm⟩ := returns_check.mp hm
    simp only [BMP_HEADER_SIZE, BMP_PER_PEER_HEADER_SIZE] at hlen
    obtain ⟨reason, hreason, -⟩ := returns_bind.mp hm
    refine ⟨⟨p, hp⟩, d[48], List.getElem?_eq_getElem (by omega), ?_⟩
    rw [BMP_HEADER_SIZE, BMP_PER_PEER_HEADER_SIZE, peerDownReason, readUint8_ok (by omega)] at hreason
    simp only at hreason
    split at hreason
    · cases hreason
    · rename_i hsome
      rw [hsome]
      rfl
  · rintro ⟨⟨p, hp⟩, b, hb, hsome⟩
    obtain ⟨reason, hreason⟩ := Option.isSome_iff_exists.mp hsome
    obtain ⟨hlen, rfl⟩ := List.getElem?_eq_some_iff.mp hb
    have hsize : ¬d.length < BMP_HEADER_SIZE + BMP_PER_PEER_HEADER_SIZE + 1 := by
      simp only [BMP_HEADER_SIZE, BMP_PER_PEER_HEADER_SIZE]
      omega
    have hread : peerDownReason d 48 = .ok reason := by
      rw [peerDownReason, readUint8_ok hlen]
      simp only [hreason]
    exact returns_bind.mpr ⟨p, hp, returns_check.mpr ⟨hsize, returns_bind.mpr ⟨reason, hread,
      returns_bind.mpr ⟨_, readBytes_upto h.complete, _, rfl⟩⟩⟩⟩

theorem statisticsReport (htype : header.msgType = .statisticsReport) :
    Returns (parseBmpMessage d) ↔ Returns (parsePerPeerHeader d 6) ∧ 52 ≤ d.length ∧
      Returns (statsTlvs d header.length (beNat ((d.drop 48).take 4)) 52) := by
  rw [parseBmpMessage, h.parsed, ok_bind, if_neg (Nat.not_lt.mpr h.complete), htype]
  simp only
  rw [returns_map, parseStatisticsReportMessage, h.parsed, ok_bind, if_neg (not_not_intro htype)]
  constructor
  · intro hm
    obtain ⟨p, hp, hm⟩ := returns_bind.mp hm
    obtain ⟨hlen, hm⟩ := returns_check.mp hm
    simp only [BMP_HEADER_SIZE, BMP_PER_PEER_HEADER_SIZE] at hlen
    obtain ⟨count, hcount, hm⟩ := returns_bind.mp hm
    have hread := readUint32_ok (show 48 + 4 ≤ d.length by omega)
    cases hread.symm.trans hcount
    obtain ⟨tlvs, htlvs, -⟩ := returns_bind.mp hm
    exact ⟨⟨p, hp⟩, by omega, tlvs, htlvs⟩
  · rintro ⟨⟨p, hp⟩, hlen, tlvs, htlvs⟩
    have hsize : ¬d.length < BMP_HEADER_SIZE + BMP_PER_PEER_HEADER_SIZE + 4 := by
      simp only [BMP_HEADER_SIZE, BMP_PER_PEER_HEADER_SIZE]
      omega
    exact returns_bind.mpr ⟨p, hp, returns_check.mpr ⟨hsize, returns_bind.mpr
      ⟨_, readUint32_ok (show 48 + 4 ≤ d.length by omega), returns_bind.mpr ⟨tlvs, htlvs, _, rfl⟩⟩⟩⟩

theorem peerUp (htype : header.msgType = .peerUpNotification) :
    Returns (parseBmpMessage d) ↔ Returns (parsePerPeerHeader d 6) ∧
      87 + sentLength d ≤ d.length ∧ 68 + sentLength d + receivedLength d ≤ d.length ∧
      Returns (parseInformationTlvs d (68 + sentLength d + receivedLength d) header.length) := by
  rw [parseBmpMessage, h.parsed, ok_bind, if_neg (Nat.not_lt.mpr h.complete), htype]
  simp only
  rw [returns_map, parsePeerUpMessage, h.parsed, ok_bind, if_neg (not_not_intro htype)]
  have hfield : 68 + sentLength d + 16 = 84 + sentLength d := by omega
  constructor
  · intro hm
    obtain ⟨p, hp, hm⟩ := returns_bind.mp hm
    obtain ⟨-, hm⟩ := returns_check.mp hm
    obtain ⟨localAddress, -, hm⟩ := returns_bind.mp hm
    obtain ⟨localPort, -, hm⟩ := returns_bind.mp hm
    obtain ⟨remotePort, -, hm⟩ := returns_bind.mp hm
    obtain ⟨⟨sent, next⟩, hsent, hm⟩ := returns_bind.mp hm
    obtain ⟨⟨received, stop⟩, hreceived, hm⟩ := returns_bind.mp hm
    obtain ⟨tlvs, htlvs, -⟩ := returns_bind.mp hm
    have hnext : next = 68 + sentLength d := (openMessage_fits hsent).2.1
    subst hnext
    obtain ⟨h19, hstop, hle⟩ := openMessage_fits hreceived
    rw [hfield, ← receivedLength] at hstop
    subst hstop
    exact ⟨⟨p, hp⟩, by omega, hle, tlvs, htlvs⟩
  · rintro ⟨⟨p, hp⟩, h19, hstop, tlvs, htlvs⟩
    have hsize : ¬d.length < BMP_HEADER_SIZE + BMP_PER_PEER_HEADER_SIZE + 20 := by
      simp only [BMP_HEADER_SIZE, BMP_PER_PEER_HEADER_SIZE]
      omega
    obtain ⟨address, haddress⟩ :=
      readIpAddress_returns (isIpv6 p.peerFlags) (show 48 + 16 ≤ d.length by omega)
    have hsent : openMessage "sent" d 68 = .ok ((d.drop 68).take (sentLength d), 68 + sentLength d) :=
      openMessage_ok (by omega) (show 68 + sentLength d ≤ d.length by omega)
    have hreceived : openMessage "received" d (68 + sentLength d) =
        .ok (_, 68 + sentLength d + field16 d (68 + sentLength d + 16)) :=
      openMessage_ok (by omega) (by rw [hfield]; exact hstop)
    rw [hfield] at hreceived
    exact returns_bind.mpr ⟨p, hp, returns_check.mpr ⟨hsize, returns_bind.mpr ⟨address, haddress,
      returns_bind.mpr ⟨_, readUint16_ok (show 64 + 2 ≤ d.length by omega), returns_bind.mpr
        ⟨_, readUint16_ok (show 66 + 2 ≤ d.length by omega), returns_bind.mpr ⟨_, hsent, returns_bind.mpr
          ⟨_, hreceived, returns_bind.mpr ⟨tlvs, htlvs, _, rfl⟩⟩⟩⟩⟩⟩⟩⟩

end Begins

/-! ## Messages that hold their fields -/

section Append

variable {d : Bytes} {header : BMPHeader} (h : Begins d header) (e : Bytes)
include h

theorem Begins.append : Begins (d ++ e) header := by
  have hsize := (parseBmpHeader_length h.parsed).2.2
  have hle := h.complete
  exact ⟨(parseBmpHeader_append e hsize).trans h.parsed, by rw [List.length_append]; omega⟩

theorem readBytes_upto_append {offset : Nat} (hle : offset ≤ d.length) :
    readBytes (d ++ e) offset ((header.length : Int) - offset) =
      readBytes d offset ((header.length : Int) - offset) := by
  have hd := h.complete
  rw [readBytes_upto (h.append e).complete, readBytes_upto hd, octets_append e (by omega)]

theorem parseInitiationMessage_append :
    parseInitiationMessage (d ++ e) = parseInitiationMessage d := by
  rw [parseInitiationMessage, parseInitiationMessage, (h.append e).parsed, h.parsed, ok_bind, ok_bind,
    parseInformationTlvs_append e h.complete]

theorem parseTerminationMessage_append :
    parseTerminationMessage (d ++ e) = parseTerminationMessage d := by
  rw [parseTerminationMessage, parseTerminationMessage, (h.append e).parsed, h.parsed, ok_bind, ok_bind,
    parseInformationTlvs_append e h.complete]

theorem parseRouteMonitoringMessage_append (hd : 48 ≤ d.length) :
    parseRouteMonitoringMessage (d ++ e) = parseRouteMonitoringMessage d := by
  rw [parseRouteMonitoringMessage, parseRouteMonitoringMessage, (h.append e).parsed, h.parsed, ok_bind,
    ok_bind, parsePerPeerHeader_append e (show BMP_HEADER_SIZE + 42 ≤ d.length from hd)]
  simp only
  rw [readBytes_upto_append h e (show BMP_HEADER_SIZE + BMP_PER_PEER_HEADER_SIZE ≤ d.length from hd)]

theorem parsePeerDownMessage_append (hd : 49 ≤ d.length) :
    parsePeerDownMessage (d ++ e) = parsePeerDownMessage d := by
  obtain ⟨hD, hsize⟩ :=
    check_passes e (show BMP_HEADER_SIZE + BMP_PER_PEER_HEADER_SIZE + 1 ≤ d.length from hd)
  have hreason : BMP_HEADER_SIZE + BMP_PER_PEER_HEADER_SIZE < d.length := hd
  have hperPeer : BMP_HEADER_SIZE + 42 ≤ d.length := Nat.le_of_succ_le hd
  rw [parsePeerDownMessage, parsePeerDownMessage, (h.append e).parsed, h.parsed, ok_bind,
    ok_bind, parsePerPeerHeader_append e hperPeer]
  congr 1
  refine bind_congr fun p => ?_
  simp only
  rw [if_neg hD, if_neg hsize, peerDownReason, peerDownReason, readUint8_append e hreason,
    readBytes_upto_append h e (show BMP_HEADER_SIZE + BMP_PER_PEER_HEADER_SIZE + 1 ≤ d.length from hd)]

theorem parseStatisticsReportMessage_append (hd : 52 ≤ d.length) :
    parseStatisticsReportMessage (d ++ e) = parseStatisticsReportMessage d := by
  obtain ⟨hD, hsize⟩ :=
    check_passes e (show BMP_HEADER_SIZE + BMP_PER_PEER_HEADER_SIZE + 4 ≤ d.length from hd)
  have hperPeer : BMP_HEADER_SIZE + 42 ≤ d.length := Nat.le_trans (by decide) hd
  rw [parseStatisticsReportMessage, parseStatisticsReportMessage, (h.append e).parsed, h.parsed, ok_bind,
    ok_bind, parsePerPeerHeader_append e hperPeer]
  congr 1
  refine bind_congr fun p => ?_
  simp only
  rw [if_neg hD, if_neg hsize,
    readUint32_append e (show BMP_HEADER_SIZE + BMP_PER_PEER_HEADER_SIZE + 4 ≤ d.length from hd)]
  simp only [statsTlvs_append e h.complete]

theorem parsePeerUpMessage_append (h19 : 87 + sentLength d ≤ d.length)
    (hstop : 68 + sentLength d + receivedLength d ≤ d.length) :
    parsePeerUpMessage (d ++ e) = parsePeerUpMessage d := by
  have hfields : 68 ≤ d.length := by omega
  obtain ⟨hD, hsize⟩ :=
    check_passes e (show BMP_HEADER_SIZE + BMP_PER_PEER_HEADER_SIZE + 20 ≤ d.length from hfields)
  have hperPeer : BMP_HEADER_SIZE + 42 ≤ d.length := Nat.le_trans (by decide) hfields
  have hlocal : BMP_HEADER_SIZE + BMP_PER_PEER_HEADER_SIZE + 16 ≤ d.length :=
    Nat.le_trans (by decide) hfields
  have hports : BMP_HEADER_SIZE + BMP_PER_PEER_HEADER_SIZE + 16 + 2 ≤ d.length :=
    Nat.le_trans (by decide) hfields
  have hsent : openMessage "sent" d 68 = .ok ((d.drop 68).take (sentLength d), 68 + sentLength d) :=
    openMessage_ok (by omega) (show 68 + sentLength d ≤ d.length by omega)
  have hsent' : openMessage "sent" (d ++ e) 68 = openMessage "sent" d 68 :=
    openMessage_append e (by omega) (show 68 + sentLength d ≤ d.length by omega)
  have hreceived : openMessage "received" (d ++ e) (68 + sentLength d) =
      openMessage "received" d (68 + sentLength d) := by
    refine openMessage_append e (by omega) ?_
    rw [show 68 + sentLength d + 16 = 84 + sentLength d by omega]
    exact hstop
  rw [parsePeerUpMessage, parsePeerUpMessage, (h.append e).parsed, h.parsed, ok_bind,
    ok_bind, parsePerPeerHeader_append e hperPeer]
  congr 1
  refine bind_congr fun p => ?_
  simp only
  rw [if_neg hD, if_neg hsize, readIpAddress_append e _ hlocal, readUint16_append e hports,
    readUint16_append e (show BMP_HEADER_SIZE + BMP_PER_PEER_HEADER_SIZE + 18 + 2 ≤ d.length from hfields)]
  refine bind_congr fun localAddress => bind_congr fun localPort => bind_congr fun remotePort => ?_
  show openMessage "sent" (d ++ e) 68 >>= _ = openMessage "sent" d 68 >>= _
  rw [hsent', hsent, ok_bind, ok_bind]
  simp only
  rw [hreceived]
  simp only [parseInformationTlvs_append e h.complete]

end Append

end Pybmpmon.Protocol.BmpAcceptance
