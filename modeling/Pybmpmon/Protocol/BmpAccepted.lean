import Pybmpmon.Protocol.BmpMessages

/-!
# An accepted BMP message is written back

The converse of decoding what was encoded: whatever a parser accepts, the record it
returns spells the octets it was read from. Each reader is inverted where the cursor
stands, and the cursor that is left shows where the next field starts.
-/
namespace Pybmpmon.Protocol.BmpAccepted

open Pybmpmon.Lib.ByteString Pybmpmon.Lib.Outcome Pybmpmon.Lib.Scan Pybmpmon.Python
open Pybmpmon.Utils.Binary Pybmpmon.Protocol.Bmp Pybmpmon.Protocol.BmpParser
open Pybmpmon.Protocol.BmpEncoding Pybmpmon.Protocol.BmpMessages Pybmpmon.Protocol.BmpErrors

/-! ## Records in wire order -/

def encodeHeader (h : BMPHeader) : Bytes :=
  UInt8.ofNat h.version :: (beBytes 4 h.length ++ [UInt8.ofNat h.msgType.value])

def messageHeader : BMPMessage → BMPHeader
  | .initiation m => m.header
  | .termination m => m.header
  | .routeMonitoring m => m.header
  | .statisticsReport m => m.header
  | .peerDown m => m.header
  | .peerUp m => m.header

def encodeBody : BMPMessage → Bytes
  | .initiation m => m.informationTlvs.flatMap encodeInfoTlv
  | .termination m => m.informationTlvs.flatMap encodeInfoTlv
  | .routeMonitoring m => encodePerPeerHeader m.perPeerHeader ++ m.bgpUpdate
  | .statisticsReport m =>
      encodePerPeerHeader m.perPeerHeader ++ (beBytes 4 m.statsCount ++ m.statsTlvs.flatMap encodeStatTlv)
  | .peerDown m => encodePerPeerHeader m.perPeerHeader ++ (UInt8.ofNat m.reason.value :: m.data)
  | .peerUp m =>
      encodePerPeerHeader m.perPeerHeader ++ (addressField m.localAddress ++
        (beBytes 2 m.localPort ++ (beBytes 2 m.remotePort ++ (m.sentOpenMessage ++
          (m.receivedOpenMessage ++ m.informationTlvs.flatMap encodeInfoTlv)))))

/-- The fields of a record, in the order they are sent. -/
def encodeMessage (m : BMPMessage) : Bytes := encodeHeader (messageHeader m) ++ encodeBody m

/-! ## Inverted readers -/

theorem parseBmpHeader_inv {d : Bytes} {header : BMPHeader} (h : parseBmpHeader d = .ok header) :
    ∃ s, d = encodeHeader header ++ s ∧ At d 6 s := by
  unfold parseBmpHeader at h
  split at h
  · cases h
  rw [exceptValueError_ok_iff] at h
  obtain ⟨version, hversion, h⟩ := bind_ok_iff.mp h
  obtain ⟨_, s1, hs, hat1⟩ := readUint8_inv (at_zero d) hversion
  split at h
  · cases h
  obtain ⟨length, hlength, h⟩ := bind_ok_iff.mp h
  obtain ⟨_, s2, rfl, hat2⟩ := readUint32_inv hat1 hlength
  split at h
  · cases h
  obtain ⟨msgTypeRaw, htype, h⟩ := bind_ok_iff.mp h
  obtain ⟨_, s3, rfl, hat3⟩ := readUint8_inv hat2 htype
  split at h
  · cases h
  · rename_i t ht
    cases h
    refine ⟨s3, ?_, hat3⟩
    rw [hs, encodeHeader, ← BMPMessageType.eq_value ht]
    simp

theorem readIpAddress_inv {d s : Bytes} {offset : Nat} {v6 : Bool} {a : IpAddress} (hat : At d offset s)
    (h : readIpAddress d offset v6 = .ok a) :
    ∃ s', s = addressField a ++ s' ∧ At d (offset + 16) s' := by
  have hsize : offset + 16 ≤ d.length := by
    by_contra hlt
    rw [readIpAddress, if_pos (by omega)] at h
    cases h
  have hread : readBytes d offset (16 : Nat) = .ok ((d.drop offset).take 16) := readBytes_ok hsize
  obtain ⟨hl, s', hs, hat'⟩ := readBytes_inv hat hread
  rw [readIpAddress, if_neg (by omega), slice_nat] at h
  generalize (d.drop offset).take 16 = field at h hl hs
  have hfield : addressField a = field := by
    simp only at h
    split at h
    · rw [ipv6Address_ok hl] at h
      cases h
      rfl
    · rename_i hzero
      have hlast : slice field 12 16 = field.drop 12 := by
        rw [show (16 : Int) = (12 : Nat) + (4 : Nat) from rfl, slice_window,
          List.take_of_length_le (by rw [List.length_drop]; omega)]
      have h4 : (field.drop 12).length = 4 := by rw [List.length_drop]; omega
      rw [hlast, ipv4Address_ok h4] at h
      cases h
      have hzeros : field.take 12 = List.replicate 12 0 := by
        rw [List.eq_replicate_iff]
        refine ⟨by rw [List.length_take]; omega, fun b hb => ?_⟩
        simp only [Bool.or_eq_true, List.any_eq_true, not_or, not_exists, not_and] at hzero
        simpa using hzero.2 b hb
      rw [addressField, ← hzeros, List.take_append_drop]
  exact ⟨s', by rw [hfield]; exact hs, hat'⟩

theorem parsePerPeerHeader_inv {d s : Bytes} {offset : Nat} {p : BMPPerPeerHeader}
    (hat : At d offset s) (h : parsePerPeerHeader d offset = .ok p) :
    ∃ s', s = encodePerPeerHeader p ++ s' ∧ At d (offset + 42) s' := by
  unfold parsePerPeerHeader at h
  split at h
  · cases h
  rw [exceptValueError_ok_iff] at h
  obtain ⟨peerTypeRaw, htype, h⟩ := bind_ok_iff.mp h
  obtain ⟨_, s1, rfl, hat1⟩ := readUint8_inv hat htype
  obtain ⟨peerFlags, hflags, h⟩ := bind_ok_iff.mp h
  obtain ⟨_, s2, rfl, hat2⟩ := readUint8_inv hat1 hflags
  split at h
  · cases h
  rename_i peerType hpeerType
  obtain ⟨peerDistinguisher, hdist, h⟩ := bind_ok_iff.mp h
  obtain ⟨_, s3, rfl, hat3⟩ := readBytes_inv (n := 8) hat2 hdist
  obtain ⟨peerAddress, haddr, h⟩ := bind_ok_iff.mp h
  obtain ⟨s4, rfl, hat4⟩ := readIpAddress_inv hat3 haddr
  obtain ⟨peerAsn, hasn, h⟩ := bind_ok_iff.mp h
  obtain ⟨_, s5, rfl, hat5⟩ := readUint32_inv hat4 hasn
  obtain ⟨peerBgpId, hid, h⟩ := bind_ok_iff.mp h
  obtain ⟨s6, rfl, hat6⟩ := readIpv4Address_inv hat5 hid
  obtain ⟨timestampSec, hsec, h⟩ := bind_ok_iff.mp h
  obtain ⟨_, s7, rfl, hat7⟩ := readUint32_inv hat6 hsec
  obtain ⟨timestampUsec, husec, h⟩ := bind_ok_iff.mp h
  obtain ⟨_, s8, rfl, hat8⟩ := readUint32_inv hat7 husec
  cases h
  refine ⟨s8, ?_, hat8⟩
  rw [encodePerPeerHeader, ← BMPPeerType.eq_value hpeerType]
  simp

/-- A read of everything up to the end of the buffer returns what is left. -/
theorem readBytes_rest_inv {d s a : Bytes} {offset stop : Nat} (hat : At d offset s)
    (hstop : d.length = stop) (h : readBytes d offset ((stop : Int) - offset) = .ok a) : a = s := by
  have hl := hat.length
  rw [readBytes_upto (by omega), hat.rest, List.take_of_length_le (by omega)] at h
  cases h
  rfl

theorem informationTlv_inv {d s : Bytes} {stop offset : Nat} {items : List BMPInfoTLV}
    {next : Option Nat} (hat : At d offset s) (h : informationTlv d stop offset = .ok (items, next)) :
    ∃ t o' s', items = [t] ∧ next = some o' ∧ s = encodeInfoTlv t ++ s' ∧ At d o' s' ∧ o' ≤ stop := by
  unfold informationTlv at h
  split at h
  · cases h
  rw [exceptValueError_ok_iff] at h
  obtain ⟨infoType, htype, h⟩ := bind_ok_iff.mp h
  obtain ⟨_, s1, rfl, hat1⟩ := readUint16_inv hat htype
  obtain ⟨infoLength, hlength, h⟩ := bind_ok_iff.mp h
  obtain ⟨_, s2, rfl, hat2⟩ := readUint16_inv hat1 hlength
  split at h
  · cases h
  rename_i hfit
  obtain ⟨infoValue, hvalue, h⟩ := bind_ok_iff.mp h
  obtain ⟨_, s3, rfl, hat3⟩ := readBytes_inv hat2 hvalue
  cases h
  refine ⟨_, _, s3, rfl, rfl, ?_, hat3, by omega⟩
  simp [encodeInfoTlv]

theorem parseInformationTlvs_inv {d s : Bytes} {stop offset : Nat} {tlvs : List BMPInfoTLV}
    (hat : At d offset s) (hle : offset ≤ stop) (hstop : d.length = stop)
    (h : parseInformationTlvs d offset stop = .ok tlvs) : s = tlvs.flatMap encodeInfoTlv := by
  obtain ⟨ts, s', htlvs, hs, hend⟩ := scan_reencoded (informationTlv_advances d stop)
    (fun o s items next hat _ hround => informationTlv_inv hat hround) offset s tlvs hat hle h
  have hall : tlvs = ts := by rw [htlvs, List.flatMap_singleton']
  have hl := hend.length
  have hnil : s' = [] := List.eq_nil_of_length_eq_zero (by omega)
  rw [hs, hnil, List.append_nil, hall]

/-- A counter is written back in the octets it was read from. -/
theorem readStatValue_inv {d s : Bytes} {offset statLength v : Nat} (hat : At d offset s)
    (h : readStatValue d offset statLength = .ok v) :
    ∃ s', s = beBytes statLength v ++ s' ∧ At d (offset + statLength) s' := by
  have hsize : offset + statLength ≤ d.length := by
    unfold readStatValue at h
    split at h
    · obtain ⟨_, s', rfl, hat'⟩ := readUint32_inv hat h
      have := hat'.le
      omega
    · split at h
      · obtain ⟨high, hhigh, h⟩ := bind_ok_iff.mp h
        obtain ⟨_, s1, rfl, hat1⟩ := readUint32_inv hat hhigh
        obtain ⟨low, hlow, h⟩ := bind_ok_iff.mp h
        obtain ⟨_, s2, rfl, hat2⟩ := readUint32_inv hat1 hlow
        have := hat2.le
        omega
      · obtain ⟨bytes, hbytes, h⟩ := bind_ok_iff.mp h
        obtain ⟨_, s', rfl, hat'⟩ := readBytes_inv hat hbytes
        exact hat'.le
  obtain ⟨s', hs, hat'⟩ := window_written hat hsize
  rw [hs] at hat
  rw [readStatValue_at hat (beBytes_length _ _)] at h
  cases h
  refine ⟨s', ?_, hat'⟩
  rw [beNat_beBytes (window_lt hsize)]
  exact hs

theorem statTlv_inv {d s : Bytes} {stop offset next : Nat} {t : BMPStatTLV} (hat : At d offset s)
    (h : statTlv d stop offset = .ok (t, next)) :
    ∃ s', s = encodeStatTlv t ++ s' ∧ At d next s' := by
  unfold statTlv at h
  split at h
  · cases h
  rw [exceptValueError_ok_iff] at h
  obtain ⟨statType, htype, h⟩ := bind_ok_iff.mp h
  obtain ⟨_, s1, rfl, hat1⟩ := readUint16_inv hat htype
  obtain ⟨statLength, hlength, h⟩ := bind_ok_iff.mp h
  obtain ⟨_, s2, rfl, hat2⟩ := readUint16_inv hat1 hlength
  split at h
  · cases h
  obtain ⟨statValue, hvalue, h⟩ := bind_ok_iff.mp h
  obtain ⟨s3, rfl, hat3⟩ := readStatValue_inv hat2 hvalue
  cases h
  refine ⟨s3, ?_, hat3⟩
  simp [encodeStatTlv]

/-- Induction on the count: the TLVs are consecutive and there are as many as were counted. -/
theorem statsTlvs_inv {d : Bytes} {stop : Nat} (count : Nat) :
    ∀ {offset : Nat} {s : Bytes} {tlvs : List BMPStatTLV}, At d offset s →
      statsTlvs d stop count offset = .ok tlvs →
      tlvs.length = count ∧ ∃ s', s = tlvs.flatMap encodeStatTlv ++ s' := by
  induction count with
  | zero =>
    intro offset s tlvs _ h
    cases h
    exact ⟨rfl, s, rfl⟩
  | succ count ih =>
    intro offset s tlvs hat h
    unfold statsTlvs at h
    obtain ⟨⟨t, next⟩, ht, h⟩ := bind_ok_iff.mp h
    obtain ⟨s1, rfl, hat1⟩ := statTlv_inv hat ht
    obtain ⟨rest, hrest, h⟩ := bind_ok_iff.mp h
    obtain ⟨hcount, s2, rfl⟩ := ih hat1 hrest
    cases h
    exact ⟨by rw [List.length_cons, hcount], s2, by rw [List.flatMap_cons, List.append_assoc]⟩

/-- An OPEN message is returned as long as its length field says, also when that is less than a header. -/
theorem openMessage_inv {label : String} {d s message : Bytes} {offset next : Nat}
    (hat : At d offset s) (h : openMessage label d offset = .ok (message, next)) :
    ∃ s', s = message ++ s' ∧ At d next s' := by
  unfold openMessage at h
  split at h
  · cases h
  obtain ⟨length, _, h⟩ := bind_ok_iff.mp h
  split at h
  · cases h
  obtain ⟨bytes, hbytes, h⟩ := bind_ok_iff.mp h
  obtain ⟨_, s', rfl, hat'⟩ := readBytes_inv hat hbytes
  cases h
  exact ⟨s', rfl, hat'⟩

/-! ## The six parsers -/

/-- The header an accepted message starts with, and the body behind it, which the rest of its
parser accepts. -/
theorem header_inv {α : Type} {d : Bytes} {expected : BMPMessageType}
    {rest : BMPHeader → Except PyErr α} {m : α}
    (h : (do
      let header ← parseBmpHeader d
      if header.msgType ≠ expected then .error (wrongType expected header) else rest header) = .ok m) :
    ∃ header, At d 6 (d.drop 6) ∧ d = encodeHeader header ++ d.drop 6 ∧
      declaredLength d = header.length ∧ rest header = .ok m := by
  obtain ⟨header, hheader, h⟩ := bind_ok_iff.mp h
  obtain ⟨s, hs, hat⟩ := parseBmpHeader_inv hheader
  split at h
  · cases h
  · exact ⟨header, ⟨rfl, hat.le⟩, by rw [hat.rest]; exact hs, (parseBmpHeader_length hheader).1.symm, h⟩

/-- The same of a message with a per-peer header. -/
theorem peerMessage_inv {α : Type} {d : Bytes} {expected : BMPMessageType}
    {rest : BMPHeader → BMPPerPeerHeader → Except PyErr α} {m : α}
    (h : (do
      let header ← parseBmpHeader d
      if header.msgType ≠ expected then .error (wrongType expected header)
      else do
        let peer ← parsePerPeerHeader d BMP_HEADER_SIZE
        rest header peer) = .ok m) :
    ∃ header peer s, At d (BMP_HEADER_SIZE + BMP_PER_PEER_HEADER_SIZE) s ∧
      d = encodeHeader header ++ (encodePerPeerHeader peer ++ s) ∧
      declaredLength d = header.length ∧ rest header peer = .ok m := by
  obtain ⟨header, hat, hd, hlength, h⟩ := header_inv h
  obtain ⟨peer, hpeer, h⟩ := bind_ok_iff.mp h
  obtain ⟨s, hs, hat'⟩ := parsePerPeerHeader_inv hat hpeer
  rw [hs] at hd
  exact ⟨header, peer, s, hat', hd, hlength, h⟩

/-- A message that is nothing but TLVs behind its header. -/
theorem informationMessage_inv {α : Type} {d : Bytes} {expected : BMPMessageType}
    {build : BMPHeader → List BMPInfoTLV → α} {m : α}
    (h : (do
      let header ← parseBmpHeader d
      if header.msgType ≠ expected then .error (wrongType expected header)
      else do
        let tlvs ← parseInformationTlvs d BMP_HEADER_SIZE header.length
        .ok (build header tlvs)) = .ok m) (hlen : d.length = declaredLength d) :
    ∃ header tlvs, m = build header tlvs ∧ d = encodeHeader header ++ tlvs.flatMap encodeInfoTlv := by
  obtain ⟨header, hat, hd, hlength, h⟩ := header_inv h
  rw [hlength] at hlen
  obtain ⟨tlvs, htlvs, h⟩ := bind_ok_iff.mp h
  cases h
  have hle := hat.le
  have hbody := parseInformationTlvs_inv hat (by rw [← hlen]; exact hle) hlen htlvs
  rw [hbody] at hd
  exact ⟨header, tlvs, rfl, hd⟩

theorem parseInitiationMessage_inv {d : Bytes} {m : BMPInitiationMessage}
    (h : parseInitiationMessage d = .ok m) (hlen : d.length = declaredLength d) :
    d = encodeMessage (.initiation m) := by
  obtain ⟨header, tlvs, rfl, hd⟩ := informationMessage_inv h hlen
  exact hd

theorem parseTerminationMessage_inv {d : Bytes} {m : BMPTerminationMessage}
    (h : parseTerminationMessage d = .ok m) (hlen : d.length = declaredLength d) :
    d = encodeMessage (.termination m) := by
  obtain ⟨header, tlvs, rfl, hd⟩ := informationMessage_inv h hlen
  exact hd

theorem parseRouteMonitoringMessage_inv {d : Bytes} {m : BMPRouteMonitoringMessage}
    (h : parseRouteMonitoringMessage d = .ok m) (hlen : d.length = declaredLength d) :
    d = encodeMessage (.routeMonitoring m) := by
  unfold parseRouteMonitoringMessage at h
  obtain ⟨header, peer, s1, hat1, hd, hlength, h⟩ := peerMessage_inv h
  rw [hlength] at hlen
  obtain ⟨update, hupdate, h⟩ := bind_ok_iff.mp h
  cases h
  have hrest := readBytes_rest_inv hat1 hlen hupdate
  rw [← hrest] at hd
  exact hd

theorem parseStatisticsReportMessage_inv {d : Bytes} {m : BMPStatisticsReportMessage}
    (h : parseStatisticsReportMessage d = .ok m) :
    m.statsTlvs.length = m.statsCount ∧ encodeMessage (.statisticsReport m) <+: d := by
  unfold parseStatisticsReportMessage at h
  obtain ⟨header, peer, s1, hat1, hd, _, h⟩ := peerMessage_inv h
  simp only at h
  split at h
  · cases h
  obtain ⟨count, hcount, h⟩ := bind_ok_iff.mp h
  obtain ⟨_, s2, rfl, hat2⟩ := readUint32_inv hat1 hcount
  obtain ⟨tlvs, htlvs, h⟩ := bind_ok_iff.mp h
  obtain ⟨hmany, s3, rfl⟩ := statsTlvs_inv count hat2 htlvs
  cases h
  refine ⟨hmany, s3, ?_⟩
  rw [encodeMessage, encodeBody, messageHeader]
  simpa only [List.append_assoc] using hd.symm

theorem parsePeerDownMessage_inv {d : Bytes} {m : BMPPeerDownMessage}
    (h : parsePeerDownMessage d = .ok m) (hlen : d.length = declaredLength d) :
    d = encodeMessage (.peerDown m) := by
  unfold parsePeerDownMessage at h
  obtain ⟨header, peer, s1, hat1, hd, hlength, h⟩ := peerMessage_inv h
  rw [hlength] at hlen
  simp only at h
  split at h
  · cases h
  obtain ⟨reason, hreason, h⟩ := bind_ok_iff.mp h
  unfold peerDownReason at hreason
  split at hreason
  · cases hreason
  · cases hreason
  rename_i reasonRaw hraw
  obtain ⟨_, s2, rfl, hat2⟩ := readUint8_inv hat1 hraw
  split at hreason
  · cases hreason
  rename_i r hr
  cases hreason
  obtain ⟨data, hdata, h⟩ := bind_ok_iff.mp h
  cases h
  have hrest := readBytes_rest_inv hat2 hlen hdata
  rw [← hrest, BMPPeerDownReason.eq_value hr] at hd
  exact hd

theorem parsePeerUpMessage_inv {d : Bytes} {m : BMPPeerUpMessage}
    (h : parsePeerUpMessage d = .ok m) (hlen : d.length = declaredLength d) :
    d = encodeMessage (.peerUp m) := by
  unfold parsePeerUpMessage at h
  obtain ⟨header, peer, s1, hat1, hd, hlength, h⟩ := peerMessage_inv h
  rw [hlength] at hlen
  simp only at h
  split at h
  · cases h
  obtain ⟨localAddress, haddress, h⟩ := bind_ok_iff.mp h
  obtain ⟨s2, rfl, hat2⟩ := readIpAddress_inv hat1 haddress
  obtain ⟨localPort, hlocal, h⟩ := bind_ok_iff.mp h
  obtain ⟨_, s3, rfl, hat3⟩ := readUint16_inv hat2 hlocal
  obtain ⟨remotePort, hremote, h⟩ := bind_ok_iff.mp h
  obtain ⟨_, s4, rfl, hat4⟩ := readUint16_inv hat3 hremote
  obtain ⟨⟨sent, recvOffset⟩, hsent, h⟩ := bind_ok_iff.mp h
  obtain ⟨s5, rfl, hat5⟩ := openMessage_inv hat4 hsent
  obtain ⟨⟨received, tlvOffset⟩, hreceived, h⟩ := bind_ok_iff.mp h
  obtain ⟨s6, rfl, hat6⟩ := openMessage_inv hat5 hreceived
  obtain ⟨tlvs, htlvs, h⟩ := bind_ok_iff.mp h
  cases h
  have hle := hat6.le
  have hbody := parseInformationTlvs_inv hat6 (by rw [← hlen]; exact hle) hlen htlvs
  rw [hbody] at hd
  exact hd

/-- What an accepted message of the declared length says of its octets: all of them, or, for a
Statistics Report, those up to the last TLV that was counted. -/
def Accounted (d : Bytes) : BMPMessage → Prop
  | .statisticsReport m =>
      m.statsTlvs.length = m.statsCount ∧ encodeMessage (.statisticsReport m) <+: d
  | m => encodeMessage m = d

theorem parseBmpMessage_accounted {d : Bytes} {m : BMPMessage} (h : parseBmpMessage d = .ok m)
    (hlen : d.length = declaredLength d) : Accounted d m := by
  unfold parseBmpMessage at h
  obtain ⟨header, _, h⟩ := bind_ok_iff.mp h
  split at h
  · cases h
  split at h
  · obtain ⟨m, hm, rfl⟩ := map_ok_iff.mp h
    exact (parseInitiationMessage_inv hm hlen).symm
  · obtain ⟨m, hm, rfl⟩ := map_ok_iff.mp h
    exact (parseTerminationMessage_inv hm hlen).symm
  · obtain ⟨m, hm, rfl⟩ := map_ok_iff.mp h
    exact (parseRouteMonitoringMessage_inv hm hlen).symm
  · obtain ⟨m, hm, rfl⟩ := map_ok_iff.mp h
    exact parseStatisticsReportMessage_inv hm
  · obtain ⟨m, hm, rfl⟩ := map_ok_iff.mp h
    exact (parsePeerDownMessage_inv hm hlen).symm
  · obtain ⟨m, hm, rfl⟩ := map_ok_iff.mp h
    exact (parsePeerUpMessage_inv hm hlen).symm

/-- An accepted message of the declared length is written back from its record. A Statistics Report
is written back up to the last TLV that was counted, and any other record has one message. -/
theorem parseBmpMessage_reencodes {d : Bytes} {m : BMPMessage} (h : parseBmpMessage d = .ok m)
    (hlen : d.length = declaredLength d) :
    (∀ r, m = .statisticsReport r → r.statsTlvs.length = r.statsCount ∧ encodeMessage m <+: d) ∧
      ((∀ r, m ≠ .statisticsReport r) → encodeMessage m = d ∧
        ∀ d', parseBmpMessage d' = .ok m → d'.length = declaredLength d' → d' = d) := by
  have hd := parseBmpMessage_accounted h hlen
  constructor
  · rintro r rfl
    exact hd
  · intro hother
    have hwritten : ∀ d', Accounted d' m → encodeMessage m = d' := by
      intro d' hd'
      cases m with
      | statisticsReport r => exact absurd rfl (hother r)
      | _ => exact hd'
    refine ⟨hwritten d hd, fun d' h' hlen' => ?_⟩
    rw [← hwritten d' (parseBmpMessage_accounted h' hlen'), hwritten d hd]

/-- A Termination message with one empty TLV. -/
theorem parseBmpMessage_reencodes_termination :
    let d : Bytes := [3, 0, 0, 0, 10, 5, 0, 1, 0, 0]
    let m : BMPMessage := .termination ⟨⟨3, 10, .termination⟩, [⟨1, 0, []⟩]⟩
    parseBmpMessage d = .ok m ∧ encodeMessage m = d := by
  have h : parseBmpMessage [3, 0, 0, 0, 10, 5, 0, 1, 0, 0] =
      .ok (.termination ⟨⟨3, 10, .termination⟩, [⟨1, 0, []⟩]⟩) := by decide
  exact ⟨h, ((parseBmpMessage_reencodes h rfl).2 (fun r hr => by cases hr)).1⟩

end Pybmpmon.Protocol.BmpAccepted
