import Pybmpmon.Protocol.BmpEncoding
import Pybmpmon.Protocol.BmpErrors

/-!
# Every BMP message on the wire

The six message types as a sender has them, with the bounds of their fields carried
by the values, and the layout each is sent in. `parseBmpMessage` returns from that
layout the record that holds the sender's values.
-/
namespace Pybmpmon.Protocol.BmpMessages

open Pybmpmon.Lib.ByteString Pybmpmon.Lib.Outcome Pybmpmon.Lib.Scan Pybmpmon.Python
open Pybmpmon.Utils.Binary Pybmpmon.Protocol.Bmp Pybmpmon.Protocol.BmpParser
open Pybmpmon.Protocol.BmpEncoding

/-! ## What a sender has -/

structure InformationTlv where
  infoType : UInt16
  infoValue : Bytes
  fits : infoValue.length < 2 ^ 16

/-- A counter or gauge, in as many octets as its length says. -/
structure StatTlv where
  statType : UInt16
  statLength : UInt16
  statValue : Nat
  fits : statValue < 256 ^ statLength.toNat

/-- A BGP OPEN message: its own length field gives its size. -/
structure OpenPdu where
  bytes : Bytes
  size : 19 ≤ bytes.length
  own : beNat ((bytes.drop 16).take 2) = bytes.length

/-- A per-peer header whose fields fit. -/
abbrev Peer := { h : BMPPerPeerHeader // PerPeerHeaderFits h }

/-- An address the V flag of the peer lets through. -/
abbrev LocalAddress (peer : Peer) := { a : IpAddress // AddressFits peer.val.peerFlags a }

inductive Message where
  | initiation (tlvs : List InformationTlv)
  | termination (tlvs : List InformationTlv)
  | routeMonitoring (peer : Peer) (bgpUpdate : Bytes)
  | statisticsReport (peer : Peer) (tlvs : List StatTlv)
  | peerDown (peer : Peer) (reason : BMPPeerDownReason) (data : Bytes)
  | peerUp (peer : Peer) (localAddress : LocalAddress peer) (localPort remotePort : UInt16)
      (sent received : OpenPdu) (tlvs : List InformationTlv)

/-! ## The layout -/

def encodeInfoTlv (t : BMPInfoTLV) : Bytes :=
  beBytes 2 t.infoType ++ (beBytes 2 t.infoLength ++ t.infoValue)

def encodeStatTlv (t : BMPStatTLV) : Bytes :=
  beBytes 2 t.statType ++ (beBytes 2 t.statLength ++ beBytes t.statLength t.statValue)

def InformationTlv.record (t : InformationTlv) : BMPInfoTLV :=
  ⟨t.infoType.toNat, t.infoValue.length, t.infoValue⟩

def StatTlv.record (t : StatTlv) : BMPStatTLV :=
  ⟨t.statType.toNat, t.statLength.toNat, t.statValue⟩

def encodeInformation (tlvs : List InformationTlv) : Bytes :=
  tlvs.flatMap fun t => encodeInfoTlv t.record

def encodeStatistics (tlvs : List StatTlv) : Bytes :=
  tlvs.flatMap fun t => encodeStatTlv t.record

namespace Message

def msgType : Message → BMPMessageType
  | initiation .. => .initiation
  | termination .. => .termination
  | routeMonitoring .. => .routeMonitoring
  | statisticsReport .. => .statisticsReport
  | peerDown .. => .peerDownNotification
  | peerUp .. => .peerUpNotification

def body : Message → Bytes
  | initiation tlvs => encodeInformation tlvs
  | termination tlvs => encodeInformation tlvs
  | routeMonitoring peer bgpUpdate => encodePerPeerHeader peer ++ bgpUpdate
  | statisticsReport peer tlvs =>
      encodePerPeerHeader peer ++ (beBytes 4 tlvs.length ++ encodeStatistics tlvs)
  | peerDown peer reason data =>
      encodePerPeerHeader peer ++ (UInt8.ofNat reason.value :: data)
  | peerUp peer localAddress localPort remotePort sent received tlvs =>
      encodePerPeerHeader peer ++ (addressField localAddress ++ (beBytes 2 localPort.toNat ++
        (beBytes 2 remotePort.toNat ++ (sent.bytes ++ (received.bytes ++ encodeInformation tlvs)))))

def encode (m : Message) : Bytes := encodeBmp m.msgType m.body

def header (m : Message) : BMPHeader := ⟨3, m.encode.length, m.msgType⟩

/-- The record of the message: the sender's values, with the lengths and counts of the layout. -/
def record (m : Message) : BMPMessage :=
  match m with
  | initiation tlvs => .initiation ⟨m.header, tlvs.map InformationTlv.record⟩
  | termination tlvs => .termination ⟨m.header, tlvs.map InformationTlv.record⟩
  | routeMonitoring peer bgpUpdate => .routeMonitoring ⟨m.header, peer, bgpUpdate⟩
  | statisticsReport peer tlvs =>
      .statisticsReport ⟨m.header, peer, tlvs.length, tlvs.map StatTlv.record⟩
  | peerDown peer reason data => .peerDown ⟨m.header, peer, reason, data⟩
  | peerUp peer localAddress localPort remotePort sent received tlvs =>
      .peerUp ⟨m.header, peer, localAddress, localPort.toNat, remotePort.toNat, sent.bytes,
        received.bytes, tlvs.map InformationTlv.record⟩

end Message

/-! ## The parts of a body are read where they stand -/

theorem encodeInfoTlv_length (t : BMPInfoTLV) :
    (encodeInfoTlv t).length = 4 + t.infoValue.length := by
  simp [encodeInfoTlv]
  omega

theorem encodeStatTlv_length (t : BMPStatTLV) : (encodeStatTlv t).length = 4 + t.statLength := by
  simp [encodeStatTlv]
  omega

theorem informationTlv_at {d s : Bytes} {stop offset : Nat} (t : InformationTlv)
    (hat : At d offset (encodeInfoTlv t.record ++ s))
    (hstop : offset + (encodeInfoTlv t.record).length ≤ stop) :
    informationTlv d stop offset =
      .ok ([t.record], some (offset + (encodeInfoTlv t.record).length)) := by
  have hl := encodeInfoTlv_length t.record
  have hfield : t.record.infoLength = t.record.infoValue.length := rfl
  simp only [encodeInfoTlv, List.append_assoc] at hat
  have hlength := hat.advance_of (beBytes_length 2 _)
  have hbytes := hlength.advance_of (beBytes_length 2 _)
  unfold informationTlv
  rw [if_neg (by omega), exceptValueError_ok_iff, readUint16_beBytes hat t.infoType.toNat_lt, ok_bind,
    readUint16_beBytes hlength t.fits, ok_bind, if_neg (by omega), readBytes_at hbytes hfield.symm,
    ok_bind, hl, ← hfield, Nat.add_assoc]

/-- The TLVs that end a message. -/
theorem parseInformationTlvs_at {d : Bytes} {offset stop : Nat} {tlvs : List InformationTlv}
    (hat : At d offset (encodeInformation tlvs))
    (hstop : stop = offset + (encodeInformation tlvs).length) :
    parseInformationTlvs d offset stop = .ok (tlvs.map InformationTlv.record) := by
  rw [← List.append_nil (encodeInformation tlvs)] at hat
  rw [List.map_eq_flatMap]
  apply scan_encoded (BmpErrors.informationTlv_advances d stop) tlvs offset [] hat hstop
  · intro t _ hnil
    have hl := encodeInfoTlv_length t.record
    rw [hnil, List.length_nil] at hl
    omega
  · exact fun t _ o s hs hle => informationTlv_at t hs hle

/-- A counter of any length is the number its octets spell. -/
theorem readStatValue_at {d a s : Bytes} {offset statLength : Nat} (hat : At d offset (a ++ s))
    (ha : a.length = statLength) : readStatValue d offset statLength = .ok (beNat a) := by
  unfold readStatValue
  split
  · exact readUint32_at hat (by omega)
  · split
    · have hsplit : a = a.take 4 ++ a.drop 4 := (List.take_append_drop 4 a).symm
      rw [hsplit, List.append_assoc] at hat
      have hhigh : (a.take 4).length = 4 := by rw [List.length_take]; omega
      have hlow : (a.drop 4).length = 4 := by rw [List.length_drop]; omega
      have hlt := beNat_lt (a.drop 4)
      have hnumber := beNat_append (a.take 4) (a.drop 4)
      rw [hlow] at hlt hnumber
      rw [readUint32_at hat hhigh, ok_bind, readUint32_at (hat.advance_of hhigh) hlow, ok_bind,
        ← Nat.shiftLeft_add_eq_or_of_lt (by omega), Nat.shiftLeft_eq, ← List.take_append_drop 4 a,
        hnumber]
      simp
    · rw [readBytes_at hat ha, ok_bind]

theorem statTlv_at {d s : Bytes} {stop offset : Nat} (t : StatTlv)
    (hat : At d offset (encodeStatTlv t.record ++ s))
    (hstop : offset + (encodeStatTlv t.record).length ≤ stop) :
    statTlv d stop offset = .ok (t.record, offset + (encodeStatTlv t.record).length) := by
  have hl := encodeStatTlv_length t.record
  have hvalue : beNat (beBytes t.record.statLength t.record.statValue) = t.record.statValue :=
    beNat_beBytes t.fits
  simp only [encodeStatTlv, List.append_assoc] at hat
  have hlength := hat.advance_of (beBytes_length 2 _)
  have hcounter := hlength.advance_of (beBytes_length 2 _)
  unfold statTlv
  rw [if_neg (by omega), exceptValueError_ok_iff, readUint16_beBytes hat t.statType.toNat_lt, ok_bind,
    readUint16_beBytes hlength t.statLength.toNat_lt, ok_bind, if_neg (by omega),
    readStatValue_at hcounter (beBytes_length _ _), ok_bind, hvalue, hl, Nat.add_assoc]

/-- A TLV takes at least four octets, so a count that is too large for its field never fits a message. -/
theorem length_le_encodeStatistics (tlvs : List StatTlv) :
    tlvs.length ≤ (encodeStatistics tlvs).length := by
  induction tlvs with
  | nil => exact Nat.zero_le _
  | cons t tlvs ih =>
    have hcons : encodeStatistics (t :: tlvs) = encodeStatTlv t.record ++ encodeStatistics tlvs := rfl
    rw [hcons, List.length_append, encodeStatTlv_length, List.length_cons]
    omega

/-- Induction on the TLVs still to be read. -/
theorem statsTlvs_at {d rest : Bytes} {stop : Nat} (tlvs : List StatTlv) :
    ∀ offset, At d offset (encodeStatistics tlvs ++ rest) →
      offset + (encodeStatistics tlvs).length ≤ stop →
      statsTlvs d stop tlvs.length offset = .ok (tlvs.map StatTlv.record) := by
  induction tlvs with
  | nil => exact fun _ _ _ => rfl
  | cons t tlvs ih =>
    intro offset hat hstop
    have hcons : encodeStatistics (t :: tlvs) = encodeStatTlv t.record ++ encodeStatistics tlvs := rfl
    rw [hcons, List.append_assoc] at hat
    rw [hcons, List.length_append] at hstop
    have hrest := ih (offset + (encodeStatTlv t.record).length) hat.advance (by omega)
    rw [List.length_cons, statsTlvs, statTlv_at t hat (by omega), ok_bind]
    show (statsTlvs d stop tlvs.length _ >>= fun rest => .ok (t.record :: rest)) = _
    rw [hrest, ok_bind, List.map_cons]

theorem openMessage_at {d s : Bytes} {offset : Nat} (label : String) (p : OpenPdu)
    (hat : At d offset (p.bytes ++ s)) :
    openMessage label d offset = .ok (p.bytes, offset + p.bytes.length) := by
  have hl := hat.length
  have hsize := p.size
  rw [List.length_append] at hl
  have hfield : (d.drop (offset + 16)).take 2 = (p.bytes.drop 16).take 2 := by
    rw [← List.drop_drop, hat.rest, List.drop_append_of_le_length (by omega),
      List.take_append_of_le_length (by rw [List.length_drop]; omega)]
  unfold openMessage
  rw [if_neg (by omega), readUint16_ok (by omega), ok_bind, hfield, p.own, if_neg (by omega),
    readBytes_at hat rfl, ok_bind]

/-! ## The six messages -/

theorem Message.encode_at (m : Message) : At m.encode 6 m.body :=
  ((at_zero _).tail.advance_of (beBytes_length 4 _)).tail

theorem Message.encode_length (m : Message) : m.encode.length = 6 + m.body.length :=
  encodeBmp_length m.msgType m.body

theorem Message.header_length (m : Message) : m.header.length = m.encode.length := rfl

/-- A parser of the message's own type does not refuse it. -/
theorem Message.expected_type (m : Message) {msgType : BMPMessageType} (h : m.msgType = msgType) :
    ¬m.header.msgType ≠ msgType := not_not_intro h

theorem parseBmpHeader_message {m : Message} (hsize : m.encode.length < 2 ^ 32) :
    parseBmpHeader m.encode = .ok m.header := by
  have hl := m.encode_length
  rw [Message.header, hl, Message.encode, parseBmpHeader_encode m.msgType (by omega)]

theorem parseInitiationMessage_at {tlvs : List InformationTlv}
    (hsize : (Message.initiation tlvs).encode.length < 2 ^ 32) :
    parseInitiationMessage (Message.initiation tlvs).encode =
      .ok ⟨(Message.initiation tlvs).header, tlvs.map InformationTlv.record⟩ := by
  unfold parseInitiationMessage
  rw [parseBmpHeader_message hsize, ok_bind,
    if_neg (@Message.expected_type (.initiation tlvs) .initiation rfl), BMP_HEADER_SIZE,
    parseInformationTlvs_at (Message.encode_at _) (Message.encode_length _), ok_bind]

theorem parseTerminationMessage_at {tlvs : List InformationTlv}
    (hsize : (Message.termination tlvs).encode.length < 2 ^ 32) :
    parseTerminationMessage (Message.termination tlvs).encode =
      .ok ⟨(Message.termination tlvs).header, tlvs.map InformationTlv.record⟩ := by
  unfold parseTerminationMessage
  rw [parseBmpHeader_message hsize, ok_bind,
    if_neg (@Message.expected_type (.termination tlvs) .termination rfl), BMP_HEADER_SIZE,
    parseInformationTlvs_at (Message.encode_at _) (Message.encode_length _), ok_bind]

theorem parseStatisticsReportMessage_at {peer : Peer} {tlvs : List StatTlv}
    (hsize : (Message.statisticsReport peer tlvs).encode.length < 2 ^ 32) :
    parseStatisticsReportMessage (Message.statisticsReport peer tlvs).encode =
      .ok ⟨(Message.statisticsReport peer tlvs).header, peer, tlvs.length,
        tlvs.map StatTlv.record⟩ := by
  have hheader := parseBmpHeader_message hsize
  have hpeer := (Message.statisticsReport peer tlvs).encode_at
  have hl := (Message.statisticsReport peer tlvs).encode_length
  have hcount := hpeer.advance_of (encodePerPeerHeader_length peer.property)
  have htlvs := hcount.advance_of (beBytes_length 4 _)
  have hbody : (Message.statisticsReport peer tlvs).body.length =
      46 + (encodeStatistics tlvs).length := by
    simp [Message.body, encodePerPeerHeader_length peer.property]
    omega
  have hmany := length_le_encodeStatistics tlvs
  rw [← List.append_nil (encodeStatistics tlvs)] at htlvs
  unfold parseStatisticsReportMessage
  rw [hheader, ok_bind,
    if_neg (@Message.expected_type (.statisticsReport peer tlvs) .statisticsReport rfl),
    BMP_HEADER_SIZE, BMP_PER_PEER_HEADER_SIZE, parsePerPeerHeader_at peer.property hpeer, ok_bind]
  simp only
  rw [if_neg (by omega), readUint32_beBytes hcount (by omega), ok_bind,
    statsTlvs_at tlvs _ htlvs (by rw [Message.header_length]; omega), ok_bind]

theorem parsePeerDownMessage_at {peer : Peer} {reason : BMPPeerDownReason} {data : Bytes}
    (hsize : (Message.peerDown peer reason data).encode.length < 2 ^ 32) :
    parsePeerDownMessage (Message.peerDown peer reason data).encode =
      .ok ⟨(Message.peerDown peer reason data).header, peer, reason, data⟩ := by
  have hheader := parseBmpHeader_message hsize
  have hpeer := (Message.peerDown peer reason data).encode_at
  have hreason := hpeer.advance_of (encodePerPeerHeader_length peer.property)
  have hdata := hreason.tail
  have hl := hdata.length
  have hoctet : readUint8 _ (6 + 42) = .ok reason.value :=
    readUint8_octet hreason (by cases reason <;> decide)
  have hrest : (((Message.peerDown peer reason data).header.length : Nat) : Int) -
      (6 + 42 + 1 : Nat) = (data.length : Nat) := by
    rw [Message.header_length]
    omega
  unfold parsePeerDownMessage
  rw [hheader, ok_bind,
    if_neg (@Message.expected_type (.peerDown peer reason data) .peerDownNotification rfl),
    BMP_HEADER_SIZE, BMP_PER_PEER_HEADER_SIZE, parsePerPeerHeader_at peer.property hpeer, ok_bind]
  simp only
  rw [if_neg (by omega), peerDownReason, hoctet]
  simp only [BMPPeerDownReason.ofNat?_value, ok_bind]
  rw [hrest, readBytes_rest hdata rfl, ok_bind]

theorem parsePeerUpMessage_at {peer : Peer} {localAddress : LocalAddress peer}
    {localPort remotePort : UInt16} {sent received : OpenPdu} {tlvs : List InformationTlv}
    (hsize : (Message.peerUp peer localAddress localPort remotePort sent received tlvs).encode.length
      < 2 ^ 32) :
    parsePeerUpMessage
        (Message.peerUp peer localAddress localPort remotePort sent received tlvs).encode =
      .ok ⟨(Message.peerUp peer localAddress localPort remotePort sent received tlvs).header, peer,
        localAddress, localPort.toNat, remotePort.toNat, sent.bytes, received.bytes,
        tlvs.map InformationTlv.record⟩ := by
  have hheader := parseBmpHeader_message hsize
  have hpeer := (Message.peerUp peer localAddress localPort remotePort sent received tlvs).encode_at
  have haddress := hpeer.advance_of (encodePerPeerHeader_length peer.property)
  have hlocal := haddress.advance_of (addressField_length localAddress)
  have hremote := hlocal.advance_of (beBytes_length 2 _)
  have hsent := hremote.advance_of (beBytes_length 2 _)
  have hreceived := hsent.advance
  have htlvs := hreceived.advance
  have hl := htlvs.length
  unfold parsePeerUpMessage
  rw [hheader, ok_bind,
    if_neg (@Message.expected_type (.peerUp peer localAddress _ _ _ _ _) .peerUpNotification rfl),
    BMP_HEADER_SIZE, BMP_PER_PEER_HEADER_SIZE, parsePerPeerHeader_at peer.property hpeer, ok_bind]
  simp only
  rw [if_neg (by omega), readIpAddress_at localAddress.property haddress, ok_bind,
    readUint16_beBytes hlocal localPort.toNat_lt, ok_bind,
    readUint16_beBytes hremote remotePort.toNat_lt, ok_bind, openMessage_at "sent" sent hsent, ok_bind]
  simp only
  rw [openMessage_at "received" received hreceived, ok_bind]
  simp only
  rw [Message.header_length, parseInformationTlvs_at htlvs hl, ok_bind]

/-- Decoding undoes encoding, for the six message types. -/
theorem parseBmpMessage_encode (m : Message) (hsize : m.encode.length < 2 ^ 32) :
    parseBmpMessage m.encode = .ok m.record := by
  unfold parseBmpMessage
  rw [parseBmpHeader_message hsize, ok_bind, Message.header_length, if_neg (Nat.lt_irrefl _)]
  cases m with
  | initiation tlvs =>
    show BMPMessage.initiation <$> parseInitiationMessage _ = _
    rw [parseInitiationMessage_at hsize]
    rfl
  | termination tlvs =>
    show BMPMessage.termination <$> parseTerminationMessage _ = _
    rw [parseTerminationMessage_at hsize]
    rfl
  | routeMonitoring peer bgpUpdate =>
    have hl := (Message.routeMonitoring peer bgpUpdate).encode_length
    have hbody : (Message.routeMonitoring peer bgpUpdate).body.length = 42 + bgpUpdate.length := by
      rw [Message.body, List.length_append, encodePerPeerHeader_length peer.property]
    have hlength : 48 + bgpUpdate.length = (Message.routeMonitoring peer bgpUpdate).encode.length := by
      omega
    have hparse := parseRouteMonitoringMessage_encode bgpUpdate peer.property (by omega)
    rw [hlength] at hparse
    show BMPMessage.routeMonitoring <$> parseRouteMonitoringMessage (encodeRouteMonitoring peer _) = _
    rw [hparse]
    rfl
  | statisticsReport peer tlvs =>
    show BMPMessage.statisticsReport <$> parseStatisticsReportMessage _ = _
    rw [parseStatisticsReportMessage_at hsize]
    rfl
  | peerDown peer reason data =>
    show BMPMessage.peerDown <$> parsePeerDownMessage _ = _
    rw [parsePeerDownMessage_at hsize]
    rfl
  | peerUp peer localAddress localPort remotePort sent received tlvs =>
    show BMPMessage.peerUp <$> parsePeerUpMessage _ = _
    rw [parsePeerUpMessage_at hsize]
    rfl

theorem parseBmpMessage_encode_peerDown :
    (Message.peerDown ⟨samplePeer, samplePeer_fits⟩ .localNotification [0, 6]).encode.length < 2 ^ 32 ∧
      parseBmpMessage
          (Message.peerDown ⟨samplePeer, samplePeer_fits⟩ .localNotification [0, 6]).encode =
        .ok (Message.peerDown ⟨samplePeer, samplePeer_fits⟩ .localNotification [0, 6]).record := by
  have hsize : (Message.peerDown ⟨samplePeer, samplePeer_fits⟩ .localNotification [0, 6]).encode.length
      < 2 ^ 32 := by decide
  exact ⟨hsize, parseBmpMessage_encode _ hsize⟩

end Pybmpmon.Protocol.BmpMessages
