import Pybmpmon.Lib.Scan
import Pybmpmon.Utils.Binary
import Pybmpmon.Protocol.Bmp

/-!
# The BMP message parsers

Each parser of `protocol/bmp_parser.py`, with its checks in the source's order.
The checks are against the declared length in some places and against the buffer
in others, and both are kept as they stand. A read of the source that is outside
every `try` block is outside every handler here.
-/
namespace Pybmpmon.Protocol.BmpParser

open Pybmpmon.Lib.ByteString Pybmpmon.Lib.Scan Pybmpmon.Python Pybmpmon.Utils.Binary
open Pybmpmon.Protocol.Bmp

def parseBmpHeader (data : Bytes) : Except PyErr BMPHeader :=
  if data.length < BMP_HEADER_SIZE then
    .error (.bmpParseError s!"Message too short: need at least {BMP_HEADER_SIZE} bytes for header, got {data.length} bytes")
  else exceptValueError
    (do
      let version ← readUint8 data 0
      if version ≠ BMP_CURRENT_VERSION then
        .error (.bmpParseError s!"Invalid BMP version: expected {BMP_CURRENT_VERSION}, got {version}")
      else do
      let length ← readUint32 data 1
      if length < BMP_HEADER_SIZE then
        .error (.bmpParseError s!"Invalid message length: {length} bytes is less than minimum header size of {BMP_HEADER_SIZE} bytes")
      else do
      let msgTypeRaw ← readUint8 data 5
      match BMPMessageType.ofNat? msgTypeRaw with
      | none => .error (.bmpParseError s!"Unknown message type: {msgTypeRaw} (valid types: 0-5)")
      | some msgType => .ok ⟨version, length, msgType⟩)
    (fun e => .bmpParseError s!"Failed to parse BMP header: {e}")

def isIpv6 (peerFlags : Nat) : Bool := peerFlags &&& BMPPeerFlags.ipv6 != 0

def parsePerPeerHeader (data : Bytes) (offset : Nat) : Except PyErr BMPPerPeerHeader :=
  if data.length < offset + BMP_PER_PEER_HEADER_SIZE then
    let got : Int := data.length - offset
    .error (.bmpParseError s!"Message too short for Per-Peer Header: need {BMP_PER_PEER_HEADER_SIZE} bytes at offset {offset}, got {got} bytes")
  else exceptValueError
    (do
      let peerTypeRaw ← readUint8 data offset
      let peerFlags ← readUint8 data (offset + 1)
      match BMPPeerType.ofNat? peerTypeRaw with
      | none => .error (.bmpParseError s!"Invalid peer type: {peerTypeRaw}")
      | some peerType => do
        let peerDistinguisher ← readBytes data (offset + 2) 8
        let peerAddress ← readIpAddress data (offset + 10) (isIpv6 peerFlags)
        let peerAsn ← readUint32 data (offset + 26)
        let peerBgpId ← readIpv4Address data (offset + 30)
        let timestampSec ← readUint32 data (offset + 34)
        let timestampUsec ← readUint32 data (offset + 38)
        .ok ⟨peerType, peerFlags, peerDistinguisher, peerAddress, peerAsn, peerBgpId,
          timestampSec, timestampUsec⟩)
    (fun e => .bmpParseError s!"Failed to parse Per-Peer Header: {e}")

/-- One round of the loop of `parse_information_tlvs`. -/
def informationTlv (data : Bytes) (stop pos : Nat) : Except PyErr (Round BMPInfoTLV) :=
  if pos + 4 > stop then
    .error (.bmpParseError s!"Incomplete TLV header at offset {pos}: need 4 bytes, got {stop - pos}")
  else exceptValueError
    (do
      let infoType ← readUint16 data pos
      let infoLength ← readUint16 data (pos + 2)
      if pos + 4 + infoLength > stop then
        .error (.bmpParseError s!"Incomplete TLV value at offset {pos}: need {infoLength} bytes, got {stop - pos - 4}")
      else do
      let infoValue ← readBytes data (pos + 4) infoLength
      .ok ([⟨infoType, infoLength, infoValue⟩], some (pos + 4 + infoLength)))
    (fun e => .bmpParseError s!"Failed to parse TLV at offset {pos}: {e}")

def parseInformationTlvs (data : Bytes) (offset stop : Nat) : Except PyErr (List BMPInfoTLV) :=
  scan .diverges (informationTlv data stop) stop offset

def wrongType (expected : BMPMessageType) (header : BMPHeader) : PyErr :=
  .bmpParseError s!"Expected {expected.name} message type, got {header.msgType.name}"

def parseInitiationMessage (data : Bytes) : Except PyErr BMPInitiationMessage := do
  let header ← parseBmpHeader data
  if header.msgType ≠ .initiation then .error (wrongType .initiation header)
  else do
  let tlvs ← parseInformationTlvs data BMP_HEADER_SIZE header.length
  .ok ⟨header, tlvs⟩

def parseTerminationMessage (data : Bytes) : Except PyErr BMPTerminationMessage := do
  let header ← parseBmpHeader data
  if header.msgType ≠ .termination then .error (wrongType .termination header)
  else do
  let tlvs ← parseInformationTlvs data BMP_HEADER_SIZE header.length
  .ok ⟨header, tlvs⟩

def parseRouteMonitoringMessage (data : Bytes) : Except PyErr BMPRouteMonitoringMessage := do
  let header ← parseBmpHeader data
  if header.msgType ≠ .routeMonitoring then .error (wrongType .routeMonitoring header)
  else do
  let perPeerHeader ← parsePerPeerHeader data BMP_HEADER_SIZE
  let bgpUpdateOffset := BMP_HEADER_SIZE + BMP_PER_PEER_HEADER_SIZE
  let bgpUpdate ← readBytes data bgpUpdateOffset ((header.length : Int) - bgpUpdateOffset)
  .ok ⟨header, perPeerHeader, bgpUpdate⟩

/-- The counter of a statistics TLV: 4 or 8 bytes, or a number of any other length. -/
def readStatValue (data : Bytes) (offset statLength : Nat) : Except PyErr Nat :=
  if statLength = 4 then readUint32 data offset
  else if statLength = 8 then do
    let high ← readUint32 data offset
    let low ← readUint32 data (offset + 4)
    .ok ((high <<< 32) ||| low)
  else do
    let statBytes ← readBytes data offset statLength
    .ok (beNat statBytes)

/-- One round of the loop of `parse_statistics_report_message`: the counter and the next offset. -/
def statTlv (data : Bytes) (messageLength tlvOffset : Nat) : Except PyErr (BMPStatTLV × Nat) :=
  if tlvOffset + 4 > messageLength then
    .error (.bmpParseError s!"Incomplete stats TLV at offset {tlvOffset}")
  else exceptValueError
    (do
      let statType ← readUint16 data tlvOffset
      let statLength ← readUint16 data (tlvOffset + 2)
      if tlvOffset + 4 + statLength > messageLength then
        .error (.bmpParseError s!"Stats TLV value exceeds message length at offset {tlvOffset}")
      else do
      let statValue ← readStatValue data (tlvOffset + 4) statLength
      .ok (⟨statType, statLength, statValue⟩, tlvOffset + 4 + statLength))
    (fun e => .bmpParseError s!"Failed to parse stats TLV at offset {tlvOffset}: {e}")

/-- `for _ in range(stats_count)`. -/
def statsTlvs (data : Bytes) (messageLength : Nat) :
    Nat → Nat → Except PyErr (List BMPStatTLV)
  | 0, _ => .ok []
  | count + 1, tlvOffset => do
      let (tlv, next) ← statTlv data messageLength tlvOffset
      let rest ← statsTlvs data messageLength count next
      .ok (tlv :: rest)

def parseStatisticsReportMessage (data : Bytes) : Except PyErr BMPStatisticsReportMessage := do
  let header ← parseBmpHeader data
  if header.msgType ≠ .statisticsReport then .error (wrongType .statisticsReport header)
  else do
  let perPeerHeader ← parsePerPeerHeader data BMP_HEADER_SIZE
  let statsOffset := BMP_HEADER_SIZE + BMP_PER_PEER_HEADER_SIZE
  if data.length < statsOffset + 4 then .error (.bmpParseError "Message too short for stats count")
  else do
  let statsCount ← readUint32 data statsOffset
  let tlvs ← statsTlvs data header.length statsCount (statsOffset + 4)
  .ok ⟨header, perPeerHeader, statsCount, tlvs⟩

/-- The reason octet. The handler formats `reason_raw`, which is unbound when
the read itself has failed. -/
def peerDownReason (data : Bytes) (reasonOffset : Nat) : Except PyErr BMPPeerDownReason :=
  match readUint8 data reasonOffset with
  | .error (.valueError _) => .error .unboundLocalError
  | .error e => .error e
  | .ok reasonRaw =>
      match BMPPeerDownReason.ofNat? reasonRaw with
      | none => .error (.bmpParseError s!"Invalid peer down reason: {reasonRaw}")
      | some reason => .ok reason

def parsePeerDownMessage (data : Bytes) : Except PyErr BMPPeerDownMessage := do
  let header ← parseBmpHeader data
  if header.msgType ≠ .peerDownNotification then .error (wrongType .peerDownNotification header)
  else do
  let perPeerHeader ← parsePerPeerHeader data BMP_HEADER_SIZE
  let reasonOffset := BMP_HEADER_SIZE + BMP_PER_PEER_HEADER_SIZE
  if data.length < reasonOffset + 1 then .error (.bmpParseError "Message too short for reason code")
  else do
  let reason ← peerDownReason data reasonOffset
  let dataOffset := reasonOffset + 1
  let additionalData ← readBytes data dataOffset ((header.length : Int) - dataOffset)
  .ok ⟨header, perPeerHeader, reason, additionalData⟩

/-- One of the two OPEN PDUs of a Peer Up message, as long as its own length field says.
The label names the PDU in the error texts. -/
def openMessage (label : String) (data : Bytes) (offset : Nat) : Except PyErr (Bytes × Nat) :=
  if data.length < offset + 19 then
    .error (.bmpParseError s!"Message too short for {label} OPEN message")
  else do
  let length ← readUint16 data (offset + 16)
  if data.length < offset + length then
    .error (.bmpParseError s!"Message too short for complete {label} OPEN message")
  else do
  let message ← readBytes data offset length
  .ok (message, offset + length)

def parsePeerUpMessage (data : Bytes) : Except PyErr BMPPeerUpMessage := do
  let header ← parseBmpHeader data
  if header.msgType ≠ .peerUpNotification then .error (wrongType .peerUpNotification header)
  else do
  let perPeerHeader ← parsePerPeerHeader data BMP_HEADER_SIZE
  let localAddrOffset := BMP_HEADER_SIZE + BMP_PER_PEER_HEADER_SIZE
  if data.length < localAddrOffset + 20 then
    .error (.bmpParseError "Message too short for Peer Up fields")
  else do
  let localAddress ← readIpAddress data localAddrOffset (isIpv6 perPeerHeader.peerFlags)
  let localPort ← readUint16 data (localAddrOffset + 16)
  let remotePort ← readUint16 data (localAddrOffset + 18)
  let (sentOpenMessage, recvOpenOffset) ← openMessage "sent" data (localAddrOffset + 20)
  let (receivedOpenMessage, tlvOffset) ← openMessage "received" data recvOpenOffset
  let informationTlvs ← parseInformationTlvs data tlvOffset header.length
  .ok ⟨header, perPeerHeader, localAddress, localPort, remotePort, sentOpenMessage,
    receivedOpenMessage, informationTlvs⟩

def parseBmpMessage (data : Bytes) : Except PyErr BMPMessage := do
  let header ← parseBmpHeader data
  if data.length < header.length then
    .error (.bmpParseError s!"Incomplete message: expected {header.length} bytes, got {data.length}")
  else match header.msgType with
  | .initiation => BMPMessage.initiation <$> parseInitiationMessage data
  | .termination => BMPMessage.termination <$> parseTerminationMessage data
  | .routeMonitoring => BMPMessage.routeMonitoring <$> parseRouteMonitoringMessage data
  | .statisticsReport => BMPMessage.statisticsReport <$> parseStatisticsReportMessage data
  | .peerDownNotification => BMPMessage.peerDown <$> parsePeerDownMessage data
  | .peerUpNotification => BMPMessage.peerUp <$> parsePeerUpMessage data

end Pybmpmon.Protocol.BmpParser
