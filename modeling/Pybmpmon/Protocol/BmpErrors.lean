import Pybmpmon.Protocol.BmpParser

/-!
# The BMP parsers raise nothing but `BMPParseError`

Inside a `try` block a failed read becomes a `BMPParseError`, so no bound is
needed there. The reads outside every `try` block are the ones that have to be
covered by an earlier check, of the buffer or of the declared length.
-/
namespace Pybmpmon.Protocol.BmpErrors

open Pybmpmon.Lib.ByteString Pybmpmon.Lib.Outcome Pybmpmon.Lib.Scan Pybmpmon.Python
open Pybmpmon.Utils.Binary Pybmpmon.Protocol.Bmp Pybmpmon.Protocol.BmpParser

/-- Only the parser's own error escapes. -/
abbrev OwnError (e : PyErr) : Prop := e.isBmpParseError = true

private abbrev Caught (e : PyErr) : Prop := e.isValueError = true ∨ OwnError e

/-- The message length field of the common header. -/
def declaredLength (d : Bytes) : Nat := beNat ((d.drop 1).take 4)

private theorem caught {α : Type} {x : Except PyErr α}
    (h : Raises (fun e => e.isValueError) x) : Raises Caught x :=
  raises_mono (fun _ he => Or.inl he) h

private theorem own {e : PyErr} (h : OwnError e) : Caught e := Or.inr h

/-- Below the length check the header parse is its `try` body. -/
theorem parseBmpHeader_raises (d : Bytes) : Raises OwnError (parseBmpHeader d) := by
  rw [parseBmpHeader]
  refine raises_ite (fun _ => raises_error.mpr rfl) (fun _ => ?_)
  refine raises_exceptValueError ?_ (fun _ => rfl)
  refine raises_bind (caught (raises_readUint8 d 0)) (fun version _ => ?_)
  refine raises_ite (fun _ => raises_error.mpr (own rfl)) (fun _ => ?_)
  refine raises_bind (caught (raises_readUint32 d 1)) (fun length _ => ?_)
  refine raises_ite (fun _ => raises_error.mpr (own rfl)) (fun _ => ?_)
  refine raises_bind (caught (raises_readUint8 d 5)) (fun msgTypeRaw _ => ?_)
  split
  · exact raises_error.mpr (own rfl)
  · exact raises_ok _

/-- An accepted header carries the declared length, and it is at least its own size. -/
theorem parseBmpHeader_length {d : Bytes} {header : BMPHeader}
    (h : parseBmpHeader d = .ok header) :
    header.length = declaredLength d ∧ 6 ≤ header.length ∧ 6 ≤ d.length := by
  rw [parseBmpHeader] at h
  split at h
  · cases h
  rename_i hsize
  have h6 : 6 ≤ d.length := by simpa [BMP_HEADER_SIZE] using hsize
  rw [exceptValueError_ok_iff] at h
  obtain ⟨version, _, h⟩ := bind_ok_iff.mp h
  split at h
  · cases h
  obtain ⟨length, hl, h⟩ := bind_ok_iff.mp h
  rw [readUint32_ok (by omega)] at hl
  cases hl
  split at h
  · cases h
  rename_i hmin
  obtain ⟨msgTypeRaw, _, h⟩ := bind_ok_iff.mp h
  split at h
  · cases h
  · cases h
    exact ⟨rfl, by simpa [BMP_HEADER_SIZE] using hmin, h6⟩

theorem parsePerPeerHeader_raises (d : Bytes) (offset : Nat) :
    Raises OwnError (parsePerPeerHeader d offset) := by
  rw [parsePerPeerHeader]
  refine raises_ite (fun _ => raises_error.mpr rfl) (fun _ => ?_)
  refine raises_exceptValueError ?_ (fun _ => rfl)
  refine raises_bind (caught (raises_readUint8 d _)) (fun peerTypeRaw _ => ?_)
  refine raises_bind (caught (raises_readUint8 d _)) (fun peerFlags _ => ?_)
  split
  · exact raises_error.mpr (own rfl)
  refine raises_bind (caught (raises_readBytes d _ _)) (fun peerDistinguisher _ => ?_)
  refine raises_bind (caught (raises_readIpAddress d _ _)) (fun peerAddress _ => ?_)
  refine raises_bind (caught (raises_readUint32 d _)) (fun peerAsn _ => ?_)
  refine raises_bind (caught (raises_readIpv4Address d _)) (fun peerBgpId _ => ?_)
  refine raises_bind (caught (raises_readUint32 d _)) (fun timestampSec _ => ?_)
  exact raises_bind (caught (raises_readUint32 d _)) (fun timestampUsec _ => raises_ok _)

/-- An accepted per-peer header lies in the buffer. -/
theorem parsePerPeerHeader_fits {d : Bytes} {offset : Nat} {header : BMPPerPeerHeader}
    (h : parsePerPeerHeader d offset = .ok header) : offset + 42 ≤ d.length := by
  rw [parsePerPeerHeader] at h
  split at h
  · cases h
  · simp only [BMP_PER_PEER_HEADER_SIZE] at *
    omega

/-- The AS number of an accepted per-peer header is the four octets at 26. -/
theorem parsePerPeerHeader_asn {d : Bytes} {offset : Nat} {header : BMPPerPeerHeader}
    (h : parsePerPeerHeader d offset = .ok header) :
    header.peerAsn = beNat ((d.drop (offset + 26)).take 4) := by
  have hfits := parsePerPeerHeader_fits h
  rw [parsePerPeerHeader] at h
  split at h
  · cases h
  rw [exceptValueError_ok_iff] at h
  obtain ⟨peerTypeRaw, _, h⟩ := bind_ok_iff.mp h
  obtain ⟨peerFlags, _, h⟩ := bind_ok_iff.mp h
  split at h
  · cases h
  obtain ⟨peerDistinguisher, _, h⟩ := bind_ok_iff.mp h
  obtain ⟨peerAddress, _, h⟩ := bind_ok_iff.mp h
  obtain ⟨peerAsn, hasn, h⟩ := bind_ok_iff.mp h
  rw [readUint32_ok (by omega)] at hasn
  obtain ⟨peerBgpId, _, h⟩ := bind_ok_iff.mp h
  obtain ⟨timestampSec, _, h⟩ := bind_ok_iff.mp h
  obtain ⟨timestampUsec, _, h⟩ := bind_ok_iff.mp h
  cases hasn
  cases h
  rfl

theorem informationTlv_raises (d : Bytes) (stop pos : Nat) :
    Raises OwnError (informationTlv d stop pos) := by
  rw [informationTlv]
  refine raises_ite (fun _ => raises_error.mpr rfl) (fun _ => ?_)
  refine raises_exceptValueError ?_ (fun _ => rfl)
  refine raises_bind (caught (raises_readUint16 d _)) (fun infoType _ => ?_)
  refine raises_bind (caught (raises_readUint16 d _)) (fun infoLength _ => ?_)
  refine raises_ite (fun _ => raises_error.mpr (own rfl)) (fun _ => ?_)
  exact raises_bind (caught (raises_readBytes d _ _)) (fun infoValue _ => raises_ok _)

theorem informationTlv_advances (d : Bytes) (stop : Nat) : Advances (informationTlv d stop) := by
  intro pos items next h
  rw [informationTlv] at h
  split at h
  · cases h
  rw [exceptValueError_ok_iff] at h
  obtain ⟨infoType, _, h⟩ := bind_ok_iff.mp h
  obtain ⟨infoLength, _, h⟩ := bind_ok_iff.mp h
  split at h
  · cases h
  obtain ⟨infoValue, _, h⟩ := bind_ok_iff.mp h
  cases h
  omega

theorem parseInformationTlvs_raises (d : Bytes) (offset stop : Nat) :
    Raises OwnError (parseInformationTlvs d offset stop) :=
  raises_scan (informationTlv_advances d stop) (fun _ _ => informationTlv_raises d stop _) offset

theorem parseInitiationMessage_raises (d : Bytes) :
    Raises OwnError (parseInitiationMessage d) := by
  refine raises_bind (parseBmpHeader_raises d) (fun header _ => ?_)
  refine raises_ite (fun _ => raises_error.mpr rfl) (fun _ => ?_)
  exact raises_bind (parseInformationTlvs_raises d _ _) (fun _ _ => raises_ok _)

theorem parseTerminationMessage_raises (d : Bytes) :
    Raises OwnError (parseTerminationMessage d) := by
  refine raises_bind (parseBmpHeader_raises d) (fun header _ => ?_)
  refine raises_ite (fun _ => raises_error.mpr rfl) (fun _ => ?_)
  exact raises_bind (parseInformationTlvs_raises d _ _) (fun _ _ => raises_ok _)

/-- The UPDATE bytes are read outside every handler: their end is the declared
length, and it may lie before their start. -/
theorem parseRouteMonitoringMessage_raises {d : Bytes} (hd : declaredLength d ≤ d.length) :
    Raises OwnError (parseRouteMonitoringMessage d) := by
  refine raises_bind (parseBmpHeader_raises d) (fun header hh => ?_)
  refine raises_ite (fun _ => raises_error.mpr rfl) (fun _ => ?_)
  refine raises_bind (parsePerPeerHeader_raises d _) (fun _ _ => ?_)
  have hl := (parseBmpHeader_length hh).1
  exact raises_bind_ok (readBytes_upto (by omega)) (raises_ok _)

theorem raises_readStatValue (d : Bytes) (offset statLength : Nat) :
    Raises (fun e => e.isValueError) (readStatValue d offset statLength) := by
  rw [readStatValue]
  refine raises_ite (fun _ => raises_readUint32 d _) (fun _ => ?_)
  refine raises_ite (fun _ => ?_) (fun _ => ?_)
  · refine raises_bind (raises_readUint32 d _) (fun high _ => ?_)
    exact raises_bind (raises_readUint32 d _) (fun low _ => raises_ok _)
  · exact raises_bind (raises_readBytes d _ _) (fun _ _ => raises_ok _)

theorem statTlv_raises (d : Bytes) (messageLength tlvOffset : Nat) :
    Raises OwnError (statTlv d messageLength tlvOffset) := by
  rw [statTlv]
  refine raises_ite (fun _ => raises_error.mpr rfl) (fun _ => ?_)
  refine raises_exceptValueError ?_ (fun _ => rfl)
  refine raises_bind (caught (raises_readUint16 d _)) (fun statType _ => ?_)
  refine raises_bind (caught (raises_readUint16 d _)) (fun statLength _ => ?_)
  refine raises_ite (fun _ => raises_error.mpr (own rfl)) (fun _ => ?_)
  exact raises_bind (caught (raises_readStatValue d _ _)) (fun _ _ => raises_ok _)

theorem statsTlvs_raises (d : Bytes) (messageLength count : Nat) :
    ∀ tlvOffset, Raises OwnError (statsTlvs d messageLength count tlvOffset) := by
  induction count with
  | zero => exact fun _ => raises_ok _
  | succ count ih =>
    intro tlvOffset
    refine raises_bind (statTlv_raises d messageLength tlvOffset) (fun round _ => ?_)
    exact raises_bind (ih round.2) (fun _ _ => raises_ok _)

theorem parseStatisticsReportMessage_raises (d : Bytes) :
    Raises OwnError (parseStatisticsReportMessage d) := by
  refine raises_bind (parseBmpHeader_raises d) (fun header _ => ?_)
  refine raises_ite (fun _ => raises_error.mpr rfl) (fun _ => ?_)
  refine raises_bind (parsePerPeerHeader_raises d _) (fun _ _ => ?_)
  refine raises_ite (fun _ => raises_error.mpr rfl) (fun hlen => ?_)
  refine raises_bind_ok (readUint32_ok (Nat.le_of_not_lt hlen)) ?_
  exact raises_bind (statsTlvs_raises d _ _ _) (fun _ _ => raises_ok _)

/-- The length check leaves no failed read for the handler to format. -/
theorem peerDownReason_raises {d : Bytes} {offset : Nat} (h : offset < d.length) :
    Raises OwnError (peerDownReason d offset) := by
  rw [peerDownReason, readUint8_ok h]
  split
  · rename_i he; cases he
  · rename_i he; cases he
  · split
    · exact raises_error.mpr rfl
    · exact raises_ok _

theorem parsePeerDownMessage_raises {d : Bytes} (hd : declaredLength d ≤ d.length) :
    Raises OwnError (parsePeerDownMessage d) := by
  refine raises_bind (parseBmpHeader_raises d) (fun header hh => ?_)
  refine raises_ite (fun _ => raises_error.mpr rfl) (fun _ => ?_)
  refine raises_bind (parsePerPeerHeader_raises d _) (fun _ _ => ?_)
  refine raises_ite (fun _ => raises_error.mpr rfl) (fun hlen => ?_)
  refine raises_bind (peerDownReason_raises (Nat.lt_of_succ_le (Nat.le_of_not_lt hlen)))
    (fun _ _ => ?_)
  have hl := (parseBmpHeader_length hh).1
  exact raises_bind_ok (readBytes_upto (by omega)) (raises_ok _)

theorem openMessage_raises (label : String) (d : Bytes) (offset : Nat) :
    Raises OwnError (openMessage label d offset) := by
  rw [openMessage]
  refine raises_ite (fun _ => raises_error.mpr rfl) (fun h19 => ?_)
  refine raises_bind_ok (readUint16_ok (by omega)) ?_
  refine raises_ite (fun _ => raises_error.mpr rfl) (fun hlen => ?_)
  exact raises_bind_ok (readBytes_ok (by omega)) (raises_ok _)

theorem parsePeerUpMessage_raises (d : Bytes) : Raises OwnError (parsePeerUpMessage d) := by
  refine raises_bind (parseBmpHeader_raises d) (fun header _ => ?_)
  refine raises_ite (fun _ => raises_error.mpr rfl) (fun _ => ?_)
  refine raises_bind (parsePerPeerHeader_raises d _) (fun perPeerHeader _ => ?_)
  refine raises_ite (fun _ => raises_error.mpr rfl) (fun hlen => ?_)
  simp only [BMP_HEADER_SIZE, BMP_PER_PEER_HEADER_SIZE] at hlen ⊢
  obtain ⟨localAddress, hlocal⟩ :=
    readIpAddress_returns (isIpv6 perPeerHeader.peerFlags) (by omega : 48 + 16 ≤ d.length)
  refine raises_bind_ok hlocal ?_
  refine raises_bind_ok (readUint16_ok (by omega)) ?_
  refine raises_bind_ok (readUint16_ok (by omega)) ?_
  refine raises_bind (openMessage_raises _ d _) (fun sent _ => ?_)
  refine raises_bind (openMessage_raises _ d _) (fun received _ => ?_)
  exact raises_bind (parseInformationTlvs_raises d _ _) (fun _ _ => raises_ok _)

/-- The dispatch has checked the buffer against the declared length. -/
theorem parseBmpMessage_raises (d : Bytes) : Raises OwnError (parseBmpMessage d) := by
  refine raises_bind (parseBmpHeader_raises d) (fun header hh => ?_)
  refine raises_ite (fun _ => raises_error.mpr rfl) (fun hlen => ?_)
  have hd : declaredLength d ≤ d.length := by
    have hl := (parseBmpHeader_length hh).1
    omega
  cases header.msgType with
  | initiation => exact raises_map (parseInitiationMessage_raises d)
  | termination => exact raises_map (parseTerminationMessage_raises d)
  | routeMonitoring => exact raises_map (parseRouteMonitoringMessage_raises hd)
  | statisticsReport => exact raises_map (parseStatisticsReportMessage_raises d)
  | peerDownNotification => exact raises_map (parsePeerDownMessage_raises hd)
  | peerUpNotification => exact raises_map (parsePeerUpMessage_raises d)

end Pybmpmon.Protocol.BmpErrors
