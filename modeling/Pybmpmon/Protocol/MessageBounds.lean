import Pybmpmon.Protocol.BmpAcceptance

/-!
# Bytes after the message

Some checks of the parsers are against the declared length and others against the
buffer. A message that holds the fields of its type is parsed as if nothing followed it;
one that is too short for them takes them from the bytes after it, and is then accepted.
-/
namespace Pybmpmon.Protocol.MessageBounds

open Pybmpmon.Lib.ByteString Pybmpmon.Lib.Outcome Pybmpmon.Lib.Scan Pybmpmon.Python
open Pybmpmon.Utils.Binary Pybmpmon.Utils.Windows Pybmpmon.Protocol.Bmp
open Pybmpmon.Protocol.BmpParser Pybmpmon.Protocol.BmpErrors Pybmpmon.Protocol.BmpAcceptance

/-- The same message, or `BMPParseError` from both. -/
def SameOutcome (x y : Except PyErr BMPMessage) : Prop :=
  (∃ m, x = .ok m ∧ y = .ok m) ∨
    (∃ error, x = .error error ∧ OwnError error) ∧ ∃ error, y = .error error ∧ OwnError error

/-- The peer type octet is in the message and is none of the four. -/
def RefusedPeerType (d : Bytes) : Prop :=
  ∃ b, d[6]? = some b ∧ BMPPeerType.ofNat? b.toNat = none

/-- The fields of a message of the type are inside it. -/
def FieldsInside : BMPMessageType → Bytes → Prop
  | .initiation, _ => True
  | .termination, _ => True
  | .routeMonitoring, d => 48 ≤ d.length
  | .peerDownNotification, d => 49 ≤ d.length
  | .statisticsReport, d => 52 ≤ d.length
  | .peerUpNotification, d =>
      87 + sentLength d ≤ d.length ∧ 68 + sentLength d + receivedLength d ≤ d.length

/-- What the message has of its fields is refused, whatever follows: a peer type, the first octets of
a stats count, or the TLVs of a Peer Up that ends with the length field of its second OPEN. -/
def Spoiled : BMPMessageType → Bytes → Prop
  | .initiation, _ => False
  | .termination, _ => False
  | .routeMonitoring, d => RefusedPeerType d
  | .peerDownNotification, d => RefusedPeerType d
  | .statisticsReport, d => RefusedPeerType d ∨ d.length < 52 ∧ ∃ b ∈ d.drop 48, b ≠ 0
  | .peerUpNotification, d => RefusedPeerType d ∨ d.length = 86 + sentLength d ∧
      ¬Returns (parseInformationTlvs d (68 + sentLength d + receivedLength d) d.length)

/-- An accepted header stands before the fields of its type, or before fields that are refused. -/
def Confined (d : Bytes) : Prop :=
  ∀ header, parseBmpHeader d = .ok header →
    FieldsInside header.msgType d ∨ Spoiled header.msgType d

theorem sameOutcome_refl (d : Bytes) : SameOutcome (parseBmpMessage d) (parseBmpMessage d) := by
  rcases raises_cases (parseBmpMessage_raises d) with ⟨m, hm⟩ | ⟨error, hx, hown⟩
  · exact .inl ⟨m, hm, hm⟩
  · exact .inr ⟨⟨error, hx, hown⟩, error, hx, hown⟩

theorem refused_of_not_accepts {d : Bytes} (h : ¬Returns (parseBmpMessage d)) :
    ∃ error, parseBmpMessage d = .error error ∧ OwnError error :=
  (raises_cases (parseBmpMessage_raises d)).resolve_left h

theorem SameOutcome.accepts {x y : Except PyErr BMPMessage} (h : SameOutcome x y) (hx : Returns x) :
    Returns y := by
  obtain ⟨m, hm⟩ := hx
  rcases h with ⟨m', -, hy⟩ | ⟨⟨error, herror, -⟩, -⟩
  · exact ⟨m', hy⟩
  · rw [hm] at herror
    cases herror

/-! ## Peer types -/

theorem not_known_of_refused {d : Bytes} (h : RefusedPeerType d) (e : Bytes) :
    ¬KnownPeerType (d ++ e) := by
  obtain ⟨b, hb, hnone⟩ := h
  rintro ⟨b', hb', hsome⟩
  obtain ⟨hlt, -⟩ := List.getElem?_eq_some_iff.mp hb
  rw [List.getElem?_append_left hlt, hb] at hb'
  cases hb'
  rw [hnone] at hsome
  cases hsome

/-- The peer type of a message that is continued is known unless it is refused, when the
continuation starts with a known one. -/
theorem known_of_not_refused {d e : Bytes} {b : UInt8} (h6 : 6 ≤ d.length) (h : ¬RefusedPeerType d)
    (hb : d.length = 6 → (BMPPeerType.ofNat? b.toNat).isSome) : KnownPeerType (d ++ b :: e) := by
  by_cases hsix : d.length = 6
  · refine ⟨b, ?_, hb hsix⟩
    rw [List.getElem?_append_right (by omega), hsix]
    rfl
  · have hlt : 6 < d.length := by omega
    refine ⟨d[6], ?_, ?_⟩
    · rw [List.getElem?_append_left hlt, List.getElem?_eq_getElem hlt]
    · by_contra hnone
      exact h ⟨d[6], List.getElem?_eq_getElem hlt, by simpa using hnone⟩

/-! ## Messages that nothing can change -/

/-- Every message but the two of TLVs alone starts with a per-peer header. -/
theorem accepts_perPeer {d : Bytes} {header : BMPHeader} (h : Begins d header)
    (hinitiation : header.msgType ≠ .initiation) (htermination : header.msgType ≠ .termination)
    (haccepts : Returns (parseBmpMessage d)) : Returns (parsePerPeerHeader d 6) := by
  cases htype : header.msgType with
  | initiation => exact absurd htype hinitiation
  | termination => exact absurd htype htermination
  | routeMonitoring => exact (h.routeMonitoring htype).mp haccepts
  | statisticsReport => exact ((h.statisticsReport htype).mp haccepts).1
  | peerDownNotification => exact ((h.peerDown htype).mp haccepts).1
  | peerUpNotification => exact ((h.peerUp htype).mp haccepts).1

theorem parseBmpMessage_append {d : Bytes} {header : BMPHeader} (h : Begins d header) (e : Bytes)
    (hinside : FieldsInside header.msgType d) : parseBmpMessage (d ++ e) = parseBmpMessage d := by
  have hD := h.append e
  rw [parseBmpMessage, parseBmpMessage, hD.parsed, h.parsed, ok_bind, ok_bind,
    if_neg (Nat.not_lt.mpr hD.complete), if_neg (Nat.not_lt.mpr h.complete)]
  cases htype : header.msgType with
  | initiation => simp only [parseInitiationMessage_append h e]
  | termination => simp only [parseTerminationMessage_append h e]
  | routeMonitoring =>
    rw [htype] at hinside
    simp only [parseRouteMonitoringMessage_append h e hinside]
  | statisticsReport =>
    rw [htype] at hinside
    simp only [parseStatisticsReportMessage_append h e hinside]
  | peerDownNotification =>
    rw [htype] at hinside
    simp only [parsePeerDownMessage_append h e hinside]
  | peerUpNotification =>
    rw [htype] at hinside
    simp only [parsePeerUpMessage_append h e hinside.1 hinside.2]

/-- A count that is not zero asks for a TLV behind the end. -/
theorem statsTlvs_refused {D : Bytes} {stop count : Nat} (hstop : stop < 56) (hcount : count ≠ 0) :
    ¬Returns (statsTlvs D stop count 52) := by
  obtain ⟨n, rfl⟩ := Nat.exists_eq_succ_of_ne_zero hcount
  intro haccepts
  obtain ⟨round, hround, -⟩ := returns_bind.mp haccepts
  rw [statTlv, if_pos (by omega)] at hround
  cases hround

theorem spoiled_refused {d : Bytes} {header : BMPHeader} (h : Begins d header)
    (hlength : header.length = d.length) (hspoiled : Spoiled header.msgType d) (e : Bytes) :
    ¬Returns (parseBmpMessage (d ++ e)) := by
  intro haccepts
  have hD := h.append e
  have hperPeer : header.msgType ≠ .initiation → header.msgType ≠ .termination →
      ¬RefusedPeerType d := by
    intro hinitiation htermination hrefused
    have hknown := (parsePerPeerHeader_accepts.mp
      (accepts_perPeer hD hinitiation htermination haccepts)).2
    exact not_known_of_refused hrefused e hknown
  cases htype : header.msgType with
  | initiation => rw [htype] at hspoiled; exact hspoiled
  | termination => rw [htype] at hspoiled; exact hspoiled
  | routeMonitoring =>
    rw [htype] at hspoiled hperPeer
    exact hperPeer (by decide) (by decide) hspoiled
  | peerDownNotification =>
    rw [htype] at hspoiled hperPeer
    exact hperPeer (by decide) (by decide) hspoiled
  | statisticsReport =>
    rw [htype] at hspoiled hperPeer
    rcases hspoiled with hrefused | ⟨hshort, b, hb, hne⟩
    · exact hperPeer (by decide) (by decide) hrefused
    · obtain ⟨-, -, htlvs⟩ := (hD.statisticsReport htype).mp haccepts
      refine statsTlvs_refused (by omega) ?_ htlvs
      intro hzero
      refine hne (beNat_eq_zero_iff.mp hzero b ?_)
      have hwhole : (d.drop 48).take 4 = d.drop 48 :=
        List.take_of_length_le (by rw [List.length_drop]; omega)
      rw [List.drop_append, List.take_append, hwhole]
      exact List.mem_append_left _ hb
  | peerUpNotification =>
    rw [htype] at hspoiled hperPeer
    rcases hspoiled with hrefused | ⟨hends, htlvs⟩
    · exact hperPeer (by decide) (by decide) hrefused
    · obtain ⟨-, -, -, haccepted⟩ := (hD.peerUp htype).mp haccepts
      have hsent : sentLength (d ++ e) = sentLength d := field16_append e (by omega)
      have hreceived : receivedLength (d ++ e) = receivedLength d := by
        rw [receivedLength, receivedLength, hsent]
        exact field16_append e (by omega)
      rw [hsent, hreceived, hlength, parseInformationTlvs_append e (Nat.le_refl _)] at haccepted
      exact htlvs haccepted

/-! ## Messages that a continuation completes -/

theorem field16_lt (d : Bytes) (offset : Nat) : field16 d offset < 65536 := by
  have hlt := beNat_lt ((d.drop offset).take 2)
  have hlen : ((d.drop offset).take 2).length ≤ 2 := by
    rw [List.length_take]
    omega
  exact Nat.lt_of_lt_of_le hlt (Nat.pow_le_pow_right (by decide) hlen)

/-- A 16-bit number is at least its low octet. -/
theorem field16_low {d : Bytes} {offset : Nat} {b : UInt8} (h : d[offset + 1]? = some b) :
    b.toNat ≤ field16 d offset := by
  obtain ⟨hlt, rfl⟩ := List.getElem?_eq_some_iff.mp h
  have hdrop : d.drop offset = d[offset] :: d[offset + 1] :: d.drop (offset + 2) := by
    rw [List.drop_eq_getElem_cons (by omega), List.drop_eq_getElem_cons hlt]
  rw [field16, hdrop]
  show _ ≤ beNat ([d[offset]] ++ [d[offset + 1]])
  rw [beNat_append_byte]
  exact Nat.le_add_left _ _

/-- Octets to complete a Peer Up with: a peer type where the message has none, and then as many
255s as two OPEN messages can take. -/
def filler (d : Bytes) : Bytes :=
  (if d.length = 6 then 1 else 255) :: List.replicate 262144 255

theorem filler_length (d : Bytes) : (filler d).length = 262145 := by
  rw [filler, List.length_cons, List.length_replicate]

theorem filler_at {d : Bytes} {k : Nat} (hle : d.length ≤ k) (hk : 7 ≤ k)
    (hlt : k < d.length + 262145) : (d ++ filler d)[k]? = some 255 := by
  rw [List.getElem?_append_right hle, filler]
  obtain hzero | ⟨j, hj⟩ : k - d.length = 0 ∨ ∃ j, k - d.length = j + 1 := by
    by_cases h : k - d.length = 0
    · exact .inl h
    · exact .inr ⟨k - d.length - 1, by omega⟩
  · rw [hzero, List.getElem?_cons_zero, if_neg (by omega)]
  · rw [hj, List.getElem?_cons_succ, List.getElem?_replicate, if_pos (by omega)]

/-- A Peer Up that does not hold its two OPEN messages is accepted when it goes on, unless it is
spoiled. -/
theorem peerUp_completed {d : Bytes} {header : BMPHeader} (h : Begins d header)
    (hlength : header.length = d.length) (h6 : 6 ≤ d.length)
    (htype : header.msgType = .peerUpNotification) (hinside : ¬FieldsInside header.msgType d)
    (hspoiled : ¬Spoiled header.msgType d) : Returns (parseBmpMessage (d ++ filler d)) := by
  rw [htype] at hinside hspoiled
  simp only [FieldsInside, Spoiled, not_or, not_and, not_not] at hinside hspoiled
  obtain ⟨hrefused, htlvs⟩ := hspoiled
  have hsize : (d ++ filler d).length = d.length + 262145 := by
    rw [List.length_append, filler_length]
  have hs : sentLength (d ++ filler d) < 65536 := field16_lt _ _
  have hr : receivedLength (d ++ filler d) < 65536 := field16_lt _ _
  have hknown : KnownPeerType (d ++ filler d) :=
    known_of_not_refused h6 hrefused fun hsix => by rw [if_pos hsix]; decide
  refine ((h.append _).peerUp htype).mpr
    ⟨parsePerPeerHeader_accepts.mpr ⟨by omega, hknown⟩, by omega, by omega, ?_⟩
  rw [hlength]
  -- The TLVs start behind the message, or are those of the message.
  have hdone : d.length ≤ 68 + sentLength (d ++ filler d) + receivedLength (d ++ filler d) →
      Returns (parseInformationTlvs (d ++ filler d)
        (68 + sentLength (d ++ filler d) + receivedLength (d ++ filler d)) d.length) :=
    fun hle => ⟨[], scan_done hle⟩
  by_cases h86 : d.length < 86
  · have hlow : 255 ≤ sentLength (d ++ filler d) :=
      field16_low (filler_at (show d.length ≤ 85 by omega) (by decide) (by omega))
    exact hdone (by omega)
  have hsent : sentLength (d ++ filler d) = sentLength d := field16_append _ (by omega)
  by_cases hs86 : d.length < 86 + sentLength d
  · have hlow : 255 ≤ receivedLength (d ++ filler d) := by
      refine field16_low (filler_at ?_ ?_ ?_) <;> omega
    exact hdone (by omega)
  have hreceived : receivedLength (d ++ filler d) = receivedLength d := by
    rw [receivedLength, receivedLength, hsent]
    exact field16_append _ (by omega)
  by_cases hends : d.length = 86 + sentLength d
  · rw [hsent, hreceived, parseInformationTlvs_append _ (Nat.le_refl _)]
    exact htlvs hends
  · have hbeyond := hinside (by omega)
    exact hdone (by omega)

theorem routeMonitoring_completed {d : Bytes} {header : BMPHeader} (h : Begins d header)
    (h6 : 6 ≤ d.length) (htype : header.msgType = .routeMonitoring) (hrefused : ¬RefusedPeerType d) :
    Returns (parseBmpMessage (d ++ 1 :: List.replicate 42 1)) := by
  have hknown := known_of_not_refused (e := List.replicate 42 1) h6 hrefused fun _ =>
    show (BMPPeerType.ofNat? (1 : UInt8).toNat).isSome by decide
  refine ((h.append _).routeMonitoring htype).mpr (parsePerPeerHeader_accepts.mpr ⟨?_, hknown⟩)
  rw [List.length_append, List.length_cons, List.length_replicate]
  omega

/-- The reason of a Peer Down that ends before it is the 1 of the continuation. -/
theorem peerDown_completed {d : Bytes} {header : BMPHeader} (h : Begins d header)
    (h6 : 6 ≤ d.length) (htype : header.msgType = .peerDownNotification) (hshort : d.length < 49)
    (hrefused : ¬RefusedPeerType d) : Returns (parseBmpMessage (d ++ 1 :: List.replicate 42 1)) := by
  have hknown := known_of_not_refused (e := List.replicate 42 1) h6 hrefused fun _ =>
    show (BMPPeerType.ofNat? (1 : UInt8).toNat).isSome by decide
  refine ((h.append _).peerDown htype).mpr ⟨parsePerPeerHeader_accepts.mpr ⟨?_, hknown⟩, 1, ?_, by decide⟩
  · rw [List.length_append, List.length_cons, List.length_replicate]
    omega
  · rw [← List.replicate_succ, List.getElem?_append_right (by omega), List.getElem?_replicate,
      if_pos (by omega)]

/-- The count of a Statistics Report that ends in it is zero when its octets are and the ones of
the continuation. -/
theorem statisticsReport_completed {d : Bytes} {header : BMPHeader} (h : Begins d header)
    (h6 : 6 ≤ d.length) (htype : header.msgType = .statisticsReport)
    (hinside : ¬FieldsInside header.msgType d) (hspoiled : ¬Spoiled header.msgType d) :
    Returns (parseBmpMessage (d ++ 0 :: List.replicate 45 0)) := by
  rw [htype] at hinside hspoiled
  simp only [FieldsInside, Spoiled, not_or, not_and, not_exists, not_not] at hinside hspoiled
  obtain ⟨hrefused, hcount⟩ := hspoiled
  have hknown := known_of_not_refused (e := List.replicate 45 0) h6 hrefused fun _ =>
    show (BMPPeerType.ofNat? (0 : UInt8).toNat).isSome by decide
  have hsize : (d ++ 0 :: List.replicate 45 0).length = d.length + 46 := by
    rw [List.length_append, List.length_cons, List.length_replicate]
  have hzero : beNat (((d ++ 0 :: List.replicate 45 0).drop 48).take 4) = 0 := by
    refine beNat_eq_zero_iff.mpr fun x hx => ?_
    have hdrop := List.mem_of_mem_take hx
    rw [List.drop_append] at hdrop
    rcases List.mem_append.mp hdrop with hmem | hmem
    · exact hcount (by omega) x hmem
    · rw [← List.replicate_succ] at hmem
      exact List.eq_of_mem_replicate (List.mem_of_mem_drop hmem)
  refine ((h.append _).statisticsReport htype).mpr
    ⟨parsePerPeerHeader_accepts.mpr ⟨by omega, hknown⟩, by omega, ?_⟩
  rw [hzero]
  exact ⟨[], rfl⟩

/-- A message that neither holds its fields nor is spoiled is accepted with the right octets
behind it. -/
theorem completed {d : Bytes} {header : BMPHeader} (h : Begins d header)
    (hlength : header.length = d.length) (hinside : ¬FieldsInside header.msgType d)
    (hspoiled : ¬Spoiled header.msgType d) : ∃ e, Returns (parseBmpMessage (d ++ e)) := by
  have h6 := (parseBmpHeader_length h.parsed).2.2
  cases htype : header.msgType with
  | initiation => exact absurd (by rw [htype]; trivial) hinside
  | termination => exact absurd (by rw [htype]; trivial) hinside
  | routeMonitoring =>
    rw [htype] at hspoiled
    exact ⟨_, routeMonitoring_completed h h6 htype hspoiled⟩
  | statisticsReport => exact ⟨_, statisticsReport_completed h h6 htype hinside hspoiled⟩
  | peerDownNotification =>
    rw [htype] at hinside hspoiled
    exact ⟨_, peerDown_completed h h6 htype (Nat.not_le.mp hinside) hspoiled⟩
  | peerUpNotification => exact ⟨_, peerUp_completed h hlength h6 htype hinside hspoiled⟩

/-- An accepted message holds its fields. -/
theorem fieldsInside_of_accepts {d : Bytes} {header : BMPHeader} (h : Begins d header)
    (haccepts : Returns (parseBmpMessage d)) : FieldsInside header.msgType d := by
  cases htype : header.msgType with
  | initiation => trivial
  | termination => trivial
  | routeMonitoring =>
    exact (parsePerPeerHeader_accepts.mp ((h.routeMonitoring htype).mp haccepts)).1
  | statisticsReport => exact ((h.statisticsReport htype).mp haccepts).2.1
  | peerDownNotification =>
    obtain ⟨-, b, hb, -⟩ := (h.peerDown htype).mp haccepts
    exact (List.getElem?_eq_some_iff.mp hb).1
  | peerUpNotification =>
    obtain ⟨-, h19, hstop, -⟩ := (h.peerUp htype).mp haccepts
    exact ⟨h19, hstop⟩

/-- A header that is refused is refused whatever follows the message. -/
theorem refused_header {d : Bytes} {error : PyErr} (h5 : 5 ≤ d.length) (hdeclared : declaredLength d = d.length)
    (h : parseBmpHeader d = .error error) (e : Bytes) : ¬Returns (parseBmpMessage (d ++ e)) := by
  intro haccepts
  obtain ⟨header, hheader, -⟩ := returns_bind.mp haccepts
  by_cases h6 : 6 ≤ d.length
  · rw [parseBmpHeader_append e h6, h] at hheader
    cases hheader
  · obtain ⟨hlength, hmin, -⟩ := parseBmpHeader_length hheader
    have hsame : declaredLength (d ++ e) = declaredLength d :=
      congrArg beNat (octets_append e (show 1 + 4 ≤ d.length from h5))
    omega

/-- Whatever may follow a message whose length field is its length, the parse is the same exactly when
the message holds the fields of its type, or is refused for what it holds of them. -/
theorem parseBmpMessage_append_iff {d : Bytes} (hd : readUint32 d 1 = .ok d.length) :
    (∀ e, SameOutcome (parseBmpMessage (d ++ e)) (parseBmpMessage d)) ↔ Confined d := by
  have h5 : 5 ≤ d.length := by
    by_contra hshort
    rw [readUint32, if_pos (by omega)] at hd
    cases hd
  have hdeclared : declaredLength d = d.length := by
    rw [readUint32_ok (by omega)] at hd
    exact Except.ok.inj hd
  -- Where nothing is accepted, with anything behind it or nothing.
  have hnever : (∀ e, ¬Returns (parseBmpMessage (d ++ e))) →
      ∀ e, SameOutcome (parseBmpMessage (d ++ e)) (parseBmpMessage d) := by
    intro h e
    have hnil := h []
    rw [List.append_nil] at hnil
    exact .inr ⟨refused_of_not_accepts (h e), refused_of_not_accepts hnil⟩
  cases hheader : parseBmpHeader d with
  | error error =>
    refine ⟨fun _ header hok => ?_, fun _ => hnever (refused_header h5 hdeclared hheader)⟩
    rw [hheader] at hok
    cases hok
  | ok header =>
    have hlength : header.length = d.length := (parseBmpHeader_length hheader).1.trans hdeclared
    have hbegins : Begins d header := ⟨hheader, Nat.le_of_eq hlength⟩
    constructor
    · intro hsame header' hok
      cases hheader.symm.trans hok
      by_contra hnot
      rw [not_or] at hnot
      obtain ⟨e, haccepts⟩ := completed hbegins hlength hnot.1 hnot.2
      exact hnot.1 (fieldsInside_of_accepts hbegins ((hsame e).accepts haccepts))
    · intro hconfined
      rcases hconfined header hheader with hinside | hspoiled
      · intro e
        rw [parseBmpMessage_append hbegins e hinside]
        exact sameOutcome_refl d
      · exact hnever (spoiled_refused hbegins hlength hspoiled)

/-- A Peer Down message of 49 octets: the headers and the reason. -/
def peerDown : Bytes := [3, 0, 0, 0, 49, 2] ++ List.replicate 42 0 ++ [1]

theorem parseBmpMessage_append_iff_peerDown :
    (∀ e, SameOutcome (parseBmpMessage (peerDown ++ e)) (parseBmpMessage peerDown)) ↔ Confined peerDown :=
  parseBmpMessage_append_iff (by decide)

/-- The header alone is refused, and accepted with a per-peer header behind it that is not part
of the message. -/
theorem trailing_bytes_read :
    ¬ ∀ d e : Bytes, readUint32 d 1 = .ok d.length →
      SameOutcome (parseBmpMessage (d ++ e)) (parseBmpMessage d) := by
  intro h
  have hsame := h [3, 0, 0, 0, 6, 0] (List.replicate 42 0) (by decide)
  have haccepted : (parseBmpMessage ([3, 0, 0, 0, 6, 0] ++ List.replicate 42 0)).isOk = true := by decide
  have hrefused : (parseBmpMessage [3, 0, 0, 0, 6, 0]).isOk = false := by decide
  rcases hsame with ⟨m, -, hm⟩ | ⟨⟨error, herror, -⟩, -⟩
  · rw [hm] at hrefused
    cases hrefused
  · rw [herror] at haccepted
    cases haccepted

end Pybmpmon.Protocol.MessageBounds
