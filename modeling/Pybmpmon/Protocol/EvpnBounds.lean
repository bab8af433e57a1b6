import Pybmpmon.Utils.Windows
import Pybmpmon.Protocol.DecoderErrors

/-!
# The octets an EVPN NLRI is decoded from

The columns of a route are in the octets its own length counts, but for the IP
address: its length octet is held against the end of the buffer.
-/
namespace Pybmpmon.Protocol.EvpnBounds

open Pybmpmon.Lib.ByteString Pybmpmon.Lib.Outcome Pybmpmon.Python
open Pybmpmon.Utils.Binary Pybmpmon.Utils.Windows
open Pybmpmon.Protocol.Bgp Pybmpmon.Protocol.BgpParser Pybmpmon.Protocol.DecoderErrors

/-- The octets of the NLRI at an offset: its type, its length and as many as that says. -/
def ownOctets (value : Bytes) (offset : Nat) : Bytes :=
  (value.drop offset).take (2 + (value.getD (offset + 1) 0).toNat)

/-- Those octets, moved behind others, are decoded to the same whatever follows them. -/
def IgnoresRest (value : Bytes) (offset : Nat) (before : Bytes) : Prop :=
  ∀ after, parseEvpnNlri (before ++ (ownOctets value offset ++ after)) before.length =
    parseEvpnNlri value offset

/-- Where the IP length octet of a MAC/IP route stands in the NLRI: behind the MAC address, if
its length octet says 48 bits. -/
def ipLengthOffset (nlri : Bytes) : Nat := if nlri.getD 24 0 = 48 then 31 else 25

/-- An address of as many octets, if the IP length octet says so many bits, is in the NLRI. -/
def AddressInside (nlri : Bytes) (bits : UInt8) (octets : Nat) : Prop :=
  nlri.getD (ipLengthOffset nlri) 0 = bits → ipLengthOffset nlri + 1 + octets ≤ nlri.length

/-- A MAC/IP route holds the IP address its IP length octet stands for. -/
def HoldsAddress (nlri : Bytes) : Prop :=
  nlri.getD 0 0 = 2 → AddressInside nlri 32 4 ∧ AddressInside nlri 128 16

/-! ## Reads inside the NLRI -/

section Window

variable {d w s : Bytes} {o : Nat} (h : At d o (w ++ s))
include h

theorem parseRouteDistinguisher_window {k : Nat} (hk : k + 8 ≤ w.length) :
    parseRouteDistinguisher d (o + k) = parseRouteDistinguisher w k := by
  have hl := window_end h hk
  have hd : ¬d.length < o + k + 8 := by omega
  have hw : ¬w.length < k + 8 := by omega
  rw [parseRouteDistinguisher, parseRouteDistinguisher, if_neg hd, if_neg hw]
  simp only [Nat.add_assoc o k]
  rw [readUint16_window h (by omega), readUint16_window h (by omega), readUint32_window h (by omega),
    show (4 : Int) = (4 : Nat) from rfl, readBytes_window h (by omega), readUint16_window h (by omega),
    readUint32_window h (by omega), show (8 : Int) = (8 : Nat) from rfl, readBytes_window h (by omega)]

theorem parseEthernetSegmentId_window {k : Nat} (hk : k + 10 ≤ w.length) :
    parseEthernetSegmentId d (o + k) = parseEthernetSegmentId w k := by
  have hl := window_end h hk
  have hd : ¬d.length < o + k + 10 := by omega
  have hw : ¬w.length < k + 10 := by omega
  rw [parseEthernetSegmentId, parseEthernetSegmentId, if_neg hd, if_neg hw,
    show (10 : Int) = (10 : Nat) from rfl, readBytes_window h hk]

theorem evpnMacAddress_window (macLen : Nat) {k : Nat} (hk : k + 6 ≤ w.length) :
    evpnMacAddress d macLen (o + k) =
      (fun r => (r.1, o + r.2)) <$> evpnMacAddress w macLen k := by
  have hl := window_end h hk
  rw [evpnMacAddress, evpnMacAddress]
  by_cases hmac : macLen = 48
  · rw [if_pos ⟨hmac, hl⟩, if_pos ⟨hmac, hk⟩, show (6 : Int) = (6 : Nat) from rfl,
      readBytes_window h hk]
    cases readBytes w k (6 : Nat) <;> rfl
  · rw [if_neg (fun h => hmac h.1), if_neg (fun h => hmac h.1)]
    rfl

/-- An address that is in the window, if its length octet stands for one, is read from there. -/
theorem evpnIpAddress_window {ipLen k : Nat} (h4 : ipLen = 32 → k + 4 ≤ w.length)
    (h16 : ipLen = 128 → k + 16 ≤ w.length) :
    evpnIpAddress d ipLen (o + k) = evpnIpAddress w ipLen k := by
  rw [evpnIpAddress, evpnIpAddress]
  by_cases hv4 : ipLen = 32
  · have hl := window_end h (h4 hv4)
    rw [if_pos ⟨hv4, hl⟩, if_pos ⟨hv4, h4 hv4⟩, show (4 : Int) = (4 : Nat) from rfl,
      readBytes_window h (h4 hv4)]
  · simp only [hv4, false_and, if_false]
    by_cases hv6 : ipLen = 128
    · have hl := window_end h (h16 hv6)
      rw [if_pos ⟨hv6, hl⟩, if_pos ⟨hv6, h16 hv6⟩, show (16 : Int) = (16 : Nat) from rfl,
        readBytes_window h (h16 hv6)]
    · simp only [hv6, false_and, if_false]

end Window

/-- The body of a MAC/IP route fixes its columns, wherever it stands; its IP address is read from
the buffer. -/
theorem evpnMacIpRoute_body {b : Bytes} (hb : 33 ≤ b.length) :
    ∃ rd esi mac next, next = (if b[22] = 48 then 29 else 23) ∧
      ∀ {d s : Bytes} {o : Nat}, At d o (b ++ s) →
        evpnMacIpRoute d o = (EvpnRouteInfo.macIp rd esi mac) <$>
          evpnIpAddress d (b.getD next 0).toNat (o + (next + 1)) := by
  obtain ⟨rd, hrd⟩ := parseRouteDistinguisher_returns (show 0 + 8 ≤ b.length by omega)
  obtain ⟨esi, hesi⟩ := parseEthernetSegmentId_returns (show 8 + 10 ≤ b.length by omega)
  obtain ⟨mac, next, hmac, hnext⟩ : ∃ mac next, evpnMacAddress b b[22].toNat 23 = .ok (mac, next) ∧
      next = if b[22] = 48 then 29 else 23 := by
    have h48 : b[22].toNat = 48 ↔ b[22] = 48 := by
      rw [← UInt8.toNat_inj]
      rfl
    rw [evpnMacAddress]
    by_cases h : b[22] = 48
    · rw [if_pos ⟨h48.mpr h, by omega⟩, if_pos h, show (6 : Int) = (6 : Nat) from rfl,
        readBytes_ok (by omega), ok_bind]
      exact ⟨_, _, rfl, rfl⟩
    · rw [if_neg (fun hlen => h (h48.mp hlen.1)), if_neg h]
      exact ⟨_, _, rfl, rfl⟩
  refine ⟨rd, esi, mac, next, hnext, fun {d s o} hat => ?_⟩
  have hlt : next < b.length := by
    split at hnext <;> omega
  have hrd' := parseRouteDistinguisher_window hat (k := 0) (by omega)
  have hesi' := parseEthernetSegmentId_window hat (k := 8) (by omega)
  have hlen := readUint8_window hat (k := 22) (by omega)
  have hmac' := evpnMacAddress_window hat b[22].toNat (k := 23) (by omega)
  have hiplen := readUint8_window hat hlt
  rw [evpnMacIpRoute, show o = o + 0 from rfl, hrd', hrd, ok_bind]
  simp only [Nat.add_zero, Nat.add_assoc, Nat.reduceAdd]
  rw [hesi', hesi, ok_bind, hlen, readUint8_ok (by omega), ok_bind, hmac', hmac, ok_map, ok_bind]
  simp only
  rw [hiplen, readUint8_ok hlt, ok_bind, List.getD_eq_getElem?_getD, List.getElem?_eq_getElem hlt,
    Option.getD_some, Nat.add_assoc]
  cases evpnIpAddress d b[next].toNat (o + (next + 1)) <;> rfl

/-! ## The IP address -/

/-- The octets of an address the buffer has are an address. -/
theorem evpnIpAddress_some {d : Bytes} {ipLen k : Nat}
    (h : (ipLen = 32 ∧ k + 4 ≤ d.length) ∨ (ipLen = 128 ∧ k + 16 ≤ d.length)) :
    ∃ ip, evpnIpAddress d ipLen k = .ok (some ip) := by
  rw [evpnIpAddress]
  rcases h with h | ⟨rfl, h⟩
  · rw [if_pos h, show (4 : Int) = (4 : Nat) from rfl, readBytes_ok h.2, ok_bind,
      ipv4Address_ok (window_length h.2), ok_bind]
    exact ⟨_, rfl⟩
  · rw [if_neg (fun hv4 => absurd hv4.1 (by decide)), if_pos ⟨rfl, h⟩,
      show (16 : Int) = (16 : Nat) from rfl, readBytes_ok h, ok_bind,
      ipv6Address_ok (window_length h), ok_bind]
    exact ⟨_, rfl⟩

theorem evpnIpAddress_none {d : Bytes} {ipLen k : Nat} (h4 : ipLen = 32 → ¬k + 4 ≤ d.length)
    (h16 : ipLen = 128 → ¬k + 16 ≤ d.length) : evpnIpAddress d ipLen k = .ok none := by
  rw [evpnIpAddress, if_neg (fun h => h4 h.1 h.2), if_neg (fun h => h16 h.1 h.2)]

theorem at_placed (before w after : Bytes) : At (before ++ (w ++ after)) before.length (w ++ after) :=
  ⟨List.drop_left, by rw [List.length_append]; omega⟩

/-- The address is the same whatever follows the window exactly when it is in the window, if its
length octet stands for one. -/
theorem evpnIpAddress_own_iff {d w s : Bytes} {o ipLen k : Nat} (hat : At d o (w ++ s))
    (before : Bytes) :
    (∀ after, evpnIpAddress (before ++ (w ++ after)) ipLen (before.length + k) =
      evpnIpAddress d ipLen (o + k)) ↔
      (ipLen = 32 → k + 4 ≤ w.length) ∧ (ipLen = 128 → k + 16 ≤ w.length) := by
  constructor
  · -- with enough octets behind the window there is an address, so there is one with none
    intro h
    let zeros : Bytes := List.replicate (k + 16) 0
    have hmore := (h zeros).trans (h []).symm
    have hlong : (before ++ (w ++ zeros)).length = before.length + w.length + (k + 16) := by
      rw [List.length_append, List.length_append, List.length_replicate, Nat.add_assoc]
    have hbare : (before ++ (w ++ [])).length = before.length + w.length := by
      rw [List.append_nil, List.length_append]
    constructor
    · rintro rfl
      by_contra hout
      obtain ⟨ip, hip⟩ := evpnIpAddress_some (d := before ++ (w ++ zeros)) (k := before.length + k)
        (.inl ⟨rfl, by omega⟩)
      rw [hip, evpnIpAddress_none (fun _ => by omega) (fun h => absurd h (by decide))] at hmore
      cases hmore
    · rintro rfl
      by_contra hout
      obtain ⟨ip, hip⟩ := evpnIpAddress_some (d := before ++ (w ++ zeros)) (k := before.length + k)
        (.inr ⟨rfl, by omega⟩)
      rw [hip, evpnIpAddress_none (fun h => absurd h (by decide)) (fun _ => by omega)] at hmore
      cases hmore
  · rintro ⟨h4, h16⟩ after
    rw [evpnIpAddress_window (at_placed before w after) h4 h16, evpnIpAddress_window hat h4 h16]

/-! ## One NLRI -/

/-- A decoded NLRI stands whole in the buffer. -/
theorem parseEvpnNlri_inv {value : Bytes} {offset consumed : Nat} {route : EvpnRouteInfo}
    (h : parseEvpnNlri value offset = .ok (some route, consumed)) :
    ∃ routeType body s, body.length < 256 ∧
      At value offset (routeType :: UInt8.ofNat body.length :: (body ++ s)) := by
  rw [parseEvpnNlri] at h
  split at h
  · cases h
  · rename_i h2
    have hat : At value offset (value.drop offset) := ⟨rfl, by omega⟩
    obtain ⟨routeType, htype, h⟩ := bind_ok_iff.mp h
    obtain ⟨length, hlength, h⟩ := bind_ok_iff.mp h
    obtain ⟨-, s, hs, hat'⟩ := readUint8_inv hat htype
    obtain ⟨hlt, s', hs', hat''⟩ := readUint8_inv hat' hlength
    split at h
    · cases h
    · rename_i hfit
      have hl := hat''.length
      have hbody : (s'.take length).length = length := by
        rw [List.length_take]
        omega
      refine ⟨UInt8.ofNat routeType, s'.take length, s'.drop length, by omega, ?_⟩
      rwa [hbody, List.take_append_drop, ← hs', ← hs]

theorem ownOctets_whole {value s body : Bytes} {offset : Nat} {routeType : UInt8}
    (hlen : body.length < 256)
    (hat : At value offset (routeType :: UInt8.ofNat body.length :: (body ++ s))) :
    ownOctets value offset = routeType :: UInt8.ofNat body.length :: body := by
  have hlength : value.getD (offset + 1) 0 = UInt8.ofNat body.length := by
    rw [List.getD_eq_getElem?_getD, hat.getElem? 1]
    rfl
  rw [ownOctets, hlength, octet_toNat hlen]
  have hat' : At value offset ((routeType :: UInt8.ofNat body.length :: body) ++ s) := hat
  exact hat'.take (by simp only [List.length_cons]; omega)

/-- The two ways to read a route are the same exactly when they find the same IP address. -/
theorem macIp_map_inj {rd esi : String} {mac : Option String} {n : Nat}
    {x y : Except PyErr (Option IpAddress)} (hx : Returns x) (hy : Returns y) :
    (fun route => (some route, n)) <$> (EvpnRouteInfo.macIp rd esi mac <$> x) =
      (fun route => (some route, n)) <$> (EvpnRouteInfo.macIp rd esi mac <$> y) ↔ x = y := by
  obtain ⟨a, rfl⟩ := hx
  obtain ⟨b, rfl⟩ := hy
  simp

/-- An NLRI is decoded from its own octets only exactly when a MAC/IP route holds the IP address
that its IP length octet stands for. -/
theorem parseEvpnNlri_own_octets_iff {value : Bytes} {offset consumed : Nat} {route : EvpnRouteInfo}
    (h : parseEvpnNlri value offset = .ok (some route, consumed)) (before : Bytes) :
    IgnoresRest value offset before ↔ HoldsAddress (ownOctets value offset) := by
  obtain ⟨routeType, body, s, hlen, hat⟩ := parseEvpnNlri_inv h
  rw [IgnoresRest, ownOctets_whole hlen hat]
  let nlri := routeType :: UInt8.ofNat body.length :: body
  by_cases h2 : routeType = 2
  · have hfull : ¬body.length < 33 := by
      intro hshort
      rw [parseEvpnNlri_whole hat hlen, if_pos h2, if_pos hshort] at h
      cases h
    obtain ⟨rd, esi, mac, next, hnext, hroute⟩ := evpnMacIpRoute_body (Nat.not_lt.mp hfull)
    let ipLen := (body.getD next 0).toNat
    -- Wherever it stands, the NLRI is decoded up to the address that is found behind it.
    have hparse : ∀ {d s' : Bytes} {o : Nat}, At d o (nlri ++ s') →
        parseEvpnNlri d o = (fun route => (some route, 2 + body.length)) <$>
          (EvpnRouteInfo.macIp rd esi mac <$> evpnIpAddress d ipLen (o + (next + 3))) := by
      intro d s' o hd
      rw [parseEvpnNlri_whole hd hlen, if_pos h2, if_neg hfull, hroute hd.tail.tail,
        show o + 2 + (next + 1) = o + (next + 3) by omega]
    have hsame : (∀ after, parseEvpnNlri (before ++ (nlri ++ after)) before.length =
        parseEvpnNlri value offset) ↔
        ∀ after, evpnIpAddress (before ++ (nlri ++ after)) ipLen (before.length + (next + 3)) =
          evpnIpAddress value ipLen (offset + (next + 3)) := by
      refine forall_congr' fun after => ?_
      rw [hparse (at_placed before nlri after), hparse hat]
      exact macIp_map_inj (evpnIpAddress_returns _ _ _) (evpnIpAddress_returns _ _ _)
    have hposition : ipLengthOffset nlri = next + 2 := by
      have hmac : nlri.getD 24 0 = body[22] := by
        show body.getD 22 0 = body[22]
        rw [List.getD_eq_getElem?_getD, List.getElem?_eq_getElem, Option.getD_some]
      rw [ipLengthOffset, hmac, hnext]
      split <;> rfl
    have hbits : ∀ bits : UInt8, nlri.getD (ipLengthOffset nlri) 0 = bits ↔ ipLen = bits.toNat := by
      intro bits
      rw [hposition, ← UInt8.toNat_inj]
      rfl
    rw [hsame, evpnIpAddress_own_iff hat, HoldsAddress, AddressInside, AddressInside, hbits, hbits,
      hposition]
    exact ⟨fun h _ => h, fun h => h h2⟩
  · refine iff_of_true (fun after => ?_) (fun htype => absurd htype h2)
    rw [parseEvpnNlri_whole (at_placed before nlri after) hlen, parseEvpnNlri_whole hat hlen,
      if_neg h2, if_neg h2]

/-- A MAC/IP route of 33 octets that announces an IPv4 address and ends behind three of its
octets. -/
def shortRoute : Bytes :=
  [2, 33] ++ List.replicate 22 0 ++ [48, 2, 0, 0, 0, 0, 1] ++ [32, 10, 0, 0]

theorem parseEvpnNlri_own_octets_iff_short :
    IgnoresRest shortRoute 0 [] ↔ HoldsAddress (ownOctets shortRoute 0) :=
  @parseEvpnNlri_own_octets_iff shortRoute 0 35
    (.macIp "0:0" "00:00:00:00:00:00:00:00:00:00" (some "02:00:00:00:00:01") none) (by decide) []

/-- The next octet in the buffer decides whether the route has an IP address. -/
theorem next_octet_read :
    ¬ ∀ (value : Bytes) (offset consumed : Nat) (route : EvpnRouteInfo),
      parseEvpnNlri value offset = .ok (some route, consumed) →
      IgnoresRest value offset (value.take offset) := by
  intro h
  have hsame := h shortRoute 0 35
    (.macIp "0:0" "00:00:00:00:00:00:00:00:00:00" (some "02:00:00:00:00:01") none) (by decide) [1]
  revert hsame
  decide

end Pybmpmon.Protocol.EvpnBounds
