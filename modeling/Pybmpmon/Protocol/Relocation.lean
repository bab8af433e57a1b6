import Pybmpmon.Protocol.DecoderErrors

/-!
# Decoders look at what is left of the buffer

A NLRI decoder returns the same wherever its bytes stand, as long as they are the
last of the buffer: only the offsets in the error texts differ. So the bytes of
an MP_REACH_NLRI and of an MP_UNREACH_NLRI are decoded alike.
-/
namespace Pybmpmon.Protocol.Relocation

open Pybmpmon.Lib.ByteString Pybmpmon.Lib.Outcome Pybmpmon.Lib.Scan Pybmpmon.Python
open Pybmpmon.Utils.Binary Pybmpmon.Protocol.Bgp Pybmpmon.Protocol.BgpParser
open Pybmpmon.Protocol.DecoderErrors

section Readers

variable {d s : Bytes} {o : Nat} (h : At d o s)
include h

theorem readUint8_shift (k : Nat) : Same (readUint8 d (o + k)) (readUint8 s k) := by
  have hl := h.length
  by_cases hk : k < s.length
  · have hget : d[o + k]? = some s[k] := by rw [h.getElem? k, List.getElem?_eq_getElem hk]
    rw [readUint8_ok hk, same_ok_iff, readUint8, if_neg (by omega), index, hget]
  · rw [readUint8, if_pos (by omega), readUint8, if_pos (by omega)]
    exact same_error _ _

theorem window_shift (k n : Nat) : (d.drop (o + k)).take n = (s.drop k).take n := by
  rw [← List.drop_drop, h.rest]

theorem readUint16_shift (k : Nat) : Same (readUint16 d (o + k)) (readUint16 s k) := by
  have hl := h.length
  by_cases hk : k + 2 ≤ s.length
  · rw [readUint16_ok (by omega), readUint16_ok hk, window_shift h]
    exact same_refl _
  · rw [readUint16, if_pos (by omega), readUint16, if_pos (by omega)]
    exact same_error _ _

theorem readUint32_shift (k : Nat) : Same (readUint32 d (o + k)) (readUint32 s k) := by
  have hl := h.length
  by_cases hk : k + 4 ≤ s.length
  · rw [readUint32_ok (by omega), readUint32_ok hk, window_shift h]
    exact same_refl _
  · rw [readUint32, if_pos (by omega), readUint32, if_pos (by omega)]
    exact same_error _ _

theorem readBytes_shift (k n : Nat) : Same (readBytes d (o + k) n) (readBytes s k n) := by
  have hl := h.length
  by_cases hk : k + n ≤ s.length
  · rw [readBytes_ok (by omega), readBytes_ok hk, window_shift h]
    exact same_refl _
  · rw [readBytes, if_pos (by omega), readBytes, if_pos (by omega)]
    exact same_error _ _

/-! ## Prefixes -/

theorem parseIpv4Prefix_shift (k : Nat) : Same (parseIpv4Prefix d (o + k)) (parseIpv4Prefix s k) := by
  have hl := h.length
  rw [parseIpv4Prefix, parseIpv4Prefix]
  refine same_ite (by omega) (fun _ => same_error _ _) (fun _ => ?_)
  refine same_bind (readUint8_shift h k) (fun prefixLen _ => ?_)
  by_cases h32 : prefixLen > 32
  · rw [dif_pos h32, dif_pos h32]
    exact same_refl _
  · rw [dif_neg h32, dif_neg h32]
    refine same_ite (by omega) (fun _ => same_error _ _) (fun _ => ?_)
    rw [Nat.add_assoc o k 1]
    exact same_bind (readBytes_shift h (k + 1) _) (fun _ _ => same_refl _)

theorem parseIpv6Prefix_shift (k : Nat) : Same (parseIpv6Prefix d (o + k)) (parseIpv6Prefix s k) := by
  have hl := h.length
  rw [parseIpv6Prefix, parseIpv6Prefix]
  refine same_ite (by omega) (fun _ => same_error _ _) (fun _ => ?_)
  refine same_bind (readUint8_shift h k) (fun prefixLen _ => ?_)
  by_cases h128 : prefixLen > 128
  · rw [dif_pos h128, dif_pos h128]
    exact same_refl _
  · rw [dif_neg h128, dif_neg h128]
    refine same_ite (by omega) (fun _ => same_error _ _) (fun _ => ?_)
    rw [Nat.add_assoc o k 1]
    exact same_bind (readBytes_shift h (k + 1) _) (fun _ _ => same_refl _)

/-! ## EVPN routes -/

theorem parseRouteDistinguisher_shift (k : Nat) :
    Same (parseRouteDistinguisher d (o + k)) (parseRouteDistinguisher s k) := by
  have hl := h.length
  rw [parseRouteDistinguisher, parseRouteDistinguisher]
  simp only [Nat.add_assoc o k]
  refine same_ite (by omega) (fun _ => same_error _ _) (fun _ => ?_)
  refine same_bind (readUint16_shift h k) (fun rdType _ => ?_)
  refine same_ite Iff.rfl (fun _ => ?_) (fun _ => same_ite Iff.rfl (fun _ => ?_) (fun _ =>
    same_ite Iff.rfl (fun _ => ?_) (fun _ => ?_)))
  · refine same_bind (readUint16_shift h _) (fun _ _ => ?_)
    exact same_bind (readUint32_shift h _) (fun _ _ => same_refl _)
  · refine same_bind (readBytes_shift h _ 4) (fun _ _ => same_bind (same_refl _) (fun _ _ => ?_))
    exact same_bind (readUint16_shift h _) (fun _ _ => same_refl _)
  · refine same_bind (readUint32_shift h _) (fun _ _ => ?_)
    exact same_bind (readUint16_shift h _) (fun _ _ => same_refl _)
  · exact same_bind (readBytes_shift h _ 8) (fun _ _ => same_refl _)

theorem parseEthernetSegmentId_shift (k : Nat) :
    Same (parseEthernetSegmentId d (o + k)) (parseEthernetSegmentId s k) := by
  have hl := h.length
  rw [parseEthernetSegmentId, parseEthernetSegmentId]
  refine same_ite (by omega) (fun _ => same_error _ _) (fun _ => ?_)
  exact same_bind (readBytes_shift h k 10) (fun _ _ => same_refl _)

theorem evpnIpAddress_shift (ipLen k : Nat) :
    Same (evpnIpAddress d ipLen (o + k)) (evpnIpAddress s ipLen k) := by
  have hl := h.length
  rw [evpnIpAddress, evpnIpAddress]
  refine same_ite (by omega) (fun _ => ?_) (fun _ => same_ite (by omega) (fun _ => ?_)
    (fun _ => same_refl _))
  · exact same_bind (readBytes_shift h k 4) (fun _ _ => same_refl _)
  · exact same_bind (readBytes_shift h k 16) (fun _ _ => same_refl _)

/-- The MAC address is the same, and the reading goes on at the same distance. -/
theorem evpnMacAddress_shift (macLen k : Nat) :
    Same (evpnMacAddress d macLen (o + k))
      ((fun r => (r.1, o + r.2)) <$> evpnMacAddress s macLen k) := by
  have hl := h.length
  rw [evpnMacAddress, evpnMacAddress]
  by_cases hmac : macLen = 48 ∧ s.length ≥ k + 6
  · have hmac' : macLen = 48 ∧ d.length ≥ o + k + 6 := by omega
    rw [if_pos hmac, if_pos hmac', show (6 : Int) = (6 : Nat) from rfl,
      readBytes_ok (by omega), readBytes_ok (by omega), window_shift h]
    exact same_refl _
  · have hmac' : ¬(macLen = 48 ∧ d.length ≥ o + k + 6) := by omega
    rw [if_neg hmac, if_neg hmac']
    exact same_refl _

theorem evpnMacIpRoute_shift (k : Nat) :
    Same (evpnMacIpRoute d (o + k)) (evpnMacIpRoute s k) := by
  rw [evpnMacIpRoute, evpnMacIpRoute]
  simp only [Nat.add_assoc o]
  refine same_bind (parseRouteDistinguisher_shift h k) (fun rd _ => ?_)
  refine same_bind (parseEthernetSegmentId_shift h _) (fun esi _ => ?_)
  refine same_bind (readUint8_shift h _) (fun macLen _ => ?_)
  refine same_bind_map (evpnMacAddress_shift h macLen _) (fun mac _ => ?_)
  refine same_bind (readUint8_shift h _) (fun ipLen _ => ?_)
  simp only [Nat.add_assoc o]
  exact same_bind (evpnIpAddress_shift h ipLen _) (fun _ _ => same_refl _)

theorem parseEvpnNlri_shift (k : Nat) : Same (parseEvpnNlri d (o + k)) (parseEvpnNlri s k) := by
  have hl := h.length
  rw [parseEvpnNlri, parseEvpnNlri]
  simp only [Nat.add_assoc o]
  refine same_ite (by omega) (fun _ => same_refl _) (fun _ => ?_)
  refine same_bind (readUint8_shift h k) (fun routeType _ => ?_)
  refine same_bind (readUint8_shift h _) (fun length _ => ?_)
  refine same_ite (by omega) (fun _ => same_error _ _) (fun _ => ?_)
  refine same_ite Iff.rfl (fun _ => ?_) (fun _ => same_refl _)
  refine same_ite Iff.rfl (fun _ => same_error _ _) (fun _ => ?_)
  exact same_bind (evpnMacIpRoute_shift h _) (fun _ _ => same_refl _)

/-! ## NLRI lists -/

theorem parsePrefixes_shift {parse : Bytes → Nat → Except PyErr (Cidr × Nat)}
    (hshift : ∀ k, Same (parse d (o + k)) (parse s k))
    (hpos : ∀ b offset c consumed, parse b offset = .ok (c, consumed) → 0 < consumed) :
    Same (parsePrefixes parse d o) (parsePrefixes parse s 0) := by
  have hscan : Same (scan PyErr.diverges _ (o + s.length) (o + 0))
      (scan PyErr.diverges _ s.length 0) :=
    scan_shift (prefixRound_advances (hpos d)) (prefixRound_advances (hpos s))
      (fun k => same_map_bind (hshift k) (fun r _ => by
        obtain ⟨c, consumed⟩ := r
        simp only [ok_map, Option.map_some, Nat.add_assoc]
        exact same_refl _)) s.length 0
  rw [← h.length] at hscan
  exact hscan

theorem parseEvpnRoutes_shift : Same (parseEvpnRoutes d o) (parseEvpnRoutes s 0) := by
  have hscan : Same (scan PyErr.diverges _ (o + s.length) (o + 0))
      (scan PyErr.diverges _ s.length 0) :=
    scan_shift (evpnRound_advances d) (evpnRound_advances s)
      (fun k => same_map_bind (parseEvpnNlri_shift h k) (fun r _ => by
        rw [ok_map]
        by_cases hr : r.2 = 0
        · simp only [hr, ↓reduceIte, Option.map_none]
          exact same_refl _
        · simp only [hr, ↓reduceIte, Option.map_some, Nat.add_assoc]
          exact same_refl _)) s.length 0
  rw [← h.length] at hscan
  exact hscan

/-- The NLRI at the end of an attribute are decoded from their own bytes. -/
theorem parseNlri_shift (afi safi : Nat) :
    Same (parseNlri afi safi d o) (parseNlri afi safi s 0) := by
  rw [parseNlri, parseNlri]
  refine same_ite Iff.rfl (fun _ => ?_) (fun _ => same_ite Iff.rfl (fun _ => ?_) (fun _ =>
    same_ite Iff.rfl (fun _ => parseEvpnRoutes_shift h) (fun _ => same_refl _)))
  · exact parsePrefixes_shift h (parseIpv4Prefix_shift h)
      (fun _ _ _ _ hp => parseIpv4Prefix_consumes hp)
  · exact parsePrefixes_shift h (parseIpv6Prefix_shift h)
      (fun _ _ _ _ hp => parseIpv6Prefix_consumes hp)

end Readers

end Pybmpmon.Protocol.Relocation
