import Pybmpmon.Protocol.AttributeEncoding
import Pybmpmon.Protocol.Relocation

/-!
# The same NLRI announced and withdrawn

MP_REACH_NLRI and MP_UNREACH_NLRI put the same NLRI at different offsets of
different buffers. What the two decoders make of it is the same.
-/
namespace Pybmpmon.Protocol.NlriAgreement

open Pybmpmon.Lib.ByteString Pybmpmon.Lib.Outcome Pybmpmon.Python
open Pybmpmon.Protocol.Bgp Pybmpmon.Protocol.BgpParser Pybmpmon.Protocol.DecoderErrors
open Pybmpmon.Protocol.AttributeEncoding Pybmpmon.Protocol.Relocation

/-- The two ways a pair of decoders can end alike: the routes of both, or an error of the
parser's own from both. -/
inductive Agree (afi safi : Nat) (reach : Except PyErr MpReach) (unreach : Except PyErr MpUnreach) :
    Prop where
  | decoded (nextHop : Option IpAddress) (prefixes : List PrefixEntry)
      (hreach : reach = .ok ⟨afi, safi, nextHop, prefixes⟩)
      (hunreach : unreach = .ok ⟨afi, safi, prefixes⟩)
  | rejected (msg msg' : String) (hreach : reach = .error (.bgpParseError msg))
      (hunreach : unreach = .error (.bgpParseError msg'))

/-- A decoder that fails with its own error only, and does not return, raises that error. -/
theorem rejected_of_same {α : Type} {x : Except PyErr α} {e : PyErr} (hx : Raises OwnError x)
    (hsame : Same x (.error e)) : ∃ msg, x = .error (.bgpParseError msg) := by
  rcases raises_cases hx with ⟨a, rfl⟩ | ⟨e', rfl, hown⟩
  · cases hsame
  · cases e' with
    | bgpParseError msg => exact ⟨msg, rfl⟩
    | _ => cases hown

/-- Announced or withdrawn, the same NLRI gives the same routes or is rejected by both. -/
theorem reach_unreach_agree (afi : UInt16) (safi : UInt8) (nextHop : Bytes)
    (hnext : nextHop.length ≤ 255) (reserved : UInt8) (nlri : Bytes) :
    Agree afi.toNat safi.toNat
      (parseMpReachNlri (mpReachValue afi.toNat safi.toNat nextHop reserved nlri))
      (parseMpUnreachNlri (mpUnreachValue afi.toNat safi.toNat nlri)) := by
  obtain ⟨hop, hhop⟩ := mpNextHop_returns afi.toNat nextHop
  have hreach := parseMpReachNlri_value reserved nlri afi.toNat_lt safi.toNat_lt
    (Nat.lt_succ_of_le hnext)
  have hunreach := parseMpUnreachNlri_value nlri afi.toNat_lt safi.toNat_lt
  have hshift := parseNlri_shift (mpReachValue_at afi.toNat safi.toNat nextHop reserved nlri)
    afi.toNat safi.toNat
  have hshift' := parseNlri_shift (mpUnreachValue_at afi.toNat safi.toNat nlri)
    afi.toNat safi.toNat
  rw [hhop, ok_bind] at hreach
  cases hnlri : parseNlri afi.toNat safi.toNat nlri 0 with
  | ok prefixes =>
    rw [hnlri, same_ok_iff] at hshift hshift'
    rw [hshift, ok_bind] at hreach
    rw [hshift', ok_bind] at hunreach
    exact .decoded hop prefixes hreach hunreach
  | error e =>
    rw [hnlri] at hshift hshift'
    obtain ⟨msg, hmsg⟩ := rejected_of_same (parseNlri_raises _ _ _ _) hshift
    obtain ⟨msg', hmsg'⟩ := rejected_of_same (parseNlri_raises _ _ _ _) hshift'
    rw [hmsg, error_bind] at hreach
    rw [hmsg', error_bind] at hunreach
    exact .rejected msg msg' hreach hunreach

/-- Two IPv4 prefixes behind a next hop of four octets. -/
theorem reach_unreach_agree_two :
    Agree 1 1 (parseMpReachNlri [0, 1, 1, 4, 192, 0, 2, 1, 0, 8, 10, 16, 172, 16])
      (parseMpUnreachNlri [0, 1, 1, 8, 10, 16, 172, 16]) :=
  reach_unreach_agree 1 1 [192, 0, 2, 1] (by decide) 0 [8, 10, 16, 172, 16]

end Pybmpmon.Protocol.NlriAgreement
