import Pybmpmon.Lib.Text
import Pybmpmon.Protocol.CommunityGroups

/-!
# The formats of extended communities

Route Targets and Route Origins in the three formats of RFC 4360 and RFC 5668, and the MAC
Mobility community of RFC 7432, as a sender writes them. The parser tells a Route Target from
the sub-type; for a Route Origin it looks for types of its own. It reads the sequence number
one octet early.
-/
namespace Pybmpmon.Protocol.CommunityFormats

open Pybmpmon.Lib.ByteString Pybmpmon.Lib.Outcome Pybmpmon.Lib.Text Pybmpmon.Python
open Pybmpmon.Utils.Binary Pybmpmon.Protocol.BgpParser Pybmpmon.Protocol.CommunityGroups

/-- What the sub-type octet says. -/
inductive Role where
  | routeTarget
  | routeOrigin
  deriving DecidableEq, Repr

namespace Role

def subType : Role → UInt8
  | routeTarget => 0x02
  | routeOrigin => 0x03

def label : Role → String
  | routeTarget => "RT"
  | routeOrigin => "RO"

end Role

inductive SentCommunity where
  | twoOctetAs (role : Role) (admin : UInt16) (value : UInt32)
  | ipv4Address (role : Role) (admin : IPv4Address) (value : UInt16)
  | fourOctetAs (role : Role) (admin : UInt32) (value : UInt16)
  | macMobility (flags reserved : UInt8) (sequence : UInt32)
  deriving DecidableEq, Repr

namespace SentCommunity

def encode : SentCommunity → Bytes
  | twoOctetAs role admin value =>
      0x00 :: role.subType :: (beBytes 2 admin.toNat ++ beBytes 4 value.toNat)
  | ipv4Address role admin value => 0x01 :: role.subType :: (admin.packed ++ beBytes 2 value.toNat)
  | fourOctetAs role admin value =>
      0x02 :: role.subType :: (beBytes 4 admin.toNat ++ beBytes 2 value.toNat)
  | macMobility flags reserved sequence => 0x06 :: 0x00 :: flags :: reserved :: beBytes 4 sequence.toNat

def text : SentCommunity → String
  | twoOctetAs role admin value => s!"{role.label}:{admin.toNat}:{value.toNat}"
  | ipv4Address role admin value => s!"{role.label}:{admin.str}:{value.toNat}"
  | fourOctetAs role admin value => s!"{role.label}:{admin.toNat}:{value.toNat}"
  | macMobility _ _ sequence => s!"EVPN-MAC-Mobility:{sequence.toNat}"

/-- A Route Target, or a MAC Mobility community whose reserved octet and sequence number are one
octet five times. -/
def Readable : SentCommunity → Prop
  | twoOctetAs role _ _ | ipv4Address role _ _ | fourOctetAs role _ _ => role = .routeTarget
  | macMobility _ reserved sequence => sequence.toNat = reserved.toNat * 0x01010101

theorem encode_length (c : SentCommunity) : c.encode.length = 8 := by
  cases c with
  | ipv4Address role admin value => simp [encode, admin.size]
  | _ => simp [encode]

end SentCommunity

/-! ## What the parser reads -/

theorem extendedCommunity_whole {g : Bytes} (hg : g.length = 8) :
    extendedCommunity g 0 = .ok (groupText g) := by
  have hat : At g 0 (g ++ []) := by
    rw [List.append_nil]
    exact at_zero g
  exact extendedCommunity_group hat hg

theorem twoOctetAs_text (label : String) {d s : Bytes} {t u : UInt8} (admin : UInt16) (value : UInt32)
    (hat : At d 0 (t :: u :: (beBytes 2 admin.toNat ++ (beBytes 4 value.toNat ++ s)))) :
    twoOctetAsCommunity label d 0 = .ok s!"{label}:{admin.toNat}:{value.toNat}" := by
  have hadmin := hat.tail.tail
  rw [twoOctetAsCommunity, readUint16_beBytes hadmin admin.toNat_lt, ok_bind,
    readUint32_beBytes (hadmin.advance_of (beBytes_length 2 _)) value.toNat_lt, ok_bind]

theorem ipv4Address_text (label : String) {d s : Bytes} {t u : UInt8} (admin : IPv4Address)
    (value : UInt16) (hat : At d 0 (t :: u :: (admin.packed ++ (beBytes 2 value.toNat ++ s)))) :
    ipv4Community label d 0 = .ok s!"{label}:{admin.str}:{value.toNat}" := by
  have hadmin := hat.tail.tail
  rw [ipv4Community, show (4 : Int) = (4 : Nat) from rfl, readBytes_at hadmin admin.size, ok_bind,
    Python.ipv4Address_ok admin.size, ok_bind,
    readUint16_beBytes (hadmin.advance_of admin.size) value.toNat_lt, ok_bind]

theorem fourOctetAs_text (label : String) {d s : Bytes} {t u : UInt8} (admin : UInt32)
    (value : UInt16)
    (hat : At d 0 (t :: u :: (beBytes 4 admin.toNat ++ (beBytes 2 value.toNat ++ s)))) :
    fourOctetAsCommunity label d 0 = .ok s!"{label}:{admin.toNat}:{value.toNat}" := by
  have hadmin := hat.tail.tail
  rw [fourOctetAsCommunity, readUint32_beBytes hadmin admin.toNat_lt, ok_bind,
    readUint16_beBytes (hadmin.advance_of (beBytes_length 4 _)) value.toNat_lt, ok_bind]

/-- The sub-type of a Route Origin is in none of the branches for types 0, 1 and 2. -/
theorem routeOrigin_text {d s : Bytes} {t : UInt8} (ht : t.toNat ≤ 2) (hat : At d 0 (t :: 0x03 :: s))
    (hd : d.length = 8) : extendedCommunity d 0 = .ok s!"Unknown-{hex2 t}:{hex d}" := by
  have hread : readBytes d 0 8 = .ok d := readBytes_rest (at_zero d) hd
  have hsub : (0x03 : UInt8).toNat = 3 := rfl
  rw [extendedCommunity, readUint8_at hat, ok_bind, readUint8_at hat.tail, ok_bind, hsub,
    if_neg (by omega), if_neg (by omega), if_neg (by omega), if_neg (by omega), if_neg (by omega),
    if_neg (by omega), if_neg (by omega), if_neg (by omega), if_neg (by omega), if_neg (by omega),
    hread, ok_bind, UInt8.ofNat_toNat]

/-- The sequence number is what stands behind the flags octet. -/
theorem macMobility_text {d field s : Bytes} {flags : UInt8}
    (hat : At d 0 (0x06 :: 0x00 :: flags :: (field ++ s))) (hfield : field.length = 4) :
    extendedCommunity d 0 = .ok s!"EVPN-MAC-Mobility:{beNat field}" := by
  have htype : (0x06 : UInt8).toNat = 6 := rfl
  have hsub : (0x00 : UInt8).toNat = 0 := rfl
  rw [extendedCommunity, readUint8_at hat, ok_bind, readUint8_at hat.tail, ok_bind, htype, hsub,
    if_neg (by decide), if_neg (by decide), if_neg (by decide), if_neg (by decide),
    if_neg (by decide), if_neg (by decide), if_neg (by decide), if_neg (by decide), if_pos rfl,
    if_pos rfl, readUint8_at hat.tail.tail, ok_bind, readUint32_at hat.tail.tail.tail hfield, ok_bind]

/-! ## Each community on its own -/

/-- A Route Target is in the branch of its type, in each format. -/
theorem routeTarget_text :
    (∀ admin value, extendedCommunity (SentCommunity.twoOctetAs .routeTarget admin value).encode 0 =
      .ok (SentCommunity.twoOctetAs .routeTarget admin value).text) ∧
    (∀ admin value, extendedCommunity (SentCommunity.ipv4Address .routeTarget admin value).encode 0 =
      .ok (SentCommunity.ipv4Address .routeTarget admin value).text) ∧
    (∀ admin value, extendedCommunity (SentCommunity.fourOctetAs .routeTarget admin value).encode 0 =
      .ok (SentCommunity.fourOctetAs .routeTarget admin value).text) := by
  have hsub : (0x02 : UInt8).toNat = 2 := rfl
  refine ⟨fun admin value => ?_, fun admin value => ?_, fun admin value => ?_⟩
  · have htype : (0x00 : UInt8).toNat = 0 := rfl
    have hat : At (SentCommunity.twoOctetAs .routeTarget admin value).encode 0
        (0x00 :: 0x02 :: (beBytes 2 admin.toNat ++ (beBytes 4 value.toNat ++ []))) := by
      rw [List.append_nil]
      exact at_zero _
    rw [extendedCommunity, readUint8_at hat, ok_bind, readUint8_at hat.tail, ok_bind, htype, hsub,
      if_neg (by decide), if_pos (by decide), twoOctetAs_text "RT" admin value hat]
    rfl
  · have htype : (0x01 : UInt8).toNat = 1 := rfl
    have hat : At (SentCommunity.ipv4Address .routeTarget admin value).encode 0
        (0x01 :: 0x02 :: (admin.packed ++ (beBytes 2 value.toNat ++ []))) := by
      rw [List.append_nil]
      exact at_zero _
    rw [extendedCommunity, readUint8_at hat, ok_bind, readUint8_at hat.tail, ok_bind, htype, hsub,
      if_neg (by decide), if_neg (by decide), if_neg (by decide), if_pos (by decide),
      ipv4Address_text "RT" admin value hat]
    rfl
  · have htype : (0x02 : UInt8).toNat = 2 := hsub
    have hat : At (SentCommunity.fourOctetAs .routeTarget admin value).encode 0
        (0x02 :: 0x02 :: (beBytes 4 admin.toNat ++ (beBytes 2 value.toNat ++ []))) := by
      rw [List.append_nil]
      exact at_zero _
    rw [extendedCommunity, readUint8_at hat, ok_bind, readUint8_at hat.tail, ok_bind, htype,
      if_neg (by decide), if_neg (by decide), if_neg (by decide), if_neg (by decide),
      if_neg (by decide), if_pos (by decide), fourOctetAs_text "RT" admin value hat]
    rfl

/-- The two texts start differently. -/
theorem unknown_ne_routeOrigin (a b admin value : String) :
    "Unknown-" ++ a ++ ":" ++ b ≠ "RO" ++ ":" ++ admin ++ ":" ++ value := by
  intro h
  have hchars := congrArg String.toList h
  simp only [String.toList_append, List.append_assoc] at hchars
  cases hchars

/-- A Route Origin is read as an unknown community, in each format. -/
theorem routeOrigin_not_text {c : SentCommunity} {t : UInt8} {s : Bytes} {admin value : String}
    (ht : t.toNat ≤ 2) (hc : c.encode = t :: 0x03 :: s)
    (htext : c.text = "RO" ++ ":" ++ admin ++ ":" ++ value) :
    extendedCommunity c.encode 0 ≠ .ok c.text := by
  intro h
  have hat : At c.encode 0 (t :: 0x03 :: s) := hc ▸ at_zero c.encode
  rw [routeOrigin_text ht hat c.encode_length, htext] at h
  exact unknown_ne_routeOrigin _ _ _ _ (Except.ok.inj h)

theorem mobility_text_inj {m n : Nat} (h : s!"EVPN-MAC-Mobility:{m}" = s!"EVPN-MAC-Mobility:{n}") :
    m = n := by
  have hchars := congrArg String.toList h
  rw [String.toList_append, String.toList_append] at hchars
  have hdigits := List.append_cancel_left hchars
  rw [toString_toList, toString_toList] at hdigits
  exact toDigits_inj hdigits

theorem sequence_eq_iff (reserved : UInt8) (sequence : UInt32) :
    beNat (reserved :: beBytes 3 (sequence.toNat / 256)) = sequence.toNat ↔
      sequence.toNat = reserved.toNat * 0x01010101 := by
  have hreserved := reserved.toNat_lt
  have hsequence := sequence.toNat_lt
  have hread : beNat (reserved :: beBytes 3 (sequence.toNat / 256)) =
      reserved.toNat * 256 ^ 3 + sequence.toNat / 256 := by
    have happ := beNat_append [reserved] (beBytes 3 (sequence.toNat / 256))
    rw [beBytes_length, beNat_beBytes (by omega), beNat_singleton] at happ
    exact happ
  rw [hread]
  omega

/-- One community is read as it was sent exactly when it is readable. -/
theorem readable_iff (c : SentCommunity) :
    extendedCommunity c.encode 0 = .ok c.text ↔ c.Readable := by
  cases c with
  | twoOctetAs role admin value =>
    cases role with
    | routeTarget => exact iff_of_true (routeTarget_text.1 admin value) rfl
    | routeOrigin =>
      have htype : (0x00 : UInt8).toNat ≤ 2 := by decide
      exact iff_of_false (routeOrigin_not_text htype rfl rfl) nofun
  | ipv4Address role admin value =>
    cases role with
    | routeTarget => exact iff_of_true (routeTarget_text.2.1 admin value) rfl
    | routeOrigin =>
      have htype : (0x01 : UInt8).toNat ≤ 2 := by decide
      exact iff_of_false (routeOrigin_not_text htype rfl rfl) nofun
  | fourOctetAs role admin value =>
    cases role with
    | routeTarget => exact iff_of_true (routeTarget_text.2.2 admin value) rfl
    | routeOrigin =>
      have htype : (0x02 : UInt8).toNat ≤ 2 := by decide
      exact iff_of_false (routeOrigin_not_text htype rfl rfl) nofun
  | macMobility flags reserved sequence =>
    have hat : At (SentCommunity.macMobility flags reserved sequence).encode 0
        (0x06 :: 0x00 :: flags :: ((reserved :: beBytes 3 (sequence.toNat / 256)) ++
          [UInt8.ofNat (sequence.toNat % 256)])) := at_zero _
    rw [macMobility_text hat (by simp), SentCommunity.Readable, ← sequence_eq_iff]
    exact ⟨fun h => mobility_text_inj (Except.ok.inj h), fun h => by rw [h]; rfl⟩

/-- A list of communities is read as it was sent exactly when each of them is readable. -/
theorem parseExtendedCommunities_sent_iff (communities : List SentCommunity) :
    parseExtendedCommunities (communities.flatMap SentCommunity.encode) =
      .ok (communities.map SentCommunity.text) ↔ ∀ c ∈ communities, c.Readable := by
  have hsize : ∀ g ∈ communities.map SentCommunity.encode, g.length = 8 := by
    intro g hg
    obtain ⟨c, -, rfl⟩ := List.mem_map.mp hg
    exact c.encode_length
  have hparse := parseExtendedCommunities_flatten hsize
  rw [← List.flatMap_def, List.map_map] at hparse
  rw [hparse, Except.ok.injEq, List.map_inj_left]
  refine forall_congr' fun c => forall_congr' fun _ => ?_
  rw [← readable_iff c, extendedCommunity_whole c.encode_length, Except.ok.injEq]
  rfl

/-- The Route Origin 65000:100 with a two-octet AS number is not recognised. -/
theorem routeOrigin_not_read :
    ¬ ∀ communities : List SentCommunity,
      parseExtendedCommunities (communities.flatMap SentCommunity.encode) =
        .ok (communities.map SentCommunity.text) := by
  intro h
  have hsame := h [.twoOctetAs .routeOrigin 65000 100]
  revert hsame
  decide

end Pybmpmon.Protocol.CommunityFormats
