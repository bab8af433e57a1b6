import Mathlib.Data.List.Basic
import Pybmpmon.Lib.Text
import Pybmpmon.Protocol.NlriEncoding

/-!
# The texts of EVPN fields

The decoder keeps Ethernet segments, MAC addresses and route distinguishers as texts. Of
octets in hexadecimal the text tells everything. Of a distinguisher it tells the numbers
and not the format: the two formats with an AS number are written alike.
-/
namespace Pybmpmon.Protocol.RouteText

open Pybmpmon.Lib.ByteString Pybmpmon.Lib.Outcome Pybmpmon.Lib.Text Pybmpmon.Python
open Pybmpmon.Utils.Binary Pybmpmon.Protocol.BgpParser Pybmpmon.Protocol.NlriEncoding

/-! ## Octets in hexadecimal -/

def hexChars (b : UInt8) : List Char :=
  [Nat.digitChar (b.toNat / 16), Nat.digitChar (b.toNat % 16)]

theorem hexChars_inj (a b : UInt8) (h : hexChars a = hexChars b) : a = b := by
  have ha := a.toNat_lt
  have hb := b.toNat_lt
  rw [hexChars, hexChars, List.cons.injEq, List.cons.injEq] at h
  have hhigh := digitChar_inj (by omega) (by omega) h.1
  have hlow := digitChar_inj (by omega) (by omega) h.2.1
  apply UInt8.toNat_inj.mp
  omega

theorem colon_not_mem_hexChars (b : UInt8) : ':' ∉ hexChars b := by
  have hb := b.toNat_lt
  intro h
  rw [hexChars, List.mem_cons, List.mem_singleton] at h
  rcases h with h | h
  · exact digitChar_ne_colon (by omega) h
  · exact digitChar_ne_colon (by omega) h

theorem hex2_toList (b : UInt8) : (hex2 b).toList = hexChars b := String.toList_ofList

theorem hex_toList (data : Bytes) : (hex data).toList = data.flatMap hexChars := by
  rw [hex, String.toList_join, List.flatMap_map]
  simp only [hex2_toList]

theorem colonHex_toList (data : Bytes) :
    (colonHex data).toList = [':'].intercalate (data.map hexChars) := by
  rw [colonHex, String.toList_intercalate, List.map_map]
  simp only [Function.comp_def, hex2_toList]
  rfl

theorem colonHex_inj {a b : Bytes} (ha : a ≠ []) (hb : b ≠ []) (h : colonHex a = colonHex b) :
    a = b := by
  have hnocolon : ∀ data : Bytes, ∀ f ∈ data.map hexChars, ':' ∉ f := by
    intro data f hf
    obtain ⟨b, _, rfl⟩ := List.mem_map.mp hf
    exact colon_not_mem_hexChars b
  have htexts := congrArg String.toList h
  rw [colonHex_toList, colonHex_toList] at htexts
  have hfields := intercalate_inj (by simpa using ha) (by simpa using hb) (hnocolon a) (hnocolon b)
    htexts
  exact List.map_injective_iff.mpr (fun x y => hexChars_inj x y) hfields

theorem colonHex_ne_empty {data : Bytes} (h : data ≠ []) : colonHex data ≠ "" := by
  intro hempty
  have htext := congrArg String.toList hempty
  rw [colonHex_toList] at htext
  cases data with
  | nil => exact h rfl
  | cons b data =>
    cases data with
    | nil => cases htext
    | cons c data => cases htext

/-! ## Route distinguishers -/

/-- Eight octets: one of the three formats, or a type without a format of its own. -/
inductive RdOctets where
  | known (rd : RouteDistinguisher) (fits : rd.Fits)
  | unknown (rdType : Nat) (value : Bytes) (size : value.length = 6) (other : 2 < rdType)
      (fits : rdType < 2 ^ 16)

namespace RdOctets

def octets : RdOctets → Bytes
  | known rd _ => rd.encode
  | unknown rdType value _ _ _ => beBytes 2 rdType ++ value

def text : RdOctets → String
  | known rd _ => rd.text
  | unknown rdType value _ _ _ => hex (beBytes 2 rdType ++ value)

theorem octets_length (rd : RdOctets) : rd.octets.length = 8 := by
  cases rd with
  | known rd fits => exact rd.encode_length
  | unknown rdType value size other fits => simp [octets, size]

end RdOctets

theorem parseRouteDistinguisher_octets {d s : Bytes} {offset : Nat} (rd : RdOctets)
    (hat : At d offset (rd.octets ++ s)) : parseRouteDistinguisher d offset = .ok rd.text := by
  cases rd with
  | known rd fits => exact parseRouteDistinguisher_at fits hat
  | unknown rdType value size other fits =>
    have hl := hat.length
    rw [List.length_append, RdOctets.octets_length] at hl
    have hall : (beBytes 2 rdType ++ value).length = 8 := by simp [size]
    have htype := hat
    simp only [RdOctets.octets, List.append_assoc] at htype
    rw [parseRouteDistinguisher, if_neg (by omega), readUint16_beBytes htype fits, ok_bind,
      if_neg (by omega), if_neg (by omega), if_neg (by omega), show (8 : Int) = (8 : Nat) from rfl,
      readBytes_at hat hall, ok_bind]
    rfl

/-! ## Texts of addresses -/

/-- The numerals of an IPv4 address. -/
def addressFields (a : IPv4Address) : List (List Char) :=
  a.packed.map fun b => Nat.toDigits 10 b.toNat

theorem address_toList (a : IPv4Address) : a.str.toList = ['.'].intercalate (addressFields a) := by
  rw [IPv4Address.str, String.toList_intercalate, List.map_map, addressFields]
  simp only [Function.comp_def, toString_toList]
  rfl

theorem not_mem_addressFields {c : Char} (hc : c.isDigit = false) (a : IPv4Address) :
    ∀ f ∈ addressFields a, c ∉ f := by
  intro f hf
  obtain ⟨b, _, rfl⟩ := List.mem_map.mp hf
  exact not_mem_toDigits hc _

theorem addressFields_ne_nil (a : IPv4Address) : addressFields a ≠ [] := by
  intro h
  have hl := congrArg List.length h
  rw [addressFields, List.length_map, a.size] at hl
  cases hl

theorem address_inj {a b : IPv4Address} (h : a.str.toList = b.str.toList) : a = b := by
  rw [address_toList, address_toList] at h
  have hfields := intercalate_inj (addressFields_ne_nil a) (addressFields_ne_nil b)
    (not_mem_addressFields (by decide) a) (not_mem_addressFields (by decide) b) h
  have hpacked : a.packed = b.packed :=
    List.map_injective_iff.mpr (fun x y hxy => UInt8.toNat_inj.mp (toDigits_inj hxy)) hfields
  cases a
  cases b
  cases hpacked
  rfl

/-- An address has dots, a numeral has none. -/
theorem address_ne_numeral (a : IPv4Address) (n : Nat) : a.str.toList ≠ Nat.toDigits 10 n := by
  intro h
  rw [address_toList, ← @List.intercalate_singleton _ ['.'] (Nat.toDigits 10 n)] at h
  have hfields := intercalate_inj (addressFields_ne_nil a) (List.cons_ne_nil _ _)
    (not_mem_addressFields (by decide) a) (by simpa using not_mem_toDigits (by decide) n) h
  have hl := congrArg List.length hfields
  rw [addressFields, List.length_map, a.size] at hl
  cases hl

theorem colon_not_mem_address (a : IPv4Address) : ':' ∉ a.str.toList := by
  intro h
  rw [address_toList] at h
  rcases mem_of_mem_intercalate h with h | ⟨f, hf, h⟩
  · cases h
  · exact not_mem_addressFields (by decide) a f hf h

/-! ## What the text of a distinguisher tells -/

namespace RdOctets

/-- The parts of the text between its colons. -/
def fields : RdOctets → List (List Char)
  | known (.twoOctetAs admin assigned) _ => [Nat.toDigits 10 admin, Nat.toDigits 10 assigned]
  | known (.ipv4 admin assigned) _ => [admin.str.toList, Nat.toDigits 10 assigned]
  | known (.fourOctetAs admin assigned) _ => [Nat.toDigits 10 admin, Nat.toDigits 10 assigned]
  | unknown rdType value _ _ _ => [(beBytes 2 rdType ++ value).flatMap hexChars]

theorem known_fields_length (rd : RouteDistinguisher) (fits : rd.Fits) :
    (known rd fits).fields.length = 2 := by
  cases rd <;> rfl

theorem fields_ne_nil (rd : RdOctets) : rd.fields ≠ [] := by
  cases rd with
  | known rd fits => cases rd <;> exact List.cons_ne_nil _ _
  | unknown => exact List.cons_ne_nil _ _

theorem colon_not_mem_fields (rd : RdOctets) : ∀ f ∈ rd.fields, ':' ∉ f := by
  have hnumeral : ∀ n, ':' ∉ Nat.toDigits 10 n := not_mem_toDigits (by decide)
  cases rd with
  | known rd fits =>
    cases rd with
    | twoOctetAs admin assigned => simp [fields, hnumeral]
    | ipv4 admin assigned => simp [fields, hnumeral, colon_not_mem_address]
    | fourOctetAs admin assigned => simp [fields, hnumeral]
  | unknown rdType value size other fits =>
    intro f hf hcolon
    rw [fields, List.mem_singleton] at hf
    subst hf
    obtain ⟨b, _, hb⟩ := List.mem_flatMap.mp hcolon
    exact colon_not_mem_hexChars b hb

theorem text_toList (rd : RdOctets) : rd.text.toList = [':'].intercalate rd.fields := by
  have hpair : ∀ x y : String,
      (x ++ ":" ++ y).toList = [':'].intercalate [x.toList, y.toList] := by
    intro x y
    rw [String.toList_append, String.toList_append, List.intercalate_cons_cons,
      List.intercalate_singleton]
    rfl
  cases rd with
  | known rd fits =>
    cases rd with
    | twoOctetAs admin assigned =>
      rw [fields, ← toString_toList, ← toString_toList, ← hpair]
      rfl
    | ipv4 admin assigned =>
      rw [fields, ← toString_toList, ← hpair]
      rfl
    | fourOctetAs admin assigned =>
      rw [fields, ← toString_toList, ← toString_toList, ← hpair]
      rfl
  | unknown rdType value size other fits =>
    rw [fields, List.intercalate_singleton, text, hex_toList]

/-- The two formats with an AS number, with the same numbers in them. -/
def SameNumbers : RdOctets → RdOctets → Prop
  | known (.twoOctetAs admin assigned) _, known (.fourOctetAs admin' assigned') _ =>
    admin = admin' ∧ assigned = assigned'
  | known (.fourOctetAs admin assigned) _, known (.twoOctetAs admin' assigned') _ =>
    admin = admin' ∧ assigned = assigned'
  | _, _ => False

theorem numerals_inj {a b m n : Nat}
    (h : [Nat.toDigits 10 a, Nat.toDigits 10 m] = [Nat.toDigits 10 b, Nat.toDigits 10 n]) :
    a = b ∧ m = n := by
  rw [List.cons.injEq, List.cons.injEq] at h
  exact ⟨toDigits_inj h.1, toDigits_inj h.2.1⟩

/-- The fields tell the octets, up to the width of the AS number. -/
theorem fields_inj {r s : RdOctets} (h : r.fields = s.fields) :
    r.octets = s.octets ∨ SameNumbers r s := by
  cases r with
  | unknown rdType value size other fits =>
    cases s with
    | unknown rdType' value' size' other' fits' =>
      rw [fields, fields, List.cons.injEq] at h
      have hlength : (beBytes 2 rdType ++ value).length = (beBytes 2 rdType' ++ value').length := by
        rw [List.length_append, List.length_append, size, size', beBytes_length, beBytes_length]
      exact Or.inl (@flatMap_inj _ _ hexChars 2 (fun _ => rfl) hexChars_inj _ _ hlength h.1)
    | known s fits' =>
      have hlength := congrArg List.length h
      rw [known_fields_length] at hlength
      cases hlength
  | known r fits =>
    cases s with
    | unknown =>
      have hlength := congrArg List.length h
      rw [known_fields_length] at hlength
      cases hlength
    | known s fits' =>
      cases r with
      | twoOctetAs admin assigned =>
        cases s with
        | twoOctetAs admin' assigned' =>
          obtain ⟨rfl, rfl⟩ := numerals_inj h
          exact Or.inl rfl
        | ipv4 admin' assigned' =>
          exact absurd (List.cons.inj h).1.symm (address_ne_numeral admin' admin)
        | fourOctetAs admin' assigned' => exact Or.inr (numerals_inj h)
      | ipv4 admin assigned =>
        cases s with
        | ipv4 admin' assigned' =>
          have haddress := address_inj (List.cons.inj h).1
          have hassigned := toDigits_inj (List.cons.inj (List.cons.inj h).2).1
          subst haddress hassigned
          exact Or.inl rfl
        | _ => exact absurd (List.cons.inj h).1 (address_ne_numeral admin _)
      | fourOctetAs admin assigned =>
        cases s with
        | twoOctetAs admin' assigned' => exact Or.inr (numerals_inj h)
        | ipv4 admin' assigned' =>
          exact absurd (List.cons.inj h).1.symm (address_ne_numeral admin' admin)
        | fourOctetAs admin' assigned' =>
          obtain ⟨rfl, rfl⟩ := numerals_inj h
          exact Or.inl rfl

/-- The decoder gives one text for the same octets. -/
theorem text_of_octets {r s : RdOctets} (h : r.octets = s.octets) : r.text = s.text := by
  have hr := parseRouteDistinguisher_octets r (at_zero (r.octets ++ []))
  have hs := parseRouteDistinguisher_octets s (at_zero (s.octets ++ []))
  rw [h, hs] at hr
  exact (Except.ok.inj hr).symm

theorem text_of_sameNumbers {r s : RdOctets} (h : SameNumbers r s) : r.text = s.text := by
  cases r with
  | unknown => cases h
  | known r fits =>
    cases s with
    | unknown => cases r <;> cases h
    | known s fits' =>
      cases r with
      | ipv4 => cases h
      | twoOctetAs admin assigned =>
        cases s with
        | fourOctetAs admin' assigned' =>
          obtain ⟨rfl, rfl⟩ := h
          rfl
        | _ => cases h
      | fourOctetAs admin assigned =>
        cases s with
        | twoOctetAs admin' assigned' =>
          obtain ⟨rfl, rfl⟩ := h
          rfl
        | _ => cases h

/-- Distinguishers with one text have the same octets, or are of the two formats with an AS
number and the same numbers. -/
theorem text_eq_iff (r s : RdOctets) :
    r.text = s.text ↔ r.octets = s.octets ∨ SameNumbers r s := by
  constructor
  · intro h
    have htexts := congrArg String.toList h
    rw [text_toList, text_toList] at htexts
    exact fields_inj (intercalate_inj r.fields_ne_nil s.fields_ne_nil r.colon_not_mem_fields
      s.colon_not_mem_fields htexts)
  · rintro (h | h)
    · exact text_of_octets h
    · exact text_of_sameNumbers h

end RdOctets

end Pybmpmon.Protocol.RouteText
