import Pybmpmon.Protocol.DecoderErrors

/-!
# BGP UPDATE messages on the wire

An UPDATE is written from its three parts: the Withdrawn Routes bytes, the path
attributes and the NLRI bytes. The structure parser reads those parts back,
whatever the attributes carry.
-/
namespace Pybmpmon.Protocol.UpdateEncoding

open Pybmpmon.Lib.ByteString Pybmpmon.Lib.Outcome Pybmpmon.Lib.Scan Pybmpmon.Python
open Pybmpmon.Utils.Binary Pybmpmon.Protocol.Bgp Pybmpmon.Protocol.BgpParser

/-- A path attribute with the flags and the type octet as they are sent. -/
structure WireAttribute where
  flags : UInt8
  typeByte : UInt8
  value : Bytes
  deriving DecidableEq, Repr

namespace WireAttribute

/-- The length field: two octets under the extended-length flag, else one. -/
def lengthField (a : WireAttribute) : Bytes :=
  if isExtendedLength a.flags.toNat then beBytes 2 a.value.length
  else [UInt8.ofNat a.value.length]

def encode (a : WireAttribute) : Bytes :=
  a.flags :: a.typeByte :: (a.lengthField ++ a.value)

/-- The length of the value fits the length field. -/
def Fits (a : WireAttribute) : Prop :=
  a.value.length < if isExtendedLength a.flags.toNat then 2 ^ 16 else 256

instance (a : WireAttribute) : Decidable a.Fits := inferInstanceAs (Decidable (_ < _))

/-- The record the structure parser returns for the attribute. -/
def parsed (a : WireAttribute) : BGPPathAttribute :=
  ⟨a.flags.toNat, TypeCode.ofRaw a.typeByte.toNat, a.value.length, a.value⟩

end WireAttribute

theorem attributeLength_at {d s : Bytes} {stop offset : Nat} {a : WireAttribute} (hfits : a.Fits)
    (hat : At d (offset + 2) (a.lengthField ++ s))
    (hstop : offset + 2 + a.lengthField.length ≤ stop) :
    attributeLength d stop offset a.flags.toNat =
      .ok (a.value.length, offset + 2 + a.lengthField.length) := by
  rw [WireAttribute.Fits] at hfits
  rw [WireAttribute.lengthField] at hat hstop ⊢
  rw [attributeLength]
  by_cases hext : isExtendedLength a.flags.toNat
  · simp only [hext, ↓reduceIte, beBytes_length] at hat hstop hfits ⊢
    rw [if_neg (by omega), readUint16_beBytes hat hfits, ok_bind]
  · simp only [hext, Bool.false_eq_true, ↓reduceIte] at hat hfits ⊢
    rw [readUint8_octet hat hfits, ok_bind]
    rfl

theorem pathAttribute_at {d s : Bytes} {stop offset : Nat} {a : WireAttribute} (hfits : a.Fits)
    (hat : At d offset (a.encode ++ s)) (hstop : offset + a.encode.length ≤ stop) :
    pathAttribute d stop offset = .ok ([a.parsed], some (offset + a.encode.length)) := by
  have hlen : a.encode.length = 2 + (a.lengthField.length + a.value.length) := by
    simp [WireAttribute.encode]
    omega
  have hfield : 1 ≤ a.lengthField.length := by
    rw [WireAttribute.lengthField]
    split <;> simp
  simp only [WireAttribute.encode, List.cons_append, List.append_assoc] at hat
  have htype := hat.tail
  have hlength := htype.tail
  have hvalue := hlength.advance
  rw [pathAttribute, if_neg (by omega), readUint8_at hat, ok_bind, readUint8_at htype, ok_bind]
  simp only
  rw [attributeLength_at hfits hlength (by omega), ok_bind]
  simp only
  rw [if_neg (by omega), readBytes_at hvalue rfl, ok_bind, WireAttribute.parsed, hlen]
  congr 3
  omega

def encodeAttributes (attrs : List WireAttribute) : Bytes := attrs.flatMap WireAttribute.encode

theorem parsePathAttributes_at {d rest : Bytes} {attrs : List WireAttribute} {start : Nat}
    (hfits : ∀ a ∈ attrs, a.Fits) (hat : At d start (encodeAttributes attrs ++ rest)) :
    parsePathAttributes d start (start + (encodeAttributes attrs).length) =
      .ok (attrs.map WireAttribute.parsed) := by
  have hrounds : parsePathAttributes d start (start + (encodeAttributes attrs).length) =
      .ok (attrs.flatMap fun a => [a.parsed]) :=
    scan_encoded (DecoderErrors.pathAttribute_advances d _) attrs start rest hat rfl
      (fun a _ => by simp [WireAttribute.encode])
      (fun a ha o s hs hle => pathAttribute_at (hfits a ha) hs hle)
  rw [hrounds, List.map_eq_flatMap]

/-- An UPDATE message: marker, length, type, Withdrawn Routes, path attributes and NLRI. -/
def encodeUpdate (withdrawn : Bytes) (attrs : List WireAttribute) (nlri : Bytes) : Bytes :=
  BGP_MARKER ++ (beBytes 2 (23 + withdrawn.length + (encodeAttributes attrs).length + nlri.length) ++
    (2 :: (beBytes 2 withdrawn.length ++ (withdrawn ++
      (beBytes 2 (encodeAttributes attrs).length ++ (encodeAttributes attrs ++ nlri))))))

/-- An UPDATE that can be sent: its attributes fit and its size fits the length field. -/
structure UpdateFits (withdrawn : Bytes) (attrs : List WireAttribute) (nlri : Bytes) : Prop where
  attributes : ∀ a ∈ attrs, a.Fits
  size : 23 + withdrawn.length + (encodeAttributes attrs).length + nlri.length < 2 ^ 16

theorem encodeUpdate_length (withdrawn : Bytes) (attrs : List WireAttribute) (nlri : Bytes) :
    (encodeUpdate withdrawn attrs nlri).length =
      23 + withdrawn.length + (encodeAttributes attrs).length + nlri.length := by
  simp [encodeUpdate, BGP_MARKER]
  omega

/-- The header of a written UPDATE, whatever follows the message. -/
theorem parseBgpHeader_at {d rest withdrawn nlri : Bytes} {attrs : List WireAttribute}
    (hfits : UpdateFits withdrawn attrs nlri)
    (hat : At d 0 (encodeUpdate withdrawn attrs nlri ++ rest)) :
    parseBgpHeader d =
      .ok ⟨BGP_MARKER, (encodeUpdate withdrawn attrs nlri).length, .update⟩ := by
  have hl := encodeUpdate_length withdrawn attrs nlri
  have hmarker : BGP_MARKER.length = 16 := rfl
  have hsize := hat.length
  rw [List.length_append] at hsize
  simp only [encodeUpdate, List.append_assoc, List.cons_append] at hat
  have hlength := At.advance_of (a := BGP_MARKER) hat hmarker
  have htype := hlength.advance_of (beBytes_length 2 _)
  rw [parseBgpHeader, if_neg (by rw [BGP_HEADER_SIZE]; omega), show (16 : Int) = (16 : Nat) from rfl,
    readBytes_at (a := BGP_MARKER) hat hmarker, ok_bind, if_neg (not_not_intro rfl),
    readUint16_beBytes hlength hfits.size, ok_bind, readUint8_at htype, ok_bind, hl]
  rfl

/-- The structure parser returns the parts a message was written from, and does not look past it. -/
theorem parseBgpUpdateStructure_at {d rest withdrawn nlri : Bytes} {attrs : List WireAttribute}
    (hfits : UpdateFits withdrawn attrs nlri)
    (hat : At d 0 (encodeUpdate withdrawn attrs nlri ++ rest)) :
    parseBgpUpdateStructure d =
      .ok ⟨withdrawn.length, withdrawn, (encodeAttributes attrs).length,
        attrs.map WireAttribute.parsed, nlri⟩ := by
  have hheader := parseBgpHeader_at hfits hat
  have hl := encodeUpdate_length withdrawn attrs nlri
  have hsize := hfits.size
  have hbuffer := hat.length
  have hmarker : BGP_MARKER.length = 16 := rfl
  rw [List.length_append] at hbuffer
  simp only [encodeUpdate, List.append_assoc, List.cons_append] at hat
  have hlength := At.advance_of (a := BGP_MARKER) hat hmarker
  have hwlen : At d BGP_HEADER_SIZE _ := (hlength.advance_of (beBytes_length 2 _)).tail
  have hwithdrawn := hwlen.advance_of (beBytes_length 2 _)
  have hplen := hwithdrawn.advance
  have hattrs := hplen.advance_of (beBytes_length 2 _)
  have hnlri := hattrs.advance
  have hrest : ((encodeUpdate withdrawn attrs nlri).length : Int) -
      (BGP_HEADER_SIZE + 2 + withdrawn.length + 2 + (encodeAttributes attrs).length : Nat) =
        (nlri.length : Nat) := by
    rw [BGP_HEADER_SIZE]
    omega
  rw [parseBgpUpdateStructure, hheader, ok_bind, if_neg (not_not_intro rfl)]
  have h19 : BGP_HEADER_SIZE = 19 := rfl
  simp only
  rw [if_neg (by omega), if_neg (by omega), readUint16_beBytes hwlen (by omega), ok_bind,
    if_neg (by omega), readBytes_at hwithdrawn rfl, ok_bind, if_neg (by omega),
    readUint16_beBytes hplen (by omega), ok_bind, if_neg (by omega),
    parsePathAttributes_at hfits.attributes hattrs, ok_bind, hrest, readBytes_at hnlri rfl, ok_bind]

theorem parseBgpUpdateStructure_encode {withdrawn nlri : Bytes} {attrs : List WireAttribute}
    (hfits : UpdateFits withdrawn attrs nlri) :
    parseBgpUpdateStructure (encodeUpdate withdrawn attrs nlri) =
      .ok ⟨withdrawn.length, withdrawn, (encodeAttributes attrs).length,
        attrs.map WireAttribute.parsed, nlri⟩ := by
  refine parseBgpUpdateStructure_at hfits (?_ : At _ 0 (_ ++ []))
  rw [List.append_nil]
  exact at_zero _

end Pybmpmon.Protocol.UpdateEncoding
