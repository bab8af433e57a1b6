import Pybmpmon.Protocol.DecoderErrors

/-!
# The AS number fields of an AS_PATH

An AS_PATH that is accepted is a row of segments, and its AS numbers are those of
the fields of its sequences and sets, of the width the decoder takes them for.
-/
namespace Pybmpmon.Protocol.AsPathFields

open Pybmpmon.Lib.ByteString Pybmpmon.Lib.Outcome Pybmpmon.Lib.Scan Pybmpmon.Python
open Pybmpmon.Utils.Binary Pybmpmon.Protocol.Bgp Pybmpmon.Protocol.BgpParser
open Pybmpmon.Protocol.DecoderErrors

/-- The first `count` fields of `size` octets. -/
def fieldsOf (size : Nat) : Nat → Bytes → List Bytes
  | 0, _ => []
  | count + 1, b => b.take size :: fieldsOf size count (b.drop size)

/-- The fields that hold AS numbers: those of segments of type 1 and 2. -/
def asFieldsFrom : Nat → Bytes → List Bytes
  | fuel + 1, segmentType :: count :: rest =>
      let size := asSize rest.length count.toNat
      (if segmentType = 2 ∨ segmentType = 1 then fieldsOf size count.toNat rest else []) ++
        asFieldsFrom fuel (rest.drop (count.toNat * size))
  | _, _ => []

def asFields (value : Bytes) : List Bytes := asFieldsFrom value.length value

theorem asSize_cases (remainingBytes segmentLength : Nat) :
    asSize remainingBytes segmentLength = 4 ∨ asSize remainingBytes segmentLength = 2 := by
  unfold asSize
  simp only
  repeat' split
  all_goals simp

theorem readAsNumber_at {d s : Bytes} {offset size : Nat} (hsize : size = 4 ∨ size = 2)
    (hat : At d offset s) (hle : size ≤ s.length) :
    readAsNumber d size offset = .ok (beNat (s.take size)) := by
  have hsplit : At d offset (s.take size ++ s.drop size) := by rwa [List.take_append_drop]
  have htake : (s.take size).length = size := by rw [List.length_take, Nat.min_eq_left hle]
  rw [readAsNumber]
  rcases hsize with rfl | rfl
  · rw [if_pos rfl, readUint32_at hsplit htake]
  · rw [if_neg (by decide), readUint16_at hsplit htake]

theorem segmentAsNumbers_fields {d : Bytes} (segmentType : UInt8) {size : Nat}
    (hsize : size = 4 ∨ size = 2) :
    ∀ (count offset : Nat) (s : Bytes), At d offset s → count * size ≤ s.length →
      segmentAsNumbers d segmentType.toNat size count offset =
        .ok ((if segmentType = 2 ∨ segmentType = 1 then fieldsOf size count s else []).map beNat) := by
  have hseq := asSequence_iff segmentType
  have hset := asSet_iff segmentType
  intro count
  induction count with
  | zero =>
    intro offset s _ _
    simp [segmentAsNumbers, fieldsOf]
  | succ count ih =>
    intro offset s hat hle
    rw [Nat.succ_mul] at hle
    have hsplit : At d offset (s.take size ++ s.drop size) := by rwa [List.take_append_drop]
    have htake : (s.take size).length = size := by rw [List.length_take, Nat.min_eq_left (by omega)]
    have hrest := ih (offset + size) (s.drop size) (hsplit.advance_of htake)
      (by rw [List.length_drop]; omega)
    rw [segmentAsNumbers, readAsNumber_at hsize hat (by omega), ok_bind, hrest, ok_bind]
    simp only [hseq, hset, fieldsOf]
    by_cases h2 : segmentType = 2
    · simp [h2]
    · by_cases h1 : segmentType = 1
      · simp [h1]
      · simp [h1, h2]

/-- One segment, from the cursor it starts at. -/
theorem asPathSegment_fields {d rest : Bytes} {offset : Nat} {segmentType count : UInt8}
    (hat : At d offset (segmentType :: count :: rest)) {round : Round Nat}
    (h : asPathSegment d offset = .ok round) :
    let size := asSize rest.length count.toNat
    count.toNat * size ≤ rest.length ∧
    round = ((if segmentType = 2 ∨ segmentType = 1 then fieldsOf size count.toNat rest
      else []).map beNat, some (offset + 2 + count.toNat * size)) := by
  have hl := hat.length
  have hrest : d.length - (offset + 2) = rest.length := by
    simp only [List.length_cons] at hl
    omega
  simp only [List.length_cons] at hl
  rw [asPathSegment, if_neg (by omega), readUint8_at hat, ok_bind, readUint8_at hat.tail,
    ok_bind] at h
  simp only [hrest] at h ⊢
  split at h
  · cases h
  rename_i hfit
  have hle : count.toNat * asSize rest.length count.toNat ≤ rest.length := by omega
  rw [segmentAsNumbers_fields segmentType (asSize_cases _ _) _ _ _ hat.tail.tail hle, ok_bind] at h
  cases h
  exact ⟨hle, rfl⟩

theorem scan_fields {d : Bytes} :
    ∀ (fuel offset : Nat) (s : Bytes) (ns : List Nat), At d offset s → s.length ≤ fuel →
      scan .diverges (asPathSegment d) d.length offset = .ok ns →
        ns = (asFieldsFrom fuel s).map beNat := by
  intro fuel
  induction fuel with
  | zero =>
    intro offset s ns hat hfuel h
    have hl := hat.length
    rw [scan_done (by omega)] at h
    cases h
    rfl
  | succ fuel ih =>
    intro offset s ns hat hfuel h
    have hl := hat.length
    cases s with
    | nil =>
      rw [scan_done (by simp at hl; omega)] at h
      cases h
      rfl
    | cons segmentType s =>
      simp only [List.length_cons] at hl hfuel
      rw [scan_step (asPathSegment_advances d) (by omega)] at h
      obtain ⟨round, hround, h⟩ := bind_ok_iff.mp h
      cases s with
      | nil =>
        rw [asPathSegment, if_pos (by simp at hl; omega)] at hround
        cases hround
      | cons count rest =>
        obtain ⟨hle, rfl⟩ := asPathSegment_fields hat hround
        simp only at h
        obtain ⟨more, hmore, h⟩ := bind_ok_iff.mp h
        have hnext : At d (offset + 2 + count.toNat * asSize rest.length count.toNat)
            (rest.drop (count.toNat * asSize rest.length count.toNat)) := by
          have hsplit : At d (offset + 2) (rest.take (count.toNat * asSize rest.length count.toNat) ++
              rest.drop (count.toNat * asSize rest.length count.toNat)) := by
            rw [List.take_append_drop]
            exact hat.tail.tail
          exact hsplit.advance_of (by rw [List.length_take, Nat.min_eq_left hle])
        have hmap := ih _ _ more hnext
          (by rw [List.length_drop]; simp only [List.length_cons] at hfuel; omega) hmore
        cases h
        rw [asFieldsFrom, List.map_append, hmap]

/-- The AS numbers of an accepted AS_PATH are the numbers its fields spell. -/
theorem parseAsPath_fields {value : Bytes} {ns : List Nat} (h : parseAsPath value = .ok ns) :
    ns = (asFields value).map beNat :=
  scan_fields value.length 0 value ns (at_zero value) (Nat.le_refl _) h

end Pybmpmon.Protocol.AsPathFields
