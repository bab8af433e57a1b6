import Pybmpmon.Protocol.ValueEncoding

/-!
# AS paths and the width of their numbers

`parse_as_path` is not told whether the AS numbers of a path have four octets or
two: it guesses from the octets left in the attribute. Four octets are always
recognised. Two are recognised only while little follows the segment.
-/
namespace Pybmpmon.Protocol.AsPathWidth

open Pybmpmon.Lib.ByteString Pybmpmon.Lib.Outcome Pybmpmon.Lib.Scan Pybmpmon.Python
open Pybmpmon.Utils.Binary Pybmpmon.Protocol.Bgp Pybmpmon.Protocol.BgpParser
open Pybmpmon.Protocol.DecoderErrors Pybmpmon.Protocol.ValueEncoding
open Pybmpmon.Protocol.AsPathFields

/-! ## Four octets -/

/-- AS paths with four-octet numbers are read as they were written, whatever the types of
their segments and however many numbers each has. -/
theorem parseAsPath_four_octets (segments : List (WireSegment 4)) :
    parseAsPath (segments.flatMap WireSegment.encode) =
      .ok (segments.flatMap WireSegment.counted) :=
  parseAsPath_written fun _ _ _ => asSize_four (Nat.le_add_right _ _)

/-! ## Two octets -/

/-- A sequence or set of two-octet AS numbers, with at least one of them. -/
structure LegacySegment extends WireSegment 2 where
  counts : segmentType = 2 ∨ segmentType = 1
  nonempty : asNumbers ≠ []

namespace LegacySegment

def written (g : LegacySegment) : Bytes := g.toWireSegment.encode

theorem counted_eq (g : LegacySegment) : g.toWireSegment.counted = g.asNumbers :=
  if_pos g.counts

end LegacySegment

/-- After every segment, fewer octets are left than its numbers take. -/
def ShortTails : List LegacySegment → Prop
  | [] => True
  | g :: gs => (gs.flatMap LegacySegment.written).length < g.asNumbers.length * 2 ∧ ShortTails gs

/-- With as many octets left again as its numbers take, a segment is taken for a wide one. -/
theorem asSize_two_iff {count : Nat} (hpos : 0 < count) (rest : Nat) :
    asSize (count * 2 + rest) count = 2 ↔ rest < count * 2 := by
  have hdiv : (count * 2 + rest) / count = 2 + rest / count := by
    rw [Nat.mul_add_div hpos]
  rw [asSize, if_pos hpos]
  simp only [hdiv]
  by_cases hwide : rest < count * 2
  · have hlt : rest / count < 2 := (Nat.div_lt_iff_lt_mul hpos).mpr (by omega)
    simp only [hwide, iff_true]
    rw [if_neg (by omega)]
    split
    · rfl
    · rw [if_neg (by omega)]
  · have hge : 2 ≤ rest / count := (Nat.le_div_iff_mul_le hpos).mpr (by omega)
    simp only [hwide, iff_false]
    split
    · decide
    · rw [if_neg (by omega), if_pos (by omega)]
      decide

theorem fieldsOf_getElem? {size : Nat} :
    ∀ {count k : Nat} (b : Bytes), k < count →
      (fieldsOf size count b)[k]? = some ((b.drop (k * size)).take size) := by
  intro count
  induction count with
  | zero => intro k b hk; exact absurd hk (Nat.not_lt_zero k)
  | succ count ih =>
    intro k b hk
    cases k with
    | zero => simp [fieldsOf]
    | succ k =>
      have hsucc : size + k * size = (k + 1) * size := by rw [Nat.succ_mul, Nat.add_comm]
      rw [fieldsOf, List.getElem?_cons_succ, ih (b.drop size) (by omega), List.drop_drop, hsucc]

/-- A field of four octets is two words. -/
theorem wide_field {b : Bytes} {k : Nat} (hk : k * 4 + 4 ≤ b.length) :
    beNat ((b.drop (k * 4)).take 4) =
      beNat ((b.drop (2 * k * 2)).take 2) * 65536 + beNat ((b.drop ((2 * k + 1) * 2)).take 2) := by
  have hsplit : (b.drop (k * 4)).take 4 =
      (b.drop (2 * k * 2)).take 2 ++ (b.drop ((2 * k + 1) * 2)).take 2 := by
    rw [show k * 4 = 2 * k * 2 by omega, show (2 * k + 1) * 2 = 2 * k * 2 + 2 by omega,
      ← List.drop_drop]
    exact List.take_add (i := 2) (j := 2)
  have hlen : ((b.drop ((2 * k + 1) * 2)).take 2).length = 2 := by
    rw [List.length_take, List.length_drop]
    omega
  rw [hsplit, beNat_append, hlen]
  rfl

/-- Words that read the same in twos as alone are zero: the high word of each pair is zero,
and the low one is an earlier word. -/
theorem words_zero {b : Bytes} {count : Nat} (hfit : count * 4 ≤ b.length)
    (hsame : (fieldsOf 4 count b).map beNat = (fieldsOf 2 count b).map beNat) :
    ∀ j < 2 * count, beNat ((b.drop (j * 2)).take 2) = 0 := by
  intro j
  induction j using Nat.strong_induction_on with
  | h j ih =>
    intro hj
    have hk : j / 2 < count := by omega
    have hpair : beNat ((b.drop (j / 2 * 4)).take 4) = beNat ((b.drop (j / 2 * 2)).take 2) := by
      have hget := congrArg (fun l => l[j / 2]?) hsame
      simpa [fieldsOf_getElem? b hk] using hget
    have hword : beNat ((b.drop (j / 2 * 2)).take 2) < 65536 := by
      have hlt := beNat_lt ((b.drop (j / 2 * 2)).take 2)
      have hle : ((b.drop (j / 2 * 2)).take 2).length ≤ 2 := List.length_take_le _ _
      exact hlt.trans_le (Nat.pow_le_pow_right (by decide) hle)
    rw [wide_field (by omega)] at hpair
    rcases Nat.mod_two_eq_zero_or_one j with heven | hodd
    · have hindex : 2 * (j / 2) = j := by omega
      rw [hindex] at hpair
      omega
    · have hearlier := ih (j / 2) (by omega) (by omega)
      have hindex : 2 * (j / 2) + 1 = j := by omega
      rw [hindex] at hpair
      omega

theorem fieldsOf_length (size count : Nat) (b : Bytes) : (fieldsOf size count b).length = count := by
  induction count generalizing b with
  | zero => rfl
  | succ count ih => rw [fieldsOf, List.length_cons, ih]

/-- Where two-octet numbers are taken for four-octet ones, they are not read as sent: the
words would all be zero, but the header of the next segment is among them. -/
theorem wide_misread (g next : LegacySegment) (rest : Bytes)
    (hlong : g.asNumbers.length * 2 ≤ (next.written ++ rest).length) :
    (fieldsOf 4 g.asNumbers.length
      (g.asNumbers.flatMap (beBytes 2) ++ (next.written ++ rest))).map beNat ≠ g.asNumbers := by
  intro hread
  have hn := flatMap_beBytes_length 2 g.asNumbers
  have hpos : 0 < g.asNumbers.length := List.length_pos_iff.mpr g.nonempty
  have hfields := fieldsOf_written (next.written ++ rest) g.asNumbers g.asNumbers_lt
  have hzero := words_zero (by rw [List.length_append, hn]; omega) (hread.trans hfields.symm)
    g.asNumbers.length (by omega)
  rw [List.drop_left' hn] at hzero
  have hheader : beNat [next.segmentType, UInt8.ofNat next.asNumbers.length] = 0 := hzero
  have htype : next.segmentType.toNat ≠ 0 := by
    rcases next.counts with htype | htype <;> rw [htype] <;> decide
  have hvalue : beNat [next.segmentType, UInt8.ofNat next.asNumbers.length] =
      next.segmentType.toNat * 256 + (UInt8.ofNat next.asNumbers.length).toNat := by
    simp [beNat]
  omega

/-- A segment with a long tail is read at the wrong width: as many numbers, but other ones. -/
theorem long_tail_round {d rest : Bytes} {offset : Nat} {g next : LegacySegment}
    (hat : At d offset (g.written ++ (next.written ++ rest)))
    (hlong : g.asNumbers.length * 2 ≤ (next.written ++ rest).length) {items : List Nat}
    {target : Option Nat} (h : asPathSegment d offset = .ok (items, target)) :
    (items.length = g.asNumbers.length ∧ items ≠ g.asNumbers) ∧ ∃ stop, target = some stop := by
  have hpos : 0 < g.asNumbers.length := List.length_pos_iff.mpr g.nonempty
  have hcount : (UInt8.ofNat g.asNumbers.length).toNat = g.asNumbers.length := octet_toNat g.count_lt
  have hwide : asSize (g.asNumbers.flatMap (beBytes 2) ++ (next.written ++ rest)).length
      g.asNumbers.length = 4 := by
    have hnot := mt (asSize_two_iff hpos (next.written ++ rest).length).mp
      (Nat.not_lt.mpr hlong)
    rw [List.length_append, flatMap_beBytes_length]
    exact (asSize_cases _ _).resolve_right hnot
  simp only [LegacySegment.written, WireSegment.encode, List.cons_append] at hat
  obtain ⟨-, hround⟩ := asPathSegment_fields hat h
  have hmisread := wide_misread g next rest hlong
  simp only [LegacySegment.written, WireSegment.encode, List.cons_append] at hwide hmisread
  rw [hcount, hwide, if_pos g.counts, Prod.mk.injEq] at hround
  obtain ⟨rfl, rfl⟩ := hround
  exact ⟨⟨by rw [List.length_map, fieldsOf_length], hmisread⟩, _, rfl⟩

/-- One segment and those after it: read as sent when its width is recognised and they are. -/
theorem scan_legacy {d : Bytes} :
    ∀ (segments : List LegacySegment) (offset : Nat),
      At d offset (segments.flatMap LegacySegment.written) →
      (scan .diverges (asPathSegment d) d.length offset =
          .ok (segments.flatMap fun g => g.asNumbers) ↔
        ShortTails segments) := by
  intro segments
  induction segments with
  | nil =>
    intro offset hat
    have hl := hat.length
    simp only [List.flatMap_nil, List.length_nil] at hl
    rw [scan_done (by omega)]
    exact iff_of_true rfl trivial
  | cons g gs ih =>
    intro offset hat
    have hpos : 0 < g.asNumbers.length := List.length_pos_iff.mpr g.nonempty
    have hl := hat.length
    rw [List.flatMap_cons] at hat
    have hlong : 0 < g.written.length := by simp [LegacySegment.written, WireSegment.encode]
    simp only [List.flatMap_cons, List.length_append] at hl
    rw [scan_step (asPathSegment_advances d) (by omega), ShortTails]
    by_cases hshort : (gs.flatMap LegacySegment.written).length < g.asNumbers.length * 2
    · have htwo := (asSize_two_iff hpos (gs.flatMap LegacySegment.written).length).mpr hshort
      rw [asPathSegment_written g.toWireSegment hat htwo, ok_bind, g.counted_eq]
      have hrest := ih _ hat.advance
      simp only [hshort, true_and]
      rw [← hrest]
      constructor
      · intro h
        obtain ⟨more, hmore, h⟩ := bind_ok_iff.mp h
        rw [Except.ok.injEq] at h
        rw [List.append_cancel_left h] at hmore
        exact hmore
      · intro h
        show (scan .diverges (asPathSegment d) d.length (offset + g.written.length) >>= fun rest =>
          .ok (g.asNumbers ++ rest)) = _
        rw [h, ok_bind, List.flatMap_cons]
    · simp only [hshort, false_and, iff_false]
      intro h
      cases gs with
      | nil =>
        simp only [List.flatMap_nil, List.length_nil] at hshort
        omega
      | cons next gs =>
        rw [List.flatMap_cons] at hshort hat
        obtain ⟨⟨items, target⟩, hround, h⟩ := bind_ok_iff.mp h
        obtain ⟨hnumbers, stop, rfl⟩ := long_tail_round hat (Nat.not_lt.mp hshort) hround
        obtain ⟨more, hmore, h⟩ := bind_ok_iff.mp h
        rw [Except.ok.injEq, List.flatMap_cons] at h
        have hsame := List.append_inj_left h hnumbers.1
        exact hnumbers.2 hsame

/-- AS paths with two-octet numbers are read as they were written exactly when, after every
segment, fewer octets are left than its numbers take. -/
theorem parseAsPath_two_octets_iff (segments : List LegacySegment) :
    parseAsPath (segments.flatMap LegacySegment.written) =
        .ok (segments.flatMap fun g => g.asNumbers) ↔ ShortTails segments :=
  scan_legacy segments 0 (at_zero _)

/-- Two sequences of one number each: the first is read as one of four octets. -/
theorem two_octet_segments_not_read :
    ¬ ∀ segments : List LegacySegment,
      parseAsPath (segments.flatMap LegacySegment.written) =
        .ok (segments.flatMap fun g => g.asNumbers) := by
  intro h
  have hone := h [⟨⟨2, [64500], by decide, by decide⟩, .inl rfl, by decide⟩,
    ⟨⟨2, [64501], by decide, by decide⟩, .inl rfl, by decide⟩]
  revert hone
  decide

end Pybmpmon.Protocol.AsPathWidth
