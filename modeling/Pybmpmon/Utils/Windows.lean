import Pybmpmon.Utils.Binary

/-!
# Reads inside a window

A read that stays inside a window of the buffer returns what it returns on the
window alone, whatever stands before and after.
-/
namespace Pybmpmon.Utils.Windows

open Pybmpmon.Lib.ByteString Pybmpmon.Python Pybmpmon.Utils.Binary

section Window

variable {d w s : Bytes} {o : Nat} (h : At d o (w ++ s))
include h

theorem octets_window {k n : Nat} (hk : k + n ≤ w.length) :
    (d.drop (o + k)).take n = (w.drop k).take n := by
  rw [← List.drop_drop, h.rest, List.drop_append_of_le_length (by omega),
    List.take_append_of_le_length (by rw [List.length_drop]; omega)]

theorem window_end {k n : Nat} (hk : k + n ≤ w.length) : o + k + n ≤ d.length := by
  have hl := h.length
  rw [List.length_append] at hl
  omega

theorem readUint8_window {k : Nat} (hk : k < w.length) : readUint8 d (o + k) = readUint8 w k := by
  have hl := window_end h (show k + 1 ≤ w.length from hk)
  have hget : d[o + k]? = w[k]? := by
    rw [h.getElem? k, List.getElem?_append_left hk]
  rw [readUint8, readUint8, if_neg (by omega), if_neg (by omega), index, index, hget]

theorem readUint16_window {k : Nat} (hk : k + 2 ≤ w.length) :
    readUint16 d (o + k) = readUint16 w k := by
  rw [readUint16_ok (window_end h hk), readUint16_ok hk, octets_window h hk]

theorem readUint32_window {k : Nat} (hk : k + 4 ≤ w.length) :
    readUint32 d (o + k) = readUint32 w k := by
  rw [readUint32_ok (window_end h hk), readUint32_ok hk, octets_window h hk]

theorem readBytes_window {k n : Nat} (hk : k + n ≤ w.length) :
    readBytes d (o + k) n = readBytes w k n := by
  rw [readBytes_ok (window_end h hk), readBytes_ok hk, octets_window h hk]

theorem readIpv4Address_window {k : Nat} (hk : k + 4 ≤ w.length) :
    readIpv4Address d (o + k) = readIpv4Address w k := by
  have hl := window_end h hk
  rw [readIpv4Address, readIpv4Address, if_neg (by omega), if_neg (by omega), slice_nat, slice_nat,
    octets_window h hk]

theorem readIpAddress_window {k : Nat} (isIpv6 : Bool) (hk : k + 16 ≤ w.length) :
    readIpAddress d (o + k) isIpv6 = readIpAddress w k isIpv6 := by
  have hl := window_end h hk
  have hd : ¬d.length < o + k + 16 := by omega
  have hw : ¬w.length < k + 16 := by omega
  rw [readIpAddress, readIpAddress, if_neg hd, if_neg hw, slice_nat, slice_nat, octets_window h hk]

end Window

/-! ## What follows the buffer is not read -/

section Append

variable {d : Bytes} (e : Bytes) {k : Nat}

theorem octets_append {n : Nat} (hk : k + n ≤ d.length) :
    ((d ++ e).drop k).take n = (d.drop k).take n := by
  have h := octets_window (at_zero (d ++ e)) hk
  rwa [Nat.zero_add] at h

theorem readUint8_append (hk : k < d.length) : readUint8 (d ++ e) k = readUint8 d k := by
  have h := readUint8_window (at_zero (d ++ e)) hk
  rwa [Nat.zero_add] at h

theorem readUint16_append (hk : k + 2 ≤ d.length) : readUint16 (d ++ e) k = readUint16 d k := by
  have h := readUint16_window (at_zero (d ++ e)) hk
  rwa [Nat.zero_add] at h

theorem readUint32_append (hk : k + 4 ≤ d.length) : readUint32 (d ++ e) k = readUint32 d k := by
  have h := readUint32_window (at_zero (d ++ e)) hk
  rwa [Nat.zero_add] at h

theorem readBytes_append {n : Nat} (hk : k + n ≤ d.length) :
    readBytes (d ++ e) k n = readBytes d k n := by
  have h := readBytes_window (at_zero (d ++ e)) hk
  rwa [Nat.zero_add] at h

theorem readIpv4Address_append (hk : k + 4 ≤ d.length) :
    readIpv4Address (d ++ e) k = readIpv4Address d k := by
  have h := readIpv4Address_window (at_zero (d ++ e)) hk
  rwa [Nat.zero_add] at h

theorem readIpAddress_append (isIpv6 : Bool) (hk : k + 16 ≤ d.length) :
    readIpAddress (d ++ e) k isIpv6 = readIpAddress d k isIpv6 := by
  have h := readIpAddress_window (at_zero (d ++ e)) isIpv6 hk
  rwa [Nat.zero_add] at h

end Append

end Pybmpmon.Utils.Windows
